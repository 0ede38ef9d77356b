import EchoLife.Flash.Partition
import EchoLife.Lib.TableCrc
import EchoLife.Lib.TextSearch

/-!
# Image tags

A firmware image begins with a tag of 256 bytes: decimal addresses and lengths, a sequence number,
and a checksum. Two places of the flash may hold an image, and `getBootImageTag` says which tag the
boot loader follows. A tag with a new sequence number and checksum is right (`tagOk_newTag`,
`imageSequence_newTag`), and an erased sector holds none (`not_tagOk_erased`).
-/

namespace EchoLife.Firmware

open List BlockTable ByteStore CrashTrace TableCrc EchoLife.Flash

/-! ## Checksum -/

def crc32Table : Array UInt32 := #[
  0x00000000, 0x77073096, 0xEE0E612C, 0x990951BA, 0x076DC419, 0x706AF48F, 0xE963A535, 0x9E6495A3,
  0x0EDB8832, 0x79DCB8A4, 0xE0D5E91E, 0x97D2D988, 0x09B64C2B, 0x7EB17CBD, 0xE7B82D07, 0x90BF1D91,
  0x1DB71064, 0x6AB020F2, 0xF3B97148, 0x84BE41DE, 0x1ADAD47D, 0x6DDDE4EB, 0xF4D4B551, 0x83D385C7,
  0x136C9856, 0x646BA8C0, 0xFD62F97A, 0x8A65C9EC, 0x14015C4F, 0x63066CD9, 0xFA0F3D63, 0x8D080DF5,
  0x3B6E20C8, 0x4C69105E, 0xD56041E4, 0xA2677172, 0x3C03E4D1, 0x4B04D447, 0xD20D85FD, 0xA50AB56B,
  0x35B5A8FA, 0x42B2986C, 0xDBBBC9D6, 0xACBCF940, 0x32D86CE3, 0x45DF5C75, 0xDCD60DCF, 0xABD13D59,
  0x26D930AC, 0x51DE003A, 0xC8D75180, 0xBFD06116, 0x21B4F4B5, 0x56B3C423, 0xCFBA9599, 0xB8BDA50F,
  0x2802B89E, 0x5F058808, 0xC60CD9B2, 0xB10BE924, 0x2F6F7C87, 0x58684C11, 0xC1611DAB, 0xB6662D3D,
  0x76DC4190, 0x01DB7106, 0x98D220BC, 0xEFD5102A, 0x71B18589, 0x06B6B51F, 0x9FBFE4A5, 0xE8B8D433,
  0x7807C9A2, 0x0F00F934, 0x9609A88E, 0xE10E9818, 0x7F6A0DBB, 0x086D3D2D, 0x91646C97, 0xE6635C01,
  0x6B6B51F4, 0x1C6C6162, 0x856530D8, 0xF262004E, 0x6C0695ED, 0x1B01A57B, 0x8208F4C1, 0xF50FC457,
  0x65B0D9C6, 0x12B7E950, 0x8BBEB8EA, 0xFCB9887C, 0x62DD1DDF, 0x15DA2D49, 0x8CD37CF3, 0xFBD44C65,
  0x4DB26158, 0x3AB551CE, 0xA3BC0074, 0xD4BB30E2, 0x4ADFA541, 0x3DD895D7, 0xA4D1C46D, 0xD3D6F4FB,
  0x4369E96A, 0x346ED9FC, 0xAD678846, 0xDA60B8D0, 0x44042D73, 0x33031DE5, 0xAA0A4C5F, 0xDD0D7CC9,
  0x5005713C, 0x270241AA, 0xBE0B1010, 0xC90C2086, 0x5768B525, 0x206F85B3, 0xB966D409, 0xCE61E49F,
  0x5EDEF90E, 0x29D9C998, 0xB0D09822, 0xC7D7A8B4, 0x59B33D17, 0x2EB40D81, 0xB7BD5C3B, 0xC0BA6CAD,
  0xEDB88320, 0x9ABFB3B6, 0x03B6E20C, 0x74B1D29A, 0xEAD54739, 0x9DD277AF, 0x04DB2615, 0x73DC1683,
  0xE3630B12, 0x94643B84, 0x0D6D6A3E, 0x7A6A5AA8, 0xE40ECF0B, 0x9309FF9D, 0x0A00AE27, 0x7D079EB1,
  0xF00F9344, 0x8708A3D2, 0x1E01F268, 0x6906C2FE, 0xF762575D, 0x806567CB, 0x196C3671, 0x6E6B06E7,
  0xFED41B76, 0x89D32BE0, 0x10DA7A5A, 0x67DD4ACC, 0xF9B9DF6F, 0x8EBEEFF9, 0x17B7BE43, 0x60B08ED5,
  0xD6D6A3E8, 0xA1D1937E, 0x38D8C2C4, 0x4FDFF252, 0xD1BB67F1, 0xA6BC5767, 0x3FB506DD, 0x48B2364B,
  0xD80D2BDA, 0xAF0A1B4C, 0x36034AF6, 0x41047A60, 0xDF60EFC3, 0xA867DF55, 0x316E8EEF, 0x4669BE79,
  0xCB61B38C, 0xBC66831A, 0x256FD2A0, 0x5268E236, 0xCC0C7795, 0xBB0B4703, 0x220216B9, 0x5505262F,
  0xC5BA3BBE, 0xB2BD0B28, 0x2BB45A92, 0x5CB36A04, 0xC2D7FFA7, 0xB5D0CF31, 0x2CD99E8B, 0x5BDEAE1D,
  0x9B64C2B0, 0xEC63F226, 0x756AA39C, 0x026D930A, 0x9C0906A9, 0xEB0E363F, 0x72076785, 0x05005713,
  0x95BF4A82, 0xE2B87A14, 0x7BB12BAE, 0x0CB61B38, 0x92D28E9B, 0xE5D5BE0D, 0x7CDCEFB7, 0x0BDBDF21,
  0x86D3D2D4, 0xF1D4E242, 0x68DDB3F8, 0x1FDA836E, 0x81BE16CD, 0xF6B9265B, 0x6FB077E1, 0x18B74777,
  0x88085AE6, 0xFF0F6A70, 0x66063BCA, 0x11010B5C, 0x8F659EFF, 0xF862AE69, 0x616BFFD3, 0x166CCF45,
  0xA00AE278, 0xD70DD2EE, 0x4E048354, 0x3903B3C2, 0xA7672661, 0xD06016F7, 0x4969474D, 0x3E6E77DB,
  0xAED16A4A, 0xD9D65ADC, 0x40DF0B66, 0x37D83BF0, 0xA9BCAE53, 0xDEBB9EC5, 0x47B2CF7F, 0x30B5FFE9,
  0xBDBDF21C, 0xCABAC28A, 0x53B39330, 0x24B4A3A6, 0xBAD03605, 0xCDD70693, 0x54DE5729, 0x23D967BF,
  0xB3667A2E, 0xC4614AB8, 0x5D681B02, 0x2A6F2B94, 0xB40BBE37, 0xC30C8EA1, 0x5A05DF1B, 0x2D02EF8D]

def crc32Entry (i : UInt32) : UInt32 :=
  crc32Table.getD i.toNat 0

def crc32InitValue : UInt32 := 0xFFFFFFFF

def getCrc32 (pdata : List UInt8) (crc : UInt32) : UInt32 :=
  pdata.foldl (lsbStep crc32Entry) crc

/-! ## Fields of a tag -/

def tagLen : Nat := 256

def tokenLen : Nat := 20

def rootfsAddressAt : Nat := 94

def rootfsLenAt : Nat := 106

def kernelLenAt : Nat := 128

def imageSequenceAt : Nat := 138

def tagValidationTokenAt : Nat := tagLen - tokenLen

def imageBase : UInt32 := 0xBFC00000

def isDigit (c : UInt8) : Bool := 0x30 ≤ c && c ≤ 0x39

/-- The number at the begin of a text, in base ten and modulo `2 ^ 32`. Nothing ends the text of a
field but a byte that is no digit. -/
def simpleStrtoul (cp : List UInt8) : UInt32 :=
  (cp.takeWhile isDigit).foldl (fun result c => result * 10 + (c - 0x30).toUInt32) 0

def rootfsAddr (tag : List UInt8) : UInt32 :=
  simpleStrtoul (tag.drop rootfsAddressAt) - imageBase

def imgSize (tag : List UInt8) : UInt32 :=
  simpleStrtoul (tag.drop rootfsLenAt) + simpleStrtoul (tag.drop kernelLenAt)

def imageSequence (tag : List UInt8) : UInt32 :=
  simpleStrtoul (tag.drop imageSequenceAt)

def imageArea (tag : List UInt8) : Set Nat :=
  Set.Ico (rootfsAddr tag).toNat ((rootfsAddr tag).toNat + (imgSize tag).toNat)

def tagOk (tag : List UInt8) : Bool :=
  (tag.drop tagValidationTokenAt).take 4 =
    msbBytes (getCrc32 (tag.take tagValidationTokenAt) crc32InitValue)

theorem not_tagOk_erased : tagOk (replicate tagLen 0xFF) = false := by
  decide +kernel

/-! ## The tags in flash -/

def flashLengthBootRom : Nat := 128 * onek

def tagBlk (sizes : List Nat) : (imageNumber : Nat) → Int
  | 1 => cfiFlashGetBlk sizes flashLengthBootRom
  | 2 => cfiFlashGetBlk sizes (flashGetTotalSize sizes / 2)
  | _ => 0

def getTagFromPartition (sizes : List Nat) (imageNumber : Nat) (chip : Chip) :
    Option (List UInt8) :=
  if tagBlk sizes imageNumber ≤ 0 then none
  else
    let tag := flashReadBuf sizes (tagBlk sizes imageNumber).toNat 0 tagLen chip
    if tagOk tag then some tag else none

def sizeofNvramData : Nat := 332

def szBootlineAt : Nat := 4

def ulCheckSumAt : Nat := 328

def nvramData (chip : Chip) : List UInt8 :=
  load chip nvramDataOffset sizeofNvramData

def bootLatestImage : UInt8 := 0x30

/-- The loop that looks for `p=` and an accepted letter in the boot line. It ends at a NUL two
letters ahead. -/
def findBootPartition (accept : UInt8 → Bool) : List UInt8 → Option Nat
  | p0 :: p1 :: p2 :: rest =>
    if p2 = 0 then none
    else if p0 = 0x70 ∧ p1 = 0x3D ∧ accept p2 then some 0
    else (findBootPartition accept (p1 :: p2 :: rest)).map (· + 1)
  | _ => none

/-- The boot partition that the boot line names. The text is searched in memory from the boot line
on; `stack` is what follows the NVRAM data there. -/
def bootPartition (stack : List UInt8) (chip : Chip) : UInt8 :=
  let szBootline := (nvramData chip ++ stack).drop szBootlineAt
  match findBootPartition (fun _ => true) szBootline with
  | some i => szBootline.getD (i + 2) 0
  | none => bootLatestImage

def getBootImageTag (sizes : List Nat) (stack : List UInt8) (chip : Chip) :
    Option (List UInt8) :=
  match getTagFromPartition sizes 1 chip, getTagFromPartition sizes 2 chip with
  | some pTag1, some pTag2 =>
    let sequence1 := (imageSequence pTag1).toBitVec.toInt
    let sequence2 := (imageSequence pTag2).toBitVec.toInt
    if bootPartition stack chip = bootLatestImage then
      if sequence2 > sequence1 then some pTag2 else some pTag1
    else if sequence2 < sequence1 then some pTag2 else some pTag1
  | pTag1, none => pTag1
  | none, pTag2 => pTag2

/-! ## The tag of a new image -/

def newImageSequence (sizes : List Nat) (chip : Chip) : UInt32 :=
  let first := ((getTagFromPartition sizes 1 chip).map imageSequence).getD 0
  match getTagFromPartition sizes 2 chip with
  | some pTag => (if imageSequence pTag > first then imageSequence pTag else first) + 1
  | none => first + 1

def sprintfD (n : UInt32) : List UInt8 :=
  let digits (k : Nat) : List UInt8 := (Nat.toDigits 10 k).map fun c => c.toNat.toUInt8
  if n.toNat < 2 ^ 31 then digits n.toNat ++ [0] else 0x2D :: digits (2 ^ 32 - n.toNat) ++ [0]

def updateImageSequenceNumber (sequence : UInt32) (tag : List UInt8) : List UInt8 :=
  overwrite tag imageSequenceAt (sprintfD sequence)

def setTagToken (tag : List UInt8) : List UInt8 :=
  overwrite tag tagValidationTokenAt
    (msbBytes (getCrc32 (tag.take tagValidationTokenAt) crc32InitValue))

structure Image where
  tag : List UInt8
  body : List UInt8
  length_tag : tag.length = tagLen

def Image.newTag (image : Image) (sequence : UInt32) : List UInt8 :=
  setTagToken (updateImageSequenceNumber sequence image.tag)

def Image.bytes (image : Image) (sequence : UInt32) (i : Nat) : UInt8 :=
  (image.newTag sequence ++ image.body).getD i 0

theorem length_sprintfD (n : UInt32) : (sprintfD n).length ≤ 12 := by
  simp only [sprintfD]
  split
  · have := Nat.toDigits_length 10 n.toNat 10 (by decide) (by omega)
    simp only [length_append, length_map, length_singleton]
    omega
  · have := Nat.toDigits_length 10 (2 ^ 32 - n.toNat) 10 (by decide) (by omega)
    simp only [length_append, length_cons, length_map, length_nil]
    omega

theorem length_updateImageSequenceNumber (sequence : UInt32) {tag : List UInt8}
    (length : tag.length = tagLen) :
    (updateImageSequenceNumber sequence tag).length = tagLen := by
  have short := length_sprintfD sequence
  rw [updateImageSequenceNumber, length_overwrite, length]
  rw [length]
  simp only [imageSequenceAt, tagLen]
  omega

theorem length_setTagToken {tag : List UInt8} (length : tag.length = tagLen) :
    (setTagToken tag).length = tagLen := by
  have word (w : UInt32) : (msbBytes w).length = 4 := rfl
  rw [setTagToken, length_overwrite, length]
  rw [length, word]
  decide

theorem Image.length_newTag (image : Image) (sequence : UInt32) :
    (image.newTag sequence).length = tagLen :=
  length_setTagToken (length_updateImageSequenceNumber sequence image.length_tag)

theorem tagOk_setTagToken {tag : List UInt8} (length : tag.length = tagLen) :
    tagOk (setTagToken tag) = true := by
  have front : (tag.take tagValidationTokenAt).length = tagValidationTokenAt := by
    rw [length_take, length]
    rfl
  rw [tagOk, setTagToken, overwrite, append_assoc, take_left' front,
    drop_left' front]
  exact decide_eq_true rfl

theorem Image.tagOk_newTag (image : Image) (sequence : UInt32) :
    tagOk (image.newTag sequence) = true :=
  tagOk_setTagToken (length_updateImageSequenceNumber sequence image.length_tag)

/-! ## What a tag depends on -/

section Tags

variable {sizes : List Nat} {imageNumber : Nat} {chip t : Chip}

def tagStart (sizes : List Nat) (imageNumber : Nat) : Nat :=
  start sizes (tagBlk sizes imageNumber).toNat

theorem getTagFromPartition_congr
    (same : ∀ x, tagStart sizes imageNumber ≤ x → x < tagStart sizes imageNumber + tagLen →
      t x = chip x) :
    getTagFromPartition sizes imageNumber t = getTagFromPartition sizes imageNumber chip := by
  have tag : flashReadBuf sizes (tagBlk sizes imageNumber).toNat 0 tagLen t =
      flashReadBuf sizes (tagBlk sizes imageNumber).toNat 0 tagLen chip := load_congr same
  rw [getTagFromPartition, getTagFromPartition, tag]

theorem getTagFromPartition_eq (exists_blk : 0 < tagBlk sizes imageNumber) :
    getTagFromPartition sizes imageNumber chip =
      if tagOk (load chip (tagStart sizes imageNumber) tagLen) then
        some (load chip (tagStart sizes imageNumber) tagLen) else none := by
  rw [getTagFromPartition, if_neg (by omega)]
  rfl

theorem getBootImageTag_first (stack : List UInt8)
    (second : getTagFromPartition sizes 2 chip = none) :
    getBootImageTag sizes stack chip = getTagFromPartition sizes 1 chip := by
  rw [getBootImageTag, second]
  cases getTagFromPartition sizes 1 chip with
  | none => rfl
  | some tag => rfl

end Tags

/-! ## What a new tag says -/

def fieldsEnd (tag : List UInt8) : Bool :=
  [rootfsAddressAt, rootfsLenAt, kernelLenAt].all fun pos =>
    ((tag.take imageSequenceAt).drop pos).any fun c => !isDigit c

theorem simpleStrtoul_append {text : List UInt8} (ends : text.any fun c => !isDigit c)
    (rest : List UInt8) : simpleStrtoul (text ++ rest) = simpleStrtoul text := by
  have digits : (text ++ rest).takeWhile isDigit = text.takeWhile isDigit := by
    induction text with
    | nil => cases ends
    | cons c text ih =>
      by_cases digit : isDigit c
      · rw [any_cons, digit] at ends
        rw [cons_append, takeWhile_cons_of_pos digit,
          takeWhile_cons_of_pos digit, ih ends]
      · rw [cons_append, takeWhile_cons_of_neg digit,
          takeWhile_cons_of_neg digit]
  rw [simpleStrtoul, simpleStrtoul, digits]

section NewTag

variable (image : Image) (sequence : UInt32)

theorem Image.take_newTag :
    (image.newTag sequence).take imageSequenceAt = image.tag.take imageSequenceAt := by
  have length := image.length_tag
  have front : (image.tag.take imageSequenceAt).length = imageSequenceAt := by
    rw [length_take, length]
    rfl
  have long : imageSequenceAt ≤ ((updateImageSequenceNumber sequence image.tag).take
      tagValidationTokenAt).length := by
    rw [length_take, length_updateImageSequenceNumber sequence length]
    decide
  rw [newTag, setTagToken, overwrite, append_assoc, take_append_of_le_length long,
    take_take, updateImageSequenceNumber, overwrite, append_assoc,
    show min imageSequenceAt tagValidationTokenAt = imageSequenceAt from rfl, take_left' front]

variable {image} (ends : fieldsEnd image.tag = true)
include ends

theorem Image.field_newTag {pos : Nat}
    (mem : pos ∈ [rootfsAddressAt, rootfsLenAt, kernelLenAt]) :
    simpleStrtoul ((image.newTag sequence).drop pos) = simpleStrtoul (image.tag.drop pos) := by
  have inFront : ∀ pos ∈ [rootfsAddressAt, rootfsLenAt, kernelLenAt], pos ≤ imageSequenceAt := by
    decide
  have field := all_eq_true.mp ends pos mem
  have early := inFront pos mem
  have split (tag : List UInt8) (long : tag.length = tagLen) : tag.drop pos =
      (tag.take imageSequenceAt).drop pos ++ tag.drop imageSequenceAt := by
    have short : pos ≤ (tag.take imageSequenceAt).length := by
      rw [length_take, long]
      exact le_min early (early.trans (by decide))
    rw [← drop_append_of_le_length short, take_append_drop]
  rw [split _ (image.length_newTag sequence), split _ image.length_tag, image.take_newTag,
    simpleStrtoul_append field, simpleStrtoul_append field]

theorem Image.rootfsAddr_newTag : rootfsAddr (image.newTag sequence) = rootfsAddr image.tag := by
  rw [rootfsAddr, Image.field_newTag sequence ends (by decide), rootfsAddr]

theorem Image.imgSize_newTag : imgSize (image.newTag sequence) = imgSize image.tag := by
  rw [imgSize, Image.field_newTag sequence ends (by decide),
    Image.field_newTag sequence ends (by decide), imgSize]

end NewTag

theorem foldl_toDigits (n : Nat) :
    (∀ c ∈ (Nat.toDigits 10 n).map fun c => c.toNat.toUInt8, isDigit c) ∧
      ((Nat.toDigits 10 n).map fun c => c.toNat.toUInt8).foldl
        (fun result c => result * 10 + (c - 0x30).toUInt32) 0 = UInt32.ofNat n := by
  have digit (d : Nat) (small : d < 10) : isDigit (Nat.digitChar d).toNat.toUInt8 ∧
      ((Nat.digitChar d).toNat.toUInt8 - 0x30).toUInt32 = UInt32.ofNat d := by
    revert d
    decide
  refine TextSearch.toDigits_induction (P := fun n digits =>
    (∀ c ∈ digits.map fun c => c.toNat.toUInt8, isDigit c) ∧
      (digits.map fun c => c.toNat.toUInt8).foldl
        (fun result c => result * 10 + (c - 0x30).toUInt32) 0 = UInt32.ofNat n) ?_ ?_ n
  · intro d small
    simpa using digit d small
  · rintro m front d small ⟨digits, value⟩
    have last := digit d small
    rw [map_append, foldl_append, value, map_singleton]
    constructor
    · intro c mem
      rcases mem_append.mp mem with mem | mem
      · exact digits c mem
      · rw [mem_singleton.mp mem]
        exact last.1
    · rw [foldl_cons, foldl_nil, last.2, Nat.mul_comm 10 m, UInt32.ofNat_add,
        UInt32.ofNat_mul]
      rfl

theorem Image.imageSequence_newTag (image : Image) {sequence : UInt32}
    (positive : sequence.toNat < 2 ^ 31) :
    imageSequence (image.newTag sequence) = sequence := by
  obtain ⟨digits, value⟩ := foldl_toDigits sequence.toNat
  have length := length_sprintfD sequence
  have text : sprintfD sequence =
      ((Nat.toDigits 10 sequence.toNat).map fun c => c.toNat.toUInt8) ++ [0] := if_pos positive
  have front : (image.tag.take imageSequenceAt).length = imageSequenceAt := by
    rw [length_take, image.length_tag]
    rfl
  have whole : (image.tag.take imageSequenceAt ++ sprintfD sequence).length ≤
      tagValidationTokenAt := by
    rw [length_append, front]
    exact (Nat.add_le_add_left length _).trans (by decide)
  rw [imageSequence, newTag, setTagToken, overwrite, updateImageSequenceNumber, overwrite,
    take_append, take_of_length_le whole]
  simp only [append_assoc]
  rw [drop_left' front, simpleStrtoul_append (by rw [text]; simp [isDigit]), text,
    simpleStrtoul, takeWhile_append_of_pos digits,
    takeWhile_cons_of_neg (by decide), append_nil, value, UInt32.ofNat_toNat]

end EchoLife.Firmware
