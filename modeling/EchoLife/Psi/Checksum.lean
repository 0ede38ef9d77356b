import EchoLife.Firmware.Tag
import EchoLife.Lib.BitCrc

/-!
# Checksum of the configuration store

The 32-bit checksum of the configuration utilities. It can be taken in pieces, it is the reflected
division by `crc32Poly`, and it tells apart any two strings that differ within 32 consecutive bits
(`getCrc32_detects`). Bits are counted as the division takes them, the low bit of a byte first.
-/

namespace EchoLife.Psi

open TableCrc

def psiCrc32Table : Array UInt32 := Firmware.crc32Table

def psiCrc32Entry (i : UInt32) : UInt32 :=
  psiCrc32Table.getD i.toNat 0

def getCrc32 (pdata : List UInt8) (crc : UInt32) : UInt32 :=
  pdata.foldl (fun crc b => (crc >>> 8) ^^^ psiCrc32Entry ((crc ^^^ b.toUInt32) &&& 0xFF)) crc

def crc32Poly : UInt32 := 0xEDB88320

theorem tops_crc32Poly : Tops crc32Poly 31 where
  lead := by decide
  below := below_of_bits (by decide)

theorem psiCrc32Entry_eq (i : UInt8) :
    psiCrc32Entry i.toUInt32 = (byteBits i).foldl (pushBit crc32Poly) 0 := by
  have entries : ∀ n : Fin 256, psiCrc32Entry (UInt8.ofFin n).toUInt32 =
      (byteBits (UInt8.ofFin n)).foldl (pushBit crc32Poly) 0 := by decide +kernel
  exact entries i.toFin

/-- **The checksum is a reflected division.** It is taken piece by piece, it is the bitwise
division by the polynomial, and a burst of at most 32 bits changes it. -/
theorem getCrc32_detects :
    (∀ a b crc, getCrc32 (a ++ b) crc = getCrc32 b (getCrc32 a crc)) ∧
      (∀ pdata crc, getCrc32 pdata crc = (lsbBits pdata).foldl (pushBit crc32Poly) crc) ∧
      ∀ (p q : List UInt8) (crc : UInt32), p.length = q.length → p ≠ q →
        (∃ start, AgreeOutside start 32 (lsbBits p) (lsbBits q)) →
        getCrc32 p crc ≠ getCrc32 q crc := by
  refine ⟨fun a b crc => List.foldl_append, foldl_lsbStep_eq psiCrc32Entry_eq, ?_⟩
  rintro p q crc length differs ⟨start, agree⟩ same
  have small : Below 32 crc := fun i beyond => BitVec.getLsbD_of_ge _ _ beyond
  exact differs
    (foldl_lsbStep_injOn tops_crc32Poly psiCrc32Entry_eq small length start agree same)

end EchoLife.Psi
