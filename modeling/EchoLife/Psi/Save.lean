import EchoLife.Lib.TextSearch
import EchoLife.ScratchPad.Store

/-!
# Saving and recovering the configuration

The configuration is an XML document at the start of two partitions. `writeStreamToFlash` writes
the first copy and then the second one. `init` takes the first copy if it begins with `<psitree>`
and the parser, which is a parameter, accepts it, else the second one, else the factory defaults.

After a power failure at any point of a save the next start-up loads the old document, the new one,
or what a half-written first copy shows if the verification passes it (`save_crash`). Without one,
every start-up loads the last document that was saved (`session_loads`).
-/

namespace EchoLife.Psi

open List Option BlockTable ByteStore CrashTrace TextSearch EchoLife.Flash EchoLife.ScratchPad
open FlashPart

/-! ## Documents in memory -/

def xmlPsiStartTag : List UInt8 := ascii "<psitree>"

def xmlPsiEndTag : List UInt8 := ascii "</psitree>"

def strstr (needle haystack : List UInt8) : Option Nat :=
  find 0 needle haystack

structure Document where
  bytes : List UInt8
  opens : xmlPsiStartTag <+: bytes
  closes : strstr xmlPsiEndTag bytes = some (bytes.length - xmlPsiEndTag.length)

def profileDocument (stack profileBuffer : List UInt8) : Option (List UInt8) :=
  if xmlPsiStartTag.isPrefixOf (profileBuffer ++ stack) then
    match strstr xmlPsiEndTag (profileBuffer ++ stack) with
    | some pc => some ((profileBuffer ++ stack).take (pc + xmlPsiEndTag.length))
    | none => some profileBuffer
  else none

theorem profileDocument_of_begins {document : Document} {profileBuffer : List UInt8}
    (begins : document.bytes <+: profileBuffer) (stack : List UInt8) :
    profileDocument stack profileBuffer = some document.bytes := by
  obtain ⟨rest, rfl⟩ := begins
  have size := find_le document.closes
  have start : xmlPsiStartTag.isPrefixOf (document.bytes ++ rest ++ stack) = true := by
    rw [List.isPrefixOf_iff_prefix, append_assoc]
    exact document.opens.trans (prefix_append _ _)
  rw [profileDocument, if_pos start, append_assoc, strstr, find_append document.closes]
  simp only [some.injEq]
  exact take_left' (by omega)

/-! ## Saving and starting -/

structure Host where
  /-- `dlXmlParse` with verification accepts the document. -/
  verify : List UInt8 → Bool
  /-- The file with the factory defaults, if there is one. -/
  defaultConfig : Option (List UInt8)
  stack : List UInt8

inductive PsiStatus where
  | ok
  | errGeneral
  | errMemory
  | errConfigfileSize
  | errConfigfileUnknown
  deriving Repr, DecidableEq

def sysGetPsiSize (board : Board) : Nat := board.persistentLength

def writeStreamToFlash (board : Board) (filestream : List UInt8) : DriverM PsiStatus :=
  if sysGetPsiSize board < filestream.length then pure .errConfigfileSize
  else do
    let primary ← kerSysPersistentSet board filestream 0
    let backup ← kerSysPsiBackupSet board filestream 0
    pure (if primary ≠ some 0 ∨ backup ≠ some 0 then .errGeneral else .ok)

def writeFileToFlash (board : Board) (octets : List UInt8) : DriverM PsiStatus :=
  if octets.length = 0 ∨ octets.length > sysGetPsiSize board then pure .errConfigfileSize
  else writeStreamToFlash board (octets ++ [0, 0])

def readProfile (host : Host) (len : Nat) : Option (Int × List UInt8) → List UInt8
  | some (0, string) => string
  | _ => host.stack.take len

def profileGet (host : Host) (verification : Bool) (profileBuffer : List UInt8) :
    Option (List UInt8) :=
  (profileDocument host.stack profileBuffer).filter fun document =>
    !verification || host.verify document

def profileGetFromFlash (board : Board) (host : Host) (verification : Bool) (chip : Chip) :
    Option (List UInt8) :=
  profileGet host verification (readProfile host (sysGetPsiSize board)
    (kerSysPersistentGet board (sysGetPsiSize board) 0 chip))

def profileGetFromBackupFlash (board : Board) (host : Host) (verification : Bool) (chip : Chip) :
    Option (List UInt8) :=
  profileGet host verification (readProfile host (sysGetPsiSize board)
    (kerSysPsiBackupGet board (sysGetPsiSize board) 0 chip))

def profileGetFromFile (board : Board) (host : Host) : Option (List UInt8) :=
  host.defaultConfig.filter fun octets =>
    octets.length ≠ 0 && octets.length ≤ sysGetPsiSize board && host.verify octets

def profileRetrieve (board : Board) (host : Host) : Chip → Option (List UInt8) :=
  profileGetFromFlash board host false

inductive Source where
  | persistent
  | psiBackup
  | defaultConfig
  | nothing
  deriving Repr, DecidableEq

structure Started where
  source : Source
  psi : Option (List UInt8)
  deriving DecidableEq

def restorePersistent (board : Board) : DriverM Unit := do
  match ← .observe (kerSysPsiBackupGet board (sysGetPsiSize board) 0) with
  | some (0, profileBuffer) =>
    let _ ← kerSysPersistentSet board profileBuffer 0
    pure ()
  | _ => pure ()

def initDefault (board : Board) (host : Host) : DriverM Started := do
  let _ ← kerSysScratchPadClearAll board
  match profileGetFromFile board host with
  | none => pure ⟨.nothing, none⟩
  | some octets =>
    let _ ← writeFileToFlash board octets
    let psi ← .observe (profileRetrieve board host)
    pure ⟨.defaultConfig, psi⟩

def init (board : Board) (host : Host) : DriverM Started := do
  let status ← .observe (profileGetFromFlash board host true)
  if status.isSome then
    let psi ← .observe (profileRetrieve board host)
    pure ⟨.persistent, psi⟩
  else
    let status ← .observe (profileGetFromBackupFlash board host true)
    if status.isSome then
      restorePersistent board
      let psi ← .observe (profileRetrieve board host)
      pure ⟨.psiBackup, psi⟩
    else initDefault board host

/-! ## What a start-up loads -/

def primaryBytes (board : Board) (chip : Chip) : List UInt8 :=
  (kerSysFlashInit board).persistent.contents board.sizes chip

def backupBytes (board : Board) (chip : Chip) : List UInt8 :=
  (kerSysFlashInit board).psiBackup.contents board.sizes chip

structure CopiesAt (board : Board) (b c : Nat) : Prop where
  primary : Placed board.sizes (kerSysFlashInit board).persistent b board.sizes.length
  backup : Placed board.sizes (kerSysFlashInit board).psiBackup c b

theorem exists_copiesAt {board : Board} (ok : LookupsSucceed board) :
    ∃ b c, CopiesAt board b c := by
  have chain := descends_partitions ok
  cases chain with
  | cons primary rest =>
    cases rest with
    | cons backup _ => exact ⟨_, _, primary, backup⟩

section Start

variable {board : Board} {b c : Nat} (copies : CopiesAt board b c) {host : Host}
include copies

theorem kerSysPersistentGet_whole (chip : Chip) :
    kerSysPersistentGet board (sysGetPsiSize board) 0 chip = some (0, primaryBytes board chip) :=
  copies.primary.partGet_whole chip

theorem kerSysPsiBackupGet_whole (chip : Chip) :
    kerSysPsiBackupGet board (sysGetPsiSize board) 0 chip = some (0, backupBytes board chip) :=
  copies.backup.partGet_whole chip

theorem profileGetFromFlash_eq (verification : Bool) (chip : Chip) :
    profileGetFromFlash board host verification chip =
      profileGet host verification (primaryBytes board chip) := by
  rw [profileGetFromFlash, kerSysPersistentGet_whole copies]
  rfl

theorem profileGetFromBackupFlash_eq (verification : Bool) (chip : Chip) :
    profileGetFromBackupFlash board host verification chip =
      profileGet host verification (backupBytes board chip) := by
  rw [profileGetFromBackupFlash, kerSysPsiBackupGet_whole copies]
  rfl

omit copies in
theorem profileGet_of_verified {profileBuffer document : List UInt8}
    (verified : profileGet host true profileBuffer = some document) :
    profileGet host false profileBuffer = some document := by
  simp only [profileGet, filter_eq_some_iff] at verified ⊢
  exact ⟨verified.1, rfl⟩

omit copies in
theorem profileGet_of_begins {document : Document} {profileBuffer : List UInt8}
    (begins : document.bytes <+: profileBuffer) (accepted : host.verify document.bytes = true) :
    profileGet host true profileBuffer = some document.bytes := by
  rw [profileGet, profileDocument_of_begins begins, filter_some]
  simp [accepted]

theorem init_primary {t : Chip} {document : List UInt8}
    (verified : profileGet host true (primaryBytes board t) = some document) :
    (init board host).value t = ⟨.persistent, some document⟩ := by
  have status : profileGetFromFlash board host true t = some document := by
    rw [profileGetFromFlash_eq copies, verified]
  have loaded : profileRetrieve board host t = some document := by
    rw [profileRetrieve, profileGetFromFlash_eq copies, profileGet_of_verified verified]
  simp [init, status, loaded]

theorem final_init {t : Chip} {document : List UInt8}
    (verified : profileGet host true (primaryBytes board t) = some document) :
    (init board host).final t = t := by
  have status : profileGetFromFlash board host true t = some document := by
    rw [profileGetFromFlash_eq copies, verified]
  simp [init, status]

theorem primaryBytes_restored (t : Chip) :
    primaryBytes board ((restorePersistent board).final t) = backupBytes board t := by
  have length : (backupBytes board t).length =
      (kerSysFlashInit board).persistent.length.toNat := length_contents t
  have fits := length.le
  have final : (restorePersistent board).final t =
      (kerSysPersistentSet board (backupBytes board t) 0).final t := by
    simp [restorePersistent, kerSysPsiBackupGet_whole copies]
  rw [final, kerSysPersistentSet, (copies.primary.partSet_front fits t).2, primaryBytes,
    contents_store fits, overwrite, take_zero, nil_append, Nat.zero_add,
    drop_of_length_le (by rw [length, length_contents]), append_nil]

theorem init_backup {t : Chip} {document : List UInt8}
    (refused : profileGet host true (primaryBytes board t) = none)
    (verified : profileGet host true (backupBytes board t) = some document) :
    (init board host).value t = ⟨.psiBackup, some document⟩ := by
  have primary : profileGetFromFlash board host true t = none := by
    rw [profileGetFromFlash_eq copies, refused]
  have backup : profileGetFromBackupFlash board host true t = some document := by
    rw [profileGetFromBackupFlash_eq copies, verified]
  have loaded : profileRetrieve board host ((restorePersistent board).final t) =
      some document := by
    rw [profileRetrieve, profileGetFromFlash_eq copies, primaryBytes_restored copies,
      profileGet_of_verified verified]
  simp [init, primary, backup, loaded]

end Start

/-! ## Power failures during a save -/

structure HalfWritten (board : Board) (filestream : List UInt8) (chip t : Chip) (k m : Nat) :
    Prop where
  begun : 0 < k
  unfinished : k < sysGetPsiSize board
  sectors : 1 < (kerSysFlashInit board).persistent.numberBlk
  mixed : primaryBytes board t = interrupted 0xFF (primaryBytes board chip)
    (overwrite (primaryBytes board chip) 0 filestream) k m

inductive AfterSave (board : Board) (filestream : List UInt8) (chip t : Chip) : Prop where
  /-- The second copy is as before, and the first one is as before or begins with erased bytes. -/
  | before (backup : backupBytes board t = backupBytes board chip)
      (primary : primaryBytes board t = primaryBytes board chip ∨
        ∃ rest, primaryBytes board t = 0xFF :: rest)
  | halfWritten (backup : backupBytes board t = backupBytes board chip) {k m : Nat}
      (half : HalfWritten board filestream chip t k m)
  | after (primary : filestream <+: primaryBytes board t)

section Save

variable {board : Board} {b c : Nat} (copies : CopiesAt board b c) {filestream : List UInt8}
  {chip t : Chip}
include copies

theorem backupBytes_of_same_below (same : ∀ x, x < start board.sizes b → t x = chip x) :
    backupBytes board t = backupBytes board chip := by
  have ends := copies.backup.addr_ends
  apply contents_congr
  intro x lower upper
  exact same x (by omega)

theorem primaryBytes_of_same_above (same : ∀ x, start board.sizes b ≤ x → t x = chip x) :
    primaryBytes board t = primaryBytes board chip := by
  have addr := copies.primary.addr_eq
  apply contents_congr
  intro x lower upper
  exact same x (by omega)

theorem afterSave_primary (fits : filestream.length ≤ sysGetPsiSize board)
    (crash : (kerSysPersistentSet board filestream 0).Crash chip t) :
    AfterSave board filestream chip t := by
  obtain ⟨outside, k, m, room, mixed, sectors⟩ := copies.primary.crash_partSet fits crash
  have backup := backupBytes_of_same_below copies (fun x below => outside x (.inl below))
  have length : (primaryBytes board chip).length = sysGetPsiSize board :=
    length_contents chip
  have room : k + m ≤ sysGetPsiSize board := room
  have mixed : primaryBytes board t = interrupted 0xFF (primaryBytes board chip)
    (overwrite (primaryBytes board chip) 0 filestream) k m := mixed
  rcases Nat.eq_zero_or_pos k with rfl | begun
  · refine .before backup ?_
    cases m with
    | zero => exact .inl (by simpa [interrupted] using mixed)
    | succ m => exact .inr ⟨_, mixed⟩
  · by_cases unfinished : k < sysGetPsiSize board
    · refine .halfWritten backup ⟨begun, unfinished, ?_, mixed⟩
      have := sectors begun unfinished
      rw [copies.primary.numberBlk]
      omega
    · have last : m = 0 := by omega
      refine .after ?_
      have full : (overwrite (primaryBytes board chip) 0 filestream).length ≤ k := by
        rw [length_overwrite (by omega)]
        omega
      rw [mixed, interrupted, take_of_length_le full, overwrite, take_zero,
        nil_append, append_assoc, append_assoc]
      exact prefix_append _ _

theorem afterSave_backup (fits : filestream.length ≤ sysGetPsiSize board)
    (crash : (kerSysPsiBackupSet board filestream 0).Crash
      ((kerSysPersistentSet board filestream 0).final chip) t) :
    AfterSave board filestream chip t := by
  obtain ⟨outside, -⟩ := copies.backup.crash_partSet fits crash
  have primary := primaryBytes_of_same_above copies (fun x above => outside x (.inr above))
  refine .after ?_
  rw [primary, kerSysPersistentSet, (copies.primary.partSet_front fits chip).2, primaryBytes,
    contents_store fits, overwrite, take_zero, nil_append]
  exact prefix_append _ _

theorem afterSave_of_crash (crash : (writeStreamToFlash board filestream).Crash chip t) :
    AfterSave board filestream chip t := by
  rw [writeStreamToFlash] at crash
  split at crash
  · rw [Traced.crash_pure] at crash
    subst crash
    exact .before rfl (.inl rfl)
  · rename_i fits
    rw [Traced.crash_bind, Traced.crash_bind, Traced.crash_pure] at crash
    rcases crash with first | second | rfl
    · exact afterSave_primary copies (by omega) first
    · exact afterSave_backup copies (by omega) second
    · exact afterSave_backup copies (by omega) (Traced.crash_final _ _)

end Save

theorem save_final {board : Board} (ok : LookupsSucceed board) {filestream : List UInt8}
    (fits : filestream.length ≤ sysGetPsiSize board) (chip : Chip) :
    filestream <+: primaryBytes board ((writeStreamToFlash board filestream).final chip) ∧
      filestream <+: backupBytes board ((writeStreamToFlash board filestream).final chip) := by
  obtain ⟨b, c, copies⟩ := exists_copiesAt ok
  have first := (copies.primary.partSet_front fits chip).2
  have second := (copies.backup.partSet_front fits
    ((kerSysPersistentSet board filestream 0).final chip)).2
  have final : (writeStreamToFlash board filestream).final chip =
      (kerSysPsiBackupSet board filestream 0).final
        ((kerSysPersistentSet board filestream 0).final chip) := by
    rw [writeStreamToFlash, if_neg (by omega)]
    simp
  have kept : primaryBytes board ((kerSysPsiBackupSet board filestream 0).final
      ((kerSysPersistentSet board filestream 0).final chip)) =
      primaryBytes board ((kerSysPersistentSet board filestream 0).final chip) := by
    apply primaryBytes_of_same_above copies
    intro x above
    have room : filestream.length ≤ (kerSysFlashInit board).psiBackup.length.toNat := fits
    have below := copies.backup.addr_ends
    rw [kerSysPsiBackupSet, second]
    exact store_apply_of_ge (by omega)
  rw [final]
  constructor
  · rw [kept, kerSysPersistentSet, first, primaryBytes, contents_store fits, overwrite,
      take_zero, nil_append]
    exact prefix_append _ _
  · rw [kerSysPsiBackupSet, second, backupBytes, contents_store fits, overwrite,
      take_zero, nil_append]
    exact prefix_append _ _

/-- **A power failure during a save.** Let both copies hold the old document and let both documents
pass the verification. After every prefix of the erase and write steps of a save, the next start-up
finds one of the two copies good, so that it never falls back to the factory defaults, and it loads
the old document, the new one, or the document that a half-written first copy shows, if that one
passes the verification too. -/
theorem save_crash {board : Board} (ok : LookupsSucceed board) {host : Host} {old new : Document}
    {trailer : List UInt8} {chip t : Chip} (primary : old.bytes <+: primaryBytes board chip)
    (backup : old.bytes <+: backupBytes board chip) (oldOk : host.verify old.bytes = true)
    (newOk : host.verify new.bytes = true)
    (crash : (writeStreamToFlash board (new.bytes ++ trailer)).Crash chip t) :
    (((init board host).value t).source = .persistent ∨
      ((init board host).value t).source = .psiBackup) ∧
    (((init board host).value t).psi = some old.bytes ∨
      ((init board host).value t).psi = some new.bytes ∨
      ∃ k m document, HalfWritten board (new.bytes ++ trailer) chip t k m ∧
        profileDocument host.stack (primaryBytes board t) = some document ∧
        host.verify document = true ∧
        ((init board host).value t).psi = some document) := by
  obtain ⟨b, c, copies⟩ := exists_copiesAt ok
  -- Wherever the first copy is refused, the second one is still the old one.
  have fallBack (same : backupBytes board t = backupBytes board chip)
      (refused : profileGet host true (primaryBytes board t) = none) :
      (init board host).value t = ⟨.psiBackup, some old.bytes⟩ := by
    refine init_backup copies refused ?_
    rw [same]
    exact profileGet_of_begins backup oldOk
  cases afterSave_of_crash copies crash with
  | before same first =>
    rcases first with first | ⟨rest, first⟩
    · have verified : profileGet host true (primaryBytes board t) = some old.bytes := by
        rw [first]
        exact profileGet_of_begins primary oldOk
      rw [init_primary copies verified]
      exact ⟨.inl rfl, .inl rfl⟩
    · rw [fallBack same (by rw [first]; rfl)]
      exact ⟨.inr rfl, .inl rfl⟩
  | halfWritten same half =>
    cases verified : profileGet host true (primaryBytes board t) with
    | none =>
      rw [fallBack same verified]
      exact ⟨.inr rfl, .inl rfl⟩
    | some document =>
      rw [init_primary copies verified]
      simp only [profileGet, filter_eq_some_iff] at verified
      exact ⟨.inl rfl, .inr (.inr ⟨_, _, document, half, verified.1,
        by simpa using verified.2, rfl⟩)⟩
  | after first =>
    have verified : profileGet host true (primaryBytes board t) = some new.bytes :=
      profileGet_of_begins ((prefix_append _ _).trans first) newOk
    rw [init_primary copies verified]
    exact ⟨.inl rfl, .inr (.inl rfl)⟩

/-! ## A save on a chip with small sectors at its end -/

def topBoot : Board where
  sizes := replicate 15 (64 * onek) ++ replicate 8 (8 * onek)
  nvramCrcOk := true
  bpPsiSize := some 64
  hardwareType := hg55vdfa

def namesFront (u : UInt8) : List UInt8 :=
  xmlPsiStartTag ++ ascii "<SystemInfo><sysUserName value=\"" ++ [u] ++ ascii "\"/>"

def namesBack (v : UInt8) : List UInt8 :=
  ascii "<usrUserName value=\"" ++ [v] ++ ascii "\"/></SystemInfo>"

def blanks (n : Nat) : List UInt8 :=
  replicate n 0x20

theorem blanks_avoids (n : Nat) : Avoids 0 xmlPsiEndTag (blanks n) := by
  induction n with
  | zero => trivial
  | succ n ih => exact ⟨by decide, rfl, ih⟩

def names (n : Nat) (u v : UInt8) (front : Avoids 0 xmlPsiEndTag (namesFront u))
    (back : Avoids 0 xmlPsiEndTag (namesBack v)) : Document where
  bytes := namesFront u ++ (blanks n ++ (namesBack v ++ xmlPsiEndTag))
  opens := by
    rw [namesFront]
    simp only [append_assoc]
    exact prefix_append _ _
  closes := by
    have last : find 0 xmlPsiEndTag xmlPsiEndTag = some 0 := by decide
    rw [strstr, find_avoids front, find_avoids (blanks_avoids n), find_avoids back, last]
    simp only [map_some, length_append]
    congr 1
    omega

theorem names_split {n : Nat} {u v : UInt8} {front : Avoids 0 xmlPsiEndTag (namesFront u)}
    {back : Avoids 0 xmlPsiEndTag (namesBack v)} (room : 45 ≤ n) :
    (names n u v front back).bytes = (namesFront u ++ blanks (n - 45)) ++
      (blanks 45 ++ (namesBack v ++ xmlPsiEndTag)) := by
  have cut : blanks n = blanks (n - 45) ++ blanks 45 := by
    rw [blanks, blanks, blanks, replicate_append_replicate, Nat.sub_add_cancel room]
  change namesFront u ++ (blanks n ++ (namesBack v ++ xmlPsiEndTag)) = _
  rw [cut]
  simp only [append_assoc]

theorem length_front {n : Nat} (u : UInt8) (room : 45 ≤ n) :
    (namesFront u ++ blanks (n - 45)).length = n := by
  have front : (namesFront u).length = 45 := rfl
  rw [length_append, front, blanks, length_replicate]
  omega

theorem interrupted_names {n : Nat} {u v u' v' : UInt8}
    {front : Avoids 0 xmlPsiEndTag (namesFront u)} {back : Avoids 0 xmlPsiEndTag (namesBack v)}
    {front' : Avoids 0 xmlPsiEndTag (namesFront u')} {back' : Avoids 0 xmlPsiEndTag (namesBack v')}
    (room : 45 ≤ n) (rest rest' : List UInt8) :
    interrupted 0xFF ((names n u v front back).bytes ++ rest)
        ((names n u' v' front' back').bytes ++ rest') n 0 =
      (names n u' v front' back).bytes ++ rest := by
  rw [names_split room, names_split room, names_split room,
    append_assoc (namesFront u ++ _), append_assoc (namesFront u' ++ _),
    append_assoc (namesFront u' ++ _)]
  exact interrupted_split _ (length_front u room) (length_front u' room)

def oldNames : Document := names 8192 97 97 (by decide) (by decide)

def newNames : Document := names 8192 98 98 (by decide) (by decide)

def mixedNames : Document := names 8192 98 97 (by decide) (by decide)

def namesHost : Host where
  verify := fun document => document = oldNames.bytes ∨ document = newNames.bytes ∨
    document = mixedNames.bytes
  defaultConfig := none
  stack := []

def savedChip : Chip :=
  (writeStreamToFlash topBoot (oldNames.bytes ++ [0, 0])).final fun _ => 0xFF

theorem savedChip_holds : oldNames.bytes <+: primaryBytes topBoot savedChip ∧
    oldNames.bytes <+: backupBytes topBoot savedChip := by
  have fits : (oldNames.bytes ++ [0, 0]).length ≤ sysGetPsiSize topBoot := by
    rw [oldNames, names_split (by decide), length_append, length_append,
      length_front _ (by decide)]
    decide
  have saved := save_final (by decide) fits fun _ => 0xFF
  exact ⟨(prefix_append _ _).trans saved.1, (prefix_append _ _).trans saved.2⟩

/-- Both names are saved anew and the chip is complete: the start-up finds a good copy. -/
theorem save_crash_names :
    LookupsSucceed topBoot ∧ oldNames.bytes <+: primaryBytes topBoot savedChip ∧
      oldNames.bytes <+: backupBytes topBoot savedChip ∧
      (((init topBoot namesHost).value ((writeStreamToFlash topBoot
          (newNames.bytes ++ [0, 0])).final savedChip)).source = .persistent ∨
        ((init topBoot namesHost).value ((writeStreamToFlash topBoot
          (newNames.bytes ++ [0, 0])).final savedChip)).source = .psiBackup) :=
  ⟨by decide, savedChip_holds.1, savedChip_holds.2,
    (save_crash (by decide) savedChip_holds.1 savedChip_holds.2 (by simp [namesHost])
      (by simp [namesHost]) (Traced.crash_final _ _)).1⟩

/-- A power failure after the first of the eight sectors: the next start-up loads the new first name
with the old second one. -/
theorem save_crash_mixes_names :
    LookupsSucceed topBoot ∧ oldNames.bytes <+: primaryBytes topBoot savedChip ∧
      oldNames.bytes <+: backupBytes topBoot savedChip ∧
      namesHost.verify oldNames.bytes = true ∧ namesHost.verify newNames.bytes = true ∧
      ∃ t, (writeStreamToFlash topBoot (newNames.bytes ++ [0, 0])).Crash savedChip t ∧
        ((init topBoot namesHost).value t).psi = some mixedNames.bytes ∧
        mixedNames.bytes ≠ oldNames.bytes ∧ mixedNames.bytes ≠ newNames.bytes := by
  have ok : LookupsSucceed topBoot := by decide
  obtain ⟨b, c, copies⟩ := exists_copiesAt ok
  have first : b = 15 := by
    have found : (kerSysFlashInit topBoot).persistent.startBlk = 15 := by decide
    have := copies.primary.startBlk
    omega
  subst first
  have room : 45 ≤ 8192 := by decide
  have fits : (newNames.bytes ++ [0, 0]).length ≤ sysGetPsiSize topBoot := by
    rw [newNames, names_split room, length_append, length_append, length_front _ room]
    decide
  -- One sector has been written, none is erased.
  let sectors := (kerSysFlashInit topBoot).persistent.newSectors topBoot.sizes 15
    topBoot.sizes.length (newNames.bytes ++ [0, 0]) savedChip
  let t := store savedChip (start topBoot.sizes 15)
    (sectors.take (spanSize topBoot.sizes 15 1) ++ replicate 0 0xFF)
  have crash : (kerSysPersistentSet topBoot (newNames.bytes ++ [0, 0]) 0).Crash savedChip t :=
    (copies.primary.crash_partSet_iff fits).mpr ⟨1, 0, .inl ⟨by decide, rfl⟩, rfl⟩
  have contents : (kerSysFlashInit topBoot).persistent.contents topBoot.sizes t = _ :=
    copies.primary.contents_stopped fits (by decide)
  rw [show spanSize topBoot.sizes 15 1 - (kerSysFlashInit topBoot).persistent.blkOffset.toNat =
    8192 by decide, Nat.zero_sub] at contents
  obtain ⟨rest, saved⟩ := savedChip_holds.1
  have mixed : primaryBytes topBoot t = mixedNames.bytes ++ rest := by
    refine Eq.trans contents ?_
    rw [← primaryBytes, ← saved, overwrite, take_zero, nil_append, append_assoc]
    exact interrupted_names room rest _
  have accepted : namesHost.verify mixedNames.bytes = true := by simp [namesHost]
  have differ (u u' : UInt8) (ne : namesFront u ≠ namesFront u') (x y : List UInt8) :
      namesFront u ++ x ≠ namesFront u' ++ y :=
    fun same => ne (append_inj_left same rfl)
  refine ⟨ok, savedChip_holds.1, savedChip_holds.2, by simp [namesHost], by simp [namesHost], t,
    ?_, ?_, ?_, ?_⟩
  · rw [writeStreamToFlash, if_neg (by omega), Traced.crash_bind]
    exact .inl crash
  · rw [init_primary copies (profileGet_of_begins ⟨rest, mixed.symm⟩ accepted)]
  · exact differ _ _ (by decide) _ _
  · intro same
    have backs := append_cancel_left (append_cancel_left same)
    exact absurd (append_cancel_right backs) (by decide)

/-! ## Saves and start-ups in turn -/

inductive Session where
  | save (document : Document) (trailer : List UInt8)
  | start

/-- What the start-ups load. -/
def session (board : Board) (host : Host) : List Session → Chip → List Started
  | [], _ => []
  | .save document trailer :: rest, chip =>
    session board host rest ((writeStreamToFlash board (document.bytes ++ trailer)).final chip)
  | .start :: rest, chip =>
    (init board host).value chip :: session board host rest ((init board host).final chip)

/-- The document of the last save before each start-up. -/
def lastSaved (document : Document) : List Session → List Document
  | [] => []
  | .save new _ :: rest => lastSaved new rest
  | .start :: rest => document :: lastSaved document rest

def Session.Accepted (board : Board) (host : Host) : Session → Prop
  | .save document trailer => host.verify document.bytes = true ∧
      (document.bytes ++ trailer).length ≤ sysGetPsiSize board
  | .start => True

/-- **Saves last**: every start-up loads the document of the last save, however often both happen
and whatever longer document was there before. -/
theorem session_loads {board : Board} (ok : LookupsSucceed board) {host : Host}
    {document : Document} (verified : host.verify document.bytes = true) {events : List Session}
    (accepted : ∀ event ∈ events, event.Accepted board host) {chip : Chip}
    (primary : document.bytes <+: primaryBytes board chip) :
    session board host events chip =
      (lastSaved document events).map fun d => ⟨.persistent, some d.bytes⟩ := by
  obtain ⟨b, c, copies⟩ := exists_copiesAt ok
  induction events generalizing document chip with
  | nil => rfl
  | cons event events ih =>
    have rest := fun e mem => accepted e (mem_cons_of_mem _ mem)
    cases event with
    | save new trailer =>
      obtain ⟨newOk, fits⟩ := accepted _ mem_cons_self
      exact ih newOk rest ((prefix_append _ _).trans (save_final ok fits chip).1)
    | start =>
      have loads := profileGet_of_begins primary verified
      rw [session, init_primary copies loads, final_init copies loads, ih verified rest primary]
      rfl

theorem session_loads_names :
    session topBoot namesHost [.start, .save newNames [0, 0], .start] savedChip =
      [⟨.persistent, some oldNames.bytes⟩, ⟨.persistent, some newNames.bytes⟩] := by
  have fits : (newNames.bytes ++ [0, 0]).length ≤ sysGetPsiSize topBoot := by
    rw [newNames, names_split (by decide), length_append, length_append,
      length_front _ (by decide)]
    decide
  refine session_loads (by decide) (by simp [namesHost]) ?_ savedChip_holds.1
  simpa [Session.Accepted, namesHost] using fits

end EchoLife.Psi
