import Mathlib.Tactic

/-!
# The circular buffer

Two pointers go round a buffer, and one place stays free. `Reaches` follows what was written and
read; `circBuffer_run` says what the macros make of the pointers.
-/

namespace EchoLife.Dsl

structure CircBuffer where
  pStart : Int
  pEnd : Int
  pRead : Int
  pWrite : Int
  deriving Repr, DecidableEq

namespace CircBuffer

def init (buf size : Int) : CircBuffer := ⟨buf, buf + size, buf, buf⟩

section

variable (cb : CircBuffer)

def distance (p1 p2 d : Int) : Int :=
  if p2 - p1 - d ≥ 0 then p2 - p1 - d else p2 - p1 - d + (cb.pEnd - cb.pStart)

def add (p n : Int) : Int := if p + n ≥ cb.pEnd then cb.pStart + (p + n - cb.pEnd) else p + n

def readUpdate (n : Int) : CircBuffer := { cb with pRead := cb.add cb.pRead n }

def writeUpdate (n : Int) : CircBuffer := { cb with pWrite := cb.add cb.pWrite n }

def getReadAvail : Int := cb.distance cb.pRead cb.pWrite 0

def getWriteAvail : Int := cb.distance cb.pWrite cb.pRead 1

def getReadContig : Int :=
  if cb.pWrite ≥ cb.pRead then cb.pWrite - cb.pRead else cb.pEnd - cb.pRead

def getWriteContig : Int :=
  if cb.pEnd - cb.pWrite > cb.getWriteAvail then cb.getWriteAvail else cb.pEnd - cb.pWrite

end

/-- A buffer of `size` bytes at `buf` after updates that do not exceed what is available. -/
inductive Reaches (buf size : Int) : CircBuffer → (written read : Nat) → Prop
  | init : Reaches buf size (init buf size) 0 0
  | write {cb : CircBuffer} {written read n : Nat} (before : Reaches buf size cb written read)
      (room : n ≤ cb.getWriteAvail) : Reaches buf size (cb.writeUpdate n) (written + n) read
  | read {cb : CircBuffer} {written read n : Nat} (before : Reaches buf size cb written read)
      (unread : n ≤ cb.getReadAvail) : Reaches buf size (cb.readUpdate n) written (read + n)

structure Circulates (buf size : Int) (cb : CircBuffer) (unread : Int) : Prop where
  start : cb.pStart = buf
  ends : cb.pEnd = buf + size
  read : buf ≤ cb.pRead ∧ cb.pRead < buf + size
  write : buf ≤ cb.pWrite ∧ cb.pWrite < buf + size
  avail : cb.getReadAvail = unread

theorem Reaches.circulates {buf size : Int} (two : 2 ≤ size) {cb : CircBuffer} {written read : Nat}
    (reaches : Reaches buf size cb written read) :
    Circulates buf size cb (written - read) := by
  induction reaches with
  | init =>
    refine ⟨rfl, rfl, ?_, ?_, ?_⟩ <;>
      simp only [CircBuffer.init, getReadAvail, distance] <;> grind
  | @write cb written read n before room ih =>
    obtain ⟨start, ends, inside, inside', avail⟩ := ih
    simp only [getReadAvail, getWriteAvail, distance] at room avail
    refine ⟨start, ends, inside, ?_, ?_⟩ <;>
      simp only [writeUpdate, add, getReadAvail, distance] <;> grind
  | @read cb written read n before unread ih =>
    obtain ⟨start, ends, inside, inside', avail⟩ := ih
    simp only [getReadAvail, distance] at unread avail
    refine ⟨start, ends, ?_, inside', ?_⟩ <;>
      simp only [readUpdate, add, getReadAvail, distance] <;> grind

/-- **The circular buffer keeps account.** What can be read is what was written and not read, all
but one of the other bytes can be written, the pointers stay inside, and the contiguous parts end
neither behind the buffer nor behind what is available. -/
theorem circBuffer_run {buf size : Int} (two : 2 ≤ size) {cb : CircBuffer} {written read : Nat}
    (reaches : Reaches buf size cb written read) :
    cb.getReadAvail = written - read ∧ cb.getReadAvail + cb.getWriteAvail = size - 1 ∧
      (cb.pStart ≤ cb.pRead ∧ cb.pRead < cb.pEnd) ∧
      (cb.pStart ≤ cb.pWrite ∧ cb.pWrite < cb.pEnd) ∧
      (0 ≤ cb.getReadContig ∧ cb.getReadContig ≤ cb.getReadAvail ∧
        cb.pRead + cb.getReadContig ≤ cb.pEnd) ∧
      (0 ≤ cb.getWriteContig ∧ cb.getWriteContig ≤ cb.getWriteAvail ∧
        cb.pWrite + cb.getWriteContig ≤ cb.pEnd) := by
  obtain ⟨start, ends, inside, inside', avail⟩ := reaches.circulates two
  refine ⟨avail, ?_, ⟨by omega, by omega⟩, ⟨by omega, by omega⟩, ?_, ?_⟩ <;>
    simp only [getReadContig, getWriteContig, getReadAvail, getWriteAvail,
      distance] <;> grind

/-- Three bytes are written and read. -/
theorem circBuffer_run_emptied :
    let cb := ((init 100 4).writeUpdate (3 : Nat)).readUpdate (3 : Nat)
    Reaches 100 4 cb 3 3 ∧ cb.getWriteAvail = 3 := by
  intro cb
  have reaches : Reaches 100 4 cb 3 3 := .read (.write .init (by decide)) (by decide)
  have run := circBuffer_run (by decide) reaches
  have all := run.1
  have free := run.2.1
  exact ⟨reaches, by omega⟩

end CircBuffer

end EchoLife.Dsl
