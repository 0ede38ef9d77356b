import Mathlib.Tactic.Linarith

/-!
# Virtual scheduling

A sender may send when the clock has come within a tolerance of a virtual time, and sending moves
the virtual time on by a fixed increment. `Paced` bounds the number of items sent by the clock.
The clock may go on (`Paced.wait`), the virtual time may be moved on (`Paced.skip`), and an item may
be sent (`Paced.send`), but nothing takes the virtual time back.
-/

namespace VirtualSchedule

/-- Since the time `start`, `count` items were sent with the increment and the tolerance; `due` is
the virtual time. -/
structure Paced (increment tolerance start due : Int) (count : Nat) (now : Int) : Prop where
  ahead : start + count * increment ≤ due
  bound : (count - 1) * increment ≤ (now - start) - tolerance

variable {increment tolerance start due now : Int} {count : Nat}

theorem Paced.initial (tolerable : tolerance ≤ increment) :
    Paced increment tolerance start start 0 start := by
  constructor
  · simp
  · push_cast
    linarith

section

variable (paced : Paced increment tolerance start due count now)
include paced

theorem Paced.wait {later : Int} (goesOn : now ≤ later) :
    Paced increment tolerance start due count later :=
  ⟨paced.ahead, by linarith [paced.bound]⟩

theorem Paced.skip {moved : Int} (goesOn : due ≤ moved) :
    Paced increment tolerance start moved count now :=
  ⟨by linarith [paced.ahead], paced.bound⟩

theorem Paced.send (allowed : tolerance ≤ now - due) :
    Paced increment tolerance start (due + increment) (count + 1) now := by
  have ahead := paced.ahead
  constructor
  · push_cast
    linarith
  · push_cast
    linarith

end

end VirtualSchedule
