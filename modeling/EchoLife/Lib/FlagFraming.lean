import Mathlib.Data.List.Basic

/-!
# Flag framing with an escape symbol

Frames are sent one after the other, each behind a flag; inside a frame the flag and the escape
symbol are replaced by the escape symbol and a masked symbol (`Code.stuff`). `Code.run` reads a
stream one symbol at a time and gives the bodies of the frames that a flag closes.

A stream may be cut anywhere, because `Code.run` is a run (`run_append`), and from a flag on a
sequence of stuffed bodies gives back the bodies (`run_bodies`).
-/

namespace FlagFraming

open List

structure Code (α : Type) where
  flag : α
  esc : α
  mask : α → α
  mask_mask : ∀ a, mask (mask a) = a
  flag_ne_esc : flag ≠ esc

inductive Reader (α : Type) where
  | hunt
  | frame (body : List α) (escaped : Bool)
  deriving DecidableEq, Repr

namespace Code

variable {α : Type} [DecidableEq α] (code : Code α)

def escape (a : α) : List α :=
  if a = code.flag ∨ a = code.esc then [code.esc, code.mask a] else [a]

def stuff (body : List α) : List α :=
  body.flatMap code.escape

def step : Reader α → α → Reader α × List (List α)
  | .hunt, a => if a = code.flag then (.frame [] false, []) else (.hunt, [])
  | .frame body true, a => (.frame (body ++ [code.mask a]) false, [])
  | .frame body false, a =>
    if a = code.flag then (.frame [] false, [body])
    else if a = code.esc then (.frame body true, [])
    else (.frame (body ++ [a]) false, [])

def run : Reader α → List α → Reader α × List (List α)
  | r, [] => (r, [])
  | r, a :: stream =>
    let (r, closed) := code.step r a
    let (r', later) := run r stream
    (r', closed ++ later)

@[simp]
theorem stuff_nil : code.stuff [] = [] := rfl

@[simp]
theorem stuff_cons (a : α) (body : List α) :
    code.stuff (a :: body) = code.escape a ++ code.stuff body := rfl

@[simp]
theorem stuff_append (b c : List α) : code.stuff (b ++ c) = code.stuff b ++ code.stuff c :=
  flatMap_append

@[simp]
theorem run_nil (r : Reader α) : code.run r [] = (r, []) := rfl

theorem run_cons (r : Reader α) (a : α) (stream : List α) :
    code.run r (a :: stream) =
      ((code.run (code.step r a).1 stream).1,
        (code.step r a).2 ++ (code.run (code.step r a).1 stream).2) := rfl

theorem run_append (r : Reader α) (s t : List α) :
    code.run r (s ++ t) =
      ((code.run (code.run r s).1 t).1, (code.run r s).2 ++ (code.run (code.run r s).1 t).2) := by
  induction s generalizing r with
  | nil => simp
  | cons a s ih =>
    simp only [cons_append, run_cons, ih, append_assoc]

theorem run_prefix (r : Reader α) {s t : List α} (part : s <+: t) :
    (code.run r s).2 <+: (code.run r t).2 := by
  obtain ⟨u, rfl⟩ := part
  rw [run_append]
  exact prefix_append _ _

theorem run_escape (body : List α) (a : α) :
    code.run (.frame body false) (code.escape a) = (.frame (body ++ [a]) false, []) := by
  by_cases reserved : a = code.flag ∨ a = code.esc
  · simp [escape, reserved, run_cons, step, code.flag_ne_esc.symm, code.mask_mask]
  · have plain := not_or.mp reserved
    simp [escape, run_cons, step, plain.1, plain.2]

theorem run_stuff (body more : List α) :
    code.run (.frame body false) (code.stuff more) = (.frame (body ++ more) false, []) := by
  induction more generalizing body with
  | nil => simp
  | cons a more ih =>
    rw [stuff_cons, run_append, run_escape, ih]
    simp

/-- **From a flag on, stuffed bodies that are each closed by a flag are read back.** -/
theorem run_bodies (bodies : List (List α)) :
    code.run (.frame [] false) (bodies.flatMap fun b => code.stuff b ++ [code.flag]) =
      (.frame [] false, bodies) := by
  induction bodies with
  | nil => rfl
  | cons b bodies ih =>
    have closed : code.run (.frame b false) [code.flag] = (.frame [] false, [b]) := by
      simp [run_cons, step]
    rw [flatMap_cons, run_append, run_append, run_stuff, nil_append, closed, ih]
    rfl

theorem flag_bodies (bodies : List (List α)) :
    (bodies.flatMap fun b => code.flag :: code.stuff b) ++ [code.flag] =
      code.flag :: bodies.flatMap fun b => code.stuff b ++ [code.flag] := by
  induction bodies with
  | nil => rfl
  | cons b bodies ih =>
    rw [flatMap_cons, append_assoc, ih]
    simp

theorem run_hunt_bodies (bodies : List (List α)) (idle : Nat) :
    (code.run .hunt ((bodies.flatMap fun b => code.flag :: code.stuff b) ++
      replicate (idle + 1) code.flag)).2 = bodies ++ replicate idle [] := by
  have empties : replicate idle code.flag =
      (replicate idle ([] : List α)).flatMap fun b => code.stuff b ++ [code.flag] := by
    induction idle with
    | zero => rfl
    | succ n ih => simp [replicate_succ, ih]
  rw [replicate_succ, ← singleton_append, ← append_assoc, flag_bodies, empties,
    cons_append, ← flatMap_append, run_cons]
  simp only [step, if_true, run_bodies, nil_append]

end Code

end FlagFraming
