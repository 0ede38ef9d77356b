import EchoLife.Lib.History

/-!
# Performance counters of the line

The counters of the line and of its two channels are kept for all time, for the current window of
fifteen minutes and for the current day, with a history of the last four windows. The timer counts
one second and closes one window in a call, however many seconds have passed. So the time base is
exact when no tick is longer than a second (`adslMibTimer_exact`), and with ticks shorter than a
window the history is right (`adslMib_history`).
-/

namespace EchoLife.Dsl

open List Function History

/-! ## The source -/

inductive PerfCounter where
  | adslLofs | adslLoss | adslLols | adslLprs | adslESs | adslInits | adslUAS | adslSES | adslLOSS
  | adslFECs | adslLCDS | adslAS
  deriving Repr, DecidableEq

inductive ChanCounter where
  | adslChanReceivedBlks | adslChanTransmittedBlks | adslChanCorrectedBlks | adslChanUncorrectBlks
  deriving Repr, DecidableEq

structure PerfDataEntry (N : Type) where
  perfTotal : N → UInt32
  validIntervals : Nat
  perfCurr15Min : N → UInt32
  curr15MinTimeElapsed : Nat
  perfCurr1Day : N → UInt32
  curr1DayTimeElapsed : Nat
  perfPrev1Day : N → UInt32

structure PerfHistory (N : Type) where
  entry : PerfDataEntry N
  intervals : Nat → N → UInt32

structure AdslMib where
  timeSec : Nat
  timeMs : Nat
  line : PerfHistory PerfCounter
  perfSinceShowTime : PerfCounter → UInt32
  intl : PerfHistory ChanCounter
  fast : PerfHistory ChanCounter

def k15MinInSeconds : Nat := 15 * 60

def k1DayInSeconds : Nat := 24 * 60 * 60

def kAdslMibPerfIntervals : Nat := 4

def clearedEntry (N : Type) : PerfDataEntry N :=
  ⟨fun _ => 0, 0, fun _ => 0, 0, fun _ => 0, 0, fun _ => 0⟩

def adslMibClearData : AdslMib :=
  ⟨0, 0, ⟨clearedEntry _, fun _ _ => 0⟩, fun _ => 0, ⟨clearedEntry _, fun _ _ => 0⟩,
    ⟨clearedEntry _, fun _ _ => 0⟩⟩

section

variable {N : Type} [DecidableEq N]

def PerfHistory.addCounterVar (h : PerfHistory N) (varname : N) (inc : UInt32) : PerfHistory N :=
  { h with entry := { h.entry with
    perfTotal := update h.entry.perfTotal varname (h.entry.perfTotal varname + inc)
    perfCurr15Min :=
      update h.entry.perfCurr15Min varname (h.entry.perfCurr15Min varname + inc)
    perfCurr1Day :=
      update h.entry.perfCurr1Day varname (h.entry.perfCurr1Day varname + inc) } }

def moveIntervals (intervals : Nat → N → UInt32) : (i : Nat) → Nat → N → UInt32
  | 0 => intervals
  | i + 1 => moveIntervals (update intervals (i + 1) (intervals i)) i

def PerfHistory.close15Min (h : PerfHistory N) (n : Nat) : PerfHistory N where
  intervals := update (moveIntervals h.intervals (n - 1)) 0 h.entry.perfCurr15Min
  entry := { h.entry with perfCurr15Min := fun _ => 0, validIntervals := n }

def PerfHistory.close1Day (h : PerfHistory N) : PerfHistory N :=
  { h with entry := { h.entry with
    perfPrev1Day := h.entry.perfCurr1Day
    perfCurr1Day := fun _ => 0 } }

def PerfHistory.elapse (h : PerfHistory N) (n sec15 sec1 : Nat) : PerfHistory N :=
  let h := if k15MinInSeconds ≤ sec15 then h.close15Min n else h
  let h := if k1DayInSeconds ≤ sec1 then h.close1Day else h
  { h with entry := { h.entry with
    curr15MinTimeElapsed := if k15MinInSeconds ≤ sec15 then sec15 - k15MinInSeconds else sec15
    curr1DayTimeElapsed := if k1DayInSeconds ≤ sec1 then sec1 - k1DayInSeconds else sec1 } }

end

def nextIntervals (n : Nat) : Nat := if n < kAdslMibPerfIntervals then n + 1 else n

namespace AdslMib

def incPerfCounterVar (m : AdslMib) (varname : PerfCounter) : AdslMib :=
  { m with
    line := m.line.addCounterVar varname 1
    perfSinceShowTime :=
      update m.perfSinceShowTime varname (m.perfSinceShowTime varname + 1) }

def updateIntervalCounters (m : AdslMib) (sec : Nat) : AdslMib :=
  let sec15 := sec + m.line.entry.curr15MinTimeElapsed
  let sec1 := sec + m.line.entry.curr1DayTimeElapsed
  -- the valid count of the interleaved channel serves both channels
  let n := nextIntervals m.intl.entry.validIntervals
  { m with
    line := m.line.elapse (nextIntervals m.line.entry.validIntervals) sec15 sec1
    intl := m.intl.elapse n sec15 sec1
    fast := m.fast.elapse n sec15 sec1 }

def adslMibTimer (m : AdslMib) (timeMs : Nat) (isLinkActive : Bool) : AdslMib :=
  let timeMs := timeMs + m.timeMs
  let sec := timeMs / 1000
  let m := { m with timeSec := m.timeSec + sec, timeMs := timeMs - sec * 1000 }
  if sec ≠ 0 then
    (m.incPerfCounterVar (if isLinkActive then .adslAS else .adslUAS)).updateIntervalCounters sec
  else m

end AdslMib

inductive MibCall where
  | adslMibTimer (timeMs : Nat) (isLinkActive : Bool)
  | incPerfCounterVar (varname : PerfCounter)
  | addIntlCounterVar (varname : ChanCounter) (inc : UInt32)
  | addFastCounterVar (varname : ChanCounter) (inc : UInt32)
  deriving Repr, DecidableEq

def AdslMib.call (m : AdslMib) : MibCall → Unit × AdslMib
  | .adslMibTimer timeMs isLinkActive => ((), m.adslMibTimer timeMs isLinkActive)
  | .incPerfCounterVar varname => ((), m.incPerfCounterVar varname)
  | .addIntlCounterVar varname inc => ((), { m with intl := m.intl.addCounterVar varname inc })
  | .addFastCounterVar varname inc => ((), { m with fast := m.fast.addCounterVar varname inc })

def MibCall.timeMs : MibCall → Nat
  | .adslMibTimer timeMs _ => timeMs
  | _ => 0

/-! ## The time base -/

structure AtTime (m : AdslMib) (t : Nat) : Prop where
  ms : m.timeMs = t % 1000
  curr15Min : m.line.entry.curr15MinTimeElapsed = t / 1000 % k15MinInSeconds
  curr1Day : m.line.entry.curr1DayTimeElapsed = t / 1000 % k1DayInSeconds

theorem mod_step {a b n : Nat} (pos : 0 < n) (short : b ≤ n) :
    (if n ≤ b + a % n then b + a % n - n else b + a % n) = (a + b) % n := by
  have less := Nat.mod_lt a pos
  rw [← Nat.mod_add_mod, Nat.add_comm b]
  split
  next reached => exact ((Nat.mod_eq_sub_mod reached).trans (Nat.mod_eq_of_lt (by omega))).symm
  next before => exact (Nat.mod_eq_of_lt (not_le.mp before)).symm

theorem perfTotal_elapse {N : Type} [DecidableEq N] (h : PerfHistory N) (n sec15 sec1 : Nat) :
    (h.elapse n sec15 sec1).entry.perfTotal = h.entry.perfTotal := by
  rw [PerfHistory.elapse]
  split <;> split <;> rfl

section

variable {m : AdslMib} {t : Nat} (now : AtTime m t) (timeMs : Nat) (isLinkActive : Bool)
include now

theorem AtTime.sec_eq : (timeMs + m.timeMs) / 1000 = (t + timeMs) / 1000 - t / 1000 := by
  rw [now.ms]
  omega

theorem AtTime.adslMibTimer (short : (timeMs + m.timeMs) / 1000 ≤ k15MinInSeconds) :
    AtTime (m.adslMibTimer timeMs isLinkActive) (t + timeMs) := by
  have sec := now.sec_eq timeMs
  have next : (t + timeMs) / 1000 = t / 1000 + (timeMs + m.timeMs) / 1000 := by omega
  have ms : timeMs + m.timeMs - (timeMs + m.timeMs) / 1000 * 1000 = (t + timeMs) % 1000 := by
    rw [now.ms]
    omega
  have day : (timeMs + m.timeMs) / 1000 ≤ k1DayInSeconds := short.trans (by decide)
  rw [AdslMib.adslMibTimer]
  split
  next some_sec =>
    refine ⟨ms, ?_, ?_⟩
    · rw [next, ← mod_step (by decide) short, ← now.curr15Min]
      rfl
    · rw [next, ← mod_step (by decide) day, ← now.curr1Day]
      rfl
  next no_sec =>
    rw [ne_eq, not_not] at no_sec
    refine ⟨ms, ?_, ?_⟩
    · rw [next, no_sec, Nat.add_zero]
      exact now.curr15Min
    · rw [next, no_sec, Nat.add_zero]
      exact now.curr1Day

end

theorem atTime_cleared : AtTime adslMibClearData 0 := ⟨rfl, rfl, rfl⟩

def AdslMib.seconds (m : AdslMib) : UInt32 :=
  m.line.entry.perfTotal .adslAS + m.line.entry.perfTotal .adslUAS

open UInt32

theorem seconds_adslMibTimer (m : AdslMib) (timeMs : Nat) (isLinkActive : Bool) :
    (m.adslMibTimer timeMs isLinkActive).seconds =
      m.seconds + if (timeMs + m.timeMs) / 1000 ≠ 0 then 1 else 0 := by
  rw [AdslMib.adslMibTimer]
  split
  · rw [AdslMib.seconds, AdslMib.updateIntervalCounters, perfTotal_elapse]
    cases isLinkActive with
    | true =>
      show m.line.entry.perfTotal .adslAS + 1 + m.line.entry.perfTotal .adslUAS = _
      rw [AdslMib.seconds, add_assoc, add_comm 1, ← add_assoc]
    | false => exact (add_assoc ..).symm
  · exact (add_zero _).symm

def runTimer (m : AdslMib) (ticks : List (Nat × Bool)) : AdslMib :=
  ticks.foldl (fun m tick => m.adslMibTimer tick.1 tick.2) m

/-- **The time base is exact as long as no tick is longer than a second.** -/
theorem adslMibTimer_exact (ticks : List (Nat × Bool)) (short : ∀ tick ∈ ticks, tick.1 ≤ 1000) :
    (runTimer adslMibClearData ticks).line.entry.curr15MinTimeElapsed < k15MinInSeconds ∧
      (runTimer adslMibClearData ticks).line.entry.curr1DayTimeElapsed < k1DayInSeconds ∧
      (runTimer adslMibClearData ticks).line.entry.perfTotal .adslAS +
        (runTimer adslMibClearData ticks).line.entry.perfTotal .adslUAS =
          UInt32.ofNat ((ticks.map Prod.fst).sum / 1000) := by
  have run (m : AdslMib) (t : Nat) (now : AtTime m t)
      (counted : m.seconds = UInt32.ofNat (t / 1000)) :
      AtTime (runTimer m ticks) (t + (ticks.map Prod.fst).sum) ∧
        (runTimer m ticks).seconds = UInt32.ofNat ((t + (ticks.map Prod.fst).sum) / 1000) := by
    induction ticks generalizing m t with
    | nil => exact ⟨now, counted⟩
    | cons tick ticks ih =>
      have within := short tick mem_cons_self
      have one : (tick.1 + m.timeMs) / 1000 ≤ 1 := by
        rw [now.ms]
        omega
      have sec := now.sec_eq tick.1
      rw [map_cons, sum_cons, ← Nat.add_assoc]
      refine ih (fun later mem => short later (mem_cons_of_mem _ mem)) _ _
        (now.adslMibTimer _ _ (one.trans (by decide))) ?_
      rw [seconds_adslMibTimer, counted]
      split
      next some_sec =>
        rw [show (t + tick.1) / 1000 = t / 1000 + 1 by omega, UInt32.ofNat_add]
        rfl
      next no_sec => rw [show (t + tick.1) / 1000 = t / 1000 by omega, UInt32.add_zero]
  obtain ⟨now, counted⟩ := run adslMibClearData 0 atTime_cleared rfl
  rw [Nat.zero_add] at now counted
  refine ⟨?_, ?_, counted⟩
  · rw [now.curr15Min]
    exact Nat.mod_lt _ (by decide)
  · rw [now.curr1Day]
    exact Nat.mod_lt _ (by decide)

theorem adslMibTimer_exact_thirds :
    (runTimer adslMibClearData [(700, true), (700, true), (700, false)]).line.entry.perfTotal
        .adslAS +
      (runTimer adslMibClearData [(700, true), (700, true), (700, false)]).line.entry.perfTotal
        .adslUAS = 2 :=
  (adslMibTimer_exact [(700, true), (700, true), (700, false)] (by decide)).2.2

/-- **A tick of two seconds counts as one**, and one of half an hour leaves 900 seconds. -/
theorem adslMibTimer_loses_second :
    (runTimer adslMibClearData [(2000, true)]).line.entry.perfTotal .adslAS +
        (runTimer adslMibClearData [(2000, true)]).line.entry.perfTotal .adslUAS = 1 ∧
      (runTimer adslMibClearData [(1800000, true)]).line.entry.curr15MinTimeElapsed = 900 := by
  decide +kernel

/-! ## The history -/

structure Windows (N : Type) where
  current : N → UInt32
  completed : List (N → UInt32)

structure MibLog where
  time : Nat
  line : Windows PerfCounter
  intl : Windows ChanCounter
  fast : Windows ChanCounter

section

variable {N : Type} [DecidableEq N]

def Windows.add (w : Windows N) (varname : N) (inc : UInt32) : Windows N :=
  { w with current := update w.current varname (w.current varname + inc) }

def Windows.closeIf (w : Windows N) (closes : Prop) [Decidable closes] : Windows N :=
  if closes then ⟨fun _ => 0, w.current :: w.completed⟩ else w

def Windows.empty (N : Type) : Windows N := ⟨fun _ => 0, []⟩

end

def MibLog.call (l : MibLog) : MibCall → MibLog
  | .adslMibTimer timeMs isLinkActive =>
    let time := l.time + timeMs
    let closes := l.time / 900000 < time / 900000
    let line :=
      if l.time / 1000 < time / 1000 then l.line.add (if isLinkActive then .adslAS else .adslUAS) 1
      else l.line
    ⟨time, line.closeIf closes, l.intl.closeIf closes, l.fast.closeIf closes⟩
  | .incPerfCounterVar varname => { l with line := l.line.add varname 1 }
  | .addIntlCounterVar varname inc => { l with intl := l.intl.add varname inc }
  | .addFastCounterVar varname inc => { l with fast := l.fast.add varname inc }

def mibLog (calls : List MibCall) : MibLog :=
  calls.foldl MibLog.call ⟨0, .empty _, .empty _, .empty _⟩

section

variable {N : Type}

structure Tracks (h : PerfHistory N) (w : Windows N) (n : Nat) : Prop where
  current : h.entry.perfCurr15Min = w.current
  windows : w.completed.length = n
  valid : h.entry.validIntervals = min n kAdslMibPerfIntervals
  intervals : ∀ i < h.entry.validIntervals, w.completed[i]? = some (h.intervals i)
  total : ∀ c, h.entry.perfTotal c = w.current c + (w.completed.map (· c)).sum

theorem moveIntervals_apply [DecidableEq N] (intervals : Nat → N → UInt32) (i j : Nat) :
    moveIntervals intervals i j = if 1 ≤ j ∧ j ≤ i then intervals (j - 1) else intervals j := by
  induction i generalizing intervals with
  | zero =>
    rw [moveIntervals, if_neg (by omega)]
  | succ i ih =>
    rw [moveIntervals, ih]
    by_cases last : j = i + 1
    · subst last
      rw [if_neg (by omega), update_self, if_pos (by omega)]
      rfl
    · by_cases within : 1 ≤ j ∧ j ≤ i
      · rw [if_pos within, if_pos (by omega), update_of_ne (by omega)]
      · rw [if_neg within, if_neg (by omega), update_of_ne last]

section

variable {h : PerfHistory N} {w : Windows N} {n : Nat} (tracks : Tracks h w n)
include tracks

theorem Tracks.add [DecidableEq N] (varname : N) (inc : UInt32) :
    Tracks (h.addCounterVar varname inc) (w.add varname inc) n := by
  refine ⟨?_, tracks.windows, tracks.valid, tracks.intervals, fun c => ?_⟩
  · rw [Windows.add, ← tracks.current]
    rfl
  · show update h.entry.perfTotal varname _ c =
      update w.current varname _ c + (w.completed.map (· c)).sum
    by_cases same : c = varname
    · subst same
      rw [update_self, update_self, tracks.total, add_assoc, add_assoc,
        add_comm inc]
    · rw [update_of_ne same, update_of_ne same, tracks.total]

theorem Tracks.close [DecidableEq N] :
    Tracks (h.close15Min (nextIntervals h.entry.validIntervals))
      ⟨fun _ => 0, w.current :: w.completed⟩ (n + 1) := by
  have valid := tracks.valid
  refine ⟨rfl, congrArg (· + 1) tracks.windows, ?_, fun i inside => ?_, fun c => ?_⟩
  · show nextIntervals h.entry.validIntervals = min (n + 1) kAdslMibPerfIntervals
    rw [nextIntervals, valid, kAdslMibPerfIntervals]
    split <;> omega
  · replace inside : i < nextIntervals h.entry.validIntervals := inside
    show (w.current :: w.completed)[i]? = some (update
      (moveIntervals h.intervals (nextIntervals h.entry.validIntervals - 1)) 0 _ i)
    cases i with
    | zero => rw [update_self, tracks.current, getElem?_cons_zero]
    | succ i =>
      have before : i < h.entry.validIntervals := by
        rw [nextIntervals] at inside
        split at inside <;> omega
      rw [update_of_ne (Nat.succ_ne_zero i), moveIntervals_apply, if_pos (by omega),
        getElem?_cons_succ]
      exact tracks.intervals i before
  · show h.entry.perfTotal c = 0 + ((w.current :: w.completed).map (· c)).sum
    rw [tracks.total, map_cons, sum_cons, zero_add]

theorem Tracks.elapse [DecidableEq N] {sec15 : Nat} (sec1 : Nat) {closes : Prop}
    [Decidable closes] (iff : closes ↔ k15MinInSeconds ≤ sec15) {n' : Nat}
    (windows : n' = if closes then n + 1 else n) :
    Tracks (h.elapse (nextIntervals h.entry.validIntervals) sec15 sec1) (w.closeIf closes) n' := by
  subst windows
  rw [PerfHistory.elapse, Windows.closeIf]
  by_cases closed : closes
  · obtain ⟨current, windows, valid, intervals, total⟩ := tracks.close
    simp only [if_pos closed, if_pos (iff.mp closed)]
    split <;> exact ⟨current, windows, valid, intervals, total⟩
  · obtain ⟨current, windows, valid, intervals, total⟩ := tracks
    simp only [if_neg closed, if_neg (mt iff.mpr closed)]
    split <;> exact ⟨current, windows, valid, intervals, total⟩

end

end

structure Follows (m : AdslMib) (l : MibLog) : Prop where
  now : AtTime m l.time
  line : Tracks m.line l.line (l.time / 900000)
  intl : Tracks m.intl l.intl (l.time / 900000)
  fast : Tracks m.fast l.fast (l.time / 900000)

section

variable {m : AdslMib} {l : MibLog}

theorem Follows.adslMibTimer (follows : Follows m l) {timeMs : Nat} (short : timeMs < 900000)
    (isLinkActive : Bool) :
    Follows (m.adslMibTimer timeMs isLinkActive) (l.call (.adslMibTimer timeMs isLinkActive)) := by
  obtain ⟨now, line, intl, fast⟩ := follows
  have ms := now.ms
  have elapsed := now.curr15Min
  have next := now.adslMibTimer timeMs isLinkActive
    (by rw [k15MinInSeconds]; omega)
  have same : m.intl.entry.validIntervals = m.fast.entry.validIntervals := by
    rw [fast.valid, intl.valid]
  rw [k15MinInSeconds] at elapsed
  rw [AdslMib.adslMibTimer] at next ⊢
  rw [MibLog.call]
  by_cases some_sec : (timeMs + m.timeMs) / 1000 ≠ 0
  · rw [if_pos some_sec] at next ⊢
    have counted : l.time / 1000 < (l.time + timeMs) / 1000 := by omega
    have closes : l.time / 900000 < (l.time + timeMs) / 900000 ↔
        k15MinInSeconds ≤ (timeMs + m.timeMs) / 1000 + m.line.entry.curr15MinTimeElapsed := by
      rw [k15MinInSeconds, elapsed]
      omega
    have windows : (l.time + timeMs) / 900000 =
        if l.time / 900000 < (l.time + timeMs) / 900000 then l.time / 900000 + 1
        else l.time / 900000 := by
      split <;> omega
    rw [if_pos counted]
    refine ⟨next, (line.add _ 1).elapse _ closes windows, intl.elapse _ closes windows, ?_⟩
    have both := fast.elapse ((timeMs + m.timeMs) / 1000 + m.line.entry.curr1DayTimeElapsed)
      closes windows
    rw [← same] at both
    exact both
  · rw [if_neg some_sec] at next ⊢
    have uncounted : ¬ l.time / 1000 < (l.time + timeMs) / 1000 := by omega
    have windows : (l.time + timeMs) / 900000 = l.time / 900000 := by omega
    simp only [if_neg uncounted, Windows.closeIf, windows, lt_irrefl, if_false]
    rw [← windows] at line intl fast
    exact ⟨next, line, intl, fast⟩

theorem Follows.call (follows : Follows m l) (c : MibCall) (short : c.timeMs < 900000) :
    Follows (m.call c).2 (l.call c) := by
  cases c with
  | adslMibTimer timeMs isLinkActive => exact follows.adslMibTimer short isLinkActive
  | incPerfCounterVar varname =>
    exact { follows with now := ⟨follows.now.ms, follows.now.curr15Min, follows.now.curr1Day⟩,
                         line := follows.line.add varname 1 }
  | addIntlCounterVar varname inc =>
    exact { follows with now := ⟨follows.now.ms, follows.now.curr15Min, follows.now.curr1Day⟩,
                         intl := follows.intl.add varname inc }
  | addFastCounterVar varname inc =>
    exact { follows with now := ⟨follows.now.ms, follows.now.curr15Min, follows.now.curr1Day⟩,
                         fast := follows.fast.add varname inc }

end

/-- The valid intervals hold the last completed windows, newest first, and as long as there is
room for all of them nothing is missing from the total. -/
structure IsHistory {N : Type} (h : PerfHistory N) (completed : List (N → UInt32)) (time : Nat) :
    Prop where
  windows : completed.length = time / 900000
  valid : h.entry.validIntervals = min completed.length kAdslMibPerfIntervals
  newest : (range h.entry.validIntervals).map h.intervals = completed.take kAdslMibPerfIntervals
  total : completed.length ≤ kAdslMibPerfIntervals → ∀ c, h.entry.perfTotal c =
    h.entry.perfCurr15Min c + ((range h.entry.validIntervals).map fun i => h.intervals i c).sum

theorem Tracks.isHistory {N : Type} {h : PerfHistory N} {w : Windows N} {time : Nat}
    (tracks : Tracks h w (time / 900000)) : IsHistory h w.completed time := by
  have valid : h.entry.validIntervals = min w.completed.length kAdslMibPerfIntervals := by
    rw [tracks.valid, tracks.windows]
  have newest : (range h.entry.validIntervals).map h.intervals =
      w.completed.take kAdslMibPerfIntervals := by
    refine ext_getElem? fun i => ?_
    rw [getElem?_map]
    by_cases inside : i < h.entry.validIntervals
    · rw [getElem?_range inside, getElem?_take_of_lt (by omega), tracks.intervals i inside]
      rfl
    · rw [getElem?_eq_none (by rw [length_range]; omega), eq_comm]
      exact getElem?_eq_none (by rw [length_take]; omega)
  refine ⟨tracks.windows, valid, newest, fun room c => ?_⟩
  have stored : (range h.entry.validIntervals).map (fun i => h.intervals i c) =
      ((range h.entry.validIntervals).map h.intervals).map (· c) := by
    rw [map_map]
    rfl
  rw [tracks.total, tracks.current, stored, newest, take_of_length_le room]

theorem time_call (l : MibLog) (c : MibCall) : (l.call c).time = l.time + c.timeMs := by
  cases c <;> rfl

/-- **The history is a sliding window over the completed windows**, whose number is given by the
time that has passed. -/
theorem adslMib_history (calls : List MibCall) (short : ∀ c ∈ calls, c.timeMs < 900000) :
    let m := final AdslMib.call adslMibClearData calls
    let time := (calls.map MibCall.timeMs).sum
    IsHistory m.line (mibLog calls).line.completed time ∧
      IsHistory m.intl (mibLog calls).intl.completed time ∧
      IsHistory m.fast (mibLog calls).fast.completed time := by
  have run (m : AdslMib) (l : MibLog) (follows : Follows m l) :
      Follows (final AdslMib.call m calls) (calls.foldl MibLog.call l) ∧
        (calls.foldl MibLog.call l).time = l.time + (calls.map MibCall.timeMs).sum := by
    induction calls generalizing m l with
    | nil => exact ⟨follows, rfl⟩
    | cons c calls ih =>
      obtain ⟨last, time⟩ := ih (fun later mem => short later (mem_cons_of_mem _ mem)) _ _
        (follows.call c (short c mem_cons_self))
      refine ⟨last, ?_⟩
      rw [foldl_cons, time, time_call, map_cons, sum_cons, Nat.add_assoc]
  have none {N : Type} : Tracks ⟨clearedEntry N, fun _ _ => 0⟩ (.empty N) (0 / 900000) :=
    ⟨rfl, rfl, rfl, fun i inside => absurd inside (Nat.not_lt_zero i), fun _ => rfl⟩
  obtain ⟨⟨-, line, intl, fast⟩, time⟩ := run adslMibClearData ⟨0, .empty _, .empty _, .empty _⟩
    ⟨atTime_cleared, none, none, none⟩
  rw [Nat.zero_add] at time
  rw [time] at line intl fast
  exact ⟨line.isHistory, intl.isHistory, fast.isHistory⟩

theorem adslMib_history_twoWindows :
    (final AdslMib.call adslMibClearData
      [.addFastCounterVar .adslChanReceivedBlks 7, .adslMibTimer 899999 true,
        .adslMibTimer 899999 false, .adslMibTimer 2 true]).fast.entry.validIntervals = 2 := by
  rw [(adslMib_history [.addFastCounterVar .adslChanReceivedBlks 7, .adslMibTimer 899999 true,
    .adslMibTimer 899999 false, .adslMibTimer 2 true] (by decide)).2.2.valid]
  decide +kernel

end EchoLife.Dsl
