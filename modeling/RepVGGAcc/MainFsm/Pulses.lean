import RepVGGAcc.Clocked.Trace
import RepVGGAcc.Rtl.MainFsm
import Mathlib.Tactic.IntervalCases

/-! The pulses that `main_fsm` emits in the course of a run. -/

namespace RepVGGAcc.MainFsm

open Clocked

/-- Within the cycles `first` to `last` an output channel counter steps through
0, 1, ..., 63 and back to 0, at the cycles `time 1` to `time 64`. -/
structure Walk (outChCnt : Nat → Nat) (first last : Nat) (time : Nat → Nat) : Prop where
  begins : time 0 = first
  ordered : ∀ k < 64, time k < time (k + 1)
  inside : time 64 ≤ last
  value : ∀ k < 64, ∀ t, time k ≤ t → t < time (k + 1) → outChCnt t = k
  returned : ∀ t, time 64 ≤ t → t ≤ last + 1 → outChCnt t = 0

/-- The machine leaves the idle state in cycle `first` and returns to it in cycle
`last`, and in between the output channels are walked through once. -/
structure IsRun (s : Nat → State) (i : Nat → Input) (first last : Nat) : Prop where
  starts : (s first).state = .idle ∧ (i first).accStart = true
  busy : ∀ t, first < t → t ≤ last → (s t).state ≠ .idle
  finishes : (s last).state = .conv ∧ (i last).convDone = true
  walks : ∃ time, Walk (fun t => (i t).outChCnt) first last time

/-- What is seen in the cycles of a run. An output set in the last cycle shows
one cycle later. -/
def eventsOfRun (observe : Nat → Option α) (first last : Nat) : List α :=
  events (fun t => observe (first + 1 + t)) (last + 1 - first)

/-- A weight fetch is asked for, with this output channel. -/
def weightFetch (s : State) (i : Input) : Option Nat :=
  if s.weightStart then some (weightOchCnt s i) else none

/-- One start of the input fetch, one start of the array, and one weight fetch
for each output channel, in order. -/
structure OneFetchPerChannel (s : Nat → State) (i : Nat → Input) (first last : Nat) :
    Prop where
  imapStart : (eventsOfRun (fun t => guard ((s t).imapStart = true)) first last).length = 1
  convStart : (eventsOfRun (fun t => guard ((s t).convStart = true)) first last).length = 1
  weightStart : eventsOfRun (fun t => weightFetch (s t) (i t)) first last = List.range 64

section Runs

variable {s : Nat → State} {i : Nat → Input} {first last : Nat}

theorem weightStart_succ (trace : IsTrace step s i) (t : Nat) :
    (s (t + 1)).weightStart =
      (!(s t).weightStart && decide (weightTrigger (s t) (i t))) := by
  rw [trace t]
  exact pulse_eq _ _

theorem outChCntD_succ (trace : IsTrace step s i) (t : Nat) :
    (s (t + 1)).outChCntD = (i t).outChCnt := by
  rw [trace t]
  rfl

/-- When the counter falls back to 0 the edge detector asks for a fetch. -/
theorem weightTrigger_wrap (trace : IsTrace step s i) {t : Nat}
    (top : (i t).outChCnt = 63) (wrapped : (i (t + 1)).outChCnt = 0) :
    weightTrigger (s (t + 1)) (i (t + 1)) := by
  refine Or.inr (Or.inr ⟨?_, ?_⟩)
  · rw [outChCntD_succ trace, top, wrapped]
    omega
  · rw [wrapped]
    omega

theorem weightOchCnt_le_one (s : State) {i : Input} (zero : i.outChCnt = 0) :
    weightOchCnt s i ≤ 1 := by
  unfold weightOchCnt
  rw [zero]
  split <;> omega

theorem weightStart_wrap (trace : IsTrace step s i) {t : Nat}
    (top : (i t).outChCnt = 63) (wrapped : (i (t + 1)).outChCnt = 0) :
    (s (t + 1)).weightStart = true ∨ (s (t + 2)).weightStart = true := by
  have again := weightStart_succ trace (t + 1)
  rw [decide_eq_true (weightTrigger_wrap trace top wrapped), Bool.and_true] at again
  cases now : (s (t + 1)).weightStart with
  | true => exact Or.inl rfl
  | false => exact Or.inr (by rw [again, now]; rfl)

theorem Walk.time_ge {outChCnt : Nat → Nat} {time : Nat → Nat}
    (walk : Walk outChCnt first last time) {k : Nat} (le : k ≤ 64) :
    first + k ≤ time k := by
  induction k with
  | zero => exact walk.begins.ge
  | succ k held =>
      have before := held (by omega)
      have rises := walk.ordered k (by omega)
      omega

/-- In no run is there one fetch for each channel: when the counter falls back
to 0 at the end, one more fetch follows. -/
theorem not_oneFetchPerChannel (trace : IsTrace step s i) (whole : IsRun s i first last) :
    ¬ OneFetchPerChannel s i first last := by
  intro single
  obtain ⟨time, walk⟩ := whole.walks
  have after := walk.time_ge (k := 63) (by omega)
  have rises : time 63 < time 64 := walk.ordered 63 (by omega)
  have ends := walk.inside
  obtain ⟨top, wraps⟩ : ∃ top, time 64 = top + 1 := ⟨time 64 - 1, by omega⟩
  have again := weightStart_wrap trace
    (walk.value 63 (by omega) top (by omega) (show top < time 64 by omega))
    (walk.returned (top + 1) (by omega) (by omega))
  -- everything asked for from the wrap on is channel 0 or 1
  have late : ∀ t och, top - first ≤ t → t < last + 1 - first →
      weightFetch (s (first + 1 + t)) (i (first + 1 + t)) = some och → och ≤ 1 := by
    intro t och from_ until_ fetched
    unfold weightFetch at fetched
    split at fetched
    · cases fetched
      exact weightOchCnt_le_one _ (walk.returned _ (by omega) (by omega))
    · cases fetched
  obtain ⟨u, from_, until_, fetches⟩ : ∃ u, top - first ≤ u ∧ u < last + 1 - first ∧
      (weightFetch (s (first + 1 + u)) (i (first + 1 + u))).isSome := by
    rcases again with now | next
    · refine ⟨top - first, by omega, by omega, ?_⟩
      rw [show first + 1 + (top - first) = top + 1 by omega, weightFetch, if_pos now]
      rfl
    · refine ⟨top + 1 - first, by omega, by omega, ?_⟩
      rw [show first + 1 + (top + 1 - first) = top + 2 by omega, weightFetch, if_pos next]
      rfl
  obtain ⟨och, lastFetch, low⟩ := getLast?_events late from_ until_ fetches
  have fetched : events _ _ = List.range 64 := single.weightStart
  rw [fetched] at lastFetch
  have high : och = 63 := by
    cases lastFetch
    rfl
  omega

end Runs

/-! A run that moves on to the next channel every other cycle. -/

def briskRun (t : Nat) : Input where
  accStart := t == 0
  weightDone := t == 2
  imapDone := t == 4
  convDone := t == 140
  outChCnt := if t < 134 then (t - 6) / 2 else 0

theorem briskRun_conv {n : Nat} (running : n ≤ 135) :
    (run step reset briskRun (5 + n)).state = .conv := by
  induction n with
  | zero => rfl
  | succ n held =>
      have goesOn : (briskRun (5 + n)).convDone = false :=
        beq_eq_false_iff_ne.mpr (by omega)
      show nextState (run step reset briskRun (5 + n)) (briskRun (5 + n)) = .conv
      simp [nextState, held (by omega), goesOn]

theorem isRun_briskRun : IsRun (run step reset briskRun) briskRun 0 140 where
  starts := ⟨rfl, rfl⟩
  busy := by
    intro t started running
    by_cases early : t < 5
    · interval_cases t <;> decide
    · obtain ⟨n, rfl⟩ := Nat.exists_eq_add_of_le (by omega : 5 ≤ t)
      rw [briskRun_conv (by omega)]
      decide
  finishes := ⟨briskRun_conv (n := 135) le_rfl, rfl⟩
  walks := by
    refine ⟨fun k => if k = 0 then 0 else 6 + 2 * k, rfl, ?_, by decide, ?_, ?_⟩
    · intro k _
      show (if k = 0 then 0 else 6 + 2 * k) < 6 + 2 * (k + 1)
      split_ifs <;> omega
    · intro k inside t from_ until_
      simp only [briskRun]
      split_ifs at * <;> omega
    · intro t from_ _
      have late : ¬ t < 134 := by simpa using from_
      simp [briskRun, late]

theorem not_oneFetchPerChannel_briskRun :
    ¬ OneFetchPerChannel (run step reset briskRun) briskRun 0 140 :=
  not_oneFetchPerChannel (isTrace_run step reset briskRun) isRun_briskRun

/-- This run asks for a 65th fetch, of channel 1. -/
theorem oneFetchPerChannel_fails :
    ¬ ∀ (s : Nat → State) (i : Nat → Input), IsTrace step s i → s 0 = reset →
      ∀ first last, IsRun s i first last → OneFetchPerChannel s i first last := by
  intro always
  have single := always _ _ (isTrace_run step reset briskRun) rfl 0 140 isRun_briskRun
  have length : (eventsOfRun
      (fun t => weightFetch (run step reset briskRun t) (briskRun t)) 0 140).length = 65 := by
    decide +kernel
  rw [single.weightStart] at length
  exact absurd length (by decide)

end RepVGGAcc.MainFsm
