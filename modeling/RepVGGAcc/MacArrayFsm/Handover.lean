import RepVGGAcc.Clocked.Progress
import RepVGGAcc.MacArrayFsm.Schedule

/-! The items that `mac_array_fsm` hands over, counted over all runs since reset. -/

namespace RepVGGAcc.MacArrayFsm

open Clocked

/-- The items of one run: 3136 pixels of two groups for each output channel. -/
def itemsOfRun : Nat := 401408

def starts (s : State) (i : Input) : Bool :=
  s.state == .idle && i.convStart

def handed (s : Nat → State) (i : Nat → Input) (t : Nat) : Nat :=
  Nat.count (fun u => handover (s u) (i u) = true) t

def started (s : Nat → State) (i : Nat → Input) (t : Nat) : Nat :=
  Nat.count (fun u => starts (s u) (i u) = true) t

namespace Scan

def missing : Scan → Nat
  | .rest _ _ => 0
  | .busy _ e => itemsOfRun - (e - 65)

def remaining : Scan → Nat
  | .rest _ _ => 0
  | .busy _ e => 401473 - e

theorem handover_rest (skew : Fin 3136) (done : Bool) (i : Input) :
    handover (Scan.rest skew done).toState i = false := rfl

theorem handover_busy (skew : Fin 3136) (e : Fin 401473) (i : Input) :
    handover (Scan.busy skew e).toState i =
      (decide (65 ≤ e.val) && i.macArray2psumAccRdy) := by
  refine (handover_scan skew e i).trans ?_
  rw [decide_eq_decide.mpr (and_iff_left e.isLt)]

theorem starts_rest (skew : Fin 3136) (done : Bool) (i : Input) :
    starts (Scan.rest skew done).toState i = i.convStart := rfl

theorem starts_busy (skew : Fin 3136) (e : Fin 401473) (i : Input) :
    starts (Scan.busy skew e).toState i = false := by
  have busy : (Scan.busy skew e).toState.state ≠ .idle := scanState_ne_idle e
  unfold starts
  rw [beq_eq_false_iff_ne.mpr busy, Bool.false_and]

/-- A start owes the items of a run, a hand-over settles one of them. -/
theorem step_missing (a : Scan) (i : Input) :
    (a.step i).missing + (handover a.toState i).toNat =
      a.missing + itemsOfRun * (starts a.toState i).toNat := by
  cases a with
  | rest skew done =>
      rw [handover_rest, starts_rest]
      simp only [step]
      split_ifs with start <;> simp [start, missing]
  | busy skew e =>
      have bound := e.isLt
      rw [handover_busy, starts_busy]
      simp only [step]
      split_ifs with ready last
      · by_cases full : 65 ≤ e.val
        · simp only [missing, itemsOfRun, ready, full, decide_true, Bool.and_self,
            Bool.toNat_true, Bool.toNat_false]
          omega
        · simp only [missing, itemsOfRun, ready, full, decide_false, Bool.false_and,
            Bool.toNat_false]
          omega
      · simp only [missing, itemsOfRun, ready, show 65 ≤ e.val by omega, decide_true,
          Bool.and_self, Bool.toNat_true, Bool.toNat_false]
        omega
      · simp [ready]

theorem done_step_busy (skew : Fin 3136) (e : Fin 401473) (i : Input) :
    ((Scan.busy skew e).step i).done = true ↔
      i.macArray2psumAccRdy = true ∧ e.val = 401472 := by
  have bound := e.isLt
  simp only [step]
  split_ifs with ready last
  · simp only [done, Bool.false_eq_true, ready, true_and, false_iff]
    omega
  · simp only [done, ready, true_and, true_iff]
    omega
  · simp [done, ready]

theorem done_step_rest (skew : Fin 3136) (flag : Bool) (i : Input) :
    ((Scan.rest skew flag).step i).done = false := by
  simp only [step]
  split_ifs <;> rfl

end Scan

theorem step_convStart {s : State} (busy : s.state ≠ .idle) (i : Input) (start : Bool) :
    step s { i with convStart := start } = step s i := by
  have unseen : nextState s { i with convStart := start } = nextState s i := by
    unfold nextState
    cases here : s.state with
    | idle => exact absurd here busy
    | _ => rfl
  simp only [step, unseen]
  rfl

/-- What the machine owes the rest of the design in cycle `t`: in the idle state all
runs have handed over all of their items; during a run `n` of them have been handed over,
the next one is tagged as number `n`, the last one ends the run, and another `conv_start`
changes nothing; and a receiver that keeps accepting brings the run to its end. -/
structure HandsOver (s : Nat → State) (i : Nat → Input) (t : Nat) : Prop where
  idle : (s t).state = .idle →
    handed s i t = itemsOfRun * started s i t ∧ handover (s t) (i t) = false ∧
      (s (t + 1)).convDone = false
  busy : (s t).state ≠ .idle → ∃ n < itemsOfRun,
    handed s i t + itemsOfRun = itemsOfRun * started s i t + n ∧
      (handover (s t) (i t) = true →
        (macArray2psumAccInfo (s t)).offset = n % 3136 ∧
          (macArray2psumAccInfo (s t)).inChGroup = decide (n / 3136 % 2 = 1)) ∧
      ((s (t + 1)).convDone = true ↔
        handover (s t) (i t) = true ∧ n + 1 = itemsOfRun) ∧
      ∀ start, step (s t) { i t with convStart := start } = step (s t) (i t)
  ends : (s t).state ≠ .idle → (∀ m, ∃ u, m ≤ u ∧ (i u).macArray2psumAccRdy = true) →
    ∃ u, t < u ∧ (s u).convDone = true

section Runs

variable {s : Nat → State} {i : Nat → Input} {a : Nat → Scan}

theorem handed_missing (first : a 0 = .rest 0 false) (scans : IsTrace Scan.step a i)
    (image : ∀ t, s t = (a t).toState) (t : Nat) :
    handed s i t + (a t).missing = itemsOfRun * started s i t := by
  induction t with
  | zero => simp [handed, started, first, Scan.missing]
  | succ t held =>
      have moved := Scan.step_missing (a t) (i t)
      unfold handed started at held ⊢
      rw [Nat.count_succ, Nat.count_succ, scans t, image t, Nat.mul_add]
      cases sent : handover (a t).toState (i t) <;>
        cases begun : starts (a t).toState (i t) <;>
        simp [sent, begun] at moved ⊢ <;> omega

/-- A run whose receiver keeps accepting comes to its end. -/
theorem exists_convDone (scans : IsTrace Scan.step a i)
    (ready : ∀ m, ∃ u, m ≤ u ∧ (i u).macArray2psumAccRdy = true) {t : Nat}
    (busy : (a t).remaining ≠ 0) : ∃ u, t < u ∧ (a u).done = true := by
  have rests : ∃ u, t ≤ u ∧ (a u).remaining = 0 := by
    refine @eventually_of_measure (fun u => (a u).remaining) _ _ t ready fun u _ running => ?_
    cases at_ : a u with
    | rest skew done => exact absurd (by rw [at_]; rfl) running
    | busy skew e =>
        have bound := e.isLt
        rw [scans u, at_]
        simp only [Scan.step]
        split_ifs with now last
        · simp only [Scan.remaining]
          omega
        · simp only [Scan.remaining]
          omega
        · simp [now]
  classical
  -- the first cycle of rest follows the last item
  obtain ⟨u, least⟩ : ∃ u, IsLeast { u | t ≤ u ∧ (a u).remaining = 0 } u :=
    ⟨Nat.find rests, Nat.find_spec rests, fun v member => Nat.find_min' rests member⟩
  obtain ⟨from_, rested⟩ := least.1
  have later : t ≠ u := by
    rintro rfl
    exact busy rested
  obtain ⟨v, rfl⟩ : ∃ v, u = v + 1 := ⟨u - 1, by omega⟩
  have before : (a v).remaining ≠ 0 := fun zero =>
    absurd (least.2 ⟨by omega, zero⟩) (by omega)
  refine ⟨v + 1, by omega, ?_⟩
  rw [scans v] at rested ⊢
  cases at_ : a v with
  | rest skew done => exact absurd (by rw [at_]; rfl) before
  | busy skew e =>
      rw [at_] at rested
      simp only [Scan.step] at rested ⊢
      split_ifs at rested ⊢ with now last
      · simp only [Scan.remaining] at rested
        omega
      · rfl
      · simp only [Scan.remaining] at rested
        omega

theorem handsOver (trace : IsTrace step s i) (initial : s 0 = reset) (t : Nat) :
    HandsOver s i t := by
  obtain ⟨a, first, scans, image⟩ := exists_scan trace initial
  have account := handed_missing first scans image t
  have flag : (s (t + 1)).convDone = ((a t).step (i t)).done := by
    rw [image (t + 1), Scan.convDone_toState, scans t]
  cases at_ : a t with
  | rest skew done =>
      have state : (s t).state = .idle := by
        rw [image t, at_]
        rfl
      rw [at_] at account flag
      refine ⟨fun _ => ⟨account, ?_, ?_⟩, fun absurdity => absurd state absurdity,
        fun absurdity => absurd state absurdity⟩
      · rw [image t, at_, Scan.handover_rest]
      · rw [flag, Scan.done_step_rest]
  | busy skew e =>
      have bound := e.isLt
      have state : (s t).state ≠ .idle := by
        rw [image t, at_]
        exact scanState_ne_idle e
      have sent : handover (s t) (i t) =
          (decide (65 ≤ e.val) && (i t).macArray2psumAccRdy) := by
        rw [image t, at_, Scan.handover_busy]
      rw [at_] at account flag
      simp only [Scan.missing] at account
      refine ⟨fun absurdity => absurd absurdity state, fun _ => ⟨e - 65, ?_, ?_, ?_, ?_, ?_⟩,
        fun _ ready => ?_⟩
      · unfold itemsOfRun
        omega
      · unfold itemsOfRun at account ⊢
        omega
      · intro _
        rw [image t, at_]
        exact ⟨rfl, rfl⟩
      · rw [flag, Scan.done_step_busy, sent, Bool.and_eq_true, decide_eq_true_eq, and_comm,
          and_right_comm]
        refine and_congr_left fun _ => ?_
        unfold itemsOfRun
        omega
      · exact step_convStart state (i t)
      · obtain ⟨u, later, done⟩ := exists_convDone scans ready (t := t) (by
          rw [at_]
          simp only [Scan.remaining]
          omega)
        exact ⟨u, later, by rw [image u, Scan.convDone_toState, done]⟩

theorem handsOver_unstalled : HandsOver (run step reset unstalled) unstalled 66 :=
  handsOver (isTrace_run step reset unstalled) rfl 66

end Runs

end RepVGGAcc.MacArrayFsm
