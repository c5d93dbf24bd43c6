import RepVGGAcc.Load.WeightPort
import Mathlib.Data.Nat.Count

/-! The bank selector of the weights under any timing of the responses. It looks at the
address of the awaited word alone, so that it also turns over while nothing arrives. -/

namespace RepVGGAcc.WeightBiu

open Clocked

def arrived (i : Nat → Input) (t : Nat) : Nat :=
  Nat.count (fun u => (i u).arb2weightBiuVld = true) t

/-- The number of cycles before `t` in which the last word of a burst was awaited and
did not come. -/
def awaited (i : Nat → Input) (t : Nat) : Nat :=
  Nat.count
    (fun u => (i u).arb2weightBiuVld = false ∧ arrived i u % burstWords = burstWords - 1) t

/-- `weight_biu` and `mac_array_wlu` from reset on. The output channel is 8 bits wide. -/
structure Loads (biu : Nat → State) (i : Nat → Input) (wlu : Nat → MacArrayWlu.State) :
    Prop where
  biuTrace : IsTrace step biu i
  wluTrace : IsTrace MacArrayWlu.step wlu (fun t => port (biu t) (i t))
  biuReset : biu 0 = reset
  wluReset : wlu 0 = MacArrayWlu.reset
  byteWide : ∀ t, (i t).weightOchCnt < 2 ^ 8

/-- All words of burst `k` are written to bank `k mod 2`. -/
def FillsWhole (biu : Nat → State) (i : Nat → Input) (wlu : Nat → MacArrayWlu.State) : Prop :=
  ∀ t, weightWen (i t) = true →
    (MacArrayWlu.weightLoadSel (wlu t) (port (biu t) (i t))).val / 2 =
      arrived i t / burstWords % 2

/-- Besides, the bank changes with the last word of each burst and at no other time. -/
structure FillsBanks (biu : Nat → State) (i : Nat → Input) (wlu : Nat → MacArrayWlu.State) :
    Prop where
  whole : FillsWhole biu i wlu
  once : ∀ t, (wlu (t + 1)).weightLoadSelBase ≠ (wlu t).weightLoadSelBase ↔
    weightWen (i t) = true ∧ arrived i t % burstWords = burstWords - 1

section Runs

variable {biu : Nat → State} {i : Nat → Input} {wlu : Nat → MacArrayWlu.State}

theorem arrived_succ (i : Nat → Input) (t : Nat) :
    arrived i (t + 1) = arrived i t + (i t).arb2weightBiuVld.toNat := by
  unfold arrived
  rw [Nat.count_succ]
  cases (i t).arb2weightBiuVld <;> rfl

theorem awaited_succ (i : Nat → Input) (t : Nat) :
    awaited i (t + 1) = awaited i t +
      if (i t).arb2weightBiuVld = false ∧ arrived i t % burstWords = burstWords - 1 then 1
      else 0 := by
  unfold awaited
  rw [Nat.count_succ]

namespace Loads

theorem received (loads : Loads biu i wlu) (t : Nat) :
    Received (arrived i t % burstWords) (biu t) :=
  received_run loads.biuTrace loads.biuReset t

theorem base_succ (loads : Loads biu i wlu) (t : Nat) :
    (wlu (t + 1)).weightLoadSelBase =
      if arrived i t % burstWords = burstWords - 1 then !(wlu t).weightLoadSelBase
      else (wlu t).weightLoadSelBase := by
  rw [loads.wluTrace t]
  exact wlu_step (loads.received t) (loads.byteWide t) (wlu t)

/-- The selector counts the completed bursts and the cycles of waiting. -/
theorem base_eq (loads : Loads biu i wlu) (t : Nat) :
    (wlu t).weightLoadSelBase =
      decide ((arrived i t / burstWords + awaited i t) % 2 = 1) := by
  induction t with
  | zero =>
      have begun : arrived i 0 = 0 ∧ awaited i 0 = 0 := ⟨Nat.count_zero _, Nat.count_zero _⟩
      rw [loads.wluReset, begun.1, begun.2]
      rfl
  | succ t held =>
      rw [loads.base_succ, held, arrived_succ, awaited_succ]
      unfold burstWords
      cases (i t).arb2weightBiuVld with
      | false =>
          split_ifs with last other other
          · rw [← decide_not]
            exact decide_eq_decide.mpr (by simp; omega)
          · exact absurd ⟨rfl, last⟩ other
          · exact absurd other.2 last
          · exact decide_eq_decide.mpr (by simp)
      | true =>
          simp only [Bool.true_eq_false, false_and, if_false, Bool.toNat_true]
          split_ifs with last
          · rw [← decide_not]
            exact decide_eq_decide.mpr (by simp; omega)
          · exact decide_eq_decide.mpr (by simp; omega)

theorem sel_eq (loads : Loads biu i wlu) (t : Nat) :
    (MacArrayWlu.weightLoadSel (wlu t) (port (biu t) (i t))).val / 2 =
      (arrived i t / burstWords + awaited i t) % 2 := by
  have sel := weightLoadSel_port (i := i t) (loads.received t) (wlu t)
  rw [loads.base_eq t] at sel
  rcases Nat.mod_two_eq_zero_or_one (arrived i t / burstWords + awaited i t) with even | odd
  · simp only [even, Nat.zero_ne_one, decide_false, Bool.toNat_false] at sel ⊢
    omega
  · simp only [odd, decide_true, Bool.toNat_true] at sel ⊢
    omega

theorem fillsWhole_iff (loads : Loads biu i wlu) :
    FillsWhole biu i wlu ↔ ∀ t, (i t).arb2weightBiuVld = true → awaited i t % 2 = 0 := by
  unfold FillsWhole
  refine forall_congr' fun t => ?_
  rw [weightWen, receive_eq, loads.sel_eq t]
  exact imp_congr_right fun _ => by omega

theorem once_iff (loads : Loads biu i wlu) (t : Nat) :
    ((wlu (t + 1)).weightLoadSelBase ≠ (wlu t).weightLoadSelBase ↔
        weightWen (i t) = true ∧ arrived i t % burstWords = burstWords - 1) ↔
      (arrived i t % burstWords = burstWords - 1 → (i t).arb2weightBiuVld = true) := by
  rw [loads.base_succ t, weightWen, receive_eq]
  by_cases last : arrived i t % burstWords = burstWords - 1
  · simp [last]
  · simp [last]

end Loads

theorem awaited_eq_zero {i : Nat → Input}
    (prompt : ∀ t, arrived i t % burstWords = burstWords - 1 → (i t).arb2weightBiuVld = true)
    (t : Nat) : awaited i t = 0 := by
  refine Nat.count_iff_forall_not.mpr fun u _ waiting => ?_
  rw [prompt u waiting.2] at waiting
  exact Bool.noConfusion waiting.1

/-- The banks fill as they should exactly when no last word of a burst is ever awaited;
the words go to the right bank as long as the cycles of waiting come in pairs. -/
theorem fillsBanks_iff (loads : Loads biu i wlu) :
    (FillsBanks biu i wlu ↔ ∀ t, arrived i t % burstWords = burstWords - 1 →
      (i t).arb2weightBiuVld = true) ∧
    (FillsWhole biu i wlu ↔
      ∀ t, (i t).arb2weightBiuVld = true → awaited i t % 2 = 0) := by
  refine ⟨⟨fun fills t => (loads.once_iff t).mp (fills.once t), fun prompt => ⟨?_, ?_⟩⟩,
    loads.fillsWhole_iff⟩
  · rw [loads.fillsWhole_iff]
    intro t _
    rw [awaited_eq_zero prompt]
  · exact fun t => (loads.once_iff t).mpr (prompt t)

end Runs

/-! Bursts whose words come in every cycle but those of `gap`. -/

def gapped (gap : Nat → Bool) (t : Nat) : Input where
  weightStart := false
  weight3BaseAddr := 0
  weight1BaseAddr := 0
  weightOchCnt := 0
  weightBiu2arbRdy := false
  arb2weightBiuData := 0
  arb2weightBiuVld := !gap t

theorem loads_gapped (gap : Nat → Bool) :
    Loads (run step reset (gapped gap)) (gapped gap)
      (run MacArrayWlu.step MacArrayWlu.reset
        fun t => port (run step reset (gapped gap) t) (gapped gap t)) where
  biuTrace := isTrace_run _ _ _
  wluTrace := isTrace_run _ _ _
  biuReset := rfl
  wluReset := rfl
  byteWide := fun _ => Nat.two_pow_pos 8

theorem fillsBanks_iff_prompt :
    let i := gapped fun _ => false
    let biu := run step reset i
    let wlu := run MacArrayWlu.step MacArrayWlu.reset fun t => port (biu t) (i t)
    (FillsBanks biu i wlu ↔ ∀ t, arrived i t % burstWords = burstWords - 1 →
      (i t).arb2weightBiuVld = true) ∧
    (FillsWhole biu i wlu ↔
      ∀ t, (i t).arb2weightBiuVld = true → awaited i t % 2 = 0) :=
  fillsBanks_iff (loads_gapped fun _ => false)

/-- One idle cycle before the last word of the first burst sends it to bank 1. -/
theorem fillsBanks_fails :
    ¬ ∀ (biu : Nat → State) (i : Nat → Input) (wlu : Nat → MacArrayWlu.State),
      Loads biu i wlu → FillsBanks biu i wlu := by
  intro always
  have loads := loads_gapped fun t => t == 159
  have even := loads.fillsWhole_iff.mp (always _ _ _ loads).whole 160 rfl
  exact absurd even (by decide +kernel)

end RepVGGAcc.WeightBiu
