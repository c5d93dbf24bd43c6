import RepVGGAcc.Load.WeightPort
import RepVGGAcc.MacArray.Weights

/-! The two banks of weights over a run of bursts: they hold the last two bursts. -/

namespace RepVGGAcc.MacArray

open ImapLoad (byteOf)
open WeightBiu (Received port)

/-- `weight_sel` for group `g` of the bank of burst `b`. -/
def bankSel (b : Nat) (g : Fin 2) : Fin 4 :=
  ⟨2 * (b % 2) + g, by omega⟩

/-- The number, within its burst, of the word that a lane takes for a kernel tap. -/
def tapWord (g : Fin 2) (lane : Fin 32) (tap : Fin 10) : Nat :=
  16 * tap + 8 * g + lane / 4

theorem tapWord_lt (g : Fin 2) (lane : Fin 32) (tap : Fin 10) : tapWord g lane tap < 160 := by
  unfold tapWord
  omega

/-- Of the `count` words that have arrived, the last 320 are in the buffers. -/
structure Banked (word : Nat → BitVec 32) (count : Nat) (s : State) : Prop where
  base : s.macArrayWlu.weightLoadSelBase = decide (count / 160 % 2 = 1)
  held : ∀ b g lane tap, 160 * b + tapWord g lane tap < count →
    count ≤ 160 * b + tapWord g lane tap + 320 →
    weights s.macArrayCore (bankSel b g) lane tap =
      byteOf (word (160 * b + tapWord g lane tap)) (lane % 4)

namespace Banked

variable {word : Nat → BitVec 32} {count : Nat} {s : State} {biu : WeightBiu.State}
  {i : Input} {bi : WeightBiu.Input}

theorem start (word : Nat → BitVec 32) : Banked word 0 reset where
  base := rfl
  held := fun _ _ _ _ absurdity => absurd absurdity (Nat.not_lt_zero _)

theorem step_wait (banked : Banked word count s) (received : Received (count % 160) biu)
    (byteWide : bi.weightOchCnt < 2 ^ 8) (wired : wluInput i = port biu bi)
    (wait : bi.arb2weightBiuVld = false) (notLast : count % 160 ≠ 159) :
    Banked word count (step s i) := by
  have turn := WeightBiu.wlu_step received byteWide s.macArrayWlu
  rw [if_neg notLast] at turn
  refine ⟨?_, fun b g lane tap arrived recent => ?_⟩
  · show (MacArrayWlu.step s.macArrayWlu (wluInput i)).weightLoadSelBase = _
    rw [wired, turn]
    exact banked.base
  · have unwritten : i.weightWen = false := by
      have same := congrArg MacArrayWlu.Input.weightWen wired
      exact same.trans ((WeightBiu.receive_eq bi).trans wait)
    rw [weights_step_of_not_wen s unwritten]
    exact banked.held b g lane tap arrived recent

theorem step_receive (banked : Banked word count s) (received : Received (count % 160) biu)
    (byteWide : bi.weightOchCnt < 2 ^ 8) (wired : wluInput i = port biu bi)
    (receive : bi.arb2weightBiuVld = true) (arrived : bi.arb2weightBiuData = word count) :
    Banked word (count + 1) (step s i) := by
  have turn := WeightBiu.wlu_step received byteWide s.macArrayWlu
  refine ⟨?_, fun b g lane tap entered recent => ?_⟩
  · show (MacArrayWlu.step s.macArrayWlu (wluInput i)).weightLoadSelBase = _
    rw [wired, turn, banked.base]
    split_ifs with last
    · rw [← decide_not]
      exact decide_eq_decide.mpr (by omega)
    · exact decide_eq_decide.mpr (by omega)
  · have inBurst := tapWord_lt g lane tap
    have number : tapWord g lane tap = 16 * tap.val + 8 * g.val + lane / 4 := rfl
    have bound := received.bound
    have en := WeightBiu.weightLoadEn_port received byteWide lane tap
    have sel := WeightBiu.weightLoadSel_port (i := bi) received s.macArrayWlu
    rw [receive, Bool.true_and] at en
    rw [weights_step, wired, en]
    have bank : MacArrayWlu.weightLoadSel s.macArrayWlu (port biu bi) = bankSel b g ↔
        count / 160 % 2 = b % 2 ∧ count % 160 / 8 % 2 = g := by
      rw [Fin.ext_iff, sel, banked.base]
      show _ = 2 * (b % 2) + g.val ↔ _
      rcases Nat.mod_two_eq_zero_or_one (count / 160) with even | odd
      · simp only [even, Nat.zero_ne_one, decide_false, Bool.toNat_false]
        omega
      · simp only [odd, decide_true, Bool.toNat_true]
        omega
    simp only [bank, decide_eq_true_eq]
    split_ifs with mine
    · have same : 160 * b + tapWord g lane tap = count := by omega
      rw [WeightBiu.weightLoad_port received mine.2.1, arrived, same]
    · exact banked.held b g lane tap (by omega) (by omega)

end Banked

end RepVGGAcc.MacArray
