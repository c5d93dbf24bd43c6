import RepVGGAcc.Clocked.Trace
import RepVGGAcc.Load.ImapLoad
import RepVGGAcc.Rtl.MacArrayWlu
import RepVGGAcc.Rtl.WeightBiu

/-! The load of the weights: `weight_biu` numbers the words of a burst,
`mac_array_wlu` distributes them to the lanes. -/

namespace RepVGGAcc.WeightBiu

open Clocked
open ImapLoad (byteOf)

def burstWords : Nat := 160

/-- `count` words of the current burst have arrived. -/
structure Received (count : Nat) (s : State) : Prop where
  bound : count < burstWords
  receiveCnt : s.receiveCnt = count
  receiveBitCnt : s.receiveBitCnt = if count < 144 then count / 16 else 0
  receiveChCnt : s.receiveChCnt = count % 16

theorem received_reset : Received 0 reset :=
  ⟨by decide, rfl, rfl, rfl⟩

namespace Received

variable {count : Nat} {s : State} {i : Input}

theorem step_wait (received : Received count s) (wait : i.arb2weightBiuVld = false) :
    Received count (step s i) := by
  refine ⟨received.bound, ?_, ?_, ?_⟩
  · simp [step, wait, received.receiveCnt]
  · simp [step, wait, received.receiveBitCnt]
  · simp [step, wait, received.receiveChCnt]

theorem step_receive (received : Received count s) (receive : i.arb2weightBiuVld = true) :
    Received ((count + 1) % burstWords) (step s i) := by
  have bound := received.bound
  unfold burstWords at *
  refine ⟨Nat.mod_lt _ (by decide), ?_, ?_, ?_⟩
  · simp only [step, receive_eq, receive, received.receiveCnt, and_true, if_true]
    split_ifs <;> omega
  · simp only [step, receive_eq, receive, received.receiveCnt, received.receiveBitCnt,
      received.receiveChCnt, and_true]
    split_ifs <;> omega
  · simp only [step, receive_eq, receive, received.receiveChCnt, if_true]
    omega

end Received

theorem received_run {s : Nat → State} {i : Nat → Input} (trace : IsTrace step s i)
    (initial : s 0 = reset) (t : Nat) :
    Received (Nat.count (fun u => (i u).arb2weightBiuVld = true) t % burstWords) (s t) := by
  induction t with
  | zero =>
      rw [initial]
      exact received_reset
  | succ t held =>
      rw [trace t, Nat.count_succ]
      cases receive : (i t).arb2weightBiuVld with
      | false => exact held.step_wait receive
      | true =>
          have next := held.step_receive receive
          rw [Nat.mod_add_mod] at next
          exact next

/-- What `mac_array_wlu` sees of a cycle of `weight_biu`. -/
def port (s : State) (i : Input) : MacArrayWlu.Input where
  weightWaddr := weightWaddr s i
  weightWdata := weightWdata i
  weightWen := weightWen i

section Port

variable {count : Nat} {s : State} {i : Input} (received : Received count s)
  (byteWide : i.weightOchCnt < 2 ^ 8)

include received in
theorem waddr_word : weightWaddr s i % 2 ^ 4 = count % 16 := by
  unfold weightWaddr
  rw [received.receiveChCnt]
  omega

include received in
theorem waddr_tap : weightWaddr s i / 2 ^ 6 % 2 ^ 4 = if count < 144 then count / 16 else 0 := by
  unfold weightWaddr
  rw [received.receiveChCnt, received.receiveBitCnt]
  split_ifs <;> omega

include received byteWide in
theorem is1x1_port : MacArrayWlu.is1x1 (port s i) = decide (144 ≤ count) := by
  show (weightWaddr s i).testBit 31 = _
  rw [Nat.testBit_eq_decide_div_mod_eq]
  have bound := received.bound
  unfold burstWords at bound
  have kind : weightWaddr s i / 2 ^ 31 = if count < 144 then 0 else 1 := by
    have low : i.weightOchCnt * 2 ^ 23 + count / 16 * 2 ^ 6 + count % 16 < 2 ^ 31 := by omega
    unfold weightWaddr
    rw [received.receiveChCnt, received.receiveBitCnt, received.receiveCnt]
    split_ifs <;> omega
  rw [kind]
  by_cases kernel : count < 144
  · rw [if_pos kernel, decide_eq_false (by omega : ¬ 144 ≤ count)]
    rfl
  · rw [if_neg kernel, decide_eq_true (by omega : 144 ≤ count)]
    rfl

theorem oneHot : ∀ (tap : Fin 16) (pe : Fin 9),
    (1#9 <<< tap.val).getLsbD pe = decide (tap.val = pe) := by
  decide

include received byteWide in
/-- Word `count` of a burst goes to the four lanes it is for, in the processing
element of its kernel tap; number 9 is the 1x1 kernel. -/
theorem weightLoadEn_port (lane : Fin 32) (tap : Fin 10) :
    MacArrayWlu.weightLoadEn (port s i) lane tap =
      (i.arb2weightBiuVld && decide (count % 8 = lane / 4 ∧ count / 16 = tap)) := by
  have bound := received.bound
  unfold burstWords at bound
  have word := waddr_word (i := i) received
  have lanes : (port s i).weightWaddr % 2 ^ 3 = count % 8 := by
    show weightWaddr s i % 2 ^ 3 = count % 8
    omega
  have wen : (port s i).weightWen = i.arb2weightBiuVld := receive_eq i
  unfold MacArrayWlu.weightLoadEn MacArrayWlu.weightLoadEnBase
  rw [lanes, wen, is1x1_port received byteWide]
  have tapBits : (port s i).weightWaddr / 2 ^ 6 % 2 ^ 4 = if count < 144 then count / 16 else 0 :=
    waddr_tap received
  rw [tapBits]
  by_cases mine : count % 8 = lane / 4
  · simp only [mine, if_true, true_and]
    by_cases point : tap.val = 9
    · rw [if_pos point, Bool.and_comm]
      congr 1
      exact decide_eq_decide.mpr (by omega)
    · rw [if_neg point, Bool.and_comm]
      congr 1
      by_cases kernel : count < 144
      · have fits : count / 16 < 16 := by omega
        rw [decide_eq_false (by omega), if_pos kernel, if_neg Bool.false_ne_true]
        exact oneHot ⟨count / 16, fits⟩ ⟨tap, by omega⟩
      · rw [decide_eq_true (by omega), if_pos rfl, decide_eq_false (by omega)]
        exact BitVec.getLsbD_zero
  · simp [mine]

include received in
theorem weightLoadSel_port (wlu : MacArrayWlu.State) :
    (MacArrayWlu.weightLoadSel wlu (port s i)).val =
      2 * wlu.weightLoadSelBase.toNat + count / 8 % 2 := by
  have word := waddr_word (i := i) received
  show 2 * wlu.weightLoadSelBase.toNat + weightWaddr s i / 2 ^ 3 % 2 = _
  omega

include received in
theorem weightLoad_port {lane : Fin 32} (mine : count % 8 = lane / 4) :
    MacArrayWlu.weightLoad (port s i) lane = byteOf i.arb2weightBiuData (lane % 4) := by
  have word := waddr_word (i := i) received
  have lanes : (port s i).weightWaddr % 2 ^ 3 = lane / 4 := by
    show weightWaddr s i % 2 ^ 3 = lane / 4
    omega
  unfold MacArrayWlu.weightLoad MacArrayWlu.weightLoadWord
  rw [if_pos lanes]
  rfl

include received byteWide in
theorem wlu_step (wlu : MacArrayWlu.State) :
    (MacArrayWlu.step wlu (port s i)).weightLoadSelBase =
      if count = 159 then !wlu.weightLoadSelBase else wlu.weightLoadSelBase := by
  have bound := received.bound
  unfold burstWords at bound
  have word : (port s i).weightWaddr % 2 ^ 4 = count % 16 := waddr_word received
  unfold MacArrayWlu.step
  rw [word, is1x1_port received byteWide]
  simp only [decide_eq_true_eq]
  congr 1
  rw [eq_iff_iff]
  omega

end Port

end RepVGGAcc.WeightBiu
