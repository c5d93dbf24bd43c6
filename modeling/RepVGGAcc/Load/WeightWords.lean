import RepVGGAcc.Load.BankToggle
import RepVGGAcc.Rtl.MacArray
import Mathlib.Data.Finset.Prod
import Mathlib.Data.Fintype.Prod

/-! Where each word of a burst of weights lands: `weight_biu` encodes its number into an
address, `mac_array_wlu` decodes it, and the lanes number their processing elements against
the order of the kernel taps. -/

namespace RepVGGAcc.MacArray

open Clocked
open ImapLoad (byteOf)
open WeightBiu (Received arrived port)

/-! The load inputs of a processing element of a lane: 0 to 8 are those of the three
lines, in their order, 9 is the one of the 1x1 kernel. -/

def peInput (s : State) (i : Input) (lane : Fin 32) (pe : Fin 10) : BasicPe.Input :=
  let input := MacArrayCore.laneInput s.macArrayCore (coreInput s i) lane
  if inLine : pe.val < 9 then
    let pe := pe.castLT inLine
    SystolicArray.peInput (s.macArrayCore.convArray lane) input (SystolicArray.peLine pe)
      (SystolicArray.peColumn pe)
  else SystolicArray.pe1x1Input (s.macArrayCore.convArray lane) input

/-- The kernel tap of a processing element; 9 stands for the 1x1 kernel. -/
def kernelTap (pe : Fin 10) : Fin 10 :=
  if pe.val < 9 then ⟨8 - pe.val, by omega⟩ else Fin.last 9

theorem peInput_weightLoadEn (s : State) (i : Input) (lane : Fin 32) (pe : Fin 10) :
    (peInput s i lane pe).weightLoadEn =
      MacArrayWlu.weightLoadEn (wluInput i) lane (kernelTap pe) := by
  unfold peInput kernelTap
  by_cases inLine : pe.val < 9
  · rw [dif_pos inLine, if_pos inLine]
    show MacArrayWlu.weightLoadEn (wluInput i) lane ⟨8 - (3 * (pe.val / 3) + pe.val % 3), _⟩ = _
    congr 2
    omega
  · rw [dif_neg inLine, if_neg inLine]
    rfl

theorem peInput_weightLoad (s : State) (i : Input) (lane : Fin 32) (pe : Fin 10) :
    (peInput s i lane pe).weightLoad = MacArrayWlu.weightLoad (wluInput i) lane := by
  unfold peInput
  split <;> rfl

theorem peInput_weightLoadSel (s : State) (i : Input) (lane : Fin 32) (pe : Fin 10) :
    (peInput s i lane pe).weightLoadSel =
      MacArrayWlu.weightLoadSel s.macArrayWlu (wluInput i) := by
  unfold peInput
  split <;> rfl

def enabled (s : State) (i : Input) : Finset (Fin 32 × Fin 10) :=
  Finset.univ.filter fun place => (peInput s i place.1 place.2).weightLoadEn = true

/-- Word number `k` of a burst is loaded into the processing elements of its kernel tap in
its four lanes, and into no others. -/
structure Lands (k : Nat) (word : BitVec 32) (s : State) (i : Input) : Prop where
  places : ∀ lane pe, (lane, pe) ∈ enabled s i ↔
    lane.val / 4 = k % 8 ∧ (kernelTap pe).val = if k < 144 then k / 16 else 9
  four : (enabled s i).card = 4
  group : ∀ lane pe, (peInput s i lane pe).weightLoadSel.val % 2 = k / 8 % 2
  bytes : ∀ (lane : Fin 32) (b : Nat), b < 4 → lane.val = 4 * (k % 8) + b →
    ∀ pe, (peInput s i lane pe).weightLoad = byteOf word b

/-- `weight_biu` and the array it feeds. The output channel is 8 bits wide. -/
structure FedWeights (biu : Nat → WeightBiu.State) (i : Nat → WeightBiu.Input) (mac : Nat → State)
    (m : Nat → Input) : Prop where
  biuTrace : IsTrace WeightBiu.step biu i
  macTrace : IsTrace step mac m
  biuReset : biu 0 = WeightBiu.reset
  macReset : mac 0 = reset
  wired : ∀ t, wluInput (m t) = port (biu t) (i t)
  byteWide : ∀ t, (i t).weightOchCnt < 2 ^ 8

/-- Every word lands where its number in its burst says, nothing is loaded in between, and
after the last word of a burst the next one is numbered 0. -/
structure LandsWords (biu : Nat → WeightBiu.State) (i : Nat → WeightBiu.Input)
    (mac : Nat → State) (m : Nat → Input) : Prop where
  lands : ∀ t, (i t).arb2weightBiuVld = true →
    Lands (arrived i t % 160) (i t).arb2weightBiuData (mac t) (m t)
  quiet : ∀ t, (i t).arb2weightBiuVld = false → enabled (mac t) (m t) = ∅
  wraps : ∀ t, (i t).arb2weightBiuVld = true → arrived i t % 160 = 159 →
    (biu (t + 1)).receiveCnt = 0 ∧ (biu (t + 1)).receiveBitCnt = 0 ∧
      (biu (t + 1)).receiveChCnt = 0

section Cycle

variable {k : Nat} {biu : WeightBiu.State} {i : WeightBiu.Input} {s : State} {m : Input}
  (received : Received k biu) (byteWide : i.weightOchCnt < 2 ^ 8)
  (wired : wluInput m = port biu i)

include received byteWide wired in
theorem mem_enabled (lane : Fin 32) (pe : Fin 10) : (lane, pe) ∈ enabled s m ↔
    i.arb2weightBiuVld = true ∧ lane.val / 4 = k % 8 ∧ (kernelTap pe).val = k / 16 := by
  unfold enabled
  rw [Finset.mem_filter, peInput_weightLoadEn, wired,
    WeightBiu.weightLoadEn_port received byteWide, Bool.and_eq_true, decide_eq_true_iff]
  simp only [Finset.mem_univ, true_and, eq_comm]

theorem card_lanes : ∀ word : Fin 8,
    (Finset.univ.filter fun lane : Fin 32 => lane.val / 4 = word).card = 4 := by
  decide

theorem card_taps : ∀ tap : Fin 10,
    (Finset.univ.filter fun pe : Fin 10 => (kernelTap pe).val = tap).card = 1 := by
  decide

include received byteWide wired in
theorem card_enabled (receive : i.arb2weightBiuVld = true) : (enabled s m).card = 4 := by
  have bound : k < 160 := received.bound
  have split : enabled s m =
      (Finset.univ.filter fun lane : Fin 32 => lane.val / 4 = k % 8) ×ˢ
        Finset.univ.filter fun pe : Fin 10 => (kernelTap pe).val = k / 16 := by
    ext ⟨lane, pe⟩
    rw [mem_enabled received byteWide wired, Finset.mem_product, Finset.mem_filter,
      Finset.mem_filter]
    simp [receive]
  rw [split, Finset.card_product, card_lanes ⟨k % 8, by omega⟩, card_taps ⟨k / 16, by omega⟩]

include received byteWide wired in
theorem lands_of_receive (receive : i.arb2weightBiuVld = true) :
    Lands k i.arb2weightBiuData s m where
  places := by
    intro lane pe
    have bound : k < 160 := received.bound
    have tap : k / 16 = if k < 144 then k / 16 else 9 := by split_ifs <;> omega
    rw [mem_enabled received byteWide wired, ← tap]
    exact and_iff_right receive
  four := card_enabled received byteWide wired receive
  group := by
    intro lane pe
    have sel := WeightBiu.weightLoadSel_port (i := i) received s.macArrayWlu
    rw [peInput_weightLoadSel, wired]
    omega
  bytes := by
    intro lane b inWord position pe
    have mine : k % 8 = lane / 4 := by omega
    have load := WeightBiu.weightLoad_port (i := i) received mine
    rw [peInput_weightLoad, wired, load, show lane.val % 4 = b by omega]

end Cycle

theorem FedWeights.loads {biu : Nat → WeightBiu.State} {i : Nat → WeightBiu.Input}
    {mac : Nat → State} {m : Nat → Input} (fed : FedWeights biu i mac m) :
    WeightBiu.Loads biu i fun t => (mac t).macArrayWlu where
  biuTrace := fed.biuTrace
  wluTrace := by
    intro t
    have moved := congrArg State.macArrayWlu (fed.macTrace t)
    exact moved.trans (congrArg (MacArrayWlu.step (mac t).macArrayWlu) (fed.wired t))
  biuReset := fed.biuReset
  wluReset := by
    rw [fed.macReset]
    rfl
  byteWide := fed.byteWide

theorem landsWords {biu : Nat → WeightBiu.State} {i : Nat → WeightBiu.Input}
    {mac : Nat → State} {m : Nat → Input} (fed : FedWeights biu i mac m) :
    LandsWords biu i mac m where
  lands := fun t receive =>
    lands_of_receive (fed.loads.received t) (fed.byteWide t) (fed.wired t) receive
  quiet := by
    intro t wait
    refine Finset.eq_empty_of_forall_notMem fun ⟨lane, pe⟩ up => ?_
    rw [mem_enabled (fed.loads.received t) (fed.byteWide t) (fed.wired t), wait] at up
    exact Bool.noConfusion up.1
  wraps := by
    intro t receive last
    have next := (fed.loads.received t).step_receive receive
    have first : (arrived i t % WeightBiu.burstWords + 1) % WeightBiu.burstWords = 0 := by
      unfold WeightBiu.burstWords
      omega
    rw [first, ← fed.biuTrace t] at next
    exact ⟨next.receiveCnt, next.receiveBitCnt, next.receiveChCnt⟩

/-! A burst that pauses every third cycle. -/

def pausing (t : Nat) : WeightBiu.Input :=
  WeightBiu.gapped (fun t => t % 3 == 2) t

def pausingMac (t : Nat) : Input where
  convStart := false
  weightWaddr := WeightBiu.weightWaddr (run WeightBiu.step WeightBiu.reset pausing t) (pausing t)
  weightWdata := WeightBiu.weightWdata (pausing t)
  weightWen := WeightBiu.weightWen (pausing t)
  imapRdata := 0
  macArray2psumAccRdy := false

theorem landsWords_pausing :
    LandsWords (run WeightBiu.step WeightBiu.reset pausing) pausing (run step reset pausingMac)
      pausingMac :=
  landsWords ⟨isTrace_run _ _ _, isTrace_run _ _ _, rfl, rfl, fun _ => rfl,
    fun _ => Nat.two_pow_pos 8⟩

end RepVGGAcc.MacArray
