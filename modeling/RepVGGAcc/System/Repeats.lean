import RepVGGAcc.Control.Repeats
import RepVGGAcc.System.PingPong

/-! The weight banks over several runs. A run fetches 65 bursts, one more than there are
channels, so that the next one loads the other bank first: in every second run the array
computes each channel with the weights of its neighbours. -/

namespace RepVGGAcc.RepvggAccTop.Repeats

open IcbMaster (Grant)
open MacArray (Banked bankSel tapWord)

/-- The `m`-th word of weights that the bus delivers from reset on, 10400 in each run. -/
def weightWord (L : Nat) (start : Nat → Nat) (i : Nat → Input) (m : Nat) : BitVec 32 :=
  FirstRun.weightWord L (start (m / 10400)) i (m % 10400)

/-- The burst whose word the lanes of a group multiply with in run `k`, when `fetched` words
of that run have arrived. -/
def burstInUse (k och word fetched : Nat) : Nat :=
  if k % 2 = 0 then 65 * k + och
  else if 160 * (och + 1) + word < fetched then 65 * k + och + 1
  else 65 * k + och - 1

def weightWords (s : Nat → State) (i : Nat → Input) (t : Nat) : Nat :=
  Nat.count (fun u => (weightBiuInput (s u) (i u)).arb2weightBiuVld = true) t

variable {L n stop k t : Nat} {start : Nat → Nat} {s : Nat → State} {i : Nat → Input}
  (repeats : Repeats L start n stop s i) (some_ : 1 ≤ L) (latency : L ≤ 1000)
  (inRun : InRun start n stop k t)

include repeats some_ latency

section InRun

include inRun

theorem weightVld_eq :
    (weightBiuInput (s t) (i t)).arb2weightBiuVld = Control.fetches L (t - start k) := by
  obtain ⟨⟨c, shown, same⟩, answer⟩ := repeats.follows_run some_ latency inRun
  have granted := shown.rspVld_eq (by decide : Grant.weight ≠ .none) (i t).accIcbRspValid
  have grant := Control.grant_of_forget same
  refine granted.trans ?_
  unfold Control.fetches Control.receives
  rw [grant, answer]

theorem weightData_eq (arrives : Control.fetches L (t - start k) = true) :
    (weightBiuInput (s t) (i t)).arb2weightBiuData =
      weightWord L start i (10400 * k + Control.fetched L (t - start k)) := by
  have valid : IcbMaster.rspVld (s t).bus.icbMaster .weight (i t).accIcbRspValid = true :=
    (repeats.weightVld_eq some_ latency inRun).trans arrives
  have counted := Control.fetched_succ latency (t - start k)
  have bound := Control.fetched_le latency (t - start k + 1)
  have cycle := Control.fetches_time latency arrives
  have begun := inRun.begun
  rw [arrives, Bool.toNat_true] at counted
  show IcbMaster.rspData (s t).bus.icbMaster .weight (i t).accIcbRspValid
    (i t).accIcbRspRdata = _
  rw [IcbMaster.rspData, if_pos valid, weightWord, FirstRun.weightWord,
    show (10400 * k + Control.fetched L (t - start k)) / 10400 = k by omega,
    show (10400 * k + Control.fetched L (t - start k)) % 10400 =
      Control.fetched L (t - start k) by omega, ← cycle,
    show start k + (t - start k) = t by omega]

theorem banked_step
    (banked : Banked (weightWord L start i) (10400 * k + Control.fetched L (t - start k))
      (s t).macArray) :
    Banked (weightWord L start i) (10400 * k + Control.fetched L (t + 1 - start k))
      (s (t + 1)).macArray := by
  obtain ⟨⟨c, shown, same⟩, -⟩ := repeats.follows_run some_ latency inRun
  have weight := Control.weight_of_forget same
  have received := shown.weight.received
  rw [weight, WeightBiu.burstWords, Control.received_timeline latency,
    show Control.fetched L (t - start k) % 160 =
      (10400 * k + Control.fetched L (t - start k)) % 160 by omega] at received
  have byteWide : (weightBiuInput (s t) (i t)).weightOchCnt < 2 ^ 8 := weightOchCnt_lt _
  have wired : MacArray.wluInput (macInput (s t) (i t)) =
      WeightBiu.port (s t).bus.weightBiu (weightBiuInput (s t) (i t)) := rfl
  have valid := repeats.weightVld_eq some_ latency inRun
  have begun := inRun.begun
  rw [repeats.trace t]
  show Banked _ _ (MacArray.step (s t).macArray (macInput (s t) (i t)))
  rw [show t + 1 - start k = t - start k + 1 by omega, Control.fetched_succ latency]
  cases arrives : Control.fetches L (t - start k) with
  | false =>
      refine banked.step_wait received byteWide wired (valid.trans arrives) fun last => ?_
      have late := Control.fetches_last latency (L := L) (u := t - start k) (by omega)
      rw [arrives] at late
      cases late
  | true =>
      exact banked.step_receive received byteWide wired (valid.trans arrives)
        (repeats.weightData_eq some_ latency inRun arrives)

theorem banked_within
    (begins : Banked (weightWord L start i) (10400 * k) (s (start k)).macArray) :
    Banked (weightWord L start i) (10400 * k + Control.fetched L (t - start k))
      (s t).macArray := by
  obtain ⟨counted, begun, before, next⟩ := inRun
  induction t, begun using Nat.le_induction with
  | base =>
      rw [Nat.sub_self, Control.fetched_zero]
      exact begins
  | succ t begun held =>
      have bound (more : k < n) : t ≤ start (k + 1) := by
        have := next more
        omega
      exact repeats.banked_step some_ latency ⟨counted, begun, by omega, bound⟩
        (held (by omega) bound)

theorem weightWords_within (begins : weightWords s i (start k) = 10400 * k) :
    weightWords s i t = 10400 * k + Control.fetched L (t - start k) := by
  obtain ⟨counted, begun, before, next⟩ := inRun
  induction t, begun using Nat.le_induction with
  | base => rw [begins, Nat.sub_self, Control.fetched_zero, Nat.add_zero]
  | succ t begun held =>
      have bound (more : k < n) : t ≤ start (k + 1) := by
        have := next more
        omega
      have valid := repeats.weightVld_eq some_ latency ⟨counted, begun, by omega, bound⟩
      have held := held (by omega) bound
      unfold weightWords at held ⊢
      rw [Nat.count_succ, held, valid, show t + 1 - start k = t - start k + 1 by omega,
        Control.fetched_succ latency, Nat.add_assoc]
      cases Control.fetches L (t - start k) <;> rfl

end InRun

theorem weightWords_start (counted : k ≤ n) : weightWords s i (start k) = 10400 * k := by
  induction k with
  | zero =>
      refine Nat.count_iff_forall_not.mpr fun t early => ?_
      have stops := repeats.start_le (j := 0) (k := n) counted le_rfl
      have within := repeats.within
      rw [repeats.firstRun.weightVld_eq some_ latency (by omega),
        show t - start 0 = 0 by omega, Control.fetches_zero]
      exact Bool.false_ne_true
  | succ k held =>
      have apart := repeats.apart k (by omega)
      have stops := repeats.start_le (j := k + 1) (k := n) counted le_rfl
      have within := repeats.within
      have ends := repeats.weightWords_within some_ latency (k := k) (t := start (k + 1))
        ⟨by omega, by omega, by omega, fun _ => le_rfl⟩ (held (by omega))
      rw [Control.fetched_late latency (by omega)] at ends
      omega

theorem banked_start (counted : k ≤ n) :
    Banked (weightWord L start i) (10400 * k) (s (start k)).macArray := by
  induction k with
  | zero =>
      have banked := repeats.firstRun.banked some_ latency le_rfl
      rw [Nat.sub_self, Control.fetched_zero] at banked
      exact ⟨banked.base, fun _ _ _ _ arrived => absurd arrived (Nat.not_lt_zero _)⟩
  | succ k held =>
      have apart := repeats.apart k (by omega)
      have stops := repeats.start_le (j := k + 1) (k := n) counted le_rfl
      have within := repeats.within
      have ends := repeats.banked_within some_ latency (k := k) (t := start (k + 1))
        ⟨by omega, by omega, by omega, fun _ => le_rfl⟩ (held (by omega))
      rw [Control.fetched_late latency (by omega)] at ends
      exact ends

include inRun in
/-- Each run fetches 65 bursts of 160 words. In an even run a channel is computed with the
weights of its own burst, in an odd one with those of the next channel where they have arrived
and with those of the channel before elsewhere. -/
theorem weights_inUse (computing : MacArrayFsm.arrayEn (s t).macArray.macArrayFsm = true) :
    (∀ j ≤ n, weightWords s i (start j) = 160 * (65 * j)) ∧
    weightWords s i t = 160 * (65 * k) + Control.fetched L (t - start k) ∧
    (s t).macArray.macArrayFsm.outChCnt < 64 ∧ ∀ g lane tap,
      MacArray.weights (s t).macArray.macArrayCore
          (bankSel (s t).macArray.macArrayFsm.outChCnt g) lane tap =
        ImapLoad.byteOf (weightWord L start i
          (160 * burstInUse k (s t).macArray.macArrayFsm.outChCnt (tapWord g lane tap)
            (Control.fetched L (t - start k)) + tapWord g lane tap)) (lane % 4) := by
  obtain ⟨⟨c, shown, same⟩, -⟩ := repeats.follows_run some_ latency inRun
  have banked := repeats.banked_within some_ latency inRun
    (repeats.banked_start some_ latency inRun.counted)
  have channel : (s t).macArray.macArrayFsm.outChCnt =
      (Control.timeline L (t - start k)).fsm.outChCnt := by
    rw [shown.fsm]
    exact Control.outChCnt_of_forget same
  have computes : MacArrayFsm.arrayEn (Control.timeline L (t - start k)).fsm = true := by
    rw [shown.fsm] at computing
    exact (Control.arrayEn_of_forget same).symm.trans computing
  obtain ⟨inLayer, arrived, free⟩ := Control.fetched_computing latency computes
  rw [← channel] at inLayer arrived free
  have bursts (j : Nat) (counted : j ≤ n) := repeats.weightWords_start some_ latency counted
  have words := repeats.weightWords_within some_ latency inRun (bursts k inRun.counted)
  refine ⟨fun j counted => (bursts j counted).trans (by omega), words.trans (by omega), inLayer,
    fun g lane tap => ?_⟩
  have inBurst := MacArray.tapWord_lt g lane tap
  have bank (b : Nat) (parity : b % 2 = (s t).macArray.macArrayFsm.outChCnt % 2) :
      bankSel b g = bankSel (s t).macArray.macArrayFsm.outChCnt g := by
    unfold bankSel
    rw [Fin.mk.injEq, parity]
  have holds (b : Nat) (parity : b % 2 = (s t).macArray.macArrayFsm.outChCnt % 2)
      (past : 160 * b + tapWord g lane tap < 10400 * k + Control.fetched L (t - start k))
      (recent : 10400 * k + Control.fetched L (t - start k) ≤
        160 * b + tapWord g lane tap + 320) :
      MacArray.weights (s t).macArray.macArrayCore
          (bankSel (s t).macArray.macArrayFsm.outChCnt g) lane tap =
        ImapLoad.byteOf (weightWord L start i (160 * b + tapWord g lane tap)) (lane % 4) := by
    rw [← bank b parity]
    exact banked.held b g lane tap past recent
  unfold burstInUse
  split_ifs with even next
  · exact holds _ (by omega) (by omega) (by omega)
  · exact holds _ (by omega) (by omega) (by omega)
  · exact holds _ (by omega) (by omega) (by omega)

end RepVGGAcc.RepvggAccTop.Repeats

namespace RepVGGAcc.System

open Clocked

/-- Enough cycles for a run on a memory that answers in the next cycle. -/
def period : Nat := 452000

/-- `acc_start` at the beginning of every period. -/
def restarter (t : Nat) (accDone : Bool) : IcbSlave.Input where
  icbCmdValid := decide (t % period < 2)
  icbCmdRead := false
  icbCmdAddr := IcbSlave.startAddr.setWidth 32
  icbCmdWdata := 1
  icbRspReady := true
  accDone := accDone

namespace Restarting

/-- The accelerator, whether its last command has been accepted, and the word of that. The
words of the memory are their addresses. -/
structure State where
  top : RepvggAccTop.State
  rspValid : Bool
  rspRdata : BitVec 32

def input (t : Nat) (s : State) : RepvggAccTop.Input where
  icbCmdValid := (restarter t false).icbCmdValid
  icbCmdRead := (restarter t false).icbCmdRead
  icbCmdAddr := (restarter t false).icbCmdAddr
  icbCmdWdata := (restarter t false).icbCmdWdata
  icbRspReady := (restarter t false).icbRspReady
  accIcbCmdReady := true
  accIcbRspValid := s.rspValid
  accIcbRspRdata := s.rspRdata

def step (s : State) (i : RepvggAccTop.Input) : State where
  top := RepvggAccTop.step s.top i
  rspValid := RepvggAccTop.accepts s.top i
  rspRdata := (RepvggAccTop.command s.top i).addr

def run : Nat → State :=
  closedRun step input { top := resetTop, rspValid := false, rspRdata := 0 }

def top (t : Nat) : RepvggAccTop.State :=
  (run t).top

def topInput (t : Nat) : RepvggAccTop.Input :=
  input t (run t)

theorem slave_succ (t : Nat) : (top (t + 1)).icbSlave =
    IcbSlave.step (top t).icbSlave (restarter t (top t).mainFsm.accDone) := rfl

/-- The register port accepts the write in the second cycle of a period, and the start
register holds it for one cycle. -/
theorem slave_top (t : Nat) :
    (top t).icbSlave.icbCmdReady = decide (t % period = 1) ∧
      (top t).icbSlave.start = if t % period = 2 then 1 else 0 := by
  induction t with
  | zero => exact ⟨rfl, rfl⟩
  | succ t held =>
      obtain ⟨ready, start⟩ := held
      have valid (done : Bool) : (restarter t done).icbCmdValid = decide (t % period < 2) := rfl
      have addressed (done : Bool) : IcbSlave.regAddr (restarter t done) = IcbSlave.startAddr :=
        rfl
      have data (done : Bool) : (restarter t done).icbCmdWdata = 1 := rfl
      have write (done : Bool) : (restarter t done).icbCmdRead = false := rfl
      rw [slave_succ]
      simp only [IcbSlave.step, IcbSlave.writes, IcbSlave.hdshk, ready, start, valid, addressed,
        data, write, beq_self_eq_true, Bool.not_false, Bool.and_true]
      obtain first | second | third | later : t % period = 0 ∨ t % period = 1 ∨
        t % period = 2 ∨ 2 < t % period := by omega
      · have next : (t + 1) % period = 1 := by unfold period at *; omega
        rw [first, next]
        decide
      · have next : (t + 1) % period = 2 := by unfold period at *; omega
        rw [second, next]
        decide
      · have next : (t + 1) % period = 3 := by unfold period at *; omega
        rw [third, next]
        decide
      · have next : (t + 1) % period ≠ 1 ∧ (t + 1) % period ≠ 2 := by
          unfold period at *
          omega
        simp [next, show ¬ t % period < 2 by omega, show t % period ≠ 1 by omega,
          show t % period ≠ 2 by omega]

theorem repeats (n stop : Nat) (within : period * n + 2 ≤ stop)
    (through : stop ≤ period * (n + 1)) :
    RepvggAccTop.Repeats 1 (fun k => period * k + 2) n stop top topInput where
  trace := fun _ => rfl
  initial := isReset_resetTop
  ready := fun _ => rfl
  silent := fun t early => by
    obtain rfl : t = 0 := by omega
    rfl
  answered := fun _ => rfl
  starts := fun k _ => by
    rw [(slave_top _).2, if_pos (by unfold period; omega)]
    rfl
  apart := fun k _ => by
    unfold period Control.runCycles
    omega
  within := within
  once := fun t before other _ => by
    rw [(slave_top _).2, if_neg fun starts => other (t / period) ?_ ?_]
    · rfl
    · unfold period at *
      omega
    · unfold period at *
      omega

end Restarting

/-- In the second run channel 0 is computed with the weights of channel 1, where the two
bursts that the run begins with have arrived. -/
theorem weights_inUse_second : let t := period + 2 + (50343 + 2 * 1 + 60)
    (∀ j ≤ 1, RepvggAccTop.Repeats.weightWords Restarting.top Restarting.topInput
      (period * j + 2) = 160 * (65 * j)) ∧
    RepvggAccTop.Repeats.weightWords Restarting.top Restarting.topInput t =
      160 * (65 * 1) + Control.fetched 1 (50343 + 2 * 1 + 60) ∧
    (Restarting.top t).macArray.macArrayFsm.outChCnt < 64 ∧ ∀ g lane tap,
      MacArray.weights (Restarting.top t).macArray.macArrayCore
          (MacArray.bankSel (Restarting.top t).macArray.macArrayFsm.outChCnt g) lane tap =
        ImapLoad.byteOf (RepvggAccTop.Repeats.weightWord 1 (fun k => period * k + 2)
          Restarting.topInput
          (160 * RepvggAccTop.Repeats.burstInUse 1
              (Restarting.top t).macArray.macArrayFsm.outChCnt (MacArray.tapWord g lane tap)
              (Control.fetched 1 (50343 + 2 * 1 + 60)) + MacArray.tapWord g lane tap))
          (lane % 4) := by
  have repeats := Restarting.repeats 1 (period + 60000) (by decide) (by decide)
  have inRun : RepvggAccTop.Repeats.InRun (fun k => period * k + 2) 1 (period + 60000) 1
      (period + 2 + (50343 + 2 * 1 + 60)) := ⟨le_rfl, by decide, by decide, by omega⟩
  refine RepvggAccTop.Repeats.weights_inUse (k := 1) repeats le_rfl (by decide) inRun ?_
  obtain ⟨⟨c, shown, same⟩, -⟩ := repeats.follows_run le_rfl (by decide) inRun
  rw [shown.fsm, Control.arrayEn_of_forget same,
    show period + 2 + (50343 + 2 * 1 + 60) - (period * 1 + 2) = 50343 + 2 * 1 + 60 by decide,
    Control.timeline_fill (by omega) (by omega)]
  exact (MacArrayFsm.arrayEn_scan 0 59).trans (decide_eq_true (by omega))

end RepVGGAcc.System
