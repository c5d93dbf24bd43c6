import RepVGGAcc.Bus.Commands
import RepVGGAcc.Clocked.Arbiter
import RepVGGAcc.Control.Bursts

/-! The way of the responses. The port has no transaction numbers: a response goes to the
unit that holds the grant when it comes. -/

namespace RepVGGAcc

open Clocked

/-- The bursts of a unit in the numbers of a whole run: how many were started and reported
done, how many commands were issued and how many words received. -/
structure Burst.Counted (words : Nat) (b : Burst) (starts dones issued received : Nat) :
    Prop where
  issued : issued + words = words * starts + b.issued
  received : received + words = words * starts + b.received
  started : starts = dones + if b.received < words ∨ b.done = true then 1 else 0

namespace Burst.Counted

variable {words : Nat} {b : Burst} {starts dones issued received : Nat} {start rdy rsp : Bool}

theorem fits (counted : Counted words b starts dones issued received)
    (issuedBound : b.issued ≤ words) (doneLate : b.done = true → b.received = words)
    (answered : received ≤ issued)
    (starting : start = true → starts ≤ dones + if b.done = true then 1 else 0)
    (receives : rsp = true → received < issued) : b.Fits words start rsp where
  start := fun starts => by
    have all := starting starts
    have issuedCount := counted.issued
    have receivedCount := counted.received
    have started := counted.started
    have finished : ¬ b.received < words := fun more => by
      rw [if_pos (Or.inl more)] at started
      split_ifs at all with done
      · have late := doneLate done
        omega
      · omega
    refine ⟨by omega, by omega, ?_⟩
    cases receive : rsp with
    | false => rfl
    | true =>
        have more := receives receive
        omega
  rsp := fun receive => by
    have more := receives receive
    have issuedCount := counted.issued
    have receivedCount := counted.received
    omega

theorem next (counted : Counted words b starts dones issued received) (some_ : 0 < words)
    (fits : b.Fits words start rsp) (doneLate : b.done = true → b.received = words) :
    Counted words (b.next words start rdy rsp)
      (starts + if start = true then 1 else 0)
      (dones + if b.done = true then 1 else 0)
      (issued + if rdy = true ∧ b.issued < words then 1 else 0)
      (received + if rsp = true then 1 else 0) := by
  have issuedCount := counted.issued
  have receivedCount := counted.received
  have started := counted.started
  cases starting : start with
  | true =>
      obtain ⟨allIssued, allReceived, silent⟩ := fits.start starting
      rw [if_pos rfl, silent, if_neg Bool.false_ne_true,
        if_neg fun more : rdy = true ∧ b.issued < words => by omega]
      refine ⟨?_, ?_, ?_⟩
      · show issued + 0 + words = words * (starts + 1) + 0
        rw [Nat.mul_succ]
        omega
      · show received + 0 + words = words * (starts + 1) + 0
        rw [Nat.mul_succ]
        omega
      · simp only [allReceived, lt_irrefl, false_or] at started
        show starts + 1 = _ + if 0 < words ∨ false = true then 1 else 0
        rw [if_pos (Or.inl some_), ← started]
  | false =>
      have more := fits.rsp
      simp only [Burst.next, Bool.false_eq_true, if_false, Nat.add_zero]
      refine ⟨?_, ?_, ?_⟩
      · show _ = words * starts + if rdy = true ∧ b.issued < words then b.issued + 1 else b.issued
        split_ifs <;> omega
      · show _ = words * starts + if rsp = true then b.received + 1 else b.received
        split_ifs <;> omega
      · cases receive : rsp with
        | false =>
            rw [started]
            by_cases done : b.done = true
            · have all := doneLate done
              simp [done, all]
            · simp [done]
        | true =>
            have more := more receive
            have running : ¬ b.done = true := fun done => by
              rw [doneLate done] at more
              exact lt_irrefl _ more
            rw [if_pos (Or.inl more)] at started
            simp only [if_true, Bool.true_and, decide_eq_true_eq]
            rw [if_neg running, if_pos (by omega), started]

end Burst.Counted

namespace OmapBiu

/-- `omap_biu` after `bursts` rises of `in_ch_cnt`, whose last value was `level`, with so
many words taken, handed over and answered. -/
structure Writes (level : Bool) (bursts taken issued received : Nat) (s : State) : Prop where
  pipe : taken = issued + if s.pipe.vldR = true then 1 else 0
  receiveCnt : s.receiveCnt = received % 3136
  req : s.omapBiu2arbReq = decide (received < 3136 * bursts)
  taken_le : taken ≤ 3136 * bursts
  recent : 3136 * bursts ≤ received + 3136
  high : level = true → received < 3136 * bursts

namespace Writes

variable {level : Bool} {bursts taken issued received : Nat} {s : State} {i : Input}

theorem of_isReset (initial : IsReset s) : Writes false 0 0 0 0 s where
  pipe := by rw [initial.vldR]; rfl
  receiveCnt := initial.receiveCnt
  req := initial.omapBiu2arbReq
  taken_le := le_rfl
  recent := Nat.zero_le _
  high := fun absurdity => Bool.noConfusion absurdity

theorem pipe_step (writes : Writes level bursts taken issued received s) :
    taken + (if hdshkIn s i = true then 1 else 0) =
      issued + (if hdshk s i = true then 1 else 0) +
        if (step s i).pipe.vldR = true then 1 else 0 := by
  have pipe := writes.pipe
  have held : (step s i).pipe.vldR =
      (SirvGnrlPipeStage.step s.pipe (hdshkIn s i) i.mapMerger2omapBiuData
        i.omapBiu2arbRdy).vldR := rfl
  rw [held]
  unfold hdshkIn hdshk mapMerger2omapBiuRdy omapBiu2arbVld at *
  cases vld : s.pipe.vldR <;> cases i.omapBiu2arbRdy <;> cases i.mapMerger2omapBiuVld <;>
    simp [SirvGnrlPipeStage.step, SirvGnrlPipeStage.vldSet, SirvGnrlPipeStage.vldClr,
      SirvGnrlPipeStage.iRdy, vld] at pipe ⊢ <;> omega

theorem step (writes : Writes level bursts taken issued received s)
    (answered : received ≤ issued)
    (receives : i.arb2omapBiuVld = true → received < issued)
    (rises : (i.inChCnt && !level) = true → received = 3136 * bursts)
    (falls : i.arb2omapBiuVld = true → (received + 1) % 3136 = 0 → i.inChCnt = false)
    (words : hdshkIn s i = true →
      taken < 3136 * (bursts + if (i.inChCnt && !level) = true then 1 else 0)) :
    Writes i.inChCnt (bursts + if (i.inChCnt && !level) = true then 1 else 0)
      (taken + if hdshkIn s i = true then 1 else 0)
      (issued + if hdshk s i = true then 1 else 0)
      (received + if i.arb2omapBiuVld = true then 1 else 0) (OmapBiu.step s i) := by
  have pipe := writes.pipe
  have takenBound := writes.taken_le
  have recent := writes.recent
  have high := writes.high
  have received_lt : i.arb2omapBiuVld = true → received < 3136 * bursts := fun receive => by
    have more := receives receive
    split_ifs at pipe <;> omega
  have shown : i.inChCnt = true → received + (if i.arb2omapBiuVld = true then 1 else 0) <
      3136 * (bursts + if (i.inChCnt && !level) = true then 1 else 0) := fun now => by
    by_cases rise : (i.inChCnt && !level) = true
    · have all := rises rise
      rw [if_pos rise, if_neg fun receive => by have more := received_lt receive; omega]
      omega
    · have before : level = true := by
        rw [now, Bool.true_and, Bool.not_eq_true', Bool.not_eq_false] at rise
        exact rise
      have more := high before
      rw [if_neg rise]
      split_ifs with receive
      · have unfinished : (received + 1) % 3136 ≠ 0 := fun last => by
          rw [falls receive last] at now
          cases now
        omega
      · exact more
  refine ⟨writes.pipe_step, ?_, ?_, ?_, ?_, shown⟩
  · show (if s.receiveCnt = 3135 ∧ receive i = true then 0
      else if receive i = true then (s.receiveCnt + 1) % 2 ^ 12 else s.receiveCnt) = _
    rw [receive_eq, writes.receiveCnt]
    by_cases receive : i.arb2omapBiuVld = true
    · simp only [receive, and_true, if_true]
      split_ifs <;> omega
    · simp [receive]
  · show (if s.receiveCnt = 3135 ∧ receive i = true then false
      else if i.inChCnt = true then true else s.omapBiu2arbReq) = _
    rw [receive_eq, writes.receiveCnt, writes.req]
    by_cases last : received % 3136 = 3135 ∧ i.arb2omapBiuVld = true
    · -- the last response of the burst
      have fallen := falls last.2 (by omega)
      have more := received_lt last.2
      rw [if_pos last, if_pos last.2, fallen]
      exact (decide_eq_false (by simp; omega)).symm
    · rw [if_neg last]
      by_cases now : i.inChCnt = true
      · rw [if_pos now]
        exact (decide_eq_true (shown now)).symm
      · rw [if_neg now, Bool.eq_false_iff.mpr now]
        refine decide_eq_decide.mpr ?_
        simp only [Bool.false_and, Bool.false_eq_true, if_false, Nat.add_zero]
        split_ifs with receive
        · have more := received_lt receive
          have unfinished : received % 3136 ≠ 3135 := fun full => last ⟨full, receive⟩
          omega
        · rfl
  · by_cases take : hdshkIn s i = true
    · have more := words take
      rw [if_pos take]
      exact more
    · rw [if_neg take]
      omega
  · by_cases rise : (i.inChCnt && !level) = true
    · have all := rises rise
      rw [if_pos rise]
      omega
    · rw [if_neg rise]
      omega

end Writes

end OmapBiu

namespace BusUnits

open IcbMaster (Grant)

def units : List Grant :=
  [.omap, .weight, .imap]

/-- The unit whose command the bus accepts. -/
def issuer (s : State) (i : Input) : Option Grant :=
  (accepted s i).bind fun _ => units.find? fun unit => (handedBy s i unit).isSome

/-- The unit that gets a response: `arb2xxx_biu_vld`. -/
def receiver (s : State) (i : Input) : Option Grant :=
  units.find? fun unit => IcbMaster.rspVld s.icbMaster unit i.accIcbRspValid

def responds (s : State) (i : Input) : Bool :=
  i.accIcbRspValid && IcbMaster.accIcbRspReady s.icbMaster

/-- The commands of a unit that the bus has accepted before cycle `t`. -/
def issuedBefore (s : Nat → State) (i : Nat → Input) (t : Nat) (unit : Grant) : Nat :=
  Nat.count (fun k => issuer (s k) (i k) = some unit) t

def receivedBefore (s : Nat → State) (i : Nat → Input) (t : Nat) (unit : Grant) : Nat :=
  Nat.count (fun k => receiver (s k) (i k) = some unit) t

/-- The bus accepts every command, and gives no response but to a command of an earlier
cycle that it has not answered. How long it takes is left open. -/
structure AnswersCommands (s : Nat → State) (i : Nat → Input) : Prop where
  ready : ∀ t, (i t).accIcbCmdReady = true
  asked : ∀ t, (i t).accIcbRspValid = true →
    Nat.count (fun k => responds (s k) (i k) = true) t <
      Nat.count (fun k => (accepted (s k) (i k)).isSome = true) t

/-- A unit is started only when it has reported each of its earlier bursts done. -/
def StartsAfterDone (start done : Nat → Bool) : Prop :=
  ∀ t, start t = true →
    Nat.count (fun k => start k = true) t ≤ Nat.count (fun k => done k = true) (t + 1)

def inChCntD (i : Nat → Input) : Nat → Bool
  | 0 => false
  | t + 1 => (i t).inChCnt

def rises (i : Nat → Input) (t : Nat) : Bool :=
  (i t).inChCnt && !inChCntD i t

/-- The output words come in bursts of 3136: `in_ch_cnt` rises for a burst when the last
one is answered, and is low again at its last response. -/
structure WritesBursts (s : Nat → State) (i : Nat → Input) : Prop where
  rises : ∀ t, rises i t = true →
    receivedBefore s i t .omap = 3136 * Nat.count (fun k => rises i k = true) t
  falls : ∀ t, receiver (s t) (i t) = some .omap →
    (receivedBefore s i t .omap + 1) % 3136 = 0 → (i t).inChCnt = false
  words : ∀ t, OmapBiu.hdshkIn (s t).omapBiu (omapInput (s t) (i t)) = true →
    Nat.count (fun k => OmapBiu.hdshkIn (s k).omapBiu (omapInput (s k) (i k)) = true) t <
      3136 * Nat.count (fun k => BusUnits.rises i k = true) (t + 1)

/-- Every response goes, in the cycle in which it is offered, to the unit whose command it
answers: the responses answer the commands in their order. And the arbiter leaves a grant
state only when all commands are answered. -/
structure RoutesResponses (s : Nat → State) (i : Nat → Input) : Prop where
  released : ∀ t, (s (t + 1)).icbMaster.state ≠ (s t).icbMaster.state →
    events (fun k => receiver (s k) (i k)) (t + 1) =
      events (fun k => issuer (s k) (i k)) (t + 1)
  delivered : ∀ t, (i t).accIcbRspValid = true → (receiver (s t) (i t)).isSome = true
  inOrder : ∀ n, events (fun k => receiver (s k) (i k)) n <+:
    events (fun k => issuer (s k) (i k)) n

theorem issuer_eq (s : State) (i : Input) :
    issuer s i =
      if accIcbCmdValid s && i.accIcbCmdReady then some s.icbMaster.state else none := by
  unfold issuer accepted
  cases offered : accIcbCmdValid s && i.accIcbCmdReady with
  | false => rfl
  | true =>
      have hands (unit : Grant) :
          (handedBy s i unit).isSome = (s.icbMaster.state == unit) := by
        by_cases granted : s.icbMaster.state = unit
        · rw [← granted, handedBy_granted, ((Bool.and_eq_true _ _).mp offered).1]
          simp
        · rw [handedBy_of_ne s i unit granted]
          simp [granted]
      simp only [if_true, Option.bind_some, units, hands]
      cases granted : s.icbMaster.state with
      | none =>
          rw [accIcbCmdValid, granted] at offered
          cases offered
      | omap => rfl
      | weight => rfl
      | imap => rfl

theorem receiver_eq (s : State) (i : Input) :
    receiver s i = if responds s i then some s.icbMaster.state else none := by
  unfold receiver responds units IcbMaster.rspVld IcbMaster.accIcbRspReady
  cases s.icbMaster.state <;> cases i.accIcbRspValid <;> rfl

theorem isSome_issuer (s : State) (i : Input) :
    (issuer s i).isSome = (accepted s i).isSome := by
  rw [issuer_eq, accepted]
  split_ifs <;> rfl

theorem isSome_receiver (s : State) (i : Input) : (receiver s i).isSome = responds s i := by
  rw [receiver_eq]
  cases responds s i <;> rfl

theorem rspVld_iff (s : State) (i : Input) (unit : Grant) :
    IcbMaster.rspVld s.icbMaster unit i.accIcbRspValid = true ↔ receiver s i = some unit := by
  rw [receiver_eq, responds, IcbMaster.rspVld, IcbMaster.accIcbRspReady]
  cases s.icbMaster.state <;> cases unit <;> cases i.accIcbRspValid <;> decide

theorem issuer_eq_some_iff {s : State} {i : Input} (ready : i.accIcbCmdReady = true)
    (unit : Grant) :
    issuer s i = some unit ↔ s.icbMaster.state = unit ∧ accIcbCmdValid s = true := by
  rw [issuer_eq, ready, Bool.and_true]
  cases accIcbCmdValid s <;> simp

/-- A unit issues a command when it offers one and is granted the bus. -/
theorem issuer_iff_rdy {s : State} {i : Input} {unit : Grant} {vld : Bool}
    (ready : i.accIcbCmdReady = true)
    (offers : s.icbMaster.state = unit → accIcbCmdValid s = vld) :
    issuer s i = some unit ↔ (vld && IcbMaster.rdy s.icbMaster unit) = true := by
  rw [issuer_eq_some_iff ready, Bool.and_eq_true, and_comm]
  show _ ∧ s.icbMaster.state = unit ↔ _ ∧ (s.icbMaster.state == unit) = true
  rw [beq_iff_eq]
  exact and_congr_left fun granted => by rw [offers granted]

/-- The words that a unit has been asked for before cycle `t`. -/
def askedBefore (i : Nat → Input) (t : Nat) : Grant → Nat
  | .none => 0
  | .omap => 3136 * Nat.count (fun k => rises i k = true) t
  | .weight => WeightBiu.burstWords * Nat.count (fun k => (i k).weightStart = true) t
  | .imap => ImapLoad.mapWords * Nat.count (fun k => (i k).imapStart = true) t

/-- Where the units, the arbiter and the bus stand before cycle `t`. -/
structure Routed (s : Nat → State) (i : Nat → Input) (t : Nat) : Prop where
  latched : (s t).icbMaster.nextstate = (s t).icbMaster.state
  weight : ∃ b : Burst, WeightBiu.At b (s t).weightBiu ∧
    b.Counted WeightBiu.burstWords (Nat.count (fun k => (i k).weightStart = true) t)
      (Nat.count (fun k => (s k).weightBiu.weightDone = true) t)
      (issuedBefore s i t .weight) (receivedBefore s i t .weight)
  imap : ∃ b : Burst, ImapBiu.At b (s t).imapBiu ∧
    b.Counted ImapLoad.mapWords (Nat.count (fun k => (i k).imapStart = true) t)
      (Nat.count (fun k => (s k).imapBiu.imapDone = true) t)
      (issuedBefore s i t .imap) (receivedBefore s i t .imap)
  omap : OmapBiu.Writes (inChCntD i t) (Nat.count (fun k => rises i k = true) t)
    (Nat.count (fun k => OmapBiu.hdshkIn (s k).omapBiu (omapInput (s k) (i k)) = true) t)
    (issuedBefore s i t .omap) (receivedBefore s i t .omap) (s t).omapBiu
  served : Served (s t).icbMaster.state (askedBefore i t) (issuedBefore s i t)
    (receivedBefore s i t)
  conserved : events (fun k => receiver (s k) (i k)) t ++
    underWay (s t).icbMaster.state (issuedBefore s i t) (receivedBefore s i t) =
      events (fun k => issuer (s k) (i k)) t

section Runs

variable {s : Nat → State} {i : Nat → Input}

theorem routed_zero (initial : IsReset (s 0)) : Routed s i 0 where
  latched := by rw [initial.icbMaster]; rfl
  weight := ⟨.rest WeightBiu.burstWords, by rw [initial.weightBiu]; exact WeightBiu.at_reset,
    rfl, rfl, rfl⟩
  imap := ⟨.rest ImapLoad.mapWords, by rw [initial.imapBiu]; exact ImapBiu.at_reset,
    rfl, rfl, rfl⟩
  omap := .of_isReset initial.omapBiu
  served := ⟨fun _ => Nat.zero_le _, fun _ => Nat.zero_le _, fun _ _ => rfl⟩
  conserved := rfl

namespace Routed

variable {t : Nat}

theorem length_underWay (routed : Routed s i t) :
    Nat.count (fun k => responds (s k) (i k) = true) t +
        (issuedBefore s i t (s t).icbMaster.state -
          receivedBefore s i t (s t).icbMaster.state) =
      Nat.count (fun k => (accepted (s k) (i k)).isSome = true) t := by
  have lengths := congrArg List.length routed.conserved
  rw [List.length_append, length_events, length_events, underWay, List.length_replicate]
    at lengths
  simp only [isSome_receiver, isSome_issuer] at lengths
  exact lengths

theorem all_received (routed : Routed s i t)
    (leaves : IcbMaster.nextstate (s t).icbMaster (requests (s t)) ≠ (s t).icbMaster.state) :
    receivedBefore s i t (s t).icbMaster.state = askedBefore i t (s t).icbMaster.state := by
  cases granted : (s t).icbMaster.state with
  | none =>
      have issuedBound := routed.served.issued_le .none
      have receivedBound := routed.served.received_le .none
      exact Nat.eq_zero_of_le_zero (receivedBound.trans issuedBound)
  | omap =>
      have unrequested : (s t).omapBiu.omapBiu2arbReq = false := by
        rw [IcbMaster.nextstate, granted] at leaves
        exact Bool.eq_false_iff.mpr fun request => leaves (if_pos request)
      rw [routed.omap.req, decide_eq_false_iff_not] at unrequested
      have issuedBound := routed.served.issued_le .omap
      have receivedBound := routed.served.received_le .omap
      exact le_antisymm (receivedBound.trans issuedBound) (not_lt.mp unrequested)
  | weight =>
      have unrequested : (s t).weightBiu.weightBiu2arbReq = false := by
        rw [IcbMaster.nextstate, granted] at leaves
        exact Bool.eq_false_iff.mpr fun request => leaves (if_pos request)
      obtain ⟨b, held, counted⟩ := routed.weight
      rw [held.req, decide_eq_false_iff_not] at unrequested
      have bound := held.receivedBound
      have count := counted.received
      show _ = WeightBiu.burstWords * _
      omega
  | imap =>
      have unrequested : (s t).imapBiu.imapBiu2arbReq = false := by
        rw [IcbMaster.nextstate, granted] at leaves
        exact Bool.eq_false_iff.mpr fun request => leaves (if_pos request)
      obtain ⟨b, held, counted⟩ := routed.imap
      rw [held.req, decide_eq_false_iff_not] at unrequested
      have bound := held.receivedBound
      have count := counted.received
      show _ = ImapLoad.mapWords * _
      omega

theorem more_asked (routed : Routed s i t) (offers : accIcbCmdValid (s t) = true) :
    issuedBefore s i t (s t).icbMaster.state < askedBefore i t (s t).icbMaster.state := by
  cases granted : (s t).icbMaster.state with
  | none =>
      rw [accIcbCmdValid, granted] at offers
      cases offers
  | omap =>
      have waits : (s t).omapBiu.pipe.vldR = true := by
        rw [accIcbCmdValid, granted] at offers
        exact ((Bool.and_eq_true _ _).mp offers).2
      have count := routed.omap.pipe
      have bound := routed.omap.taken_le
      rw [if_pos waits] at count
      show _ < 3136 * _
      omega
  | weight =>
      have waits : (s t).weightBiu.weightBiu2arbVld = true := by
        rw [accIcbCmdValid, granted] at offers
        exact ((Bool.and_eq_true _ _).mp offers).1
      obtain ⟨b, held, counted⟩ := routed.weight
      rw [held.vld, decide_eq_true_eq] at waits
      have count := counted.issued
      show _ < WeightBiu.burstWords * _
      omega
  | imap =>
      have waits : (s t).imapBiu.imapBiu2arbVld = true := by
        rw [accIcbCmdValid, granted] at offers
        exact ((Bool.and_eq_true _ _).mp offers).1
      obtain ⟨b, held, counted⟩ := routed.imap
      rw [held.vld, decide_eq_true_eq] at waits
      have count := counted.issued
      show _ < ImapLoad.mapWords * _
      omega

theorem waits (routed : Routed s i t) (answers : AnswersCommands s i)
    (offered : (i t).accIcbRspValid = true) :
    receivedBefore s i t (s t).icbMaster.state < issuedBefore s i t (s t).icbMaster.state := by
  have more := answers.asked t offered
  have lengths := routed.length_underWay
  omega

theorem portCycle (routed : Routed s i t) (trace : IsTrace step s i)
    (answers : AnswersCommands s i) :
    PortCycle (s t).icbMaster.state (s (t + 1)).icbMaster.state (askedBefore i t)
      (issuedBefore s i t) (receivedBefore s i t) (issuer (s t) (i t))
      (receiver (s t) (i t)) where
  issues := fun unit issue => by
    obtain ⟨rfl, offers⟩ := (issuer_eq_some_iff (answers.ready t) unit).mp issue
    exact ⟨rfl, routed.more_asked offers⟩
  receives := fun unit receive => by
    rw [receiver_eq] at receive
    split_ifs at receive with response
    · cases receive
      exact ⟨rfl, routed.waits answers ((Bool.and_eq_true _ _).mp response).1⟩
  releases := fun leaves => by
    rw [trace t] at leaves
    exact routed.all_received leaves

end Routed

theorem tally_issuedBefore (t : Nat) :
    issuedBefore s i (t + 1) = tally (issuer (s t) (i t)) (issuedBefore s i t) := by
  funext unit
  exact Nat.count_succ _ t

theorem tally_receivedBefore (t : Nat) :
    receivedBefore s i (t + 1) = tally (receiver (s t) (i t)) (receivedBefore s i t) := by
  funext unit
  exact Nat.count_succ _ t

theorem askedBefore_le (t : Nat) (unit : Grant) :
    askedBefore i t unit ≤ askedBefore i (t + 1) unit := by
  have grows (p : Nat → Prop) [DecidablePred p] : Nat.count p t ≤ Nat.count p (t + 1) :=
    Nat.count_monotone p (Nat.le_succ t)
  cases unit with
  | none => exact le_rfl
  | omap => exact Nat.mul_le_mul_left _ (grows _)
  | weight => exact Nat.mul_le_mul_left _ (grows _)
  | imap => exact Nat.mul_le_mul_left _ (grows _)

namespace Routed

variable {t : Nat}

theorem burst_step (routed : Routed s i t) (trace : IsTrace step s i)
    (answers : AnswersCommands s i) {unit : Grant} {words : Nat} {b : Burst}
    {start done : Nat → Bool} {rdy rsp : Bool}
    (counted : b.Counted words (Nat.count (fun k => start k = true) t)
      (Nat.count (fun k => done k = true) t) (issuedBefore s i t unit)
      (receivedBefore s i t unit))
    (some_ : 0 < words) (issuedBound : b.issued ≤ words)
    (doneLate : b.done = true → b.received = words) (reports : done t = b.done)
    (starts : StartsAfterDone start done)
    (issues : issuer (s t) (i t) = some unit ↔ rdy = true ∧ b.issued < words)
    (receives : rsp = true ↔ receiver (s t) (i t) = some unit) :
    b.Fits words (start t) rsp ∧
      (b.next words (start t) rdy rsp).Counted words
        (Nat.count (fun k => start k = true) (t + 1))
        (Nat.count (fun k => done k = true) (t + 1)) (issuedBefore s i (t + 1) unit)
        (receivedBefore s i (t + 1) unit) := by
  have fits : b.Fits words (start t) rsp := by
    refine counted.fits issuedBound doneLate (routed.served.received_le unit)
      (fun starting => ?_) fun receive => ?_
    · have earlier := starts t starting
      rw [Nat.count_succ] at earlier
      rw [← reports]
      exact earlier
    · exact ((routed.portCycle trace answers).receives _ (receives.mp receive)).2
  have next := @Burst.Counted.next words b _ _ _ _ (start t) rdy rsp counted some_ fits doneLate
  simp only [← issues, receives, ← reports] at next
  rw [tally_issuedBefore, tally_receivedBefore, Nat.count_succ, Nat.count_succ]
  exact ⟨fits, next⟩

theorem issuer_burst {unit : Grant} {words issued : Nat} (ready : (i t).accIcbCmdReady = true)
    (vld : (s t).icbMaster.state = unit → accIcbCmdValid (s t) = decide (issued < words)) :
    issuer (s t) (i t) = some unit ↔
      ((s t).icbMaster.state == unit) = true ∧ issued < words := by
  rw [issuer_eq_some_iff ready, beq_iff_eq]
  refine and_congr_right fun granted => ?_
  rw [vld granted, decide_eq_true_iff]

theorem weight_step (routed : Routed s i t) (trace : IsTrace step s i)
    (answers : AnswersCommands s i)
    (starts : StartsAfterDone (fun k => (i k).weightStart)
      fun k => (s k).weightBiu.weightDone) :
    ∃ b : Burst, WeightBiu.At b (s (t + 1)).weightBiu ∧
      b.Counted WeightBiu.burstWords (Nat.count (fun k => (i k).weightStart = true) (t + 1))
        (Nat.count (fun k => (s k).weightBiu.weightDone = true) (t + 1))
        (issuedBefore s i (t + 1) .weight) (receivedBefore s i (t + 1) .weight) := by
  obtain ⟨b, held, counted⟩ := routed.weight
  have issues : issuer (s t) (i t) = some .weight ↔
      (weightInput (s t) (i t)).weightBiu2arbRdy = true ∧ b.issued < WeightBiu.burstWords := by
    refine issuer_burst (answers.ready t) fun granted => ?_
    have rdy : IcbMaster.rdy (s t).icbMaster .weight = true := beq_iff_eq.mpr granted
    simp only [accIcbCmdValid, granted, held.vld, rdy, Bool.and_true]
  have receives : (weightInput (s t) (i t)).arb2weightBiuVld = true ↔
      receiver (s t) (i t) = some .weight := rspVld_iff _ _ _
  obtain ⟨fits, next⟩ := routed.burst_step trace answers counted (by decide) held.issuedBound
    held.doneLate held.done starts issues receives
  have stepped : WeightBiu.At _ (WeightBiu.step (s t).weightBiu (weightInput (s t) (i t))) :=
    held.step fits
  refine ⟨_, ?_, next⟩
  rw [trace t]
  exact stepped

theorem imap_step (routed : Routed s i t) (trace : IsTrace step s i)
    (answers : AnswersCommands s i)
    (starts : StartsAfterDone (fun k => (i k).imapStart)
      fun k => (s k).imapBiu.imapDone) :
    ∃ b : Burst, ImapBiu.At b (s (t + 1)).imapBiu ∧
      b.Counted ImapLoad.mapWords (Nat.count (fun k => (i k).imapStart = true) (t + 1))
        (Nat.count (fun k => (s k).imapBiu.imapDone = true) (t + 1))
        (issuedBefore s i (t + 1) .imap) (receivedBefore s i (t + 1) .imap) := by
  obtain ⟨b, held, counted⟩ := routed.imap
  have issues : issuer (s t) (i t) = some .imap ↔
      (imapInput (s t) (i t)).imapBiu2arbRdy = true ∧ b.issued < ImapLoad.mapWords := by
    refine issuer_burst (answers.ready t) fun granted => ?_
    have rdy : IcbMaster.rdy (s t).icbMaster .imap = true := beq_iff_eq.mpr granted
    simp only [accIcbCmdValid, granted, held.vld, rdy, Bool.and_true]
  have receives : (imapInput (s t) (i t)).arb2imapBiuVld = true ↔
      receiver (s t) (i t) = some .imap := rspVld_iff _ _ _
  obtain ⟨fits, next⟩ := routed.burst_step trace answers counted (by decide) held.issuedBound
    held.doneLate held.done starts issues receives
  have stepped : ImapBiu.At _ (ImapBiu.step (s t).imapBiu (imapInput (s t) (i t))) := held.step fits
  refine ⟨_, ?_, next⟩
  rw [trace t]
  exact stepped

theorem omap_step (routed : Routed s i t) (trace : IsTrace step s i)
    (answers : AnswersCommands s i) (writes : WritesBursts s i) :
    OmapBiu.Writes (inChCntD i (t + 1)) (Nat.count (fun k => rises i k = true) (t + 1))
      (Nat.count (fun k => OmapBiu.hdshkIn (s k).omapBiu (omapInput (s k) (i k)) = true)
        (t + 1))
      (issuedBefore s i (t + 1) .omap) (receivedBefore s i (t + 1) .omap)
      (s (t + 1)).omapBiu := by
  have receives : (omapInput (s t) (i t)).arb2omapBiuVld = true ↔
      receiver (s t) (i t) = some .omap := rspVld_iff _ _ _
  have issues : issuer (s t) (i t) = some .omap ↔
      OmapBiu.hdshk (s t).omapBiu (omapInput (s t) (i t)) = true := by
    refine issuer_iff_rdy (answers.ready t) fun granted => ?_
    rw [accIcbCmdValid, granted]
    show (((s t).icbMaster.state == .omap) && _) = _
    rw [beq_iff_eq.mpr granted, Bool.true_and]
  have next := routed.omap.step (i := omapInput (s t) (i t)) (routed.served.received_le .omap)
    (fun receive => ((routed.portCycle trace answers).receives _ (receives.mp receive)).2)
    (writes.rises t) (fun receive => writes.falls t (receives.mp receive))
    (fun take => by
      have more := writes.words t take
      rw [Nat.count_succ] at more
      exact more)
  simp only [← issues, receives] at next
  rw [tally_issuedBefore, tally_receivedBefore, Nat.count_succ, Nat.count_succ, trace t]
  exact next

theorem step (routed : Routed s i t) (trace : IsTrace step s i)
    (answers : AnswersCommands s i)
    (weight : StartsAfterDone (fun k => (i k).weightStart)
      fun k => (s k).weightBiu.weightDone)
    (imap : StartsAfterDone (fun k => (i k).imapStart) fun k => (s k).imapBiu.imapDone)
    (omap : WritesBursts s i) : Routed s i (t + 1) where
  latched := by rw [trace t]; rfl
  weight := routed.weight_step trace answers weight
  imap := routed.imap_step trace answers imap
  omap := routed.omap_step trace answers omap
  served := by
    rw [tally_issuedBefore, tally_receivedBefore]
    exact (routed.portCycle trace answers).served routed.served (askedBefore_le t)
  conserved := by
    have conserves := (routed.portCycle trace answers).conserves routed.served
    rw [tally_issuedBefore, tally_receivedBefore, events_succ, events_succ, List.append_assoc,
      conserves, ← List.append_assoc, routed.conserved]

end Routed

theorem routed (trace : IsTrace step s i) (initial : IsReset (s 0))
    (answers : AnswersCommands s i)
    (weight : StartsAfterDone (fun k => (i k).weightStart)
      fun k => (s k).weightBiu.weightDone)
    (imap : StartsAfterDone (fun k => (i k).imapStart) fun k => (s k).imapBiu.imapDone)
    (omap : WritesBursts s i) (t : Nat) : Routed s i t := by
  induction t with
  | zero => exact routed_zero initial
  | succ t held => exact held.step trace answers weight imap omap

/-- The responses reach the units that asked, whatever the delays of the bus and the order
in which the units are started. -/
theorem routesResponses (trace : IsTrace step s i) (initial : IsReset (s 0))
    (answers : AnswersCommands s i)
    (weight : StartsAfterDone (fun k => (i k).weightStart)
      fun k => (s k).weightBiu.weightDone)
    (imap : StartsAfterDone (fun k => (i k).imapStart) fun k => (s k).imapBiu.imapDone)
    (omap : WritesBursts s i) : RoutesResponses s i := by
  have routed := routed trace initial answers weight imap omap
  refine ⟨fun t leaves => ?_, fun t offered => ?_, fun n => ?_⟩
  · have idle := ((routed t).portCycle trace answers).underWay_of_leaves (routed t).served leaves
    rw [← (routed (t + 1)).conserved, tally_issuedBefore, tally_receivedBefore, idle,
      List.append_nil]
  · have more := (routed t).waits answers offered
    rw [isSome_receiver, responds, offered, Bool.true_and]
    cases grant : (s t).icbMaster.state with
    | none =>
        have bound := (routed t).served.issued_le .none
        rw [grant] at more
        exact absurd (Nat.lt_of_lt_of_le more bound) (Nat.not_lt_zero _)
    | omap => simp [IcbMaster.accIcbRspReady, grant]
    | weight => simp [IcbMaster.accIcbRspReady, grant]
    | imap => simp [IcbMaster.accIcbRspReady, grant]
  · exact events_isPrefix (fun n => (routed n).conserved) n

end Runs

end BusUnits

end RepVGGAcc
