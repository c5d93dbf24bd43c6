import RepVGGAcc.Bus.FetchEngine

/-! The bursts of `weight_biu` and `imap_biu`: their commands, their addresses and the
state they leave behind. -/

namespace RepVGGAcc

open Clocked

namespace FetchEngine

variable {S I : Type} (engine : FetchEngine S I) (s : Nat → S) (i : Nat → I) (first n : Nat)

theorem issued_wait (wait : engine.hdshk (s (first + 1 + n)) (i (first + 1 + n)) = false) :
    engine.issued s i first (n + 1) = engine.issued s i first n := by
  refine (Nat.count_succ _ n).trans ?_
  rw [wait]
  rfl

theorem issued_move (moves : engine.hdshk (s (first + 1 + n)) (i (first + 1 + n)) = true) :
    engine.issued s i first (n + 1) = engine.issued s i first n + 1 := by
  refine (Nat.count_succ _ n).trans ?_
  rw [if_pos moves]
  rfl

variable {engine s i first n}

theorem exists_handover {k : Nat} (past : k < engine.issued s i first n) :
    ∃ m < n, engine.hdshk (s (first + 1 + m)) (i (first + 1 + m)) = true ∧
      engine.issued s i first m = k := by
  induction n with
  | zero => exact absurd past (Nat.not_lt_zero k)
  | succ n earlier =>
      cases handed : engine.hdshk (s (first + 1 + n)) (i (first + 1 + n)) with
      | false =>
          rw [engine.issued_wait s i first n handed] at past
          obtain ⟨m, before, taken, position⟩ := earlier past
          exact ⟨m, by omega, taken, position⟩
      | true =>
          rw [engine.issued_move s i first n handed] at past
          rcases Nat.lt_succ_iff_lt_or_eq.mp past with before | now
          · obtain ⟨m, before, taken, position⟩ := earlier before
            exact ⟨m, by omega, taken, position⟩
          · exact ⟨n, Nat.lt_succ_self n, handed, now.symm⟩

/-- An address that counts on with the commands, from cycle `m` of a burst until `bound`
commands are handed over. -/
theorem addr_counts (addr : S → BitVec 32) (bound : Nat) {m : Nat}
    (wait : ∀ n, m ≤ n → engine.Quiet i first n → engine.issued s i first n < bound →
      engine.hdshk (s (first + 1 + n)) (i (first + 1 + n)) = false →
      addr (s (first + 1 + n + 1)) = addr (s (first + 1 + n)))
    (move : ∀ n, m ≤ n → engine.Quiet i first n → engine.issued s i first n + 1 < bound →
      engine.hdshk (s (first + 1 + n)) (i (first + 1 + n)) = true →
      addr (s (first + 1 + n + 1)) = addr (s (first + 1 + n)) + 4)
    (after : m ≤ n) (quiet : engine.Quiet i first n) (more : engine.issued s i first n < bound) :
    addr (s (first + 1 + n)) = addr (s (first + 1 + m)) +
      BitVec.ofNat 32 (4 * (engine.issued s i first n - engine.issued s i first m)) := by
  induction n, after using Nat.le_induction with
  | base =>
      rw [Nat.sub_self]
      exact (BitVec.add_zero _).symm
  | succ n after before =>
      have earlier : engine.Quiet i first n := fun k inside => quiet k (by omega)
      have grows : engine.issued s i first m ≤ engine.issued s i first n :=
        Nat.count_monotone _ after
      cases handed : engine.hdshk (s (first + 1 + n)) (i (first + 1 + n)) with
      | false =>
          rw [engine.issued_wait s i first n handed] at more ⊢
          exact (wait n after earlier more handed).trans (before earlier more)
      | true =>
          rw [engine.issued_move s i first n handed] at more ⊢
          rw [Nat.succ_sub grows, ofNat_word_succ, ← BitVec.add_assoc, ← before earlier (by omega)]
          exact move n after earlier more handed

end FetchEngine

namespace WeightBiu

def engine : FetchEngine State Input where
  words := burstWords
  reset := reset
  step := step
  start := Input.weightStart
  rdy := Input.weightBiu2arbRdy
  rsp := Input.arb2weightBiuVld
  vld := State.weightBiu2arbVld
  req := State.weightBiu2arbReq
  done := State.weightDone
  At := At
  words_pos := by decide
  at_reset := at_reset
  at_step := At.step
  issued_le := At.issuedBound
  received_le := At.receivedBound
  doneLate := At.doneLate
  vld_eq := At.vld
  req_eq := At.req
  done_eq := At.done

/-- The address of the 3x3 weights of an output channel. -/
def kernelBase (i : Input) : BitVec 32 :=
  i.weight3BaseAddr + BitVec.ofNat 32 (i.weightOchCnt * 0x90)

def pointBase (i : Input) : BitVec 32 :=
  i.weight1BaseAddr + BitVec.ofNat 32 (i.weightOchCnt * 0x10)

/-- A burst of `weight_biu` started in cycle `first`: 144 words from the address loaded
with the start, then 16 from the one loaded with the 144th command. -/
structure FetchesWeights (s : Nat → State) (i : Nat → Input) (first : Nat) : Prop extends
    engine.RunsBurst s i first where
  kernelAddr : ∀ n, engine.Quiet i first n → engine.issued s i first n < 144 →
    (s (first + 1 + n)).weightBiu2arbAddr =
      kernelBase (i first) + BitVec.ofNat 32 (4 * engine.issued s i first n)
  pointAddr : ∀ n, engine.Quiet i first n → 144 ≤ engine.issued s i first n →
    engine.issued s i first n < 160 →
    ∃ turn < n, hdshk (s (first + 1 + turn)) (i (first + 1 + turn)) = true ∧
      engine.issued s i first turn = 143 ∧
      (s (first + 1 + n)).weightBiu2arbAddr = pointBase (i (first + 1 + turn)) +
        BitVec.ofNat 32 (4 * (engine.issued s i first n - 144))
  /-- With all words received the registers, the address and the pulse of `weight_done`
  apart, are as after a reset. -/
  restored : ∀ n, engine.Quiet i first n → engine.received i first n = 160 →
    { s (first + 1 + n) with weightBiu2arbAddr := 0, weightDone := false } = reset

section Burst

variable {s : Nat → State} {i : Nat → Input} {first n : Nat} (driven : engine.Driven s i)
  (started : (i first).weightStart = true)

include driven started in
theorem issuing (quiet : engine.Quiet i first n) :
    Issuing (engine.issued s i first n) (s (first + 1 + n)) := by
  rw [← (driven.burst_eq started quiet).1]
  exact At.issuing (driven.held _)

include driven started in
theorem addr_first : (s (first + 1)).weightBiu2arbAddr = kernelBase (i first) := by
  have held : At _ (s first) := driven.held first
  have rested : Issuing burstWords (s first) := by
    have all : (engine.burst i first).issued = burstWords :=
      (driven.complete_of_start started).1
    rw [← all]
    exact held.issuing
  have loaded := rested.addr_start started
  rw [show s (first + 1) = step (s first) (i first) from driven.trace first, loaded]
  simp [burstAddr, kernelBase]

include driven started in
theorem kernelAddr (quiet : engine.Quiet i first n) (kernel : engine.issued s i first n < 144) :
    (s (first + 1 + n)).weightBiu2arbAddr =
      kernelBase (i first) + BitVec.ofNat 32 (4 * engine.issued s i first n) := by
  rw [← addr_first driven started]
  refine FetchEngine.addr_counts State.weightBiu2arbAddr 144
    (fun k _ earlier more waits => ?_) (fun k _ earlier more moves => ?_) (Nat.zero_le n) quiet
    kernel
  · rw [driven.trace (first + 1 + k)]
    exact (issuing driven started earlier).addr_wait (by unfold burstWords; omega) waits
  · rw [driven.trace (first + 1 + k)]
    exact (issuing driven started earlier).addr_move (by unfold burstWords; omega) (by omega) moves

include driven started in
theorem pointAddr (quiet : engine.Quiet i first n) (point : 144 ≤ engine.issued s i first n)
    (more : engine.issued s i first n < 160) :
    ∃ turn < n, hdshk (s (first + 1 + turn)) (i (first + 1 + turn)) = true ∧
      engine.issued s i first turn = 143 ∧
      (s (first + 1 + n)).weightBiu2arbAddr = pointBase (i (first + 1 + turn)) +
        BitVec.ofNat 32 (4 * (engine.issued s i first n - 144)) := by
  obtain ⟨turn, before, taken, position⟩ := FetchEngine.exists_handover point
  refine ⟨turn, before, taken, position, ?_⟩
  have turned : engine.issued s i first (turn + 1) = 144 := by
    rw [engine.issued_move s i first turn taken, position]
  have loaded : (s (first + 1 + (turn + 1))).weightBiu2arbAddr =
      pointBase (i (first + 1 + turn)) := by
    have earlier : engine.Quiet i first turn := fun k inside => quiet k (by omega)
    have held := issuing driven started earlier
    rw [position] at held
    exact (congrArg State.weightBiu2arbAddr (driven.trace (first + 1 + turn))).trans
      (held.addr_turn taken)
  rw [← loaded, ← turned]
  refine FetchEngine.addr_counts State.weightBiu2arbAddr 160
    (fun k _ earlier more waits => ?_) (fun k after earlier more moves => ?_) before quiet more
  · rw [driven.trace (first + 1 + k)]
    exact (issuing driven started earlier).addr_wait more waits
  · have grows : engine.issued s i first (turn + 1) ≤ engine.issued s i first k :=
      Nat.count_monotone _ after
    rw [driven.trace (first + 1 + k)]
    exact (issuing driven started earlier).addr_move more (by omega) moves

theorem At.restored {b : Burst} {s : State} (held : At b s) (issued : b.issued = burstWords)
    (received : b.received = burstWords) :
    { s with weightBiu2arbAddr := 0, weightDone := false } = reset := by
  have counted := held.received
  have req := held.req
  have vld := held.vld
  have state := held.state
  have nextstate := held.nextstate
  have cnt := held.cnt
  rw [received] at counted req
  rw [issued] at vld state cnt
  obtain ⟨-, receiveCnt, receiveBitCnt, receiveChCnt⟩ := counted
  rw [state] at nextstate
  obtain ⟨state', nextstate', cnt', addr, req', vld', receiveCnt', receiveBitCnt', receiveChCnt',
    done⟩ := s
  simp only at state nextstate cnt req vld receiveCnt receiveBitCnt receiveChCnt
  subst state nextstate cnt req vld receiveCnt receiveBitCnt receiveChCnt
  rfl

include driven started in
theorem fetchesWeights : FetchesWeights s i first where
  toRunsBurst := driven.runsBurst started
  kernelAddr := fun _ quiet kernel => kernelAddr driven started quiet kernel
  pointAddr := fun _ quiet point more => pointAddr driven started quiet point more
  restored := by
    intro n quiet all
    obtain ⟨issued, received⟩ := driven.burst_eq started quiet
    have bound := (driven.runsBurst started).issued_le n quiet
    have answered := driven.received_le_issued started (n := n)
    have words : engine.words = 160 := rfl
    refine At.restored (driven.held (first + 1 + n)) ?_ ?_
    · rw [issued]
      unfold burstWords
      omega
    · rw [received]
      exact all

end Burst

end WeightBiu

namespace ImapBiu

open ImapLoad (mapWords)

def engine : FetchEngine State Input where
  words := mapWords
  reset := reset
  step := step
  start := Input.imapStart
  rdy := Input.imapBiu2arbRdy
  rsp := Input.arb2imapBiuVld
  vld := State.imapBiu2arbVld
  req := State.imapBiu2arbReq
  done := State.imapDone
  At := At
  words_pos := by decide
  at_reset := at_reset
  at_step := At.step
  issued_le := At.issuedBound
  received_le := At.receivedBound
  doneLate := At.doneLate
  vld_eq := At.vld
  req_eq := At.req
  done_eq := At.done

/-- A burst of `imap_biu` started in cycle `first`: the words of the map, from the
address loaded with the start. -/
structure FetchesMap (s : Nat → State) (i : Nat → Input) (first : Nat) : Prop extends
    engine.RunsBurst s i first where
  addr : ∀ n, engine.Quiet i first n → engine.issued s i first n < 50176 →
    (s (first + 1 + n)).imapBiu2arbAddr =
      (i first).imapBaseAddr + BitVec.ofNat 32 (4 * engine.issued s i first n)
  /-- With all words received the registers, the address, the half of a pair and the pulse
  of `imap_done` apart, are as after a reset. -/
  restored : ∀ n, engine.Quiet i first n → engine.received i first n = 50176 →
    { s (first + 1 + n) with imapBiu2arbAddr := 0, formerBits := 0, imapDone := false } = reset

section Burst

variable {s : Nat → State} {i : Nat → Input} {first n : Nat} (driven : engine.Driven s i)
  (started : (i first).imapStart = true)

include driven started in
theorem addr_first : (s (first + 1)).imapBiu2arbAddr = (i first).imapBaseAddr := by
  have held : At _ (s first) := driven.held first
  rw [show s (first + 1) = step (s first) (i first) from driven.trace first]
  exact held.addr_start started (driven.complete_of_start started).1

include driven started in
theorem addr_eq (quiet : engine.Quiet i first n) (more : engine.issued s i first n < mapWords) :
    (s (first + 1 + n)).imapBiu2arbAddr =
      (i first).imapBaseAddr + BitVec.ofNat 32 (4 * engine.issued s i first n) := by
  have held (t : Nat) : At (engine.burst i t) (s t) := driven.held t
  rw [← addr_first driven started]
  refine FetchEngine.addr_counts State.imapBiu2arbAddr mapWords
    (fun k _ earlier more waits => ?_) (fun k _ earlier more moves => ?_) (Nat.zero_le n) quiet
    more
  · rw [← (driven.burst_eq started earlier).1] at more
    rw [driven.trace (first + 1 + k)]
    exact (held _).addr_wait more waits
  · rw [← (driven.burst_eq started earlier).1] at more
    rw [driven.trace (first + 1 + k)]
    exact (held _).addr_move more moves

theorem At.restored {b : Burst} {s : State} (held : At b s) (issued : b.issued = mapWords)
    (received : b.received = mapWords) :
    { s with imapBiu2arbAddr := 0, formerBits := 0, imapDone := false } = reset := by
  have receiveCnt := held.receiveCnt
  have req := held.req
  have vld := held.vld
  have state := held.state
  have nextstate := held.nextstate
  have cnt := held.cnt
  rw [received] at receiveCnt req
  rw [issued] at vld state cnt
  rw [state] at nextstate
  obtain ⟨state', nextstate', cnt', addr, req', vld', receiveCnt', formerBits, done⟩ := s
  simp only at state nextstate cnt req vld receiveCnt
  subst state nextstate cnt req vld receiveCnt
  rfl

include driven started in
theorem fetchesMap : FetchesMap s i first where
  toRunsBurst := driven.runsBurst started
  addr := fun _ quiet more => addr_eq driven started quiet more
  restored := by
    intro n quiet all
    obtain ⟨issued, received⟩ := driven.burst_eq started quiet
    have bound := (driven.runsBurst started).issued_le n quiet
    have answered := driven.received_le_issued started (n := n)
    have words : engine.words = 50176 := rfl
    refine At.restored (driven.held (first + 1 + n)) ?_ ?_
    · rw [issued]
      unfold mapWords
      omega
    · rw [received]
      exact all

end Burst

end ImapBiu

/-! Every burst of both engines. -/

theorem fetchEngines_runBursts {s : Nat → WeightBiu.State} {i : Nat → WeightBiu.Input}
    {s' : Nat → ImapBiu.State} {i' : Nat → ImapBiu.Input}
    (weight : WeightBiu.engine.Driven s i) (imap : ImapBiu.engine.Driven s' i') :
    (∀ first, (i first).weightStart = true → WeightBiu.FetchesWeights s i first) ∧
      ∀ first, (i' first).imapStart = true → ImapBiu.FetchesMap s' i' first :=
  ⟨fun _ started => WeightBiu.fetchesWeights weight started,
    fun _ started => ImapBiu.fetchesMap imap started⟩

/-! The engines behind the arbiter. -/

namespace BusUnits

open IcbMaster (Grant)

theorem issuer_weight_iff {s : State} {i : Input} (ready : i.accIcbCmdReady = true) :
    issuer s i = some .weight ↔ WeightBiu.hdshk s.weightBiu (weightInput s i) = true := by
  refine issuer_iff_rdy ready fun granted => ?_
  rw [accIcbCmdValid, granted]
  show (_ && (s.icbMaster.state == .weight)) = _
  rw [beq_iff_eq.mpr granted, Bool.and_true]

theorem issuer_imap_iff {s : State} {i : Input} (ready : i.accIcbCmdReady = true) :
    issuer s i = some .imap ↔ ImapBiu.hdshk s.imapBiu (imapInput s i) = true := by
  refine issuer_iff_rdy ready fun granted => ?_
  rw [accIcbCmdValid, granted]
  show (_ && (s.icbMaster.state == .imap)) = _
  rw [beq_iff_eq.mpr granted, Bool.and_true]

variable {s : Nat → State} {i : Nat → Input} (trace : IsTrace step s i) (initial : IsReset (s 0))
  (answers : AnswersCommands s i)
  (weight : StartsAfterDone (fun k => (i k).weightStart) fun k => (s k).weightBiu.weightDone)
  (imap : StartsAfterDone (fun k => (i k).imapStart) fun k => (s k).imapBiu.imapDone)
  (omap : WritesBursts s i)

include trace initial answers weight imap omap

/-- A unit gets no word before it has issued the command for it. -/
theorem received_lt_issued {t : Nat} {unit : Grant}
    (receives : receiver (s t) (i t) = some unit) :
    receivedBefore s i t unit < issuedBefore s i t unit :=
  (((routed trace initial answers weight imap omap t).portCycle trace answers).receives unit
    receives).2

theorem driven_weight :
    WeightBiu.engine.Driven (fun t => (s t).weightBiu) fun t => weightInput (s t) (i t) where
  trace := trace.component State.weightBiu weightInput fun _ _ => rfl
  initial := initial.weightBiu
  starts := weight
  asked := fun t receive => by
    have receives (k : Nat) : WeightBiu.engine.rsp (weightInput (s k) (i k)) = true ↔
        receiver (s k) (i k) = some .weight := rspVld_iff _ _ _
    have more := received_lt_issued trace initial answers weight imap omap
      ((receives t).mp receive)
    unfold receivedBefore issuedBefore at more
    simp only [issuer_weight_iff (answers.ready _)] at more
    simp only [receives]
    exact more

theorem driven_imap :
    ImapBiu.engine.Driven (fun t => (s t).imapBiu) fun t => imapInput (s t) (i t) where
  trace := trace.component State.imapBiu imapInput fun _ _ => rfl
  initial := initial.imapBiu
  starts := imap
  asked := fun t receive => by
    have receives (k : Nat) : ImapBiu.engine.rsp (imapInput (s k) (i k)) = true ↔
        receiver (s k) (i k) = some .imap := rspVld_iff _ _ _
    have more := received_lt_issued trace initial answers weight imap omap
      ((receives t).mp receive)
    unfold receivedBefore issuedBefore at more
    simp only [issuer_imap_iff (answers.ready _)] at more
    simp only [receives]
    exact more

end BusUnits

end RepVGGAcc
