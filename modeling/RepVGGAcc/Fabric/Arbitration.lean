import RepVGGAcc.Fabric.SramService
import Mathlib.Order.Fin.Basic
import Mathlib.Order.WellFounded

/-! The arbiter in front of a service: every port has its commands answered, in the order
in which they were granted. -/

namespace RepVGGAcc

open Clocked

namespace SirvGnrlIcbArbt

variable {n w : Nat}

/-- Port `k` has a command, and no port of a higher priority has one. -/
structure First (i : Fin n → IcbDown) (k : Fin n) : Prop where
  valid : (i k).cmdValid = true
  least : ∀ j < k, (i j).cmdValid = false

theorem exists_first {i : Fin n → IcbDown} {j : Fin n} (valid : (i j).cmdValid = true) :
    ∃ k, First i k := by
  obtain ⟨k, asks, least⟩ :=
    (wellFounded_lt (α := Fin n)).has_min {j | (i j).cmdValid = true} ⟨j, valid⟩
  exact ⟨k, asks, fun j below => Bool.eq_false_iff.mpr fun before => least j before below⟩

theorem iBusIcbCmdGrtVec_eq_true {i : Fin n → IcbDown} {k : Fin n} :
    iBusIcbCmdGrtVec i k = true ↔ ∀ j < k, (i j).cmdValid = false := by
  simp [iBusIcbCmdGrtVec]

theorem First.eq {i : Fin n → IcbDown} {j k : Fin n} (first : First i k)
    (granted : iBusIcbCmdGrtVec i j = true) (valid : (i j).cmdValid = true) : j = k := by
  rw [iBusIcbCmdGrtVec_eq_true] at granted
  rcases lt_trichotomy j k with below | same | above
  · rw [first.least j below] at valid
    cases valid
  · exact same
  · have asks := granted k above
    rw [first.valid] at asks
    cases asks

theorem First.sel {i : Fin n → IcbDown} {k : Fin n} (first : First i k) (j : Fin n) :
    iBusIcbCmdSel i j = decide (j = k) := by
  rw [Bool.eq_iff_iff, decide_eq_true_iff]
  unfold iBusIcbCmdSel
  rw [Bool.and_eq_true]
  constructor
  · rintro ⟨granted, valid⟩
    exact first.eq granted valid
  · rintro rfl
    exact ⟨iBusIcbCmdGrtVec_eq_true.mpr first.least, first.valid⟩

variable (fifo : QueueCircuit (BitVec w)) (s : fifo.State) (i : Fin n → IcbDown) (o : IcbUp)

def request : Option (Fin n × IcbCmd) :=
  handed (fun k => (i k).cmdValid) (fun k => (iIcb fifo s i o k).cmdReady) fun k => (i k).cmd

def response : Option (Fin n × IcbRsp) :=
  handed (fun k => (iIcb fifo s i o k).rspValid) (fun k => (i k).rspReady)
    fun k => (iIcb fifo s i o k).rsp

variable {fifo s i o}

theorem request_single {j k : Fin n}
    (one : ((i j).cmdValid && (iIcb fifo s i o j).cmdReady) = true)
    (other : ((i k).cmdValid && (iIcb fifo s i o k).cmdReady) = true) : j = k := by
  unfold iIcb at one other
  simp only [Bool.and_eq_true] at one other
  obtain ⟨first, least⟩ := exists_first one.1
  have here := First.eq ⟨least.valid, least.least⟩ one.2.1 one.1
  have there := First.eq ⟨least.valid, least.least⟩ other.2.1 other.1
  rw [here, there]

theorem response_single {j k : Fin n}
    (one : ((iIcb fifo s i o j).rspValid && (i j).rspReady) = true)
    (other : ((iIcb fifo s i o k).rspValid && (i k).rspReady) = true) : j = k := by
  unfold iIcb at one other
  simp only [Bool.and_eq_true, decide_eq_true_eq] at one other
  exact Fin.ext (one.1.2.symm.trans other.1.2)

theorem bind_request (k : Fin n) :
    (request fifo s i o).bind (atPort k) = icbCmd (i k) (iIcb fifo s i o k) :=
  bind_handed (fun _ _ => request_single) k

theorem bind_response (k : Fin n) :
    (response fifo s i o).bind (atPort k) = icbRsp (i k) (iIcb fifo s i o k) :=
  bind_handed (fun _ _ => response_single) k

theorem request_none (none_ : ∀ k, (i k).cmdValid = false) : request fifo s i o = none :=
  handed_eq_none fun k => by rw [none_ k, Bool.false_and]

theorem request_first {k : Fin n} (first : First i k) : request fifo s i o =
    handshake (!rspidFifoFull fifo s i o) o.cmdReady (k, (i k).cmd) := by
  have granted := iBusIcbCmdGrtVec_eq_true.mpr first.least
  have both : ((i k).cmdValid && (iIcb fifo s i o k).cmdReady) =
      (!rspidFifoFull fifo s i o && o.cmdReady) := by
    unfold iIcb
    rw [first.valid, granted, Bool.true_and, Bool.true_and, Bool.and_comm]
  unfold handshake
  split_ifs with accepted
  · exact handed_eq_some (both.trans accepted) fun j here =>
      request_single here (both.trans accepted)
  · refine handed_eq_none fun j => Bool.eq_false_iff.mpr fun here => accepted ?_
    obtain ⟨asks, ready⟩ := (Bool.and_eq_true _ _).mp here
    have granted' : iBusIcbCmdGrtVec i j = true := ((Bool.and_eq_true _ _).mp ready).1
    rw [← both, ← first.eq granted' asks]
    exact here

theorem oIcbCmdValid_first {k : Fin n} (first : First i k) :
    oIcbCmdValid fifo s i o = !rspidFifoFull fifo s i o := by
  have some_ : (List.finRange n).any (fun k => (i k).cmdValid) = true :=
    List.any_eq_true.mpr ⟨k, List.mem_finRange k, first.valid⟩
  unfold oIcbCmdValid
  rw [some_, Bool.true_and]

theorem oIcbCmdValid_none (none_ : ∀ k, (i k).cmdValid = false) :
    oIcbCmdValid fifo s i o = false := by
  have all : (List.finRange n).any (fun k => (i k).cmdValid) = false :=
    List.any_eq_false.mpr fun k _ => Bool.eq_false_iff.mp (none_ k)
  unfold oIcbCmdValid
  rw [all, Bool.false_and]

/-- What is handed on is what the port whose command is accepted has selected. -/
theorem handed_on {α : Type} {selected : α} {own : Fin n × IcbCmd → α}
    (selects : ∀ k, First i k → selected = own (k, (i k).cmd)) :
    handshake (oIcbCmdValid fifo s i o) o.cmdReady selected =
      (request fifo s i o).map own := by
  by_cases some_ : ∃ k, (i k).cmdValid = true
  · obtain ⟨j, valid⟩ := some_
    obtain ⟨k, first⟩ := exists_first valid
    rw [request_first first, map_handshake, oIcbCmdValid_first first, selects k first]
  · have none_ (k : Fin n) : (i k).cmdValid = false :=
      Bool.eq_false_iff.mpr fun valid => some_ ⟨k, valid⟩
    rw [request_none none_, oIcbCmdValid_none none_]
    rfl

theorem oIcb_icbCmd : icbCmd (oIcb fifo s i o) o = (request fifo s i o).map Prod.snd :=
  handed_on fun _ first => IcbCmd.mux_eq first.sel _

theorem enters_eq :
    handshake (rspidFifoWen fifo s i o) (fifo.iRdy s (rspidFifoRen fifo s i o))
      (iArbtIndicId w i) = (request fifo s i o).map fun x => unsigned w x.1 := by
  unfold rspidFifoWen
  by_cases some_ : ∃ k, (i k).cmdValid = true
  · obtain ⟨j, valid⟩ := some_
    obtain ⟨k, first⟩ := exists_first valid
    rw [request_first first, map_handshake, oIcbCmdValid_first first, iArbtIndicId,
      orMux_eq first.sel]
    unfold rspidFifoFull handshake
    cases fifo.iRdy s (rspidFifoRen fifo s i o) <;> cases o.cmdReady <;> rfl
  · have none_ (k : Fin n) : (i k).cmdValid = false :=
      Bool.eq_false_iff.mpr fun valid => some_ ⟨k, valid⟩
    rw [request_none none_, oIcbCmdValid_none none_]
    rfl

section Held

variable (fits : n ≤ 2 ^ w)

include fits

theorem unsigned_eq_iff {j k : Fin n} : (unsigned w k).toNat = j.val ↔ j = k := by
  unfold unsigned
  rw [BitVec.toNat_ofNat, Nat.mod_eq_of_lt (k.isLt.trans_le fits), Fin.ext_iff]
  exact eq_comm

variable {q : List (Fin n)} (holds : fifo.Holds s (q.map (unsigned w)))

include holds

theorem iIcb_rspValid (k : Fin n) :
    (iIcb fifo s i o k).rspValid = (o.rspValid && decide (q.head? = some k)) := by
  show (oIcbRspValidPre fifo s o && decide ((oIcbRspPortId fifo s).toNat = k.val)) = _
  unfold oIcbRspValidPre oIcbRspPortId rspidFifoEmpty
  rw [fifo.oVld_eq holds]
  cases q with
  | nil => simp
  | cons j q =>
      have here : decide ((unsigned w j).toNat = k.val) = decide (some j = some k) :=
        decide_eq_decide.mpr ((unsigned_eq_iff fits).trans (eq_comm.trans Option.some_inj.symm))
      rw [fifo.oDat_eq holds, List.head?_cons, ← here]
      rfl

theorem response_eq : response fifo s i o =
    q.head?.bind fun k => handshake o.rspValid (i k).rspReady (k, o.rsp) := by
  unfold response
  cases q with
  | nil =>
      refine handed_eq_none fun k => ?_
      rw [iIcb_rspValid fits holds]
      simp
  | cons k q =>
      have ports (j : Fin n) :
          (iIcb fifo s i o j).rspValid = (o.rspValid && decide (k = j)) := by
        rw [iIcb_rspValid fits holds]
        exact congrArg _ (decide_eq_decide.mpr Option.some_inj)
      rw [List.head?_cons, Option.bind_some]
      unfold handshake
      split_ifs with taken
      · refine handed_eq_some (k := k) ?_ fun j here => ?_
        · rw [ports, decide_eq_true rfl, Bool.and_true]
          exact taken
        · rw [ports] at here
          simp only [Bool.and_eq_true, decide_eq_true_eq] at here
          exact here.1.2.symm
      · refine handed_eq_none fun j => Bool.eq_false_iff.mpr fun here => taken ?_
        rw [ports] at here
        simp only [Bool.and_eq_true, decide_eq_true_eq] at here
        obtain ⟨⟨offered, rfl⟩, ready⟩ := here
        rw [offered, ready]
        rfl

theorem oIcbRspReady_eq :
    oIcbRspReady fifo s i = (q.head?.map fun k => (i k).rspReady).getD false := by
  have valid := fifo.oVld_eq holds
  unfold oIcbRspReady oIcbRspPortId rspidFifoEmpty
  cases q with
  | nil =>
      rw [valid]
      rfl
  | cons k q =>
      have only (j : Fin n) : decide ((unsigned w k).toNat = j.val) = decide (j = k) :=
        decide_eq_decide.mpr (unsigned_eq_iff fits)
      rw [valid, fifo.oDat_eq holds]
      rw [List.head?_cons, Option.map_some, Option.getD_some]
      exact anyMux_eq only _

theorem oIcb_icbRsp : icbRsp (oIcb fifo s i o) o = (response fifo s i o).map Prod.snd := by
  show handshake o.rspValid (oIcbRspReady fifo s i) o.rsp = _
  rw [response_eq fits holds, oIcbRspReady_eq fits holds]
  cases q with
  | nil =>
      rw [List.head?_nil, Option.map_none, Option.bind_none]
      unfold handshake
      rw [Option.getD_none, Bool.and_false]
      rfl
  | cons k q =>
      rw [List.head?_cons, Option.map_some, Option.bind_some, Option.getD_some, map_handshake]

theorem leaves_eq : (response fifo s i o).map Prod.fst =
    if fifo.oVld s && rspidFifoRen fifo s i o then q.head? else none := by
  rw [response_eq fits holds, fifo.oVld_eq holds, rspidFifoRen, oIcbRspReady_eq fits holds]
  cases q with
  | nil => rfl
  | cons k q =>
      rw [List.head?_cons, Option.map_some, Option.bind_some, Option.getD_some, map_handshake]
      rfl

theorem response_fst : (response fifo s i o).map Prod.fst =
    if (response fifo s i o).isSome then q.head? else none := by
  rw [response_eq fits holds]
  cases q with
  | nil => rfl
  | cons k q =>
      rw [List.head?_cons, Option.bind_some]
      unfold handshake
      split_ifs <;> simp_all

theorem step_holds : fifo.Holds (step fifo s i o) ((queueNext q (response fifo s i o).isSome
    ((request fifo s i o).map Prod.fst)).map (unsigned w)) := by
  have stepped := fifo.step_holds holds (rspidFifoWen fifo s i o) (iArbtIndicId w i)
    (rspidFifoRen fifo s i o)
  have leaves := leaves_eq fits holds (i := i) (o := o)
  have taken : queueNext q (response fifo s i o).isSome ((request fifo s i o).map Prod.fst) =
      queueNext q (fifo.oVld s && rspidFifoRen fifo s i o)
        ((request fifo s i o).map Prod.fst) := by
    rw [← Option.isSome_map (f := Prod.fst), leaves, fifo.oVld_eq holds]
    cases q with
    | nil => simp [queueNext]
    | cons k q => cases rspidFifoRen fifo s i o <;> rfl
  rw [enters_eq] at stepped
  rw [taken, map_queueNext, Option.map_map]
  exact stepped

end Held

section Run

variable {fifo : QueueCircuit (BitVec w)} {s : Nat → fifo.State} {i : Nat → Fin n → IcbDown}
  {o : Nat → IcbUp} (trace : ∀ t, s (t + 1) = step fifo (s t) (i t) (o t))
  (initial : fifo.IsReset (s 0))

include trace initial

theorem exists_ports (fits : n ≤ 2 ^ w) : ∃ q : Nat → List (Fin n), q 0 = [] ∧
    (∀ t, fifo.Holds (s t) ((q t).map (unsigned w))) ∧
    ∀ t, q (t + 1) = queueNext (q t) (response fifo (s t) (i t) (o t)).isSome
      ((request fifo (s t) (i t) (o t)).map Prod.fst) := by
  let next (t : Nat) (q : List (Fin n)) : List (Fin n) :=
    queueNext q (response fifo (s t) (i t) (o t)).isSome
      ((request fifo (s t) (i t) (o t)).map Prod.fst)
  let q : Nat → List (Fin n) := fun t => Nat.rec [] next t
  refine ⟨q, rfl, fun t => ?_, fun t => rfl⟩
  induction t with
  | zero => exact fifo.holds_reset initial
  | succ t held =>
      rw [trace t]
      exact step_holds fits held

/-- Behind the arbiter a service serves all the ports, one command at a time, and the
response to a command goes to the port it came from. The service may also see the port. -/
theorem serves_own (fits : n ≤ 2 ^ w) {σ α : Type} {serve : σ → α → σ × IcbRsp} {start : σ}
    {own : Fin n × IcbCmd → α}
    (served : Serves serve start (fun t => (request fifo (s t) (i t) (o t)).map own)
      fun t => icbRsp (oIcb fifo (s t) (i t) (o t)) (o t)) :
    Serves (tagged serve) start
      (fun t => (request fifo (s t) (i t) (o t)).map fun x => (x.1, own x))
      fun t => response fifo (s t) (i t) (o t) := by
  obtain ⟨q, empty, holds, next⟩ := exists_ports trace initial fits
  refine Serves.tagged ?_ fun m => ?_
  · simpa only [Option.map_map, Function.comp_def, oIcb_icbRsp fits (holds _)] using served
  · simp only [Option.map_map, Function.comp_def]
    refine events_isPrefix ((conserved_iff empty).mpr fun t => ?_) m
    show ((response _ _ _ _).map Prod.fst).toList ++ _ = _
    rw [next t, response_fst fits (holds t)]
    exact head_append_queueNext _ _ _

theorem serves (fits : n ≤ 2 ^ w) {service : IcbService}
    (served : service.At (fun t => oIcb fifo (s t) (i t) (o t)) o) :
    Serves (tagged service.serve) service.start (fun t => request fifo (s t) (i t) (o t))
      fun t => response fifo (s t) (i t) (o t) := by
  unfold IcbService.At at served
  simp only [oIcb_icbCmd] at served
  have whole := serves_own trace initial fits served
  simpa only [Prod.mk.eta, Option.map_id'] using whole

/-- At its ports a service behind the arbiter is an atomic one, for any number of ports. -/
theorem arbitrates (fits : n ≤ 2 ^ w) {service : IcbService}
    (served : service.At (fun t => oIcb fifo (s t) (i t) (o t)) o) :
    service.Linearizes (fun t => request fifo (s t) (i t) (o t)) i
      fun t => iIcb fifo (s t) (i t) (o t) :=
  .of_serves (serves trace initial fits served) (fun k _ => bind_request k)
    fun k _ => bind_response k

end Run

/-! Two ports in front of the SRAM controller: one reads in every cycle, the other writes. -/

theorem portFifo_pos : 0 < 4 := by decide

def portFifo : QueueCircuit (BitVec 1) :=
  SirvGnrlFifo.circuit 4 1 portFifo_pos true

def readerWriter (k : Fin 2) : IcbDown where
  cmdValid := true
  cmd := { read := decide (k.val = 0), addr := 0x40000000, wdata := 7, wmask := 0xf }
  rspReady := true

def onSram : Nat → portFifo.State × SirvSramIcbCtrl.State :=
  run (fun s i => (step portFifo s.1 i (SirvSramIcbCtrl.iIcb s.2),
      SirvSramIcbCtrl.step s.2 (oIcb portFifo s.1 i (SirvSramIcbCtrl.iIcb s.2))))
    ((SirvGnrlFifo.reset : SirvGnrlFifo.State 4 1), SirvSramIcbCtrl.reset)
    fun _ => readerWriter

theorem arbitrates_onSram :
    (SirvSramIcbCtrl.sramService SirvSramIcbCtrl.reset.ram).Linearizes
      (fun t => request portFifo (onSram t).1 readerWriter (SirvSramIcbCtrl.iIcb (onSram t).2))
      (fun _ => readerWriter)
      fun t => iIcb portFifo (onSram t).1 readerWriter (SirvSramIcbCtrl.iIcb (onSram t).2) :=
  arbitrates (s := fun t => (onSram t).1) (i := fun _ => readerWriter)
    (o := fun t => SirvSramIcbCtrl.iIcb (onSram t).2) (fun _ => rfl)
    SirvGnrlFifo.isReset_reset (by decide)
    (SirvSramIcbCtrl.at_ (s := fun t => (onSram t).2) (fun _ => rfl)
      SirvSramIcbCtrl.isReset_reset)

end SirvGnrlIcbArbt

end RepVGGAcc
