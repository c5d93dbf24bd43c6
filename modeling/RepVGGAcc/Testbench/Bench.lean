import RepVGGAcc.System.Commands
import RepVGGAcc.System.Contents
import RepVGGAcc.Testbench.AccInitialize

/-! `acc_tb.sv`: the accelerator between the driver of its two ports, the monitor and the
scoreboard. -/

namespace RepVGGAcc

open Clocked

/-- `scoreboard` of `scoreboard_pkg.sv`. -/
structure Scoreboard where
  ref2scb : List (BitVec 32)
  mon2scb : List (BitVec 32)
  successCnt : Nat
  failureCnt : Nat
  /-- The loop of `run` has not been left. -/
  running : Bool
  deriving DecidableEq, Repr

namespace Scoreboard

def new (ref2scb : List (BitVec 32)) : Scoreboard where
  ref2scb := ref2scb
  mon2scb := []
  successCnt := 0
  failureCnt := 0
  running := true

/-- A turn of the loop, on the event `e_check`. -/
def check (s : Scoreboard) : Scoreboard :=
  match s.ref2scb, s.mon2scb with
  | refout :: ref2scb, monout :: mon2scb =>
      if refout = monout then
        { s with ref2scb := ref2scb, mon2scb := mon2scb, successCnt := s.successCnt + 1 }
      else { s with ref2scb := ref2scb, mon2scb := mon2scb, failureCnt := s.failureCnt + 1 }
  | [], [] => { s with running := false }
  | _, _ => s

/-- The monitor puts the data of a write command into the mailbox and raises `e_check`. -/
def monitor (s : Scoreboard) : Option BusUnits.Command → Scoreboard
  | none => s
  | some command =>
      let put := { s with mon2scb := s.mon2scb ++ [command.wdata] }
      if put.running then check put else put

theorem monitor_none (s : Scoreboard) : monitor s none = s :=
  rfl

def compared (size : Nat) (golden word : Nat → BitVec 32) (n : Nat) : Scoreboard where
  ref2scb := ((List.range size).map golden).drop n
  mon2scb := []
  successCnt := (List.range n).countP fun k => golden k == word k
  failureCnt := (List.range n).countP fun k => golden k != word k
  running := true

theorem compared_zero (size : Nat) (golden word : Nat → BitVec 32) :
    compared size golden word 0 = new ((List.range size).map golden) := by
  unfold compared new
  rw [List.drop_zero]
  rfl

theorem monitor_compared {size n : Nat} {golden word : Nat → BitVec 32} (more : n < size)
    {command : BusUnits.Command} (data : command.wdata = word n) :
    monitor (compared size golden word n) (some command) = compared size golden word (n + 1) := by
  have split : ((List.range size).map golden).drop n =
      golden n :: ((List.range size).map golden).drop (n + 1) := by
    rw [List.drop_eq_getElem_cons (by simpa using more), List.getElem_map, List.getElem_range]
  unfold monitor check compared
  simp only [split, List.nil_append, data, if_true, List.range_succ, List.countP_append,
    List.countP_singleton]
  by_cases same : golden n = word n
  · simp [same]
  · simp [same]

theorem compared_all {size : Nat} {golden word : Nat → BitVec 32}
    (same : ∀ k < size, golden k = word k) : compared size golden word size =
      { ref2scb := [], mon2scb := [], successCnt := size, failureCnt := 0, running := true } := by
  have agree (k : Nat) (member : k ∈ List.range size) : golden k = word k :=
    same k (List.mem_range.mp member)
  have rest : ((List.range size).map golden).drop size = [] :=
    List.drop_eq_nil_of_le (by rw [List.length_map, List.length_range])
  have success : (List.range size).countP (fun k => golden k == word k) = size := by
    rw [List.countP_eq_length.mpr fun k member => beq_iff_eq.mpr (agree k member),
      List.length_range]
  have failure : (List.range size).countP (fun k => golden k != word k) = 0 :=
    List.countP_eq_zero.mpr fun k member => by simpa using agree k member
  rw [compared, rest, success, failure]

end Scoreboard

namespace RepvggAccTop

theorem step_ungranted {s : State} (ungranted : s.bus.icbMaster.state = .none) (i : Input) :
    step s i = step s { i with accIcbCmdReady := true, accIcbRspValid := false } := by
  have unseen {unit : IcbMaster.Grant} (some_ : unit ≠ .none) (rsp : Bool) :
      IcbMaster.rspVld s.bus.icbMaster unit rsp = false := by
    unfold IcbMaster.rspVld
    rw [ungranted, beq_eq_false_iff_ne.mpr some_.symm]
    rfl
  have weight : weightBiuInput s i =
      weightBiuInput s { i with accIcbCmdReady := true, accIcbRspValid := false } := by
    unfold weightBiuInput BusUnits.weightInput IcbMaster.rspData
    simp only [unseen (by decide : IcbMaster.Grant.weight ≠ .none)]
    rfl
  have imap : imapBiuInput s i =
      imapBiuInput s { i with accIcbCmdReady := true, accIcbRspValid := false } := by
    unfold imapBiuInput BusUnits.imapInput IcbMaster.rspData
    simp only [unseen (by decide : IcbMaster.Grant.imap ≠ .none)]
    rfl
  have omap : BusUnits.omapInput s.bus (busInput s i) = BusUnits.omapInput s.bus
      (busInput s { i with accIcbCmdReady := true, accIcbRspValid := false }) := by
    unfold BusUnits.omapInput
    simp only [unseen (by decide : IcbMaster.Grant.omap ≠ .none)]
    rfl
  have mac : macInput s i =
      macInput s { i with accIcbCmdReady := true, accIcbRspValid := false } := by
    unfold macInput
    rw [weight]
  have buf : imapBufInput s i =
      imapBufInput s { i with accIcbCmdReady := true, accIcbRspValid := false } := by
    unfold imapBufInput
    rw [imap, mac]
  have bus : BusUnits.step s.bus (busInput s i) = BusUnits.step s.bus
      (busInput s { i with accIcbCmdReady := true, accIcbRspValid := false }) := by
    unfold BusUnits.step
    rw [← weightBiuInput, ← imapBiuInput, weight, imap, omap]
    rfl
  unfold step
  rw [bus, buf, mac]
  rfl

end RepvggAccTop

namespace Bench

open RepvggAccTop (FirstRun accepts command outputWord writeCommand)

/-- What stands on the bus port before `run` of the driver has assigned it. -/
structure Undriven where
  icbCmdReady : Nat → Bool
  icbRspValid : Nat → Bool
  icbRspRdata : BitVec 32

structure State where
  top : RepvggAccTop.State
  master : IcbDriver.Master
  /-- Nothing before the first turn of the loop in `run`. -/
  icbRspValid : Option Bool
  icbRspRdata : BitVec 32
  scoreboard : Scoreboard

/-- The driver serves the bus port once the last call of `write_reg` has returned. -/
def serves (s : State) : Bool :=
  s.master.calls.isEmpty

def input (undriven : Undriven) (t : Nat) (s : State) : RepvggAccTop.Input where
  icbCmdValid := s.master.icbCmdValid
  icbCmdRead := false
  icbCmdAddr := s.master.icbCmdAddr
  icbCmdWdata := s.master.icbCmdWdata
  icbRspReady := s.master.icbRspReady
  accIcbCmdReady := if serves s then true else undriven.icbCmdReady t
  accIcbRspValid := s.icbRspValid.getD (undriven.icbRspValid t)
  accIcbRspRdata := s.icbRspRdata

def step (driver : IcbDriver.State) (s : State) (i : RepvggAccTop.Input) : State where
  top := RepvggAccTop.step s.top i
  master := IcbDriver.writeReg s.master s.top.icbSlave.icbCmdReady
  icbRspValid := if serves s then some (accepts s.top i) else s.icbRspValid
  icbRspRdata :=
    if serves s && accepts s.top i && (command s.top i).read then
      IcbDriver.rdata driver (command s.top i).addr s.icbRspRdata
    else s.icbRspRdata
  scoreboard := s.scoreboard.monitor (writeCommand s.top i)

/-- The first clock edge after `rst_n` at which `env.run` has begun: the generator has filled
both mailboxes, and the model has emptied its own. -/
def start (x : Stimulus) (undriven : Undriven) (top : RepvggAccTop.State)
    (model : RefModel.State) : State where
  top := top
  master := {
    calls := IcbDriver.calls
    icbCmdValid := false
    icbCmdAddr := 0
    icbCmdWdata := 0
    icbRspReady := false }
  icbRspValid := none
  icbRspRdata := undriven.icbRspRdata
  scoreboard := .new
    (RefModel.sendOutput (RefModel.mac (RefModel.getData (RefModel.new model) x.genConvdata)))

section Run

variable (x : Stimulus) (undriven : Undriven) (top : RepvggAccTop.State) (model : RefModel.State)

def driver : IcbDriver.State :=
  IcbDriver.storeData x.genConvdata

def run : Nat → State :=
  closedRun (step (driver x)) (input undriven) (start x undriven top model)

def dut (t : Nat) : RepvggAccTop.State :=
  (run x undriven top model t).top

def dutInput (t : Nat) : RepvggAccTop.Input :=
  input undriven t (run x undriven top model t)

variable {x undriven top model}

theorem initializes (x : Stimulus) (undriven : Undriven) (model : RefModel.State)
    (reset : RepvggAccTop.IsReset top) :
    IcbDriver.Initializes (fun t => (run x undriven top model t).master)
      (fun t => (dut x undriven top model t).icbSlave)
      (fun t => (dut x undriven top model t).mainFsm.accDone) where
  called := rfl
  silent := rfl
  initial := reset.icbSlave
  master := fun _ => rfl
  slave := fun _ => rfl

theorem serves_run (reset : RepvggAccTop.IsReset top) {t : Nat} (through : 24 ≤ t) :
    serves (run x undriven top model t) = true := by
  obtain ⟨n, rfl⟩ := Nat.exists_eq_add_of_le through
  exact List.isEmpty_iff.mpr ((initializes x undriven model reset).settled n).1

theorem settled (reset : RepvggAccTop.IsReset top) {t : Nat} (started : 24 ≤ t) :
    IcbDriver.accInitialize.HeldBy (dut x undriven top model t) := by
  obtain ⟨n, rfl⟩ := Nat.exists_eq_add_of_le started
  obtain ⟨-, -, inAddr, w3Addr, w1Addr, outAddr, -⟩ :=
    (initializes x undriven model reset).settled n
  exact ⟨inAddr, w3Addr, w1Addr, outAddr⟩

theorem start_eq (reset : RepvggAccTop.IsReset top) {t : Nat} (other : t ≠ 24) :
    (dut x undriven top model t).icbSlave.start = 0 := by
  by_cases early : t < 24
  · exact (initializes x undriven model reset).start_early early
  · obtain ⟨n, rfl⟩ := Nat.exists_eq_add_of_le (by omega : 24 ≤ t)
    obtain ⟨-, -, -, -, -, -, start⟩ :=
      (initializes x undriven model reset).settled n
    exact start.trans (if_neg (by omega))

theorem shows_rest (reset : RepvggAccTop.IsReset top) {t : Nat} (early : t ≤ 24) :
    RepvggAccTop.Shows (Control.rest MainFsm.reset) (dut x undriven top model t) := by
  induction t with
  | zero => exact RepvggAccTop.shows_reset reset
  | succ t held =>
      have before := held (by omega)
      have next := before.step (i := dutInput x undriven top model t)
        ⟨fun piped => absurd piped Bool.false_ne_true, Burst.fits_rest rfl, Burst.fits_rest rfl⟩
      rw [start_eq reset (by omega)] at next
      have rested := Control.next_rest
      exact rested ▸ next

/-- The inputs of the accelerator, with the idle levels on the bus port until the first turn of
the loop in `run` has come through. -/
def drivenInput (x : Stimulus) (undriven : Undriven) (top : RepvggAccTop.State)
    (model : RefModel.State) (t : Nat) : RepvggAccTop.Input :=
  if t ≤ 24 then
    { dutInput x undriven top model t with accIcbCmdReady := true, accIcbRspValid := false }
  else dutInput x undriven top model t

theorem drivenInput_late {t : Nat} (late : 24 < t) :
    drivenInput x undriven top model t = dutInput x undriven top model t :=
  if_neg (by omega)

theorem accIcbCmdReady_driven (reset : RepvggAccTop.IsReset top) (t : Nat) :
    (drivenInput x undriven top model t).accIcbCmdReady = true := by
  unfold drivenInput
  split_ifs with early
  · rfl
  · show (if serves (run x undriven top model t) then true else _) = true
    rw [serves_run reset (by omega), if_pos rfl]

theorem accepts_driven (reset : RepvggAccTop.IsReset top) (t : Nat) :
    accepts (dut x undriven top model t) (dutInput x undriven top model t) =
      accepts (dut x undriven top model t) (drivenInput x undriven top model t) := by
  by_cases early : t ≤ 24
  · have silent : BusUnits.accIcbCmdValid (dut x undriven top model t).bus = false := by
      rw [(shows_rest reset early).accIcbCmdValid]
      rfl
    unfold accepts
    rw [silent]
    rfl
  · rw [drivenInput_late (by omega)]

theorem command_driven (t : Nat) :
    command (dut x undriven top model t) (dutInput x undriven top model t) =
      command (dut x undriven top model t) (drivenInput x undriven top model t) := by
  unfold drivenInput
  split_ifs <;> rfl

theorem writeCommand_driven (reset : RepvggAccTop.IsReset top) (t : Nat) :
    writeCommand (dut x undriven top model t) (dutInput x undriven top model t) =
      writeCommand (dut x undriven top model t) (drivenInput x undriven top model t) := by
  unfold writeCommand
  rw [accepts_driven reset, command_driven]

/-- The accelerator is started once, in cycle 24, and the driver is a memory that answers in the
next cycle. -/
theorem firstRun (x : Stimulus) (undriven : Undriven) (model : RefModel.State)
    (reset : RepvggAccTop.IsReset top) (stop : Nat) :
    FirstRun 1 24 stop (dut x undriven top model) (drivenInput x undriven top model) where
  trace := fun t => by
    by_cases early : t ≤ 24
    · have ungranted : (dut x undriven top model t).bus.icbMaster.state = .none := by
        rw [(shows_rest reset early).grant]
        rfl
      rw [drivenInput, if_pos early, ← RepvggAccTop.step_ungranted ungranted]
      rfl
    · rw [drivenInput_late (by omega)]
      rfl
  initial := reset
  ready := accIcbCmdReady_driven reset
  silent := fun t first => by
    rw [drivenInput, if_pos (by omega)]
  answered := fun t => by
    by_cases early : t + 1 ≤ 24
    · have silent : BusUnits.accIcbCmdValid (dut x undriven top model t).bus = false := by
        rw [(shows_rest reset (by omega)).accIcbCmdValid]
        rfl
      rw [drivenInput, if_pos early, accepts, silent]
      rfl
    · rw [drivenInput_late (by omega), ← accepts_driven reset]
      show (if serves (run x undriven top model t) then some _ else _).getD _ = _
      rw [serves_run reset (by omega), if_pos rfl]
      rfl
  starts := by
    obtain ⟨-, -, -, -, -, -, start⟩ :=
      (initializes x undriven model reset).settled 0
    have started : (dut x undriven top model 24).icbSlave.start = 1 := start
    rw [started]
    rfl
  once := fun t _ other _ => by
    rw [start_eq reset other]
    rfl

theorem answers (reset : RepvggAccTop.IsReset top) :
    RepvggAccTop.Answers (IcbDriver.memory (driver x)) (dut x undriven top model)
      (drivenInput x undriven top model) 1 := by
  intro t accepted read
  have run := firstRun x undriven model reset t
  have valid : BusUnits.accIcbCmdValid (dut x undriven top model t).bus = true :=
    (Bool.and_eq_true_iff.mp accepted).1
  have held : ∀ u, 24 ≤ u → u ≤ t →
      IcbDriver.accInitialize.HeldBy (dut x undriven top model u) :=
    fun _ started _ => settled reset started
  have begun := run.begun_of_cmdValid (by decide) (by decide) le_rfl valid
  have input : IcbDriver.accInitialize.IsInput
      (command (dut x undriven top model t) (drivenInput x undriven top model t)).addr := by
    cases run.command_within (by decide) (by decide) held le_rfl valid with
    | read _ input => exact input
    | write write => exact absurd (write.symm.trans read) Bool.false_ne_true
  rw [run.word_contents (by decide) (by decide) held IcbDriver.regions_accInitialize input
    (by omega), drivenInput_late (by omega)]
  rw [← accepts_driven reset] at accepted
  rw [← command_driven] at read input ⊢
  have answer : (dutInput x undriven top model (t + 1)).accIcbRspRdata = if
      serves (Bench.run x undriven top model t) &&
        accepts (dut x undriven top model t) (dutInput x undriven top model t) &&
          (command (dut x undriven top model t) (dutInput x undriven top model t)).read then
      IcbDriver.rdata (driver x)
        (command (dut x undriven top model t) (dutInput x undriven top model t)).addr
        (Bench.run x undriven top model t).icbRspRdata
    else (Bench.run x undriven top model t).icbRspRdata := rfl
  rw [serves_run reset (by omega), accepted, read] at answer
  exact answer.trans (IcbDriver.rdata_input _ input _)

/-- The words that the driver's arrays make the accelerator write. -/
def word (x : Stimulus) (k : Nat) : BitVec 32 :=
  outputWord IcbDriver.accInitialize (IcbDriver.memory (driver x)) k

theorem scoreboard_zero : (run x undriven top model 0).scoreboard = .new (RefModel.sendOutput
    (RefModel.mac (RefModel.getData (RefModel.new model) x.genConvdata))) := by
  show (start x undriven top model).scoreboard = _
  rw [start]

theorem scoreboard_succ (t : Nat) : (run x undriven top model (t + 1)).scoreboard =
    (run x undriven top model t).scoreboard.monitor
      (writeCommand (dut x undriven top model t) (dutInput x undriven top model t)) :=
  rfl

theorem scoreboard_eq (reset : RepvggAccTop.IsReset top) (t : Nat) :
    (run x undriven top model t).scoreboard =
      .compared 200704 x.golden (word x) (Control.written 1 (t - 24)) := by
  induction t with
  | zero =>
      rw [Nat.zero_sub, Control.written_early (Nat.zero_le _), Scoreboard.compared_zero,
        ← Stimulus.sendOutput_golden x model, scoreboard_zero]
  | succ t held =>
      have written := (firstRun x undriven model reset t).writeCommand_written (by decide) (by decide)
        (fun _ started _ => settled reset started) IcbDriver.regions_accInitialize
        (answers reset) le_rfl
      rw [scoreboard_succ, held, writeCommand_driven reset, written]
      by_cases begun : 24 ≤ t
      · have next := Control.written_succ (L := 1) (by decide) (t - 24)
        rw [show t + 1 - 24 = t - 24 + 1 by omega, next]
        cases writing : (Control.timeline 1 (t - 24)).omapPipe with
        | true =>
            rw [if_pos rfl, Bool.toNat_true]
            exact Scoreboard.monitor_compared (Control.written_lt (by decide) writing) rfl
        | false =>
            rw [if_neg Bool.false_ne_true, Bool.toNat_false, Nat.add_zero,
              Scoreboard.monitor_none]
      · rw [show t - 24 = 0 by omega, (Control.omapPipe_early (by decide) (Nat.zero_le _)).1,
          show t + 1 - 24 = 0 by omega, if_neg Bool.false_ne_true, Scoreboard.monitor_none]

end Run

end Bench

end RepVGGAcc
