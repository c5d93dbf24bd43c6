import RepVGGAcc.System.Memory
import RepVGGAcc.Bus.Commands
import Mathlib.Tactic.IntervalCases

/-! The accelerator in a system: the driver's calls of `acc_config` and `acc_start` on
its register port, a memory that answers in the next cycle on its bus port. -/

namespace RepVGGAcc

open Clocked

namespace System

open IcbSlave (inAddrAddr w3AddrAddr w1AddrAddr outAddrAddr mapsizeAddr ichAddr ochAddr startAddr)

/-- `IMAP_OFFSET`, `W3_OFFSET`, `W1_OFFSET` and `OMAP_OFFSET` of the test program. -/
def offsets : Settings where
  inAddr := 0x0
  w3Addr := 0x40000
  w1Addr := 0x50000
  outAddr := 0x60000

/-- The register writes of `acc_config`, then that of `acc_start`. -/
def registerWrites (settings : Settings) : List (BitVec 12 × BitVec 32) :=
  [(inAddrAddr, settings.inAddr), (w3AddrAddr, settings.w3Addr),
    (w1AddrAddr, settings.w1Addr), (outAddrAddr, settings.outAddr), (mapsizeAddr, 56),
    (ichAddr, 64), (ochAddr, 64), (startAddr, 1)]

/-- A write takes two cycles: the register port accepts it in the second one. -/
def driver (settings : Settings) (t : Nat) (accDone : Bool) : IcbSlave.Input where
  icbCmdValid := decide (t < 16)
  icbCmdRead := false
  icbCmdAddr := ((registerWrites settings).getD (t / 2) (0, 0)).1.setWidth 32
  icbCmdWdata := ((registerWrites settings).getD (t / 2) (0, 0)).2
  icbRspReady := true
  accDone := accDone

structure State where
  top : RepvggAccTop.State
  memory : Memory
  /-- The answer to the command of the last cycle. -/
  rspValid : Bool
  rspRdata : BitVec 32

def input (settings : Settings) (t : Nat) (s : State) : RepvggAccTop.Input :=
  let cfg := driver settings t false
  { icbCmdValid := cfg.icbCmdValid
    icbCmdRead := cfg.icbCmdRead
    icbCmdAddr := cfg.icbCmdAddr
    icbCmdWdata := cfg.icbCmdWdata
    icbRspReady := cfg.icbRspReady
    accIcbCmdReady := true
    accIcbRspValid := s.rspValid
    accIcbRspRdata := s.rspRdata }

def step (s : State) (i : RepvggAccTop.Input) : State where
  top := RepvggAccTop.step s.top i
  memory := s.memory.after (RepvggAccTop.writeCommand s.top i)
  rspValid := RepvggAccTop.accepts s.top i
  rspRdata := s.memory.word (RepvggAccTop.command s.top i).addr

/-- A state of the accelerator after `rst_n`, with cleared memories. -/
def resetTop : RepvggAccTop.State where
  icbSlave := IcbSlave.reset
  mainFsm := MainFsm.reset
  bus := BusUnits.resetUnits
  imapBuf := { imapSramBuf := fun _ => ⟨fun _ => 0, 0⟩, sramCsD := fun _ => false }
  macArray := MacArray.reset
  psumAcc := {
    psumAccVldOut := false
    dataD := 0
    identitySelD := false
    psumSramBuf := ⟨fun _ => 0, 0⟩
    pipe := ⟨false, 0⟩ }
  mapMerger := ⟨⟨false, 0⟩⟩

theorem isReset_resetTop : RepvggAccTop.IsReset resetTop where
  icbSlave := rfl
  mainFsm := rfl
  bus := BusUnits.isReset_resetUnits
  imapBuf := rfl
  macArray := rfl
  psumAcc := ⟨rfl, rfl, rfl, rfl⟩
  mapMerger := rfl

section Run

variable (settings : Settings) (memory : Memory)

def run : Nat → State :=
  closedRun step (input settings)
    { top := resetTop, memory := memory, rspValid := false, rspRdata := 0 }

def top (t : Nat) : RepvggAccTop.State :=
  (run settings memory t).top

def topInput (t : Nat) : RepvggAccTop.Input :=
  input settings t (run settings memory t)

theorem trace_top :
    IsTrace RepvggAccTop.step (top settings memory) (topInput settings memory) :=
  fun _ => rfl

theorem slave_succ (t : Nat) :
    (top settings memory (t + 1)).icbSlave =
      IcbSlave.step (top settings memory t).icbSlave
        (driver settings t (top settings memory t).mainFsm.accDone) :=
  rfl

/-- The write the driver holds in cycle `t`. -/
def entry (k : Nat) : BitVec 12 × BitVec 32 :=
  (registerWrites settings).getD k (0, 0)

structure Written (k : Nat) (s : IcbSlave.State) : Prop where
  ready : s.icbCmdReady = false
  inAddr : s.inAddr = if 1 ≤ k then settings.inAddr else 0
  w3Addr : s.w3Addr = if 2 ≤ k then settings.w3Addr else 0
  w1Addr : s.w1Addr = if 3 ≤ k then settings.w1Addr else 0
  outAddr : s.outAddr = if 4 ≤ k then settings.outAddr else 0
  start : s.start = if 8 ≤ k then 1 else 0

variable {settings}

theorem regAddr_driver (t : Nat) (accDone : Bool) :
    IcbSlave.regAddr (driver settings t accDone) = (entry settings (t / 2)).1 :=
  BitVec.eq_of_toNat_eq (by
    simp [IcbSlave.regAddr, driver, entry]
    omega)

theorem Written.raise {k : Nat} {s : IcbSlave.State} (written : Written settings k s)
    (more : k < 8) (accDone : Bool) :
    let s' := IcbSlave.step s (driver settings (2 * k) accDone)
    s'.icbCmdReady = true ∧ s'.inAddr = s.inAddr ∧ s'.w3Addr = s.w3Addr ∧
      s'.w1Addr = s.w1Addr ∧ s'.outAddr = s.outAddr ∧ s'.start = s.start := by
  have unstarted : s.start ≠ 1 := by
    rw [written.start, if_neg (by omega)]
    decide
  have valid : (driver settings (2 * k) accDone).icbCmdValid = true :=
    decide_eq_true (by omega)
  simp [IcbSlave.step, IcbSlave.written, IcbSlave.writes, IcbSlave.hdshk, written.ready, valid]
  exact fun started => absurd started unstarted

theorem Written.step {k : Nat} {s : IcbSlave.State} (written : Written settings k s)
    (more : k < 8) (done done' : Bool) :
    Written settings (k + 1) (IcbSlave.step (IcbSlave.step s (driver settings (2 * k) done))
      (driver settings (2 * k + 1) done')) := by
  obtain ⟨ready, inAddr, w3Addr, w1Addr, outAddr, start⟩ := written.raise more done
  generalize IcbSlave.step s (driver settings (2 * k) done) = raised at *
  rw [written.inAddr] at inAddr
  rw [written.w3Addr] at w3Addr
  rw [written.w1Addr] at w1Addr
  rw [written.outAddr] at outAddr
  rw [written.start] at start
  have accepted : IcbSlave.hdshk raised (driver settings (2 * k + 1) done') = true := by
    unfold IcbSlave.hdshk
    rw [ready, Bool.and_true]
    exact decide_eq_true (by omega)
  have writes (reg : BitVec 12) : IcbSlave.writes raised (driver settings (2 * k + 1) done') reg =
      ((entry settings k).1 == reg) := by
    unfold IcbSlave.writes
    rw [accepted, regAddr_driver, show (2 * k + 1) / 2 = k by omega]
    rfl
  have wdata : (driver settings (2 * k + 1) done').icbCmdWdata = (entry settings k).2 := by
    show (entry settings ((2 * k + 1) / 2)).2 = _
    rw [show (2 * k + 1) / 2 = k by omega]
  refine ⟨?_, ?_, ?_, ?_, ?_, ?_⟩
  · simp [IcbSlave.step, accepted]
  all_goals
    simp only [IcbSlave.step, IcbSlave.written, writes, wdata, inAddr, w3Addr, w1Addr, outAddr,
      start]
    interval_cases k <;> rfl

theorem writes_driver {t : Nat} (through : 16 ≤ t) (s : IcbSlave.State) (accDone : Bool)
    (reg : BitVec 12) : IcbSlave.writes s (driver settings t accDone) reg = false := by
  have silent : (driver settings t accDone).icbCmdValid = false := decide_eq_false (by omega)
  unfold IcbSlave.writes IcbSlave.hdshk
  rw [silent]
  rfl

/-- The driver programs the registers of the accelerator `s`. -/
structure Programs (settings : Settings) (s : Nat → RepvggAccTop.State) : Prop where
  initial : (s 0).icbSlave = IcbSlave.reset
  next : ∀ t, (s (t + 1)).icbSlave =
    IcbSlave.step (s t).icbSlave (driver settings t (s t).mainFsm.accDone)

namespace Programs

variable {s : Nat → RepvggAccTop.State} (programs : Programs settings s)

include programs

theorem written {k : Nat} (early : k ≤ 8) : Written settings k (s (2 * k)).icbSlave := by
  induction k with
  | zero =>
      rw [programs.initial]
      exact ⟨rfl, rfl, rfl, rfl, rfl, rfl⟩
  | succ k held =>
      show Written settings (k + 1) (s (2 * k + 1 + 1)).icbSlave
      rw [programs.next, programs.next]
      exact (held (by omega)).step (by omega) _ _

theorem registers (n : Nat) : settings.HeldBy (s (16 + n)) ∧
    (s (16 + n)).icbSlave.start = if n = 0 then 1 else 0 := by
  induction n with
  | zero =>
      have written := programs.written (k := 8) le_rfl
      exact ⟨⟨written.inAddr, written.w3Addr, written.w1Addr, written.outAddr⟩, written.start⟩
  | succ n held =>
      obtain ⟨registers, start⟩ := held
      have unwritten (slave : IcbSlave.State) (done : Bool) (reg : BitVec 12) :
          IcbSlave.writes slave (driver settings (16 + n) done) reg = false :=
        writes_driver (Nat.le_add_right 16 n) slave done reg
      have next : (s (16 + (n + 1))).icbSlave = _ := programs.next (16 + n)
      refine ⟨⟨?_, ?_, ?_, ?_⟩, ?_⟩
      all_goals
        rw [next]
        simp only [IcbSlave.step, IcbSlave.written, unwritten, Bool.false_eq_true, if_false]
      · exact registers.inAddr
      · exact registers.w3Addr
      · exact registers.w1Addr
      · exact registers.outAddr
      · rw [start]
        split_ifs <;> simp_all

theorem settled {t : Nat} (started : 16 ≤ t) : settings.HeldBy (s t) := by
  obtain ⟨n, rfl⟩ := Nat.exists_eq_add_of_le started
  exact (programs.registers n).1

theorem start_eq {t : Nat} (other : t ≠ 16) : (s t).icbSlave.start = 0 := by
  by_cases late : 16 < t
  · obtain ⟨n, rfl⟩ := Nat.exists_eq_add_of_le late.le
    rw [(programs.registers n).2, if_neg (by omega)]
  have written := programs.written (k := t / 2) (by omega)
  have unstarted := written.start
  rw [if_neg (by omega)] at unstarted
  rcases Nat.mod_two_eq_zero_or_one t with even | odd
  · rwa [show 2 * (t / 2) = t by omega] at unstarted
  · have raised := (written.raise (by omega) (s (2 * (t / 2))).mainFsm.accDone).2.2.2.2.2
    rw [← programs.next, show 2 * (t / 2) + 1 = t by omega] at raised
    rw [raised, unstarted]

end Programs

variable (settings)

theorem programs_top : Programs settings (top settings memory) :=
  ⟨rfl, slave_succ settings memory⟩

theorem writes_top {t : Nat} (through : 16 ≤ t) (reg : BitVec 12) :
    IcbSlave.writes (top settings memory t).icbSlave
      (RepvggAccTop.slaveInput (top settings memory t) (topInput settings memory t)) reg =
      false :=
  writes_driver through _ _ reg

theorem registers_top (n : Nat) :
    settings.HeldBy (top settings memory (16 + n)) ∧
      (top settings memory (16 + n)).icbSlave.start = if n = 0 then 1 else 0 :=
  (programs_top settings memory).registers n

theorem start_top {t : Nat} (other : t ≠ 16) : (top settings memory t).icbSlave.start = 0 :=
  (programs_top settings memory).start_eq other

/-- The program starts the accelerator once, in cycle 16. -/
theorem firstRun (stop : Nat) :
    RepvggAccTop.FirstRun 1 16 stop (top settings memory) (topInput settings memory) where
  trace := trace_top settings memory
  initial := isReset_resetTop
  ready := fun _ => rfl
  silent := fun t early => by
    obtain rfl : t = 0 := by omega
    rfl
  answered := fun _ => rfl
  starts := by rw [(registers_top settings memory 0).2]; rfl
  once := fun t _ other _ => by rw [start_top settings memory other]; rfl

theorem settled {t : Nat} (started : 16 ≤ t) : settings.HeldBy (top settings memory t) :=
  (programs_top settings memory).settled started

theorem memory_run (t : Nat) :
    (run settings memory t).memory =
      RepvggAccTop.contents memory (top settings memory) (topInput settings memory) t := by
  induction t with
  | zero => rfl
  | succ t held =>
      show (run settings memory t).memory.after _ = _
      rw [held]
      rfl

theorem answers :
    RepvggAccTop.Answers memory (top settings memory) (topInput settings memory) 1 :=
  fun t _ _ => by
    rw [← memory_run]
    rfl

end Run

end System

end RepVGGAcc
