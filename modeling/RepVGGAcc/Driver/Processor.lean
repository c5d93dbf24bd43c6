import RepVGGAcc.Driver.AccCfg
import RepVGGAcc.Rtl.IcbSlave
import RepVGGAcc.Rtl.MainFsm

/-! A processor that runs the driver against `icb_slave` and `main_fsm`. Its program
repeats `acc_config`, `acc_start` and then `check_acc_status` until that does not return 0;
each access may be put off for any number of cycles. -/

namespace RepVGGAcc.Driver

open AccCfg (Config Prog accCfg accConfig accStart checkAccStatus)

inductive Call
  | config
  | start
  | check
  deriving DecidableEq, Repr

/-- Before an access, with the command on the port, and waiting for the data of a load. -/
inductive Port
  | idle
  | asking
  | waiting
  deriving DecidableEq, Repr

structure Cpu where
  /-- The number of the pass through the loop. -/
  round : Nat
  call : Call
  rest : Prog
  port : Port

namespace Cpu

def cmdValid (cpu : Cpu) : Bool :=
  match cpu.port, cpu.rest with
  | .asking, .load _ _ => true
  | .asking, .store _ _ _ => true
  | _, _ => false

def cmdRead (cpu : Cpu) : Bool :=
  match cpu.rest with
  | .load _ _ => true
  | _ => false

def cmdAddr (cpu : Cpu) : BitVec 32 :=
  match cpu.rest with
  | .load addr _ => addr
  | .store addr _ _ => addr
  | .ret _ => 0

def cmdWdata (cpu : Cpu) : BitVec 32 :=
  match cpu.rest with
  | .store _ data _ => data
  | _ => 0

/-- The program from the access on that ends in this cycle: a store when its command is
accepted, a load when its data comes. Without an access there is nothing to wait for. -/
def ends (cpu : Cpu) (accepted rspValid : Bool) (rspRdata : BitVec 32) : Option Prog :=
  match cpu.port, cpu.rest with
  | _, .ret value => some (.ret value)
  | .asking, .store _ _ next => if accepted then some next else none
  | .waiting, .load _ next => if rspValid then some (next rspRdata) else none
  | _, _ => none

def follows (cpu : Cpu) (value : BitVec 32) : Nat × Call :=
  match cpu.call with
  | .config => (cpu.round, .start)
  | .start => (cpu.round, .check)
  | .check => if value = 0 then (cpu.round, .check) else (cpu.round + 1, .config)

end Cpu

def body (config : Config) : Call → Prog
  | .config => accConfig accCfg config
  | .start => accStart accCfg
  | .check => checkAccStatus accCfg

def Port.turn (go : Bool) : Port :=
  if go then .asking else .idle

def Cpu.resume (configs : Nat → Config) (cpu : Cpu) (go : Bool) (rest : Prog) : Cpu :=
  match rest with
  | .ret value =>
      let (round, call) := cpu.follows value
      { round := round, call := call, rest := body (configs round) call, port := .turn go }
  | rest => { cpu with rest := rest, port := .turn go }

/-- The port while the access lasts. -/
def Cpu.portNext (cpu : Cpu) (go accepted : Bool) : Port :=
  match cpu.port with
  | .idle => .turn go
  | .asking => if accepted then .waiting else .asking
  | .waiting => .waiting

def Cpu.step (configs : Nat → Config) (cpu : Cpu) (go accepted rspValid : Bool)
    (rspRdata : BitVec 32) : Cpu :=
  match cpu.ends accepted rspValid rspRdata with
  | some rest => cpu.resume configs go rest
  | none => { cpu with port := cpu.portNext go accepted }

structure State where
  cpu : Cpu
  icbSlave : IcbSlave.State
  mainFsm : MainFsm.State

structure Input where
  /-- The processor turns to its next access. -/
  go : Bool
  weightDone : Bool
  imapDone : Bool
  convDone : Bool
  outChCnt : Nat

/-- The register port. Responses are always accepted. -/
def slaveInput (s : State) : IcbSlave.Input where
  icbCmdValid := s.cpu.cmdValid
  icbCmdRead := s.cpu.cmdRead
  icbCmdAddr := s.cpu.cmdAddr
  icbCmdWdata := s.cpu.cmdWdata
  icbRspReady := true
  accDone := s.mainFsm.accDone

def mainInput (s : State) (i : Input) : MainFsm.Input where
  accStart := s.icbSlave.start.getLsbD 0
  weightDone := i.weightDone
  imapDone := i.imapDone
  convDone := i.convDone
  outChCnt := i.outChCnt

def accepted (s : State) : Bool :=
  IcbSlave.hdshk s.icbSlave (slaveInput s)

variable (configs : Nat → Config)

def reset : State where
  cpu := { round := 0, call := .config, rest := accConfig accCfg (configs 0), port := .idle }
  icbSlave := IcbSlave.reset
  mainFsm := MainFsm.reset

def step (s : State) (i : Input) : State where
  cpu := s.cpu.step configs i.go (accepted s) s.icbSlave.icbRspValid s.icbSlave.icbRspRdata
  icbSlave := IcbSlave.step s.icbSlave (slaveInput s)
  mainFsm := MainFsm.step s.mainFsm (mainInput s i)

def returns (s : State) : Option (Call × BitVec 32) :=
  match s.cpu.ends (accepted s) s.icbSlave.icbRspValid s.icbSlave.icbRspRdata with
  | some (.ret value) => some (s.cpu.call, value)
  | _ => none

end RepVGGAcc.Driver
