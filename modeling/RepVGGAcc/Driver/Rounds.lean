import RepVGGAcc.Clocked.Progress
import RepVGGAcc.Clocked.Ring
import RepVGGAcc.Clocked.Trace
import RepVGGAcc.Driver.Processor
import Mathlib.Data.Fin.VecNotation
import Mathlib.Tactic.FinCases
import Mathlib.Tactic.IntervalCases

/-! The rounds of the driver. A round passes five stations: the registers are set, the
start command is on its way, the run is under way, it reports its end, and its end waits to
be read. -/

namespace RepVGGAcc

open Clocked
open AccCfg (Config Prog accCfg accConfig accStart checkAccStatus)

/-! The registers of `acc_config`, in the order in which it writes them. -/

namespace IcbSlave

def configAddr : Fin 7 → BitVec 12 :=
  ![inAddrAddr, w3AddrAddr, w1AddrAddr, outAddrAddr, mapsizeAddr, ichAddr, ochAddr]

def configRegister (s : State) : Fin 7 → BitVec 32 :=
  ![s.inAddr, s.w3Addr, s.w1Addr, s.outAddr, s.mapsize, s.ich, s.och]

theorem configRegister_step (s : State) (i : Input) (k : Fin 7) :
    configRegister (step s i) k = written s i (configAddr k) (configRegister s k) := by
  fin_cases k <;> rfl

end IcbSlave

namespace AccCfg

def fieldAddr : Fin 7 → BitVec 32 :=
  ![accCfg + imapAddr, accCfg + w3Addr, accCfg + w1Addr, accCfg + omapAddr, accCfg + mapSize,
    accCfg + inCh, accCfg + outCh]

def Config.value (c : Config) : Fin 7 → BitVec 32 :=
  ![c.imapAddr, c.w3Addr, c.w1Addr, c.omapAddr, c.mapSize, c.inCh, c.outCh]

/-- What remains of `acc_config` before store `j`. -/
def Config.stores (c : Config) (j : Nat) : Prog :=
  ((List.finRange 7).drop j).foldr (fun k rest => .store (fieldAddr k) (c.value k) rest) (.ret 0)

theorem accConfig_eq (c : Config) : accConfig accCfg c = c.stores 0 :=
  (if_neg (by decide)).trans rfl

theorem Config.stores_of_lt (c : Config) {j : Nat} (more : j < 7) :
    c.stores j = .store (fieldAddr ⟨j, more⟩) (c.value ⟨j, more⟩) (c.stores (j + 1)) := by
  unfold stores
  rw [List.drop_eq_getElem_cons (by simpa using more), List.getElem_finRange]
  rfl

theorem accStart_eq : accStart accCfg = .store (accCfg + control) 1 (.ret 0) :=
  if_neg (by decide)

theorem checkAccStatus_eq : checkAccStatus accCfg = .load (accCfg + status) fun value =>
    if value ≠ 0 then .store (accCfg + status) 0 (.ret value) else .ret value :=
  if_neg (by decide)

structure Config.HeldBy (c : Config) (s : IcbSlave.State) : Prop where
  inAddr : s.inAddr = c.imapAddr
  w3Addr : s.w3Addr = c.w3Addr
  w1Addr : s.w1Addr = c.w1Addr
  outAddr : s.outAddr = c.omapAddr
  mapsize : s.mapsize = c.mapSize
  ich : s.ich = c.inCh
  och : s.och = c.outCh

def Config.WrittenTo (c : Config) (j : Nat) (s : IcbSlave.State) : Prop :=
  ∀ k : Fin 7, k.val < j → IcbSlave.configRegister s k = c.value k

theorem Config.WrittenTo.heldBy {c : Config} {s : IcbSlave.State} (written : c.WrittenTo 7 s) :
    c.HeldBy s :=
  ⟨written 0 (by decide), written 1 (by decide), written 2 (by decide), written 3 (by decide),
    written 4 (by decide), written 5 (by decide), written 6 (by decide)⟩

end AccCfg

namespace Driver

variable {configs : Nat → Config}

/-! What the accelerator sees of the processor. -/

theorem writes_eq (s : State) (reg : BitVec 12) :
    IcbSlave.writes s.icbSlave (slaveInput s) reg =
      (accepted s && !s.cpu.cmdRead && s.cpu.cmdAddr.extractLsb' 0 12 == reg) :=
  rfl

theorem accepted_of_ne_asking {s : State} (quiet : s.cpu.port ≠ .asking) :
    accepted s = false := by
  have silent : s.cpu.cmdValid = false := by
    unfold Cpu.cmdValid
    cases port : s.cpu.port with
    | asking => exact absurd port quiet
    | _ => rfl
  show (s.cpu.cmdValid && _) = false
  rw [silent, Bool.false_and]

/-- The flags that the driver and the hardware exchange, and whether a run is under way. -/
structure Flags (busy accDone : Bool) (start done : BitVec 32) (s : State) : Prop where
  busy : (s.mainFsm.state != .idle) = busy
  accDone : s.mainFsm.accDone = accDone
  start : s.icbSlave.start = start
  done : s.icbSlave.done = done

/-- The end of a phase is reported while `main_fsm` waits for it. -/
structure InPhase (s : State) (i : Input) : Prop where
  weightDone : i.weightDone = true → s.mainFsm.state = .wsetup
  imapDone : i.imapDone = true → s.mainFsm.state = .isetup
  convDone : i.convDone = true → s.mainFsm.state = .conv

theorem Flags.step {busy accDone : Bool} {start done : BitVec 32} {s : State} {i : Input}
    (flags : Flags busy accDone start done s) (inPhase : InPhase s i) :
    Flags (if busy then !i.convDone else start.getLsbD 0) (!accDone && i.convDone)
      (if IcbSlave.writes s.icbSlave (slaveInput s) IcbSlave.startAddr then s.cpu.cmdWdata
        else if start = 1 then 0 else start)
      (if IcbSlave.writes s.icbSlave (slaveInput s) IcbSlave.doneAddr then s.cpu.cmdWdata
        else if accDone then 1 else done) (step configs s i) where
  busy := by
    have waits := inPhase.convDone
    rw [← flags.busy, ← flags.start]
    show (MainFsm.nextState s.mainFsm (mainInput s i) != .idle) = _
    unfold MainFsm.nextState mainInput
    cases state : s.mainFsm.state with
    | idle => cases s.icbSlave.start.getLsbD 0 <;> rfl
    | wsetup =>
        have quiet : i.convDone = false := Bool.eq_false_iff.mpr fun now => by
          rw [state] at waits
          cases waits now
        cases i.weightDone <;> simp [quiet]
    | isetup =>
        have quiet : i.convDone = false := Bool.eq_false_iff.mpr fun now => by
          rw [state] at waits
          cases waits now
        cases i.imapDone <;> simp [quiet]
    | conv => cases i.convDone <;> rfl
  accDone := by
    rw [← flags.accDone]
    refine (MainFsm.pulse_eq _ _).trans ?_
    rw [Bool.decide_eq_true]
    rfl
  start := by
    rw [← flags.start]
    rfl
  done := by
    rw [← flags.done, ← flags.accDone]
    rfl

theorem cpu_step (s : State) (i : Input) :
    (step configs s i).cpu = s.cpu.step configs i.go (accepted s) s.icbSlave.icbRspValid
      s.icbSlave.icbRspRdata :=
  rfl

/-! One cycle of an access. -/

section Access

variable {s : State} {addr data : BitVec 32} {next : Prog}

theorem asking_of_accepted (accepts : accepted s = true) : s.cpu.port = .asking := by
  by_contra quiet
  rw [accepted_of_ne_asking quiet] at accepts
  cases accepts

theorem ends_accepted (store : s.cpu.rest = .store addr data next)
    (accepts : accepted s = true) :
    s.cpu.ends (accepted s) s.icbSlave.icbRspValid s.icbSlave.icbRspRdata = some next := by
  simp only [Cpu.ends, asking_of_accepted accepts, store, accepts, if_true]

theorem ends_unaccepted (access : ∀ value, s.cpu.rest ≠ .ret value)
    (notWaiting : s.cpu.port ≠ .waiting) (unaccepted : accepted s = false) :
    s.cpu.ends (accepted s) s.icbSlave.icbRspValid s.icbSlave.icbRspRdata = none := by
  unfold Cpu.ends
  cases port : s.cpu.port with
  | waiting => exact absurd port notWaiting
  | _ =>
      cases rest : s.cpu.rest with
      | ret value => exact absurd rest (access value)
      | _ => simp [unaccepted]

theorem cpu_accepted (store : s.cpu.rest = .store addr data next) (accepts : accepted s = true)
    (i : Input) : (step configs s i).cpu = s.cpu.resume configs i.go next := by
  rw [cpu_step, Cpu.step, ends_accepted store accepts]

theorem portNext_idle {cpu : Cpu} (port : cpu.port = .idle) (go accepted : Bool) :
    cpu.portNext go accepted = .turn go := by
  rw [Cpu.portNext, port]

theorem portNext_asking {cpu : Cpu} (port : cpu.port = .asking) (go accepted : Bool) :
    cpu.portNext go accepted = if accepted then .waiting else .asking := by
  rw [Cpu.portNext, port]

theorem portNext_unaccepted {cpu : Cpu} (notWaiting : cpu.port ≠ .waiting) (go : Bool) :
    cpu.portNext go false = if cpu.port = .idle ∧ go = false then .idle else .asking := by
  cases port : cpu.port with
  | idle => rw [portNext_idle port]; cases go <;> rfl
  | asking => exact portNext_asking port go false
  | waiting => exact absurd port notWaiting

theorem cpu_unaccepted (access : ∀ value, s.cpu.rest ≠ .ret value)
    (notWaiting : s.cpu.port ≠ .waiting) (unaccepted : accepted s = false) (i : Input) :
    (step configs s i).cpu =
      { s.cpu with port := if s.cpu.port = .idle ∧ i.go = false then .idle else .asking } := by
  rw [cpu_step, Cpu.step, ends_unaccepted access notWaiting unaccepted, unaccepted,
    ← portNext_unaccepted notWaiting]

theorem turn_ne_waiting (go : Bool) : Port.turn go ≠ .waiting := by
  cases go <;> decide

theorem port_ne_waiting (port : Port) (go : Bool) :
    (if port = .idle ∧ go = false then Port.idle else .asking) ≠ .waiting := by
  split_ifs <;> decide

theorem returns_unaccepted (access : ∀ value, s.cpu.rest ≠ .ret value)
    (notWaiting : s.cpu.port ≠ .waiting) (unaccepted : accepted s = false) :
    returns s = none := by
  rw [returns, ends_unaccepted access notWaiting unaccepted]

theorem unwritten_of_unaccepted (unaccepted : accepted s = false) (reg : BitVec 12) :
    IcbSlave.writes s.icbSlave (slaveInput s) reg = false := by
  rw [writes_eq, unaccepted]
  rfl

theorem writes_store (store : s.cpu.rest = .store addr data next) (accepts : accepted s = true)
    (reg : BitVec 12) :
    IcbSlave.writes s.icbSlave (slaveInput s) reg = (addr.extractLsb' 0 12 == reg) := by
  rw [writes_eq, accepts, Cpu.cmdRead, Cpu.cmdAddr, store]
  rfl

end Access

theorem writtenTo_step {c : Config} {j : Nat} {s : State} (written : c.WrittenTo j s.icbSlave)
    (i : Input) (unwritten : ∀ k, IcbSlave.writes s.icbSlave (slaveInput s)
      (IcbSlave.configAddr k) = false) : c.WrittenTo j (step configs s i).icbSlave := by
  intro k before
  refine (IcbSlave.configRegister_step _ _ k).trans ?_
  rw [IcbSlave.written, unwritten k, if_neg Bool.false_ne_true, written k before]

/-! The processor at its accesses. -/

/-- Before store `j` of round `n`; store 7 is the one of `acc_start`. -/
def settingCpu (configs : Nat → Config) (n j : Nat) (port : Port) : Cpu :=
  if j < 7 then { round := n, call := .config, rest := (configs n).stores j, port := port }
  else { round := n, call := .start, rest := accStart accCfg, port := port }

def checkingCpu (n : Nat) (port : Port) : Cpu where
  round := n
  call := .check
  rest := checkAccStatus accCfg
  port := port

def clearingCpu (n : Nat) (port : Port) : Cpu where
  round := n
  call := .check
  rest := .store (accCfg + AccCfg.status) 0 (.ret 1)
  port := port

/-- The registers are being set: the first `j` of them are. -/
structure Sets (configs : Nat → Config) (n j : Nat) (s : State) : Prop where
  bound : j ≤ 7
  cpu : ∃ port, port ≠ .waiting ∧ s.cpu = settingCpu configs n j port
  written : (configs n).WrittenTo j s.icbSlave

/-- The status is being read; the read that is under way returns `answer`. -/
structure Polls (n : Nat) (answer : BitVec 32) (s : State) : Prop where
  cpu : ∃ port, s.cpu = checkingCpu n port
  answer : s.cpu.port = .waiting →
    s.icbSlave.icbRspValid = true ∧ s.icbSlave.icbRspRdata = answer

/-- The status that has been read is being cleared. -/
def Clears (n : Nat) (s : State) : Prop :=
  ∃ port, port ≠ .waiting ∧ s.cpu = clearingCpu n port

namespace Sets

variable {n j : Nat} {s : State} {i : Input}

theorem not_waiting (sets : Sets configs n j s) : s.cpu.port ≠ .waiting := by
  obtain ⟨port, notWaiting, cpu⟩ := sets.cpu
  rw [cpu, settingCpu]
  split_ifs <;> exact notWaiting

theorem rest_config (sets : Sets configs n j s) (more : j < 7) :
    s.cpu.rest = .store (AccCfg.fieldAddr ⟨j, more⟩) ((configs n).value ⟨j, more⟩)
      ((configs n).stores (j + 1)) := by
  obtain ⟨port, -, cpu⟩ := sets.cpu
  rw [cpu, settingCpu, if_pos more]
  exact (configs n).stores_of_lt more

theorem rest_start (sets : Sets configs n 7 s) :
    s.cpu.rest = .store (accCfg + AccCfg.control) 1 (.ret 0) := by
  obtain ⟨port, -, cpu⟩ := sets.cpu
  rw [cpu]
  exact AccCfg.accStart_eq

theorem access (sets : Sets configs n j s) (value : BitVec 32) : s.cpu.rest ≠ .ret value := by
  rcases Nat.lt_or_eq_of_le sets.bound with more | rfl
  · rw [sets.rest_config more]
    nofun
  · rw [sets.rest_start]
    nofun

theorem call_ne_check (sets : Sets configs n j s) : s.cpu.call ≠ .check := by
  obtain ⟨port, -, cpu⟩ := sets.cpu
  rw [cpu, settingCpu]
  split_ifs <;> simp

theorem step_unaccepted (sets : Sets configs n j s) (unaccepted : accepted s = false)
    (i : Input) : Sets configs n j (step configs s i) where
  bound := sets.bound
  cpu := by
    refine ⟨_, port_ne_waiting s.cpu.port i.go,
      (cpu_unaccepted sets.access sets.not_waiting unaccepted i).trans ?_⟩
    obtain ⟨port, -, cpu⟩ := sets.cpu
    rw [cpu, settingCpu, settingCpu]
    by_cases more : j < 7
    · rw [if_pos more, if_pos more]
    · rw [if_neg more, if_neg more]
  written := writtenTo_step sets.written i fun k => unwritten_of_unaccepted unaccepted _

theorem resume_config (sets : Sets configs n j s) (more : j < 7) (go : Bool) :
    s.cpu.resume configs go ((configs n).stores (j + 1)) =
      settingCpu configs n (j + 1) (.turn go) := by
  obtain ⟨port, -, cpu⟩ := sets.cpu
  rw [cpu, settingCpu, if_pos more, settingCpu]
  split_ifs with next
  · rw [(configs n).stores_of_lt next]
    rfl
  · obtain rfl : j = 6 := by omega
    rfl

theorem fieldAddr_eq (k : Fin 7) :
    (AccCfg.fieldAddr k).extractLsb' 0 12 = IcbSlave.configAddr k := by
  revert k
  decide

theorem configAddr_injective : Function.Injective IcbSlave.configAddr := by
  decide

theorem step_config (sets : Sets configs n j s) (more : j < 7) (accepts : accepted s = true)
    (i : Input) : Sets configs n (j + 1) (step configs s i) where
  bound := more
  cpu := ⟨.turn i.go, turn_ne_waiting i.go,
    (cpu_accepted (sets.rest_config more) accepts i).trans (sets.resume_config more i.go)⟩
  written := by
    intro k before
    refine (IcbSlave.configRegister_step _ _ k).trans ?_
    rw [IcbSlave.written, writes_store (sets.rest_config more) accepts, fieldAddr_eq]
    by_cases last : k.val = j
    · obtain rfl : k = ⟨j, more⟩ := Fin.ext last
      rw [if_pos (beq_self_eq_true _)]
      show s.cpu.cmdWdata = _
      rw [Cpu.cmdWdata, sets.rest_config more]
    · rw [if_neg, sets.written k (by omega)]
      rw [beq_iff_eq]
      exact fun same => last (congrArg Fin.val (configAddr_injective same)).symm

theorem returns_start (sets : Sets configs n 7 s) (accepts : accepted s = true) :
    returns s = some (.start, 0) := by
  rw [returns, ends_accepted sets.rest_start accepts]
  obtain ⟨port, -, cpu⟩ := sets.cpu
  rw [cpu]
  rfl

theorem step_start (sets : Sets configs n 7 s) (accepts : accepted s = true) (i : Input) :
    Polls n 0 (step configs s i) ∧ (configs n).WrittenTo 7 (step configs s i).icbSlave := by
  have cpu : (step configs s i).cpu = checkingCpu n (.turn i.go) := by
    rw [cpu_accepted sets.rest_start accepts]
    obtain ⟨port, -, cpu⟩ := sets.cpu
    rw [cpu]
    rfl
  refine ⟨⟨⟨.turn i.go, cpu⟩, fun waits => ?_⟩, writtenTo_step sets.written i fun k => ?_⟩
  · rw [cpu] at waits
    exact absurd waits (turn_ne_waiting i.go)
  · rw [writes_store sets.rest_start accepts]
    revert k
    decide

end Sets

namespace Polls

variable {n : Nat} {answer : BitVec 32} {s : State}

theorem rest_eq (polls : Polls n answer s) :
    s.cpu.rest = .load (accCfg + AccCfg.status) fun value =>
      if value ≠ 0 then .store (accCfg + AccCfg.status) 0 (.ret value) else .ret value := by
  obtain ⟨port, cpu⟩ := polls.cpu
  rw [cpu]
  exact AccCfg.checkAccStatus_eq

theorem unwritten (polls : Polls n answer s) (reg : BitVec 12) :
    IcbSlave.writes s.icbSlave (slaveInput s) reg = false := by
  rw [writes_eq, Cpu.cmdRead, polls.rest_eq, Bool.not_true, Bool.and_false, Bool.false_and]

theorem reads (polls : Polls n answer s) (accepts : accepted s = true) (i : Input) :
    (step configs s i).icbSlave.icbRspValid = true ∧
      (step configs s i).icbSlave.icbRspRdata = s.icbSlave.done := by
  constructor
  · show (if accepted s = true then true else _) = true
    rw [if_pos accepts]
  · show (if (accepted s && s.cpu.cmdRead) = true then
      IcbSlave.readData s.icbSlave (s.cpu.cmdAddr.extractLsb' 0 12) else 0) = _
    rw [accepts, Cpu.cmdRead, Cpu.cmdAddr, polls.rest_eq]
    rfl

theorem ends_eq (polls : Polls n answer s) :
    s.cpu.ends (accepted s) s.icbSlave.icbRspValid s.icbSlave.icbRspRdata =
      if s.cpu.port = .waiting then
        some (if answer ≠ 0 then .store (accCfg + AccCfg.status) 0 (.ret answer)
          else .ret answer)
      else none := by
  unfold Cpu.ends
  rw [polls.rest_eq]
  cases port : s.cpu.port with
  | idle => rfl
  | asking => rfl
  | waiting =>
      obtain ⟨valid, data⟩ := polls.answer port
      rw [valid, data]
      rfl

theorem step (polls : Polls n answer s)
    (unanswered : s.cpu.port = .waiting → answer = 0) (i : Input) :
    Polls n s.icbSlave.done (step configs s i) := by
  obtain ⟨port, cpu⟩ := polls.cpu
  have next := @cpu_step configs s i
  rw [Cpu.step, polls.ends_eq] at next
  by_cases waits : s.cpu.port = .waiting
  · obtain rfl := unanswered waits
    rw [if_pos waits, cpu] at next
    refine ⟨⟨.turn i.go, next⟩, fun absurdity => ?_⟩
    rw [next] at absurdity
    exact absurd absurdity (turn_ne_waiting i.go)
  · rw [if_neg waits] at next
    refine ⟨⟨_, next.trans (by rw [cpu]; rfl)⟩, fun waiting => ?_⟩
    have accepts : accepted s = true := by
      by_contra unaccepted
      rw [Bool.not_eq_true] at unaccepted
      rw [next, unaccepted] at waiting
      have asks := portNext_unaccepted waits i.go
      split_ifs at asks <;> cases asks.symm.trans waiting
    exact polls.reads accepts i

theorem call_eq (polls : Polls n answer s) : s.cpu.call = .check := by
  obtain ⟨port, cpu⟩ := polls.cpu
  rw [cpu]
  rfl

theorem returns_eq (polls : Polls n answer s)
    (unanswered : s.cpu.port = .waiting → answer = 0) :
    returns s = if s.cpu.port = .waiting then some (.check, 0) else none := by
  rw [returns, polls.ends_eq, polls.call_eq]
  by_cases waits : s.cpu.port = .waiting
  · rw [if_pos waits, unanswered waits, if_pos waits]
    rfl
  · rw [if_neg waits, if_neg waits]

theorem returns_answered (polls : Polls n 1 s) : returns s = none := by
  rw [returns, polls.ends_eq]
  by_cases waits : s.cpu.port = .waiting
  · rw [if_pos waits]
    rfl
  · rw [if_neg waits]

theorem step_answered (polls : Polls n 1 s) (waits : s.cpu.port = .waiting) (i : Input) :
    Clears n (Driver.step configs s i) := by
  obtain ⟨port, cpu⟩ := polls.cpu
  have next := @cpu_step configs s i
  rw [Cpu.step, polls.ends_eq, if_pos waits, cpu] at next
  exact ⟨.turn i.go, turn_ne_waiting i.go, next⟩

end Polls

namespace Clears

variable {n : Nat} {s : State}

theorem rest_eq (clears : Clears n s) :
    s.cpu.rest = .store (accCfg + AccCfg.status) 0 (.ret 1) := by
  obtain ⟨port, -, cpu⟩ := clears
  rw [cpu]
  rfl

theorem access (clears : Clears n s) (value : BitVec 32) : s.cpu.rest ≠ .ret value := by
  rw [clears.rest_eq]
  nofun

theorem not_waiting (clears : Clears n s) : s.cpu.port ≠ .waiting := by
  obtain ⟨port, notWaiting, cpu⟩ := clears
  rw [cpu]
  exact notWaiting

theorem step_unaccepted (clears : Clears n s) (unaccepted : accepted s = false) (i : Input) :
    Clears n (step configs s i) := by
  refine ⟨_, port_ne_waiting s.cpu.port i.go,
    (cpu_unaccepted clears.access clears.not_waiting unaccepted i).trans ?_⟩
  obtain ⟨port, -, cpu⟩ := clears
  rw [cpu]
  rfl

theorem returns_accepted (clears : Clears n s) (accepts : accepted s = true) :
    returns s = some (.check, 1) := by
  rw [returns, ends_accepted clears.rest_eq accepts]
  obtain ⟨port, -, cpu⟩ := clears
  rw [cpu]
  rfl

theorem step_accepted (clears : Clears n s) (accepts : accepted s = true) (i : Input) :
    Sets configs (n + 1) 0 (step configs s i) := by
  have cpu : (step configs s i).cpu = settingCpu configs (n + 1) 0 (.turn i.go) := by
    rw [cpu_accepted clears.rest_eq accepts]
    obtain ⟨port, -, cpu⟩ := clears
    rw [cpu, settingCpu, if_pos (by decide), ← AccCfg.accConfig_eq]
    rfl
  exact ⟨Nat.zero_le _, ⟨.turn i.go, turn_ne_waiting i.go, cpu⟩,
    fun k absurdity => absurd absurdity (Nat.not_lt_zero _)⟩

end Clears

/-! The stations of a round. -/

/-- The state after `pos` stations. -/
inductive Agrees (configs : Nat → Config) : Nat → State → Prop
  | setting {n j : Nat} {s : State} (sets : Sets configs n j s)
      (flags : Flags false false 0 0 s) : Agrees configs (5 * n) s
  | starting {n : Nat} {s : State} (polls : Polls n 0 s)
      (written : (configs n).WrittenTo 7 s.icbSlave)
      (flags : Flags false false 1 0 s) : Agrees configs (5 * n + 1) s
  | running {n : Nat} {s : State} (polls : Polls n 0 s)
      (written : (configs n).WrittenTo 7 s.icbSlave)
      (flags : Flags true false 0 0 s) : Agrees configs (5 * n + 2) s
  | ending {n : Nat} {s : State} (polls : Polls n 0 s)
      (flags : Flags false true 0 0 s) : Agrees configs (5 * n + 3) s
  | ended {n : Nat} {s : State} (checks : Polls n 0 s ∨ Polls n 1 s ∨ Clears n s)
      (flags : Flags false false 0 1 s) : Agrees configs (5 * n + 4) s

/-- `acc_start` returns. -/
def started (s : State) : Bool :=
  returns s == some (.start, 0)

def begins (s : State) : Bool :=
  s.mainFsm.state == .idle && s.icbSlave.start.getLsbD 0

/-- `check_acc_status` returns a value other than 0. -/
def reports (s : State) : Bool :=
  match returns s with
  | some (.check, value) => value != 0
  | _ => false

/-- What passes a station. -/
def passes (station : Nat) (s : State) (i : Input) : Bool :=
  match station with
  | 0 => started s
  | 1 => begins s
  | 2 => i.convDone
  | 3 => s.mainFsm.accDone
  | _ => reports s

theorem returns_call {s : State} {call : Call} {value : BitVec 32}
    (returned : returns s = some (call, value)) : s.cpu.call = call := by
  unfold returns at returned
  split at returned
  · exact congrArg Prod.fst (Option.some.inj returned)
  · cases returned

theorem started_of_call {s : State} (other : s.cpu.call ≠ .start) : started s = false := by
  rw [started, beq_eq_false_iff_ne]
  exact fun returned => other (returns_call returned)

theorem reports_of_call {s : State} (other : s.cpu.call ≠ .check) : reports s = false := by
  unfold reports
  split
  · exact absurd (returns_call ‹_›) other
  · rfl

theorem Polls.reports_eq {n : Nat} {answer : BitVec 32} {s : State} (polls : Polls n answer s)
    (unanswered : s.cpu.port = .waiting → answer = 0) : reports s = false := by
  unfold reports
  rw [polls.returns_eq unanswered]
  split_ifs <;> rfl

theorem Flags.begins_eq {busy accDone : Bool} {start done : BitVec 32} {s : State}
    (flags : Flags busy accDone start done s) : begins s = (!busy && start.getLsbD 0) := by
  rw [begins, flags.start, ← flags.busy, bne, Bool.not_not]

theorem Flags.quiet {accDone : Bool} {start done : BitVec 32} {s : State} {i : Input}
    (flags : Flags false accDone start done s) (inPhase : InPhase s i) : i.convDone = false := by
  by_contra now
  have busy := flags.busy
  rw [inPhase.convDone (Bool.not_eq_false _ ▸ now)] at busy
  cases busy

theorem Sets.call_eq {n j : Nat} {s : State} (sets : Sets configs n j s) (more : j < 7) :
    s.cpu.call = .config := by
  obtain ⟨port, -, cpu⟩ := sets.cpu
  rw [cpu, settingCpu, if_pos more]

namespace Agrees

variable {pos : Nat} {s : State} {i : Input}

theorem step_setting {n j : Nat} (sets : Sets configs n j s) (flags : Flags false false 0 0 s)
    (inPhase : InPhase s i) :
    Agrees configs (5 * n + (started s).toNat) (Driver.step configs s i) := by
  have next : Flags _ _ _ _ (Driver.step configs s i) := flags.step inPhase
  rw [flags.quiet inPhase] at next
  cases accepts : accepted s with
  | false =>
      rw [unwritten_of_unaccepted accepts, unwritten_of_unaccepted accepts] at next
      rw [started, returns_unaccepted sets.access sets.not_waiting accepts]
      exact .setting (sets.step_unaccepted accepts i) (by simpa using next)
  | true =>
      rcases Nat.lt_or_eq_of_le sets.bound with more | rfl
      · have other (k : Fin 7) : IcbSlave.configAddr k ≠ IcbSlave.startAddr ∧
            IcbSlave.configAddr k ≠ IcbSlave.doneAddr := by
          revert k
          decide
        rw [writes_store (sets.rest_config more) accepts, Sets.fieldAddr_eq,
          beq_eq_false_iff_ne.mpr (other _).1,
          writes_store (sets.rest_config more) accepts, Sets.fieldAddr_eq,
          beq_eq_false_iff_ne.mpr (other _).2] at next
        rw [started_of_call (by rw [sets.call_eq more]; decide)]
        exact .setting (sets.step_config more accepts i) (by simpa using next)
      · obtain ⟨polls, written⟩ := sets.step_start accepts i
        rw [writes_store sets.rest_start accepts, writes_store sets.rest_start accepts,
          Cpu.cmdWdata, sets.rest_start] at next
        rw [started, sets.returns_start accepts]
        exact .starting polls written next

theorem step_ended {n : Nat} (checks : Polls n 0 s ∨ Polls n 1 s ∨ Clears n s)
    (flags : Flags false false 0 1 s) (inPhase : InPhase s i) :
    Agrees configs (5 * n + 4 + (reports s).toNat) (Driver.step configs s i) := by
  have next : Flags _ _ _ _ (Driver.step configs s i) := flags.step inPhase
  rw [flags.quiet inPhase] at next
  -- a poll that finds 0 was begun before `DONE` was set, the next one finds 1
  have goesOn {answer : BitVec 32} (polls : Polls n answer s)
      (unanswered : s.cpu.port = .waiting → answer = 0) :
      Agrees configs (5 * n + 4 + (reports s).toNat) (Driver.step configs s i) := by
    have polls' : Polls n _ (Driver.step configs s i) := polls.step unanswered i
    rw [flags.done] at polls'
    rw [polls.unwritten, polls.unwritten] at next
    rw [polls.reports_eq unanswered]
    exact .ended (Or.inr (Or.inl polls')) next
  rcases checks with polls | polls | clears
  · exact goesOn polls fun _ => rfl
  · by_cases waits : s.cpu.port = .waiting
    · rw [polls.unwritten, polls.unwritten] at next
      rw [reports, polls.returns_answered]
      exact .ended (Or.inr (Or.inr (polls.step_answered waits i))) next
    · exact goesOn polls fun absurdity => absurd absurdity waits
  · cases accepts : accepted s with
    | false =>
        rw [unwritten_of_unaccepted accepts, unwritten_of_unaccepted accepts] at next
        rw [reports, returns_unaccepted clears.access clears.not_waiting accepts]
        exact .ended (Or.inr (Or.inr (clears.step_unaccepted accepts i))) next
    | true =>
        rw [writes_store clears.rest_eq accepts, writes_store clears.rest_eq accepts,
          Cpu.cmdWdata, clears.rest_eq] at next
        rw [reports, clears.returns_accepted accepts]
        exact .setting (clears.step_accepted accepts i) next

theorem step (agrees : Agrees configs pos s) (inPhase : InPhase s i) :
    Agrees configs (pos + (passes (pos % 5) s i).toNat) (Driver.step configs s i) := by
  cases agrees with
  | @setting n j _ sets flags =>
      rw [show 5 * n % 5 = 0 by omega]
      exact step_setting sets flags inPhase
  | @starting n _ polls written flags =>
      have next : Flags _ _ _ _ (Driver.step configs s i) := flags.step inPhase
      rw [polls.unwritten, polls.unwritten, flags.quiet inPhase] at next
      have polls' : Polls n _ (Driver.step configs s i) := polls.step (fun _ => rfl) i
      rw [flags.done] at polls'
      rw [show (5 * n + 1) % 5 = 1 by omega, passes, flags.begins_eq]
      exact .running polls' (writtenTo_step written i fun k => polls.unwritten _) next
  | @running n _ polls written flags =>
      have next : Flags _ _ _ _ (Driver.step configs s i) := flags.step inPhase
      rw [polls.unwritten, polls.unwritten] at next
      have polls' : Polls n _ (Driver.step configs s i) := polls.step (fun _ => rfl) i
      rw [flags.done] at polls'
      rw [show (5 * n + 2) % 5 = 2 by omega, passes]
      cases ends : i.convDone with
      | false =>
          rw [ends] at next
          exact .running polls' (writtenTo_step written i fun k => polls.unwritten _) next
      | true =>
          rw [ends] at next
          exact .ending polls' next
  | @ending n _ polls flags =>
      have next : Flags _ _ _ _ (Driver.step configs s i) := flags.step inPhase
      rw [polls.unwritten, polls.unwritten] at next
      have polls' : Polls n _ (Driver.step configs s i) := polls.step (fun _ => rfl) i
      rw [flags.done] at polls'
      rw [show (5 * n + 3) % 5 = 3 by omega, passes, flags.accDone]
      exact .ended (Or.inl polls') next
  | @ended n _ checks flags =>
      rw [show (5 * n + 4) % 5 = 4 by omega]
      exact step_ended checks flags inPhase

theorem here (agrees : Agrees configs pos s) (inPhase : InPhase s i) {c : Nat} (station : c < 5)
    (now : passes c s i = true) : pos % 5 = c := by
  have polling {n : Nat} {answer : BitVec 32} (polls : Polls n answer s)
      (unanswered : s.cpu.port = .waiting → answer = 0) :
      started s = false ∧ reports s = false :=
    ⟨started_of_call (by rw [polls.call_eq]; decide), polls.reports_eq unanswered⟩
  suffices other : c ≠ pos % 5 → passes c s i = false by
    by_contra elsewhere
    rw [other fun same => elsewhere same.symm] at now
    cases now
  intro elsewhere
  cases agrees with
  | @setting n j _ sets flags =>
      have begins := flags.begins_eq
      have unread := reports_of_call sets.call_ne_check
      have quiet := flags.quiet inPhase
      have accDone := flags.accDone
      interval_cases c
      · omega
      all_goals assumption
  | @starting n _ polls written flags =>
      obtain ⟨unstarted, unread⟩ := polling polls fun _ => rfl
      have quiet := flags.quiet inPhase
      have accDone := flags.accDone
      interval_cases c
      · exact unstarted
      · omega
      all_goals assumption
  | @running n _ polls written flags =>
      obtain ⟨unstarted, unread⟩ := polling polls fun _ => rfl
      have begins := flags.begins_eq
      have accDone := flags.accDone
      interval_cases c
      · exact unstarted
      · exact begins
      · omega
      all_goals assumption
  | @ending n _ polls flags =>
      obtain ⟨unstarted, unread⟩ := polling polls fun _ => rfl
      have begins := flags.begins_eq
      have quiet := flags.quiet inPhase
      interval_cases c
      · exact unstarted
      · exact begins
      · exact quiet
      · omega
      · exact unread
  | @ended n _ checks flags =>
      have call : s.cpu.call = .check := by
        rcases checks with polls | polls | ⟨port, -, cpu⟩
        · exact polls.call_eq
        · exact polls.call_eq
        · rw [cpu]
          rfl
      have begins := flags.begins_eq
      have quiet := flags.quiet inPhase
      have accDone := flags.accDone
      interval_cases c
      · exact started_of_call (by rw [call]; decide)
      · exact begins
      · exact quiet
      · exact accDone
      · omega

end Agrees

end Driver

end RepVGGAcc
