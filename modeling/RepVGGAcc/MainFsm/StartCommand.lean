import RepVGGAcc.Clocked.Trace
import RepVGGAcc.Rtl.RepvggAccTop

/-! The start command: the register file and the controller, wired to each other
as `repvgg_acc_top.v` wires them, whatever the rest of the accelerator does. -/

namespace RepVGGAcc.StartCommand

open Clocked

structure State where
  icbSlave : IcbSlave.State
  mainFsm : MainFsm.State
  deriving DecidableEq

structure Input where
  icbCmdValid : Bool
  icbCmdRead : Bool
  icbCmdAddr : BitVec 32
  icbCmdWdata : BitVec 32
  icbRspReady : Bool
  weightDone : Bool
  imapDone : Bool
  convDone : Bool
  outChCnt : Nat

def reset : State where
  icbSlave := IcbSlave.reset
  mainFsm := MainFsm.reset

def slaveInput (s : State) (i : Input) : IcbSlave.Input where
  icbCmdValid := i.icbCmdValid
  icbCmdRead := i.icbCmdRead
  icbCmdAddr := i.icbCmdAddr
  icbCmdWdata := i.icbCmdWdata
  icbRspReady := i.icbRspReady
  accDone := s.mainFsm.accDone

/-- `acc_start`: bit 0 of `START`. -/
def accStart (s : State) : Bool :=
  s.icbSlave.start.getLsbD 0

def mainInput (s : State) (i : Input) : MainFsm.Input where
  accStart := accStart s
  weightDone := i.weightDone
  imapDone := i.imapDone
  convDone := i.convDone
  outChCnt := i.outChCnt

def step (s : State) (i : Input) : State where
  icbSlave := IcbSlave.step s.icbSlave (slaveInput s i)
  mainFsm := MainFsm.step s.mainFsm (mainInput s i)

/-! The accelerator contains this circuit. -/

def ofTop (s : RepvggAccTop.State) : State where
  icbSlave := s.icbSlave
  mainFsm := s.mainFsm

def topInput (s : RepvggAccTop.State) (i : RepvggAccTop.Input) : Input where
  icbCmdValid := i.icbCmdValid
  icbCmdRead := i.icbCmdRead
  icbCmdAddr := i.icbCmdAddr
  icbCmdWdata := i.icbCmdWdata
  icbRspReady := i.icbRspReady
  weightDone := s.bus.weightBiu.weightDone
  imapDone := s.bus.imapBiu.imapDone
  convDone := s.macArray.macArrayFsm.convDone
  outChCnt := s.macArray.macArrayFsm.outChCnt

theorem isTrace_ofTop {s : Nat → RepvggAccTop.State} {i : Nat → RepvggAccTop.Input}
    (trace : IsTrace RepvggAccTop.step s i) :
    IsTrace step (fun t => ofTop (s t)) (fun t => topInput (s t) (i t)) :=
  trace.component ofTop topInput fun _ _ => rfl

/-! What is counted: the runs begun and the start commands given. -/

def begins (s : State) (i : Input) : Prop :=
  s.mainFsm.state = .idle ∧ (step s i).mainFsm.state = .wsetup

def writesStart (s : State) (i : Input) : Bool :=
  IcbSlave.writes s.icbSlave (slaveInput s i) IcbSlave.startAddr

/-- A write to `START` with bit 0 set is accepted. -/
def commands (s : State) (i : Input) : Prop :=
  writesStart s i = true ∧ i.icbCmdWdata.getLsbD 0 = true

instance (s : State) (i : Input) : Decidable (begins s i) :=
  inferInstanceAs (Decidable (_ ∧ _))

instance (s : State) (i : Input) : Decidable (commands s i) :=
  inferInstanceAs (Decidable (_ ∧ _))

def runs (s : Nat → State) (i : Nat → Input) (t : Nat) : Nat :=
  Nat.count (fun u => begins (s u) (i u)) t

def startCommands (s : Nat → State) (i : Nat → Input) (t : Nat) : Nat :=
  Nat.count (fun u => commands (s u) (i u)) t

theorem begins_iff (s : State) (i : Input) :
    begins s i ↔ s.mainFsm.state = .idle ∧ accStart s = true := by
  constructor
  · rintro ⟨idle, left⟩
    refine ⟨idle, ?_⟩
    by_contra unset
    rw [show (step s i).mainFsm.state = MainFsm.nextState s.mainFsm (mainInput s i) from rfl,
      MainFsm.nextState, idle] at left
    simp [mainInput, unset] at left
  · rintro ⟨idle, set⟩
    refine ⟨idle, ?_⟩
    show MainFsm.nextState s.mainFsm (mainInput s i) = .wsetup
    simp [MainFsm.nextState, idle, mainInput, set]

/-- `START` holds a command that no run has taken up. -/
def pending (s : State) : Nat :=
  (accStart s).toNat

/-- The controller takes its command off the register: when it leaves idle, `START`
is exactly 1, the value that clears itself, or is being written. -/
def TakesCommand (s : State) (i : Input) : Prop :=
  s.mainFsm.state = .idle → accStart s = true →
    s.icbSlave.start = 1 ∨ writesStart s i = true

theorem pending_of_write {s : State} {i : Input} (writes : writesStart s i = true) :
    pending (step s i) = if commands s i then 1 else 0 := by
  have stored : (step s i).icbSlave.start = i.icbCmdWdata := if_pos writes
  rw [pending, accStart, stored]
  by_cases bit : i.icbCmdWdata.getLsbD 0 = true
  · rw [if_pos ⟨writes, bit⟩, bit]
    rfl
  · rw [if_neg fun given => bit given.2, Bool.eq_false_of_not_eq_true bit]
    rfl

theorem start_of_not_write {s : State} {i : Input} (quiet : ¬ writesStart s i = true) :
    (step s i).icbSlave.start = if s.icbSlave.start = 1 then 0 else s.icbSlave.start :=
  if_neg quiet

theorem pending_of_not_write {s : State} {i : Input} (quiet : ¬ writesStart s i = true) :
    pending (step s i) ≤ pending s := by
  rw [pending, accStart, start_of_not_write quiet]
  split
  · exact Nat.zero_le _
  · exact Nat.le_refl _

theorem pending_step {s : State} {i : Input} (takes : TakesCommand s i) :
    (if begins s i then 1 else 0) + pending (step s i) ≤
      pending s + if commands s i then 1 else 0 := by
  by_cases begun : begins s i
  · obtain ⟨idle, set⟩ := (begins_iff s i).mp begun
    have one : pending s = 1 := by rw [pending, set]; rfl
    rw [if_pos begun, one]
    by_cases writes : writesStart s i = true
    · exact Nat.add_le_add_left (pending_of_write writes).le 1
    · have start : s.icbSlave.start = 1 := (takes idle set).resolve_right writes
      have cleared : pending (step s i) = 0 := by
        rw [pending, accStart, start_of_not_write writes, if_pos start]
        rfl
      rw [cleared]
      exact Nat.le_add_right 1 _
  · rw [if_neg begun, Nat.zero_add]
    by_cases writes : writesStart s i = true
    · rw [pending_of_write writes]
      exact Nat.le_add_left _ _
    · exact Nat.le_add_right_of_le (pending_of_not_write writes)

theorem runs_succ (s : Nat → State) (i : Nat → Input) (t : Nat) :
    runs s i (t + 1) = runs s i t + if begins (s t) (i t) then 1 else 0 :=
  Nat.count_succ _ _

theorem startCommands_succ (s : Nat → State) (i : Nat → Input) (t : Nat) :
    startCommands s i (t + 1) =
      startCommands s i t + if commands (s t) (i t) then 1 else 0 :=
  Nat.count_succ _ _

variable {s : Nat → State} {i : Nat → Input}

/-- The commands given are those used up and the one still pending. -/
theorem runs_add_pending_le (trace : IsTrace step s i) (initial : s 0 = reset)
    (takes : ∀ t, TakesCommand (s t) (i t)) (t : Nat) :
    runs s i t + pending (s t) ≤ startCommands s i t := by
  induction t with
  | zero =>
      rw [initial]
      exact Nat.le_refl _
  | succ t held =>
      have cycle := pending_step (takes t)
      rw [runs_succ, startCommands_succ, trace t]
      omega

theorem runs_le_startCommands (trace : IsTrace step s i) (initial : s 0 = reset)
    (takes : ∀ t, TakesCommand (s t) (i t)) (t : Nat) :
    runs s i t ≤ startCommands s i t :=
  Nat.le_of_add_right_le (runs_add_pending_le trace initial takes t)

/-! The driver writes one value to `START`, at the first two cycles, and every
unit is done at once. -/

def writeOnce (value : BitVec 32) (t : Nat) : Input where
  icbCmdValid := t < 2
  icbCmdRead := false
  icbCmdAddr := 0x10
  icbCmdWdata := value
  icbRspReady := true
  weightDone := true
  imapDone := true
  convDone := true
  outChCnt := 0

/-- After a 1 the register is clear again before the controller is idle again. -/
theorem writeOnce_one_quiet (n : Nat) :
    (run step reset (writeOnce 1) (n + 3)).icbSlave.start = 0 := by
  induction n with
  | zero => rfl
  | succ n held =>
      have silent : ¬ writesStart (run step reset (writeOnce 1) (n + 3))
          (writeOnce 1 (n + 3)) = true := by
        simp [writesStart, IcbSlave.writes, IcbSlave.hdshk, slaveInput, writeOnce]
      have start := start_of_not_write silent
      rw [held] at start
      exact start

theorem takesCommand_writeOnce_one (t : Nat) :
    TakesCommand (run step reset (writeOnce 1) t) (writeOnce 1 t) := by
  intro _ set
  by_cases early : t < 3
  · match t, early with
    | 0, _ => cases set
    | 1, _ => cases set
    | 2, _ => exact Or.inl rfl
  · obtain ⟨n, rfl⟩ := Nat.exists_eq_add_of_le' (by omega : 3 ≤ t)
    rw [accStart, writeOnce_one_quiet n] at set
    cases set

theorem runs_le_startCommands_writeOnce :
    runs (run step reset (writeOnce 1)) (writeOnce 1) 7 ≤
      startCommands (run step reset (writeOnce 1)) (writeOnce 1) 7 :=
  runs_le_startCommands (isTrace_run step reset (writeOnce 1)) rfl
    takesCommand_writeOnce_one 7

/-- A 3 in `START` is never cleared, and the controller starts a second run. -/
theorem runs_le_startCommands_fails :
    ¬ ∀ (s : Nat → State) (i : Nat → Input), IsTrace step s i → s 0 = reset →
      ∀ t, runs s i t ≤ startCommands s i t := by
  intro bounded
  have second := bounded _ _ (isTrace_run step reset (writeOnce 3)) rfl 7
  revert second
  decide +kernel

end RepVGGAcc.StartCommand
