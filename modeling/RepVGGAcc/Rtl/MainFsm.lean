import RepVGGAcc.Rtl.GnrlModules

/-! `main_fsm.v`: the run of the accelerator, from the start command to the
completion pulse. The inputs `in_ch`, `out_ch` and `map_size` are not read. -/

namespace RepVGGAcc.MainFsm

inductive FsmState
  | idle
  | wsetup
  | isetup
  | conv
  deriving DecidableEq, Repr

@[ext]
structure State where
  state : FsmState
  outChCntD : Nat
  weightStart : Bool
  imapStart : Bool
  convStart : Bool
  accDone : Bool
  deriving DecidableEq, Repr

structure Input where
  accStart : Bool
  weightDone : Bool
  imapDone : Bool
  convDone : Bool
  outChCnt : Nat
  deriving DecidableEq, Repr

def reset : State where
  state := .idle
  outChCntD := 0
  weightStart := false
  imapStart := false
  convStart := false
  accDone := false

def nextState (s : State) (i : Input) : FsmState :=
  match s.state with
  | .idle => if i.accStart then .wsetup else .idle
  | .wsetup => if i.weightDone then .isetup else .wsetup
  | .isetup => if i.imapDone then .conv else .isetup
  | .conv => if i.convDone then .idle else .conv

/-- `weight_och_cnt`: an 8-bit sum. -/
def weightOchCnt (s : State) (i : Input) : Nat :=
  if s.state = .wsetup then 0 else (i.outChCnt + 1) % 2 ^ 8

/-- The three events that ask for a weight fetch. -/
def weightTrigger (s : State) (i : Input) : Prop :=
  s.state = .idle ∧ nextState s i = .wsetup ∨
  s.state = .isetup ∧ nextState s i = .conv ∨
  i.outChCnt ≠ s.outChCntD ∧ i.outChCnt < 63

instance (s : State) (i : Input) : Decidable (weightTrigger s i) :=
  inferInstanceAs (Decidable (_ ∨ _ ∨ _))

/-- A register that is cleared one cycle after it was set. -/
def pulse (set : Prop) [Decidable set] (q : Bool) : Bool :=
  if q then false else if set then true else q

theorem pulse_eq (set : Prop) [Decidable set] (q : Bool) :
    pulse set q = (!q && decide set) := by
  cases q <;> by_cases held : set <;> simp [pulse, held]

def step (s : State) (i : Input) : State where
  state := nextState s i
  outChCntD := i.outChCnt
  weightStart := pulse (weightTrigger s i) s.weightStart
  imapStart := pulse (s.state = .wsetup ∧ nextState s i = .isetup) s.imapStart
  convStart := pulse (s.state = .isetup ∧ nextState s i = .conv) s.convStart
  accDone := pulse i.convDone s.accDone

theorem step_eq {s s' : State} {i : Input} (state : nextState s i = s'.state)
    (outChCnt : i.outChCnt = s'.outChCntD)
    (weightStart : s'.weightStart = true ↔ s.weightStart = false ∧
      (s.state = .idle ∧ s'.state = .wsetup ∨ s.state = .isetup ∧ s'.state = .conv ∨
        i.outChCnt ≠ s.outChCntD ∧ i.outChCnt < 63))
    (imapStart : s'.imapStart = true ↔
      s.imapStart = false ∧ s.state = .wsetup ∧ s'.state = .isetup)
    (convStart : s'.convStart = true ↔
      s.convStart = false ∧ s.state = .isetup ∧ s'.state = .conv)
    (accDone : s'.accDone = true ↔ s.accDone = false ∧ i.convDone = true) :
    step s i = s' := by
  apply State.ext
  case state => exact state
  case outChCntD => exact outChCnt
  all_goals
    refine (pulse_eq _ _).trans (Bool.eq_iff_iff.mpr ?_)
    simp only [weightTrigger, state, Bool.and_eq_true, Bool.not_eq_true', decide_eq_true_eq]
  case weightStart => exact weightStart.symm
  case imapStart => exact imapStart.symm
  case convStart => exact convStart.symm
  case accDone => exact accDone.symm

end RepVGGAcc.MainFsm
