import RepVGGAcc.System.Memory

/-! A run that is known up to a cycle, continued on a pipelined memory. -/

namespace RepVGGAcc.RepvggAccTop

open Clocked

/-- Up to cycle `stop` the bus accepts every command and answers it `L` cycles later, a read
with the word it asked for. The start command is taken in cycle `a` and no second one. -/
structure RunsUpTo (L a stop : Nat) (memory : Memory) (s : Nat → State) (i : Nat → Input) :
    Prop where
  trace : ∀ t < stop, s (t + 1) = step (s t) (i t)
  initial : IsReset (s 0)
  ready : ∀ t < stop, (i t).accIcbCmdReady = true
  silent : ∀ t < stop, t < L → (i t).accIcbRspValid = false
  answered : ∀ t, t + L < stop → (i (t + L)).accIcbRspValid = accepts (s t) (i t)
  reads : ∀ t, t + L < stop → accepts (s t) (i t) = true → (command (s t) (i t)).read = true →
    (i (t + L)).accIcbRspRdata = (contents memory s i t).word (command (s t) (i t)).addr
  begun : a ≤ stop
  starts : (s a).icbSlave.start.getLsbD 0 = true
  once : ∀ t < stop, t ≠ a → (s t).mainFsm.state = .idle →
    (s t).icbSlave.start.getLsbD 0 = false

/-- The accelerator on a pipelined memory, with nothing on its register port. -/
structure Pipelined where
  top : State
  memory : Memory
  /-- The answer that comes `k` cycles from now. -/
  due : Nat → Bool × BitVec 32

namespace Pipelined

def input (s : Pipelined) : Input where
  icbCmdValid := false
  icbCmdRead := false
  icbCmdAddr := 0
  icbCmdWdata := 0
  icbRspReady := true
  accIcbCmdReady := true
  accIcbRspValid := (s.due 0).1
  accIcbRspRdata := (s.due 0).2

def step (L : Nat) (s : Pipelined) (i : Input) : Pipelined where
  top := RepvggAccTop.step s.top i
  memory := s.memory.after (writeCommand s.top i)
  due := fun k =>
    if k + 1 = L then (accepts s.top i, s.memory.word (command s.top i).addr) else s.due (k + 1)

def run (L : Nat) (start : Pipelined) : Nat → Pipelined :=
  closedRun (step L) (fun _ => input) start

end Pipelined

section Continued

variable (L stop : Nat) (memory : Memory) (s : Nat → State) (i : Nat → Input)

def answer (t : Nat) : Bool × BitVec 32 :=
  (accepts (s t) (i t), (contents memory s i t).word (command (s t) (i t)).addr)

def dueAt (t : Nat) : Bool × BitVec 32 :=
  if t < L then (false, 0) else answer memory s i (t - L)

def resumed : Nat → Pipelined :=
  Pipelined.run L {
    top := s stop
    memory := contents memory s i stop
    due := fun k => dueAt L memory s i (stop + k) }

def continuedState (t : Nat) : State :=
  if t < stop then s t else (resumed L stop memory s i (t - stop)).top

def continuedInput (t : Nat) : Input :=
  if t < stop then i t else Pipelined.input (resumed L stop memory s i (t - stop))

variable {L stop memory s i}

theorem continuedState_eq {t : Nat} (within : t ≤ stop) :
    continuedState L stop memory s i t = s t := by
  unfold continuedState
  split_ifs with before
  · rfl
  · obtain rfl : t = stop := by omega
    rw [Nat.sub_self]
    rfl

theorem continuedInput_eq {t : Nat} (within : t < stop) :
    continuedInput L stop memory s i t = i t :=
  if_pos within

theorem continuedState_add (n : Nat) :
    continuedState L stop memory s i (stop + n) = (resumed L stop memory s i n).top := by
  unfold continuedState
  rw [if_neg (by omega), Nat.add_sub_cancel_left]

theorem continuedInput_add (n : Nat) : continuedInput L stop memory s i (stop + n) =
    Pipelined.input (resumed L stop memory s i n) := by
  unfold continuedInput
  rw [if_neg (by omega), Nat.add_sub_cancel_left]

theorem contents_continued {t : Nat} (within : t ≤ stop) :
    contents memory (continuedState L stop memory s i) (continuedInput L stop memory s i) t =
      contents memory s i t := by
  induction t with
  | zero => rfl
  | succ t held =>
      show (contents _ _ _ t).after (writeCommand _ _) = _
      rw [held (by omega), continuedState_eq (by omega), continuedInput_eq (by omega)]
      rfl

theorem contents_resumed (n : Nat) :
    contents memory (continuedState L stop memory s i) (continuedInput L stop memory s i)
      (stop + n) = (resumed L stop memory s i n).memory := by
  induction n with
  | zero => exact contents_continued le_rfl
  | succ n held =>
      rw [← Nat.add_assoc]
      show (contents _ _ _ (stop + n)).after (writeCommand _ _) = _
      rw [held, continuedState_add, continuedInput_add]
      rfl

theorem answer_continued {t : Nat} (within : t < stop) :
    answer memory (continuedState L stop memory s i) (continuedInput L stop memory s i) t =
      answer memory s i t := by
  unfold answer
  rw [contents_continued within.le, continuedState_eq within.le, continuedInput_eq within]

theorem due_resumed (n : Nat) {k : Nat} (inPipe : k < L) : (resumed L stop memory s i n).due k =
    dueAt L memory (continuedState L stop memory s i) (continuedInput L stop memory s i)
      (stop + n + k) := by
  induction n generalizing k with
  | zero =>
      show dueAt L memory s i (stop + k) = _
      rw [Nat.add_zero]
      unfold dueAt
      split_ifs with early
      · rfl
      · rw [answer_continued (by omega)]
  | succ n held =>
      show (if k + 1 = L then _ else (resumed L stop memory s i n).due (k + 1)) = _
      split_ifs with last
      · unfold dueAt
        rw [if_neg (by omega), show stop + (n + 1) + k - L = stop + n by omega, answer,
          contents_resumed, continuedState_add, continuedInput_add]
        rfl
      · rw [held (by omega)]
        congr 1
        omega

theorem dueAt_add (t : Nat) : dueAt L memory s i (t + L) = answer memory s i t := by
  unfold dueAt
  rw [if_neg (by omega), Nat.add_sub_cancel]

theorem lt_or_eq_add (stop t : Nat) : t < stop ∨ ∃ n, t = stop + n := by
  by_cases before : t < stop
  · exact Or.inl before
  · exact Or.inr (Nat.exists_eq_add_of_le (Nat.le_of_not_lt before))

/-- The continued run is a first run on a memory of latency `L`. -/
theorem RunsUpTo.firstRun {a : Nat} (runs : RunsUpTo L a stop memory s i) (some_ : 1 ≤ L) :
    FirstRun L a stop (continuedState L stop memory s i)
      (continuedInput L stop memory s i) where
  trace := fun t => by
    obtain before | ⟨n, rfl⟩ := lt_or_eq_add stop t
    · rw [continuedState_eq before, continuedState_eq before.le, continuedInput_eq before]
      exact runs.trace t before
    · rw [Nat.add_assoc, continuedState_add, continuedState_add, continuedInput_add]
      rfl
  initial := by
    rw [continuedState_eq (Nat.zero_le _)]
    exact runs.initial
  ready := fun t => by
    obtain before | ⟨n, rfl⟩ := lt_or_eq_add stop t
    · rw [continuedInput_eq before]
      exact runs.ready t before
    · rw [continuedInput_add]
      rfl
  silent := fun t early => by
    obtain before | ⟨n, rfl⟩ := lt_or_eq_add stop t
    · rw [continuedInput_eq before]
      exact runs.silent t before early
    · rw [continuedInput_add]
      show ((resumed L stop memory s i n).due 0).1 = false
      rw [due_resumed n (by omega), dueAt, Nat.add_zero, if_pos early]
  answered := fun t => by
    obtain before | ⟨n, later⟩ := lt_or_eq_add stop (t + L)
    · rw [continuedInput_eq before, continuedState_eq (by omega), continuedInput_eq (by omega)]
      exact runs.answered t before
    · rw [later, continuedInput_add]
      show ((resumed L stop memory s i n).due 0).1 = _
      rw [due_resumed n (by omega), Nat.add_zero, ← later, dueAt_add]
      rfl
  starts := by
    rw [continuedState_eq runs.begun]
    exact runs.starts
  once := fun t before => by
    rw [continuedState_eq before.le]
    exact runs.once t before

theorem RunsUpTo.answers {a : Nat} (runs : RunsUpTo L a stop memory s i) (some_ : 1 ≤ L) :
    Answers memory (continuedState L stop memory s i) (continuedInput L stop memory s i) L := by
  intro t accepted read
  obtain before | ⟨n, later⟩ := lt_or_eq_add stop (t + L)
  · rw [continuedState_eq (by omega), continuedInput_eq (by omega)] at accepted read
    rw [continuedInput_eq before, contents_continued (by omega), continuedState_eq (by omega),
      continuedInput_eq (by omega)]
    exact runs.reads t before accepted read
  · rw [later, continuedInput_add]
    show ((resumed L stop memory s i n).due 0).2 = _
    rw [due_resumed n (by omega), Nat.add_zero, ← later, dueAt_add]
    rfl

end Continued

end RepVGGAcc.RepvggAccTop
