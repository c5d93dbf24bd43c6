import RepVGGAcc.Clocked.Trace
import RepVGGAcc.Rtl.IcbSlave
import Mathlib.Tactic.IntervalCases

/-! The responses of the register port: which command a response belongs to, and whether
its data lasts until it is taken. -/

namespace RepVGGAcc.IcbSlave

open Clocked

def answers (s : State) (i : Input) : Bool :=
  s.icbRspValid && i.icbRspReady

def registers : List (BitVec 12) :=
  [inAddrAddr, w3AddrAddr, w1AddrAddr, outAddrAddr, startAddr, mapsizeAddr, ichAddr,
    ochAddr, doneAddr]

/-- A command that has not been accepted stays on the port as it is. -/
def HoldsCommands (s : Nat → State) (i : Nat → Input) : Prop :=
  ∀ t, (i t).icbCmdValid = true → (s t).icbCmdReady = false →
    (i (t + 1)).icbCmdValid = true ∧ (i (t + 1)).icbCmdRead = (i t).icbCmdRead ∧
      (i (t + 1)).icbCmdAddr = (i t).icbCmdAddr ∧
      (i (t + 1)).icbCmdWdata = (i t).icbCmdWdata

/-- The command accepted in cycle `t` gets the response taken in cycle `u`, the next one
that is taken; no other command is accepted in between; and the data stays as it is from
the rise of `icb_rsp_valid` on. -/
structure AnsweredAt (s : Nat → State) (i : Nat → Input) (t u : Nat) : Prop where
  accepted : hdshk (s t) (i t) = true
  later : t < u
  taken : answers (s u) (i u) = true
  next : ∀ v, t < v → v < u → answers (s v) (i v) = false
  alone : ∀ v, t < v → v < u → hdshk (s v) (i v) = false
  stable : ∀ v, t < v → v ≤ u →
    (s v).icbRspValid = true ∧ (s v).icbRspRdata = (s (t + 1)).icbRspRdata
  data : (i t).icbCmdRead = true → regAddr (i t) ∈ registers →
    (s u).icbRspRdata = readData (s t) (regAddr (i t))

/-- Each command gets a response of its own, and nothing else gets one. -/
structure AnswersOnce (s : Nat → State) (i : Nat → Input) : Prop where
  answered : ∀ t, hdshk (s t) (i t) = true → ∃ u, AnsweredAt s i t u
  asked : ∀ u, answers (s u) (i u) = true → ∃ t, AnsweredAt s i t u

/-- The response to the command of cycle `t` is taken before a further command has been
accepted, and in its first cycle unless it returns 0. -/
def TakenInTime (s : Nat → State) (i : Nat → Input) (t : Nat) : Prop :=
  ∃ u, t < u ∧ (i u).icbRspReady = true ∧
    (∀ v, t < v → v < u → (i v).icbRspReady = false ∧ hdshk (s v) (i v) = false) ∧
    (u = t + 1 ∨ ((i t).icbCmdRead = true → readData (s t) (regAddr (i t)) = 0))

section Runs

variable {s : Nat → State} {i : Nat → Input}

theorem rspValid_succ (trace : IsTrace step s i) (t : Nat) :
    (s (t + 1)).icbRspValid =
      (hdshk (s t) (i t) || (s t).icbRspValid && !answers (s t) (i t)) := by
  rw [trace t]
  unfold step answers
  cases hdshk (s t) (i t) <;> cases (s t).icbRspValid <;> cases (i t).icbRspReady <;> rfl

theorem rspRdata_succ (trace : IsTrace step s i) (t : Nat) :
    (s (t + 1)).icbRspRdata =
      if hdshk (s t) (i t) && (i t).icbCmdRead then readData (s t) (regAddr (i t)) else 0 := by
  rw [trace t]
  rfl

theorem not_hdshk_succ (trace : IsTrace step s i) {t : Nat}
    (accepted : hdshk (s t) (i t) = true) : hdshk (s (t + 1)) (i (t + 1)) = false := by
  have busy : (s (t + 1)).icbCmdReady = false := by
    rw [trace t]
    show (if hdshk (s t) (i t) then false else _) = false
    rw [if_pos accepted]
  rw [hdshk, busy, Bool.and_false]

/-- Read data that is not taken in its first cycle is lost. -/
theorem rspRdata_cleared (trace : IsTrace step s i) {t : Nat}
    (accepted : hdshk (s t) (i t) = true) : (s (t + 2)).icbRspRdata = 0 := by
  rw [rspRdata_succ trace, not_hdshk_succ trace accepted]
  rfl

theorem exists_command (trace : IsTrace step s i) (initial : s 0 = reset) {u : Nat}
    (waiting : (s u).icbRspValid = true) :
    ∃ t < u, hdshk (s t) (i t) = true ∧
      ∀ v, t < v → v < u → hdshk (s v) (i v) = false ∧ answers (s v) (i v) = false := by
  induction u with
  | zero =>
      rw [initial] at waiting
      cases waiting
  | succ u found =>
      rw [rspValid_succ trace] at waiting
      cases now : hdshk (s u) (i u) with
      | true => exact ⟨u, by omega, now, fun v from_ until_ => by omega⟩
      | false =>
          rw [now, Bool.false_or, Bool.and_eq_true, Bool.not_eq_true'] at waiting
          obtain ⟨t, before, accepted, alone⟩ := found waiting.1
          refine ⟨t, by omega, accepted, fun v from_ until_ => ?_⟩
          rcases Nat.lt_succ_iff_lt_or_eq.mp until_ with earlier | rfl
          · exact alone v from_ earlier
          · exact ⟨now, waiting.2⟩

theorem waiting_response (trace : IsTrace step s i) {t u : Nat}
    (accepted : hdshk (s t) (i t) = true)
    (quiet : ∀ v, t < v → v < u → (i v).icbRspReady = false ∧ hdshk (s v) (i v) = false)
    {v : Nat} (from_ : t < v) (until_ : v ≤ u) :
    (s v).icbRspValid = true ∧ (v ≠ t + 1 → (s v).icbRspRdata = 0) := by
  induction v, from_ using Nat.le_induction with
  | base =>
      refine ⟨?_, fun absurdity => absurd rfl absurdity⟩
      rw [rspValid_succ trace, accepted, Bool.true_or]
  | succ v begun held =>
      obtain ⟨unready, idle⟩ := quiet v begun (by omega)
      have waits := (held (by omega)).1
      refine ⟨?_, fun _ => ?_⟩
      · rw [rspValid_succ trace, idle, waits, answers, unready, Bool.and_false]
        rfl
      · rw [rspRdata_succ trace, idle]
        rfl

theorem AnsweredAt.takenInTime (trace : IsTrace step s i) {t u : Nat}
    (answered : AnsweredAt s i t u) : TakenInTime s i t := by
  have taken := answered.taken
  rw [answers, Bool.and_eq_true] at taken
  refine ⟨u, answered.later, taken.2, fun v from_ until_ => ⟨?_, answered.alone v from_ until_⟩,
    ?_⟩
  · have waits := (answered.stable v from_ until_.le).1
    have untaken := answered.next v from_ until_
    rwa [answers, waits, Bool.true_and] at untaken
  · by_cases prompt : u = t + 1
    · exact Or.inl prompt
    · right
      intro read
      have later := answered.later
      have same := (answered.stable (t + 2) (by omega) (by omega)).2
      rw [rspRdata_cleared trace answered.accepted, rspRdata_succ trace, answered.accepted,
        read] at same
      exact same.symm

theorem TakenInTime.answeredAt (trace : IsTrace step s i) {t : Nat}
    (accepted : hdshk (s t) (i t) = true) (inTime : TakenInTime s i t) :
    ∃ u, AnsweredAt s i t u := by
  obtain ⟨u, later, ready, quiet, prompt⟩ := inTime
  have waits {v : Nat} (from_ : t < v) (until_ : v ≤ u) :=
    waiting_response trace accepted quiet from_ until_
  have first := rspRdata_succ trace t
  rw [accepted, Bool.true_and] at first
  have settled (v : Nat) (from_ : t < v) (until_ : v ≤ u) :
      (s v).icbRspRdata = (s (t + 1)).icbRspRdata := by
    by_cases now : v = t + 1
    · rw [now]
    · rw [(waits from_ until_).2 now, first]
      rcases prompt with immediate | zero
      · omega
      · split_ifs with read
        · exact (zero read).symm
        · rfl
  refine ⟨u, accepted, later, ?_, fun v from_ until_ => ?_, fun v from_ until_ =>
    (quiet v from_ until_).2, fun v from_ until_ => ⟨(waits from_ until_).1,
    settled v from_ until_⟩, fun read _ => ?_⟩
  · rw [answers, (waits later le_rfl).1, ready]
    rfl
  · rw [answers, (quiet v from_ until_).1, Bool.and_false]
  · rw [settled u later le_rfl, first, if_pos read]

/-- Every command is answered once, with its own data, exactly when every response is
taken in time. -/
theorem answersOnce_iff (trace : IsTrace step s i) (initial : s 0 = reset) :
    AnswersOnce s i ↔ ∀ t, hdshk (s t) (i t) = true → TakenInTime s i t := by
  constructor
  · intro once t accepted
    obtain ⟨u, answered⟩ := once.answered t accepted
    exact answered.takenInTime trace
  · intro inTime
    have answered (t : Nat) (accepted : hdshk (s t) (i t) = true) :=
      (inTime t accepted).answeredAt trace accepted
    refine ⟨answered, fun u taken => ?_⟩
    have waiting := taken
    rw [answers, Bool.and_eq_true] at waiting
    obtain ⟨t, before, accepted, alone⟩ := exists_command trace initial waiting.1
    obtain ⟨u', answer⟩ := answered t accepted
    -- the command's own response is the one that is taken here
    rcases Nat.lt_trichotomy u u' with early | rfl | late
    · rw [answer.next u before early] at taken
      cases taken
    · exact ⟨t, answer⟩
    · have other := (alone u' answer.later late).2
      rw [answer.taken] at other
      cases other

end Runs

/-! `IN_ADDR` is set to 5 and read back by a master that is not ready for the response in
its first cycle. -/

def slowRead (t : Nat) : Input where
  icbCmdValid := decide (t < 4)
  icbCmdRead := decide (2 ≤ t)
  icbCmdAddr := 0
  icbCmdWdata := 5
  icbRspReady := decide (t ≠ 4)
  accDone := false

theorem holdsCommands_slowRead : HoldsCommands (run step reset slowRead) slowRead := by
  intro t valid unready
  have early : t < 4 := of_decide_eq_true valid
  interval_cases t <;> revert unready <;> decide

theorem answersOnce_iff_slowRead :
    AnswersOnce (run step reset slowRead) slowRead ↔
      ∀ t, hdshk (run step reset slowRead t) (slowRead t) = true →
        TakenInTime (run step reset slowRead) slowRead t :=
  answersOnce_iff (isTrace_run step reset slowRead) rfl

/-- The response shows 5 while nobody takes it and 0 when it is taken. -/
theorem answersOnce_fails :
    ¬ ∀ (s : Nat → State) (i : Nat → Input), IsTrace step s i → s 0 = reset →
      HoldsCommands s i → AnswersOnce s i := by
  intro always
  have once := always _ _ (isTrace_run step reset slowRead) rfl holdsCommands_slowRead
  obtain ⟨u, answer⟩ := once.answered 3 (by decide)
  have later := answer.later
  by_cases prompt : u = 4
  · subst prompt
    exact absurd answer.taken (by decide)
  · exact absurd (answer.stable 5 (by omega) (by omega)).2 (by decide)

end RepVGGAcc.IcbSlave
