import Mathlib.Data.Nat.Nth
import RepVGGAcc.Driver.Rounds

/-! Driver and hardware agree on the end of each run. -/

namespace RepVGGAcc.Driver

open Clocked
open AccCfg (Config Prog)

variable {configs : Nat → Config}

theorem flags_reset : Flags false false 0 0 (reset configs) :=
  ⟨rfl, rfl, rfl, rfl⟩

theorem agrees_reset : Agrees configs 0 (reset configs) := by
  have sets : Sets configs 0 0 (reset configs) := by
    refine ⟨Nat.zero_le _, ⟨.idle, by decide, ?_⟩, fun k absurdity => ?_⟩
    · rw [settingCpu, if_pos (by decide), ← AccCfg.accConfig_eq]
      rfl
    · exact absurd absurdity (Nat.not_lt_zero _)
  exact .setting (n := 0) sets flags_reset

/-- How many stations have been passed before cycle `t`. -/
def position (s : Nat → State) (i : Nat → Input) : Nat → Nat
  | 0 => 0
  | t + 1 => position s i t + (passes (position s i t % 5) (s t) (i t)).toNat

/-! Every call returns. -/

def endsWith (s : State) : Option Prog :=
  s.cpu.ends (accepted s) s.icbSlave.icbRspValid s.icbSlave.icbRspRdata

/-- A load that waits has its data. -/
def Answered (s : State) : Prop :=
  s.cpu.port = .waiting → s.cpu.cmdRead = true ∧ s.icbSlave.icbRspValid = true

section Calls

variable {s : State}

theorem resume_port (cpu : Cpu) (go : Bool) (rest : Prog) :
    (cpu.resume configs go rest).port = .turn go := by
  cases rest <;> rfl

theorem endsWith_ret {value : BitVec 32} (rest : s.cpu.rest = .ret value) :
    endsWith s = some (.ret value) := by
  rw [endsWith, Cpu.ends, rest]

theorem endsWith_load {addr : BitVec 32} {next : BitVec 32 → Prog} {rest : Prog}
    (load : s.cpu.rest = .load addr next) (ended : endsWith s = some rest) :
    ∃ data, rest = next data := by
  rw [endsWith, Cpu.ends, load] at ended
  cases port : s.cpu.port with
  | waiting =>
      rw [port] at ended
      cases valid : s.icbSlave.icbRspValid with
      | true =>
          rw [valid] at ended
          exact ⟨_, (Option.some.inj ended).symm⟩
      | false =>
          rw [valid] at ended
          cases ended
  | _ =>
      rw [port] at ended
      cases ended

theorem endsWith_store {addr data : BitVec 32} {next rest : Prog}
    (store : s.cpu.rest = .store addr data next) (ended : endsWith s = some rest) :
    rest = next := by
  rw [endsWith, Cpu.ends, store] at ended
  cases port : s.cpu.port with
  | asking =>
      rw [port] at ended
      cases accepts : accepted s with
      | true =>
          rw [accepts] at ended
          exact (Option.some.inj ended).symm
      | false =>
          rw [accepts] at ended
          cases ended
  | _ =>
      rw [port] at ended
      cases ended

theorem ends_waiting (answered : Answered s) (waits : s.cpu.port = .waiting) :
    (endsWith s).isSome = true := by
  obtain ⟨read, valid⟩ := answered waits
  unfold Cpu.cmdRead at read
  rw [endsWith, Cpu.ends, waits, valid]
  cases rest : s.cpu.rest with
  | load addr next => rfl
  | _ => rw [rest] at read; cases read

theorem accepted_of_asking (asks : s.cpu.port = .asking) (unended : endsWith s = none) :
    s.cpu.cmdValid = true ∧ accepted s = s.icbSlave.icbCmdReady := by
  have valid : s.cpu.cmdValid = true := by
    rw [Cpu.cmdValid, asks]
    cases rest : s.cpu.rest with
    | ret value =>
        rw [endsWith_ret rest] at unended
        cases unended
    | _ => rfl
  refine ⟨valid, ?_⟩
  show (s.cpu.cmdValid && s.icbSlave.icbCmdReady) = _
  rw [valid, Bool.true_and]

theorem cmdRead_of_accepted (unended : endsWith s = none) (accepts : accepted s = true) :
    s.cpu.cmdRead = true := by
  unfold endsWith Cpu.ends at unended
  rw [asking_of_accepted accepts] at unended
  unfold Cpu.cmdRead
  cases rest : s.cpu.rest with
  | load addr next => rfl
  | ret value =>
      rw [rest] at unended
      cases unended
  | store addr data next =>
      rw [rest, accepts] at unended
      cases unended

theorem cpu_unended (unended : endsWith s = none) (i : Input) :
    (step configs s i).cpu = { s.cpu with port := s.cpu.portNext i.go (accepted s) } := by
  rw [cpu_step, Cpu.step, ← endsWith, unended]

theorem cpu_ended {rest : Prog} (ended : endsWith s = some rest) (i : Input) :
    (step configs s i).cpu = s.cpu.resume configs i.go rest := by
  rw [cpu_step, Cpu.step, ← endsWith, ended]

theorem Answered.step (answered : Answered s) (i : Input) : Answered (step configs s i) := by
  intro waits
  cases ended : endsWith s with
  | some rest =>
      rw [cpu_ended ended, resume_port] at waits
      exact absurd waits (turn_ne_waiting i.go)
  | none =>
      rw [cpu_unended ended] at waits ⊢
      change s.cpu.portNext i.go (accepted s) = .waiting at waits
      cases port : s.cpu.port with
      | idle =>
          rw [portNext_idle port] at waits
          exact absurd waits (turn_ne_waiting i.go)
      | asking =>
          have accepts : accepted s = true := by
            by_contra unaccepted
            rw [portNext_asking port, if_neg unaccepted] at waits
            cases waits
          refine ⟨cmdRead_of_accepted ended accepts, ?_⟩
          show (if accepted s = true then true else _) = true
          rw [if_pos accepts]
      | waiting =>
          have now := ends_waiting answered port
          rw [ended] at now
          cases now

/-- The end of an access is either that of its call, or the call goes on. -/
theorem goes_on {rest : Prog} (ended : endsWith s = some rest) (i : Input) :
    (∃ value, returns s = some (s.cpu.call, value)) ∨
      (step configs s i).cpu.rest = rest ∧ (step configs s i).cpu.call = s.cpu.call ∧
        (step configs s i).cpu.round = s.cpu.round := by
  rw [cpu_ended ended]
  cases rest with
  | ret value =>
      refine Or.inl ⟨value, ?_⟩
      rw [returns, ← endsWith, ended]
  | _ => exact Or.inr ⟨rfl, rfl, rfl⟩

def turnsLeft (s : State) : Nat :=
  match s.cpu.port with
  | .idle => 4
  | .asking => if s.icbSlave.icbCmdReady then 2 else 3
  | .waiting => 1

/-- The processor does not put its next access off. -/
def turns (s : State) (i : Input) : Prop :=
  s.cpu.port ≠ .idle ∨ i.go = true

theorem icbCmdReady_step (valid : s.cpu.cmdValid = true) (unaccepted : accepted s = false)
    (i : Input) : (step configs s i).icbSlave.icbCmdReady = true := by
  show (if accepted s = true then false
    else if s.cpu.cmdValid = true then true else s.icbSlave.icbCmdReady) = true
  rw [unaccepted, valid]
  rfl

theorem turnsLeft_step (answered : Answered s) (unended : endsWith s = none) (i : Input) :
    turnsLeft (step configs s i) ≤ turnsLeft s ∧
      (turns s i → turnsLeft (step configs s i) < turnsLeft s) := by
  have cpu := @cpu_unended configs s unended i
  cases port : s.cpu.port with
  | idle =>
      rw [portNext_idle port] at cpu
      unfold turnsLeft turns
      rw [cpu, port]
      cases go : i.go with
      | false => exact ⟨Nat.le_refl 4, fun turning => by simp at turning⟩
      | true =>
          have fewer (ready : Bool) : (if ready = true then 2 else 3) < 4 := by
            cases ready <;> decide
          exact ⟨(fewer _).le, fun _ => fewer _⟩
  | asking =>
      obtain ⟨valid, accepts⟩ := accepted_of_asking port unended
      have fewer : turnsLeft (step configs s i) < turnsLeft s := by
        rw [portNext_asking port, accepts] at cpu
        unfold turnsLeft
        rw [cpu, port]
        cases ready : s.icbSlave.icbCmdReady with
        | true => exact Nat.one_lt_two
        | false =>
            rw [ready] at accepts
            rw [icbCmdReady_step valid accepts]
            exact Nat.lt_succ_self 2
      exact ⟨fewer.le, fun _ => fewer⟩
  | waiting =>
      have now := ends_waiting answered port
      rw [unended] at now
      cases now

end Calls

structure InCall (before after : Cpu) : Prop where
  round : after.round = before.round
  call : after.call = before.call
  rest : after.rest = before.rest

def Returns (s : Nat → State) (t : Nat) : Prop :=
  ∃ u, t ≤ u ∧ (s u).cpu.round = (s t).cpu.round ∧
    ∃ value, returns (s u) = some ((s t).cpu.call, value)

section Calls

variable {s : Nat → State} {i : Nat → Input} (trace : IsTrace (step configs) s i)
  (answered : Answered (s 0)) (goes : ∀ t, ∃ u, t ≤ u ∧ (i u).go = true)

include trace answered goes

/-- An access ends, and until then the processor does nothing else. -/
theorem exists_endsWith (t : Nat) : ∃ n rest, endsWith (s (t + n)) = some rest ∧
    InCall (s t).cpu (s (t + n)).cpu := by
  have answered (t : Nat) : Answered (s t) :=
    trace.always answered (fun u held => Answered.step held (i u)) t
  have ends : ∃ n, (endsWith (s (t + n))).isSome = true := by
    have ticks (m : Nat) : ∃ u, m ≤ u ∧ turns (s u) (i u) := by
      obtain ⟨u, later, go⟩ := goes m
      exact ⟨u, later, Or.inr go⟩
    obtain ⟨u, later, now⟩ := @eventually_of_measure (fun u => turnsLeft (s u))
      (fun u => turns (s u) (i u)) (fun u => (endsWith (s u)).isSome = true) t ticks
      fun u _ unended => by
        simp only [trace u]
        exact turnsLeft_step (answered u) (Option.not_isSome_iff_eq_none.mp unended) (i u)
    exact ⟨u - t, by rwa [Nat.add_sub_cancel' later]⟩
  have same (n : Nat) (before : ∀ m < n, ¬ (endsWith (s (t + m))).isSome = true) :
      InCall (s t).cpu (s (t + n)).cpu := by
    induction n with
    | zero => exact ⟨rfl, rfl, rfl⟩
    | succ n held =>
        have unended := Option.not_isSome_iff_eq_none.mp (before n (by omega))
        rw [← Nat.add_assoc, trace (t + n), cpu_unended unended]
        obtain ⟨round, call, rest⟩ := held fun m less => before m (by omega)
        exact ⟨round, call, rest⟩
  obtain ⟨rest, ended⟩ := Option.isSome_iff_exists.mp (Nat.find_spec ends)
  exact ⟨Nat.find ends, rest, ended, same _ fun m => Nat.find_min ends⟩

/-- Whatever its program is, a call returns. The induction is on what remains of it. -/
theorem exists_returns (t : Nat) : Returns s t := by
  have onward {t n : Nat} {rest : Prog} (ended : endsWith (s (t + n)) = some rest)
      (same : InCall (s t).cpu (s (t + n)).cpu)
      (next : ∀ u, (s u).cpu.rest = rest → Returns s u) : Returns s t := by
    rcases @goes_on configs (s (t + n)) rest ended (i (t + n)) with ⟨value, now⟩ | turned
    · exact ⟨t + n, Nat.le_add_right t n, same.round, value, same.call ▸ now⟩
    · rw [← trace (t + n)] at turned
      obtain ⟨rest_eq, call, round⟩ := turned
      obtain ⟨u, later, round', value, now⟩ := next _ rest_eq
      exact ⟨u, by omega, round'.trans (round.trans same.round), value,
        (call.trans same.call) ▸ now⟩
  have returned (rest : Prog) : ∀ t, (s t).cpu.rest = rest → Returns s t := by
    induction rest with
    | ret value =>
        intro t rest
        refine ⟨t, Nat.le_refl t, rfl, value, ?_⟩
        rw [returns, ← endsWith, endsWith_ret rest]
    | load addr next goesOn =>
        intro t rest
        obtain ⟨n, rest', ended, same⟩ := exists_endsWith trace answered goes t
        obtain ⟨data, rfl⟩ := endsWith_load (same.rest.trans rest) ended
        exact onward ended same (goesOn data)
    | store addr data next goesOn =>
        intro t rest
        obtain ⟨n, rest', ended, same⟩ := exists_endsWith trace answered goes t
        obtain rfl := endsWith_store (same.rest.trans rest) ended
        exact onward ended same goesOn
  exact returned _ t rfl

end Calls

/-- What the first return brings about and the second one rules out does not come. -/
theorem not_forever {s : Nat → State} {P : Nat → Prop} {t : Nat} (calls : ∀ t, Returns s t)
    (found : ∀ u, t ≤ u → returns (s u) ≠ none → P (u + 1))
    (keeps : ∀ u, t ≤ u → P u → P (u + 1)) (silent : ∀ u, t ≤ u → P u → returns (s u) = none) :
    False := by
  obtain ⟨u, later, -, value, now⟩ := calls t
  obtain ⟨v, later', -, value', now'⟩ := calls (u + 1)
  have holds (v : Nat) (later' : u + 1 ≤ v) : P v := by
    induction v, later' using Nat.le_induction with
    | base => exact found u later (now ▸ Option.some_ne_none _)
    | succ v later' held => exact keeps v (by omega) held
  rw [silent v (by omega) (holds v later')] at now'
  cases now'

/-! The processor before the start of a run. -/

namespace Sets

variable {n j : Nat} {s : State}

theorem started_of_accepted (sets : Sets configs n 7 s) (accepts : accepted s = true) :
    started s = true := by
  rw [started, sets.returns_start accepts]
  exact beq_self_eq_true _

theorem accepted_of_returns (sets : Sets configs n j s) (returned : returns s ≠ none) :
    accepted s = true := by
  by_contra unaccepted
  exact returned (returns_unaccepted sets.access sets.not_waiting
    (Bool.eq_false_iff.mpr unaccepted))

theorem keeps (sets : Sets configs n 7 s) (unstarted : started s = false) (i : Input) :
    Sets configs n 7 (step configs s i) := by
  refine sets.step_unaccepted (Bool.eq_false_iff.mpr fun accepts => ?_) i
  rw [sets.started_of_accepted accepts] at unstarted
  cases unstarted

theorem step_returns (sets : Sets configs n j s) (returned : returns s ≠ none)
    (unstarted : started s = false) (i : Input) : Sets configs n 7 (step configs s i) := by
  have accepts := sets.accepted_of_returns returned
  rcases Nat.lt_or_eq_of_le sets.bound with more | rfl
  · by_cases last : j + 1 < 7
    · rw [returns, ends_accepted (sets.rest_config more) accepts,
        (configs n).stores_of_lt last] at returned
      exact absurd rfl returned
    · obtain rfl : j = 6 := by omega
      exact sets.step_config more accepts i
  · rw [sets.started_of_accepted accepts] at unstarted
    cases unstarted

end Sets

/-! The processor after the end of a run. -/

/-- The status is 1 when it is read, or has been read. -/
def Finds (n : Nat) (s : State) : Prop :=
  Polls n 1 s ∨ Clears n s

theorem Finds.returns_eq {n : Nat} {s : State} (finds : Finds n s)
    (unreported : reports s = false) : returns s = none := by
  rcases finds with polls | clears
  · exact polls.returns_answered
  · cases accepts : accepted s with
    | false => exact returns_unaccepted clears.access clears.not_waiting accepts
    | true =>
        rw [reports, clears.returns_accepted accepts] at unreported
        cases unreported

theorem Finds.step {n : Nat} {s : State} (finds : Finds n s) (set : s.icbSlave.done = 1)
    (unreported : reports s = false) (i : Input) : Finds n (step configs s i) := by
  rcases finds with polls | clears
  · by_cases waits : s.cpu.port = .waiting
    · exact Or.inr (polls.step_answered waits i)
    · have polls' : Polls n _ (Driver.step configs s i) :=
        polls.step (fun waiting => absurd waiting waits) i
      rw [set] at polls'
      exact Or.inl polls'
  · refine Or.inr (clears.step_unaccepted (Bool.eq_false_iff.mpr fun accepts => ?_) i)
    rw [reports, clears.returns_accepted accepts] at unreported
    cases unreported

/-- A call that returns unreported has read 0; the next one finds 1. -/
theorem finds_of_returns {n : Nat} {s : State} (checks : Polls n 0 s ∨ Polls n 1 s ∨ Clears n s)
    (set : s.icbSlave.done = 1) (unreported : reports s = false) (returned : returns s ≠ none)
    (i : Input) : Finds n (step configs s i) := by
  rcases checks with polls | finds
  · have polls' : Polls n _ (step configs s i) := polls.step (fun _ => rfl) i
    rw [set] at polls'
    exact Or.inl polls'
  · exact absurd (Finds.returns_eq finds unreported) returned

theorem Polls.waits_accepted {n : Nat} {answer : BitVec 32} {s : State}
    (polls : Polls n answer s) (accepts : accepted s = true) (i : Input) :
    (Driver.step configs s i).cpu.port = .waiting := by
  have next := @cpu_step configs s i
  have asking := asking_of_accepted accepts
  rw [Cpu.step, polls.ends_eq, asking, accepts] at next
  rw [next]
  exact portNext_asking asking i.go true

theorem Polls.returns_zero_iff {n : Nat} {answer : BitVec 32} {s : State}
    (polls : Polls n answer s) (waits : s.cpu.port = .waiting) :
    returns s = some (.check, 0) ↔ answer = 0 := by
  rw [returns, polls.ends_eq, if_pos waits, polls.call_eq]
  by_cases zero : answer = 0
  · rw [if_neg (not_not_intro zero), zero]
    exact ⟨fun _ => rfl, fun _ => rfl⟩
  · rw [if_pos zero]
    refine iff_of_false (fun absurdity => ?_) zero
    cases absurdity

/-! What holds at a station. -/

namespace Agrees

variable {pos : Nat} {s : State}

theorem begins (agrees : Agrees configs pos s) (at_ : pos % 5 = 1) : Driver.begins s = true := by
  cases agrees with
  | starting polls written flags => exact flags.begins_eq
  | _ => omega

theorem busy (agrees : Agrees configs pos s) (at_ : pos % 5 = 2) :
    s.mainFsm.state ≠ .idle := by
  cases agrees with
  | running polls written flags => exact bne_iff_ne.mp flags.busy
  | _ => omega

theorem accDone (agrees : Agrees configs pos s) (at_ : pos % 5 = 3) :
    s.mainFsm.accDone = true := by
  cases agrees with
  | ending polls flags => exact flags.accDone
  | _ => omega

theorem sets (agrees : Agrees configs pos s) (at_ : pos % 5 = 0) :
    ∃ n j, Sets configs n j s := by
  cases agrees with
  | setting sets flags => exact ⟨_, _, sets⟩
  | _ => omega

theorem checks (agrees : Agrees configs pos s) (at_ : pos % 5 = 4) :
    ∃ n, (Polls n 0 s ∨ Polls n 1 s ∨ Clears n s) ∧ s.icbSlave.done = 1 := by
  cases agrees with
  | ended checks flags => exact ⟨_, checks, flags.done⟩
  | _ => omega

theorem heldBy (agrees : Agrees configs pos s) (busy : s.mainFsm.state ≠ .idle) :
    pos = 5 * s.cpu.round + 2 ∧ (configs s.cpu.round).HeldBy s.icbSlave := by
  have runs : (s.mainFsm.state != .idle) = true := bne_iff_ne.mpr busy
  cases agrees with
  | running polls written flags =>
      obtain ⟨port, cpu⟩ := polls.cpu
      rw [cpu]
      exact ⟨rfl, written.heldBy⟩
  | setting sets flags => exact absurd (runs.symm.trans flags.busy) (by decide)
  | starting polls written flags => exact absurd (runs.symm.trans flags.busy) (by decide)
  | ending polls flags => exact absurd (runs.symm.trans flags.busy) (by decide)
  | ended checks flags => exact absurd (runs.symm.trans flags.busy) (by decide)

theorem round_eq (agrees : Agrees configs pos s) : s.cpu.round = pos / 5 := by
  have polling {n : Nat} {answer : BitVec 32} (polls : Polls n answer s) : s.cpu.round = n := by
    obtain ⟨port, cpu⟩ := polls.cpu
    rw [cpu]
    rfl
  cases agrees with
  | @setting n j _ sets flags =>
      obtain ⟨port, -, cpu⟩ := sets.cpu
      rw [cpu, settingCpu]
      split_ifs <;> show n = _ <;> omega
  | starting polls written flags => rw [polling polls]; omega
  | running polls written flags => rw [polling polls]; omega
  | ending polls flags => rw [polling polls]; omega
  | @ended n _ checks flags =>
      rcases checks with polls | polls | ⟨port, -, cpu⟩
      · rw [polling polls]
        omega
      · rw [polling polls]
        omega
      · rw [cpu]
        show n = _
        omega

theorem polled (agrees : Agrees configs pos s) (reads : s.cpu.cmdRead = true) :
    (∃ n answer, Polls n answer s) ∧ (s.icbSlave.done = 0 ↔ pos % 5 ≠ 4) := by
  have stores {addr data : BitVec 32} {next : AccCfg.Prog}
      (rest : s.cpu.rest = .store addr data next) : False := by
    rw [Cpu.cmdRead, rest] at reads
    cases reads
  cases agrees with
  | @setting n j _ sets flags =>
      rcases Nat.lt_or_eq_of_le sets.bound with more | rfl
      · exact (stores (sets.rest_config more)).elim
      · exact (stores sets.rest_start).elim
  | starting polls written flags => exact ⟨⟨_, _, polls⟩, iff_of_true flags.done (by omega)⟩
  | running polls written flags => exact ⟨⟨_, _, polls⟩, iff_of_true flags.done (by omega)⟩
  | ending polls flags => exact ⟨⟨_, _, polls⟩, iff_of_true flags.done (by omega)⟩
  | ended checks flags =>
      refine ⟨?_, iff_of_false (by rw [flags.done]; decide) (by omega)⟩
      rcases checks with polls | polls | clears
      · exact ⟨_, _, polls⟩
      · exact ⟨_, _, polls⟩
      · exact (stores clears.rest_eq).elim

end Agrees

/-! Runs of the program. -/

/-- What surrounds driver and hardware: the end of each phase is reported once, while
`main_fsm` waits for it, and no access is put off for ever. -/
structure Environment (s : Nat → State) (i : Nat → Input) : Prop where
  inPhase : ∀ t, InPhase (s t) (i t)
  weightComes : ∀ t, (s t).mainFsm.state = .wsetup → ∃ u, t ≤ u ∧ (i u).weightDone = true
  imapComes : ∀ t, (s t).mainFsm.state = .isetup → ∃ u, t ≤ u ∧ (i u).imapDone = true
  convComes : ∀ t, (s t).mainFsm.state = .conv → ∃ u, t ≤ u ∧ (i u).convDone = true
  goes : ∀ t, ∃ u, t ≤ u ∧ (i u).go = true

def countOf (event : State → Bool) (s : Nat → State) (t : Nat) : Nat :=
  Nat.count (fun u => event (s u) = true) t

def ends (s : State) : Bool :=
  s.mainFsm.accDone

/-- Driver and hardware agree on the end of each run. -/
structure AgreeOnCompletion (configs : Nat → Config) (s : Nat → State) : Prop where
  /-- A run begins in the cycle after `acc_start` returns, and in no other. -/
  begins : Driver.begins (s 0) = false ∧ ∀ t, Driver.begins (s (t + 1)) = started (s t)
  /-- A run sees the registers that the last call of `acc_config` has written. -/
  sees : ∀ t, (s t).mainFsm.state ≠ .idle →
    (configs (s t).cpu.round).HeldBy (s t).icbSlave ∧
      countOf started s t = (s t).cpu.round + 1
  /-- The next run is not started before the end of the last one is reported, and no end
  is reported twice. -/
  once : ∀ t, countOf reports s t ≤ countOf ends s t ∧
    countOf ends s t ≤ countOf Driver.begins s t ∧
    countOf Driver.begins s t ≤ countOf started s t ∧
    countOf started s t ≤ countOf reports s t + 1
  /-- A poll returns 0 if no end of a run waits to be reported when it reads the status. -/
  polled : ∀ t, accepted (s t) = true → (s t).cpu.cmdRead = true →
    (returns (s (t + 1)) = some (.check, 0) ↔ countOf reports s t = countOf ends s t)
  /-- Each run ends. -/
  ended : ∀ t, Driver.begins (s t) = true → ∃ u, t < u ∧ ends (s u) = true
  /-- No end is lost. -/
  reported : ∀ t, ends (s t) = true → ∃ u, t < u ∧ reports (s u) = true
  /-- Every call returns. -/
  returned : ∀ t, Returns s t
  /-- Each round of the program starts a run, and is over when its end is reported. -/
  rounds : ∀ t, (s t).cpu.round = countOf reports s t
  starts : ∀ n, ∃ t, started (s t) = true ∧ (s t).cpu.round = n

section Runs

variable {s : Nat → State} {i : Nat → Input}

theorem agrees (first : s 0 = reset configs) (trace : IsTrace (step configs) s i)
    (inPhase : ∀ t, InPhase (s t) (i t)) (t : Nat) : Agrees configs (position s i t) (s t) := by
  induction t with
  | zero =>
      rw [first]
      exact agrees_reset
  | succ t agreed =>
      rw [trace t]
      exact agreed.step (inPhase t)

theorem goesRound (first : s 0 = reset configs) (trace : IsTrace (step configs) s i)
    (inPhase : ∀ t, InPhase (s t) (i t)) :
    GoesRound 5 (position s i) (fun c t => passes c (s t) (i t)) where
  start := rfl
  passes _ := rfl
  here _ station t now := (agrees first trace inPhase t).here (inPhase t) station now

theorem begins_succ (first : s 0 = reset configs) (trace : IsTrace (step configs) s i)
    (inPhase : ∀ t, InPhase (s t) (i t)) (t : Nat) : begins (s (t + 1)) = started (s t) := by
  have ring := goesRound first trace inPhase
  have agreed := agrees first trace inPhase
  have passed := ring.passes t
  cases now : started (s t) with
  | true =>
      have here := ring.here 0 (by decide) t now
      rw [here, show passes 0 (s t) (i t) = true from now, Bool.toNat_true] at passed
      exact (agreed (t + 1)).begins (by omega)
  | false =>
      refine Bool.eq_false_iff.mpr fun begun => ?_
      have here := ring.here 1 (by decide) (t + 1) begun
      by_cases before : position s i t % 5 = 1
      -- the station of the begin is passed in one cycle
      · rw [before, show passes 1 (s t) (i t) = true from (agreed t).begins before,
          Bool.toNat_true] at passed
        omega
      · have moved := Bool.toNat_le (passes (position s i t % 5) (s t) (i t))
        have at_ : position s i t % 5 = 0 := by omega
        rw [at_, show passes 0 (s t) (i t) = false from now, Bool.toNat_false] at passed
        omega

theorem exists_convDone (trace : IsTrace (step configs) s i) (environment : Environment s i)
    {t : Nat} (busy : (s t).mainFsm.state ≠ .idle) : ∃ u, t ≤ u ∧ (i u).convDone = true := by
  have next (u : Nat) : (s (u + 1)).mainFsm.state =
      MainFsm.nextState (s u).mainFsm (mainInput (s u) (i u)) := by
    rw [trace u]
    rfl
  have fromIsetup {t : Nat} (isetup : (s t).mainFsm.state = .isetup) :
      ∃ u, t ≤ u ∧ (i u).convDone = true := by
    obtain ⟨u, later, now⟩ := environment.imapComes t isetup
    have conv : (s (u + 1)).mainFsm.state = .conv := by
      rw [next, MainFsm.nextState, (environment.inPhase u).imapDone now]
      exact if_pos now
    obtain ⟨v, later', now'⟩ := environment.convComes (u + 1) conv
    exact ⟨v, by omega, now'⟩
  cases state : (s t).mainFsm.state with
  | idle => exact absurd state busy
  | wsetup =>
      obtain ⟨u, later, now⟩ := environment.weightComes t state
      have isetup : (s (u + 1)).mainFsm.state = .isetup := by
        rw [next, MainFsm.nextState, (environment.inPhase u).weightDone now]
        exact if_pos now
      obtain ⟨v, later', now'⟩ := fromIsetup isetup
      exact ⟨v, by omega, now'⟩
  | isetup => exact fromIsetup state
  | conv => exact environment.convComes t state

theorem calls (first : s 0 = reset configs) (trace : IsTrace (step configs) s i)
    (environment : Environment s i) (t : Nat) : Returns s t := by
  refine exists_returns trace (fun waits => ?_) environment.goes t
  rw [first] at waits
  cases waits

/-- Every run is started. -/
theorem exists_started (first : s 0 = reset configs) (trace : IsTrace (step configs) s i)
    (environment : Environment s i) {t : Nat} (at_ : position s i t % 5 = 0) :
    ∃ u, t ≤ u ∧ started (s u) = true := by
  by_contra never
  have unstarted (u : Nat) (later : t ≤ u) : started (s u) = false :=
    Bool.eq_false_iff.mpr fun now => never ⟨u, later, now⟩
  have agreed (u : Nat) (later : t ≤ u) : ∃ n j, Sets configs n j (s u) := by
    have ring := goesRound first trace environment.inPhase
    refine (agrees first trace environment.inPhase u).sets ?_
    rwa [ring.stays at_ unstarted later]
  refine not_forever (t := t) (P := fun u => ∃ n, Sets configs n 7 (s u))
    (calls first trace environment) (fun u later returned => ?_)
    (fun u later ⟨n, sets⟩ => ?_) fun u later ⟨n, sets⟩ => ?_
  · obtain ⟨n, j, sets⟩ := agreed u later
    rw [trace u]
    exact ⟨n, sets.step_returns returned (unstarted u later) (i u)⟩
  · rw [trace u]
    exact ⟨n, sets.keeps (unstarted u later) (i u)⟩
  · by_contra returned
    have now := sets.started_of_accepted (sets.accepted_of_returns returned)
    rw [unstarted u later] at now
    cases now

/-- An end of a run that waits to be reported is reported. -/
theorem exists_reports (first : s 0 = reset configs) (trace : IsTrace (step configs) s i)
    (environment : Environment s i) {t : Nat} (at_ : position s i t % 5 = 4) :
    ∃ u, t ≤ u ∧ reports (s u) = true := by
  by_contra never
  have unreported (u : Nat) (later : t ≤ u) : reports (s u) = false :=
    Bool.eq_false_iff.mpr fun now => never ⟨u, later, now⟩
  have agreed (u : Nat) (later : t ≤ u) : ∃ n,
      (Polls n 0 (s u) ∨ Polls n 1 (s u) ∨ Clears n (s u)) ∧ (s u).icbSlave.done = 1 := by
    have ring := goesRound first trace environment.inPhase
    refine (agrees first trace environment.inPhase u).checks ?_
    rwa [ring.stays at_ unreported later]
  refine not_forever (t := t) (P := fun u => ∃ n, Finds n (s u))
    (calls first trace environment) (fun u later returned => ?_)
    (fun u later ⟨n, finds⟩ => ?_) fun u later ⟨n, finds⟩ =>
      finds.returns_eq (unreported u later)
  · obtain ⟨n, checks, set⟩ := agreed u later
    rw [trace u]
    exact ⟨n, finds_of_returns checks set (unreported u later) returned (i u)⟩
  · obtain ⟨_, _, set⟩ := agreed u later
    rw [trace u]
    exact ⟨n, finds.step set (unreported u later) (i u)⟩

theorem exists_passes (first : s 0 = reset configs) (trace : IsTrace (step configs) s i)
    (environment : Environment s i) {c : Nat} (station : c < 5) (t : Nat) :
    ∃ u, t ≤ u ∧ passes c (s u) (i u) = true := by
  refine (goesRound first trace environment.inPhase).exists_event (fun t => ?_) station t
  have agreed := agrees first trace environment.inPhase t
  have inside := Nat.mod_lt (position s i t) (by decide : 0 < 5)
  obtain at_ | at_ | at_ | at_ | at_ : position s i t % 5 = 0 ∨ position s i t % 5 = 1 ∨
    position s i t % 5 = 2 ∨ position s i t % 5 = 3 ∨ position s i t % 5 = 4 := by omega
  all_goals rw [at_]
  · exact exists_started first trace environment at_
  · exact ⟨t, Nat.le_refl t, agreed.begins at_⟩
  · exact exists_convDone trace environment (agreed.busy at_)
  · exact ⟨t, Nat.le_refl t, agreed.accDone at_⟩
  · exact exists_reports first trace environment at_

theorem agreeOnCompletion (first : s 0 = reset configs) (trace : IsTrace (step configs) s i)
    (environment : Environment s i) : AgreeOnCompletion configs s := by
  have ring := goesRound first trace environment.inPhase
  have agreed := agrees first trace environment.inPhase
  have starts (t : Nat) : countOf started s t = (position s i t + 4) / 5 :=
    ring.count_event (by decide : 0 < 5) t
  have begun (t : Nat) : countOf begins s t = (position s i t + 3) / 5 :=
    ring.count_event (by decide : 1 < 5) t
  have ended (t : Nat) : countOf ends s t = (position s i t + 1) / 5 :=
    ring.count_event (by decide : 3 < 5) t
  have reported (t : Nat) : countOf reports s t = position s i t / 5 :=
    ring.count_event (by decide : 4 < 5) t
  refine ⟨⟨?_, begins_succ first trace environment.inPhase⟩, fun t busy => ?_, fun t => ?_,
    fun t accepts reads => ?_,
    fun t now => ?_, fun t now => ?_, calls first trace environment,
    fun t => (agreed t).round_eq.trans (reported t).symm, fun n => ?_⟩
  · rw [first]
    exact flags_reset.begins_eq
  · obtain ⟨at_, holds⟩ := (agreed t).heldBy busy
    refine ⟨holds, ?_⟩
    rw [starts, at_]
    omega
  · rw [starts, begun, ended, reported]
    omega
  · obtain ⟨⟨n, answer, polls⟩, done⟩ := (agreed t).polled reads
    have polls' : Polls n _ (step configs (s t) (i t)) :=
      polls.step (fun waits => absurd waits (by rw [asking_of_accepted accepts]; decide)) (i t)
    have waits : (step configs (s t) (i t)).cpu.port = .waiting :=
      polls.waits_accepted accepts (i t)
    rw [← trace t] at polls' waits
    rw [polls'.returns_zero_iff waits, done, ended, reported]
    omega
  · obtain ⟨u, later, now⟩ := ring.next_event (by decide : 1 + 1 < 5) now fun at_ =>
      exists_convDone trace environment ((agreed (t + 1)).busy at_)
    obtain ⟨v, later', now⟩ := ring.next_event (by decide : 2 + 1 < 5) now fun at_ =>
      ⟨u + 1, Nat.le_refl _, (agreed (u + 1)).accDone at_⟩
    exact ⟨v, by omega, now⟩
  · exact ring.next_event (by decide : 3 + 1 < 5) now fun at_ =>
      exists_reports first trace environment at_
  · have always : Set.Infinite {t | started (s t) = true} :=
      Set.infinite_of_forall_exists_gt fun t => by
        obtain ⟨u, later, now⟩ :=
          exists_passes first trace environment (by decide : 0 < 5) (t + 1)
        exact ⟨u, now, later⟩
    have now : started (s (Nat.nth (fun t => started (s t) = true) n)) = true :=
      Nat.nth_mem_of_infinite always n
    refine ⟨_, now, ?_⟩
    have counted := Nat.count_nth_of_infinite always n
    have here := ring.here 0 (by decide) _ now
    rw [(agreed _).round_eq]
    rw [← countOf, starts] at counted
    omega

end Runs

/-! A run in which each phase ends in its first cycle and no access is put off. -/

def promptInput (s : State) : Input where
  go := true
  weightDone := s.mainFsm.state == .wsetup
  imapDone := s.mainFsm.state == .isetup
  convDone := s.mainFsm.state == .conv
  outChCnt := 0

def promptRun (configs : Nat → Config) : Nat → State :=
  closedRun (step configs) (fun _ => promptInput) (reset configs)

theorem environment_prompt :
    Environment (promptRun configs) (fun t => promptInput (promptRun configs t)) where
  inPhase _ := ⟨beq_iff_eq.mp, beq_iff_eq.mp, beq_iff_eq.mp⟩
  weightComes t waits := ⟨t, Nat.le_refl t, beq_iff_eq.mpr waits⟩
  imapComes t waits := ⟨t, Nat.le_refl t, beq_iff_eq.mpr waits⟩
  convComes t waits := ⟨t, Nat.le_refl t, beq_iff_eq.mpr waits⟩
  goes t := ⟨t, Nat.le_refl t, rfl⟩

def testConfig : Config where
  imapAddr := 0x0
  w3Addr := 0x40000
  w1Addr := 0x50000
  omapAddr := 0x60000
  mapSize := 56
  inCh := 64
  outCh := 64

theorem agreeOnCompletion_prompt :
    AgreeOnCompletion (fun _ => testConfig) (promptRun fun _ => testConfig) :=
  agreeOnCompletion rfl (fun _ => rfl) environment_prompt

end RepVGGAcc.Driver
