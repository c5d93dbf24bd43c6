import RepVGGAcc.Bus.Routing
import RepVGGAcc.Clocked.Progress

/-! The bursts of a fetch engine under any grants and any responses. -/

namespace RepVGGAcc

open Clocked
open BusUnits (StartsAfterDone)

/-- A circuit that fetches bursts of a fixed length: its wires, and what its registers
hold at each point of a burst. -/
structure FetchEngine (S I : Type) where
  words : Nat
  reset : S
  step : S → I → S
  start : I → Bool
  rdy : I → Bool
  rsp : I → Bool
  vld : S → Bool
  req : S → Bool
  done : S → Bool
  At : Burst → S → Prop
  words_pos : 0 < words
  at_reset : At (.rest words) reset
  at_step : ∀ {b s i}, At b s → b.Fits words (start i) (rsp i) →
    At (b.next words (start i) (rdy i) (rsp i)) (step s i)
  issued_le : ∀ {b s}, At b s → b.issued ≤ words
  received_le : ∀ {b s}, At b s → b.received ≤ words
  doneLate : ∀ {b s}, At b s → b.done = true → b.received = words
  vld_eq : ∀ {b s}, At b s → vld s = decide (b.issued < words)
  req_eq : ∀ {b s}, At b s → req s = decide (b.received < words)
  done_eq : ∀ {b s}, At b s → done s = b.done

namespace FetchEngine

variable {S I : Type} (engine : FetchEngine S I)

def hdshk (s : S) (i : I) : Bool :=
  engine.vld s && engine.rdy i

/-- From reset on the engine is started only when its last burst is done, and no word
comes before its command. The grants are left open. -/
structure Driven (s : Nat → S) (i : Nat → I) : Prop where
  trace : IsTrace engine.step s i
  initial : s 0 = engine.reset
  starts : StartsAfterDone (fun t => engine.start (i t)) fun t => engine.done (s t)
  asked : ∀ t, engine.rsp (i t) = true →
    Nat.count (fun k => engine.rsp (i k) = true) t <
      Nat.count (fun k => engine.hdshk (s k) (i k) = true) t

/-- In the `n` cycles after a start in cycle `first` there is no other start. -/
def Quiet (i : Nat → I) (first n : Nat) : Prop :=
  ∀ k < n, engine.start (i (first + 1 + k)) = false

def issued (s : Nat → S) (i : Nat → I) (first n : Nat) : Nat :=
  Nat.count (fun k => engine.hdshk (s (first + 1 + k)) (i (first + 1 + k)) = true) n

def received (i : Nat → I) (first n : Nat) : Nat :=
  Nat.count (fun k => engine.rsp (i (first + 1 + k)) = true) n

/-- The burst started in cycle `first`, from there to the next start. -/
structure RunsBurst (s : Nat → S) (i : Nat → I) (first : Nat) : Prop where
  issued_le : ∀ n, engine.Quiet i first n → engine.issued s i first n ≤ engine.words
  received_le : ∀ n, engine.Quiet i first n →
    engine.received i first n ≤ engine.issued s i first n
  /-- Commands are offered until all are handed over, and none after that. -/
  vld : ∀ n, engine.Quiet i first n →
    (engine.vld (s (first + 1 + n)) = true ↔ engine.issued s i first n < engine.words)
  /-- The request is up until the last word is received. -/
  req : ∀ n, engine.Quiet i first n →
    (engine.req (s (first + 1 + n)) = true ↔ engine.received i first n < engine.words)
  /-- The engine reports done in the cycle after the last word, and in no other. -/
  done_first : engine.done (s (first + 1)) = false
  done_next : ∀ n, engine.Quiet i first (n + 1) →
    (engine.done (s (first + 1 + (n + 1))) = true ↔
      engine.rsp (i (first + 1 + n)) = true ∧ engine.received i first n + 1 = engine.words)
  once : ∀ n, engine.Quiet i first n →
    Nat.count (fun k => engine.done (s (first + 1 + k)) = true) (n + 1) =
      if engine.received i first n = engine.words then 1 else 0
  /-- At the next start all commands have been handed over and all words received. -/
  complete : ∀ n, engine.Quiet i first n → engine.start (i (first + 1 + n)) = true →
    engine.issued s i first n = engine.words ∧ engine.received i first n = engine.words
  /-- An arbiter that is ready again and again gets all commands. -/
  issues : (∀ t, ∃ u, t ≤ u ∧ engine.rdy (i u) = true) →
    ∃ n, engine.Quiet i first n ∧ engine.issued s i first n = engine.words
  /-- And if every command is answered some time, all words are received. -/
  finishes : (∀ t, ∃ u, t ≤ u ∧ engine.rdy (i u) = true) →
    (∀ n, ∃ m, engine.issued s i first n ≤ engine.received i first m) →
    ∃ n, engine.Quiet i first n ∧ engine.received i first n = engine.words

/-- The burst that the engine is in, by the starts, grants and responses so far. -/
def burst (i : Nat → I) : Nat → Burst
  | 0 => .rest engine.words
  | t + 1 => (burst i t).next engine.words (engine.start (i t)) (engine.rdy (i t))
      (engine.rsp (i t))

namespace Driven

variable {engine} {s : Nat → S} {i : Nat → I}

theorem hdshk_eq {b : Burst} {s : S} (held : engine.At b s) (i : I) :
    engine.hdshk s i = true ↔ engine.rdy i = true ∧ b.issued < engine.words := by
  rw [hdshk, engine.vld_eq held, Bool.and_eq_true, decide_eq_true_iff, and_comm]

structure Accounts (engine : FetchEngine S I) (s : Nat → S) (i : Nat → I) (t : Nat) : Prop where
  held : engine.At (engine.burst i t) (s t)
  counted : (engine.burst i t).Counted engine.words
    (Nat.count (fun k => engine.start (i k) = true) t)
    (Nat.count (fun k => engine.done (s k) = true) t)
    (Nat.count (fun k => engine.hdshk (s k) (i k) = true) t)
    (Nat.count (fun k => engine.rsp (i k) = true) t)
  answered : Nat.count (fun k => engine.rsp (i k) = true) t ≤
    Nat.count (fun k => engine.hdshk (s k) (i k) = true) t

theorem accounts_zero (driven : engine.Driven s i) : Accounts engine s i 0 where
  held := by
    rw [driven.initial]
    exact engine.at_reset
  counted := by
    refine ⟨?_, ?_, ?_⟩ <;> simp [burst, Burst.rest]
  answered := Nat.le_refl _

theorem fits_of_accounts (driven : engine.Driven s i) {t : Nat}
    (accounts : Accounts engine s i t) :
    (engine.burst i t).Fits engine.words (engine.start (i t)) (engine.rsp (i t)) := by
  refine accounts.counted.fits (engine.issued_le accounts.held) (engine.doneLate accounts.held)
    accounts.answered (fun starting => ?_) (driven.asked t)
  have earlier : Nat.count (fun k => engine.start (i k) = true) t ≤
      Nat.count (fun k => engine.done (s k) = true) (t + 1) := driven.starts t starting
  rw [Nat.count_succ, engine.done_eq accounts.held] at earlier
  exact earlier

theorem accounts_succ (driven : engine.Driven s i) {t : Nat}
    (accounts : Accounts engine s i t) : Accounts engine s i (t + 1) where
  held := by
    rw [driven.trace t]
    exact engine.at_step accounts.held (driven.fits_of_accounts accounts)
  counted := by
    have next : ((engine.burst i t).next engine.words (engine.start (i t)) (engine.rdy (i t))
        (engine.rsp (i t))).Counted engine.words _ _ _ _ :=
      accounts.counted.next engine.words_pos (driven.fits_of_accounts accounts)
        (engine.doneLate accounts.held)
    simp only [← hdshk_eq accounts.held, ← engine.done_eq accounts.held] at next
    rw [Nat.count_succ, Nat.count_succ, Nat.count_succ, Nat.count_succ]
    exact next
  answered := by
    have answered := accounts.answered
    rw [Nat.count_succ, Nat.count_succ]
    by_cases receive : engine.rsp (i t) = true
    · have asked := driven.asked t receive
      rw [if_pos receive]
      omega
    · rw [if_neg receive]
      omega

theorem accounts (driven : engine.Driven s i) (t : Nat) : Accounts engine s i t := by
  induction t with
  | zero => exact driven.accounts_zero
  | succ t held => exact driven.accounts_succ held

theorem held (driven : engine.Driven s i) (t : Nat) : engine.At (engine.burst i t) (s t) :=
  (driven.accounts t).held

theorem fits (driven : engine.Driven s i) (t : Nat) :
    (engine.burst i t).Fits engine.words (engine.start (i t)) (engine.rsp (i t)) :=
  driven.fits_of_accounts (driven.accounts t)

/-! One burst, in the numbers since its start. -/

section Burst

variable {first : Nat} (driven : engine.Driven s i)
  (started : engine.start (i first) = true)

include started in
theorem burst_started : engine.burst i (first + 1) = ⟨0, 0, false⟩ := by
  rw [burst, started]
  rfl

theorem burst_running {t : Nat} (running : engine.start (i t) = false) :
    engine.burst i (t + 1) = {
      issued := (engine.burst i t).issued +
        if engine.rdy (i t) = true ∧ (engine.burst i t).issued < engine.words then 1 else 0
      received := (engine.burst i t).received + if engine.rsp (i t) = true then 1 else 0
      done := engine.rsp (i t) && decide ((engine.burst i t).received + 1 = engine.words) } := by
  rw [burst, running]
  unfold Burst.next
  rw [if_neg Bool.false_ne_true]
  congr 1 <;> split_ifs <;> rfl

include driven started in
theorem burst_eq {n : Nat} (quiet : engine.Quiet i first n) :
    (engine.burst i (first + 1 + n)).issued = engine.issued s i first n ∧
      (engine.burst i (first + 1 + n)).received = engine.received i first n := by
  induction n with
  | zero =>
      rw [Nat.add_zero, burst_started started]
      exact ⟨rfl, rfl⟩
  | succ n before =>
      obtain ⟨issuedHeld, receivedHeld⟩ := before fun k inside => quiet k (by omega)
      have running := burst_running (quiet n (Nat.lt_succ_self n))
      have handed := hdshk_eq (driven.held (first + 1 + n)) (i (first + 1 + n))
      rw [← Nat.add_assoc, running]
      refine ⟨?_, ?_⟩
      · show _ = Nat.count _ (n + 1)
        simp only [Nat.count_succ, handed]
        rw [← issued, ← issuedHeld]
      · show _ = Nat.count _ (n + 1)
        rw [Nat.count_succ, ← received, ← receivedHeld]

include driven started in
theorem received_le_issued {n : Nat} :
    engine.received i first n ≤ engine.issued s i first n := by
  have total := (driven.accounts (first + 1 + n)).answered
  obtain ⟨allIssued, allReceived, silent⟩ := (driven.fits first).start started
  have counted := (driven.accounts first).counted
  have issuedCount := counted.issued
  have receivedCount := counted.received
  have noneHanded : ¬ engine.hdshk (s first) (i first) = true := by
    rw [hdshk_eq (driven.held first)]
    omega
  rw [Nat.count_add, Nat.count_add _ (first + 1), Nat.count_succ _ first, Nat.count_succ _ first,
    if_neg noneHanded, if_neg (by rw [silent]; exact Bool.false_ne_true)] at total
  unfold received issued
  omega

include driven started in
theorem done_next {n : Nat} (quiet : engine.Quiet i first (n + 1)) :
    engine.done (s (first + 1 + (n + 1))) = true ↔
      engine.rsp (i (first + 1 + n)) = true ∧
        engine.received i first n + 1 = engine.words := by
  have running := burst_running (quiet n (Nat.lt_succ_self n))
  have sofar := (driven.burst_eq started (n := n) fun k inside => quiet k (by omega)).2
  rw [engine.done_eq (driven.held _), ← Nat.add_assoc, running, ← sofar, Bool.and_eq_true,
    decide_eq_true_iff]

include driven started in
theorem done_first : engine.done (s (first + 1)) = false := by
  rw [engine.done_eq (driven.held (first + 1)), burst_started started]

include driven started in
theorem received_le {n : Nat} (quiet : engine.Quiet i first n) :
    engine.received i first n ≤ engine.words := by
  rw [← (driven.burst_eq started quiet).2]
  exact engine.received_le (driven.held _)

include driven started in
theorem once {n : Nat} (quiet : engine.Quiet i first n) :
    Nat.count (fun k => engine.done (s (first + 1 + k)) = true) (n + 1) =
      if engine.received i first n = engine.words then 1 else 0 := by
  induction n with
  | zero =>
      have none_ : ¬ engine.received i first 0 = engine.words :=
        Nat.ne_of_lt engine.words_pos
      rw [Nat.count_succ, Nat.count_zero, Nat.add_zero, driven.done_first started, if_neg none_]
      rfl
  | succ n before =>
      have counted := before fun k inside => quiet k (by omega)
      have reports := driven.done_next started quiet
      have bound := driven.received_le started quiet
      have next : engine.received i first (n + 1) = engine.received i first n +
          if engine.rsp (i (first + 1 + n)) = true then 1 else 0 := Nat.count_succ _ _
      rw [Nat.count_succ, counted]
      by_cases receive : engine.rsp (i (first + 1 + n)) = true
      · rw [if_pos receive] at next
        simp only [reports, receive, true_and, next]
        rw [if_neg (by omega), Nat.zero_add]
      · rw [if_neg receive] at next
        simp only [reports, receive, next]
        rfl

include driven in
theorem complete_of_start {t : Nat} (starts : engine.start (i t) = true) :
    (engine.burst i t).issued = engine.words ∧ (engine.burst i t).received = engine.words :=
  ⟨((driven.fits t).start starts).1, ((driven.fits t).start starts).2.1⟩

include driven started in
theorem issues (ready : ∀ t, ∃ u, t ≤ u ∧ engine.rdy (i u) = true) :
    ∃ n, engine.Quiet i first n ∧ engine.issued s i first n = engine.words := by
  let left (u : Nat) : Nat := engine.words - (engine.burst i u).issued
  have falls (u : Nat) (_ : first + 1 ≤ u)
      (missing : ¬ (engine.burst i u).issued = engine.words) :
      left (u + 1) ≤ left u ∧ (engine.rdy (i u) = true → left (u + 1) < left u) := by
    have running : engine.start (i u) = false := by
      by_contra starts
      exact missing (driven.complete_of_start (Bool.eq_true_of_not_eq_false starts)).1
    have bound := engine.issued_le (driven.held u)
    unfold left
    rw [burst_running running]
    dsimp only
    refine ⟨by omega, fun granted => ?_⟩
    rw [if_pos ⟨granted, by omega⟩]
    omega
  have reached : ∃ n, (engine.burst i (first + 1 + n)).issued = engine.words := by
    obtain ⟨u, after, all⟩ := eventually_of_measure ready falls
    exact ⟨u - (first + 1), by rwa [Nat.add_sub_cancel' after]⟩
  -- the first cycle in which all are handed over comes before the next start
  obtain ⟨n, all, least⟩ : ∃ n, (engine.burst i (first + 1 + n)).issued = engine.words ∧
      ∀ m < n, ¬ (engine.burst i (first + 1 + m)).issued = engine.words :=
    ⟨Nat.find reached, Nat.find_spec reached, fun _ => Nat.find_min reached⟩
  have quiet : engine.Quiet i first n := fun k inside => by
    by_contra starts
    exact least k inside (driven.complete_of_start (Bool.eq_true_of_not_eq_false starts)).1
  exact ⟨n, quiet, (driven.burst_eq started quiet).1.symm.trans all⟩

include driven started in
theorem finishes (ready : ∀ t, ∃ u, t ≤ u ∧ engine.rdy (i u) = true)
    (answers : ∀ n, ∃ m, engine.issued s i first n ≤ engine.received i first m) :
    ∃ n, engine.Quiet i first n ∧ engine.received i first n = engine.words := by
  by_contra never
  have quiet (n : Nat) : engine.Quiet i first n := by
    induction n with
    | zero => exact fun k absurdity => absurd absurdity (Nat.not_lt_zero k)
    | succ n before =>
        intro k inside
        obtain earlier | rfl := Nat.lt_succ_iff_lt_or_eq.mp inside
        · exact before k earlier
        · by_contra starts
          have all := (driven.complete_of_start (Bool.eq_true_of_not_eq_false starts)).2
          exact never ⟨k, before, (driven.burst_eq started before).2.symm.trans all⟩
  obtain ⟨n, -, all⟩ := driven.issues started ready
  obtain ⟨m, answered⟩ := answers n
  have bound := driven.received_le started (quiet m)
  exact never ⟨m, quiet m, by omega⟩

include driven started in
theorem runsBurst : engine.RunsBurst s i first where
  issued_le := by
    intro n quiet
    rw [← (driven.burst_eq started quiet).1]
    exact engine.issued_le (driven.held _)
  received_le := fun _ _ => driven.received_le_issued started
  vld := by
    intro n quiet
    rw [engine.vld_eq (driven.held _), (driven.burst_eq started quiet).1, decide_eq_true_iff]
  req := by
    intro n quiet
    rw [engine.req_eq (driven.held _), (driven.burst_eq started quiet).2, decide_eq_true_iff]
  done_first := driven.done_first started
  done_next := fun _ quiet => driven.done_next started quiet
  once := fun _ quiet => driven.once started quiet
  complete := by
    intro n quiet starts
    obtain ⟨issued, received⟩ := driven.burst_eq started quiet
    rw [← issued, ← received]
    exact driven.complete_of_start starts
  issues := driven.issues started
  finishes := driven.finishes started

end Burst

end Driven

end FetchEngine

end RepVGGAcc
