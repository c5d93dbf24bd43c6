import Mathlib.Data.Nat.Count
import Mathlib.Data.List.Range

/-! State sequences of synchronous circuits. A circuit is a step function from a
state and the input of one clock cycle to the next state. -/

namespace Clocked

/-- `s` is the state sequence of the circuit `step` under the inputs `i`. -/
def IsTrace (step : S → I → S) (s : Nat → S) (i : Nat → I) : Prop :=
  ∀ t, s (t + 1) = step (s t) (i t)

def run (step : S → I → S) (start : S) (i : Nat → I) : Nat → S
  | 0 => start
  | t + 1 => step (run step start i t) (i t)

theorem isTrace_run (step : S → I → S) (start : S) (i : Nat → I) :
    IsTrace step (run step start i) i :=
  fun _ => rfl

/-- The state sequence of a circuit whose inputs are computed from its own
state, as for a circuit closed with its environment. -/
def closedRun (step : S → I → S) (environment : Nat → S → I) (start : S) : Nat → S
  | 0 => start
  | t + 1 =>
      let current := closedRun step environment start t
      step current (environment t current)

namespace IsTrace

variable {step : S → I → S} {s : Nat → S} {i : Nat → I}

/-- A component of a circuit has a trace of its own when the component's step
sees only the component and the input the whole gives it. -/
theorem component {partStep : P → J → P} (trace : IsTrace step s i) (part : S → P)
    (input : S → I → J)
    (local_ : ∀ state signal,
      part (step state signal) = partStep (part state) (input state signal)) :
    IsTrace partStep (fun t => part (s t)) (fun t => input (s t) (i t)) := by
  intro t
  show part (s (t + 1)) = _
  rw [trace t, local_]

/-- A circuit that refines an abstract machine holds, in every cycle, the image
of the state the abstract machine has reached on the same inputs. -/
theorem refines (trace : IsTrace step s i) {abstractStep : A → I → A}
    {toState : A → S} {start : A} (initial : s 0 = toState start)
    (simulates : ∀ a signal, step (toState a) signal = toState (abstractStep a signal))
    (t : Nat) : s t = toState (run abstractStep start i t) := by
  induction t with
  | zero => exact initial
  | succ t held => rw [trace t, held, simulates]; rfl

theorem always (trace : IsTrace step s i) {Holds : Nat → S → Prop} (initial : Holds 0 (s 0))
    (kept : ∀ t, Holds t (s t) → Holds (t + 1) (step (s t) (i t))) (t : Nat) :
    Holds t (s t) := by
  induction t with
  | zero => exact initial
  | succ t held =>
      rw [trace t]
      exact kept t held

end IsTrace

/-! Events observed along a trace. -/

/-- What `observe` sees in the first `n` cycles, in order. -/
def events (observe : Nat → Option α) (n : Nat) : List α :=
  (List.range n).filterMap observe

@[simp] theorem events_zero (observe : Nat → Option α) : events observe 0 = [] := rfl

theorem events_succ (observe : Nat → Option α) (n : Nat) :
    events observe (n + 1) = events observe n ++ (observe n).toList := by
  unfold events
  rw [List.range_succ, List.filterMap_append]
  cases observed : observe n <;> simp [observed]

theorem events_add (observe : Nat → Option α) (m n : Nat) :
    events observe (m + n) =
      events observe m ++ events (fun t => observe (m + t)) n := by
  induction n with
  | zero => simp
  | succ n added => rw [← Nat.add_assoc, events_succ, added, events_succ, List.append_assoc]

theorem mem_events {observe : Nat → Option α} {n : Nat} {x : α} :
    x ∈ events observe n ↔ ∃ t < n, observe t = some x := by
  simp [events]

theorem events_eq_nil {observe : Nat → Option α} {n : Nat}
    (unseen : ∀ t < n, observe t = none) : events observe n = [] := by
  refine List.eq_nil_iff_forall_not_mem.mpr fun x seen => ?_
  obtain ⟨t, inside, now⟩ := mem_events.mp seen
  rw [unseen t inside] at now
  cases now

theorem length_events (observe : Nat → Option α) (n : Nat) :
    (events observe n).length = Nat.count (fun t => (observe t).isSome = true) n := by
  induction n with
  | zero => rfl
  | succ n counted =>
      rw [events_succ, List.length_append, counted, Nat.count_succ]
      cases observe n <;> rfl

theorem getLast?_events {observe : Nat → Option α} {P : α → Prop} {m n u : Nat}
    (late : ∀ t x, m ≤ t → t < n → observe t = some x → P x)
    (from_ : m ≤ u) (until_ : u < n) (seen : (observe u).isSome) :
    ∃ x, (events observe n).getLast? = some x ∧ P x := by
  obtain ⟨x, seen⟩ := Option.isSome_iff_exists.mp seen
  obtain ⟨k, rfl⟩ := Nat.exists_eq_add_of_le (by omega : m ≤ n)
  have member : x ∈ events (fun t => observe (m + t)) k :=
    mem_events.mpr ⟨u - m, by omega, by rwa [show m + (u - m) = u by omega]⟩
  have nonempty := List.ne_nil_of_mem member
  refine ⟨List.getLast (events (fun t => observe (m + t)) k) nonempty, ?_, ?_⟩
  · rw [events_add, List.getLast?_append_of_ne_nil _ nonempty,
      List.getLast?_eq_some_getLast nonempty]
  · obtain ⟨t, lt, last⟩ := mem_events.mp (List.getLast_mem nonempty)
    exact late (m + t) _ (by omega) (by omega) last

theorem observed_eq {f g : Nat → Option α} {n : Nat} (before : events f n = events g n)
    (after : events f (n + 1) = events g (n + 1)) : f n = g n := by
  rw [events_succ, events_succ, before] at after
  have same : (f n).toList = (g n).toList := List.append_cancel_left after
  cases seen : f n <;> cases seen' : g n <;> simp_all

/-- When each event is determined by its position in the sequence, the events
seen so far are the first values of that law. -/
theorem events_eq_map_range (observe : Nat → Option α) (law : Nat → α)
    (lawful : ∀ t x, observe t = some x →
      x = law (Nat.count (fun u => (observe u).isSome) t)) (n : Nat) :
    events observe n =
      (List.range (Nat.count (fun u => (observe u).isSome) n)).map law := by
  induction n with
  | zero => simp
  | succ n counted =>
      rw [events_succ, counted, Nat.count_succ]
      cases observed : observe n with
      | none => simp
      | some x =>
          rw [lawful n x observed]
          simp [List.range_succ]

theorem map_range_isPrefix (law : Nat → α) {m n : Nat} (le : m ≤ n) :
    (List.range m).map law <+: (List.range n).map law := by
  obtain ⟨k, rfl⟩ := Nat.exists_eq_add_of_le le
  rw [List.range_add, List.map_append]
  exact List.prefix_append _ _

def delayed (d : Nat) (observe : Nat → Option α) (t : Nat) : Option α :=
  if d ≤ t then observe (t - d) else none

theorem delayed_succ (d : Nat) (observe : Nat → Option α) (t : Nat) :
    delayed (d + 1) observe (t + 1) = delayed d observe t := by
  unfold delayed
  rw [Nat.add_sub_add_right]
  exact if_congr Nat.succ_le_succ_iff rfl rfl

theorem delayed_add (d : Nat) (observe : Nat → Option α) (t : Nat) :
    delayed d observe (t + d) = observe t := by
  unfold delayed
  rw [if_pos (Nat.le_add_left d t), Nat.add_sub_cancel]

theorem delayed_early {d t : Nat} (observe : Nat → Option α) (early : t < d) :
    delayed d observe t = none :=
  if_neg (Nat.not_le_of_lt early)

end Clocked
