import RepVGGAcc.Clocked.Channel

/-! Queues behind a handshake. Each end has a valid and a ready; what is handed over in a
cycle with both enters or leaves the queue. -/

namespace Clocked

variable {α β : Type}

def handshake (vld rdy : Bool) (x : α) : Option α :=
  if vld && rdy then some x else none

theorem map_handshake (f : α → β) (vld rdy : Bool) (x : α) :
    (handshake vld rdy x).map f = handshake vld rdy (f x) := by
  cases vld <;> cases rdy <;> rfl

/-- The queue after a cycle in which its first element leaves or not and `enter` enters. -/
def queueNext (q : List α) (leaves : Bool) (enter : Option α) : List α :=
  (if leaves then q.tail else q) ++ enter.toList

theorem map_queueNext (f : α → β) (q : List α) (leaves : Bool) (enter : Option α) :
    (queueNext q leaves enter).map f = queueNext (q.map f) leaves (enter.map f) := by
  cases leaves <;> cases enter <;> simp [queueNext]

theorem head_append_queueNext (q : List α) (leaves : Bool) (enter : Option α) :
    (if leaves then q.head? else none).toList ++ queueNext q leaves enter =
      q ++ enter.toList := by
  unfold queueNext
  cases leaves with
  | false => rfl
  | true => cases q <;> rfl

/-- A circuit with a handshake at either end that holds the elements of a queue: at most
`depth`, one more passing through a full one when `flow` is set. -/
structure QueueCircuit (α : Type) where
  State : Type
  step : State → Bool → α → Bool → State
  iRdy : State → Bool → Bool
  oVld : State → Bool
  oDat : State → α
  IsReset : State → Prop
  Holds : State → List α → Prop
  depth : Nat
  flow : Bool
  holds_reset : ∀ {s}, IsReset s → Holds s []
  length_le : ∀ {s q}, Holds s q → q.length ≤ depth
  oVld_eq : ∀ {s q}, Holds s q → oVld s = !q.isEmpty
  oDat_eq : ∀ {s x q}, Holds s (x :: q) → oDat s = x
  iRdy_eq : ∀ {s q}, Holds s q → ∀ oRdy, iRdy s oRdy =
    (decide (q.length < depth) || (flow && !q.isEmpty && oRdy))
  step_holds : ∀ {s q}, Holds s q → ∀ iVld iDat oRdy, Holds (step s iVld iDat oRdy)
    (queueNext q (oVld s && oRdy) (handshake iVld (iRdy s oRdy) iDat))

namespace QueueCircuit

variable {c : QueueCircuit α}

theorem leaves_eq {s : c.State} {q : List α} (holds : c.Holds s q) (oRdy : Bool) :
    handshake (c.oVld s) oRdy (c.oDat s) = if c.oVld s && oRdy then q.head? else none := by
  unfold handshake
  split_ifs with leaves
  · cases q with
    | nil =>
        rw [c.oVld_eq holds] at leaves
        cases leaves
    | cons x q => rw [c.oDat_eq holds]; rfl
  · rfl

/-- The elements from a reset on, when `f x` stands for the element `x`. -/
theorem exists_contents {s : Nat → c.State} {iVld oRdy : Nat → Bool} {f : β → α}
    {x : Nat → β} (trace : ∀ t, s (t + 1) = c.step (s t) (iVld t) (f (x t)) (oRdy t))
    (initial : c.IsReset (s 0)) :
    ∃ q : Nat → List β, q 0 = [] ∧ (∀ t, c.Holds (s t) ((q t).map f)) ∧
      ∀ t, q (t + 1) = queueNext (q t) (c.oVld (s t) && oRdy t)
        (handshake (iVld t) (c.iRdy (s t) (oRdy t)) (x t)) := by
  let q : Nat → List β := fun t => Nat.rec []
    (fun t q => queueNext q (c.oVld (s t) && oRdy t)
      (handshake (iVld t) (c.iRdy (s t) (oRdy t)) (x t))) t
  have holds (t : Nat) : c.Holds (s t) ((q t).map f) := by
    induction t with
    | zero => exact c.holds_reset initial
    | succ t held =>
        have next := c.step_holds held (iVld t) (f (x t)) (oRdy t)
        rwa [← map_handshake, ← map_queueNext, ← trace t] at next
  exact ⟨q, rfl, holds, fun t => rfl⟩

/-- What has left, with what the circuit holds, is what has entered, in the same order. -/
theorem exists_held {s : Nat → c.State} {iVld oRdy : Nat → Bool} {iDat : Nat → α}
    (trace : ∀ t, s (t + 1) = c.step (s t) (iVld t) (iDat t) (oRdy t))
    (initial : c.IsReset (s 0)) (n : Nat) : ∃ q, c.Holds (s n) q ∧
      events (fun t => handshake (c.oVld (s t)) (oRdy t) (c.oDat (s t))) n ++ q =
        events (fun t => handshake (iVld t) (c.iRdy (s t) (oRdy t)) (iDat t)) n := by
  obtain ⟨q, empty, holds, next⟩ := exists_contents (f := id) trace initial
  have held (t : Nat) : c.Holds (s t) (q t) := by
    have contents := holds t
    rwa [List.map_id] at contents
  refine ⟨q n, held n, (conserved_iff empty).mpr (fun t => ?_) n⟩
  show (handshake _ _ _).toList ++ _ = _
  rw [leaves_eq (held t), next t]
  exact head_append_queueNext _ _ _

theorem events_leaves {s : Nat → c.State} {iVld oRdy : Nat → Bool} {iDat : Nat → α}
    (trace : ∀ t, s (t + 1) = c.step (s t) (iVld t) (iDat t) (oRdy t))
    (initial : c.IsReset (s 0)) (n : Nat) :
    events (fun t => handshake (c.oVld (s t)) (oRdy t) (c.oDat (s t))) n <+:
      events (fun t => handshake (iVld t) (c.iRdy (s t) (oRdy t)) (iDat t)) n := by
  obtain ⟨q, -, conserved⟩ := exists_held trace initial n
  exact ⟨q, conserved⟩

def packed (c : QueueCircuit α) (pack : β → α) (unpack : α → β)
    (inverse : ∀ x, unpack (pack x) = x) : QueueCircuit β where
  State := c.State
  step := fun s iVld iDat oRdy => c.step s iVld (pack iDat) oRdy
  iRdy := c.iRdy
  oVld := c.oVld
  oDat := fun s => unpack (c.oDat s)
  IsReset := c.IsReset
  Holds := fun s q => c.Holds s (q.map pack)
  depth := c.depth
  flow := c.flow
  holds_reset := c.holds_reset
  length_le := fun holds => by
    have bound := c.length_le holds
    rwa [List.length_map] at bound
  oVld_eq := fun {s q} holds => by
    rw [c.oVld_eq holds]
    cases q <;> rfl
  oDat_eq := fun holds => by rw [c.oDat_eq holds, inverse]
  iRdy_eq := fun {s q} holds oRdy => by
    rw [c.iRdy_eq holds, List.length_map]
    cases q <;> rfl
  step_holds := fun holds iVld iDat oRdy => by
    rw [map_queueNext, map_handshake]
    exact c.step_holds holds iVld (pack iDat) oRdy

end QueueCircuit

end Clocked
