import RepVGGAcc.Clocked.Trace
import Mathlib.Data.List.Infix

/-! Channels: what enters, what is pending and what leaves. -/

namespace Clocked

variable {enter leave : Nat → Option α} {pending : Nat → List α}

/-- In cycle `t` the channel takes what enters at its end and gives what leaves from its
front. -/
def Conserves (enter leave : Nat → Option α) (pending : Nat → List α) (t : Nat) : Prop :=
  (leave t).toList ++ pending (t + 1) = pending t ++ (enter t).toList

/-- A channel has given and holds exactly what it was given, in order, at all times if
and only if every cycle conserves it. -/
theorem conserved_iff (empty : pending 0 = []) :
    (∀ n, events leave n ++ pending n = events enter n) ↔
      ∀ t, Conserves enter leave pending t := by
  constructor
  · intro conserved t
    have after := conserved (t + 1)
    rw [events_succ, events_succ, ← conserved t, List.append_assoc, List.append_assoc] at after
    exact List.append_cancel_left after
  · intro conserves n
    induction n with
    | zero => simp [empty]
    | succ n conserved =>
        rw [events_succ, events_succ, List.append_assoc, conserves n, ← List.append_assoc,
          conserved]

theorem Conserves.trans {mid : Nat → Option α} {first second : Nat → List α} {t : Nat}
    (upstream : Conserves enter mid first t) (downstream : Conserves mid leave second t) :
    Conserves enter leave (fun t => second t ++ first t) t := by
  unfold Conserves at *
  rw [← List.append_assoc, downstream, List.append_assoc, upstream, ← List.append_assoc]

theorem events_isPrefix (conserved : ∀ n, events leave n ++ pending n = events enter n)
    (n : Nat) : events leave n <+: events enter n :=
  ⟨pending n, conserved n⟩

end Clocked
