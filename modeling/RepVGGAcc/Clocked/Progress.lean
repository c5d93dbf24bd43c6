import Mathlib.Data.Nat.Basic
import Mathlib.Tactic.Common

/-! Progress: what happens again and again brings a measure to its end. -/

namespace Clocked

/-- From cycle `t` on no cycle raises the measure and every tick lowers it, until `done`. -/
theorem eventually_of_measure {measure : Nat → Nat} {tick done : Nat → Prop} {t : Nat}
    (ticks : ∀ m, ∃ u, m ≤ u ∧ tick u)
    (falls : ∀ u, t ≤ u → ¬ done u →
      measure (u + 1) ≤ measure u ∧ (tick u → measure (u + 1) < measure u)) :
    ∃ u, t ≤ u ∧ done u := by
  by_contra never
  have running (u : Nat) (from_ : t ≤ u) : ¬ done u := fun now => never ⟨u, from_, now⟩
  have lower (n : Nat) : ∀ u, t ≤ u → measure (u + n) ≤ measure u := by
    intro u from_
    induction n with
    | zero => exact Nat.le_refl _
    | succ n before =>
        exact Nat.le_trans (falls (u + n) (by omega) (running _ (by omega))).1 before
  have sinks (k : Nat) : ∃ u, t ≤ u ∧ measure u + k ≤ measure t := by
    induction k with
    | zero => exact ⟨t, Nat.le_refl t, Nat.le_refl _⟩
    | succ k found =>
        obtain ⟨u, from_, bound⟩ := found
        obtain ⟨v, later, now⟩ := ticks u
        have falling := (falls v (by omega) (running v (by omega))).2 now
        have before := lower (v - u) u from_
        rw [Nat.add_sub_cancel' later] at before
        exact ⟨v + 1, by omega, by omega⟩
  obtain ⟨u, -, bound⟩ := sinks (measure t + 1)
  omega

end Clocked
