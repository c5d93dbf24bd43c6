import Mathlib.Algebra.BigOperators.Fin

/-! Adder trees that add neighbours: the sum over the pairs is the sum. -/

namespace Clocked

variable {M : Type}

def addPair [Add M] (f : Fin 2 → M) : M :=
  f 0 + f 1

/-- One level of an adder tree. -/
def addPairs [Add M] {n : Nat} (f : Fin (2 * n) → M) (k : Fin n) : M :=
  f ⟨2 * k, by omega⟩ + f ⟨2 * k + 1, by omega⟩

theorem addPair_eq_sum [AddCommMonoid M] (f : Fin 2 → M) : addPair f = ∑ k, f k :=
  (Fin.sum_univ_two f).symm

theorem sum_addPairs [AddCommMonoid M] {n : Nat} (f : Fin (2 * n) → M) :
    ∑ k, addPairs f k = ∑ j, f j := by
  induction n with
  | zero => simp
  | succ n paired =>
      have front := paired fun j : Fin (2 * n) => f ⟨j, by omega⟩
      rw [Fin.sum_univ_castSucc,
        show ∑ j, f j = ∑ j : Fin (2 * n + 1 + 1), f ⟨j, by omega⟩ from rfl,
        Fin.sum_univ_castSucc, Fin.sum_univ_castSucc]
      simp only [addPairs, Fin.val_castSucc, Fin.val_last] at front ⊢
      rw [front, add_assoc]

end Clocked
