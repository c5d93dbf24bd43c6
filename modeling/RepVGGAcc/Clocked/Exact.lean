import RepVGGAcc.Clocked.PairSum
import RepVGGAcc.Clocked.Signed
import Mathlib.Algebra.Order.Ring.Abs

/-! Words that hold integers of a known magnitude: an adder is exact when the magnitudes
of its inputs, added, fit into its width. -/

namespace Clocked

open BigOperators

variable {v w : Nat}

/-- `b`, read as a signed number, is `x`, and `x` is at most `bound` in magnitude. -/
structure Exact (bound : Nat) (b : BitVec w) (x : Int) : Prop where
  toInt : b.toInt = x
  small : |x| ≤ bound

namespace Exact

variable {m n : Nat} {b c : BitVec w} {x y : Int}

theorem eq_ofInt (exact_ : Exact m b x) : b = BitVec.ofInt w x := by
  rw [← exact_.toInt, BitVec.ofInt_toInt]

theorem weaken (exact_ : Exact m b x) (le : m ≤ n) : Exact n b x :=
  ⟨exact_.toInt, exact_.small.trans (by exact_mod_cast le)⟩

theorem zero : Exact 0 (0 : BitVec w) 0 :=
  ⟨BitVec.toInt_zero, by simp⟩

theorem signExtend (exact_ : Exact m b x) (le : w ≤ v) : Exact m (b.signExtend v) x :=
  ⟨(BitVec.toInt_signExtend_of_le le).trans exact_.toInt, exact_.small⟩

theorem toInt_ofInt (some_ : 0 < w) (small : |x| ≤ m) (fits : m < 2 ^ (w - 1)) :
    (BitVec.ofInt w x).toInt = x := by
  have inside : (m : Int) < 2 ^ (w - 1) := by exact_mod_cast fits
  obtain ⟨low, high⟩ := abs_le.mp small
  exact BitVec.toInt_ofInt_eq_self some_ (by omega) (by omega)

theorem ofInt (some_ : 0 < w) (small : |x| ≤ m) (fits : m < 2 ^ (w - 1)) :
    Exact m (BitVec.ofInt w x) x :=
  ⟨toInt_ofInt some_ small fits, small⟩

theorem add (first : Exact m b x) (second : Exact n c y) (some_ : 0 < w)
    (fits : m + n < 2 ^ (w - 1)) : Exact (m + n) (b + c) (x + y) := by
  have small : |x + y| ≤ (m + n : Nat) := by
    push_cast
    exact (abs_add_le x y).trans (add_le_add first.small second.small)
  refine ⟨?_, small⟩
  rw [first.eq_ofInt, second.eq_ofInt, ← BitVec.ofInt_add]
  exact toInt_ofInt some_ small fits

theorem addPair {f : Fin 2 → BitVec w} {g : Fin 2 → Int} (each : ∀ k, Exact m (f k) (g k))
    (some_ : 0 < w) (fits : 2 * m < 2 ^ (w - 1)) :
    Exact (2 * m) (addPair f) (addPair g) := by
  rw [Nat.two_mul] at *
  exact (each 0).add (each 1) some_ fits

theorem addPairs {f : Fin (2 * n) → BitVec w} {g : Fin (2 * n) → Int}
    (each : ∀ j, Exact m (f j) (g j)) (some_ : 0 < w) (fits : 2 * m < 2 ^ (w - 1))
    (k : Fin n) : Exact (2 * m) (addPairs f k) (addPairs g k) := by
  rw [Nat.two_mul] at *
  exact (each _).add (each _) some_ fits

theorem extractLsb' (exact_ : Exact m b x) (some_ : 0 < n) {first : Nat} (inside : first + n ≤ w)
    (fits : m < 2 ^ (first + n - 1)) : (b.extractLsb' first n).toInt = x / 2 ^ first := by
  obtain ⟨low, high⟩ := abs_le.mp exact_.small
  have power : (2 : Int) ^ (first + n - 1) = 2 ^ (n - 1) * 2 ^ first := by
    rw [← pow_add, show n - 1 + first = first + n - 1 by omega]
  have bound : (m : Int) < 2 ^ (n - 1) * 2 ^ first := by
    rw [← power]
    exact_mod_cast fits
  have positive : (0 : Int) < 2 ^ first := by positivity
  rw [extractLsb'_eq_ofInt b inside, exact_.toInt]
  refine BitVec.toInt_ofInt_eq_self some_ ?_ ?_
  · rw [Int.le_ediv_iff_mul_le positive, neg_mul]
    omega
  · rw [Int.ediv_lt_iff_lt_mul positive]
    omega

/-- Fields that are wide enough are equal when the integers lie in the same step. -/
theorem extractLsb'_eq_iff (exact_ : Exact m b x) (exact' : Exact m c y) (some_ : 0 < n)
    {first : Nat} (inside : first + n ≤ w) (fits : m < 2 ^ (first + n - 1)) :
    b.extractLsb' first n = c.extractLsb' first n ↔ x / 2 ^ first = y / 2 ^ first := by
  rw [← BitVec.toInt_inj, exact_.extractLsb' some_ inside fits,
    exact'.extractLsb' some_ inside fits]

end Exact

end Clocked
