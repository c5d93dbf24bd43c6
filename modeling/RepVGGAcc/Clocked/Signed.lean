import Mathlib.Algebra.BigOperators.Group.Finset.Basic
import Mathlib.Data.BitVec
import Mathlib.Tactic.NormNum

/-! Two's complement arithmetic read as arithmetic of integers, as long as the values
fit. -/

namespace Clocked

open BigOperators

variable {v w : Nat}

theorem ofInt_sum {ι : Type} (s : Finset ι) (f : ι → Int) :
    BitVec.ofInt w (∑ k ∈ s, f k) = ∑ k ∈ s, BitVec.ofInt w (f k) := by
  classical
  induction s using Finset.induction_on with
  | empty => simp
  | insert k s new summed =>
      rw [Finset.sum_insert new, Finset.sum_insert new, BitVec.ofInt_add, summed]

theorem signExtend_ofInt {x : Int} (some_ : 0 < w) (low : -2 ^ (w - 1) ≤ x)
    (high : x < 2 ^ (w - 1)) : (BitVec.ofInt w x).signExtend v = BitVec.ofInt v x := by
  rw [BitVec.signExtend, BitVec.toInt_ofInt_eq_self some_ low high]

theorem signExtend_eq_ofInt (x : BitVec w) : x.signExtend v = BitVec.ofInt v x.toInt := rfl

theorem mul_signExtend (x y : BitVec v) :
    x.signExtend w * y.signExtend w = BitVec.ofInt w (x.toInt * y.toInt) := by
  rw [signExtend_eq_ofInt, signExtend_eq_ofInt, ← BitVec.ofInt_mul]

theorem setWidth_ofInt (x : Int) (le : w ≤ v) :
    (BitVec.ofInt v x).setWidth w = BitVec.ofInt w x := by
  have powers : (2 : Int) ^ w ∣ 2 ^ v := pow_dvd_pow 2 le
  have reduced : 0 ≤ x % 2 ^ v := Int.emod_nonneg x (by positivity)
  refine BitVec.eq_of_toNat_eq ?_
  rw [BitVec.toNat_setWidth, BitVec.toNat_ofInt, BitVec.toNat_ofInt]
  push_cast
  rw [← Int.emod_emod_of_dvd x powers, Int.toNat_emod reduced (by positivity)]
  congr 1

theorem extractLsb'_ofInt (x : Int) {first count : Nat} (le : w ≤ v)
    (inside : first + count ≤ w) :
    (BitVec.ofInt w x).extractLsb' first count = (BitVec.ofInt v x).extractLsb' first count := by
  rw [← setWidth_ofInt x le]
  refine BitVec.eq_of_getLsbD_eq fun k lt => ?_
  simp only [BitVec.getLsbD_extractLsb', BitVec.getLsbD_setWidth]
  rw [decide_eq_true (by omega : first + k < w), Bool.true_and]

theorem setWidth_sshiftRight (x : BitVec w) {first count : Nat} (inside : first + count ≤ w) :
    (x.sshiftRight first).setWidth count = x.extractLsb' first count := by
  refine BitVec.eq_of_getLsbD_eq fun k lt => ?_
  rw [BitVec.getLsbD_extractLsb', BitVec.getLsbD_setWidth, BitVec.getLsbD_sshiftRight,
    if_pos (by omega)]
  simp [lt, show k < w by omega]

/-- Bits taken off the middle are those of a quotient, rounded down. -/
theorem extractLsb'_eq_ofInt (x : BitVec w) {first count : Nat} (inside : first + count ≤ w) :
    x.extractLsb' first count = BitVec.ofInt count (x.toInt / 2 ^ first) := by
  rw [← setWidth_sshiftRight x inside, ← BitVec.ofInt_toInt (x := x.sshiftRight first),
    setWidth_ofInt _ (by omega), BitVec.toInt_sshiftRight, Int.shiftRight_eq_div_pow]
  norm_cast

theorem append_inj {x x' : BitVec v} {y y' : BitVec w} :
    x ++ y = x' ++ y' ↔ x = x' ∧ y = y' := by
  constructor
  · intro same
    have left := congrArg (BitVec.extractLsb' w v) same
    have right := congrArg (BitVec.extractLsb' 0 w) same
    rw [BitVec.extractLsb'_append_eq_left, BitVec.extractLsb'_append_eq_left] at left
    rw [BitVec.extractLsb'_append_eq_right, BitVec.extractLsb'_append_eq_right] at right
    exact ⟨left, right⟩
  · rintro ⟨rfl, rfl⟩
    rfl

theorem ite_msb_ofInt {x : Int} (low : -2 ^ w ≤ x) (high : x < 2 ^ w) :
    (if (BitVec.ofInt (w + 1) x).getLsbD w = false then BitVec.ofInt (w + 1) x else 0) =
      BitVec.ofInt (w + 1) (max x 0) := by
  have value : (BitVec.ofInt (w + 1) x).toInt = x :=
    BitVec.toInt_ofInt_eq_self (Nat.succ_pos w) low high
  have sign : (BitVec.ofInt (w + 1) x).getLsbD w = decide (x < 0) := by
    have msb := BitVec.msb_eq_toInt (x := BitVec.ofInt (w + 1) x)
    rw [value] at msb
    exact (BitVec.msb_eq_getLsbD_last _).symm.trans msb
  rw [sign]
  by_cases negative : x < 0
  · rw [decide_eq_true negative, if_neg (by simp), max_eq_right (le_of_lt negative)]
    rfl
  · rw [decide_eq_false negative, if_pos rfl, max_eq_left (not_lt.mp negative)]

end Clocked
