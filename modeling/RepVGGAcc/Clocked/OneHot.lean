import Mathlib.Data.BitVec
import Mathlib.Data.List.FinRange

/-! Multiplexers that take the disjunction over all their inputs, and the one-hot vectors
that select one of them. -/

namespace Clocked

/-- `x = {w{1'b0}}; for (j = 0; j < n; j = j+1) x = x | ({w{sel[j]}} & a[j])`. -/
def orMux (sel : Fin n → Bool) (a : Fin n → BitVec w) : BitVec w :=
  (List.finRange n).foldl (fun x j => x ||| (BitVec.fill w (sel j) &&& a j)) 0

def anyMux (sel a : Fin n → Bool) : Bool :=
  (List.finRange n).any fun j => sel j && a j

theorem getLsbD_foldl_or (sel : Fin n → Bool) (a : Fin n → BitVec w) (l : List (Fin n))
    (x : BitVec w) (k : Nat) :
    (l.foldl (fun x j => x ||| (BitVec.fill w (sel j) &&& a j)) x).getLsbD k =
      (x.getLsbD k || l.any fun j => sel j && (a j).getLsbD k) := by
  induction l generalizing x with
  | nil => simp
  | cons j l step =>
      have bit : (BitVec.fill w (sel j) &&& a j).getLsbD k = (sel j && (a j).getLsbD k) := by
        rw [BitVec.getLsbD_and, BitVec.getLsbD_fill]
        by_cases inside : k < w
        · simp [inside]
        · simp [inside, BitVec.getLsbD_of_ge _ _ (Nat.le_of_not_lt inside)]
      rw [List.foldl_cons, step, BitVec.getLsbD_or, bit, List.any_cons, Bool.or_assoc]

theorem anyMux_eq {sel : Fin n → Bool} {k : Fin n} (only : ∀ j, sel j = decide (j = k))
    (a : Fin n → Bool) : anyMux sel a = a k := by
  unfold anyMux
  rw [Bool.eq_iff_iff, List.any_eq_true]
  constructor
  · rintro ⟨j, -, both⟩
    obtain ⟨selected, set⟩ := (Bool.and_eq_true _ _).mp both
    rw [only, decide_eq_true_iff] at selected
    rwa [← selected]
  · intro set
    refine ⟨k, List.mem_finRange k, ?_⟩
    rw [only, set, decide_eq_true rfl]
    rfl

theorem orMux_eq {sel : Fin n → Bool} {k : Fin n} (only : ∀ j, sel j = decide (j = k))
    (a : Fin n → BitVec w) : orMux sel a = a k := by
  refine BitVec.eq_of_getLsbD_eq fun b _ => ?_
  unfold orMux
  rw [getLsbD_foldl_or, BitVec.ofNat_eq_ofNat, BitVec.getLsbD_zero, Bool.false_or]
  exact anyMux_eq only fun j => (a j).getLsbD b

/-- The vector with the bits `b`, bit 0 first. -/
def bits (b : Fin n → Bool) : BitVec n :=
  orMux b fun j => BitVec.twoPow n j

/-! Vectors with one bit set. -/

def OneHot (v : BitVec n) (k : Nat) : Prop :=
  ∀ j < n, v.getLsbD j = decide (j = k)

theorem OneHot.select {v : BitVec n} {k : Fin n} (hot : OneHot v k) (j : Fin n) :
    v.getLsbD j = decide (j = k) := by
  rw [hot j j.isLt]
  exact decide_eq_decide.mpr Fin.ext_iff.symm

theorem oneHot_twoPow (k : Fin n) : OneHot (BitVec.twoPow n k) k := by
  intro j inside
  rw [BitVec.getLsbD_twoPow]
  by_cases here : j = k
  · simp [here]
  · rw [decide_eq_false here, decide_eq_false (Ne.symm here), Bool.and_false]

theorem OneHot.eq_twoPow {v : BitVec n} {k : Fin n} (hot : OneHot v k) : v = BitVec.twoPow n k :=
  BitVec.eq_of_getLsbD_eq fun j inside => by rw [hot j inside, oneHot_twoPow k j inside]

theorem twoPow_inj {j k : Fin n} : BitVec.twoPow n j = BitVec.twoPow n k ↔ j = k := by
  refine ⟨fun same => ?_, fun same => by rw [same]⟩
  have bit := oneHot_twoPow j k k.isLt
  rw [same, oneHot_twoPow k k k.isLt, decide_eq_true rfl] at bit
  exact Fin.ext (of_decide_eq_true bit.symm).symm

theorem oneHot_bits {b : Fin n → Bool} {k : Fin n} (only : ∀ j, b j = decide (j = k)) :
    OneHot (bits b) k := by
  unfold bits
  rw [orMux_eq only]
  exact oneHot_twoPow k

theorem oneHot_one (n : Nat) : OneHot (1 : BitVec n) 0 := by
  intro j inside
  rw [BitVec.ofNat_eq_ofNat, BitVec.getLsbD_one]
  simp only [decide_eq_true (Nat.zero_lt_of_lt inside), Bool.true_and]

theorem OneHot.shiftLeft {v : BitVec n} {k : Nat} (hot : OneHot v k) :
    OneHot (v <<< 1) (k + 1) := by
  intro j inside
  rw [BitVec.getLsbD_shiftLeft]
  cases j with
  | zero => simp
  | succ j =>
      rw [Nat.add_sub_cancel, hot j (by omega)]
      simp [inside]

end Clocked
