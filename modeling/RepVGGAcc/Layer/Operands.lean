import RepVGGAcc.Clocked.Signed
import Mathlib.Algebra.BigOperators.Fin
import Mathlib.Algebra.Order.BigOperators.Group.Finset
import Mathlib.Algebra.Order.Ring.Abs

/-! The layer that `check_result` of the test program computes: a 3x3 convolution with
zero padding, a 1x1 convolution and the identity, added, rectified and quantised. -/

namespace RepVGGAcc.Layer

open BigOperators

/-- The bytes that enter the map of one output channel. A pixel goes by its number in
the map. -/
structure Operands where
  w3 : Fin 9 → Fin 64 → BitVec 8
  w1 : Fin 64 → BitVec 8
  imap : Nat → Fin 64 → BitVec 8
  identity : Nat → BitVec 8

def padding (i j : Nat) (tap : Fin 9) : Bool :=
  i + tap / 3 = 0 ∨ i + tap / 3 = 57 ∨ j + tap % 3 = 0 ∨ j + tap % 3 = 57

def tapPixel (i j : Nat) (tap : Fin 9) : Nat :=
  56 * (i + tap / 3 - 1) + (j + tap % 3 - 1)

def product (w imap : BitVec 8) : Int :=
  w.toInt * imap.toInt

theorem abs_byte (b : BitVec 8) : |b.toInt| ≤ 128 := by
  have low := BitVec.le_toInt b
  have high := BitVec.toInt_lt (x := b)
  norm_num at low high
  exact abs_le.mpr ⟨low, high.le⟩

theorem abs_product (w imap : BitVec 8) : |product w imap| ≤ 128 * 128 := by
  unfold product
  rw [abs_mul]
  exact mul_le_mul (abs_byte w) (abs_byte imap) (abs_nonneg _) (by norm_num)

theorem tapPixel_lt {i j : Nat} {tap : Fin 9} (row : i < 56) (column : j < 56)
    (inside : padding i j tap = false) : tapPixel i j tap < 3136 := by
  have inMap := of_decide_eq_false inside
  unfold tapPixel
  omega

def channel (g : Fin 2) (lane : Fin 32) : Fin 64 :=
  ⟨32 * g + lane, by omega⟩

theorem sum_channel {M : Type} [AddCommMonoid M] (f : Fin 64 → M) :
    ∑ ch, f ch = ∑ lane, f (channel 0 lane) + ∑ lane, f (channel 1 lane) := by
  rw [show ∑ ch, f ch = ∑ ch : Fin (32 + 32), f ch from rfl, Fin.sum_univ_add]
  congr 1

namespace Operands

variable (x : Operands)

def groupSum3x3 (g : Fin 2) (i j : Nat) : Int :=
  ∑ lane, ∑ tap, if padding i j tap then 0
    else product (x.w3 tap (channel g lane)) (x.imap (tapPixel i j tap) (channel g lane))

def groupSum1x1 (g : Fin 2) (i j : Nat) : Int :=
  ∑ lane, product (x.w1 (channel g lane)) (x.imap (56 * i + j) (channel g lane))

def psum3x3 (i j : Nat) : Int :=
  ∑ ch, ∑ tap, if padding i j tap then 0
    else product (x.w3 tap ch) (x.imap (tapPixel i j tap) ch)

def psum1x1 (i j : Nat) : Int :=
  ∑ ch, product (x.w1 ch) (x.imap (56 * i + j) ch)

theorem psum3x3_eq (i j : Nat) :
    x.psum3x3 i j = x.groupSum3x3 0 i j + x.groupSum3x3 1 i j :=
  sum_channel _

theorem psum1x1_eq (i j : Nat) :
    x.psum1x1 i j = x.groupSum1x1 0 i j + x.groupSum1x1 1 i j :=
  sum_channel _

theorem abs_psum3x3 (i j : Nat) : |x.psum3x3 i j| ≤ 64 * (9 * (128 * 128)) := by
  have term (ch : Fin 64) (tap : Fin 9) : |if padding i j tap then 0
      else product (x.w3 tap ch) (x.imap (tapPixel i j tap) ch)| ≤ 128 * 128 := by
    split_ifs
    · simp
    · exact abs_product _ _
  have taps (ch : Fin 64) := (Finset.abs_sum_le_sum_abs _ _).trans
    (Finset.sum_le_card_nsmul Finset.univ _ _ fun tap _ => term ch tap)
  refine (Finset.abs_sum_le_sum_abs _ _).trans
    ((Finset.sum_le_card_nsmul Finset.univ _ _ fun ch _ => taps ch).trans ?_)
  simp

theorem abs_psum1x1 (i j : Nat) : |x.psum1x1 i j| ≤ 64 * (128 * 128) := by
  refine (Finset.abs_sum_le_sum_abs _ _).trans
    ((Finset.sum_le_card_nsmul Finset.univ _ _ fun ch _ => abs_product _ _).trans ?_)
  simp

end Operands

/-- The word of the output map: `{8'b0, quan_map_sum, quan3x3, quan1x1}`. -/
def outputWord (psum3x3 psum1x1 identity : Int) : BitVec 32 :=
  let mapSum := max (psum3x3 + psum1x1 + identity) 0
  0#8 ++ (BitVec.ofInt 32 mapSum).extractLsb' 17 8 ++
    (BitVec.ofInt 32 psum3x3).extractLsb' 17 8 ++ (BitVec.ofInt 32 psum1x1).extractLsb' 14 8

def Operands.word (x : Operands) (i j : Nat) : BitVec 32 :=
  outputWord (x.psum3x3 i j) (x.psum1x1 i j) (x.identity (56 * i + j)).toInt

theorem Operands.word_congr {x y : Operands} {i j : Nat} (row : i < 56) (column : j < 56)
    (w3 : ∀ tap ch, x.w3 tap ch = y.w3 tap ch) (w1 : ∀ ch, x.w1 ch = y.w1 ch)
    (imap : ∀ p < 3136, ∀ ch, x.imap p ch = y.imap p ch)
    (identity : ∀ p < 3136, x.identity p = y.identity p) : x.word i j = y.word i j := by
  have kernel : x.psum3x3 i j = y.psum3x3 i j := by
    refine Finset.sum_congr rfl fun ch _ => Finset.sum_congr rfl fun tap _ => ?_
    cases padded : padding i j tap with
    | true => rfl
    | false => rw [w3, imap _ (tapPixel_lt row column padded)]
  have point : x.psum1x1 i j = y.psum1x1 i j := by
    refine Finset.sum_congr rfl fun ch _ => ?_
    rw [w1, imap _ (by omega)]
  unfold word
  rw [kernel, point, identity _ (by omega)]

end RepVGGAcc.Layer
