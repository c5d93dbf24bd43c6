import RepVGGAcc.Layer.Operands
import RepVGGAcc.MacArray.Items
import RepVGGAcc.Rtl.PsumAcc

/-! From the two items of a pixel to its word of the output map: the sums of the array
and of `psum_acc` do not overflow, so that the word is the one of the layer. -/

namespace RepVGGAcc

open Clocked
open BigOperators
open Layer

theorem BasicPe.toInt_mulSigned (a b : BitVec 8) : (mulSigned a b).toInt = product a b := by
  have value : mulSigned a b = BitVec.ofInt 16 (product a b) := mul_signExtend a b
  have bounds := abs_le.mp (abs_product a b)
  rw [value, BitVec.toInt_ofInt_eq_self (by decide) (by omega) (by omega)]

theorem BasicPe.signExtend_mulSigned {v : Nat} (a b : BitVec 8) :
    (mulSigned a b).signExtend v = BitVec.ofInt v (product a b) := by
  rw [signExtend_eq_ofInt, toInt_mulSigned]

namespace MacArray

open MacArrayFsm (mask)

variable {weight : Fin 32 → Fin 10 → BitVec 8} {pixel : Fin 32 → Nat → BitVec 8}

theorem mask_padding {q i j : Nat} (pass : q < 128) (row : i < 56) (column : j < 56)
    (tap : Fin 9) :
    (mask (3136 * q + (56 * i + j))).getLsbD (8 - tap) = !padding i j tap := by
  have located := MacArrayFsm.located_scan (n := 3136 * q + (56 * i + j)) (by omega)
  rw [show (3136 * q + (56 * i + j)) / 56 % 56 = i by omega,
    show (3136 * q + (56 * i + j)) % 56 = j by omega] at located
  have enabled := MacArrayFsm.peEn_window located row column (k := tap / 3) (m := tap % 3)
    (by omega) (by omega)
  rwa [show 3 * (tap.val / 3) + tap.val % 3 = tap by omega] at enabled

theorem signExtend_kernelTerm {v q i j : Nat} (pass : q < 128) (row : i < 56) (column : j < 56)
    (w : Fin 10 → BitVec 8) (x : Nat → BitVec 8) (tap : Fin 9) :
    (kernelTerm w x (3136 * q + (56 * i + j)) tap).signExtend v =
      BitVec.ofInt v (if padding i j tap then 0
        else product (w tap.castSucc) (x (3136 * q + tapPixel i j tap))) := by
  unfold kernelTerm
  rw [mask_padding pass row column]
  cases padded : padding i j tap with
  | true =>
      rw [signExtend_eq_ofInt]
      simp
  | false =>
      have inside := of_decide_eq_false padded
      have place : 3136 * q + (56 * i + j) + 56 * (tap / 3) + tap % 3 - 57 =
          3136 * q + tapPixel i j tap := by
        unfold tapPixel
        omega
      rw [if_pos (by rfl), if_neg (by simp), BasicPe.signExtend_mulSigned, place]

theorem kernelSum_eq {q i j : Nat} (pass : q < 128) (row : i < 56) (column : j < 56) :
    kernelSum weight pixel (3136 * q + (56 * i + j)) =
      BitVec.ofInt 32 (∑ lane, ∑ tap, if padding i j tap then 0
        else product (weight lane tap.castSucc) (pixel lane (3136 * q + tapPixel i j tap))) := by
  unfold kernelSum
  rw [ofInt_sum]
  refine Finset.sum_congr rfl fun lane _ => ?_
  rw [ofInt_sum]
  exact Finset.sum_congr rfl fun tap _ => signExtend_kernelTerm pass row column _ _ tap

theorem pointSum_eq (n : Nat) :
    pointSum weight pixel n =
      BitVec.ofInt 24 (∑ lane, product (weight lane (Fin.last 9)) (pixel lane n)) := by
  unfold pointSum
  rw [ofInt_sum]
  exact Finset.sum_congr rfl fun lane _ => BasicPe.signExtend_mulSigned _ _

end MacArray

/-! The fields of an accumulated item. -/

namespace PsumAcc

variable (sel : Bool) (item stored : BitVec 64)

theorem map3x3_accumulate : MapMerger.map3x3 (accumulate sel item stored) =
    item.extractLsb' 0 32 + stored.extractLsb' 0 32 :=
  BitVec.extractLsb'_append_eq_right

theorem map1x1_accumulate : MapMerger.map1x1 (accumulate sel item stored) =
    item.extractLsb' 32 24 + stored.extractLsb' 32 24 := by
  unfold MapMerger.map1x1 accumulate
  rw [BitVec.extractLsb'_append_eq_of_le (by omega)]
  exact BitVec.extractLsb'_append_eq_right

theorem identity_accumulate : MapMerger.identity (accumulate sel item stored) =
    if sel then item.extractLsb' 56 8 else stored.extractLsb' 56 8 := by
  unfold MapMerger.identity accumulate
  rw [BitVec.extractLsb'_append_eq_of_le (by omega)]
  exact BitVec.extractLsb'_append_eq_left

end PsumAcc

namespace MapMerger

section Sums

variable {data : BitVec 64} {s3 s1 : Int} (kernel : map3x3 data = BitVec.ofInt 32 s3)
  (point : map1x1 data = BitVec.ofInt 24 s1) (bound3 : |s3| ≤ 64 * (9 * (128 * 128)))
  (bound1 : |s1| ≤ 64 * (128 * 128))

include kernel point bound1 in
theorem mergeResult_eq :
    mergeResult data = BitVec.ofInt 32 (s3 + s1 + (identity data).toInt) := by
  have bounds1 := abs_le.mp bound1
  unfold mergeResult
  rw [kernel, point, signExtend_ofInt (by decide) (by omega) (by omega), signExtend_eq_ofInt,
    ← BitVec.ofInt_add, ← BitVec.ofInt_add]
  congr 1
  omega

include kernel point bound3 bound1 in
theorem actMerge_eq :
    actMerge data = BitVec.ofInt 32 (max (s3 + s1 + (identity data).toInt) 0) := by
  have bounds3 := abs_le.mp bound3
  have bounds1 := abs_le.mp bound1
  have boundsI := abs_le.mp (abs_byte (identity data))
  unfold actMerge
  rw [mergeResult_eq kernel point bound1]
  exact ite_msb_ofInt (by omega) (by omega)

include kernel point bound3 bound1 in
/-- What `map_merger` makes of the sums. -/
theorem mapMergerDataOut_eq :
    mapMergerDataOut data = outputWord s3 s1 (identity data).toInt := by
  unfold mapMergerDataOut quanMerge quan3x3 quan1x1 outputWord
  rw [actMerge_eq kernel point bound3 bound1, kernel, point,
    extractLsb'_ofInt s1 (by decide : 24 ≤ 32) (by decide)]

end Sums

end MapMerger

/-- What enters the two items of pixel `(i, j)`: the weights and, by the number of their
read, the pixels of both groups. The passes of the two groups are `q` and `q + 1`. -/
structure Layer.Operands.Feeds (x : Operands) (q : Nat) (weight : Fin 2 → Fin 32 → Fin 10 → BitVec 8)
    (pixel : Fin 32 → Nat → BitVec 8) : Prop where
  w3 : ∀ g lane (tap : Fin 9), weight g lane tap.castSucc = x.w3 tap (channel g lane)
  w1 : ∀ g lane, weight g lane (Fin.last 9) = x.w1 (channel g lane)
  imap : ∀ (g : Fin 2) lane, ∀ p < 3136,
    pixel lane (3136 * (q + g) + p) = x.imap p (channel g lane)

namespace Layer.Operands.Feeds

variable {x : Operands} {q i j : Nat} {weight : Fin 2 → Fin 32 → Fin 10 → BitVec 8}
  {pixel : Fin 32 → Nat → BitVec 8}

theorem kernelSum (feeds : x.Feeds q weight pixel) (pass : q + 1 < 128) (row : i < 56)
    (column : j < 56) (g : Fin 2) :
    MacArray.kernelSum (weight g) pixel (3136 * (q + g) + (56 * i + j)) =
      BitVec.ofInt 32 (x.groupSum3x3 g i j) := by
  rw [MacArray.kernelSum_eq (by omega) row column]
  unfold groupSum3x3
  congr 1
  refine Finset.sum_congr rfl fun lane _ => Finset.sum_congr rfl fun tap _ => ?_
  cases padded : padding i j tap with
  | true => rfl
  | false => rw [feeds.w3, feeds.imap g lane _ (tapPixel_lt row column padded)]

theorem pointSum (feeds : x.Feeds q weight pixel) (row : i < 56) (column : j < 56) (g : Fin 2) :
    MacArray.pointSum (weight g) pixel (3136 * (q + g) + (56 * i + j)) =
      BitVec.ofInt 24 (x.groupSum1x1 g i j) := by
  rw [MacArray.pointSum_eq]
  unfold groupSum1x1
  congr 1
  refine Finset.sum_congr rfl fun lane _ => ?_
  rw [feeds.w1, feeds.imap g lane _ (by omega)]

/-- The word of a pixel from its two items, the identity byte being taken from the second
item with `sel`, else from the first one. -/
theorem mapMergerDataOut (feeds : x.Feeds q weight pixel) (pass : q + 1 < 128) (row : i < 56)
    (column : j < 56) {sel : Bool} (lane : Fin 2 → Fin 32)
    (identity : (if sel then pixel (lane 1) (3136 * (q + 1) + (56 * i + j))
      else pixel (lane 0) (3136 * q + (56 * i + j))) = x.identity (56 * i + j)) :
    MapMerger.mapMergerDataOut (PsumAcc.accumulate sel
        (MacArray.itemData (weight 1) pixel (lane 1) (3136 * (q + 1) + (56 * i + j)))
        (MacArray.itemData (weight 0) pixel (lane 0) (3136 * q + (56 * i + j)))) =
      x.word i j := by
  have map3x3 : MapMerger.map3x3 (PsumAcc.accumulate sel
      (MacArray.itemData (weight 1) pixel (lane 1) (3136 * (q + 1) + (56 * i + j)))
      (MacArray.itemData (weight 0) pixel (lane 0) (3136 * q + (56 * i + j)))) =
      BitVec.ofInt 32 (x.psum3x3 i j) := by
    rw [PsumAcc.map3x3_accumulate, MacArray.kernelSum_itemData, MacArray.kernelSum_itemData,
      x.psum3x3_eq, Int.add_comm, BitVec.ofInt_add]
    exact congrArg₂ (· + ·) (feeds.kernelSum pass row column 1)
      (feeds.kernelSum pass row column 0)
  have map1x1 : MapMerger.map1x1 (PsumAcc.accumulate sel
      (MacArray.itemData (weight 1) pixel (lane 1) (3136 * (q + 1) + (56 * i + j)))
      (MacArray.itemData (weight 0) pixel (lane 0) (3136 * q + (56 * i + j)))) =
      BitVec.ofInt 24 (x.psum1x1 i j) := by
    rw [PsumAcc.map1x1_accumulate, MacArray.pointSum_itemData, MacArray.pointSum_itemData,
      x.psum1x1_eq, Int.add_comm, BitVec.ofInt_add]
    exact congrArg₂ (· + ·) (feeds.pointSum row column 1) (feeds.pointSum row column 0)
  rw [MapMerger.mapMergerDataOut_eq map3x3 map1x1 (x.abs_psum3x3 i j) (x.abs_psum1x1 i j),
    PsumAcc.identity_accumulate, MacArray.identity_itemData, MacArray.identity_itemData, identity]
  rfl

end Layer.Operands.Feeds

end RepVGGAcc
