import RepVGGAcc.MacArray.Pipeline
import RepVGGAcc.MacArray.Window
import RepVGGAcc.MacArrayFsm.BorderMask

/-! The item that the array forms for one position of the raster scan. -/

namespace RepVGGAcc

open Clocked

namespace MacArrayFsm

def mask (n : Nat) : BitVec 10 :=
  peEn (scan 0 (59 + n))

theorem peEn_scan {skew n : Nat} : peEn (scan skew (59 + n)) = mask n := rfl

theorem located_scan {n : Nat} (pixel : n < 401408) :
    (scan 0 (59 + n)).state = region (n / 56 % 56) (n % 56) := by
  have here : position (59 + n) = n := by unfold position; omega
  have located := scanState_conv (e := 59 + n) (by omega) (by omega)
  rwa [here] at located

theorem mask_kernel {n : Nat} (pixel : n < 401408) (line k : Fin 3) :
    (mask n).getLsbD (3 * line + k) =
      decide (¬ (line.val = 2 ∧ n / 56 % 56 = 0) ∧ ¬ (line.val = 0 ∧ n / 56 % 56 = 55) ∧
        ¬ (k.val = 2 ∧ n % 56 = 0) ∧ ¬ (k.val = 0 ∧ n % 56 = 55)) :=
  peEn_kernel (located_scan pixel) line k

theorem mask_point {n : Nat} (pixel : n < 401408) : (mask n).getLsbD 9 = true :=
  peEn_point (located_scan pixel)

end MacArrayFsm

namespace SystolicArray

def weightBuf (s : State) (tap : Fin 10) : Fin 4 → BitVec 8 :=
  if inside : tap.val < 9 then
    let pe : Fin 9 := (tap.castLT inside).rev
    (s.linePe (peLine pe) (peColumn pe)).weightBuf
  else s.pe1x1.weightBuf

end SystolicArray

namespace MacArray

open MacArrayFsm (mask)

/-- The product of a weight with the pixel of its kernel tap, 0 outside of the
map. -/
def kernelTerm (weight : Fin 10 → BitVec 8) (pixel : Nat → BitVec 8) (n : Nat)
    (tap : Fin 9) : BitVec 16 :=
  if (mask n).getLsbD (8 - tap) then
    BasicPe.mulSigned (weight tap.castSucc) (pixel (n + 56 * (tap / 3) + tap % 3 - 57))
  else 0

def pointTerm (weight : Fin 10 → BitVec 8) (pixel : Nat → BitVec 8) (n : Nat) :
    BitVec 16 :=
  BasicPe.mulSigned (weight (Fin.last 9)) (pixel n)

def kernelSum (weight : Fin 32 → Fin 10 → BitVec 8) (pixel : Fin 32 → Nat → BitVec 8)
    (n : Nat) : BitVec 32 :=
  ∑ lane, ∑ tap, (kernelTerm (weight lane) (pixel lane) n tap).signExtend 32

def pointSum (weight : Fin 32 → Fin 10 → BitVec 8) (pixel : Fin 32 → Nat → BitVec 8)
    (n : Nat) : BitVec 24 :=
  ∑ lane, (pointTerm (weight lane) (pixel lane) n).signExtend 24

def itemData (weight : Fin 32 → Fin 10 → BitVec 8) (pixel : Fin 32 → Nat → BitVec 8)
    (identityLane : Fin 32) (n : Nat) : BitVec 64 :=
  pixel identityLane n ++ pointSum weight pixel n ++ kernelSum weight pixel n

/-! The fields of an item. -/

theorem identity_append (identity : BitVec 8) (point : BitVec 24) (kernel : BitVec 32) :
    (identity ++ point ++ kernel).extractLsb' 56 8 = identity := by
  rw [BitVec.extractLsb'_append_eq_of_le (by omega)]
  exact BitVec.extractLsb'_append_eq_left

theorem point_append (identity : BitVec 8) (point : BitVec 24) (kernel : BitVec 32) :
    (identity ++ point ++ kernel).extractLsb' 32 24 = point := by
  rw [BitVec.extractLsb'_append_eq_of_le (by omega)]
  exact BitVec.extractLsb'_append_eq_right

theorem kernel_append (identity : BitVec 8) (point : BitVec 24) (kernel : BitVec 32) :
    (identity ++ point ++ kernel).extractLsb' 0 32 = kernel :=
  BitVec.extractLsb'_append_eq_right

section Fields

variable (weight : Fin 32 → Fin 10 → BitVec 8) (pixel : Fin 32 → Nat → BitVec 8)
  (identityLane : Fin 32) (n : Nat)

theorem identity_itemData :
    (itemData weight pixel identityLane n).extractLsb' 56 8 = pixel identityLane n :=
  identity_append _ _ _

theorem pointSum_itemData :
    (itemData weight pixel identityLane n).extractLsb' 32 24 = pointSum weight pixel n :=
  point_append _ _ _

theorem kernelSum_itemData :
    (itemData weight pixel identityLane n).extractLsb' 0 32 = kernelSum weight pixel n :=
  kernel_append _ _ _

end Fields

def weights (core : MacArrayCore.State) (sel : Fin 4) (lane : Fin 32) (tap : Fin 10) :
    BitVec 8 :=
  SystolicArray.weightBuf (core.convArray lane) tap sel

variable {pixel : Nat → BitVec 8} {n : Nat} {s : SystolicArray.State}
  {i : SystolicArray.Input}

theorem kernelProduct_eq (held : SystolicArray.Holds pixel (58 + n) s)
    (masked : i.peEn = mask n) (inRun : n < 401408) (tap : Fin 9) :
    SystolicArray.kernelProduct s i tap.rev =
      kernelTerm (fun k => SystolicArray.weightBuf s k i.weightSel) pixel n tap := by
  let line := SystolicArray.peLine tap.rev
  let column := SystolicArray.peColumn tap.rev
  have rev : tap.rev.val = 8 - tap := by
    rw [Fin.val_rev]
    omega
  have lineVal : line.val = (8 - tap) / 3 := congrArg (· / 3) rev
  have columnVal : column.val = (8 - tap) % 3 := congrArg (· % 3) rev
  have place : 3 * line.val + column.val = 8 - tap := by omega
  have weight : SystolicArray.weightBuf s tap.castSucc = (s.linePe line column).weightBuf :=
    dif_pos tap.isLt
  show (if i.peEn.getLsbD (3 * line.val + column.val) then
    BasicPe.mulSigned (BasicPe.weight (s.linePe line column) i.weightSel)
      (s.linePe line column).imapR else 0) = _
  clear_value line column
  rw [masked, place, BasicPe.weight_eq, ← weight]
  unfold kernelTerm
  split_ifs with enabled
  · have inMap := MacArrayFsm.mask_kernel inRun line column
    rw [place, enabled] at inMap
    have inside := of_decide_eq_true inMap.symm
    have filled : 56 * line.val + column.val < 58 + n := by omega
    rw [held.linePe_imapR line column filled]
    congr 2
    omega
  · rfl

theorem pointProduct_eq (held : SystolicArray.Holds pixel (58 + n) s)
    (masked : i.peEn = mask n) (inRun : n < 401408) :
    SystolicArray.pointProduct s i =
      pointTerm (fun k => SystolicArray.weightBuf s k i.weightSel) pixel n := by
  unfold SystolicArray.pointProduct pointTerm BasicPe.productNxt
  simp only [SystolicArray.pe1x1Input, masked, MacArrayFsm.mask_point inRun, if_true,
    BasicPe.weight_eq, held.pe1x1 (by omega)]
  congr 2
  omega

end MacArray

end RepVGGAcc
