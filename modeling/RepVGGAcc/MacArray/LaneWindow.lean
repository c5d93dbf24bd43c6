import RepVGGAcc.Layer.Merge
import RepVGGAcc.MacArray.Stream

/-! What one lane computes: the window of each pixel of each pass, padded with zeros. -/

namespace RepVGGAcc.MacArray

open Clocked
open BigOperators
open Layer

/-- The pixel in row `r` and column `c` of the map of pass `q`, 0 outside of it. -/
def paddedPixel (x : Nat → BitVec 8) (q : Nat) (r c : Int) : Int :=
  if 0 ≤ r ∧ r < 56 ∧ 0 ≤ c ∧ c < 56 then (x (3136 * q + (56 * r + c).toNat)).toInt else 0

def windowSum (w : Fin 10 → BitVec 8) (x : Nat → BitVec 8) (q : Nat) (r c : Int) : Int :=
  ∑ dy : Fin 3, ∑ dx : Fin 3,
    (w ⟨3 * dy + dx, by omega⟩).toInt * paddedPixel x q (r + dy - 1) (c + dx - 1)

/-- The weight bank of the output channel of a pass, and the half for its group. -/
def passSel (q : Nat) : Fin 4 :=
  ⟨2 * (q / 2 % 2) + q % 2, by omega⟩

/-- The outputs of a lane are those of the pixel in row `r` and column `c` of pass `q`. -/
structure ShowsWindow (w : Fin 10 → BitVec 8) (x : Nat → BitVec 8) (q r c : Nat)
    (lane : SystolicArray.State) : Prop where
  psum3x3 : (SystolicArray.psum3x3 lane).toInt = windowSum w x q r c
  product1x1 : (SystolicArray.product1x1 lane).toInt =
    (w (Fin.last 9)).toInt * paddedPixel x q r c
  identity : (SystolicArray.identity lane).toInt = paddedPixel x q r c

section Spec

variable (w : Fin 10 → BitVec 8) (x : Nat → BitVec 8) {q r c : Nat}

theorem paddedPixel_inside (row : r < 56) (column : c < 56) :
    paddedPixel x q r c = (x (3136 * q + (56 * r + c))).toInt := by
  unfold paddedPixel
  rw [if_pos (by omega)]
  congr 2

theorem paddedPixel_tap (row : r < 56) (column : c < 56) (dy dx : Fin 3) :
    paddedPixel x q (r + dy - 1) (c + dx - 1) =
      if padding r c (finProdFinEquiv (dy, dx)) then 0
      else (x (3136 * q + tapPixel r c (finProdFinEquiv (dy, dx)))).toInt := by
  have tap : (finProdFinEquiv (dy, dx) : Fin (3 * 3)).val = dx + 3 * dy := rfl
  have tapRow : (dx.val + 3 * dy) / 3 = dy := by omega
  have tapColumn : (dx.val + 3 * dy) % 3 = dx := by omega
  unfold paddedPixel padding tapPixel
  rw [tap, tapRow, tapColumn]
  by_cases inside : r + dy.val = 0 ∨ r + dy.val = 57 ∨ c + dx.val = 0 ∨ c + dx.val = 57
  · rw [if_neg (by omega), if_pos (decide_eq_true inside)]
  · rw [if_pos (by omega), if_neg (by simpa using inside)]
    congr 3
    omega

theorem windowSum_eq (row : r < 56) (column : c < 56) :
    windowSum w x q r c = ∑ tap : Fin 9, if padding r c tap then 0
      else product (w tap.castSucc) (x (3136 * q + tapPixel r c tap)) := by
  rw [← Equiv.sum_comp (finProdFinEquiv : Fin 3 × Fin 3 ≃ Fin 9), Fintype.sum_prod_type]
  refine Finset.sum_congr rfl fun dy _ => Finset.sum_congr rfl fun dx _ => ?_
  rw [paddedPixel_tap x row column, mul_ite, mul_zero]
  have number : (⟨3 * dy + dx, by omega⟩ : Fin 10) =
      Fin.castSucc (finProdFinEquiv (dy, dx) : Fin 9) :=
    Fin.ext (Nat.add_comm _ _)
  rw [number]
  rfl

theorem abs_windowSum (row : r < 56) (column : c < 56) :
    |windowSum w x q r c| ≤ 9 * (128 * 128) := by
  rw [windowSum_eq w x row column]
  have term (tap : Fin 9) : |if padding r c tap then 0
      else product (w tap.castSucc) (x (3136 * q + tapPixel r c tap))| ≤ 128 * 128 := by
    split_ifs
    · simp
    · exact abs_product _ _
  refine (Finset.abs_sum_le_sum_abs _ _).trans
    ((Finset.sum_le_card_nsmul Finset.univ _ _ fun tap _ => term tap).trans ?_)
  simp

end Spec

theorem weightSel_pass (skew : Nat) {q p : Nat} (pass : q < 128) (pixel : p < 3136) :
    MacArrayFsm.weightSel (MacArrayFsm.scan skew (59 + (3136 * q + p))) = passSel q := by
  have here : MacArrayFsm.position (59 + (3136 * q + p)) = 3136 * q + p := by
    unfold MacArrayFsm.position
    omega
  apply Fin.ext
  show 2 * (MacArrayFsm.position _ / 6272 % 64 % 2) +
    (decide (MacArrayFsm.position _ / 3136 % 2 = 1)).toNat = 2 * (q / 2 % 2) + q % 2
  rw [here, show (3136 * q + p) / 3136 = q by omega, show (3136 * q + p) / 6272 = q / 2 by omega]
  rcases Nat.mod_two_eq_zero_or_one q with even | odd
  · rw [even, decide_eq_false (by omega), Bool.toNat_false]
    omega
  · rw [odd, decide_eq_true rfl, Bool.toNat_true]
    omega

namespace Streams

variable {pixel : Nat → BitVec 256} {skew : Fin 3136} {done : Bool} {s : Nat → State}
  {i : Nat → Input} {q r c : Nat}

/-- The three outputs of a lane show the window of a pixel in one cycle, three cycles after
it was complete. -/
theorem showsWindow (run : Streams pixel skew done s i) (fixed : ∀ t, (i t).weightWen = false)
    (lane : Fin 32) (pass : q < 128) (row : r < 56) (column : c < 56) :
    ShowsWindow (weights (s 0).macArrayCore (passSel q) lane)
      (fun m => MacArrayCore.laneIn (pixel m) lane) q r c
      ((s (63 + (3136 * q + (56 * r + c)))).macArrayCore.convArray lane) := by
  have inRun : 3136 * q + (56 * r + c) < 401408 := by omega
  generalize position : 3136 * q + (56 * r + c) = n at inRun
  have held := run.window_holds inRun lane
  have enabled := run.window_enabled inRun
  have fsm := run.window_fsm inRun
  have later (j : Nat) (lt : j < 2) : (s (60 + n + 1 + j)).macArrayCore.pipeEnD = true := by
    rw [Nat.add_assoc]
    exact enabled (1 + j) (by omega)
  have array := MacArrayCore.convArray_trace (core_trace run.trace) lane
  have masked : MacArrayFsm.peEn (s (60 + n)).macArrayFsm = MacArrayFsm.mask n := by
    rw [fsm, MacArrayFsm.peEn_scan]
  have weight : (fun k => SystolicArray.weightBuf ((s (60 + n)).macArrayCore.convArray lane) k
      (MacArrayFsm.weightSel (s (60 + n)).macArrayFsm)) =
        weights (s 0).macArrayCore (passSel q) lane := by
    rw [fsm, ← position, weightSel_pass skew pass (by omega),
      ← weights_fixed run.trace fixed (60 + (3136 * q + (56 * r + c)))]
    rfl
  rw [show 63 + n = 60 + n + 3 by omega]
  refine ⟨?_, ?_, ?_⟩
  · have bounds := abs_le.mp (abs_windowSum (weights (s 0).macArrayCore (passSel q) lane)
      (fun m => MacArrayCore.laneIn (pixel m) lane) (q := q) row column)
    have sum : SystolicArray.psum3x3 ((s (60 + n + 3)).macArrayCore.convArray lane) =
        BitVec.ofInt 32 (windowSum (weights (s 0).macArrayCore (passSel q) lane)
          (fun m => MacArrayCore.laneIn (pixel m) lane) q r c) := by
      rw [windowSum_eq _ _ row column, ofInt_sum]
      refine (SystolicArray.psum3x3_latency array (60 + n) later).trans ?_
      rw [← Equiv.sum_comp Fin.revPerm]
      refine Finset.sum_congr rfl fun tap _ => ?_
      have term := signExtend_kernelTerm (v := 32) pass row column
        (weights (s 0).macArrayCore (passSel q) lane)
        (fun m => MacArrayCore.laneIn (pixel m) lane) tap
      rw [position, ← weight] at term
      rw [Fin.revPerm_apply, kernelProduct_eq held masked inRun tap, ← weight]
      exact term
    rw [sum, BitVec.toInt_ofInt_eq_self (by decide) (by omega) (by omega)]
  · rw [paddedPixel_inside _ row column, position]
    refine (congrArg BitVec.toInt
      (SystolicArray.product1x1_latency array (60 + n) later)).trans ?_
    rw [pointProduct_eq held masked inRun, pointTerm, BasicPe.toInt_mulSigned, ← weight]
    rfl
  · rw [paddedPixel_inside _ row column, position]
    refine (congrArg BitVec.toInt (SystolicArray.identity_latency array (60 + n)
      fun j lt => enabled j (by omega))).trans ?_
    rw [held.identity (by omega), show 58 + n - 58 = n by omega]

end Streams

/-- The array with weights that differ from element to element, in all of their buffers. -/
def weighted : State :=
  { reset with
    macArrayCore := { MacArrayCore.reset with
      convArray := fun lane => { SystolicArray.reset with
        linePe := fun line k => { BasicPe.reset with
          weightBuf := fun buf => BitVec.ofNat 8 (36 * lane + 12 * line + 4 * k + buf + 1) }
        pe1x1 := { BasicPe.reset with
          weightBuf := fun buf => BitVec.ofNat 8 (4 * lane + buf + 1) } } } }

theorem rests_weighted : weighted.macArrayFsm = MacArrayFsm.reset :=
  rfl

/-- Pixel (54, 54) of the last pass, on a stream that counts. -/
theorem showsWindow_stream :
    ShowsWindow (weights weighted.macArrayCore (passSel 127) 0)
      (fun m => MacArrayCore.laneIn (BitVec.ofNat 256 m) 0) 127 54 54
      ((run step weighted (stream (BitVec.ofNat 256))
        (63 + (3136 * 127 + (56 * 54 + 54)))).macArrayCore.convArray 0) :=
  Streams.showsWindow (streams_stream rests_weighted (BitVec.ofNat 256)) (fun _ => rfl) 0
    (by decide) (by decide) (by decide)

end RepVGGAcc.MacArray
