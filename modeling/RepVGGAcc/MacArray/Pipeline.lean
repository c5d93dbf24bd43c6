import RepVGGAcc.Clocked.PairSum
import RepVGGAcc.Clocked.Trace
import RepVGGAcc.Rtl.MacArray
import Mathlib.Data.BitVec

/-! The six stages between the window of a pixel and the item handed to
`psum_acc`, while the pipeline is enabled in every cycle. -/

namespace RepVGGAcc

open Clocked

namespace AdderTree3x3

theorem psumS4R_step_step (s : State) (p q : Fin 9 → BitVec 16) :
    (step (step s true p) true q).psumS4R = ∑ pe, (p pe).signExtend 32 := by
  have pairs := sum_addPairs (n := 4) fun pe => (p pe.castSucc).signExtend 32
  have fours := sum_addPairs (n := 2) (psumS1 p)
  rw [Fin.sum_univ_castSucc]
  exact congrArg (· + (p 8).signExtend 32)
    ((addPair_eq_sum (psumS2 p)).trans (fours.trans pairs))

end AdderTree3x3

namespace AdderTreeIch

variable {inWidth psumWidth : Nat}

theorem psumS5R_step_step_step (s : State psumWidth) (x y z : Fin 32 → BitVec inWidth) :
    (step (step (step s true x) true y) true z).psumS5R =
      ∑ lane, (x lane).signExtend psumWidth := by
  have pairs := sum_addPairs (n := 16) fun lane => (x lane).signExtend psumWidth
  have fours := sum_addPairs (n := 8) fun k => (psumS1 x k : BitVec psumWidth)
  have eights := sum_addPairs (n := 4) fun k => (psumS2 x k : BitVec psumWidth)
  have sixteens := sum_addPairs (n := 2) (psumS3 (step s true x))
  exact (addPair_eq_sum (psumS4 (step s true x))).trans
    (sixteens.trans (eights.trans (fours.trans pairs)))

end AdderTreeIch

namespace SystolicArray

def kernelProduct (s : State) (i : Input) (pe : Fin 9) : BitVec 16 :=
  BasicPe.productNxt (s.linePe (peLine pe) (peColumn pe))
    (peInput s i (peLine pe) (peColumn pe))

def pointProduct (s : State) (i : Input) : BitVec 16 :=
  BasicPe.productNxt s.pe1x1 (pe1x1Input s i)

theorem product3x3_step (s : State) (i : Input) :
    product3x3 (step s i) = kernelProduct s i := rfl

variable {s : Nat → State} {i : Nat → Input}

theorem psum3x3_latency (trace : IsTrace step s i) (t : Nat)
    (enabled : ∀ j < 2, (i (t + 1 + j)).pipeEn = true) :
    psum3x3 (s (t + 3)) = ∑ pe, (kernelProduct (s t) (i t) pe).signExtend 32 := by
  have first : (i (t + 1)).pipeEn = true := enabled 0 (by omega)
  have second : (i (t + 2)).pipeEn = true := enabled 1 (by omega)
  have formed : product3x3 (s (t + 1)) = kernelProduct (s t) (i t) := by
    rw [trace t, product3x3_step]
  have summed : (s (t + 3)).adderTree = AdderTree3x3.step
      (AdderTree3x3.step (s (t + 1)).adderTree true (product3x3 (s (t + 1)))) true
      (product3x3 (s (t + 2))) := by
    rw [trace (t + 2)]
    show AdderTree3x3.step (s (t + 1 + 1)).adderTree (i (t + 2)).pipeEn
      (product3x3 (s (t + 2))) = _
    rw [second, trace (t + 1), ← first]
    rfl
  show (s (t + 3)).adderTree.psumS4R = _
  rw [summed, AdderTree3x3.psumS4R_step_step, formed]

theorem product1x1_latency (trace : IsTrace step s i) (t : Nat)
    (enabled : ∀ j < 2, (i (t + 1 + j)).pipeEn = true) :
    product1x1 (s (t + 3)) = pointProduct (s t) (i t) := by
  have first : (i (t + 1)).pipeEn = true := enabled 0 (by omega)
  have second : (i (t + 2)).pipeEn = true := enabled 1 (by omega)
  rw [trace (t + 2)]
  show dfflrChain (i (t + 2)).pipeEn _ (s (t + 1 + 1)).product1x1D 1 = _
  rw [second, trace (t + 1)]
  show dfflrChain (i (t + 1)).pipeEn (s (t + 1)).pe1x1.productR _ 0 = _
  rw [first, trace t]
  rfl

theorem identity_latency (trace : IsTrace step s i) (t : Nat)
    (enabled : ∀ j < 3, (i (t + j)).pipeEn = true) :
    identity (s (t + 3)) = (s t).identityD 0 := by
  have zeroth : (i t).pipeEn = true := enabled 0 (by omega)
  have first : (i (t + 1)).pipeEn = true := enabled 1 (by omega)
  have second : (i (t + 2)).pipeEn = true := enabled 2 (by omega)
  rw [trace (t + 2)]
  show dfflrChain (i (t + 2)).pipeEn _ (s (t + 1 + 1)).identityD 3 = _
  rw [second, trace (t + 1)]
  show dfflrChain (i (t + 1)).pipeEn _ (s (t + 1)).identityD 2 = _
  rw [first, trace t]
  show dfflrChain (i t).pipeEn _ (s t).identityD 1 = _
  rw [zeroth]
  rfl

end SystolicArray

namespace MacArrayCore

variable {s : Nat → State} {i : Nat → Input}

theorem convArray_trace (trace : IsTrace step s i) (lane : Fin 32) :
    IsTrace SystolicArray.step (fun t => (s t).convArray lane)
      (fun t => laneInput (s t) (i t) lane) :=
  trace.component (fun core => core.convArray lane)
    (fun core signal => laneInput core signal lane) fun _ _ => rfl

theorem psum3x3_latency (trace : IsTrace step s i) (t : Nat)
    (enabled : ∀ j < 6, (s (t + j)).pipeEnD = true) :
    psum3x3 (s (t + 6)) = ∑ lane, ∑ pe, (SystolicArray.kernelProduct
      ((s t).convArray lane) (laneInput (s t) (i t) lane) pe).signExtend 32 := by
  have lanes (lane : Fin 32) := SystolicArray.psum3x3_latency (convArray_trace trace lane) t
    fun j lt => by
      rw [Nat.add_assoc]
      exact enabled (1 + j) (by omega)
  have third : (s (t + 3)).pipeEnD = true := enabled 3 (by omega)
  have fourth : (s (t + 4)).pipeEnD = true := enabled 4 (by omega)
  have fifth : (s (t + 5)).pipeEnD = true := enabled 5 (by omega)
  rw [trace (t + 5)]
  show (AdderTreeIch.step (s (t + 4 + 1)).adderTreeIch3x3 (s (t + 5)).pipeEnD _).psumS5R = _
  rw [fifth, trace (t + 4)]
  show (AdderTreeIch.step (AdderTreeIch.step (s (t + 3 + 1)).adderTreeIch3x3
    (s (t + 4)).pipeEnD _) true _).psumS5R = _
  rw [fourth, trace (t + 3)]
  show (AdderTreeIch.step (AdderTreeIch.step (AdderTreeIch.step
    (s (t + 3)).adderTreeIch3x3 (s (t + 3)).pipeEnD _) true _) true _).psumS5R = _
  rw [third, AdderTreeIch.psumS5R_step_step_step]
  refine Finset.sum_congr rfl fun lane _ => ?_
  rw [BitVec.signExtend_eq, lanes lane]

theorem psum1x1_latency (trace : IsTrace step s i) (t : Nat)
    (enabled : ∀ j < 6, (s (t + j)).pipeEnD = true) :
    psum1x1 (s (t + 6)) = ∑ lane, (SystolicArray.pointProduct
      ((s t).convArray lane) (laneInput (s t) (i t) lane)).signExtend 24 := by
  have lanes (lane : Fin 32) :=
    SystolicArray.product1x1_latency (convArray_trace trace lane) t fun j lt => by
      rw [Nat.add_assoc]
      exact enabled (1 + j) (by omega)
  have third : (s (t + 3)).pipeEnD = true := enabled 3 (by omega)
  have fourth : (s (t + 4)).pipeEnD = true := enabled 4 (by omega)
  have fifth : (s (t + 5)).pipeEnD = true := enabled 5 (by omega)
  rw [trace (t + 5)]
  show (AdderTreeIch.step (s (t + 4 + 1)).adderTreeIch1x1 (s (t + 5)).pipeEnD _).psumS5R = _
  rw [fifth, trace (t + 4)]
  show (AdderTreeIch.step (AdderTreeIch.step (s (t + 3 + 1)).adderTreeIch1x1
    (s (t + 4)).pipeEnD _) true _).psumS5R = _
  rw [fourth, trace (t + 3)]
  show (AdderTreeIch.step (AdderTreeIch.step (AdderTreeIch.step
    (s (t + 3)).adderTreeIch1x1 (s (t + 3)).pipeEnD _) true _) true _).psumS5R = _
  rw [third, AdderTreeIch.psumS5R_step_step_step]
  exact Finset.sum_congr rfl fun lane _ => congrArg (BitVec.signExtend 24) (lanes lane)

theorem identity_latency (trace : IsTrace step s i) (t : Nat)
    (enabled : ∀ j < 6, (s (t + j)).pipeEnD = true) :
    identity (s (t + 6)) = ((s t).convArray (i (t + 3)).identitySel).identityD 0 := by
  have lanes (lane : Fin 32) :=
    SystolicArray.identity_latency (convArray_trace trace lane) t fun j lt =>
      enabled j (by omega)
  have third : (s (t + 3)).pipeEnD = true := enabled 3 (by omega)
  have fourth : (s (t + 4)).pipeEnD = true := enabled 4 (by omega)
  have fifth : (s (t + 5)).pipeEnD = true := enabled 5 (by omega)
  rw [trace (t + 5)]
  show dfflrChain (s (t + 5)).pipeEnD _ (s (t + 4 + 1)).identityD 2 = _
  rw [fifth, trace (t + 4)]
  show dfflrChain (s (t + 4)).pipeEnD _ (s (t + 3 + 1)).identityD 1 = _
  rw [fourth, trace (t + 3)]
  show dfflrChain (s (t + 3)).pipeEnD (identityCh (s (t + 3)) (i (t + 3))) _ 0 = _
  rw [third]
  exact lanes (i (t + 3)).identitySel

end MacArrayCore

end RepVGGAcc
