import RepVGGAcc.Clocked.Exact
import RepVGGAcc.Layer.Merge

/-! No adder of the data path overflows, whatever the weights, the pixels and the masks: at
each stage of a pipeline that is not stalled the words hold the integer sums. -/

namespace RepVGGAcc

open Clocked
open BigOperators

/-- The product of the selected weight buffer and the pixel, 0 when the processing element is
masked. -/
def BasicPe.exactProduct (s : State) (i : Input) : Int :=
  if i.peEn then (s.weightBuf i.weightSel).toInt * s.imapR.toInt else 0

theorem BasicPe.exact_productNxt (s : State) (i : Input) :
    Exact (2 ^ 14) (productNxt s i) (exactProduct s i) := by
  unfold productNxt exactProduct
  rw [weight_eq]
  split
  · refine ⟨toInt_mulSigned _ _, ?_⟩
    exact (Layer.abs_product _ _).trans (by norm_num)
  · exact Exact.zero.weaken (Nat.zero_le _)

namespace AdderTree3x3

structure ExactAt (tree : Nat → State) (products : Nat → Fin 9 → BitVec 16) (x : Fin 9 → Int)
    (t : Nat) : Prop where
  psumS1 : ∀ k, Exact (2 * 2 ^ 14) (psumS1 (products t) k)
    (addPairs (fun tap : Fin 8 => x tap.castSucc) k)
  psumS2 : ∀ k, Exact (4 * 2 ^ 14) (psumS2 (products t) k)
    (addPairs (addPairs fun tap : Fin 8 => x tap.castSucc) k)
  psumS3 : Exact (8 * 2 ^ 14) (psumS3 (tree (t + 1))) (∑ tap : Fin 8, x tap.castSucc)
  psumS4 : Exact (9 * 2 ^ 14) (psumS4 (tree (t + 1))) (∑ tap, x tap)
  psum3x3 : Exact (9 * 2 ^ 14) (psum3x3 (tree (t + 2))) (∑ tap, x tap)

theorem exactAt {tree : Nat → State} {products : Nat → Fin 9 → BitVec 16} {x : Fin 9 → Int}
    {t : Nat} (first : tree (t + 1) = step (tree t) true (products t))
    (second : tree (t + 2) = step (tree (t + 1)) true (products (t + 1)))
    (each : ∀ pe, Exact (2 ^ 14) (products t pe) (x pe)) : ExactAt tree products x t := by
  have psumS1 (k : Fin 4) : Exact (2 * 2 ^ 14) (AdderTree3x3.psumS1 (products t) k)
      (addPairs (fun tap : Fin 8 => x tap.castSucc) k) :=
    Exact.addPairs (fun tap => (each _).signExtend (by decide)) (by decide) (by decide) k
  have psumS2 (k : Fin 2) : Exact (4 * 2 ^ 14) (AdderTree3x3.psumS2 (products t) k)
      (addPairs (addPairs fun tap : Fin 8 => x tap.castSucc) k) :=
    Exact.addPairs psumS1 (by decide) (by decide) k
  have eight : addPair (addPairs (addPairs fun tap : Fin 8 => x tap.castSucc)) =
      ∑ tap : Fin 8, x tap.castSucc :=
    (addPair_eq_sum _).trans ((sum_addPairs (n := 2) _).trans (sum_addPairs (n := 4) _))
  have psumS3 : Exact (8 * 2 ^ 14) (AdderTree3x3.psumS3 (tree (t + 1)))
      (∑ tap : Fin 8, x tap.castSucc) := by
    rw [first, ← eight]
    exact Exact.addPair psumS2 (by decide) (by decide)
  have psumS4 : Exact (9 * 2 ^ 14) (AdderTree3x3.psumS4 (tree (t + 1))) (∑ tap, x tap) := by
    have last : (tree (t + 1)).product9R = products t 8 := by
      rw [first]
      rfl
    unfold AdderTree3x3.psumS4
    rw [last, Fin.sum_univ_castSucc]
    exact psumS3.add ((each 8).signExtend (by decide)) (by decide) (by decide)
  refine ⟨psumS1, psumS2, psumS3, psumS4, ?_⟩
  rw [second]
  exact psumS4

end AdderTree3x3

namespace AdderTreeIch

variable {inWidth psumWidth : Nat}

structure ExactAt (m : Nat) (tree : Nat → State psumWidth)
    (psumCh : Nat → Fin 32 → BitVec inWidth) (x : Fin 32 → Int) (t : Nat) : Prop where
  psumS1 : ∀ k, Exact (2 * m) (psumS1 (psumCh t) k : BitVec psumWidth) (addPairs x k)
  psumS2 : ∀ k, Exact (2 * (2 * m)) (psumS2 (psumCh t) k : BitVec psumWidth)
    (addPairs (addPairs x) k)
  psumS3 : ∀ k, Exact (2 * (2 * (2 * m))) (psumS3 (tree (t + 1)) k)
    (addPairs (addPairs (addPairs x)) k)
  psumS4 : ∀ k, Exact (2 * (2 * (2 * (2 * m)))) (psumS4 (tree (t + 1)) k)
    (addPairs (addPairs (addPairs (addPairs x))) k)
  psumS5 : Exact (32 * m) (psumS5 (tree (t + 2))) (∑ lane, x lane)
  psum : Exact (32 * m) (psum (tree (t + 3))) (∑ lane, x lane)

theorem exactAt {m : Nat} {tree : Nat → State psumWidth}
    {psumCh : Nat → Fin 32 → BitVec inWidth} {x : Fin 32 → Int} {t : Nat}
    (first : tree (t + 1) = step (tree t) true (psumCh t))
    (second : tree (t + 2) = step (tree (t + 1)) true (psumCh (t + 1)))
    (third : tree (t + 3) = step (tree (t + 2)) true (psumCh (t + 2)))
    (each : ∀ lane, Exact m (psumCh t lane) (x lane)) (wider : inWidth ≤ psumWidth)
    (some_ : 0 < psumWidth) (fits : 32 * m < 2 ^ (psumWidth - 1)) :
    ExactAt m tree psumCh x t := by
  have psumS1 (k : Fin 16) : Exact (2 * m)
      (AdderTreeIch.psumS1 (psumCh t) k : BitVec psumWidth) (addPairs x k) :=
    Exact.addPairs (n := 16) (f := fun lane => (psumCh t lane).signExtend psumWidth)
      (fun lane => (each lane).signExtend wider) some_ (by omega) k
  have psumS2 (k : Fin 8) : Exact (2 * (2 * m))
      (AdderTreeIch.psumS2 (psumCh t) k : BitVec psumWidth) (addPairs (addPairs x) k) :=
    Exact.addPairs psumS1 some_ (by omega) k
  have psumS3 (k : Fin 4) : Exact (2 * (2 * (2 * m))) (AdderTreeIch.psumS3 (tree (t + 1)) k)
      (addPairs (addPairs (addPairs x)) k) := by
    rw [first]
    exact Exact.addPairs psumS2 some_ (by omega) k
  have psumS4 (k : Fin 2) : Exact (2 * (2 * (2 * (2 * m))))
      (AdderTreeIch.psumS4 (tree (t + 1)) k)
      (addPairs (addPairs (addPairs (addPairs x))) k) :=
    Exact.addPairs psumS3 some_ (by omega) k
  have all : addPair (addPairs (addPairs (addPairs (addPairs x)))) = ∑ lane, x lane :=
    (addPair_eq_sum _).trans ((sum_addPairs (n := 2) _).trans ((sum_addPairs (n := 4) _).trans
      ((sum_addPairs (n := 8) _).trans (sum_addPairs (n := 16) _))))
  have psumS5 : Exact (32 * m) (AdderTreeIch.psumS5 (tree (t + 2))) (∑ lane, x lane) := by
    rw [second, ← all, show 32 * m = 2 * (2 * (2 * (2 * (2 * m)))) by omega]
    exact Exact.addPair psumS4 some_ (by omega)
  refine ⟨psumS1, psumS2, psumS3, psumS4, psumS5, ?_⟩
  rw [third]
  exact psumS5

end AdderTreeIch

namespace MacArrayCore

def kernelTerm (s : State) (i : Input) (lane : Fin 32) (pe : Fin 9) : Int :=
  BasicPe.exactProduct
    ((s.convArray lane).linePe (SystolicArray.peLine pe) (SystolicArray.peColumn pe))
    (SystolicArray.peInput (s.convArray lane) (laneInput s i lane) (SystolicArray.peLine pe)
      (SystolicArray.peColumn pe))

def pointTerm (s : State) (i : Input) (lane : Fin 32) : Int :=
  BasicPe.exactProduct (s.convArray lane).pe1x1
    (SystolicArray.pe1x1Input (s.convArray lane) (laneInput s i lane))

structure ExactAt (s : Nat → State) (i : Nat → Input) (t : Nat) : Prop where
  kernel : ∀ lane pe, Exact (2 ^ 14) (SystolicArray.product3x3 ((s (t + 1)).convArray lane) pe)
    (kernelTerm (s t) (i t) lane pe)
  point : ∀ lane, Exact (2 ^ 14) ((s (t + 1)).convArray lane).pe1x1.productR
    (pointTerm (s t) (i t) lane)
  adderTree3x3 : ∀ lane, AdderTree3x3.ExactAt (fun u => ((s u).convArray lane).adderTree)
    (fun u => SystolicArray.product3x3 ((s u).convArray lane)) (kernelTerm (s t) (i t) lane)
    (t + 1)
  adderTreeIch3x3 : AdderTreeIch.ExactAt (9 * 2 ^ 14) (fun u => (s u).adderTreeIch3x3)
    (fun u lane => SystolicArray.psum3x3 ((s u).convArray lane))
    (fun lane => ∑ pe, kernelTerm (s t) (i t) lane pe) (t + 3)
  adderTreeIch1x1 : AdderTreeIch.ExactAt (2 ^ 14) (fun u => (s u).adderTreeIch1x1)
    (fun u lane => SystolicArray.product1x1 ((s u).convArray lane)) (pointTerm (s t) (i t))
    (t + 3)

theorem exactAt {s : Nat → State} {i : Nat → Input} (trace : IsTrace step s i) {t : Nat}
    (flows : ∀ k < 6, (s (t + k)).pipeEnD = true) : ExactAt s i t := by
  have lanes (lane : Fin 32) := convArray_trace trace lane
  have flow (k : Nat) (inside : k < 5) : (s (t + 1 + k)).pipeEnD = true := by
    rw [Nat.add_assoc]
    exact flows (1 + k) (by omega)
  have kernel (lane : Fin 32) (pe : Fin 9) :
      Exact (2 ^ 14) (SystolicArray.product3x3 ((s (t + 1)).convArray lane) pe)
        (kernelTerm (s t) (i t) lane pe) := by
    rw [show (s (t + 1)).convArray lane = SystolicArray.step ((s t).convArray lane)
      (laneInput (s t) (i t) lane) from lanes lane t]
    exact BasicPe.exact_productNxt _ _
  have point (lane : Fin 32) : Exact (2 ^ 14) ((s (t + 1)).convArray lane).pe1x1.productR
      (pointTerm (s t) (i t) lane) := by
    rw [show (s (t + 1)).convArray lane = SystolicArray.step ((s t).convArray lane)
      (laneInput (s t) (i t) lane) from lanes lane t]
    exact BasicPe.exact_productNxt _ _
  have laneTree (lane : Fin 32) (k : Nat) (inside : k < 5) :
      ((s (t + 1 + k + 1)).convArray lane).adderTree =
        AdderTree3x3.step ((s (t + 1 + k)).convArray lane).adderTree true
          (SystolicArray.product3x3 ((s (t + 1 + k)).convArray lane)) := by
    rw [← flow k inside]
    exact congrArg SystolicArray.State.adderTree (lanes lane (t + 1 + k))
  have adderTree3x3 (lane : Fin 32) :
      AdderTree3x3.ExactAt (fun u => ((s u).convArray lane).adderTree)
        (fun u => SystolicArray.product3x3 ((s u).convArray lane)) (kernelTerm (s t) (i t) lane)
        (t + 1) :=
    AdderTree3x3.exactAt (laneTree lane 0 (by decide)) (laneTree lane 1 (by decide)) (kernel lane)
  have kernelTree (k : Nat) (inside : k < 3) : (s (t + 3 + k + 1)).adderTreeIch3x3 =
      AdderTreeIch.step (s (t + 3 + k)).adderTreeIch3x3 true
        fun lane => SystolicArray.psum3x3 ((s (t + 3 + k)).convArray lane) := by
    have on := flow (2 + k) (by omega)
    rw [show t + 1 + (2 + k) = t + 3 + k by omega] at on
    rw [trace (t + 3 + k), ← on]
    rfl
  have pointTree (k : Nat) (inside : k < 3) : (s (t + 3 + k + 1)).adderTreeIch1x1 =
      AdderTreeIch.step (s (t + 3 + k)).adderTreeIch1x1 true
        fun lane => SystolicArray.product1x1 ((s (t + 3 + k)).convArray lane) := by
    have on := flow (2 + k) (by omega)
    rw [show t + 1 + (2 + k) = t + 3 + k by omega] at on
    rw [trace (t + 3 + k), ← on]
    rfl
  have delayed (lane : Fin 32) : SystolicArray.product1x1 ((s (t + 3)).convArray lane) =
      ((s (t + 1)).convArray lane).pe1x1.productR := by
    have latency := SystolicArray.product1x1_latency (lanes lane) t fun j inside =>
      flow j (by omega)
    refine latency.trans ?_
    rw [show (s (t + 1)).convArray lane = SystolicArray.step ((s t).convArray lane)
      (laneInput (s t) (i t) lane) from lanes lane t]
    rfl
  refine ⟨kernel, point, adderTree3x3, ?_, ?_⟩
  · exact AdderTreeIch.exactAt (kernelTree 0 (by decide)) (kernelTree 1 (by decide))
      (kernelTree 2 (by decide)) (fun lane => (adderTree3x3 lane).psum3x3) (by decide) (by decide)
      (by decide)
  · refine AdderTreeIch.exactAt (pointTree 0 (by decide)) (pointTree 1 (by decide))
      (pointTree 2 (by decide)) (fun lane => ?_) (by decide) (by decide) (by decide)
    rw [delayed lane]
    exact point lane

/-- The item of the array: the identity byte, the 1x1 and the 3x3 sum. -/
def item (s : State) : BitVec 64 :=
  identity s ++ psum1x1 s ++ psum3x3 s

end MacArrayCore

namespace MapMerger

/-- The values between the two items of a pixel and its word, for the sums `s3` and `s1`
and the identity `x`. -/
structure ExactWord (data : BitVec 64) (s3 s1 x : Int) : Prop where
  map3x3 : (map3x3 data).toInt = s3
  map1x1 : (map1x1 data).toInt = s1
  identity : (identity data).toInt = x
  mergeResult : (mergeResult data).toInt = s3 + s1 + x
  actMerge : (actMerge data).toInt = max (s3 + s1 + x) 0
  quanMerge : (quanMerge data).toInt = max (s3 + s1 + x) 0 / 2 ^ 17
  quan3x3 : (quan3x3 data).toInt = s3 / 2 ^ 17
  quan1x1 : (quan1x1 data).toInt = s1 / 2 ^ 14
  word : mapMergerDataOut data = 0#8 ++ BitVec.ofInt 8 (max (s3 + s1 + x) 0 / 2 ^ 17) ++
    BitVec.ofInt 8 (s3 / 2 ^ 17) ++ BitVec.ofInt 8 (s1 / 2 ^ 14)

theorem exactWord {data : BitVec 64} {s3 s1 : Int}
    (kernel : Exact (64 * (9 * 2 ^ 14)) (MapMerger.map3x3 data) s3)
    (point : Exact (64 * 2 ^ 14) (MapMerger.map1x1 data) s1) :
    ExactWord data s3 s1 (MapMerger.identity data).toInt := by
  let x := (MapMerger.identity data).toInt
  have byte : Exact 128 (MapMerger.identity data) x := ⟨rfl, Layer.abs_byte _⟩
  have merged : Exact (128 + 64 * (9 * 2 ^ 14) + 64 * 2 ^ 14) (MapMerger.mergeResult data)
      (s3 + s1 + x) := by
    rw [show s3 + s1 + x = x + s3 + s1 by omega]
    exact ((byte.signExtend (by decide)).add kernel (by decide) (by decide)).add
      (point.signExtend (by decide)) (by decide) (by decide)
  have act : Exact (128 + 64 * (9 * 2 ^ 14) + 64 * 2 ^ 14) (MapMerger.actMerge data)
      (max (s3 + s1 + x) 0) := by
    rw [MapMerger.actMerge_eq kernel.eq_ofInt point.eq_ofInt (kernel.small.trans (by norm_num))
      (point.small.trans (by norm_num))]
    refine Exact.ofInt (by decide) ?_ (by decide)
    rw [abs_of_nonneg (le_max_right _ _)]
    exact max_le (abs_le.mp merged.small).2 (by norm_num)
  have quanMerge : (MapMerger.quanMerge data).toInt = max (s3 + s1 + x) 0 / 2 ^ 17 :=
    act.extractLsb' (by decide) (by decide) (by decide)
  have quan3x3 : (MapMerger.quan3x3 data).toInt = s3 / 2 ^ 17 :=
    kernel.extractLsb' (by decide) (by decide) (by decide)
  have quan1x1 : (MapMerger.quan1x1 data).toInt = s1 / 2 ^ 14 :=
    point.extractLsb' (by decide) (by decide) (by decide)
  refine ⟨kernel.toInt, point.toInt, rfl, merged.toInt, act.toInt, quanMerge, quan3x3, quan1x1, ?_⟩
  rw [← quanMerge, ← quan3x3, ← quan1x1, BitVec.ofInt_toInt, BitVec.ofInt_toInt, BitVec.ofInt_toInt]
  rfl

end MapMerger

namespace PsumAcc

open MacArrayCore (item)

def kernelTotal (s : Fin 2 → Nat → MacArrayCore.State) (i : Fin 2 → Nat → MacArrayCore.Input)
    (t : Fin 2 → Nat) : Int :=
  ∑ g, ∑ lane, ∑ pe, MacArrayCore.kernelTerm (s g (t g)) (i g (t g)) lane pe

def pointTotal (s : Fin 2 → Nat → MacArrayCore.State) (i : Fin 2 → Nat → MacArrayCore.Input)
    (t : Fin 2 → Nat) : Int :=
  ∑ g, ∑ lane, MacArrayCore.pointTerm (s g (t g)) (i g (t g)) lane

/-- From the products of two groups to the word: every stage in between is exact. -/
theorem exactDatapath {s : Fin 2 → Nat → MacArrayCore.State}
    {i : Fin 2 → Nat → MacArrayCore.Input}
    (trace : ∀ g, IsTrace MacArrayCore.step (s g) (i g)) (t : Fin 2 → Nat)
    (flows : ∀ g, ∀ k < 6, (s g (t g + k)).pipeEnD = true) (sel : Bool) :
    (∀ g, MacArrayCore.ExactAt (s g) (i g) (t g)) ∧
      MapMerger.ExactWord (accumulate sel (item (s 1 (t 1 + 6))) (item (s 0 (t 0 + 6))))
        (kernelTotal s i t) (pointTotal s i t)
        (MacArrayCore.identity (if sel then s 1 (t 1 + 6) else s 0 (t 0 + 6))).toInt := by
  have exact_ (g : Fin 2) := MacArrayCore.exactAt (trace g) (flows g)
  have kernel : Exact (64 * (9 * 2 ^ 14))
      (MapMerger.map3x3 (accumulate sel (item (s 1 (t 1 + 6))) (item (s 0 (t 0 + 6)))))
      (kernelTotal s i t) := by
    rw [map3x3_accumulate, kernelTotal, Fin.sum_univ_two, add_comm, item, item,
      MacArray.kernel_append, MacArray.kernel_append]
    exact (exact_ 0).adderTreeIch3x3.psum.add (exact_ 1).adderTreeIch3x3.psum (by decide)
      (by decide)
  have point : Exact (64 * 2 ^ 14)
      (MapMerger.map1x1 (accumulate sel (item (s 1 (t 1 + 6))) (item (s 0 (t 0 + 6)))))
      (pointTotal s i t) := by
    rw [map1x1_accumulate, pointTotal, Fin.sum_univ_two, add_comm, item, item,
      MacArray.point_append, MacArray.point_append]
    exact (exact_ 0).adderTreeIch1x1.psum.add (exact_ 1).adderTreeIch1x1.psum (by decide)
      (by decide)
  have identity : MapMerger.identity
      (accumulate sel (item (s 1 (t 1 + 6))) (item (s 0 (t 0 + 6)))) =
      MacArrayCore.identity (if sel then s 1 (t 1 + 6) else s 0 (t 0 + 6)) := by
    rw [identity_accumulate, item, item, MacArray.identity_append, MacArray.identity_append]
    cases sel <;> rfl
  refine ⟨exact_, ?_⟩
  rw [← identity]
  exact MapMerger.exactWord kernel point

/-! The corner of the range: all weights, pixels and identity bytes are -128, nothing is
masked. -/

def extremePe : BasicPe.State where
  imapR := 0x80
  weightBuf := fun _ => 0x80
  productR := 0

def extreme : MacArrayCore.State :=
  { MacArrayCore.reset with
    pipeEnD := true
    convArray := fun _ =>
      { SystolicArray.reset with
        linePe := fun _ _ => extremePe
        pe1x1 := extremePe
        identityD := fun _ => 0x80 } }

def flowing (weightSel : Fin 4) (identitySel : Fin 32) (_ : Nat) : MacArrayCore.Input where
  pipeEn := true
  peEn := 0x3ff
  weightLoad := fun _ => 0
  weightLoadEn := fun _ _ => false
  weightLoadSel := weightSel
  weightSel := weightSel
  imapIn := 0
  identitySel := identitySel

theorem pipeEnD_extreme : ∀ t, (run MacArrayCore.step extreme (flowing 0 0) t).pipeEnD = true
  | 0 => rfl
  | _ + 1 => rfl

/-- The largest sums and their word. -/
theorem exactDatapath_extreme :
    let s := fun _ : Fin 2 => run MacArrayCore.step extreme (flowing 0 0)
    let data := accumulate false (item (s 1 6)) (item (s 0 6))
    (∀ g, MacArrayCore.ExactAt (s g) (flowing 0 0) 0) ∧
      MapMerger.ExactWord data (64 * 9 * 2 ^ 14) (64 * 2 ^ 14) (-128) ∧
        MapMerger.mapMergerDataOut data = 0x004f4840 := by
  intro s data
  obtain ⟨stages, word⟩ := exactDatapath (s := s) (i := fun _ => flowing 0 0)
    (fun _ => isTrace_run _ _ _) (fun _ => 0) (fun _ k _ => pipeEnD_extreme (0 + k)) false
  have kernel : kernelTotal s (fun _ => flowing 0 0) (fun _ => 0) = 64 * 9 * 2 ^ 14 := by
    have term : ∀ lane pe, MacArrayCore.kernelTerm extreme (flowing 0 0 0) lane pe = 2 ^ 14 := by
      decide
    have same (g : Fin 2) : s g 0 = extreme := rfl
    simp [kernelTotal, same, term]
  have point : pointTotal s (fun _ => flowing 0 0) (fun _ => 0) = 64 * 2 ^ 14 := by
    have term : ∀ lane, MacArrayCore.pointTerm extreme (flowing 0 0 0) lane = 2 ^ 14 := by decide
    have same (g : Fin 2) : s g 0 = extreme := rfl
    simp [pointTotal, same, term]
  have identity : (MacArrayCore.identity (s 0 6)).toInt = -128 := by decide
  have corner : MapMerger.ExactWord data (64 * 9 * 2 ^ 14) (64 * 2 ^ 14) (-128) := by
    rw [← kernel, ← point, ← identity]
    exact word
  refine ⟨stages, corner, corner.word.trans ?_⟩
  decide

end PsumAcc

end RepVGGAcc
