import RepVGGAcc.Loop.Feed
import RepVGGAcc.Testbench.RefModel

/-! `generator_pkg.sv`: the stream of weights and pixels, and where `get_data` of the model
puts them. -/

namespace RepVGGAcc

open Loop (feed feed_add feed_kept Fills)
open RefModel (Convdata)

structure Layer.Operands.Agrees (x y : Layer.Operands) : Prop where
  w3 : ∀ tap ch, x.w3 tap ch = y.w3 tap ch
  w1 : ∀ ch, x.w1 ch = y.w1 ch
  imap : ∀ p < 3136, ∀ ch, x.imap p ch = y.imap p ch
  identity : ∀ p < 3136, x.identity p = y.identity p

namespace Layer.Operands.Agrees

variable {x y : Layer.Operands} {i j : Nat}

theorem psum3x3 (agrees : x.Agrees y) (row : i < 56) (column : j < 56) :
    x.psum3x3 i j = y.psum3x3 i j := by
  refine Finset.sum_congr rfl fun ch _ => Finset.sum_congr rfl fun tap _ => ?_
  cases padded : Layer.padding i j tap with
  | true => rfl
  | false => rw [agrees.w3, agrees.imap _ (Layer.tapPixel_lt row column padded)]

theorem psum1x1 (agrees : x.Agrees y) (row : i < 56) (column : j < 56) :
    x.psum1x1 i j = y.psum1x1 i j :=
  Finset.sum_congr rfl fun ch _ => by rw [agrees.w1, agrees.imap _ (by omega)]

theorem nextPoint (agrees : x.Agrees y) (row : i < 56) (column : j < 56) :
    RefModel.nextPoint x i j = RefModel.nextPoint y i j := by
  unfold RefModel.nextPoint
  split_ifs with border
  · rfl
  · exact agrees.psum1x1 (by omega) (by omega)

end Layer.Operands.Agrees

/-- The data that the generator draws. -/
structure Stimulus where
  weight : Nat → BitVec 8
  pixel : Nat → BitVec 8

namespace Stimulus

def weightNum : Nat := 64 * 64 * 10

def imapNum : Nat := 56 * 56 * 64

variable (x : Stimulus)

def weightData (k : Nat) : Convdata where
  data := x.weight k
  dataType := 0

def imapData (k : Nat) : Convdata where
  data := x.pixel k
  dataType := 1

/-- What `gen_convdata` puts into both mailboxes. -/
def genConvdata : List Convdata :=
  (List.range weightNum).map x.weightData ++ (List.range imapNum).map x.imapData

/-- The generator as it stands: `randomize` is commented out, every datum is 1. -/
def ones : Stimulus where
  weight := fun _ => 1
  pixel := fun _ => 1

def counting : Stimulus where
  weight := BitVec.ofNat 8
  pixel := BitVec.ofNat 8

/-- A weight of the 3x3 kernels comes before those of the next tap, channel and output
channel, and all of them before those of the 1x1 kernels. -/
def operands (och : Nat) : Layer.Operands where
  w3 := fun tap ch => x.weight (576 * och + 9 * ch + tap)
  w1 := fun ch => x.weight (36864 + 64 * och + ch)
  imap := fun p ch => x.pixel (64 * p + ch)
  identity := fun p => x.pixel (64 * p + och)

/-- The states between the 3x3 kernels, the 1x1 kernels and the map. -/
structure Parts {σ : Type} (turn : σ → Convdata → σ) (s s3 s1 s' : σ) : Prop where
  kernels : s3 = feed turn x.weightData 36864 s
  points : s1 = feed turn (fun k => x.weightData (36864 + k)) 4096 s3
  map : s' = feed turn x.imapData imapNum s1

theorem exists_parts {σ : Type} (turn : σ → Convdata → σ) (s : σ) :
    ∃ s3 s1, x.Parts turn s s3 s1 (x.genConvdata.foldl turn s) := by
  refine ⟨_, _, rfl, rfl, ?_⟩
  rw [← feed_add, genConvdata, List.foldl_append]
  unfold feed
  rfl

end Stimulus

namespace RefModel

variable (x : Stimulus)

/-! The counters of `get_data` while the three parts of the stream come in. -/

structure CountsKernel (k : Nat) (s : State) : Prop where
  weightCnt : s.weightCnt = k
  wC : s.wC = k % 3
  wR : s.wR = k / 3 % 3
  wIchCnt : s.wIchCnt = k / 9 % 64
  wOchCnt : s.wOchCnt = k / 576 % 64

structure CountsPoint (k : Nat) (s : State) : Prop where
  weightCnt : s.weightCnt = 36864
  wIchCnt : s.wIchCnt = k % 64
  wOchCnt : s.wOchCnt = k / 64 % 64

structure CountsPixel (k : Nat) (s : State) : Prop where
  imapChCnt : s.imapChCnt = k % 64
  imapColCnt : s.imapColCnt = k / 64 % 56 + 1
  imapRowCnt : s.imapRowCnt = k / 3584 % 56 + 1

/-! The counters move without the arrays. -/

theorem countIch_arrays (s : State) : (countIch s).weight3 = s.weight3 ∧
    (countIch s).weight1 = s.weight1 ∧ (countIch s).imap = s.imap := by
  unfold countIch
  split_ifs <;> exact ⟨rfl, rfl, rfl⟩

theorem countC_arrays (s : State) : (countC s).weight3 = s.weight3 ∧
    (countC s).weight1 = s.weight1 ∧ (countC s).imap = s.imap := by
  unfold countC
  split_ifs
  · exact countIch_arrays _
  · exact ⟨rfl, rfl, rfl⟩
  · exact ⟨rfl, rfl, rfl⟩

theorem countCh_arrays (s : State) : (countCh s).weight3 = s.weight3 ∧
    (countCh s).weight1 = s.weight1 ∧ (countCh s).imap = s.imap := by
  unfold countCh
  split_ifs <;> exact ⟨rfl, rfl, rfl⟩

theorem countIch_imap (s : State) : (countIch s).imapChCnt = s.imapChCnt ∧
    (countIch s).imapColCnt = s.imapColCnt ∧ (countIch s).imapRowCnt = s.imapRowCnt := by
  unfold countIch
  split_ifs <;> exact ⟨rfl, rfl, rfl⟩

theorem countC_imap (s : State) : (countC s).imapChCnt = s.imapChCnt ∧
    (countC s).imapColCnt = s.imapColCnt ∧ (countC s).imapRowCnt = s.imapRowCnt := by
  unfold countC
  split_ifs
  · exact countIch_imap _
  · exact ⟨rfl, rfl, rfl⟩
  · exact ⟨rfl, rfl, rfl⟩

/-! A turn for each kind of datum. -/

theorem receive_kernel {s : State} {k : Nat} (inside : k < 36864) (counts : CountsKernel k s) :
    receive s (x.weightData k) = countC
      { s with
        weight3 := Function.update s.weight3 (s.wOchCnt, s.wIchCnt, s.wR, s.wC) (x.weight k)
        weightCnt := s.weightCnt + 1 } := by
  have weight : (x.weightData k).dataType = 0 := rfl
  unfold receive
  rw [if_pos weight, if_pos (by rw [counts.weightCnt]; exact inside)]
  rfl

theorem receive_point {s : State} {k : Nat} (counts : CountsPoint k s) :
    receive s (x.weightData (36864 + k)) = countIch
      { s with
        weight1 :=
          Function.update s.weight1 (s.wOchCnt, s.wIchCnt) (x.weight (36864 + k)) } := by
  have weight : (x.weightData (36864 + k)).dataType = 0 := rfl
  unfold receive
  rw [if_pos weight, if_neg (by rw [counts.weightCnt]; exact Nat.lt_irrefl _)]
  rfl

theorem receive_pixel (s : State) (k : Nat) :
    receive s (x.imapData k) = countCh
      { s with
        imap := Function.update s.imap (s.imapChCnt, s.imapRowCnt, s.imapColCnt)
          (x.pixel k) } := by
  unfold receive
  rw [if_neg (by show ¬ (1 : Int) = 0; decide)]
  rfl

theorem countIch_counts (s : State) {k : Nat} (wIchCnt : s.wIchCnt = k % 64)
    (wOchCnt : s.wOchCnt = k / 64 % 64) : (countIch s).wIchCnt = (k + 1) % 64 ∧
      (countIch s).wOchCnt = (k + 1) / 64 % 64 := by
  unfold countIch
  split_ifs <;> constructor <;> simp only <;> omega

theorem countIch_kernel (s : State) : (countIch s).weightCnt = s.weightCnt ∧
    (countIch s).wC = s.wC ∧ (countIch s).wR = s.wR := by
  unfold countIch
  split_ifs <;> exact ⟨rfl, rfl, rfl⟩

theorem countC_counts {s : State} {k : Nat} (weightCnt : s.weightCnt = k + 1)
    (wC : s.wC = k % 3) (wR : s.wR = k / 3 % 3) (wIchCnt : s.wIchCnt = k / 9 % 64)
    (wOchCnt : s.wOchCnt = k / 576 % 64) : CountsKernel (k + 1) (countC s) := by
  unfold countC
  split_ifs with line kernel
  · have same := countIch_kernel { s with wC := 0, wR := 0 }
    have next := countIch_counts { s with wC := 0, wR := 0 } (k := k / 9) wIchCnt
      (by rw [Nat.div_div_eq_div_mul]; exact wOchCnt)
    have carried : k / 9 + 1 = (k + 1) / 9 := by omega
    rw [carried, Nat.div_div_eq_div_mul] at next
    exact ⟨same.1.trans weightCnt, same.2.1.trans (show 0 = (k + 1) % 3 by omega),
      same.2.2.trans (show 0 = (k + 1) / 3 % 3 by omega), next.1, next.2⟩
  · constructor <;> simp only <;> omega
  · constructor <;> simp only <;> omega

theorem countCh_counts {s : State} {k : Nat} (counts : CountsPixel k s) :
    CountsPixel (k + 1) (countCh s) := by
  obtain ⟨channel, col, row⟩ := counts
  unfold countCh
  split_ifs <;> constructor <;> simp only <;> omega

theorem fills_kernel : Fills receive x.weightData 36864 CountsKernel State.weight3
    (fun k => (k / 576, k / 9 % 64, k / 3 % 3, k % 3)) x.weight where
  counts := fun k inside s counts => by
    rw [receive_kernel x inside counts]
    exact countC_counts (congrArg Nat.succ counts.weightCnt) counts.wC counts.wR counts.wIchCnt
      counts.wOchCnt
  written := fun k inside s counts => by
    rw [receive_kernel x inside counts, (countC_arrays _).1, counts.wOchCnt, counts.wIchCnt,
      counts.wR, counts.wC, Nat.mod_eq_of_lt (by omega)]
    exact Function.update_self _ _ _
  kept := fun k inside s counts place other => by
    rw [receive_kernel x inside counts, (countC_arrays _).1, counts.wOchCnt, counts.wIchCnt,
      counts.wR, counts.wC, Nat.mod_eq_of_lt (by omega)]
    exact Function.update_of_ne other _ _

theorem fills_point : Fills receive (fun k => x.weightData (36864 + k)) 4096 CountsPoint
    State.weight1 (fun k => (k / 64, k % 64)) fun k => x.weight (36864 + k) where
  counts := fun k _ s counts => by
    rw [receive_point x counts]
    have next (weight1 : Nat × Nat → BitVec 8) :=
      countIch_counts { s with weight1 := weight1 } counts.wIchCnt counts.wOchCnt
    exact ⟨(countIch_kernel _).1.trans counts.weightCnt, (next _).1, (next _).2⟩
  written := fun k inside s counts => by
    rw [receive_point x counts, (countIch_arrays _).2.1, counts.wOchCnt, counts.wIchCnt,
      Nat.mod_eq_of_lt (by omega)]
    exact Function.update_self _ _ _
  kept := fun k inside s counts place other => by
    rw [receive_point x counts, (countIch_arrays _).2.1, counts.wOchCnt, counts.wIchCnt,
      Nat.mod_eq_of_lt (by omega)]
    exact Function.update_of_ne other _ _

theorem fills_pixel : Fills receive x.imapData Stimulus.imapNum CountsPixel State.imap
    (fun k => (k % 64, k / 3584 + 1, k / 64 % 56 + 1)) x.pixel where
  counts := fun k _ s counts => by
    rw [receive_pixel]
    exact countCh_counts ⟨counts.imapChCnt, counts.imapColCnt, counts.imapRowCnt⟩
  written := fun k inside s counts => by
    unfold Stimulus.imapNum at inside
    rw [receive_pixel, (countCh_arrays _).2.2, counts.imapChCnt, counts.imapRowCnt,
      counts.imapColCnt, Nat.mod_eq_of_lt (by omega : k / 3584 < 56)]
    exact Function.update_self _ _ _
  kept := fun k inside s counts place other => by
    unfold Stimulus.imapNum at inside
    rw [receive_pixel, (countCh_arrays _).2.2, counts.imapChCnt, counts.imapRowCnt,
      counts.imapColCnt, Nat.mod_eq_of_lt (by omega : k / 3584 < 56)]
    exact Function.update_of_ne other _ _

/-! What the model holds after the whole stream. -/

theorem countsKernel_new (s : State) : CountsKernel 0 (new s) :=
  ⟨rfl, rfl, rfl, rfl, rfl⟩

theorem CountsKernel.through {s : State} (counts : CountsKernel 36864 s) : CountsPoint 0 s :=
  ⟨counts.weightCnt, counts.wIchCnt.trans (by norm_num), counts.wOchCnt.trans (by norm_num)⟩

def mapCounters (s : State) : Nat × Nat × Nat :=
  (s.imapChCnt, s.imapColCnt, s.imapRowCnt)

theorem countsPixel_of_mapCounters {s : State} (same : mapCounters s = (0, 1, 1)) :
    CountsPixel 0 s :=
  ⟨congrArg Prod.fst same, congrArg (fun counters => counters.2.1) same,
    congrArg (fun counters => counters.2.2) same⟩

section Parts

variable {x} {s s3 s1 s' : State} (parts : x.Parts receive (new s) s3 s1 s')

include parts

theorem countsPoint_parts : CountsPoint 0 s3 := by
  rw [parts.kernels]
  exact ((fills_kernel x).counted (countsKernel_new s)).through

theorem countsPixel_parts : CountsPixel 0 s1 := by
  refine countsPixel_of_mapCounters ?_
  rw [parts.points, feed_kept mapCounters (fills_point x).counts _ (countsPoint_parts parts),
    parts.kernels, feed_kept mapCounters (fills_kernel x).counts _ (countsKernel_new s)]
  · rfl
  · intro k inside s counts
    have same := countC_imap { s with
      weight3 := Function.update s.weight3 (s.wOchCnt, s.wIchCnt, s.wR, s.wC) (x.weight k)
      weightCnt := s.weightCnt + 1 }
    rw [receive_kernel x inside counts]
    exact Prod.ext same.1 (Prod.ext same.2.1 same.2.2)
  · intro k _ s counts
    have same := countIch_imap { s with
      weight1 := Function.update s.weight1 (s.wOchCnt, s.wIchCnt) (x.weight (36864 + k)) }
    rw [receive_point x counts]
    exact Prod.ext same.1 (Prod.ext same.2.1 same.2.2)

theorem weight3_parts {och ich r c : Nat} (outer : och < 64) (inner : ich < 64) (row : r < 3)
    (column : c < 3) :
    s'.weight3 (och, ich, r, c) = x.weight (576 * och + 9 * ich + (3 * r + c)) := by
  have filled := (fills_kernel x).filled (countsKernel_new s)
    (fun j _ k _ same => by
      simp only [Prod.mk.injEq] at same
      omega)
    (k := 576 * och + 9 * ich + (3 * r + c)) (by omega) (x := (och, ich, r, c))
    (by
      simp only [Prod.mk.injEq]
      omega)
  rw [← parts.kernels] at filled
  rw [parts.map, feed_kept State.weight3 (fills_pixel x).counts _ (countsPixel_parts parts),
    parts.points, feed_kept State.weight3 (fills_point x).counts _ (countsPoint_parts parts), filled]
  · intro k _ s counts
    rw [receive_point x counts]
    exact (countIch_arrays _).1
  · intro k _ s _
    rw [receive_pixel]
    exact (countCh_arrays _).1

theorem weight1_parts {och ich : Nat} (outer : och < 64) (inner : ich < 64) :
    s'.weight1 (och, ich) = x.weight (36864 + (64 * och + ich)) := by
  have filled := (fills_point x).filled (countsPoint_parts parts)
    (fun j _ k _ same => by
      simp only [Prod.mk.injEq] at same
      omega)
    (k := 64 * och + ich) (by omega) (x := (och, ich))
    (by
      simp only [Prod.mk.injEq]
      omega)
  rw [← parts.points] at filled
  rw [parts.map, feed_kept State.weight1 (fills_pixel x).counts _ (countsPixel_parts parts), filled]
  intro k _ s _
  rw [receive_pixel]
  exact (countCh_arrays _).2.1

theorem imap_parts {ch r c : Nat} (channel : ch < 64) (row : r < 56) (column : c < 56) :
    s'.imap (ch, r + 1, c + 1) = x.pixel (64 * (56 * r + c) + ch) := by
  have filled := (fills_pixel x).filled (countsPixel_parts parts)
    (fun j _ k _ same => by
      simp only [Prod.mk.injEq] at same
      omega)
    (k := 64 * (56 * r + c) + ch) (by unfold Stimulus.imapNum; omega) (x := (ch, r + 1, c + 1))
    (by
      simp only [Prod.mk.injEq]
      omega)
  rw [← parts.map] at filled
  exact filled

theorem agrees_parts {och : Nat} (channel : och < 64) :
    (operands s' och).Agrees (x.operands och) := by
  have pixel {p ch : Nat} (inMap : p < 3136) (inner : ch < 64) :
      s'.imap (ch, p / 56 + 1, p % 56 + 1) = x.pixel (64 * p + ch) := by
    rw [imap_parts parts inner (by omega) (by omega), show 56 * (p / 56) + p % 56 = p by omega]
  refine ⟨fun tap ch => ?_, fun ch => ?_, fun p inMap ch => pixel inMap ch.isLt,
    fun p inMap => pixel inMap channel⟩
  · have row : tap.val / 3 < 3 := by omega
    have column : tap.val % 3 < 3 := by omega
    refine (weight3_parts parts channel ch.isLt row column).trans (congrArg x.weight ?_)
    omega
  · refine (weight1_parts parts channel ch.isLt).trans (congrArg x.weight ?_)
    omega

end Parts

/-! What the model sends. -/

theorem sendOutput_map (s : State) : sendOutput s =
    (List.range 200704).map fun k => word s (k / 3136) (k % 3136 / 56 + 1) (k % 56 + 1) := by
  let P (n : Nat) (ref2scb : List (BitVec 32)) : Prop :=
    ref2scb = (List.range n).map fun k => word s (k / 3136) (k % 3136 / 56 + 1) (k % 56 + 1)
  rw [show 200704 = 3136 * 64 by norm_num]
  refine forMap_invariant (P := P) rfl ?_
  rintro och r c ref2scb - row column held
  show ref2scb ++ [word s och (r + 1) (c + 1)] = List.map _ (List.range _)
  rw [held, List.range_succ, List.map_append, List.map_singleton,
    show (3136 * och + 56 * r + c) / 3136 = och by omega,
    show (3136 * och + 56 * r + c) % 3136 / 56 = r by omega,
    show (3136 * och + 56 * r + c) % 56 = c by omega]

/-- The model has received the operands of the stimulus. -/
theorem agrees_getData (s : State) {och : Nat} (channel : och < 64) :
    (operands (getData (new s) x.genConvdata) och).Agrees (x.operands och) := by
  obtain ⟨s3, s1, parts⟩ := x.exists_parts receive (new s)
  exact agrees_parts parts channel

end RefModel

namespace Stimulus

/-- Word `k` that the model sends for a stimulus. -/
def golden (x : Stimulus) (k : Nat) : BitVec 32 :=
  let operands := x.operands (k / 3136)
  RefModel.goldenWord (operands.psum3x3 (k % 3136 / 56) (k % 56))
    (RefModel.nextPoint operands (k % 3136 / 56) (k % 56))
    (operands.identity (k % 3136)).toInt

theorem sendOutput_golden (x : Stimulus) (s : RefModel.State) :
    RefModel.sendOutput (RefModel.mac (RefModel.getData (RefModel.new s) x.genConvdata)) =
      (List.range 200704).map x.golden := by
  rw [RefModel.sendOutput_map]
  refine List.map_congr_left fun k inMap => ?_
  have inside := List.mem_range.mp inMap
  have channel : k / 3136 < 64 := by omega
  have row : k % 3136 / 56 < 56 := by omega
  have column : k % 56 < 56 := by omega
  have ready := RefModel.ready_getData s x.genConvdata
  have agrees := RefModel.agrees_getData x s channel
  have place : 56 * (k % 3136 / 56) + k % 56 = k % 3136 := by omega
  unfold RefModel.word golden RefModel.goldenWord
  rw [RefModel.outmap_mac ready channel row column, RefModel.omap3_mac ready channel row column,
    RefModel.omap1_mac ready channel row column, agrees.psum3x3 row column,
    agrees.nextPoint row column, place, agrees.identity _ (by omega)]

end Stimulus

end RepVGGAcc
