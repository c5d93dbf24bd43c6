import RepVGGAcc.System.Layout
import RepVGGAcc.Testbench.Generator

/-! `icb_driver` of `driver_pkg.sv`: the arrays in which it stores the data of the generator,
and the words with which it answers. -/

namespace RepVGGAcc.IcbDriver

open ImapLoad (byteOf)
open Loop (feed feed_kept Fills)
open RefModel (Convdata)

/-- The arrays and the counters of `store_data`. -/
structure State where
  weight3 : Nat → BitVec 32
  weight1 : Nat → BitVec 32
  imap : Nat → BitVec 32
  weightCnt : Nat
  weightPositionCnt : Nat
  weightBitCnt : Nat
  weightLineCnt : Nat
  imapCnt : Nat

/-- The state after `initial_data`, with the counters as `store_data` declares them. -/
def initialData : State where
  weight3 := fun _ => 0
  weight1 := fun _ => 0
  imap := fun _ => 0
  weightCnt := 0
  weightPositionCnt := 0
  weightBitCnt := 0
  weightLineCnt := 0
  imapCnt := 0

/-- The first byte of a word is its highest. -/
def setByte (word : BitVec 32) (bitCnt : Nat) (data : BitVec 8) : BitVec 32 :=
  match bitCnt with
  | 0 => data ++ word.extractLsb' 0 24
  | 1 => word.extractLsb' 24 8 ++ data ++ word.extractLsb' 0 16
  | 2 => word.extractLsb' 16 16 ++ data ++ word.extractLsb' 0 8
  | 3 => word.extractLsb' 8 24 ++ data
  | _ => word

def setAt (words : Nat → BitVec 32) (position bitCnt : Nat) (data : BitVec 8) :
    Nat → BitVec 32 :=
  Function.update words position (setByte (words position) bitCnt data)

/-- `weight_bit_cnt ++` with its carries. -/
def countBit (s : State) : State :=
  if s.weightBitCnt + 1 = 4 then
    { s with
      weightBitCnt := 0
      weightLineCnt := if s.weightLineCnt + 1 = 16 then 0 else s.weightLineCnt + 1 }
  else { s with weightBitCnt := s.weightBitCnt + 1 }

/-- `weight_position_cnt ++` with its carries. -/
def countPosition (s : State) : State :=
  if s.weightPositionCnt + 1 = 9 then countBit { s with weightPositionCnt := 0 }
  else { s with weightPositionCnt := s.weightPositionCnt + 1 }

/-- A turn of `store_data`. -/
def store (s : State) (element : Convdata) : State :=
  if element.dataType = 0 then
    if s.weightCnt < 36864 then
      let weightChCnt := (s.weightCnt - s.weightCnt % 576) / 576
      let weightPosition := weightChCnt * 144 + s.weightPositionCnt * 16 + s.weightLineCnt
      countPosition
        { s with
          weight3 := setAt s.weight3 weightPosition s.weightBitCnt element.data
          weightCnt := s.weightCnt + 1 }
    else
      let weightChCnt := (s.weightCnt - 36864 - (s.weightCnt - 36864) % 64) / 64
      let weightPosition := weightChCnt * 16 + s.weightLineCnt
      countBit
        { s with
          weight1 := setAt s.weight1 weightPosition s.weightBitCnt element.data
          weightCnt := s.weightCnt + 1 }
  else if element.dataType = 1 then
    let imapBitCnt := s.imapCnt % 4
    let imapPosition := (s.imapCnt - imapBitCnt) / 4
    { s with
      imap := setAt s.imap imapPosition imapBitCnt element.data
      imapCnt := s.imapCnt + 1 }
  else s

/-- `store_data` empties the mailbox. -/
def storeData (gen2drv : List Convdata) : State :=
  gen2drv.foldl store initialData

/-- The next `icb_rsp_rdata` after a read command: the array by the highest four bits of the
address. -/
def rdata (s : State) (addr held : BitVec 32) : BitVec 32 :=
  let index := (addr.extractLsb' 2 26).toNat
  if addr.extractLsb' 28 4 = 0b0000 then s.imap index
  else if addr.extractLsb' 28 4 = 0b0001 then s.weight3 index
  else if addr.extractLsb' 28 4 = 0b0010 then s.weight1 index
  else held

/-! The bytes of the words, the lowest first. -/

def bytes (words : Nat → BitVec 32) (place : Nat × Nat) : BitVec 8 :=
  byteOf (words place.1) place.2

theorem byteOf_setByte (word : BitVec 32) {bitCnt : Nat} (inWord : bitCnt < 4) (data : BitVec 8)
    (b : Nat) : byteOf (setByte word bitCnt data) b =
      if b = 3 - bitCnt then data else byteOf word b := by
  have cases : bitCnt = 0 ∨ bitCnt = 1 ∨ bitCnt = 2 ∨ bitCnt = 3 := by omega
  unfold byteOf
  rcases cases with rfl | rfl | rfl | rfl
  all_goals
    split_ifs with here
    all_goals
      refine BitVec.eq_of_getLsbD_eq fun j inside => ?_
      simp only [setByte, BitVec.getLsbD_append, BitVec.getLsbD_extractLsb']
      grind

theorem bytes_setAt_self (words : Nat → BitVec 32) (position : Nat) {bitCnt : Nat}
    (inWord : bitCnt < 4) (data : BitVec 8) :
    bytes (setAt words position bitCnt data) (position, 3 - bitCnt) = data := by
  unfold bytes setAt
  rw [Function.update_self, byteOf_setByte _ inWord, if_pos rfl]

theorem bytes_setAt_other (words : Nat → BitVec 32) {position bitCnt : Nat}
    (inWord : bitCnt < 4) (data : BitVec 8) {place : Nat × Nat}
    (other : place ≠ (position, 3 - bitCnt)) :
    bytes (setAt words position bitCnt data) place = bytes words place := by
  obtain ⟨position', b⟩ := place
  unfold bytes setAt
  by_cases here : position' = position
  · subst here
    have byte : b ≠ 3 - bitCnt := fun same => other (Prod.ext rfl same)
    rw [Function.update_self, byteOf_setByte _ inWord, if_neg byte]
  · rw [Function.update_of_ne here]

/-! The counters of `store_data` while the three parts of the stream come in. -/

structure CountsKernel (k : Nat) (s : State) : Prop where
  weightCnt : s.weightCnt = k
  weightPositionCnt : s.weightPositionCnt = k % 9
  weightBitCnt : s.weightBitCnt = k / 9 % 4
  weightLineCnt : s.weightLineCnt = k / 36 % 16

structure CountsPoint (k : Nat) (s : State) : Prop where
  weightCnt : s.weightCnt = 36864 + k
  weightBitCnt : s.weightBitCnt = k % 4
  weightLineCnt : s.weightLineCnt = k / 4 % 16

theorem countBit_arrays (s : State) : (countBit s).weight3 = s.weight3 ∧
    (countBit s).weight1 = s.weight1 ∧ (countBit s).imapCnt = s.imapCnt := by
  unfold countBit
  split_ifs <;> exact ⟨rfl, rfl, rfl⟩

theorem countPosition_arrays (s : State) : (countPosition s).weight3 = s.weight3 ∧
    (countPosition s).imapCnt = s.imapCnt := by
  unfold countPosition
  split_ifs
  · exact ⟨(countBit_arrays _).1, (countBit_arrays _).2.2⟩
  · exact ⟨rfl, rfl⟩

theorem countBit_counts (s : State) {k : Nat} (weightBitCnt : s.weightBitCnt = k % 4)
    (weightLineCnt : s.weightLineCnt = k / 4 % 16) :
    (countBit s).weightBitCnt = (k + 1) % 4 ∧ (countBit s).weightLineCnt = (k + 1) / 4 % 16 := by
  unfold countBit
  split_ifs <;> constructor <;> simp only <;> omega

theorem countBit_kernel (s : State) : (countBit s).weightCnt = s.weightCnt ∧
    (countBit s).weightPositionCnt = s.weightPositionCnt := by
  unfold countBit
  split_ifs <;> exact ⟨rfl, rfl⟩

theorem countPosition_counts {s : State} {k : Nat} (weightCnt : s.weightCnt = k + 1)
    (weightPositionCnt : s.weightPositionCnt = k % 9) (weightBitCnt : s.weightBitCnt = k / 9 % 4)
    (weightLineCnt : s.weightLineCnt = k / 36 % 16) : CountsKernel (k + 1) (countPosition s) := by
  unfold countPosition
  split_ifs with kernel
  · have same := countBit_kernel { s with weightPositionCnt := 0 }
    have next := countBit_counts { s with weightPositionCnt := 0 } (k := k / 9) weightBitCnt
      (by rw [Nat.div_div_eq_div_mul]; exact weightLineCnt)
    have carried : k / 9 + 1 = (k + 1) / 9 := by omega
    rw [carried, Nat.div_div_eq_div_mul] at next
    exact ⟨same.1.trans weightCnt, same.2.trans (show 0 = (k + 1) % 9 by omega), next.1, next.2⟩
  · constructor <;> simp only <;> omega

section Fills

variable (x : Stimulus)

theorem store_kernel {s : State} {k : Nat} (inside : k < 36864) (counts : CountsKernel k s) :
    store s (x.weightData k) = countPosition
      { s with
        weight3 := setAt s.weight3 (144 * (k / 576) + 16 * (k % 9) + k / 36 % 16) (k / 9 % 4)
          (x.weight k)
        weightCnt := k + 1 } := by
  have weight : (x.weightData k).dataType = 0 := rfl
  have place : (k - k % 576) / 576 * 144 + k % 9 * 16 + k / 36 % 16 =
      144 * (k / 576) + 16 * (k % 9) + k / 36 % 16 := by omega
  unfold store
  simp only [weight, counts.weightCnt, counts.weightPositionCnt, counts.weightBitCnt,
    counts.weightLineCnt, inside, place, if_true]
  rfl

theorem store_point {s : State} {k : Nat} (counts : CountsPoint k s) :
    store s (x.weightData (36864 + k)) = countBit
      { s with
        weight1 := setAt s.weight1 (16 * (k / 64) + k / 4 % 16) (k % 4) (x.weight (36864 + k))
        weightCnt := 36864 + (k + 1) } := by
  have weight : (x.weightData (36864 + k)).dataType = 0 := rfl
  have through : ¬ 36864 + k < 36864 := by omega
  have place : (36864 + k - 36864 - (36864 + k - 36864) % 64) / 64 * 16 + k / 4 % 16 =
      16 * (k / 64) + k / 4 % 16 := by omega
  unfold store
  simp only [weight, counts.weightCnt, counts.weightBitCnt, counts.weightLineCnt, through, place,
    if_true, if_false]
  rfl

theorem store_pixel {s : State} {k : Nat} (imapCnt : s.imapCnt = k) :
    store s (x.imapData k) =
      { s with
        imap := setAt s.imap (k / 4) (k % 4) (x.pixel k)
        imapCnt := k + 1 } := by
  have other : ¬ (x.imapData k).dataType = 0 := by
    show ¬ (1 : Int) = 0
    decide
  have pixel : (x.imapData k).dataType = 1 := rfl
  have place : (k - k % 4) / 4 = k / 4 := by omega
  unfold store
  rw [if_neg other, if_pos pixel]
  simp only [imapCnt, place]
  rfl

theorem fills_kernel : Fills store x.weightData 36864 CountsKernel (fun s => bytes s.weight3)
    (fun k => (144 * (k / 576) + 16 * (k % 9) + k / 36 % 16, 3 - k / 9 % 4)) x.weight where
  counts := fun k inside s counts => by
    rw [store_kernel x inside counts]
    exact countPosition_counts rfl counts.weightPositionCnt counts.weightBitCnt
      counts.weightLineCnt
  written := fun k inside s counts => by
    simp only [store_kernel x inside counts, (countPosition_arrays _).1]
    exact bytes_setAt_self _ _ (Nat.mod_lt _ (by decide)) _
  kept := fun k inside s counts place other => by
    simp only [store_kernel x inside counts, (countPosition_arrays _).1]
    exact bytes_setAt_other _ (Nat.mod_lt _ (by decide)) _ other

theorem fills_point : Fills store (fun k => x.weightData (36864 + k)) 4096 CountsPoint
    (fun s => bytes s.weight1) (fun k => (16 * (k / 64) + k / 4 % 16, 3 - k % 4))
    fun k => x.weight (36864 + k) where
  counts := fun k _ s counts => by
    have next (weight1 : Nat → BitVec 32) :=
      countBit_counts { s with weight1 := weight1, weightCnt := 36864 + (k + 1) }
        counts.weightBitCnt counts.weightLineCnt
    rw [store_point x counts]
    exact ⟨(countBit_kernel _).1, (next _).1, (next _).2⟩
  written := fun k _ s counts => by
    simp only [store_point x counts, (countBit_arrays _).2.1]
    exact bytes_setAt_self _ _ (Nat.mod_lt _ (by decide)) _
  kept := fun k _ s counts place other => by
    simp only [store_point x counts, (countBit_arrays _).2.1]
    exact bytes_setAt_other _ (Nat.mod_lt _ (by decide)) _ other

theorem fills_pixel : Fills store x.imapData Stimulus.imapNum (fun k s => s.imapCnt = k)
    (fun s => bytes s.imap) (fun k => (k / 4, 3 - k % 4)) x.pixel where
  counts := fun k _ s imapCnt => by rw [store_pixel x imapCnt]
  written := fun k _ s imapCnt => by
    simp only [store_pixel x imapCnt]
    exact bytes_setAt_self _ _ (Nat.mod_lt _ (by decide)) _
  kept := fun k _ s imapCnt place other => by
    simp only [store_pixel x imapCnt]
    exact bytes_setAt_other _ (Nat.mod_lt _ (by decide)) _ other

end Fills

/-! What the arrays hold after the whole stream. -/

theorem CountsKernel.through {s : State} (counts : CountsKernel 36864 s) : CountsPoint 0 s :=
  ⟨counts.weightCnt, counts.weightBitCnt.trans (by norm_num),
    counts.weightLineCnt.trans (by norm_num)⟩

theorem kernelPlace_inj {j k : Nat}
    (position : 144 * (j / 576) + 16 * (j % 9) + j / 36 % 16 =
      144 * (k / 576) + 16 * (k % 9) + k / 36 % 16)
    (byte : 3 - j / 9 % 4 = 3 - k / 9 % 4) : j = k := by
  have digits (n : Nat) :
      n = 576 * (n / 576) + 36 * (n / 36 % 16) + 9 * (n / 9 % 4) + n % 9 := by omega
  have channel : j / 576 = k / 576 := by omega
  have tap : j % 9 = k % 9 := by omega
  have line : j / 36 % 16 = k / 36 % 16 := by omega
  have bit : j / 9 % 4 = k / 9 % 4 := by omega
  rw [digits j, digits k, channel, tap, line, bit]

section Parts

variable {x : Stimulus} {s3 s1 s' : State} (parts : x.Parts store initialData s3 s1 s')

include parts

theorem countsPoint_parts : CountsPoint 0 s3 := by
  rw [parts.kernels]
  exact ((fills_kernel x).counted ⟨rfl, rfl, rfl, rfl⟩).through

theorem imapCnt_parts : s1.imapCnt = 0 := by
  rw [parts.points, feed_kept State.imapCnt (fills_point x).counts _ (countsPoint_parts parts),
    parts.kernels, feed_kept State.imapCnt (fills_kernel x).counts _ ⟨rfl, rfl, rfl, rfl⟩]
  · rfl
  · intro k inside s counts
    rw [store_kernel x inside counts]
    exact (countPosition_arrays _).2
  · intro k _ s counts
    rw [store_point x counts]
    exact (countBit_arrays _).2.2

theorem weight3_parts {och ich tap : Nat} (outer : och < 64) (inner : ich < 64) (kernel : tap < 9) :
    byteOf (s'.weight3 (144 * och + 16 * tap + ich / 4)) (3 - ich % 4) =
      x.weight (576 * och + 9 * ich + tap) := by
  have filled := (fills_kernel x).filled (s := initialData) ⟨rfl, rfl, rfl, rfl⟩
    (fun j _ k _ same => kernelPlace_inj (congrArg Prod.fst same) (congrArg Prod.snd same))
    (k := 576 * och + 9 * ich + tap) (by omega)
    (x := (144 * och + 16 * tap + ich / 4, 3 - ich % 4))
    (by
      simp only [Prod.mk.injEq]
      omega)
  rw [← parts.kernels] at filled
  rw [parts.map, feed_kept State.weight3 (fills_pixel x).counts _ (imapCnt_parts parts),
    parts.points, feed_kept State.weight3 (fills_point x).counts _ (countsPoint_parts parts)]
  · exact filled
  · intro k _ s counts
    rw [store_point x counts]
    exact (countBit_arrays _).1
  · intro k _ s imapCnt
    rw [store_pixel x imapCnt]

theorem weight1_parts {och ich : Nat} (outer : och < 64) (inner : ich < 64) :
    byteOf (s'.weight1 (16 * och + ich / 4)) (3 - ich % 4) =
      x.weight (36864 + (64 * och + ich)) := by
  have filled := (fills_point x).filled (countsPoint_parts parts)
    (fun j _ k _ same => by
      simp only [Prod.mk.injEq] at same
      omega)
    (k := 64 * och + ich) (by omega) (x := (16 * och + ich / 4, 3 - ich % 4))
    (by
      simp only [Prod.mk.injEq]
      omega)
  rw [← parts.points] at filled
  rw [parts.map, feed_kept State.weight1 (fills_pixel x).counts _ (imapCnt_parts parts)]
  · exact filled
  · intro k _ s imapCnt
    rw [store_pixel x imapCnt]

theorem imap_parts {p ch : Nat} (inMap : p < 3136) (channel : ch < 64) :
    byteOf (s'.imap (16 * p + ch / 4)) (3 - ch % 4) = x.pixel (64 * p + ch) := by
  have filled := (fills_pixel x).filled (imapCnt_parts parts)
    (fun j _ k _ same => by
      simp only [Prod.mk.injEq] at same
      omega)
    (k := 64 * p + ch) (by unfold Stimulus.imapNum; omega) (x := (16 * p + ch / 4, 3 - ch % 4))
    (by
      simp only [Prod.mk.injEq]
      omega)
  rw [← parts.map] at filled
  exact filled

end Parts

/-! The arrays as a memory. -/

/-- `acc_initialize`: the registers of the addresses. -/
def accInitialize : Settings where
  inAddr := 0x00000000
  w3Addr := 0x10000000
  w1Addr := 0x20000000
  outAddr := 0x30000000

def memory (s : State) : Memory :=
  fun addr => byteOf (rdata s addr 0) (addr.extractLsb' 0 2).toNat

theorem byte_memory (s : State) {addr : BitVec 32} (aligned : addr.toNat % 4 = 0) {b : Nat}
    (inWord : b < 4) : memory s (addr + BitVec.ofNat 32 b) = byteOf (rdata s addr 0) b := by
  have bound := addr.isLt
  have place : (addr + BitVec.ofNat 32 b).toNat = addr.toNat + b := by
    rw [BitVec.toNat_add, BitVec.toNat_ofNat]
    omega
  have index : (addr + BitVec.ofNat 32 b).extractLsb' 2 26 = addr.extractLsb' 2 26 :=
    BitVec.eq_of_toNat_eq (by
      rw [BitVec.extractLsb'_toNat, BitVec.extractLsb'_toNat, place, Nat.shiftRight_eq_div_pow,
        Nat.shiftRight_eq_div_pow]
      omega)
  have region : (addr + BitVec.ofNat 32 b).extractLsb' 28 4 = addr.extractLsb' 28 4 :=
    BitVec.eq_of_toNat_eq (by
      rw [BitVec.extractLsb'_toNat, BitVec.extractLsb'_toNat, place, Nat.shiftRight_eq_div_pow,
        Nat.shiftRight_eq_div_pow]
      omega)
  have byte : ((addr + BitVec.ofNat 32 b).extractLsb' 0 2).toNat = b := by
    rw [BitVec.extractLsb'_toNat, place, Nat.shiftRight_eq_div_pow]
    omega
  unfold memory rdata
  rw [index, region, byte]

theorem word_memory (s : State) {addr : BitVec 32} (aligned : addr.toNat % 4 = 0) :
    (memory s).word addr = rdata s addr 0 := by
  have lowest := byte_memory s aligned (b := 0) (by decide)
  rw [BitVec.add_zero] at lowest
  have second : memory s (addr + 1) = _ := byte_memory s aligned (b := 1) (by decide)
  have third : memory s (addr + 2) = _ := byte_memory s aligned (b := 2) (by decide)
  have highest : memory s (addr + 3) = _ := byte_memory s aligned (b := 3) (by decide)
  unfold Memory.word
  rw [lowest, second, third, highest]
  unfold byteOf
  refine BitVec.eq_of_getLsbD_eq fun j inside => ?_
  simp only [BitVec.getLsbD_append, BitVec.getLsbD_extractLsb']
  grind

section Places

variable {base : BitVec 32} {region k : Nat} (origin : base.toNat = region * 2 ^ 28)
  (inside : k < 2 ^ 26)

include origin inside

theorem toNat_place : (wordAddr base k).toNat = region * 2 ^ 28 + 4 * k := by
  unfold wordAddr
  rw [BitVec.toNat_add, BitVec.toNat_ofNat, origin]
  omega

theorem aligned_place : (wordAddr base k).toNat % 4 = 0 := by
  rw [toNat_place origin inside]
  omega

theorem region_place : (wordAddr base k).extractLsb' 28 4 = BitVec.ofNat 4 region :=
  BitVec.eq_of_toNat_eq (by
    rw [BitVec.extractLsb'_toNat, toNat_place origin inside, Nat.shiftRight_eq_div_pow,
      BitVec.toNat_ofNat]
    omega)

theorem index_place : ((wordAddr base k).extractLsb' 2 26).toNat = k := by
  rw [BitVec.extractLsb'_toNat, toNat_place origin inside, Nat.shiftRight_eq_div_pow]
  omega

end Places

theorem origin_imap : accInitialize.inAddr.toNat = 0 * 2 ^ 28 := by
  decide

theorem origin_weight3 : accInitialize.w3Addr.toNat = 1 * 2 ^ 28 := by
  decide

theorem origin_weight1 : accInitialize.w1Addr.toNat = 2 * 2 ^ 28 := by
  decide

section Words

variable (s : State) (held : BitVec 32) {k : Nat} (inside : k < 2 ^ 26)

include inside

theorem rdata_imap : rdata s (wordAddr accInitialize.inAddr k) held = s.imap k := by
  rw [rdata, region_place origin_imap inside, index_place origin_imap inside]
  exact if_pos rfl

theorem rdata_weight3 : rdata s (wordAddr accInitialize.w3Addr k) held = s.weight3 k := by
  rw [rdata, region_place origin_weight3 inside, index_place origin_weight3 inside]
  exact (if_neg (by decide)).trans (if_pos rfl)

theorem rdata_weight1 : rdata s (wordAddr accInitialize.w1Addr k) held = s.weight1 k := by
  rw [rdata, region_place origin_weight1 inside, index_place origin_weight1 inside]
  exact (if_neg (by decide)).trans ((if_neg (by decide)).trans (if_pos rfl))

theorem word_imap : (memory s).word (wordAddr accInitialize.inAddr k) = s.imap k :=
  (word_memory s (aligned_place origin_imap inside)).trans (rdata_imap s 0 inside)

theorem word_weight3 : (memory s).word (wordAddr accInitialize.w3Addr k) = s.weight3 k :=
  (word_memory s (aligned_place origin_weight3 inside)).trans (rdata_weight3 s 0 inside)

theorem word_weight1 : (memory s).word (wordAddr accInitialize.w1Addr k) = s.weight1 k :=
  (word_memory s (aligned_place origin_weight1 inside)).trans (rdata_weight1 s 0 inside)

end Words

theorem rdata_input (s : State) {addr : BitVec 32} (input : accInitialize.IsInput addr)
    (held : BitVec 32) : rdata s addr held = (memory s).word addr := by
  cases input with
  | imap inside =>
      exact (rdata_imap s held (by omega)).trans (word_imap s (by omega)).symm
  | w3 inside =>
      exact (rdata_weight3 s held (by omega)).trans (word_weight3 s (by omega)).symm
  | w1 inside =>
      exact (rdata_weight1 s held (by omega)).trans (word_weight1 s (by omega)).symm

theorem regions_accInitialize : accInitialize.Regions := by
  constructor <;> decide

/-- The operands of output channel `och` in the layout of the test program, but with the first
channel of a word in its highest byte. -/
def storedOperands (settings : Settings) (memory : Memory) (och : Nat) : Layer.Operands where
  w3 := fun tap ch => memory.byteAt settings.w3Addr (144 * och + 16 * tap + ch / 4) (3 - ch % 4)
  w1 := fun ch => memory.byteAt settings.w1Addr (16 * och + ch / 4) (3 - ch % 4)
  imap := fun p ch => memory.byteAt settings.inAddr (16 * p + ch / 4) (3 - ch % 4)
  identity := fun p => memory.byteAt settings.inAddr (16 * p + och / 4) (3 - och % 4)

theorem stored_parts {x : Stimulus} {s3 s1 s' : State}
    (parts : x.Parts store initialData s3 s1 s') {och : Nat} (channel : och < 64) :
    (storedOperands accInitialize (memory s') och).Agrees (x.operands och) := by
  have pixel {p ch : Nat} (inMap : p < 3136) (inner : ch < 64) :
      (memory s').byteAt accInitialize.inAddr (16 * p + ch / 4) (3 - ch % 4) =
        x.pixel (64 * p + ch) := by
    rw [Memory.byteAt, word_imap s' (by omega), imap_parts parts inMap inner]
  refine ⟨fun tap ch => ?_, fun ch => ?_, fun p inMap ch => pixel inMap ch.isLt,
    fun p inMap => pixel inMap channel⟩
  · show (memory s').byteAt accInitialize.w3Addr (144 * och + 16 * tap + ch / 4) (3 - ch % 4) = _
    rw [Memory.byteAt, word_weight3 s' (by omega), weight3_parts parts channel ch.isLt tap.isLt]
    rfl
  · show (memory s').byteAt accInitialize.w1Addr (16 * och + ch / 4) (3 - ch % 4) = _
    rw [Memory.byteAt, word_weight1 s' (by omega), weight1_parts parts channel ch.isLt]
    exact congrArg x.weight (Nat.add_assoc _ _ _).symm

/-- The driver and the model take the stream apart in the same way: for every stimulus the
memory that the accelerator reads holds the operands with which the model computes. -/
theorem storesOperands (x : Stimulus) (s : RefModel.State) {och : Nat} (channel : och < 64) :
    (storedOperands accInitialize (memory (storeData x.genConvdata)) och).Agrees
      (RefModel.operands (RefModel.getData (RefModel.new s) x.genConvdata) och) := by
  obtain ⟨s3, s1, parts⟩ := x.exists_parts store initialData
  have driver := stored_parts parts channel
  have model := RefModel.agrees_getData x s channel
  exact ⟨fun tap ch => (driver.w3 tap ch).trans (model.w3 tap ch).symm,
    fun ch => (driver.w1 ch).trans (model.w1 ch).symm,
    fun p inMap ch => (driver.imap p inMap ch).trans (model.imap p inMap ch).symm,
    fun p inMap => (driver.identity p inMap).trans (model.identity p inMap).symm⟩

theorem storesOperands_counting :
    (storedOperands accInitialize (memory (storeData Stimulus.counting.genConvdata)) 63).Agrees
      (RefModel.operands (RefModel.getData (RefModel.new RefModel.blank)
        Stimulus.counting.genConvdata) 63) :=
  storesOperands Stimulus.counting RefModel.blank (by decide)

end RepVGGAcc.IcbDriver
