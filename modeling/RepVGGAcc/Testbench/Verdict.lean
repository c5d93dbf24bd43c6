import RepVGGAcc.Testbench.Bench

/-! What the scoreboard reports, and for which stimuli it cannot but succeed. -/

namespace RepVGGAcc

open ImapLoad (byteOf)

theorem extractLsb'_ofInt_small {n : Nat} {y : Int} (low : 0 ≤ y) (high : y < 2 ^ n)
    (fits : n ≤ 32) : (BitVec.ofInt 32 y).extractLsb' n 8 = 0#8 := by
  obtain ⟨m, rfl⟩ := Int.eq_ofNat_of_zero_le low
  have below : m < 2 ^ n := by exact_mod_cast high
  have inWord : m < 2 ^ 32 := below.trans_le (Nat.pow_le_pow_right Nat.two_pos fits)
  refine BitVec.eq_of_toNat_eq ?_
  rw [BitVec.extractLsb'_toNat, BitVec.ofInt_natCast, BitVec.toNat_ofNat,
    Nat.mod_eq_of_lt inWord, Nat.shiftRight_eq_div_pow, Nat.div_eq_of_lt below]
  rfl

namespace Layer

theorem sum_small {n : Nat} {b : Int} {f : Fin n → Int} (each : ∀ k, 0 ≤ f k ∧ f k ≤ b) :
    0 ≤ ∑ k, f k ∧ ∑ k, f k ≤ n * b := by
  refine ⟨Finset.sum_nonneg fun k _ => (each k).1, ?_⟩
  have bound := Finset.sum_le_card_nsmul Finset.univ f b fun k _ => (each k).2
  rwa [Finset.card_univ, Fintype.card_fin, nsmul_eq_mul] at bound

def SmallByte (b : BitVec 8) : Prop :=
  b.toNat ≤ 14

theorem SmallByte.toInt {b : BitVec 8} (small : SmallByte b) : 0 ≤ b.toInt ∧ b.toInt ≤ 14 := by
  unfold SmallByte at small
  rw [BitVec.toInt_eq_toNat_cond, if_pos (by omega)]
  omega

theorem SmallByte.product {w x : BitVec 8} (weight : SmallByte w) (pixel : SmallByte x) :
    0 ≤ Layer.product w x ∧ Layer.product w x ≤ 196 := by
  obtain ⟨wLow, wHigh⟩ := weight.toInt
  obtain ⟨xLow, xHigh⟩ := pixel.toInt
  unfold Layer.product
  exact ⟨Int.mul_nonneg wLow xLow, (Int.mul_le_mul wHigh xHigh xLow (by decide)).trans (by decide)⟩

structure Operands.Small (x : Operands) : Prop where
  w3 : ∀ tap ch, SmallByte (x.w3 tap ch)
  w1 : ∀ ch, SmallByte (x.w1 ch)
  imap : ∀ p < 3136, ∀ ch, SmallByte (x.imap p ch)
  identity : ∀ p < 3136, SmallByte (x.identity p)

namespace Operands.Small

variable {x : Operands} (small : x.Small) {i j : Nat} (row : i < 56) (column : j < 56)

include small row column

theorem psum3x3 : 0 ≤ x.psum3x3 i j ∧ x.psum3x3 i j ≤ 112896 := by
  have term (ch : Fin 64) (tap : Fin 9) : 0 ≤ (if padding i j tap then 0
      else product (x.w3 tap ch) (x.imap (tapPixel i j tap) ch)) ∧ (if padding i j tap then 0
      else product (x.w3 tap ch) (x.imap (tapPixel i j tap) ch)) ≤ 196 := by
    cases padded : padding i j tap with
    | true => exact ⟨le_rfl, show (0 : Int) ≤ 196 by decide⟩
    | false =>
        exact (small.w3 tap ch).product (small.imap _ (tapPixel_lt row column padded) ch)
  have sum := sum_small fun ch => sum_small (term ch)
  norm_num at sum
  exact sum

theorem psum1x1 : 0 ≤ x.psum1x1 i j ∧ x.psum1x1 i j ≤ 12544 := by
  have sum := sum_small fun ch => (small.w1 ch).product (small.imap (56 * i + j) (by omega) ch)
  norm_num at sum
  exact sum

theorem nextPoint : 0 ≤ RefModel.nextPoint x i j ∧ RefModel.nextPoint x i j ≤ 12544 := by
  unfold RefModel.nextPoint
  split_ifs with border
  · exact ⟨le_rfl, by decide⟩
  · exact small.psum1x1 (by omega) (by omega)

theorem word : x.word i j = 0 := by
  obtain ⟨low3, high3⟩ := small.psum3x3 row column
  obtain ⟨low1, high1⟩ := small.psum1x1 row column
  obtain ⟨lowI, highI⟩ := (small.identity (56 * i + j) (by omega)).toInt
  unfold Operands.word outputWord
  simp only
  rw [max_eq_left (by omega), extractLsb'_ofInt_small (by omega) (by omega) (by decide),
    extractLsb'_ofInt_small low3 (by omega) (by decide),
    extractLsb'_ofInt_small low1 (by omega) (by decide)]
  rfl

theorem goldenWord : RefModel.goldenWord (x.psum3x3 i j) (RefModel.nextPoint x i j)
    (x.identity (56 * i + j)).toInt = 0 := by
  obtain ⟨low3, high3⟩ := small.psum3x3 row column
  obtain ⟨low1, high1⟩ := small.nextPoint row column
  obtain ⟨lowI, highI⟩ := (small.identity (56 * i + j) (by omega)).toInt
  unfold RefModel.goldenWord
  rw [extractLsb'_ofInt_small (by omega) (by omega) (by decide),
    extractLsb'_ofInt_small low3 (by omega) (by decide),
    extractLsb'_ofInt_small low1 (by omega) (by decide)]
  rfl

end Operands.Small

end Layer

structure Stimulus.Small (x : Stimulus) : Prop where
  weight : ∀ k < Stimulus.weightNum, Layer.SmallByte (x.weight k)
  pixel : ∀ k < Stimulus.imapNum, Layer.SmallByte (x.pixel k)

theorem Stimulus.small_ones : Stimulus.ones.Small :=
  have one : Layer.SmallByte 1 := show (1 : BitVec 8).toNat ≤ 14 by decide
  ⟨fun _ _ => one, fun _ _ => one⟩

namespace Stimulus.Small

variable {x : Stimulus} (small : x.Small)

include small

theorem operands {och : Nat} (channel : och < 64) : (x.operands och).Small where
  w3 := fun tap ch => small.weight _ (by unfold weightNum; omega)
  w1 := fun ch => small.weight _ (by unfold weightNum; omega)
  imap := fun p inMap ch => small.pixel _ (by unfold imapNum; omega)
  identity := fun p inMap => small.pixel _ (by unfold imapNum; omega)

section Parts

open IcbDriver (initialData memory store weight3_parts weight1_parts imap_parts word_weight3
  word_weight1 word_imap accInitialize)

variable {s3 s1 s' : IcbDriver.State} (parts : x.Parts store initialData s3 s1 s')

include parts

theorem weight3_byte {p b : Nat} (inside : p < 9216) (inWord : b < 4) :
    Layer.SmallByte ((memory s').byteAt accInitialize.w3Addr p b) := by
  have outer : p / 144 < 64 := by omega
  have inner : 4 * (p % 16) + (3 - b) < 64 := by omega
  have kernel : p % 144 / 16 < 9 := by omega
  have byte := weight3_parts parts outer inner kernel
  rw [show 144 * (p / 144) + 16 * (p % 144 / 16) + (4 * (p % 16) + (3 - b)) / 4 = p by omega,
    show 3 - (4 * (p % 16) + (3 - b)) % 4 = b by omega] at byte
  rw [Memory.byteAt, word_weight3 s' (by omega), byte]
  exact small.weight _ (by unfold weightNum; omega)

theorem weight1_byte {p b : Nat} (inside : p < 1024) (inWord : b < 4) :
    Layer.SmallByte ((memory s').byteAt accInitialize.w1Addr p b) := by
  have outer : p / 16 < 64 := by omega
  have inner : 4 * (p % 16) + (3 - b) < 64 := by omega
  have byte := weight1_parts parts outer inner
  rw [show 16 * (p / 16) + (4 * (p % 16) + (3 - b)) / 4 = p by omega,
    show 3 - (4 * (p % 16) + (3 - b)) % 4 = b by omega] at byte
  rw [Memory.byteAt, word_weight1 s' (by omega), byte]
  exact small.weight _ (by unfold weightNum; omega)

theorem imap_byte {p b : Nat} (inside : p < 50176) (inWord : b < 4) :
    Layer.SmallByte ((memory s').byteAt accInitialize.inAddr p b) := by
  have inMap : p / 16 < 3136 := by omega
  have channel : 4 * (p % 16) + (3 - b) < 64 := by omega
  have byte := imap_parts parts inMap channel
  rw [show 16 * (p / 16) + (4 * (p % 16) + (3 - b)) / 4 = p by omega,
    show 3 - (4 * (p % 16) + (3 - b)) % 4 = b by omega] at byte
  rw [Memory.byteAt, word_imap s' (by omega), byte]
  exact small.pixel _ (by unfold imapNum; omega)

theorem routed_parts {och : Nat} (channel : och < 64) :
    (Layer.routed accInitialize (memory s') och).Small := by
  have pixel {p : Nat} (inMap : p < 3136) (ch : Fin 64) :
      Layer.SmallByte (Layer.routedPixel accInitialize (memory s') och p ch) := by
    refine small.imap_byte parts ?_ (by omega)
    unfold ImapLoad.pixelWord Layer.readGroup
    split_ifs <;> omega
  exact ⟨fun tap ch => small.weight3_byte parts (by omega) (by omega),
    fun ch => small.weight1_byte parts (by omega) (by omega), fun p inMap ch => pixel inMap ch,
    fun p inMap => pixel inMap _⟩

end Parts

/-- Both sides send nothing but zeros. -/
theorem golden_eq_word {k : Nat} (inMap : k < 200704) : x.golden k = Bench.word x k := by
  have channel : k / 3136 < 64 := by omega
  have row : k % 3136 / 56 < 56 := by omega
  have column : k % 56 < 56 := by omega
  have place : 56 * (k % 3136 / 56) + k % 56 = k % 3136 := by omega
  obtain ⟨s3, s1, parts⟩ := x.exists_parts IcbDriver.store IcbDriver.initialData
  have sent := (small.operands channel).goldenWord row column
  have written := (small.routed_parts parts channel).word row column
  rw [place] at sent
  exact sent.trans written.symm

end Stimulus.Small

namespace Bench

variable {x : Stimulus} {undriven : Undriven} {top : RepvggAccTop.State} {model : RefModel.State}

/-- In every cycle the scoreboard has compared the words that have been written, in their order,
with those of the model, and counted the ones that agree. All are compared from cycle 451847
on. -/
theorem judges (reset : RepvggAccTop.IsReset top) (t : Nat) :
    (run x undriven top model t).scoreboard =
        .compared 200704 x.golden (word x) (Control.written 1 (t - 24)) ∧
      (451847 ≤ t → Control.written 1 (t - 24) = 200704) :=
  ⟨scoreboard_eq reset t, fun late => Control.written_late (by omega)⟩

/-- A stimulus between 0 and 14 does not fail, whatever the accelerator brings together. -/
theorem passes_small (small : x.Small) (reset : RepvggAccTop.IsReset top) {t : Nat}
    (late : 451847 ≤ t) : (run x undriven top model t).scoreboard =
      { ref2scb := [], mon2scb := [], successCnt := 200704, failureCnt := 0, running := true } := by
  rw [scoreboard_eq reset, Control.written_late (by omega)]
  exact Scoreboard.compared_all fun k inMap => small.golden_eq_word inMap

def high : Undriven where
  icbCmdReady := fun _ => true
  icbRspValid := fun _ => true
  icbRspRdata := 0xffffffff

theorem judges_counting :
    (run Stimulus.counting high System.resetTop RefModel.blank 3000000).scoreboard =
        .compared 200704 Stimulus.counting.golden (word Stimulus.counting)
          (Control.written 1 (3000000 - 24)) ∧
      (451847 ≤ 3000000 → Control.written 1 (3000000 - 24) = 200704) :=
  judges System.isReset_resetTop 3000000

theorem passes_ones : (run Stimulus.ones high System.resetTop RefModel.blank 3000000).scoreboard =
    { ref2scb := [], mon2scb := [], successCnt := 200704, failureCnt := 0, running := true } :=
  passes_small Stimulus.small_ones System.isReset_resetTop (by decide)

end Bench

end RepVGGAcc
