import RepVGGAcc.Loop.ForRange
import RepVGGAcc.Layer.Merge
import RepVGGAcc.System.Layout
import RepVGGAcc.System.Program

/-! `check_result` of the test program: the layer computed by the processor from the words
of the SRAM, pixel by pixel. -/

namespace RepVGGAcc.CheckResult

open Clocked
open Loop
open BigOperators

/-- `SRAM_READ32`. The SRAM goes by the offset from `SRAM_BASE`. -/
def sramRead32 (sram : Memory) (offset : BitVec 32) : BitVec 32 :=
  sram.word offset

def sramWrite32 (sram : Memory) (offset data : BitVec 32) : Memory :=
  sram.store offset data

def imapOffset : BitVec 32 := 0x0
def w3Offset : BitVec 32 := 0x40000
def w1Offset : BitVec 32 := 0x50000
def omapOffset : BitVec 32 := 0x60000

/-- `(data >> (8*n)) & (0xff)` in an `int8_t`. -/
def byte (data : BitVec 32) (n : Nat) : BitVec 8 :=
  ((data >>> (8 * n)) &&& 0xff).setWidth 8

/-- The arrays `w3[OUT_CH][IN_CH][9]` and `w1[OUT_CH][IN_CH]`. -/
abbrev W3 := Nat × Nat × Nat → BitVec 8
abbrev W1 := Nat × Nat → BitVec 8

/-- The turn of a loop that loads weights: a word is read, its bytes go to the entries
`key`; `offset`, the second component, counts on. -/
def loadWord {κ : Type} [DecidableEq κ] (sram : Memory) (base : BitVec 32) (key : Nat → κ)
    (s : (κ → BitVec 8) × BitVec 32) : (κ → BitVec 8) × BitVec 32 :=
  let data := sramRead32 sram (base + s.2)
  (forRange 0 4 (fun q w => Function.update w (key q) (byte data q)) s.1, s.2 + 4)

def loadW3 (sram : Memory) (w3 : W3) : W3 :=
  (forRange 0 64 (fun m => forRange 0 9 fun i => forRange 0 16 fun p =>
    loadWord sram w3Offset fun q => (m, p * 4 + q, i)) (w3, 0)).1

def loadW1 (sram : Memory) (w1 : W1) : W1 :=
  (forRange 0 64 (fun m => forRange 0 16 fun p =>
    loadWord sram w1Offset fun q => (m, p * 4 + q)) (w1, 0)).1

def pixelOffset (r c ich : Nat) : BitVec 32 :=
  BitVec.ofNat 32 (((r * 56 + c) * 16 + ich) * 4)

/-- `(int16_t)imap*w`, an `int32_t`. -/
def product (imap w : BitVec 8) : BitVec 32 :=
  (imap.signExtend 16).signExtend 32 * w.signExtend 32

def isPadding (i j k m : Nat) : Bool :=
  i + k = 0 ∨ i + k = 56 + 1 ∨ j + m = 0 ∨ j + m = 56

def kernelLoop (sram : Memory) (w3 : W3) (och i j : Nat) (psum3x3 : BitVec 32) : BitVec 32 :=
  forRange 0 3 (fun k => forRange 0 3 fun m psum3x3 =>
    if isPadding i j k m then psum3x3 + 0
    else forRange 0 16 (fun ich psum3x3 =>
      let data := sramRead32 sram (imapOffset + pixelOffset (i + k - 1) (j + m - 1) ich)
      forRange 0 4 (fun n psum3x3 =>
        psum3x3 + product (byte data n) (w3 (och, ich * 4 + n, k * 3 + m))) psum3x3) psum3x3)
    psum3x3

def pointLoop (sram : Memory) (w1 : W1) (och i j : Nat) (s : BitVec 32 × BitVec 32) :
    BitVec 32 × BitVec 32 :=
  forRange 0 16 (fun ich s =>
    let data := sramRead32 sram (imapOffset + pixelOffset i j ich)
    forRange 0 4 (fun n s =>
      (s.1 + product (byte data n) (w1 (och, ich * 4 + n)),
        if ich * 4 + n = och then (byte data n).signExtend 32 else s.2)) s) s

structure Values where
  psum3x3 : BitVec 32
  psum1x1 : BitVec 32
  mapSum : BitVec 32
  quan3x3 : BitVec 8
  quan1x1 : BitVec 8
  quanMapSum : BitVec 8
  deriving DecidableEq, Repr

/-- `(x >> shift) & (0xff)` in an `int8_t`. -/
def quan (x : BitVec 32) (shift : Nat) : BitVec 8 :=
  ((x.sshiftRight shift) &&& 0xff).setWidth 8

def values (psum3x3 psum1x1 identity : BitVec 32) : Values :=
  let sum := psum1x1 + psum3x3 + identity
  let mapSum := if sum.slt 0 then 0 else sum
  { psum3x3 := psum3x3
    psum1x1 := psum1x1
    mapSum := mapSum
    quan3x3 := quan psum3x3 17
    quan1x1 := quan psum1x1 14
    quanMapSum := quan mapSum 17 }

structure State where
  sram : Memory
  /-- `identity` keeps its value from pixel to pixel. -/
  identity : BitVec 32
  /-- The values of the pixels so far: the source has them in its locals alone. -/
  computed : Nat × Nat × Nat → Option Values

/-- A turn of the loop over the pixels. `acc_res`, which is written over the word of the
output map, is not initialised. -/
def pixel (w3 : W3) (w1 : W1) (accRes : Nat × Nat × Nat → BitVec 32) (och i j : Nat)
    (s : State) : State :=
  let psum3x3 := kernelLoop s.sram w3 och i j 0
  let point := pointLoop s.sram w1 och i j (0, s.identity)
  { sram := sramWrite32 s.sram
      (omapOffset + BitVec.ofNat 32 ((56 * 56 * och + i * 56 + j) * 4)) (accRes (och, i, j))
    identity := point.2
    computed := Function.update s.computed (och, i, j)
      (some (values psum3x3 point.1 point.2)) }

/-- The loops of `check_result`, from the state of the arrays and of `identity` that it
finds. It returns 0 whatever they compute. -/
def checkResult (sram : Memory) (w3 : W3) (w1 : W1) (identity : BitVec 32)
    (accRes : Nat × Nat × Nat → BitVec 32) : State :=
  forRange 0 1 (fun och => forRange 0 56 fun i => forRange 0 56 fun j =>
      pixel (loadW3 sram w3) (loadW1 sram w1) accRes och i j)
    { sram := sram, identity := identity, computed := fun _ => none }

/-! The weights. -/

theorem setWidth_and_mask (x : BitVec 32) : (x &&& 0xff).setWidth 8 = x.setWidth 8 := by
  rw [BitVec.setWidth_and]
  exact BitVec.and_allOnes

theorem byte_eq (data : BitVec 32) (n : Nat) : byte data n = ImapLoad.byteOf data n := by
  unfold byte
  rw [setWidth_and_mask, BitVec.setWidth_ushiftRight_eq_extractLsb]
  rfl

theorem quan_eq (x : BitVec 32) {shift : Nat} (inside : shift + 8 ≤ 32) :
    quan x shift = x.extractLsb' shift 8 := by
  unfold quan
  rw [setWidth_and_mask, setWidth_sshiftRight x inside]

section Load

variable {κ : Type} [DecidableEq κ] {sram : Memory} {base : BitVec 32} {word lane : κ → Nat}
  {valid : κ → Prop} {n : Nat} {s : (κ → BitVec 8) × BitVec 32}

/-- The first `n` words of a region are in the entries that they belong to. -/
structure Loaded (sram : Memory) (base : BitVec 32) (word lane : κ → Nat) (valid : κ → Prop)
    (n : Nat) (s : (κ → BitVec 8) × BitVec 32) : Prop where
  offset : s.2 = BitVec.ofNat 32 (4 * n)
  bytes : ∀ x, valid x → word x < n → s.1 x = sram.byteAt base (word x) (lane x)

omit [DecidableEq κ] in
theorem Loaded.start (w : κ → BitVec 8) : Loaded sram base word lane valid 0 (w, 0) where
  offset := rfl
  bytes := fun _ _ none => absurd none (Nat.not_lt_zero _)

theorem Loaded.loadWord (loaded : Loaded sram base word lane valid n s) {key : Nat → κ}
    (apart : Function.Injective key)
    (filled : ∀ x, valid x → word x = n → lane x < 4 ∧ x = key (lane x))
    (others : ∀ q, word (key q) < n → ¬ valid (key q)) :
    Loaded sram base word lane valid (n + 1) (CheckResult.loadWord sram base key s) where
  offset := by
    show s.2 + 4 = _
    rw [loaded.offset, Nat.mul_succ, BitVec.ofNat_add]
    rfl
  bytes := fun x ok next => by
    show forRange 0 4 (fun q w => Function.update w (key q)
      (byte (sramRead32 sram (base + s.2)) q)) s.1 x = _
    by_cases last : word x = n
    · obtain ⟨inWord, place⟩ := filled x ok last
      conv_lhs => rw [place]
      rw [forRange_update apart _ _ inWord, loaded.offset, byte_eq, last]
      rfl
    · rw [forRange_update_of_ne]
      · exact loaded.bytes x ok (by omega)
      · rintro q rfl
        exact others q (by omega) ok

end Load

theorem loadW3_eq (sram : Memory) (w3 : W3) {m ch i : Nat} (outCh : m < 64) (inCh : ch < 64)
    (tap : i < 9) : loadW3 sram w3 (m, ch, i) =
      sram.byteAt w3Offset (144 * m + 16 * i + ch / 4) (ch % 4) := by
  let P := Loaded sram w3Offset (fun x : Nat × Nat × Nat => 144 * x.1 + 16 * x.2.2 + x.2.1 / 4)
    (fun x => x.2.1 % 4) (fun x => x.2.1 < 64 ∧ x.2.2 < 9)
  have start : P 0 (w3, 0) := Loaded.start w3
  have loaded : P (144 * 64) (forRange 0 64 (fun m => forRange 0 9 fun i => forRange 0 16 fun p =>
      loadWord sram w3Offset fun q => (m, p * 4 + q, i)) (w3, 0)) := by
    refine forRange_invariant (P := fun m => P (144 * m)) (Nat.zero_le _) start
      fun m s _ _ held => ?_
    refine forRange_nested_invariant (a := 144 * m) held fun i p s inside inside' held => ?_
    refine held.loadWord (fun q q' same => ?_) ?_ ?_
    · simpa using same
    · rintro ⟨m', ch', i'⟩ ⟨inCh, tap⟩ last
      simp only at last inCh tap ⊢
      refine ⟨Nat.mod_lt _ (by decide), ?_⟩
      rw [Prod.mk.injEq, Prod.mk.injEq]
      omega
    · rintro q less ⟨inCh, tap⟩
      simp only at less inCh
      omega
  exact loaded.bytes (m, ch, i) ⟨inCh, tap⟩ (by simp only; omega)

theorem loadW1_eq (sram : Memory) (w1 : W1) {m ch : Nat} (outCh : m < 64) (inCh : ch < 64) :
    loadW1 sram w1 (m, ch) = sram.byteAt w1Offset (16 * m + ch / 4) (ch % 4) := by
  let P := Loaded sram w1Offset (fun x : Nat × Nat => 16 * x.1 + x.2 / 4)
    (fun x => x.2 % 4) (fun x => x.2 < 64)
  have start : P 0 (w1, 0) := Loaded.start w1
  have loaded : P (0 + 16 * 64) (forRange 0 64 (fun m => forRange 0 16 fun p =>
      loadWord sram w1Offset fun q => (m, p * 4 + q)) (w1, 0)) := by
    refine forRange_nested_invariant start fun m p s _ inside held => ?_
    refine held.loadWord (fun q q' same => ?_) ?_ ?_
    · simpa using same
    · rintro ⟨m', ch'⟩ inCh last
      simp only at last inCh ⊢
      refine ⟨Nat.mod_lt _ (by decide), ?_⟩
      rw [Prod.mk.injEq]
      omega
    · rintro q less inCh
      simp only at less inCh
      omega
  exact loaded.bytes (m, ch) inCh (by simp only; omega)

/-! The loops of a pixel. -/

theorem product_eq (imap w : BitVec 8) :
    product imap w = BitVec.ofInt 32 (Layer.product w imap) := by
  unfold product Layer.product
  rw [signExtend_eq_ofInt (imap.signExtend 16), BitVec.toInt_signExtend_of_le (by decide),
    ← signExtend_eq_ofInt imap, mul_signExtend, mul_comm]

theorem pixelOffset_eq (r c ich : Nat) :
    imapOffset + pixelOffset r c ich = wordAddr imapOffset (16 * (56 * r + c) + ich) := by
  unfold pixelOffset wordAddr
  congr 2
  omega

def operands (sram : Memory) (och : Nat) : Layer.Operands :=
  Layer.reference System.offsets sram och

/-- Nothing below the output map has been written. -/
def Kept (sram sram' : Memory) : Prop :=
  ∀ k < 98304, sram'.word (wordAddr imapOffset k) = sram.word (wordAddr imapOffset k)

def maskedSum (x : Layer.Operands) (masked : Nat → Nat → Bool) (i j : Nat) : Int :=
  ∑ tap : Fin 9, if masked (tap / 3) (tap % 3) then 0
    else ∑ ch, Layer.product (x.w3 tap ch) (x.imap (Layer.tapPixel i j tap) ch)

section Pixel

variable {sram sram' : Memory} {och i j : Nat}

theorem byte_imap (kept : Kept sram sram') (och : Nat) {r c ch : Nat} (row : r < 56)
    (column : c < 57) (inCh : ch < 64) :
    byte (sramRead32 sram' (imapOffset + pixelOffset r c (ch / 4))) (ch % 4) =
      (operands sram och).imap (56 * r + c) ⟨ch, inCh⟩ := by
  unfold sramRead32
  rw [pixelOffset_eq, kept _ (by omega), byte_eq]
  rfl

theorem channels_eq (kept : Kept sram sram') (och : Nat) (w : Nat → BitVec 8)
    (v : Fin 64 → BitVec 8) (weights : ∀ ch : Fin 64, w ch = v ch) {r c : Nat}
    (row : r < 56) (column : c < 57) {σ : Type} (psum : σ → BitVec 32) (body : Nat → Nat → σ → σ)
    (adds : ∀ ich n s, psum (body ich n s) = psum s +
      product (byte (sramRead32 sram' (imapOffset + pixelOffset r c ich)) n) (w (ich * 4 + n)))
    (s : σ) :
    psum (forRange 0 16 (fun ich => forRange 0 4 (body ich)) s) = psum s + BitVec.ofInt 32
      (∑ ch, Layer.product (v ch) ((operands sram och).imap (56 * r + c) ch)) := by
  let term (ch : Nat) : BitVec 32 :=
    product (byte (sramRead32 sram' (imapOffset + pixelOffset r c (ch / 4))) (ch % 4)) (w ch)
  have numbered (ich n : Nat) (s : σ) (_ : ich < 16) (inWord : n < 4) :
      psum (body ich n s) = psum s + term (4 * ich + n) := by
    rw [adds]
    simp only [term]
    rw [show (4 * ich + n) / 4 = ich by omega, show (4 * ich + n) % 4 = n by omega,
      Nat.mul_comm ich 4]
  refine (forRange_nested_sum psum term numbered s).trans (congrArg (psum s + ·) ?_)
  rw [show 4 * 16 = 64 from rfl, ofInt_sum, Finset.sum_range]
  refine Finset.sum_congr rfl fun ch _ => ?_
  simp only [term]
  rw [byte_imap kept och row column ch.isLt, weights, product_eq]

theorem kernelLoop_eq (kept : Kept sram sram') {w3 : W3}
    (weights : ∀ (tap : Fin 9) (ch : Fin 64), w3 (och, ch, tap) = (operands sram och).w3 tap ch)
    (row : i < 56) (column : j < 56) :
    kernelLoop sram' w3 och i j 0 =
      BitVec.ofInt 32 (maskedSum (operands sram och) (isPadding i j) i j) := by
  let term (tap : Nat) : Int :=
    if inside : tap < 9 then
      if isPadding i j (tap / 3) (tap % 3) then 0
      else ∑ ch, Layer.product ((operands sram och).w3 ⟨tap, inside⟩ ch)
        ((operands sram och).imap (Layer.tapPixel i j ⟨tap, inside⟩) ch)
    else 0
  have numbered (k m : Nat) (psum3x3 : BitVec 32) (line : k < 3) (place : m < 3) :
      (if isPadding i j k m then psum3x3 + 0
        else forRange 0 16 (fun ich => forRange 0 4 fun n psum3x3 =>
          psum3x3 + product
            (byte (sramRead32 sram' (imapOffset + pixelOffset (i + k - 1) (j + m - 1) ich)) n)
            (w3 (och, ich * 4 + n, k * 3 + m))) psum3x3) =
        psum3x3 + BitVec.ofInt 32 (term (3 * k + m)) := by
    simp only [term]
    rw [dif_pos (by omega), show (3 * k + m) / 3 = k by omega, show (3 * k + m) % 3 = m by omega]
    cases padded : isPadding i j k m with
    | true => rfl
    | false =>
        have inMap := of_decide_eq_false padded
        rw [if_neg Bool.false_ne_true, if_neg Bool.false_ne_true, Nat.mul_comm k 3]
        unfold Layer.tapPixel
        simp only [show (3 * k + m) / 3 = k by omega, show (3 * k + m) % 3 = m by omega]
        exact channels_eq kept och (fun ch => w3 (och, ch, 3 * k + m))
          ((operands sram och).w3 ⟨3 * k + m, by omega⟩) (weights ⟨3 * k + m, by omega⟩)
          (by omega) (by omega) (fun psum3x3 : BitVec 32 => psum3x3)
          (fun ich n psum3x3 => psum3x3 + product
            (byte (sramRead32 sram' (imapOffset + pixelOffset (i + k - 1) (j + m - 1) ich)) n)
            (w3 (och, ich * 4 + n, 3 * k + m))) (fun _ _ _ => rfl) psum3x3
  have total := forRange_nested_sum (fun psum3x3 : BitVec 32 => psum3x3)
    (fun tap => BitVec.ofInt 32 (term tap)) numbered 0
  rw [← ofInt_sum, show 3 * 3 = 9 from rfl, Finset.sum_range, BitVec.ofNat_eq_ofNat,
    BitVec.zero_add] at total
  refine total.trans (congrArg (BitVec.ofInt 32) ?_)
  exact Finset.sum_congr rfl fun tap _ => dif_pos tap.isLt

theorem pointLoop_eq (kept : Kept sram sram') {w1 : W1}
    (weights : ∀ ch : Fin 64, w1 (och, ch) = (operands sram och).w1 ch) (row : i < 56)
    (column : j < 56) (identity : BitVec 32) :
    (pointLoop sram' w1 och i j (0, identity)).1 =
      BitVec.ofInt 32 ((operands sram och).psum1x1 i j) := by
  refine (channels_eq kept och (fun ch => w1 (och, ch)) (operands sram och).w1 weights row
    (by omega) Prod.fst (fun ich n s =>
    (s.1 + product (byte (sramRead32 sram' (imapOffset + pixelOffset i j ich)) n)
        (w1 (och, ich * 4 + n)),
      if ich * 4 + n = och then
        (byte (sramRead32 sram' (imapOffset + pixelOffset i j ich)) n).signExtend 32 else s.2))
    (fun _ _ _ => rfl) (0, identity)).trans ?_
  exact BitVec.zero_add _

theorem pointLoop_identity (kept : Kept sram sram') {w1 : W1} (channel : och < 64) (row : i < 56)
    (column : j < 56) (s : BitVec 32 × BitVec 32) :
    (pointLoop sram' w1 och i j s).2 =
      ((operands sram och).identity (56 * i + j)).signExtend 32 := by
  let P (n : Nat) (s : BitVec 32 × BitVec 32) : Prop :=
    och < n → s.2 = ((operands sram och).identity (56 * i + j)).signExtend 32
  have met : P (0 + 4 * 16) (pointLoop sram' w1 och i j s) := by
    refine forRange_nested_invariant (fun none => absurd none (Nat.not_lt_zero _))
      fun ich n s _ inWord held reached => ?_
    show (if ich * 4 + n = och then _ else s.2) = _
    by_cases here : ich * 4 + n = och
    · rw [if_pos here, show ich = och / 4 by omega, show n = och % 4 by omega,
        byte_imap kept och row (by omega) channel]
      rfl
    · rw [if_neg here]
      exact held (by omega)
  exact met channel

end Pixel

/-! The loop over the pixels. -/

def valuesAt (sram : Memory) (och i j : Nat) : Values :=
  values (BitVec.ofInt 32 (maskedSum (operands sram och) (isPadding i j) i j))
    (BitVec.ofInt 32 ((operands sram och).psum1x1 i j))
    (((operands sram och).identity (56 * i + j)).signExtend 32)

/-- The first `n` pixels are computed. -/
structure Checked (sram : Memory) (n : Nat) (s : State) : Prop where
  kept : Kept sram s.sram
  computed : ∀ och i j, i < 56 → j < 56 → 3136 * och + 56 * i + j < n →
    s.computed (och, i, j) = some (valuesAt sram och i j)

variable {sram : Memory} {w3 : W3} {w1 : W1} {identity : BitVec 32}
  {accRes : Nat × Nat × Nat → BitVec 32} {och i j : Nat}

theorem Checked.pixel {s : State} (checked : Checked sram (3136 * och + 56 * i + j) s)
    (channel : och < 64) (row : i < 56) (column : j < 56) :
    Checked sram (3136 * och + 56 * i + j + 1)
      (CheckResult.pixel (loadW3 sram w3) (loadW1 sram w1) accRes och i j s) where
  kept := fun k below => by
    have apart : Apart omapOffset 200704 imapOffset 98304 := by decide
    have place : omapOffset + BitVec.ofNat 32 ((56 * 56 * och + i * 56 + j) * 4) =
        wordAddr omapOffset (3136 * och + 56 * i + j) := by
      unfold wordAddr
      congr 2
      omega
    show (s.sram.store _ _).word _ = _
    rw [place, apart.word_store (by decide) (by decide) (by omega) below]
    exact checked.kept k below
  computed := fun och' i' j' row' column' next => by
    show Function.update s.computed (och, i, j) _ _ = _
    by_cases here : och' = och ∧ i' = i ∧ j' = j
    · obtain ⟨rfl, rfl, rfl⟩ := here
      rw [Function.update_self, pointLoop_identity checked.kept channel row column,
        kernelLoop_eq checked.kept
          (fun tap ch => loadW3_eq sram w3 channel ch.isLt tap.isLt) row column,
        pointLoop_eq checked.kept (fun ch => loadW1_eq sram w1 channel ch.isLt) row column]
      rfl
    · rw [Function.update_of_ne (by simpa using here)]
      exact checked.computed och' i' j' row' column' (by omega)

theorem computed_eq (row : i < 56) (column : j < 56) :
    (checkResult sram w3 w1 identity accRes).computed (0, i, j) = some (valuesAt sram 0 i j) := by
  let P := Checked sram
  have start : P 0 ⟨sram, identity, fun _ => none⟩ :=
    ⟨fun _ _ => rfl, fun _ _ _ _ _ before => absurd before (Nat.not_lt_zero _)⟩
  have checked : P (3136 * 1) (checkResult sram w3 w1 identity accRes) := by
    refine forRange_invariant (P := fun och => P (3136 * och)) (Nat.zero_le _) start
      fun och s _ channel held => ?_
    exact forRange_nested_invariant (a := 3136 * och) held
      fun i j s row column held => held.pixel (by omega) row column
  exact checked.computed 0 i j row column (by omega)

/-! The layer and the masks. -/

theorem psum3x3_eq (x : Layer.Operands) (i j : Nat) :
    x.psum3x3 i j = maskedSum x
      (fun k m => decide (i + k = 0 ∨ i + k = 57 ∨ j + m = 0 ∨ j + m = 57)) i j := by
  unfold Layer.Operands.psum3x3 maskedSum
  rw [Finset.sum_comm]
  refine Finset.sum_congr rfl fun tap _ => ?_
  show ∑ ch, (if Layer.padding i j tap then 0 else _) = if Layer.padding i j tap then _ else _
  split_ifs
  · exact Finset.sum_const_zero
  · rfl

structure Agrees (sram : Memory) (i j : Nat) (v : Values) : Prop where
  psum3x3 : v.psum3x3.toInt = (operands sram 0).psum3x3 i j
  psum1x1 : v.psum1x1.toInt = (operands sram 0).psum1x1 i j
  mapSum : v.mapSum.toInt = max ((operands sram 0).psum3x3 i j + (operands sram 0).psum1x1 i j +
    ((operands sram 0).identity (56 * i + j)).toInt) 0
  quan3x3 : v.quan3x3 = v.psum3x3.extractLsb' 17 8
  quan1x1 : v.quan1x1 = v.psum1x1.extractLsb' 14 8
  quanMapSum : v.quanMapSum = v.mapSum.extractLsb' 17 8

/-- A tap is left out where the array disables it, and any other is a pixel of the map:
that in row `i + k - 1` and column `j + m - 1`. -/
structure MasksAgree (i j : Nat) : Prop where
  masked : ∀ s : MacArrayFsm.State, s.state = MacArrayFsm.region i j → ∀ k < 3, ∀ m < 3,
    isPadding i j k m = !(MacArrayFsm.peEn s).getLsbD (8 - (3 * k + m))
  inMap : ∀ k < 3, ∀ m < 3, isPadding i j k m = false →
    (1 ≤ i + k ∧ i + k - 1 < 56) ∧ 1 ≤ j + m ∧ j + m - 1 < 56

/-- Left of the last two columns the test of the padding is that of the map's borders. -/
theorem isPadding_eq (column : j < 54) {k m : Nat} (place : m < 3) :
    isPadding i j k m = decide (i + k = 0 ∨ i + k = 57 ∨ j + m = 0 ∨ j + m = 57) :=
  decide_eq_decide.mpr (by omega)

theorem masksAgree_iff (row : i < 56) (column : j < 56) : MasksAgree i j ↔ j < 54 := by
  constructor
  · intro agree
    by_contra right
    let s : MacArrayFsm.State := { MacArrayFsm.reset with state := MacArrayFsm.region i j }
    have masked := agree.masked s rfl 1 (by decide) (56 - j) (by omega)
    rw [MacArrayFsm.peEn_window rfl row column (by decide) (by omega), Bool.not_not] at masked
    have test := (decide_eq_decide.mp masked).mp (by omega)
    omega
  · intro left
    refine ⟨fun s located k line m place => ?_, fun k line m place unmasked => ?_⟩
    · rw [MacArrayFsm.peEn_window located row column line place, Bool.not_not,
        isPadding_eq left place]
    · have test := of_decide_eq_false unmasked
      omega

theorem mapSum_values {s3 s1 : Int} {byte : BitVec 8} (low : -2 ^ 31 ≤ s3 + s1 + byte.toInt)
    (high : s3 + s1 + byte.toInt < 2 ^ 31) :
    (values (BitVec.ofInt 32 s3) (BitVec.ofInt 32 s1) (byte.signExtend 32)).mapSum.toInt =
      max (s3 + s1 + byte.toInt) 0 := by
  have total : BitVec.ofInt 32 s1 + BitVec.ofInt 32 s3 + byte.signExtend 32 =
      BitVec.ofInt 32 (s3 + s1 + byte.toInt) := by
    rw [signExtend_eq_ofInt, ← BitVec.ofInt_add, ← BitVec.ofInt_add, add_comm s1]
  have value := BitVec.toInt_ofInt_eq_self (by decide : 0 < 32) low high
  unfold values
  simp only
  rw [total, BitVec.slt_eq_decide, BitVec.ofNat_eq_ofNat, BitVec.toInt_zero, value]
  by_cases negative : s3 + s1 + byte.toInt < 0
  · rw [if_pos (decide_eq_true negative), max_eq_right negative.le]
    rfl
  · rw [if_neg (by simpa using negative), max_eq_left (not_lt.mp negative), value]

theorem agrees_valuesAt (sum : maskedSum (operands sram 0) (isPadding i j) i j =
    (operands sram 0).psum3x3 i j) : Agrees sram i j (valuesAt sram 0 i j) := by
  have bound3 := abs_le.mp ((operands sram 0).abs_psum3x3 i j)
  have bound1 := abs_le.mp ((operands sram 0).abs_psum1x1 i j)
  have boundI := abs_le.mp (Layer.abs_byte ((operands sram 0).identity (56 * i + j)))
  refine ⟨?_, ?_, ?_, ?_, ?_, ?_⟩
  · show (BitVec.ofInt 32 _).toInt = _
    rw [sum, BitVec.toInt_ofInt_eq_self (by decide) (by omega) (by omega)]
  · exact BitVec.toInt_ofInt_eq_self (by decide) (by omega) (by omega)
  · unfold valuesAt
    rw [sum]
    exact mapSum_values (by omega) (by omega)
  · exact quan_eq _ (by decide)
  · exact quan_eq _ (by decide)
  · exact quan_eq _ (by decide)

/-! A single weight and a map of ones show the tap of that weight. -/

def single (tap : Nat) : Memory :=
  fun addr => if addr.toNat < 0x40000 ∨ addr.toNat = 0x40000 + 64 * tap then 1 else 0

theorem byteAt_eq (memory : Memory) (base : BitVec 32) (word : Nat) {b : Nat} (inWord : b < 4) :
    memory.byteAt base word b = memory (base + BitVec.ofNat 32 (4 * word + b)) := by
  unfold Memory.byteAt Memory.word ImapLoad.byteOf wordAddr
  rw [BitVec.ofNat_add, ← BitVec.add_assoc]
  interval_cases b
  · exact BitVec.extractLsb'_append_eq_right.trans (congrArg memory (BitVec.add_zero _).symm)
  · rw [BitVec.extractLsb'_append_eq_of_le (by decide)]
    exact BitVec.extractLsb'_append_eq_right
  · rw [BitVec.extractLsb'_append_eq_of_le (by decide),
      BitVec.extractLsb'_append_eq_of_le (by decide)]
    exact BitVec.extractLsb'_append_eq_right
  · rw [BitVec.extractLsb'_append_eq_of_le (by decide),
      BitVec.extractLsb'_append_eq_of_le (by decide)]
    exact BitVec.extractLsb'_append_eq_left

theorem w3_single (tap tap' : Fin 9) (ch : Fin 64) :
    (operands (single tap) 0).w3 tap' ch = if tap' = tap ∧ ch = 0 then 1 else 0 := by
  show Memory.byteAt _ w3Offset _ _ = _
  rw [byteAt_eq _ _ _ (Nat.mod_lt _ (by decide))]
  have place : (w3Offset + BitVec.ofNat 32
      (4 * (144 * 0 + 16 * tap' + ch / 4) + ch % 4)).toNat = 0x40000 + (64 * tap' + ch) := by
    have base : w3Offset.toNat = 0x40000 := rfl
    rw [BitVec.toNat_add, BitVec.toNat_ofNat, base]
    omega
  unfold single
  rw [place]
  refine if_congr ?_ rfl rfl
  rw [Fin.ext_iff, Fin.ext_iff]
  simp only [Fin.val_zero]
  omega

theorem imap_single (tap : Nat) {p : Nat} (inMap : p < 3136) (ch : Fin 64) :
    (operands (single tap) 0).imap p ch = 1 := by
  show Memory.byteAt _ imapOffset _ _ = _
  rw [byteAt_eq _ _ _ (Nat.mod_lt _ (by decide))]
  refine if_pos (Or.inl ?_)
  have base : imapOffset.toNat = 0 := rfl
  rw [BitVec.toNat_add, BitVec.toNat_ofNat, base]
  omega

theorem maskedSum_single (masked : Nat → Nat → Bool) {tap : Fin 9}
    (inMap : Layer.tapPixel i j tap < 3136) :
    maskedSum (operands (single tap) 0) masked i j =
      if masked (tap / 3) (tap % 3) then 0 else 1 := by
  unfold maskedSum
  rw [Finset.sum_eq_single tap]
  · refine if_congr Iff.rfl rfl ?_
    rw [Finset.sum_eq_single 0]
    · rw [w3_single, imap_single _ inMap, if_pos ⟨rfl, rfl⟩]
      rfl
    · intro ch _ other
      rw [w3_single, if_neg fun same => other same.2]
      exact zero_mul _
    · simp
  · intro tap' _ other
    rw [Finset.sum_eq_zero]
    · split_ifs <;> rfl
    · intro ch _
      rw [w3_single, if_neg fun same => other same.1]
      exact zero_mul _
  · simp

def Computes (sram : Memory) (w3 : W3) (w1 : W1) (identity : BitVec 32)
    (accRes : Nat × Nat × Nat → BitVec 32) (i j : Nat) : Prop :=
  ∃ v, (checkResult sram w3 w1 identity accRes).computed (0, i, j) = some v ∧ Agrees sram i j v

theorem computes_of_left (left : j < 54) (row : i < 56) :
    Computes sram w3 w1 identity accRes i j := by
  refine ⟨_, computed_eq row (by omega), agrees_valuesAt ?_⟩
  rw [psum3x3_eq]
  refine Finset.sum_congr rfl fun tap _ => ?_
  rw [isPadding_eq left (Nat.mod_lt _ (by decide))]

/-- In the last two columns the tap over column 55 is left out. -/
theorem not_computes_single (right : 54 ≤ j) (row : i < 56) (column : j < 56) :
    ¬ Computes (single (3 + (56 - j))) w3 w1 identity accRes i j := by
  rintro ⟨v, computed, agrees⟩
  rw [computed_eq row column] at computed
  obtain rfl := Option.some.inj computed
  let tap : Fin 9 := ⟨3 + (56 - j), by omega⟩
  have line : tap.val / 3 = 1 := by simp only [tap]; omega
  have place : tap.val % 3 = 56 - j := by simp only [tap]; omega
  have inMap : Layer.tapPixel i j tap < 3136 := by
    unfold Layer.tapPixel
    omega
  have omitted : maskedSum (operands (single tap) 0) (isPadding i j) i j = 0 := by
    rw [maskedSum_single _ inMap, line, place]
    exact if_pos (decide_eq_true (by omega))
  have wanted : (operands (single tap) 0).psum3x3 i j = 1 := by
    rw [psum3x3_eq, maskedSum_single _ inMap, line, place]
    exact if_neg (by simp; omega)
  have value : (valuesAt (single tap) 0 i j).psum3x3 = 0 := by
    unfold valuesAt
    rw [omitted]
    rfl
  have sum := agrees.psum3x3
  rw [value, wanted] at sum
  exact absurd sum (by decide)

/-- A pixel is right, in its values and in its masks, in all but the last two columns. -/
theorem checkResult_iff {i j : Nat} (row : i < 56) (column : j < 56) :
    (∀ sram w3 w1 identity accRes,
      Computes sram w3 w1 identity accRes i j ∧ MasksAgree i j ↔ j < 54) ∧
    ((∀ sram w3 w1 identity accRes, Computes sram w3 w1 identity accRes i j) ↔ j < 54) := by
  refine ⟨fun sram w3 w1 identity accRes => ⟨fun both => ?_, fun left => ?_⟩,
    fun always => ?_, fun left _ _ _ _ _ => computes_of_left left row⟩
  · exact (masksAgree_iff row column).mp both.2
  · exact ⟨computes_of_left left row, (masksAgree_iff row column).mpr left⟩
  · by_contra right
    exact not_computes_single (by omega) row column
      (always _ (fun _ => 0) (fun _ => 0) 0 fun _ => 0)

theorem checkResult_iff_bottom :
    (∀ sram w3 w1 identity accRes,
      Computes sram w3 w1 identity accRes 55 53 ∧ MasksAgree 55 53 ↔ 53 < 54) ∧
    ((∀ sram w3 w1 identity accRes, Computes sram w3 w1 identity accRes 55 53) ↔ 53 < 54) :=
  checkResult_iff (by decide) (by decide)

/-- In column 54 of the first row the weight in the middle of the last column is lost. -/
theorem checkResult_fails :
    ¬ ∀ sram w3 w1 identity accRes, ∀ i < 56, ∀ j < 56,
      Computes sram w3 w1 identity accRes i j ∧ MasksAgree i j := by
  intro always
  exact not_computes_single (i := 0) (j := 54) (by decide) (by decide) (by decide)
    (always (single 5) (fun _ => 0) (fun _ => 0) 0 (fun _ => 0) 0 (by decide) 54 (by decide)).1

end RepVGGAcc.CheckResult
