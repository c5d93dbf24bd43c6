import RepVGGAcc.Loop.ForRange
import RepVGGAcc.Clocked.Exact
import RepVGGAcc.Layer.Merge

/-! `refmodel_pkg.sv`: the model of the testbench, which computes the words of the output map
from the data that the generator sends. -/

namespace RepVGGAcc.RefModel

open Clocked
open Loop
open BigOperators

/-- `dataType` is 0 for weights, else the datum belongs to the map. -/
structure Convdata where
  data : BitVec 8
  dataType : Int

abbrev Map (w : Nat) := Nat × Nat × Nat → BitVec w

structure State where
  /-- `weight3[och][ich][r][c]` -/
  weight3 : Nat × Nat × Nat × Nat → BitVec 8
  weight1 : Nat × Nat → BitVec 8
  /-- `imap[ich][row][col]`, the map in rows and columns 1 to 56 -/
  imap : Map 8
  wOchCnt : Nat
  wIchCnt : Nat
  wC : Nat
  wR : Nat
  weightCnt : Nat
  imapColCnt : Nat
  imapRowCnt : Nat
  imapChCnt : Nat
  omap3 : Map 32
  omap1 : Map 32
  outmap : Map 32

def forMap {σ : Type} (body : Nat → Nat → Nat → σ → σ) : σ → σ :=
  forRange 0 64 fun och => forRange 1 57 fun row => forRange 1 57 fun col => body och row col

def clear : Map 32 → Map 32 :=
  forMap fun och row col omap => Function.update omap (och, row, col) 0

def clearImap : Map 8 → Map 8 :=
  forRange 0 64 fun ich => forRange 0 58 fun row => forRange 0 58 fun col imap =>
    Function.update imap (ich, row, col) 0

def initialData (s : State) : State :=
  { s with
    weight3 := forRange 0 64 (fun och => forRange 0 64 fun ich => forRange 0 3 fun r =>
      forRange 0 3 fun c weight3 => Function.update weight3 (och, ich, r, c) 0) s.weight3
    weight1 := forRange 0 64 (fun och => forRange 0 64 fun ich weight1 =>
      Function.update weight1 (och, ich) 0) s.weight1
    imap := clearImap s.imap
    omap3 := clear s.omap3
    omap1 := clear s.omap1
    outmap := clear s.outmap }

/-- `new`, on arrays of any content. -/
def new (s : State) : State :=
  initialData
    { s with
      wOchCnt := 0
      wIchCnt := 0
      wC := 0
      wR := 0
      weightCnt := 0
      imapColCnt := 1
      imapRowCnt := 1
      imapChCnt := 0 }

/-- `w_ich_cnt ++` with its carry. -/
def countIch (s : State) : State :=
  if s.wIchCnt + 1 = 64 then
    { s with wIchCnt := 0, wOchCnt := if s.wOchCnt + 1 = 64 then 0 else s.wOchCnt + 1 }
  else { s with wIchCnt := s.wIchCnt + 1 }

/-- `w_c ++` with its carries. -/
def countC (s : State) : State :=
  if s.wC + 1 = 3 then
    if s.wR + 1 = 3 then countIch { s with wC := 0, wR := 0 }
    else { s with wC := 0, wR := s.wR + 1 }
  else { s with wC := s.wC + 1 }

/-- `imap_ch_cnt ++` with its carries. -/
def countCh (s : State) : State :=
  if s.imapChCnt + 1 = 64 then
    if s.imapColCnt + 1 = 57 then
      { s with
        imapChCnt := 0
        imapColCnt := 1
        imapRowCnt := if s.imapRowCnt + 1 = 57 then 1 else s.imapRowCnt + 1 }
    else { s with imapChCnt := 0, imapColCnt := s.imapColCnt + 1 }
  else { s with imapChCnt := s.imapChCnt + 1 }

/-- A turn of `get_data`. -/
def receive (s : State) (d : Convdata) : State :=
  if d.dataType = 0 then
    if s.weightCnt < 36864 then
      countC
        { s with
          weight3 := Function.update s.weight3 (s.wOchCnt, s.wIchCnt, s.wR, s.wC) d.data
          weightCnt := s.weightCnt + 1 }
    else countIch
      { s with weight1 := Function.update s.weight1 (s.wOchCnt, s.wIchCnt) d.data }
  else countCh
    { s with
      imap := Function.update s.imap (s.imapChCnt, s.imapRowCnt, s.imapColCnt) d.data }

/-- `get_data` empties the mailbox. -/
def getData (s : State) (gen2ref : List Convdata) : State :=
  gen2ref.foldl receive s

/-- A product in the 32 bits of the sum that it is added to. -/
def product (weight imap : BitVec 8) : BitVec 32 :=
  weight.signExtend 32 * imap.signExtend 32

def addTaps (s : State) (och ich row col : Nat) (psum : BitVec 32) : BitVec 32 :=
  psum + product (s.weight3 (och, ich, 0, 0)) (s.imap (ich, row - 1, col - 1)) +
    product (s.weight3 (och, ich, 0, 1)) (s.imap (ich, row - 1, col)) +
    product (s.weight3 (och, ich, 0, 2)) (s.imap (ich, row - 1, col + 1)) +
    product (s.weight3 (och, ich, 1, 0)) (s.imap (ich, row, col - 1)) +
    product (s.weight3 (och, ich, 1, 1)) (s.imap (ich, row, col)) +
    product (s.weight3 (och, ich, 1, 2)) (s.imap (ich, row, col + 1)) +
    product (s.weight3 (och, ich, 2, 0)) (s.imap (ich, row + 1, col - 1)) +
    product (s.weight3 (och, ich, 2, 1)) (s.imap (ich, row + 1, col)) +
    product (s.weight3 (och, ich, 2, 2)) (s.imap (ich, row + 1, col + 1))

def macOmap3 (s : State) : Map 32 → Map 32 :=
  forMap fun och row col => forRange 0 64 fun ich omap3 =>
    Function.update omap3 (och, row, col) (addTaps s och ich row col (omap3 (och, row, col)))

/-- The pixel is that of row `row + 1` and column `col + 1`. -/
def macOmap1 (s : State) : Map 32 → Map 32 :=
  forMap fun och row col => forRange 0 64 fun ich omap1 =>
    Function.update omap1 (och, row, col) (omap1 (och, row, col) +
      product (s.weight1 (och, ich)) (s.imap (ich, row + 1, col + 1)))

def macOutmap (s : State) : Map 32 → Map 32 :=
  forMap fun och row col outmap =>
    Function.update outmap (och, row, col)
      ((s.imap (och, row, col)).signExtend 32 + s.omap1 (och, row, col) + s.omap3 (och, row, col))

def mac (s : State) : State :=
  let s := { s with omap3 := macOmap3 s s.omap3 }
  let s := { s with omap1 := macOmap1 s s.omap1 }
  { s with outmap := macOutmap s s.outmap }

/-- `out.data` -/
def word (s : State) (och row col : Nat) : BitVec 32 :=
  0#8 ++ (s.outmap (och, row, col)).extractLsb' 17 8 ++
    (s.omap3 (och, row, col)).extractLsb' 17 8 ++ (s.omap1 (och, row, col)).extractLsb' 14 8

/-- What `send_output` puts into the mailbox. -/
def sendOutput (s : State) : List (BitVec 32) :=
  forMap (fun och row col ref2scb => ref2scb ++ [word s och row col]) []

/-! The loops over the output map. -/

theorem forMap_updatesAt {w : Nat} {g : Nat × Nat × Nat → BitVec w → BitVec w}
    {body : Nat → Nat → Nat → Map w → Map w}
    (each : ∀ och row col, UpdatesAt (· = (och, row, col)) g (body och row col))
    (omap : Map w) {och r c : Nat} (channel : och < 64) (row : r < 56) (column : c < 56) :
    forMap body omap (och, r + 1, c + 1) =
      g (och, r + 1, c + 1) (omap (och, r + 1, c + 1)) := by
  exact (UpdatesAt.forRange_cube each 0 64 1 57 1 57).inside omap _
    ⟨⟨Nat.zero_le _, channel⟩, ⟨Nat.le_add_left _ _, Nat.succ_lt_succ row⟩,
      Nat.le_add_left _ _, Nat.succ_lt_succ column⟩

theorem forMap_invariant {σ : Type} {body : Nat → Nat → Nat → σ → σ} {P : Nat → σ → Prop} {s : σ}
    (start : P 0 s) (turn : ∀ och r c s, och < 64 → r < 56 → c < 56 →
      P (3136 * och + 56 * r + c) s →
      P (3136 * och + 56 * r + c + 1) (body och (r + 1) (c + 1) s)) :
    P (3136 * 64) (forMap body s) := by
  refine forRange_invariant (P := fun och => P (3136 * och)) (Nat.zero_le _) start
    fun och s _ channel held => ?_
  rw [forRange_shift 1 56]
  simp only [forRange_shift 1 56]
  exact forRange_nested_invariant (a := 3136 * och) held fun r c s row column held =>
    turn och r c s channel row column held

/-! The data. -/

/-- The state that `mac` finds: the ring around the map is 0, and so are the sums. -/
structure Ready (s : State) : Prop where
  ring : ∀ ch row col, ch < 64 → row < 58 → col < 58 →
    row = 0 ∨ row = 57 ∨ col = 0 ∨ col = 57 → s.imap (ch, row, col) = 0
  omap3 : ∀ och r c, och < 64 → r < 56 → c < 56 → s.omap3 (och, r + 1, c + 1) = 0
  omap1 : ∀ och r c, och < 64 → r < 56 → c < 56 → s.omap1 (och, r + 1, c + 1) = 0

theorem clear_eq (omap : Map 32) {och r c : Nat} (channel : och < 64) (row : r < 56)
    (column : c < 56) : clear omap (och, r + 1, c + 1) = 0 :=
  forMap_updatesAt (fun och row col => updatesAt_update (och, row, col) fun _ _ => 0) omap channel
    row column

theorem clearImap_eq (imap : Map 8) {ch row col : Nat} (channel : ch < 64) (inRow : row < 58)
    (inCol : col < 58) : clearImap imap (ch, row, col) = 0 := by
  have cleared : UpdatesAt _ (fun _ _ => 0) clearImap :=
    UpdatesAt.forRange_cube (fun i j k => updatesAt_update (i, j, k) fun _ _ => 0) 0 64 0 58 0 58
  exact cleared.inside imap _
    ⟨⟨Nat.zero_le _, channel⟩, ⟨Nat.zero_le _, inRow⟩, Nat.zero_le _, inCol⟩

/-- Where the next pixel goes: into the map, not into its ring. -/
structure Receives (s : State) : Prop extends Ready s where
  row : 1 ≤ s.imapRowCnt ∧ s.imapRowCnt < 57
  col : 1 ≤ s.imapColCnt ∧ s.imapColCnt < 57

theorem receives_new (s : State) : Receives (new s) where
  ring := fun _ _ _ channel row col _ => clearImap_eq s.imap channel row col
  omap3 := fun _ _ _ channel row column => clear_eq s.omap3 channel row column
  omap1 := fun _ _ _ channel row column => clear_eq s.omap1 channel row column
  row := by
    show 1 ≤ 1 ∧ 1 < 57
    decide
  col := by
    show 1 ≤ 1 ∧ 1 < 57
    decide

theorem Receives.countIch {s : State} (held : Receives s) : Receives (countIch s) := by
  unfold RefModel.countIch
  split_ifs <;> exact ⟨⟨held.ring, held.omap3, held.omap1⟩, held.row, held.col⟩

theorem Receives.countC {s : State} (held : Receives s) : Receives (countC s) := by
  unfold RefModel.countC
  split_ifs
  · exact Receives.countIch ⟨⟨held.ring, held.omap3, held.omap1⟩, held.row, held.col⟩
  · exact ⟨⟨held.ring, held.omap3, held.omap1⟩, held.row, held.col⟩
  · exact ⟨⟨held.ring, held.omap3, held.omap1⟩, held.row, held.col⟩

theorem Receives.countCh {s : State} (held : Receives s) : Receives (countCh s) := by
  obtain ⟨ready, row, col⟩ := held
  unfold RefModel.countCh
  split_ifs <;> refine ⟨⟨ready.ring, ready.omap3, ready.omap1⟩, ?_, ?_⟩ <;> simp only <;> omega

theorem Receives.receive {s : State} (held : Receives s) (d : Convdata) :
    Receives (receive s d) := by
  unfold RefModel.receive
  split_ifs
  · exact Receives.countC ⟨⟨held.ring, held.omap3, held.omap1⟩, held.row, held.col⟩
  · exact Receives.countIch ⟨⟨held.ring, held.omap3, held.omap1⟩, held.row, held.col⟩
  · refine Receives.countCh ⟨⟨fun ch row col channel inRow inCol border => ?_, held.omap3,
      held.omap1⟩, held.row, held.col⟩
    have other : (ch, row, col) ≠ (s.imapChCnt, s.imapRowCnt, s.imapColCnt) := by
      have inMap := held.row
      have inMap' := held.col
      rw [Ne, Prod.mk.injEq, Prod.mk.injEq]
      omega
    exact (Function.update_of_ne other _ _).trans (held.ring ch row col channel inRow inCol border)

theorem ready_getData (s : State) (gen2ref : List Convdata) :
    Ready (getData (new s) gen2ref) := by
  suffices kept : ∀ s, Receives s → Receives (getData s gen2ref) from
    (kept _ (receives_new s)).toReady
  induction gen2ref with
  | nil => exact fun s held => held
  | cons d rest kept => exact fun s held => kept _ (held.receive d)

/-! The sums. -/

/-- The operands of an output channel: the pixels by their number in the map. -/
def operands (s : State) (och : Nat) : Layer.Operands where
  w3 := fun tap ch => s.weight3 (och, ch, tap / 3, tap % 3)
  w1 := fun ch => s.weight1 (och, ch)
  imap := fun p ch => s.imap (ch, p / 56 + 1, p % 56 + 1)
  identity := fun p => s.imap (och, p / 56 + 1, p % 56 + 1)

theorem product_eq (w imap : BitVec 8) :
    product w imap = BitVec.ofInt 32 (Layer.product w imap) :=
  mul_signExtend w imap

theorem addTaps_eq (s : State) (och ich r c : Nat) (psum : BitVec 32) :
    addTaps s och ich (r + 1) (c + 1) psum =
      psum + ∑ tap : Fin 9, product (s.weight3 (och, ich, tap / 3, tap % 3))
        (s.imap (ich, r + tap / 3, c + tap % 3)) := by
  unfold addTaps
  rw [Fin.sum_univ_castSucc, Fin.sum_univ_eight]
  simp only [← add_assoc]
  rfl

section Mac

variable {s : State} {och r c : Nat}

theorem macOmap3_eq (s : State) (omap3 : Map 32) (channel : och < 64) (row : r < 56)
    (column : c < 56) : macOmap3 s omap3 (och, r + 1, c + 1) = omap3 (och, r + 1, c + 1) +
      ∑ ich ∈ Finset.range 64, ∑ tap : Fin 9, product (s.weight3 (och, ich, tap / 3, tap % 3))
        (s.imap (ich, r + tap / 3, c + tap % 3)) := by
  have sums := forMap_updatesAt (fun och row col => UpdatesAt.repeated (a := 0) (b := 64) fun ich =>
    updatesAt_update (och, row, col) fun x => addTaps s x.1 ich x.2.1 x.2.2) omap3 channel row
    column
  exact sums.trans (forRange_sum (fun psum : BitVec 32 => psum)
    (fun ich => ∑ tap : Fin 9, product (s.weight3 (och, ich, tap / 3, tap % 3))
      (s.imap (ich, r + tap / 3, c + tap % 3)))
    (fun ich psum _ => addTaps_eq s och ich r c psum) (omap3 (och, r + 1, c + 1)))

theorem macOmap1_eq (s : State) (omap1 : Map 32) (channel : och < 64) (row : r < 56)
    (column : c < 56) : macOmap1 s omap1 (och, r + 1, c + 1) = omap1 (och, r + 1, c + 1) +
      ∑ ich ∈ Finset.range 64, product (s.weight1 (och, ich)) (s.imap (ich, r + 2, c + 2)) := by
  have sums := forMap_updatesAt (fun och row col => UpdatesAt.repeated (a := 0) (b := 64) fun ich =>
    updatesAt_update (och, row, col) fun x psum =>
      psum + product (s.weight1 (x.1, ich)) (s.imap (ich, x.2.1 + 1, x.2.2 + 1))) omap1 channel row
    column
  exact sums.trans (forRange_sum (fun psum : BitVec 32 => psum)
    (fun ich => product (s.weight1 (och, ich)) (s.imap (ich, r + 2, c + 2)))
    (fun _ _ _ => rfl) (omap1 (och, r + 1, c + 1)))

theorem macOutmap_eq (s : State) (outmap : Map 32) (channel : och < 64) (row : r < 56)
    (column : c < 56) : macOutmap s outmap (och, r + 1, c + 1) =
      (s.imap (och, r + 1, c + 1)).signExtend 32 + s.omap1 (och, r + 1, c + 1) +
        s.omap3 (och, r + 1, c + 1) :=
  forMap_updatesAt (fun och row col => updatesAt_update (och, row, col) fun x _ =>
    (s.imap x).signExtend 32 + s.omap1 x + s.omap3 x) outmap channel row column

/-- Outside of the map the taps meet the ring. -/
theorem omap3_mac (ready : Ready s) (channel : och < 64) (row : r < 56) (column : c < 56) :
    (mac s).omap3 (och, r + 1, c + 1) = BitVec.ofInt 32 ((operands s och).psum3x3 r c) := by
  have sum := macOmap3_eq s s.omap3 channel row column
  rw [ready.omap3 och r c channel row column, BitVec.ofNat_eq_ofNat, BitVec.zero_add,
    Finset.sum_range] at sum
  refine sum.trans ?_
  unfold Layer.Operands.psum3x3
  rw [ofInt_sum]
  refine Finset.sum_congr rfl fun ich _ => ?_
  rw [ofInt_sum]
  refine Finset.sum_congr rfl fun tap _ => ?_
  rw [product_eq]
  congr 1
  cases padded : Layer.padding r c tap with
  | true =>
      have border := of_decide_eq_true padded
      rw [if_pos rfl, ready.ring ich _ _ ich.isLt (by omega) (by omega) (by omega)]
      exact mul_zero _
  | false =>
      have inMap := of_decide_eq_false padded
      have line : Layer.tapPixel r c tap / 56 + 1 = r + tap / 3 := by
        unfold Layer.tapPixel
        omega
      have place : Layer.tapPixel r c tap % 56 + 1 = c + tap % 3 := by
        unfold Layer.tapPixel
        omega
      rw [if_neg Bool.false_ne_true, ← line, ← place]
      rfl

/-- The 1x1 sum of the pixel below and to the right, 0 outside of the map. -/
def nextPoint (x : Layer.Operands) (r c : Nat) : Int :=
  if r = 55 ∨ c = 55 then 0 else x.psum1x1 (r + 1) (c + 1)

theorem omap1_mac (ready : Ready s) (channel : och < 64) (row : r < 56) (column : c < 56) :
    (mac s).omap1 (och, r + 1, c + 1) = BitVec.ofInt 32 (nextPoint (operands s och) r c) := by
  have sum := macOmap1_eq { s with omap3 := macOmap3 s s.omap3 } s.omap1 channel row column
  rw [ready.omap1 och r c channel row column, BitVec.ofNat_eq_ofNat, BitVec.zero_add,
    Finset.sum_range] at sum
  refine sum.trans ?_
  unfold nextPoint
  split_ifs with border
  · refine Finset.sum_eq_zero fun ich _ => ?_
    rw [product_eq, ready.ring ich _ _ ich.isLt (by omega) (by omega) (by omega)]
    exact congrArg (BitVec.ofInt 32) (mul_zero _)
  · unfold Layer.Operands.psum1x1
    rw [ofInt_sum]
    refine Finset.sum_congr rfl fun ich _ => ?_
    have line : (56 * (r + 1) + (c + 1)) / 56 + 1 = r + 2 := by omega
    have place : (56 * (r + 1) + (c + 1)) % 56 + 1 = c + 2 := by omega
    rw [product_eq]
    unfold operands
    simp only [line, place]

theorem outmap_mac (ready : Ready s) (channel : och < 64) (row : r < 56) (column : c < 56) :
    (mac s).outmap (och, r + 1, c + 1) = BitVec.ofInt 32 ((operands s och).psum3x3 r c +
      nextPoint (operands s och) r c + ((operands s och).identity (56 * r + c)).toInt) := by
  have sum : (mac s).outmap (och, r + 1, c + 1) = (s.imap (och, r + 1, c + 1)).signExtend 32 +
      (mac s).omap1 (och, r + 1, c + 1) + (mac s).omap3 (och, r + 1, c + 1) :=
    macOutmap_eq _ _ channel row column
  have line : (56 * r + c) / 56 + 1 = r + 1 := by omega
  have place : (56 * r + c) % 56 + 1 = c + 1 := by omega
  have identity : (operands s och).identity (56 * r + c) = s.imap (och, r + 1, c + 1) := by
    unfold operands
    simp only [line, place]
  rw [sum, omap1_mac ready channel row column, omap3_mac ready channel row column, identity,
    signExtend_eq_ofInt, ← BitVec.ofInt_add, ← BitVec.ofInt_add]
  congr 1
  omega

end Mac

/-! The words. -/

/-- The word of the model: the sum is not rectified. -/
def goldenWord (psum3x3 psum1x1 identity : Int) : BitVec 32 :=
  0#8 ++ (BitVec.ofInt 32 (psum3x3 + psum1x1 + identity)).extractLsb' 17 8 ++
    (BitVec.ofInt 32 psum3x3).extractLsb' 17 8 ++ (BitVec.ofInt 32 psum1x1).extractLsb' 14 8

theorem sendOutput_eq (s : State) {och r c : Nat} (channel : och < 64) (row : r < 56)
    (column : c < 56) :
    (sendOutput s)[3136 * och + 56 * r + c]? = some (word s och (r + 1) (c + 1)) := by
  let P (n : Nat) (out : List (BitVec 32)) : Prop :=
    out.length = n ∧ ∀ och r c, r < 56 → c < 56 → 3136 * och + 56 * r + c < n →
      out[3136 * och + 56 * r + c]? = some (word s och (r + 1) (c + 1))
  have sent : P (3136 * 64) (sendOutput s) := by
    refine forMap_invariant ⟨rfl, fun _ _ _ _ _ none => absurd none (Nat.not_lt_zero _)⟩ ?_
    rintro och r c out channel row column ⟨length, words⟩
    refine ⟨by rw [List.length_append, length]; rfl, fun och' r' c' row' column' next => ?_⟩
    by_cases last : 3136 * och' + 56 * r' + c' = 3136 * och + 56 * r + c
    · obtain ⟨rfl, rfl, rfl⟩ : och' = och ∧ r' = r ∧ c' = c := by omega
      rw [← length, List.getElem?_concat_length]
    · rw [List.getElem?_append_left (by omega)]
      exact words och' r' c' row' column' (by omega)
  exact sent.2 och r c row column (by omega)

theorem sendOutput_mac {s : State} (ready : Ready s) {och r c : Nat} (channel : och < 64)
    (row : r < 56) (column : c < 56) : (sendOutput (mac s))[3136 * och + 56 * r + c]? =
      some (goldenWord ((operands s och).psum3x3 r c) (nextPoint (operands s och) r c)
        ((operands s och).identity (56 * r + c)).toInt) := by
  rw [sendOutput_eq _ channel row column]
  unfold word goldenWord
  rw [outmap_mac ready channel row column, omap3_mac ready channel row column,
    omap1_mac ready channel row column]

/-- Neither the other pixel nor the missing activation shows in the bytes of the word. -/
structure Coincides (x : Layer.Operands) (r c : Nat) : Prop where
  point : nextPoint x r c / 2 ^ 14 = x.psum1x1 r c / 2 ^ 14
  merged : (x.psum3x3 r c + nextPoint x r c + (x.identity (56 * r + c)).toInt) / 2 ^ 17 =
    max (x.psum3x3 r c + x.psum1x1 r c + (x.identity (56 * r + c)).toInt) 0 / 2 ^ 17

theorem abs_nextPoint (x : Layer.Operands) (r c : Nat) :
    |nextPoint x r c| ≤ 64 * (128 * 128) := by
  unfold nextPoint
  split_ifs
  · norm_num
  · exact x.abs_psum1x1 _ _

theorem goldenWord_eq_iff (x : Layer.Operands) (r c : Nat) :
    goldenWord (x.psum3x3 r c) (nextPoint x r c) (x.identity (56 * r + c)).toInt = x.word r c ↔
      Coincides x r c := by
  have bound3 := abs_le.mp (x.abs_psum3x3 r c)
  have bound1 := abs_le.mp (x.abs_psum1x1 r c)
  have bound1' := abs_le.mp (abs_nextPoint x r c)
  have boundI := abs_le.mp (Layer.abs_byte (x.identity (56 * r + c)))
  have exact1 {y : Int} (small : |y| ≤ 64 * (128 * 128)) :
      Exact (2 ^ 20) (BitVec.ofInt 32 y) y :=
    Exact.ofInt (by decide) (small.trans (by norm_num)) (by decide)
  have exactM {y : Int} (low : -(2 ^ 24 - 1) ≤ y) (high : y ≤ 2 ^ 24 - 1) :
      Exact (2 ^ 24 - 1) (BitVec.ofInt 32 y) y :=
    Exact.ofInt (by decide) (abs_le.mpr ⟨by push_cast; omega, by push_cast; omega⟩) (by decide)
  have point := (exact1 (abs_nextPoint x r c)).extractLsb'_eq_iff (exact1 (x.abs_psum1x1 r c))
    (by decide : 0 < 8) (by decide : 14 + 8 ≤ 32) (by decide)
  have merged := (exactM (y := x.psum3x3 r c + nextPoint x r c + (x.identity (56 * r + c)).toInt)
    (by omega) (by omega)).extractLsb'_eq_iff
    (exactM (y := max (x.psum3x3 r c + x.psum1x1 r c + (x.identity (56 * r + c)).toInt) 0)
      (by omega) (by omega)) (by decide : 0 < 8) (by decide : 17 + 8 ≤ 32) (by decide)
  unfold goldenWord Layer.Operands.word Layer.outputWord
  simp only
  rw [append_inj, append_inj, append_inj, point, merged]
  exact ⟨fun same => ⟨same.2, same.1.1.2⟩,
    fun coincides => ⟨⟨⟨rfl, coincides.merged⟩, rfl⟩, coincides.point⟩⟩

/-- The word that the data path forms of the two items of a pixel. -/
def dataPathWord (weight : Fin 2 → Fin 32 → Fin 10 → BitVec 8) (pixel : Fin 32 → Nat → BitVec 8)
    (identitySel : Bool) (identityLane : Fin 2 → Fin 32) (q p : Nat) : BitVec 32 :=
  MapMerger.mapMergerDataOut (PsumAcc.accumulate identitySel
    (MacArray.itemData (weight ⟨1, Nat.one_lt_two⟩) pixel (identityLane ⟨1, Nat.one_lt_two⟩)
      (3136 * (q + 1) + p))
    (MacArray.itemData (weight ⟨0, Nat.two_pos⟩) pixel (identityLane ⟨0, Nat.two_pos⟩)
      (3136 * q + p)))

/-- Each lane sees its own channel in the passes `q` and `q + 1`, and the identity is the
pixel of the output channel. -/
structure Sees (x : Layer.Operands) (weight : Fin 2 → Fin 32 → Fin 10 → BitVec 8)
    (pixel : Fin 32 → Nat → BitVec 8) (identitySel : Bool) (identityLane : Fin 2 → Fin 32)
    (q : Nat) : Prop where
  feeds : x.Feeds q weight pixel
  pass : q + 1 < 128
  identity : ∀ p < 3136, (if identitySel then pixel (identityLane 1) (3136 * (q + 1) + p)
    else pixel (identityLane 0) (3136 * q + p)) = x.identity p

theorem dataPathWord_eq {x : Layer.Operands} {weight : Fin 2 → Fin 32 → Fin 10 → BitVec 8}
    {pixel : Fin 32 → Nat → BitVec 8} {identitySel : Bool} {identityLane : Fin 2 → Fin 32}
    {q r c : Nat} (sees : Sees x weight pixel identitySel identityLane q) (row : r < 56)
    (column : c < 56) :
    dataPathWord weight pixel identitySel identityLane q (56 * r + c) = x.word r c :=
  sees.feeds.mapMergerDataOut sees.pass row column identityLane (sees.identity _ (by omega))

/-- The word that the model sends for a pixel is that of the data path in exactly the cases
in which its two slips do not show. -/
theorem emits_iff {s : State} (ready : Ready s) {och r c : Nat} (channel : och < 64)
    (row : r < 56) (column : c < 56) {weight : Fin 2 → Fin 32 → Fin 10 → BitVec 8}
    {pixel : Fin 32 → Nat → BitVec 8} {identitySel : Bool} {identityLane : Fin 2 → Fin 32}
    {q : Nat} (sees : Sees (operands s och) weight pixel identitySel identityLane q) :
    (sendOutput (mac s))[3136 * och + 56 * r + c]? =
        some (dataPathWord weight pixel identitySel identityLane q (56 * r + c)) ↔
      Coincides (operands s och) r c := by
  rw [sendOutput_mac ready channel row column, dataPathWord_eq sees row column, Option.some_inj,
    goldenWord_eq_iff]

/-! Two data: the first weight of the first kernel is -128, the first pixel of the first
channel is 127. -/

def blank : State where
  weight3 := fun _ => 0
  weight1 := fun _ => 0
  imap := fun _ => 0
  wOchCnt := 0
  wIchCnt := 0
  wC := 0
  wR := 0
  weightCnt := 0
  imapColCnt := 0
  imapRowCnt := 0
  imapChCnt := 0
  omap3 := fun _ => 0
  omap1 := fun _ => 0
  outmap := fun _ => 0

def twoData : State :=
  getData (new blank) [⟨0x80, 0⟩, ⟨0x7f, 1⟩]

/-- The lanes of the operands of an output channel below 32. -/
def ownWeight (x : Layer.Operands) (g : Fin 2) (lane : Fin 32) : Fin 10 → BitVec 8 :=
  Fin.snoc (fun tap : Fin 9 => x.w3 tap (Layer.channel g lane)) (x.w1 (Layer.channel g lane))

theorem group_lt (n : Nat) : n / 3136 % 2 < 2 :=
  Nat.mod_lt _ Nat.two_pos

def ownPixel (x : Layer.Operands) (lane : Fin 32) (n : Nat) : BitVec 8 :=
  x.imap (n % 3136) (Layer.channel ⟨n / 3136 % 2, group_lt n⟩ lane)

theorem sees_own (s : State) (och : Fin 32) : Sees (operands s och) (ownWeight (operands s och))
    (ownPixel (operands s och)) false (fun _ => och) 0 where
  feeds := {
    w3 := fun g lane tap => Fin.snoc_castSucc _ _ tap
    w1 := fun g lane => Fin.snoc_last _ _
    imap := fun g lane p inMap => by
      unfold ownPixel
      congr 1
      · omega
      · congr 1
        exact Fin.ext (by simp only; omega) }
  pass := by decide
  identity := fun p inMap => by
    have here : (3136 * 0 + p) % 3136 = p := by omega
    have lane : 32 * ((3136 * 0 + p) / 3136 % 2) + och.val = och := by omega
    show s.imap (32 * ((3136 * 0 + p) / 3136 % 2) + och.val, (3136 * 0 + p) % 3136 / 56 + 1,
      (3136 * 0 + p) % 3136 % 56 + 1) = s.imap (och, p / 56 + 1, p % 56 + 1)
    rw [here, lane]

theorem imap_twoData {p : Nat} (inMap : p < 3136) (ch : Fin 64) :
    (operands twoData 0).imap p ch = if p = 0 ∧ ch = 0 then 0x7f else 0 := by
  have fed : twoData.imap = Function.update (clearImap blank.imap) (0, 1, 1) 0x7f := rfl
  show twoData.imap (ch, p / 56 + 1, p % 56 + 1) = _
  rw [fed, Function.update_apply, clearImap_eq _ ch.isLt (by omega) (by omega)]
  refine if_congr ?_ rfl rfl
  rw [Prod.mk.injEq, Prod.mk.injEq, Fin.ext_iff, Fin.val_zero]
  omega

theorem psum1x1_twoData {r c : Nat} (row : r < 56) (column : c < 56) (other : 0 < 56 * r + c) :
    (operands twoData 0).psum1x1 r c = 0 := by
  refine Finset.sum_eq_zero fun ch _ => ?_
  rw [imap_twoData (by omega), if_neg (by omega)]
  exact mul_zero _

theorem psum3x3_twoData : (operands twoData 0).psum3x3 1 1 = -16256 := by
  have pixel (tap : Fin 9) : Layer.tapPixel 1 1 tap = 56 * (tap / 3) + tap % 3 := by
    unfold Layer.tapPixel
    omega
  unfold Layer.Operands.psum3x3
  rw [Finset.sum_eq_single 0, Finset.sum_eq_single 0]
  · rw [if_neg (by decide), imap_twoData (by decide), if_pos (by decide)]
    rfl
  · intro tap _ other
    have place : 0 < tap.val := Nat.pos_of_ne_zero fun zero => other (Fin.ext zero)
    split_ifs
    · rfl
    · rw [pixel, imap_twoData (by omega), if_neg (by omega)]
      exact mul_zero _
  · simp
  · intro ch _ other
    refine Finset.sum_eq_zero fun tap _ => ?_
    split_ifs
    · rfl
    · rw [pixel, imap_twoData (by omega), if_neg fun same => other same.2]
      exact mul_zero _
  · simp

/-- The sum is negative, so that the data path sends 0 where the model sends -1. -/
theorem not_coincides_twoData : ¬ Coincides (operands twoData 0) 1 1 := by
  intro coincides
  have merged := coincides.merged
  have next : nextPoint (operands twoData 0) 1 1 = (operands twoData 0).psum1x1 2 2 :=
    if_neg (by decide)
  have identity : (operands twoData 0).identity (56 * 1 + 1) = 0 :=
    (imap_twoData (by decide) 0).trans (if_neg (by decide))
  rw [next, psum1x1_twoData (by decide) (by decide) (by decide),
    psum1x1_twoData (by decide) (by decide) (by decide), psum3x3_twoData, identity] at merged
  exact absurd merged (by decide)

theorem emits_fails : ¬ ∀ s, Ready s → ∀ och r c, och < 64 → r < 56 → c < 56 →
    ∀ weight pixel identitySel identityLane q,
      Sees (operands s och) weight pixel identitySel identityLane q →
      (sendOutput (mac s))[3136 * och + 56 * r + c]? =
        some (dataPathWord weight pixel identitySel identityLane q (56 * r + c)) := by
  intro always
  have ready : Ready twoData := ready_getData _ _
  have sees := sees_own twoData 0
  have same := always twoData ready 0 1 1 (by decide) (by decide) (by decide) _ _ _ _ _ sees
  rw [sendOutput_mac ready (by decide) (by decide) (by decide),
    dataPathWord_eq sees (by decide) (by decide), Option.some_inj] at same
  exact not_coincides_twoData ((goldenWord_eq_iff _ 1 1).mp same)

theorem emits_iff_twoData : (sendOutput (mac twoData))[3136 * 0 + 56 * 1 + 1]? =
      some (dataPathWord (ownWeight (operands twoData 0)) (ownPixel (operands twoData 0)) false
        (fun _ => 0) 0 (56 * 1 + 1)) ↔
    Coincides (operands twoData 0) 1 1 :=
  emits_iff (ready_getData _ _) (by decide) (by decide) (by decide) (sees_own twoData 0)

end RepVGGAcc.RefModel
