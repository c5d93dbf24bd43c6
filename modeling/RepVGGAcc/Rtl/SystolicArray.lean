import RepVGGAcc.Clocked.PairSum
import RepVGGAcc.Rtl.GnrlModules

/-! `basic_pe.v`, `adder_tree_3x3.v` and `systolic_array.v`: one lane of the
array. -/

namespace RepVGGAcc

namespace BasicPe

structure State where
  imapR : BitVec 8
  /-- `weight0` to `weight3` -/
  weightBuf : Fin 4 → BitVec 8
  productR : BitVec 16

structure Input where
  peEn : Bool
  pipeEn : Bool
  weightLoad : BitVec 8
  weightLoadEn : Bool
  weightLoadSel : Fin 4
  weightSel : Fin 4
  imapIn : BitVec 8

def reset : State where
  imapR := 0
  weightBuf := fun _ => 0
  productR := 0

def weightBufLen (i : Input) (buf : Fin 4) : Bool :=
  i.weightLoadSel == buf && i.weightLoadEn

/-- One term of the weight selection, `{8{weight_buf_ren[buf]}} & weight`. -/
def weightTerm (s : State) (weightSel buf : Fin 4) : BitVec 8 :=
  BitVec.fill 8 (weightSel == buf) &&& s.weightBuf buf

def weight (s : State) (weightSel : Fin 4) : BitVec 8 :=
  weightTerm s weightSel 0 ||| weightTerm s weightSel 1 |||
    weightTerm s weightSel 2 ||| weightTerm s weightSel 3

/-- The signed product of two bytes in 16 bits. -/
def mulSigned (a b : BitVec 8) : BitVec 16 :=
  a.signExtend 16 * b.signExtend 16

def productNxt (s : State) (i : Input) : BitVec 16 :=
  if i.peEn then mulSigned (weight s i.weightSel) s.imapR else 0

def step (s : State) (i : Input) : State where
  imapR := sirvGnrlDfflr i.pipeEn i.imapIn s.imapR
  weightBuf := fun buf =>
    sirvGnrlDfflr (weightBufLen i buf) i.weightLoad (s.weightBuf buf)
  productR := productNxt s i

private theorem weightTerm_eq (s : State) (weightSel buf : Fin 4) :
    weightTerm s weightSel buf =
      if weightSel = buf then s.weightBuf buf else 0 := by
  unfold weightTerm
  by_cases same : weightSel = buf
  · have ones : BitVec.fill 8 (weightSel == buf) = BitVec.allOnes 8 := by
      rw [beq_iff_eq.mpr same]
      rfl
    rw [ones, BitVec.allOnes_and, if_pos same]
  · have zeros : BitVec.fill 8 (weightSel == buf) = 0#8 := by
      rw [beq_eq_false_iff_ne.mpr same]
      rfl
    rw [zeros, BitVec.zero_and, if_neg same]
    rfl

theorem weight_eq (s : State) : ∀ weightSel, weight s weightSel = s.weightBuf weightSel
  | 0 | 1 | 2 | 3 => by simp [weight, weightTerm_eq]

end BasicPe

namespace AdderTree3x3

open Clocked (addPair addPairs)

structure State where
  psumS2R : Fin 2 → BitVec 32
  product9R : BitVec 16
  psumS4R : BitVec 32

def reset : State where
  psumS2R := fun _ => 0
  product9R := 0
  psumS4R := 0

def psumS1 (product3x3 : Fin 9 → BitVec 16) (k : Fin 4) : BitVec 32 :=
  addPairs (fun tap : Fin 8 => (product3x3 tap.castSucc).signExtend 32) k

def psumS2 (product3x3 : Fin 9 → BitVec 16) (k : Fin 2) : BitVec 32 :=
  addPairs (psumS1 product3x3) k

def psumS3 (s : State) : BitVec 32 :=
  addPair s.psumS2R

def psumS4 (s : State) : BitVec 32 :=
  psumS3 s + s.product9R.signExtend 32

def step (s : State) (pipeEn : Bool) (product3x3 : Fin 9 → BitVec 16) : State where
  psumS2R := fun k => sirvGnrlDfflr pipeEn (psumS2 product3x3 k) (s.psumS2R k)
  product9R := sirvGnrlDfflr pipeEn (product3x3 8) s.product9R
  psumS4R := sirvGnrlDfflr pipeEn (psumS4 s) s.psumS4R

def psum3x3 (s : State) : BitVec 32 :=
  s.psumS4R

end AdderTree3x3

namespace SystolicArray

def lineBufLen : Nat := 56

structure State where
  /-- `_1st_line_pe`, `_2nd_line_pe` and `_3rd_line_pe` -/
  linePe : Fin 3 → Fin 3 → BasicPe.State
  /-- `_1st_line_shift_reg` and `_2nd_line_shift_reg` -/
  lineShiftReg : Fin 2 → Fin 53 → BitVec 8
  adderTree : AdderTree3x3.State
  pe1x1 : BasicPe.State
  /-- `product_1x1_d1` and `product_1x1_d2` -/
  product1x1D : Fin 2 → BitVec 16
  /-- `identity_d[4:1]` -/
  identityD : Fin 4 → BitVec 8

structure Input where
  pipeEn : Bool
  peEn : BitVec 10
  weightLoad : BitVec 8
  weightLoadEn : Fin 10 → Bool
  weightLoadSel : Fin 4
  weightSel : Fin 4
  imapIn : BitVec 8

def reset : State where
  linePe := fun _ _ => BasicPe.reset
  lineShiftReg := fun _ _ => 0
  adderTree := AdderTree3x3.reset
  pe1x1 := BasicPe.reset
  product1x1D := fun _ => 0
  identityD := fun _ => 0

/-- `imap_pipe[j]`. In each line the three processing elements come first, then
the shift registers up to the next line. -/
def imapPipe (s : State) (imapIn : BitVec 8) (j : Nat) : BitVec 8 :=
  if j = 0 then imapIn
  else
    let line := (j - 1) / lineBufLen
    let offset := (j - 1) % lineBufLen
    if h : line < 3 ∧ offset < 3 then (s.linePe ⟨line, h.1⟩ ⟨offset, h.2⟩).imapR
    else if h : line < 2 ∧ 3 ≤ offset ∧ offset < 56 then
      s.lineShiftReg ⟨line, h.1⟩ ⟨offset - 3, by omega⟩
    else 0

/-- The inputs of the processing element in column `k` of a line. Kernel taps
are numbered against the order of the line. -/
def peInput (s : State) (i : Input) (line k : Fin 3) : BasicPe.Input where
  peEn := i.peEn.getLsbD (3 * line + k)
  pipeEn := i.pipeEn
  weightLoad := i.weightLoad
  weightLoadEn := i.weightLoadEn ⟨8 - (3 * line + k), by omega⟩
  weightLoadSel := i.weightLoadSel
  weightSel := i.weightSel
  imapIn := imapPipe s i.imapIn (lineBufLen * line + k)

def pe1x1Input (s : State) (i : Input) : BasicPe.Input where
  peEn := i.peEn.getLsbD 9
  pipeEn := i.pipeEn
  weightLoad := i.weightLoad
  weightLoadEn := i.weightLoadEn 9
  weightLoadSel := i.weightLoadSel
  weightSel := i.weightSel
  imapIn := imapPipe s i.imapIn (lineBufLen + 1)

def peLine (pe : Fin 9) : Fin 3 :=
  ⟨pe / 3, by omega⟩

def peColumn (pe : Fin 9) : Fin 3 :=
  ⟨pe % 3, by omega⟩

def product3x3 (s : State) (pe : Fin 9) : BitVec 16 :=
  (s.linePe (peLine pe) (peColumn pe)).productR

def step (s : State) (i : Input) : State where
  linePe := fun line k => BasicPe.step (s.linePe line k) (peInput s i line k)
  lineShiftReg := fun line k =>
    sirvGnrlDfflr i.pipeEn (imapPipe s i.imapIn (lineBufLen * line + 3 + k))
      (s.lineShiftReg line k)
  adderTree := AdderTree3x3.step s.adderTree i.pipeEn (product3x3 s)
  pe1x1 := BasicPe.step s.pe1x1 (pe1x1Input s i)
  product1x1D := dfflrChain i.pipeEn s.pe1x1.productR s.product1x1D
  identityD :=
    dfflrChain i.pipeEn (imapPipe s i.imapIn (lineBufLen + 1)) s.identityD

def psum3x3 (s : State) : BitVec 32 :=
  AdderTree3x3.psum3x3 s.adderTree

def product1x1 (s : State) : BitVec 16 :=
  s.product1x1D (Fin.last 1)

def identity (s : State) : BitVec 8 :=
  s.identityD (Fin.last 3)

end SystolicArray

end RepVGGAcc
