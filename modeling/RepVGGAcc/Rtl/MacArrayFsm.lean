import RepVGGAcc.Clocked.Counter
import RepVGGAcc.Rtl.GnrlModules

/-! `mac_array_fsm.v`: the control of the multiply-accumulate array. Counters are
natural numbers, wrapped where the source's register would wrap. -/

namespace RepVGGAcc.MacArrayFsm

open Clocked (wrapCount)

inductive FsmState
  | idle
  | arraySetup
  | convS0
  | convS1
  | convS2
  | convS3
  | convS4
  | convS5
  | convS6
  | convS7
  | convS8
  | arrayCoolDown
  deriving DecidableEq, Repr

def noch : Nat := 64

@[ext]
structure State where
  state : FsmState
  setupCnt : Nat
  convColCnt : Nat
  convRowCnt : Nat
  inChCnt : Bool
  outChCnt : Nat
  imapCnt : Nat
  omapCnt : Nat
  omapChCnt : Nat
  convDone : Bool
  /-- `mac_array_out_vld_d[6:1]` -/
  vldDelay : Fin 6 → Bool

structure Input where
  convStart : Bool
  macArray2psumAccRdy : Bool

def reset : State where
  state := .idle
  setupCnt := 0
  convColCnt := 0
  convRowCnt := 0
  inChCnt := false
  outChCnt := 0
  imapCnt := 0
  omapCnt := 0
  omapChCnt := 0
  convDone := false
  vldDelay := fun _ => false

def pipeEn (s : State) (i : Input) : Bool :=
  s.state != .idle && i.macArray2psumAccRdy

def arrayEn (s : State) : Bool :=
  s.state != .idle && s.state != .arraySetup && s.state != .arrayCoolDown

def nextState (s : State) (i : Input) : FsmState :=
  let col := s.convColCnt
  let row := s.convRowCnt
  match s.state with
  | .idle => if i.convStart then .arraySetup else .idle
  | .arraySetup =>
      if s.setupCnt = 58 ∧ pipeEn s i then .convS0 else .arraySetup
  | .convS0 => if col = 0 ∧ row = 0 ∧ pipeEn s i then .convS1 else .convS0
  | .convS1 => if col = 54 ∧ row = 0 ∧ pipeEn s i then .convS2 else .convS1
  | .convS2 => if col = 55 ∧ row = 0 ∧ pipeEn s i then .convS3 else .convS2
  | .convS3 =>
      if col = 0 ∧ row > 0 ∧ row < 55 ∧ pipeEn s i then .convS4 else .convS3
  | .convS4 =>
      if col = 54 ∧ row > 0 ∧ row < 55 ∧ pipeEn s i then .convS5 else .convS4
  | .convS5 =>
      if col = 55 ∧ row > 0 ∧ row < 54 ∧ pipeEn s i then .convS3
      else if col = 55 ∧ row = 54 ∧ pipeEn s i then .convS6
      else .convS5
  | .convS6 => if col = 0 ∧ row = 55 ∧ pipeEn s i then .convS7 else .convS6
  | .convS7 => if col = 54 ∧ row = 55 ∧ pipeEn s i then .convS8 else .convS7
  | .convS8 =>
      if col = 55 ∧ row = 55 ∧
          (s.outChCnt < noch - 1 ∨ s.outChCnt = noch - 1 ∧ s.inChCnt = false) ∧
          pipeEn s i then .convS0
      else if col = 55 ∧ row = 55 ∧ s.outChCnt = noch - 1 ∧ s.inChCnt = true ∧
          pipeEn s i then .arrayCoolDown
      else .convS8
  | .arrayCoolDown =>
      if s.omapCnt = 3135 ∧ s.omapChCnt = 2 * noch - 1 ∧ pipeEn s i then .idle
      else .arrayCoolDown

def macArray2psumAccVld (s : State) : Bool :=
  s.vldDelay (Fin.last 5)

def handover (s : State) (i : Input) : Bool :=
  macArray2psumAccVld s && i.macArray2psumAccRdy

def peEn (s : State) : BitVec 10 :=
  match s.state with
  | .convS0 => 0b1000011011
  | .convS1 => 0b1000111111
  | .convS2 => 0b1000110110
  | .convS3 => 0b1011011011
  | .convS4 => 0b1111111111
  | .convS5 => 0b1110110110
  | .convS6 => 0b1011011000
  | .convS7 => 0b1111111000
  | .convS8 => 0b1110110000
  | _ => 0

/-- `weight_sel`: the bank in bit 1, the input channel group in bit 0. -/
def weightSel (s : State) : Fin 4 :=
  ⟨2 * (s.outChCnt % 2) + s.inChCnt.toNat, by
    have := s.inChCnt.toNat_lt
    omega⟩

def imapRen (s : State) (i : Input) : Bool :=
  s.state != .idle && s.state != .arrayCoolDown && pipeEn s i

/-- `imap_raddr[12:0]`, the driven bits of the read address. -/
def imapRaddr (s : State) : Nat :=
  s.inChCnt.toNat * 2 ^ 12 + s.imapCnt

/-- `mac_array2psum_acc_info[13:0]`, the driven bits of the tag. -/
structure Info where
  /-- bit 13: the output channel is one of 32 to 63 -/
  outChHigh : Bool
  /-- bit 12: the second input channel group -/
  inChGroup : Bool
  /-- bits 11:0: offset in the output feature map -/
  offset : Nat
  deriving DecidableEq, Repr

def macArray2psumAccInfo (s : State) : Info where
  outChHigh := s.outChCnt.testBit 5
  inChGroup := s.omapChCnt % 2 = 1
  offset := s.omapCnt

/-- `identity_sel`: bits 4:0 of `out_ch_cnt`. -/
def identitySel (s : State) : Fin 32 :=
  Fin.ofNat 32 s.outChCnt

def step (s : State) (i : Input) : State where
  state := nextState s i
  setupCnt :=
    if s.state = .arraySetup ∧ pipeEn s i then wrapCount 58 6 s.setupCnt
    else s.setupCnt
  convColCnt :=
    if arrayEn s ∧ pipeEn s i then wrapCount 55 6 s.convColCnt
    else s.convColCnt
  convRowCnt :=
    if s.convColCnt = 55 ∧ arrayEn s ∧ pipeEn s i then wrapCount 55 6 s.convRowCnt
    else s.convRowCnt
  inChCnt :=
    if s.convRowCnt = 55 ∧ s.convColCnt = 55 ∧ arrayEn s ∧ pipeEn s i then
      !s.inChCnt
    else s.inChCnt
  outChCnt :=
    if s.inChCnt ∧ s.convRowCnt = 55 ∧ s.convColCnt = 55 ∧ arrayEn s ∧
        pipeEn s i then wrapCount (noch - 1) 8 s.outChCnt
    else s.outChCnt
  imapCnt :=
    if imapRen s i then wrapCount 3135 12 s.imapCnt else s.imapCnt
  omapCnt :=
    if handover s i then wrapCount 3135 12 s.omapCnt else s.omapCnt
  omapChCnt :=
    if handover s i ∧ s.omapCnt = 3135 then wrapCount (2 * noch - 1) 7 s.omapChCnt
    else s.omapChCnt
  convDone :=
    if s.convDone then false
    else if s.state = .arrayCoolDown ∧ nextState s i = .idle then true
    else s.convDone
  vldDelay := dfflrChain (pipeEn s i) (arrayEn s) s.vldDelay

end RepVGGAcc.MacArrayFsm
