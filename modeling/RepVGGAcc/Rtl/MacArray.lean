import RepVGGAcc.Rtl.MacArrayFsm
import RepVGGAcc.Rtl.MacArrayWlu
import RepVGGAcc.Rtl.SystolicArray

/-! `adder_tree_ich.v`, `mac_array_core.v` and `mac_array.v`: thirty-two lanes,
their two adder trees and the control. -/

namespace RepVGGAcc

/-! `adder_tree_ich`, over the widths of its inputs and of its sums. -/

namespace AdderTreeIch

structure State (psumWidth : Nat) where
  psumS2R : Fin 8 → BitVec psumWidth
  psumS4R : Fin 2 → BitVec psumWidth
  psumS5R : BitVec psumWidth

def reset (psumWidth : Nat) : State psumWidth where
  psumS2R := fun _ => 0
  psumS4R := fun _ => 0
  psumS5R := 0

open Clocked (addPair addPairs)

variable {inWidth psumWidth : Nat}

def psumS1 (psumCh : Fin 32 → BitVec inWidth) (k : Fin 16) : BitVec psumWidth :=
  addPairs (fun lane => (psumCh lane).signExtend psumWidth) k

def psumS2 (psumCh : Fin 32 → BitVec inWidth) (k : Fin 8) : BitVec psumWidth :=
  addPairs (psumS1 psumCh) k

def psumS3 (s : State psumWidth) (k : Fin 4) : BitVec psumWidth :=
  addPairs s.psumS2R k

def psumS4 (s : State psumWidth) (k : Fin 2) : BitVec psumWidth :=
  addPairs (psumS3 s) k

def psumS5 (s : State psumWidth) : BitVec psumWidth :=
  addPair s.psumS4R

def step (s : State psumWidth) (pipeEn : Bool) (psumCh : Fin 32 → BitVec inWidth) :
    State psumWidth where
  psumS2R := fun k => sirvGnrlDfflr pipeEn (psumS2 psumCh k) (s.psumS2R k)
  psumS4R := fun k => sirvGnrlDfflr pipeEn (psumS4 s k) (s.psumS4R k)
  psumS5R := sirvGnrlDfflr pipeEn (psumS5 s) s.psumS5R

def psum (s : State psumWidth) : BitVec psumWidth :=
  s.psumS5R

end AdderTreeIch

namespace MacArrayCore

structure State where
  pipeEnD : Bool
  convArray : Fin 32 → SystolicArray.State
  adderTreeIch3x3 : AdderTreeIch.State 32
  adderTreeIch1x1 : AdderTreeIch.State 24
  /-- `identity_d[3:1]` -/
  identityD : Fin 3 → BitVec 8

structure Input where
  pipeEn : Bool
  peEn : BitVec 10
  weightLoad : Fin 32 → BitVec 8
  weightLoadEn : Fin 32 → Fin 10 → Bool
  weightLoadSel : Fin 4
  weightSel : Fin 4
  imapIn : BitVec 256
  identitySel : Fin 32

def reset : State where
  pipeEnD := false
  convArray := fun _ => SystolicArray.reset
  adderTreeIch3x3 := AdderTreeIch.reset 32
  adderTreeIch1x1 := AdderTreeIch.reset 24
  identityD := fun _ => 0

/-- `imap_in[8*lane+:8]` -/
def laneIn (imapIn : BitVec 256) (lane : Fin 32) : BitVec 8 :=
  imapIn.extractLsb' (8 * lane) 8

def laneInput (s : State) (i : Input) (lane : Fin 32) : SystolicArray.Input where
  pipeEn := s.pipeEnD
  peEn := i.peEn
  weightLoad := i.weightLoad lane
  weightLoadEn := i.weightLoadEn lane
  weightLoadSel := i.weightLoadSel
  weightSel := i.weightSel
  imapIn := laneIn i.imapIn lane

/-- `identity_ch[identity_sel]` -/
def identityCh (s : State) (i : Input) : BitVec 8 :=
  SystolicArray.identity (s.convArray i.identitySel)

def step (s : State) (i : Input) : State where
  pipeEnD := i.pipeEn
  convArray := fun lane => SystolicArray.step (s.convArray lane) (laneInput s i lane)
  adderTreeIch3x3 := AdderTreeIch.step s.adderTreeIch3x3 s.pipeEnD
    fun lane => SystolicArray.psum3x3 (s.convArray lane)
  adderTreeIch1x1 := AdderTreeIch.step s.adderTreeIch1x1 s.pipeEnD
    fun lane => SystolicArray.product1x1 (s.convArray lane)
  identityD := dfflrChain s.pipeEnD (identityCh s i) s.identityD

def psum3x3 (s : State) : BitVec 32 :=
  AdderTreeIch.psum s.adderTreeIch3x3

def psum1x1 (s : State) : BitVec 24 :=
  AdderTreeIch.psum s.adderTreeIch1x1

def identity (s : State) : BitVec 8 :=
  s.identityD (Fin.last 2)

end MacArrayCore

namespace MacArray

structure State where
  macArrayFsm : MacArrayFsm.State
  macArrayWlu : MacArrayWlu.State
  macArrayCore : MacArrayCore.State

structure Input where
  convStart : Bool
  weightWaddr : Nat
  weightWdata : BitVec 32
  weightWen : Bool
  imapRdata : BitVec 256
  macArray2psumAccRdy : Bool

def reset : State where
  macArrayFsm := MacArrayFsm.reset
  macArrayWlu := MacArrayWlu.reset
  macArrayCore := MacArrayCore.reset

def fsmInput (i : Input) : MacArrayFsm.Input where
  convStart := i.convStart
  macArray2psumAccRdy := i.macArray2psumAccRdy

def wluInput (i : Input) : MacArrayWlu.Input where
  weightWaddr := i.weightWaddr
  weightWdata := i.weightWdata
  weightWen := i.weightWen

def coreInput (s : State) (i : Input) : MacArrayCore.Input where
  pipeEn := MacArrayFsm.pipeEn s.macArrayFsm (fsmInput i)
  peEn := MacArrayFsm.peEn s.macArrayFsm
  weightLoad := MacArrayWlu.weightLoad (wluInput i)
  weightLoadEn := MacArrayWlu.weightLoadEn (wluInput i)
  weightLoadSel := MacArrayWlu.weightLoadSel s.macArrayWlu (wluInput i)
  weightSel := MacArrayFsm.weightSel s.macArrayFsm
  imapIn := i.imapRdata
  identitySel := MacArrayFsm.identitySel s.macArrayFsm

def step (s : State) (i : Input) : State where
  macArrayFsm := MacArrayFsm.step s.macArrayFsm (fsmInput i)
  macArrayWlu := MacArrayWlu.step s.macArrayWlu (wluInput i)
  macArrayCore := MacArrayCore.step s.macArrayCore (coreInput s i)

/-- `mac_array2psum_acc_data`: the identity byte, the 1x1 and the 3x3 sum. -/
def macArray2psumAccData (s : State) : BitVec 64 :=
  MacArrayCore.identity s.macArrayCore ++ MacArrayCore.psum1x1 s.macArrayCore ++
    MacArrayCore.psum3x3 s.macArrayCore

end MacArray

end RepVGGAcc
