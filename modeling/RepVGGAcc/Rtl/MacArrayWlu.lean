import RepVGGAcc.Rtl.GnrlModules

/-! `mac_array_wlu.v`: the distribution of weight words to the processing
elements, and the selector of the bank under load. -/

namespace RepVGGAcc.MacArrayWlu

structure State where
  weightLoadSelBase : Bool
  deriving DecidableEq, Repr

structure Input where
  weightWaddr : Nat
  weightWdata : BitVec 32
  weightWen : Bool
  deriving DecidableEq, Repr

def reset : State where
  weightLoadSelBase := false

/-- `weight_waddr[31]` -/
def is1x1 (i : Input) : Bool :=
  i.weightWaddr.testBit 31

/-- `weight_load[32*j+:32]`, the word on the bus of lanes `4*j` to `4*j+3`. -/
def weightLoadWord (i : Input) (j : Nat) : BitVec 32 :=
  if i.weightWaddr % 2 ^ 3 = j then i.weightWdata else 0

/-- `weight_load[8*lane+:8]` -/
def weightLoad (i : Input) (lane : Fin 32) : BitVec 8 :=
  (weightLoadWord i (lane / 4)).extractLsb' (8 * (lane % 4)) 8

def weightLoadEnBase (i : Input) (pe : Fin 10) : Bool :=
  if pe.val = 9 then is1x1 i && i.weightWen
  else
    (if is1x1 i then 0#9 else 1#9 <<< (i.weightWaddr / 2 ^ 6 % 2 ^ 4)).getLsbD pe &&
      i.weightWen

/-- `weight_load_en[10*lane+:10]` -/
def weightLoadEn (i : Input) (lane : Fin 32) (pe : Fin 10) : Bool :=
  if i.weightWaddr % 2 ^ 3 = lane / 4 then weightLoadEnBase i pe else false

/-- `weight_load_sel`: the bank in bit 1, the input channel group in bit 0. -/
def weightLoadSel (s : State) (i : Input) : Fin 4 :=
  ⟨2 * s.weightLoadSelBase.toNat + i.weightWaddr / 2 ^ 3 % 2, by
    have := s.weightLoadSelBase.toNat_lt
    omega⟩

def step (s : State) (i : Input) : State where
  weightLoadSelBase :=
    if i.weightWaddr % 2 ^ 4 = 15 ∧ is1x1 i then !s.weightLoadSelBase
    else s.weightLoadSelBase

end RepVGGAcc.MacArrayWlu
