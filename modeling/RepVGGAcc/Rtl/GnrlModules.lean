import Mathlib.Data.BitVec
import Mathlib.Data.Fin.Tuple.Basic

/-! `gnrl_modules.v`: the registers, the SRAM model and the pipeline stage that
the accelerator instantiates. In every module of the design `reset` is the
state after `rst_n`. -/

namespace RepVGGAcc

/-- `sirv_gnrl_dfflr` and `sirv_gnrl_dffl`: the next content of a register with
load enable. -/
def sirvGnrlDfflr (lden : Bool) (dnxt qout : α) : α :=
  if lden then dnxt else qout

@[simp] theorem sirvGnrlDfflr_true (dnxt qout : α) :
    sirvGnrlDfflr true dnxt qout = dnxt := rfl

@[simp] theorem sirvGnrlDfflr_false (dnxt qout : α) :
    sirvGnrlDfflr false dnxt qout = qout := rfl

/-- The taps of a chain of registers `q` fed with `x`: tap 0 is the input, tap
`k + 1` the output of register `k`. -/
def taps (x : α) (q : Fin n → α) : Fin (n + 1) → α :=
  Fin.cons x q

/-- A `generate` loop of `sirv_gnrl_dfflr` with one enable, each register
loading the tap before it. -/
def dfflrChain (lden : Bool) (x : α) (q : Fin n → α) : Fin n → α :=
  fun k => sirvGnrlDfflr lden (taps x q k.castSucc) (q k)

@[simp] theorem dfflrChain_false (x : α) (q : Fin n → α) :
    dfflrChain false x q = q := rfl

theorem dfflrChain_true_zero (x : α) (q : Fin (n + 1) → α) :
    dfflrChain true x q 0 = x := rfl

theorem dfflrChain_true_succ (x : α) (q : Fin (n + 1) → α) (k : Fin n) :
    dfflrChain true x q k.succ = q k.castSucc := rfl

/-! `sirv_sim_ram`, as `sram_32kb_4kx64` instantiates it. -/

namespace SirvSimRam

structure State where
  memR : Nat → BitVec 64
  addrR : Nat

structure Input where
  cs : Bool
  we : Bool
  wem : BitVec 8
  addr : Nat
  din : BitVec 64

/-- One bit for each bit of the word, set where the byte's write mask is. -/
def byteMask (wem : BitVec 8) : BitVec 64 :=
  let byte := fun k => BitVec.fill 8 (wem.getLsbD k)
  byte 7 ++ byte 6 ++ byte 5 ++ byte 4 ++ byte 3 ++ byte 2 ++ byte 1 ++ byte 0

theorem byteMask_allOnes : byteMask 0xff = BitVec.allOnes 64 := by
  decide

def step (s : State) (i : Input) : State where
  memR := fun a =>
    if i.cs && i.we && a == i.addr then
      (i.din &&& byteMask i.wem) ||| (s.memR a &&& ~~~ byteMask i.wem)
    else
      s.memR a
  addrR := if i.cs && !i.we then i.addr else s.addrR

/-- The output shows the word at the address of the last read. -/
def dout (s : State) : BitVec 64 :=
  s.memR s.addrR

theorem step_memR_fullMask (s : State) (i : Input) (mask : i.wem = 0xff) (a : Nat) :
    (step s i).memR a =
      if i.cs = true ∧ i.we = true ∧ a = i.addr then i.din else s.memR a := by
  simp only [step, mask, byteMask_allOnes]
  by_cases selected : i.cs = true ∧ i.we = true ∧ a = i.addr
  · obtain ⟨cs, we, rfl⟩ := selected
    simp only [cs, we, Bool.and_self, beq_self_eq_true, if_true, and_self]
    rw [BitVec.and_allOnes, BitVec.not_allOnes, BitVec.and_zero, BitVec.or_zero]
  · rw [if_neg selected, if_neg (by simpa [and_assoc] using selected)]

end SirvSimRam

/-! `sirv_gnrl_pipe_stage` with `DP = 1` and `CUT_READY = 0`, the only setting
in use. -/

namespace SirvGnrlPipeStage

structure State (α : Type) where
  vldR : Bool
  datR : α

def vldClr (s : State α) (oRdy : Bool) : Bool :=
  s.vldR && oRdy

def iRdy (s : State α) (oRdy : Bool) : Bool :=
  !s.vldR || vldClr s oRdy

def vldSet (s : State α) (iVld oRdy : Bool) : Bool :=
  iVld && iRdy s oRdy

def step (s : State α) (iVld : Bool) (iDat : α) (oRdy : Bool) : State α where
  vldR := sirvGnrlDfflr (vldSet s iVld oRdy || vldClr s oRdy)
    (vldSet s iVld oRdy || !vldClr s oRdy) s.vldR
  datR := sirvGnrlDfflr (vldSet s iVld oRdy) iDat s.datR

@[simp] theorem iRdy_ready (s : State α) : iRdy s true = true := by
  simp [iRdy, vldClr]

theorem iRdy_of_empty (s : State α) (oRdy : Bool) (empty : s.vldR = false) :
    iRdy s oRdy = true := by
  simp [iRdy, empty]

theorem step_flowing (s : State α) (iVld : Bool) (iDat : α) (oRdy : Bool)
    (flowing : s.vldR = true → oRdy = true) :
    (step s iVld iDat oRdy).vldR = iVld ∧
      (iVld = true → (step s iVld iDat oRdy).datR = iDat) := by
  cases vld : s.vldR <;> cases iVld <;> cases oRdy <;>
    simp_all [step, vldSet, vldClr, iRdy]

end SirvGnrlPipeStage

end RepVGGAcc
