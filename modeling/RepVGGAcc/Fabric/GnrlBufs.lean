import RepVGGAcc.Clocked.OneHot
import RepVGGAcc.Rtl.GnrlModules

/-! `sirv_gnrl_bufs.v`: the FIFO and the bypass buffer of the bus fabric. -/

namespace RepVGGAcc

open Clocked

/-! `sirv_gnrl_fifo` with `DP > 0` and `MSKO = 0`. -/

namespace SirvGnrlFifo

structure State (dp dw : Nat) where
  rptrVecR : BitVec dp
  wptrVecR : BitVec dp
  vecR : BitVec (dp + 1)
  fifoRfR : Fin dp → BitVec dw

variable {dp dw : Nat}

/-- A state after `rst_n`. The FIFO registers have no reset. -/
structure IsReset (s : State dp dw) : Prop where
  rptrVecR : s.rptrVecR = 1
  wptrVecR : s.wptrVecR = 1
  vecR : s.vecR = 1

def reset : State dp dw where
  rptrVecR := 1
  wptrVecR := 1
  vecR := 1
  fifoRfR := fun _ => 0

theorem isReset_reset : IsReset (reset : State dp dw) :=
  ⟨rfl, rfl, rfl⟩

/-- `rptr_vec_nxt` and `wptr_vec_nxt`. -/
def ptrVecNxt (ptrVecR : BitVec dp) : BitVec dp :=
  if dp = 1 then 1
  else if ptrVecR.getLsbD (dp - 1) then 1
  else ptrVecR <<< 1

/-- `o_vec[0]`. -/
def oVld (s : State dp dw) : Bool :=
  s.vecR.getLsbD 1

def ren (s : State dp dw) (oRdy : Bool) : Bool :=
  oVld s && oRdy

/-- `CUT_READY` matters only with `DP = 1`. -/
def iRdy (cutReady : Bool) (s : State dp dw) (oRdy : Bool) : Bool :=
  if dp = 1 then
    if cutReady then !s.vecR.getLsbD dp else !s.vecR.getLsbD dp || ren s oRdy
  else !s.vecR.getLsbD dp

theorem iRdy_cut (s : State dp dw) (oRdy : Bool) : iRdy true s oRdy = iRdy true s false := by
  unfold iRdy
  rw [if_pos rfl, if_pos rfl]

def vecNxt (vecR : BitVec (dp + 1)) (wen : Bool) : BitVec (dp + 1) :=
  if wen then vecR.setWidth dp ++ 1#1 else vecR >>> 1

/-- `o_dat`: the one-hot multiplexer `mux_rdat`. -/
def oDat (s : State dp dw) : BitVec dw :=
  orMux (fun j => s.rptrVecR.getLsbD j) s.fifoRfR

def step (cutReady : Bool) (s : State dp dw) (iVld : Bool) (iDat : BitVec dw) (oRdy : Bool) :
    State dp dw :=
  let wen := iVld && iRdy cutReady s oRdy
  { rptrVecR := sirvGnrlDfflr (ren s oRdy) (ptrVecNxt s.rptrVecR) s.rptrVecR
    wptrVecR := sirvGnrlDfflr wen (ptrVecNxt s.wptrVecR) s.wptrVecR
    vecR := sirvGnrlDfflr (ren s oRdy ^^ wen) (vecNxt s.vecR wen) s.vecR
    fifoRfR := fun k => sirvGnrlDfflr (wen && s.wptrVecR.getLsbD k) iDat (s.fifoRfR k) }

end SirvGnrlFifo

/-! `sirv_gnrl_bypbuf`: its FIFO has `CUT_READY = 1`. -/

namespace SirvGnrlBypbuf

open SirvGnrlFifo (State)

variable {dp dw : Nat}

def iRdy (s : State dp dw) (oRdy : Bool) : Bool :=
  SirvGnrlFifo.iRdy true s oRdy

def byp (s : State dp dw) (iVld oRdy : Bool) : Bool :=
  iVld && oRdy && !SirvGnrlFifo.oVld s

def oVld (s : State dp dw) (iVld : Bool) : Bool :=
  SirvGnrlFifo.oVld s || iVld

def oDat (s : State dp dw) (iDat : BitVec dw) : BitVec dw :=
  if SirvGnrlFifo.oVld s then SirvGnrlFifo.oDat s else iDat

def step (s : State dp dw) (iVld : Bool) (iDat : BitVec dw) (oRdy : Bool) : State dp dw :=
  SirvGnrlFifo.step true s (iVld && !byp s iVld oRdy) iDat oRdy

end SirvGnrlBypbuf

/-! `sirv_gnrl_pipe_stage` with `DP = 1` and `CUT_READY = 1`: it takes nothing while it holds
something. -/

namespace SirvGnrlPipeStage

variable {α : Type}

def iRdyCut (s : State α) : Bool :=
  !s.vldR

def vldSetCut (s : State α) (iVld : Bool) : Bool :=
  iVld && iRdyCut s

def stepCut (s : State α) (iVld : Bool) (iDat : α) (oRdy : Bool) : State α where
  vldR := sirvGnrlDfflr (vldSetCut s iVld || vldClr s oRdy)
    (vldSetCut s iVld || !vldClr s oRdy) s.vldR
  datR := sirvGnrlDfflr (vldSetCut s iVld) iDat s.datR

end SirvGnrlPipeStage

end RepVGGAcc
