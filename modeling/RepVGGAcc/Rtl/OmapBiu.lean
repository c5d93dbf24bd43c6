import RepVGGAcc.Clocked.Counter
import RepVGGAcc.Rtl.GnrlModules

/-! `omap_biu.v`: the write engine of the output feature map. -/

namespace RepVGGAcc.OmapBiu

open Clocked (wrapCount)

structure State where
  omapBiu2arbCnt : Nat
  /-- `omap_biu2arb_data_pipe_stage` -/
  pipe : SirvGnrlPipeStage.State (BitVec 32)
  receiveCnt : Nat
  omapBiu2arbReq : Bool

structure Input where
  omapBaseAddr : BitVec 32
  inChCnt : Bool
  omapBiu2arbRdy : Bool
  arb2omapBiuVld : Bool
  mapMerger2omapBiuData : BitVec 32
  mapMerger2omapBiuVld : Bool

/-- A state after `rst_n`. The data register of the pipe stage is not reset. -/
structure IsReset (s : State) : Prop where
  omapBiu2arbCnt : s.omapBiu2arbCnt = 0
  vldR : s.pipe.vldR = false
  receiveCnt : s.receiveCnt = 0
  omapBiu2arbReq : s.omapBiu2arbReq = false

def omapBiu2arbVld (s : State) : Bool :=
  s.pipe.vldR

def omapBiu2arbData (s : State) : BitVec 32 :=
  s.pipe.datR

def omapBiu2arbAddr (s : State) (omapBaseAddr : BitVec 32) : BitVec 32 :=
  omapBaseAddr + (BitVec.ofNat 32 s.omapBiu2arbCnt <<< 2)

def mapMerger2omapBiuRdy (s : State) (omapBiu2arbRdy : Bool) : Bool :=
  SirvGnrlPipeStage.iRdy s.pipe omapBiu2arbRdy

/-- `omap_biu_hdshk_in` -/
def hdshkIn (s : State) (i : Input) : Bool :=
  mapMerger2omapBiuRdy s i.omapBiu2arbRdy && i.mapMerger2omapBiuVld

def hdshk (s : State) (i : Input) : Bool :=
  omapBiu2arbVld s && i.omapBiu2arbRdy

def arb2omapBiuRdy : Bool := true

/-- A write response arrives: `arb2omap_biu_vld & arb2omap_biu_rdy`. -/
def receive (i : Input) : Bool :=
  i.arb2omapBiuVld && arb2omapBiuRdy

@[simp] theorem receive_eq (i : Input) : receive i = i.arb2omapBiuVld := by
  simp [receive, arb2omapBiuRdy]

def step (s : State) (i : Input) : State where
  omapBiu2arbCnt :=
    if hdshk s i then wrapCount 200703 20 s.omapBiu2arbCnt else s.omapBiu2arbCnt
  pipe := SirvGnrlPipeStage.step s.pipe (hdshkIn s i) i.mapMerger2omapBiuData
    i.omapBiu2arbRdy
  receiveCnt :=
    if s.receiveCnt = 3135 ∧ receive i then 0
    else if receive i then (s.receiveCnt + 1) % 2 ^ 12
    else s.receiveCnt
  omapBiu2arbReq :=
    if s.receiveCnt = 3135 ∧ receive i then false
    else if i.inChCnt then true
    else s.omapBiu2arbReq

end RepVGGAcc.OmapBiu
