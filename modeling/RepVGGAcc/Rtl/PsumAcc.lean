import RepVGGAcc.Rtl.MacArrayFsm

/-! `psum_acc.v` and `map_merger.v`: the accumulation of the two input channel
groups and the quantised merge of the three maps. -/

namespace RepVGGAcc

namespace PsumAcc

structure State where
  psumAccVldOut : Bool
  dataD : BitVec 64
  identitySelD : Bool
  psumSramBuf : SirvSimRam.State
  /-- `psum_acc2map_merger_data_pipe_stage` -/
  pipe : SirvGnrlPipeStage.State (BitVec 64)

structure Input where
  macArray2psumAccInfo : MacArrayFsm.Info
  macArray2psumAccData : BitVec 64
  macArray2psumAccVld : Bool
  psumAcc2mapMergerRdy : Bool

/-- A state after `rst_n`. The memory and the data register of the pipe stage
are not reset. -/
structure IsReset (s : State) : Prop where
  psumAccVldOut : s.psumAccVldOut = false
  dataD : s.dataD = 0
  identitySelD : s.identitySelD = false
  vldR : s.pipe.vldR = false

def psumAccRdyOut (s : State) (psumAcc2mapMergerRdy : Bool) : Bool :=
  SirvGnrlPipeStage.iRdy s.pipe psumAcc2mapMergerRdy

def macArray2psumAccRdy (s : State) (info : MacArrayFsm.Info)
    (psumAcc2mapMergerRdy : Bool) : Bool :=
  if info.inChGroup then psumAccRdyOut s psumAcc2mapMergerRdy else true

/-- `psum_acc_hdshk_in` -/
def hdshkIn (s : State) (i : Input) : Bool :=
  i.macArray2psumAccVld &&
    macArray2psumAccRdy s i.macArray2psumAccInfo i.psumAcc2mapMergerRdy

/-- An item of the second group is taken: `ld_en`. -/
def ldEn (s : State) (i : Input) : Bool :=
  hdshkIn s i && i.macArray2psumAccInfo.inChGroup

def sramInput (s : State) (i : Input) : SirvSimRam.Input where
  cs := hdshkIn s i
  we := !i.macArray2psumAccInfo.inChGroup
  wem := 0xff
  addr := i.macArray2psumAccInfo.offset
  din := i.macArray2psumAccData

def accumulate (identitySel : Bool) (item stored : BitVec 64) : BitVec 64 :=
  (if identitySel then item.extractLsb' 56 8 else stored.extractLsb' 56 8) ++
    (item.extractLsb' 32 24 + stored.extractLsb' 32 24) ++
    (item.extractLsb' 0 32 + stored.extractLsb' 0 32)

def psumAccDataOut (s : State) : BitVec 64 :=
  accumulate s.identitySelD s.dataD (SirvSimRam.dout s.psumSramBuf)

def psumAcc2mapMergerVld (s : State) : Bool :=
  s.pipe.vldR

def psumAcc2mapMergerData (s : State) : BitVec 64 :=
  s.pipe.datR

def step (s : State) (i : Input) : State where
  psumAccVldOut := if i.macArray2psumAccInfo.inChGroup then hdshkIn s i else false
  dataD := sirvGnrlDfflr (ldEn s i) i.macArray2psumAccData s.dataD
  identitySelD :=
    sirvGnrlDfflr (ldEn s i) i.macArray2psumAccInfo.outChHigh s.identitySelD
  psumSramBuf := SirvSimRam.step s.psumSramBuf (sramInput s i)
  pipe := SirvGnrlPipeStage.step s.pipe s.psumAccVldOut (psumAccDataOut s)
    i.psumAcc2mapMergerRdy

end PsumAcc

namespace MapMerger

structure State where
  /-- `map_merger2omap_biu_data_pipe_stage` -/
  pipe : SirvGnrlPipeStage.State (BitVec 32)

structure Input where
  psumAcc2mapMergerData : BitVec 64
  psumAcc2mapMergerVld : Bool
  mapMerger2omapBiuRdy : Bool

/-- A state after `rst_n`. The data register of the pipe stage is not reset. -/
def IsReset (s : State) : Prop :=
  s.pipe.vldR = false

def identity (data : BitVec 64) : BitVec 8 :=
  data.extractLsb' 56 8

def map1x1 (data : BitVec 64) : BitVec 24 :=
  data.extractLsb' 32 24

def map3x3 (data : BitVec 64) : BitVec 32 :=
  data.extractLsb' 0 32

def mergeResult (data : BitVec 64) : BitVec 32 :=
  (identity data).signExtend 32 + map3x3 data + (map1x1 data).signExtend 32

def actMerge (data : BitVec 64) : BitVec 32 :=
  if (mergeResult data).getLsbD 31 = false then mergeResult data else 0

def quan3x3 (data : BitVec 64) : BitVec 8 :=
  (map3x3 data).extractLsb' 17 8

def quan1x1 (data : BitVec 64) : BitVec 8 :=
  (map1x1 data).extractLsb' 14 8

def quanMerge (data : BitVec 64) : BitVec 8 :=
  (actMerge data).extractLsb' 17 8

def mapMergerDataOut (data : BitVec 64) : BitVec 32 :=
  0#8 ++ quanMerge data ++ quan3x3 data ++ quan1x1 data

def psumAcc2mapMergerRdy (s : State) (mapMerger2omapBiuRdy : Bool) : Bool :=
  SirvGnrlPipeStage.iRdy s.pipe mapMerger2omapBiuRdy

def mapMergerVldOut (s : State) (i : Input) : Bool :=
  i.psumAcc2mapMergerVld && psumAcc2mapMergerRdy s i.mapMerger2omapBiuRdy

def mapMerger2omapBiuVld (s : State) : Bool :=
  s.pipe.vldR

def mapMerger2omapBiuData (s : State) : BitVec 32 :=
  s.pipe.datR

def step (s : State) (i : Input) : State where
  pipe := SirvGnrlPipeStage.step s.pipe (mapMergerVldOut s i)
    (mapMergerDataOut i.psumAcc2mapMergerData) i.mapMerger2omapBiuRdy

end MapMerger

end RepVGGAcc
