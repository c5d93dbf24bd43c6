import RepVGGAcc.Rtl.IcbMaster
import RepVGGAcc.Rtl.IcbSlave
import RepVGGAcc.Rtl.ImapBuf
import RepVGGAcc.Rtl.MacArray
import RepVGGAcc.Rtl.MainFsm
import RepVGGAcc.Rtl.PsumAcc

/-! `repvgg_acc_top.v`: the wiring of the accelerator. The arbiter and the bus
interface units are kept together as `BusUnits`. -/

namespace RepVGGAcc.RepvggAccTop

structure State where
  icbSlave : IcbSlave.State
  mainFsm : MainFsm.State
  bus : BusUnits.State
  imapBuf : ImapBuf.State
  macArray : MacArray.State
  psumAcc : PsumAcc.State
  mapMerger : MapMerger.State

structure Input where
  icbCmdValid : Bool
  icbCmdRead : Bool
  icbCmdAddr : BitVec 32
  icbCmdWdata : BitVec 32
  icbRspReady : Bool
  accIcbCmdReady : Bool
  accIcbRspValid : Bool
  accIcbRspRdata : BitVec 32

structure IsReset (s : State) : Prop where
  icbSlave : s.icbSlave = IcbSlave.reset
  mainFsm : s.mainFsm = MainFsm.reset
  bus : BusUnits.IsReset s.bus
  imapBuf : ImapBuf.IsReset s.imapBuf
  macArray : s.macArray = MacArray.reset
  psumAcc : PsumAcc.IsReset s.psumAcc
  mapMerger : MapMerger.IsReset s.mapMerger

/-! The wires, in the order in which they depend on one another. -/

def mapMerger2omapBiuRdy (s : State) : Bool :=
  OmapBiu.mapMerger2omapBiuRdy s.bus.omapBiu (IcbMaster.rdy s.bus.icbMaster .omap)

def psumAcc2mapMergerRdy (s : State) : Bool :=
  MapMerger.psumAcc2mapMergerRdy s.mapMerger (mapMerger2omapBiuRdy s)

def macArray2psumAccRdy (s : State) : Bool :=
  PsumAcc.macArray2psumAccRdy s.psumAcc
    (MacArrayFsm.macArray2psumAccInfo s.macArray.macArrayFsm)
    (psumAcc2mapMergerRdy s)

def macArray2psumAccVld (s : State) : Bool :=
  MacArrayFsm.macArray2psumAccVld s.macArray.macArrayFsm

def slaveInput (s : State) (i : Input) : IcbSlave.Input where
  icbCmdValid := i.icbCmdValid
  icbCmdRead := i.icbCmdRead
  icbCmdAddr := i.icbCmdAddr
  icbCmdWdata := i.icbCmdWdata
  icbRspReady := i.icbRspReady
  accDone := s.mainFsm.accDone

/-- `acc_start` is one bit wide: it takes bit 0 of `START`. -/
def mainInput (s : State) : MainFsm.Input where
  accStart := s.icbSlave.start.getLsbD 0
  weightDone := s.bus.weightBiu.weightDone
  imapDone := s.bus.imapBiu.imapDone
  convDone := s.macArray.macArrayFsm.convDone
  outChCnt := s.macArray.macArrayFsm.outChCnt

def weightOchCnt (s : State) : Nat :=
  MainFsm.weightOchCnt s.mainFsm (mainInput s)

def busInput (s : State) (i : Input) : BusUnits.Input where
  weightStart := s.mainFsm.weightStart
  weight3BaseAddr := s.icbSlave.w3Addr
  weight1BaseAddr := s.icbSlave.w1Addr
  weightOchCnt := weightOchCnt s
  imapStart := s.mainFsm.imapStart
  imapBaseAddr := s.icbSlave.inAddr
  omapBaseAddr := s.icbSlave.outAddr
  inChCnt := s.macArray.macArrayFsm.inChCnt
  mapMerger2omapBiuData := MapMerger.mapMerger2omapBiuData s.mapMerger
  mapMerger2omapBiuVld := MapMerger.mapMerger2omapBiuVld s.mapMerger
  accIcbCmdReady := i.accIcbCmdReady
  accIcbRspValid := i.accIcbRspValid
  accIcbRspRdata := i.accIcbRspRdata

def weightBiuInput (s : State) (i : Input) : WeightBiu.Input :=
  BusUnits.weightInput s.bus (busInput s i)

def imapBiuInput (s : State) (i : Input) : ImapBiu.Input :=
  BusUnits.imapInput s.bus (busInput s i)

def macInput (s : State) (i : Input) : MacArray.Input where
  convStart := s.mainFsm.convStart
  weightWaddr := WeightBiu.weightWaddr s.bus.weightBiu (weightBiuInput s i)
  weightWdata := WeightBiu.weightWdata (weightBiuInput s i)
  weightWen := WeightBiu.weightWen (weightBiuInput s i)
  imapRdata := ImapBuf.imapRdata s.imapBuf
  macArray2psumAccRdy := macArray2psumAccRdy s

def imapBufInput (s : State) (i : Input) : ImapBuf.Input where
  imapWaddr := ImapBiu.imapWaddr s.bus.imapBiu
  imapWdata := ImapBiu.imapWdata s.bus.imapBiu (imapBiuInput s i)
  imapWen := ImapBiu.imapWen s.bus.imapBiu (imapBiuInput s i)
  imapRaddr := MacArrayFsm.imapRaddr s.macArray.macArrayFsm
  imapRen :=
    MacArrayFsm.imapRen s.macArray.macArrayFsm (MacArray.fsmInput (macInput s i))

def psumInput (s : State) : PsumAcc.Input where
  macArray2psumAccInfo := MacArrayFsm.macArray2psumAccInfo s.macArray.macArrayFsm
  macArray2psumAccData := MacArray.macArray2psumAccData s.macArray
  macArray2psumAccVld := macArray2psumAccVld s
  psumAcc2mapMergerRdy := psumAcc2mapMergerRdy s

def mergerInput (s : State) : MapMerger.Input where
  psumAcc2mapMergerData := PsumAcc.psumAcc2mapMergerData s.psumAcc
  psumAcc2mapMergerVld := PsumAcc.psumAcc2mapMergerVld s.psumAcc
  mapMerger2omapBiuRdy := mapMerger2omapBiuRdy s

def step (s : State) (i : Input) : State where
  icbSlave := IcbSlave.step s.icbSlave (slaveInput s i)
  mainFsm := MainFsm.step s.mainFsm (mainInput s)
  bus := BusUnits.step s.bus (busInput s i)
  imapBuf := ImapBuf.step s.imapBuf (imapBufInput s i)
  macArray := MacArray.step s.macArray (macInput s i)
  psumAcc := PsumAcc.step s.psumAcc (psumInput s)
  mapMerger := MapMerger.step s.mapMerger (mergerInput s)

/-- `acc_icb_cmd_valid` and `acc_icb_cmd_ready` are both 1. -/
def accepts (s : State) (i : Input) : Bool :=
  BusUnits.accIcbCmdValid s.bus && i.accIcbCmdReady

def command (s : State) (i : Input) : BusUnits.Command :=
  BusUnits.command s.bus (busInput s i)

end RepVGGAcc.RepvggAccTop
