import RepVGGAcc.Rtl.WeightBiu
import RepVGGAcc.Rtl.ImapBiu
import RepVGGAcc.Rtl.OmapBiu

/-! `icb_master.v`, the arbiter of the bus port, and its composition with the
three bus interface units it serves. -/

namespace RepVGGAcc

namespace IcbMaster

/-- `3'b000`, `3'b001`, `3'b010` and `3'b100`. -/
inductive Grant
  | none
  | omap
  | weight
  | imap
  deriving DecidableEq, Repr

structure State where
  state : Grant
  /-- The value the `nextstate` latch holds. -/
  nextstate : Grant
  deriving DecidableEq, Repr

structure Requests where
  weightBiu2arbReq : Bool
  imapBiu2arbReq : Bool
  omapBiu2arbReq : Bool
  deriving DecidableEq, Repr

def reset : State where
  state := .none
  nextstate := .none

def nextstate (s : State) (i : Requests) : Grant :=
  match s.state with
  | .none =>
      if i.omapBiu2arbReq then .omap
      else if i.weightBiu2arbReq then .weight
      else if i.imapBiu2arbReq then .imap
      else s.nextstate
  | .omap => if i.omapBiu2arbReq then .omap else .none
  | .weight => if i.weightBiu2arbReq then .weight else .none
  | .imap => if i.imapBiu2arbReq then .imap else .none

def step (s : State) (i : Requests) : State where
  state := nextstate s i
  nextstate := nextstate s i

/-- The ready of one unit. The port's `acc_icb_cmd_ready` is not consulted. -/
def rdy (s : State) (unit : Grant) : Bool :=
  s.state == unit

def accIcbRspReady (s : State) : Bool :=
  s.state == .omap || s.state == .weight || s.state == .imap

def rspVld (s : State) (unit : Grant) (accIcbRspValid : Bool) : Bool :=
  s.state == unit && accIcbRspValid && accIcbRspReady s

/-- The response data of one unit, whose own ready is constantly 1. -/
def rspData (s : State) (unit : Grant) (accIcbRspValid : Bool)
    (accIcbRspRdata : BitVec 32) : BitVec 32 :=
  if rspVld s unit accIcbRspValid then accIcbRspRdata else 0

end IcbMaster

/-! The arbiter with `weight_biu`, `imap_biu` and `omap_biu` attached. -/

namespace BusUnits

open IcbMaster (Grant)

structure State where
  icbMaster : IcbMaster.State
  weightBiu : WeightBiu.State
  imapBiu : ImapBiu.State
  omapBiu : OmapBiu.State

structure Input where
  weightStart : Bool
  weight3BaseAddr : BitVec 32
  weight1BaseAddr : BitVec 32
  weightOchCnt : Nat
  imapStart : Bool
  imapBaseAddr : BitVec 32
  omapBaseAddr : BitVec 32
  inChCnt : Bool
  mapMerger2omapBiuData : BitVec 32
  mapMerger2omapBiuVld : Bool
  accIcbCmdReady : Bool
  accIcbRspValid : Bool
  accIcbRspRdata : BitVec 32

structure IsReset (s : State) : Prop where
  icbMaster : s.icbMaster = IcbMaster.reset
  weightBiu : s.weightBiu = WeightBiu.reset
  imapBiu : s.imapBiu = ImapBiu.reset
  omapBiu : OmapBiu.IsReset s.omapBiu

def weightInput (s : State) (i : Input) : WeightBiu.Input where
  weightStart := i.weightStart
  weight3BaseAddr := i.weight3BaseAddr
  weight1BaseAddr := i.weight1BaseAddr
  weightOchCnt := i.weightOchCnt
  weightBiu2arbRdy := IcbMaster.rdy s.icbMaster .weight
  arb2weightBiuData :=
    IcbMaster.rspData s.icbMaster .weight i.accIcbRspValid i.accIcbRspRdata
  arb2weightBiuVld := IcbMaster.rspVld s.icbMaster .weight i.accIcbRspValid

def imapInput (s : State) (i : Input) : ImapBiu.Input where
  imapStart := i.imapStart
  imapBaseAddr := i.imapBaseAddr
  imapBiu2arbRdy := IcbMaster.rdy s.icbMaster .imap
  arb2imapBiuData :=
    IcbMaster.rspData s.icbMaster .imap i.accIcbRspValid i.accIcbRspRdata
  arb2imapBiuVld := IcbMaster.rspVld s.icbMaster .imap i.accIcbRspValid

def omapInput (s : State) (i : Input) : OmapBiu.Input where
  omapBaseAddr := i.omapBaseAddr
  inChCnt := i.inChCnt
  omapBiu2arbRdy := IcbMaster.rdy s.icbMaster .omap
  arb2omapBiuVld := IcbMaster.rspVld s.icbMaster .omap i.accIcbRspValid
  mapMerger2omapBiuData := i.mapMerger2omapBiuData
  mapMerger2omapBiuVld := i.mapMerger2omapBiuVld

def requests (s : State) : IcbMaster.Requests where
  weightBiu2arbReq := s.weightBiu.weightBiu2arbReq
  imapBiu2arbReq := s.imapBiu.imapBiu2arbReq
  omapBiu2arbReq := s.omapBiu.omapBiu2arbReq

def step (s : State) (i : Input) : State where
  icbMaster := IcbMaster.step s.icbMaster (requests s)
  weightBiu := WeightBiu.step s.weightBiu (weightInput s i)
  imapBiu := ImapBiu.step s.imapBiu (imapInput s i)
  omapBiu := OmapBiu.step s.omapBiu (omapInput s i)

def accIcbCmdValid (s : State) : Bool :=
  match s.icbMaster.state with
  | .omap => IcbMaster.rdy s.icbMaster .omap && OmapBiu.omapBiu2arbVld s.omapBiu
  | .weight => s.weightBiu.weightBiu2arbVld && IcbMaster.rdy s.icbMaster .weight
  | .imap => s.imapBiu.imapBiu2arbVld && IcbMaster.rdy s.icbMaster .imap
  | .none => false

def accIcbCmdAddr (s : State) (i : Input) : BitVec 32 :=
  match s.icbMaster.state with
  | .omap => OmapBiu.omapBiu2arbAddr s.omapBiu i.omapBaseAddr
  | .weight => s.weightBiu.weightBiu2arbAddr
  | .imap => s.imapBiu.imapBiu2arbAddr
  | .none => 0

def accIcbCmdRead (s : State) : Bool :=
  s.icbMaster.state == .weight || s.icbMaster.state == .imap

def accIcbCmdWdata (s : State) : BitVec 32 :=
  if s.icbMaster.state = .omap then OmapBiu.omapBiu2arbData s.omapBiu else 0

/-- What the bus port shows of a command: `acc_icb_cmd_addr`, `_read` and
`_wdata`. -/
structure Command where
  addr : BitVec 32
  read : Bool
  wdata : BitVec 32
  deriving DecidableEq, Repr

def command (s : State) (i : Input) : Command where
  addr := accIcbCmdAddr s i
  read := accIcbCmdRead s
  wdata := accIcbCmdWdata s

end BusUnits

end RepVGGAcc
