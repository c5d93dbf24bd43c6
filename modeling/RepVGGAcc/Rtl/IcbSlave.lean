import RepVGGAcc.Rtl.GnrlModules

/-! `icb_slave.v`: the register file the driver programs. The byte mask of a
command is not read, and no command fails. -/

namespace RepVGGAcc.IcbSlave

/-! The register addresses. -/

def inAddrAddr : BitVec 12 := 0x000
def w3AddrAddr : BitVec 12 := 0x4
def w1AddrAddr : BitVec 12 := 0x8
def outAddrAddr : BitVec 12 := 0xc
def startAddr : BitVec 12 := 0x10
def mapsizeAddr : BitVec 12 := 0x14
def ichAddr : BitVec 12 := 0x18
def ochAddr : BitVec 12 := 0x1c
def doneAddr : BitVec 12 := 0x20

structure State where
  icbCmdReady : Bool
  icbRspValid : Bool
  icbRspRdata : BitVec 32
  inAddr : BitVec 32
  w3Addr : BitVec 32
  w1Addr : BitVec 32
  outAddr : BitVec 32
  start : BitVec 32
  mapsize : BitVec 32
  ich : BitVec 32
  och : BitVec 32
  done : BitVec 32
  deriving DecidableEq, Repr

structure Input where
  icbCmdValid : Bool
  icbCmdRead : Bool
  icbCmdAddr : BitVec 32
  icbCmdWdata : BitVec 32
  icbRspReady : Bool
  accDone : Bool
  deriving DecidableEq, Repr

def reset : State where
  icbCmdReady := false
  icbRspValid := false
  icbRspRdata := 0
  inAddr := 0
  w3Addr := 0
  w1Addr := 0
  outAddr := 0
  start := 0
  mapsize := 0
  ich := 0
  och := 0
  done := 0

def hdshk (s : State) (i : Input) : Bool :=
  i.icbCmdValid && s.icbCmdReady

/-- `icb_cmd_addr[11:0]` -/
def regAddr (i : Input) : BitVec 12 :=
  i.icbCmdAddr.extractLsb' 0 12

def writes (s : State) (i : Input) (reg : BitVec 12) : Bool :=
  hdshk s i && !i.icbCmdRead && regAddr i == reg

/-- The next content of a register that only the driver writes. -/
def written (s : State) (i : Input) (reg : BitVec 12) (q : BitVec 32) : BitVec 32 :=
  if writes s i reg then i.icbCmdWdata else q

/-- The register a read returns; an address outside the map keeps the previous
read data. -/
def readData (s : State) (reg : BitVec 12) : BitVec 32 :=
  if reg = inAddrAddr then s.inAddr
  else if reg = w3AddrAddr then s.w3Addr
  else if reg = w1AddrAddr then s.w1Addr
  else if reg = outAddrAddr then s.outAddr
  else if reg = startAddr then s.start
  else if reg = mapsizeAddr then s.mapsize
  else if reg = ichAddr then s.ich
  else if reg = ochAddr then s.och
  else if reg = doneAddr then s.done
  else s.icbRspRdata

def step (s : State) (i : Input) : State where
  icbCmdReady :=
    if hdshk s i then false else if i.icbCmdValid then true else s.icbCmdReady
  icbRspValid :=
    if hdshk s i then true
    else if s.icbRspValid && i.icbRspReady then false
    else s.icbRspValid
  icbRspRdata :=
    if hdshk s i && i.icbCmdRead then readData s (regAddr i) else 0
  inAddr := written s i inAddrAddr s.inAddr
  w3Addr := written s i w3AddrAddr s.w3Addr
  w1Addr := written s i w1AddrAddr s.w1Addr
  outAddr := written s i outAddrAddr s.outAddr
  start :=
    if writes s i startAddr then i.icbCmdWdata
    else if s.start = 1 then 0
    else s.start
  mapsize := written s i mapsizeAddr s.mapsize
  ich := written s i ichAddr s.ich
  och := written s i ochAddr s.och
  done :=
    if writes s i doneAddr then i.icbCmdWdata
    else if i.accDone then 1
    else s.done

end RepVGGAcc.IcbSlave
