import RepVGGAcc.Fabric.Icb1toNBus
import RepVGGAcc.Fabric.SramIcbCtrl
import RepVGGAcc.Rtl.RepvggAccTop

/-! `e203_subsys_mems.v`, and from `e203_subsys_main.v` the accelerator, the arbiter behind it
and the memory subsystem. The core and the slaves other than the SRAM are outside. -/

namespace RepVGGAcc

open Clocked

namespace E203SubsysMems

open SirvIcb1toNBus (Region)

/-- `u_sirv_mem_fab`: DM, MROM, an output that is not used, QSPI0-RO, SysMem, SRAM and two
more that are not used. -/
def regions : Fin 8 → Region
  | 0 => { baseAddr := 0x00000000, baseRegionLsb := 12, enable := true }
  | 1 => { baseAddr := 0x00001000, baseRegionLsb := 12, enable := true }
  | 2 => { baseAddr := 0x00020000, baseRegionLsb := 17, enable := false }
  | 3 => { baseAddr := 0x20000000, baseRegionLsb := 29, enable := true }
  | 4 => { baseAddr := 0x80000000, baseRegionLsb := 31, enable := true }
  | 5 => { baseAddr := 0x40000000, baseRegionLsb := 21, enable := true }
  | 6 => { baseAddr := 0x00000000, baseRegionLsb := 0, enable := false }
  | 7 => { baseAddr := 0x00000000, baseRegionLsb := 0, enable := false }

theorem outs_pos : 0 < 8 := by decide

/-- `SPLT_FIFO_OUTS_NUM = 8`. -/
def spltFifo : QueueCircuit (BitVec 9) :=
  SirvGnrlFifo.circuit 8 9 outs_pos true

structure State where
  memFab : SirvIcb1toNBus.State 2 spltFifo
  sram : SirvSramIcbCtrl.State

structure Outside where
  dm : IcbUp
  mrom : IcbUp
  qspi0Ro : IcbUp
  sysmem : IcbUp

structure IsReset (s : State) : Prop where
  memFab : SirvIcb1toNBus.IsReset s.memFab
  sram : SirvSramIcbCtrl.IsReset s.sram

def oIcb (s : State) (k : Fin 8) : IcbDown :=
  SirvIcb1toNBus.oIcb regions spltFifo s.memFab k

def sramIcb (s : State) : IcbDown :=
  oIcb s 5

def notUsed : IcbUp where
  cmdReady := false
  rspValid := false
  rsp := { err := false, rdata := 0 }

/-- `dm_icb_rsp_err` is tied to 0. -/
def oIcbUp (s : State) (out : Outside) : Fin 8 → IcbUp
  | 0 => { out.dm with rsp := { err := false, rdata := out.dm.rsp.rdata } }
  | 1 => out.mrom
  | 3 => out.qspi0Ro
  | 4 => out.sysmem
  | 5 => SirvSramIcbCtrl.iIcb s.sram
  | _ => notUsed

def iIcb (s : State) : IcbUp :=
  SirvIcb1toNBus.iIcb spltFifo s.memFab

def step (s : State) (i : IcbDown) (out : Outside) : State where
  memFab := SirvIcb1toNBus.step regions spltFifo s.memFab i (oIcbUp s out)
  sram := SirvSramIcbCtrl.step s.sram (sramIcb s)

end E203SubsysMems

/-! The arbiter `u_biu_icb_arbt` and the memory subsystem. Port 0 is that of the accelerator,
which takes the higher priority, port 1 that of the core. -/

namespace MemPath

/-- `FIFO_OUTS_NUM = 8`. -/
def rspidFifo : QueueCircuit (BitVec 1) :=
  SirvGnrlFifo.circuit 8 1 E203SubsysMems.outs_pos true

structure State where
  arbt : rspidFifo.State
  mems : E203SubsysMems.State

structure IsReset (s : State) : Prop where
  arbt : rspidFifo.IsReset s.arbt
  mems : E203SubsysMems.IsReset s.mems

/-- The state after `rst_n` with a cleared SRAM. -/
def reset : State where
  arbt := (SirvGnrlFifo.reset : SirvGnrlFifo.State 8 1)
  mems := {
    memFab := {
      buffer := { cmdFifo := SirvGnrlFifo.reset, rspFifo := SirvGnrlFifo.reset }
      splt := (SirvGnrlFifo.reset : SirvGnrlFifo.State 8 9) }
    sram := SirvSramIcbCtrl.reset }

theorem isReset_reset : IsReset reset where
  arbt := SirvGnrlFifo.isReset_reset
  mems := {
    memFab := ⟨SirvGnrlFifo.isReset_reset, SirvGnrlFifo.isReset_reset,
      SirvGnrlFifo.isReset_reset⟩
    sram := SirvSramIcbCtrl.isReset_reset }

variable (s : State) (i : Fin 2 → IcbDown)

def memIcb : IcbDown :=
  SirvGnrlIcbArbt.oIcb rspidFifo s.arbt i (E203SubsysMems.iIcb s.mems)

def arbtBusIcb (k : Fin 2) : IcbUp :=
  SirvGnrlIcbArbt.iIcb rspidFifo s.arbt i (E203SubsysMems.iIcb s.mems) k

def step (out : E203SubsysMems.Outside) : State where
  arbt := SirvGnrlIcbArbt.step rspidFifo s.arbt i (E203SubsysMems.iIcb s.mems)
  mems := E203SubsysMems.step s.mems (memIcb s i) out

end MemPath

/-! The accelerator on port 0 of the memory path. -/

namespace E203SubsysMain

structure State where
  acc : RepvggAccTop.State
  path : MemPath.State

structure Input where
  accCfgIcb : IcbDown
  cpuMemIcb : IcbDown
  outside : E203SubsysMems.Outside

structure IsReset (s : State) : Prop where
  acc : RepvggAccTop.IsReset s.acc
  path : MemPath.IsReset s.path

def accInput (cfg : IcbDown) (mem : IcbUp) : RepvggAccTop.Input where
  icbCmdValid := cfg.cmdValid
  icbCmdRead := cfg.cmd.read
  icbCmdAddr := cfg.cmd.addr
  icbCmdWdata := cfg.cmd.wdata
  icbRspReady := cfg.rspReady
  accIcbCmdReady := mem.cmdReady
  accIcbRspValid := mem.rspValid
  accIcbRspRdata := mem.rsp.rdata

/-- The command of the accelerator does not depend on its inputs. -/
def accCommand (acc : RepvggAccTop.State) (cfg : IcbDown) : BusUnits.Command :=
  RepvggAccTop.command acc (accInput cfg E203SubsysMems.notUsed)

/-- `acc_icb_cmd_wmask` is `4'b1111` in the state `3'b001` of `icb_master` and 0 else. -/
def accMemIcb (acc : RepvggAccTop.State) (cfg : IcbDown) : IcbDown where
  cmdValid := BusUnits.accIcbCmdValid acc.bus
  cmd := {
    read := (accCommand acc cfg).read
    addr := (accCommand acc cfg).addr
    wdata := (accCommand acc cfg).wdata
    wmask := if acc.bus.icbMaster.state = .omap then 0xf else 0 }
  rspReady := IcbMaster.accIcbRspReady acc.bus.icbMaster

def arbtBus (s : State) (i : Input) : Fin 2 → IcbDown
  | 0 => accMemIcb s.acc i.accCfgIcb
  | 1 => i.cpuMemIcb

def topInput (s : State) (i : Input) : RepvggAccTop.Input :=
  accInput i.accCfgIcb (MemPath.arbtBusIcb s.path (arbtBus s i) ⟨0, Nat.two_pos⟩)

def step (s : State) (i : Input) : State where
  acc := RepvggAccTop.step s.acc (topInput s i)
  path := MemPath.step s.path (arbtBus s i) i.outside

end E203SubsysMain

end RepVGGAcc
