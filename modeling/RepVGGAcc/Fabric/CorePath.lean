import RepVGGAcc.Fabric.E203Biu
import RepVGGAcc.Fabric.E203Subsys
import Mathlib.Data.Fin.VecNotation

/-! The paths from the LSU and the IFU of the core: the bus interface, the bus of the
peripherals from `e203_subsys_perips.v`, with the registers of the accelerator behind it, and
the memory path. -/

namespace RepVGGAcc

open Clocked

namespace E203SubsysPerips

open SirvIcb1toNBus (Region)

/-- `u_sirv_ppi_fab`: AON, HCLKGEN, GPIOA, UART0, QSPI0, PWM, UART1, QSPI1, I2C0, UART2,
QSPI2, I2C1, SysPer, GPIOB, Example-AXI and the registers of the accelerator. -/
def regions : Fin 16 → Region :=
  ![
    { baseAddr := 0x10000000, baseRegionLsb := 15, enable := true },
    { baseAddr := 0x10008000, baseRegionLsb := 12, enable := true },
    { baseAddr := 0x10012000, baseRegionLsb := 12, enable := true },
    { baseAddr := 0x10013000, baseRegionLsb := 12, enable := true },
    { baseAddr := 0x10014000, baseRegionLsb := 12, enable := true },
    { baseAddr := 0x10015000, baseRegionLsb := 12, enable := true },
    { baseAddr := 0x10023000, baseRegionLsb := 12, enable := true },
    { baseAddr := 0x10024000, baseRegionLsb := 12, enable := true },
    { baseAddr := 0x10025000, baseRegionLsb := 12, enable := true },
    { baseAddr := 0x10033000, baseRegionLsb := 12, enable := true },
    { baseAddr := 0x10034000, baseRegionLsb := 12, enable := true },
    { baseAddr := 0x10035000, baseRegionLsb := 12, enable := true },
    { baseAddr := 0x11000000, baseRegionLsb := 24, enable := true },
    { baseAddr := 0x10040000, baseRegionLsb := 12, enable := true },
    { baseAddr := 0x10041000, baseRegionLsb := 12, enable := true },
    { baseAddr := 0x10042000, baseRegionLsb := 12, enable := true }]

/-- `SPLT_FIFO_OUTS_NUM = 1` and `SPLT_FIFO_CUT_READY = 1`. -/
def spltFifo : QueueCircuit (BitVec 17) :=
  SirvGnrlPipeStage.cutCircuit (BitVec 17)

abbrev State := SirvIcb1toNBus.State 2 spltFifo

variable (s : State)

def oIcb (k : Fin 16) : IcbDown :=
  SirvIcb1toNBus.oIcb regions spltFifo s k

def accCfgIcb : IcbDown :=
  oIcb s 15

/-- What the peripherals in front of the accelerator drive, and the accelerator. -/
def oIcbUp (perips : Fin 15 → IcbUp) (accCfg : IcbUp) : Fin 16 → IcbUp :=
  Fin.snoc perips accCfg

def iIcb : IcbUp :=
  SirvIcb1toNBus.iIcb spltFifo s

def step (i : IcbDown) (o : Fin 16 → IcbUp) : State :=
  SirvIcb1toNBus.step regions spltFifo s i o

end E203SubsysPerips

/-- The port of the registers, towards the bus. `icb_rsp_err` is 0. -/
def IcbSlave.portUp (s : IcbSlave.State) : IcbUp where
  cmdReady := s.icbCmdReady
  rspValid := s.icbRspValid
  rsp := { err := false, rdata := s.icbRspRdata }

namespace CorePath

structure State where
  biu : E203Biu.State
  perips : E203SubsysPerips.State
  main : E203SubsysMain.State

structure Input where
  core : Fin 2 → IcbDown
  fio : IcbUp
  plic : IcbUp
  clint : IcbUp
  perips : Fin 15 → IcbUp
  mems : E203SubsysMems.Outside

structure IsReset (s : State) : Prop where
  biu : E203Biu.IsReset s.biu
  perips : SirvIcb1toNBus.IsReset s.perips
  main : E203SubsysMain.IsReset s.main

variable (s : State) (i : Input)

def mainInput : E203SubsysMain.Input where
  accCfgIcb := E203SubsysPerips.accCfgIcb s.perips
  cpuMemIcb := E203Biu.oIcb s.biu E203Biu.mem
  outside := i.mems

def peripsUp : Fin 16 → IcbUp :=
  E203SubsysPerips.oIcbUp i.perips (IcbSlave.portUp s.main.acc.icbSlave)

def biuUp : Fin 6 → IcbUp
  | 0 => MemPath.arbtBusIcb s.main.path (E203SubsysMain.arbtBus s.main (mainInput s i))
      ⟨1, Nat.one_lt_two⟩
  | 1 => i.fio
  | 2 => i.plic
  | 3 => i.clint
  | 4 => E203SubsysPerips.iIcb s.perips
  | 5 => E203Biu.ifuerrIcbUp s.biu

def coreIcb (k : Fin 2) : IcbUp :=
  E203Biu.iIcb s.biu i.core k

def step : State where
  biu := E203Biu.step s.biu i.core (biuUp s i)
  perips := E203SubsysPerips.step s.perips (E203Biu.oIcb s.biu E203Biu.ppi) (peripsUp s i)
  main := E203SubsysMain.step s.main (mainInput s i)

end CorePath

end RepVGGAcc
