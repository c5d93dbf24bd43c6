import RepVGGAcc.Fabric.GnrlIcbs

/-! `sirv_sram_icb_ctrl.v`, `sirv_1cyc_sram_ctrl.v` and `sirv_sim_ram.v`, as
`e203_subsys_mems.v` instantiates them: the SRAM of 32-bit words on the memory bus. -/

namespace RepVGGAcc

open Clocked

/-! `sirv_sim_ram` with `AW = 21`, `DW = 32` and `MW = 4`. -/

namespace SubsysRam

structure State where
  memR : BitVec 21 → BitVec 32
  addrR : BitVec 21

structure Input where
  cs : Bool
  we : Bool
  wem : BitVec 4
  addr : BitVec 21
  din : BitVec 32

/-- One bit for each bit of the word, set where the byte's write mask is. -/
def byteMask (wem : BitVec 4) : BitVec 32 :=
  let byte := fun k => BitVec.fill 8 (wem.getLsbD k)
  byte 3 ++ byte 2 ++ byte 1 ++ byte 0

def step (s : State) (i : Input) : State where
  memR := fun a =>
    if i.cs && i.we && a == i.addr then
      (i.din &&& byteMask i.wem) ||| (s.memR a &&& ~~~byteMask i.wem)
    else
      s.memR a
  addrR := if i.cs && !i.we then i.addr else s.addrR

def dout (s : State) : BitVec 32 :=
  s.memR s.addrR

end SubsysRam

/-! `sirv_sram_icb_ctrl` with `AW_LSB = 2`, the RAM attached. The pipe stage of
`sirv_1cyc_sram_ctrl` carries no data but the user bit, which is tied to 0. -/

namespace SirvSramIcbCtrl

structure State where
  bypBuf : SirvGnrlFifo.State 1 69
  e1Stage : SirvGnrlPipeStage.State Unit
  ram : SubsysRam.State

/-- A state after `rst_n`. The RAM has no reset. -/
structure IsReset (s : State) : Prop where
  bypBuf : SirvGnrlFifo.IsReset s.bypBuf
  e1Stage : s.e1Stage.vldR = false

def reset : State where
  bypBuf := SirvGnrlFifo.reset
  e1Stage := { vldR := false, datR := () }
  ram := { memR := fun _ => 0, addrR := 0 }

theorem isReset_reset : IsReset reset :=
  ⟨SirvGnrlFifo.isReset_reset, rfl⟩

variable (s : State) (i : IcbDown)

def bypIcbCmdValid : Bool :=
  SirvGnrlBypbuf.oVld s.bypBuf i.cmdValid

def bypIcbCmd : IcbCmd :=
  IcbCmd.unpack (SirvGnrlBypbuf.oDat s.bypBuf i.cmd.pack)

def bypIcbCmdReady : Bool :=
  SirvGnrlPipeStage.iRdy s.e1Stage i.rspReady

/-- `sram_addr[20:0]` of a command: its address without the two lowest bits. -/
def ramAddr (c : IcbCmd) : BitVec 21 :=
  c.addr.extractLsb' 2 21

def ramInput : SubsysRam.Input where
  cs := bypIcbCmdValid s i && bypIcbCmdReady s i
  we := !(bypIcbCmd s i).read
  wem := (bypIcbCmd s i).wmask
  addr := ramAddr (bypIcbCmd s i)
  din := (bypIcbCmd s i).wdata

/-- `sram_icb_rsp_err` is tied to 0. The ready of the bypass buffer does not depend on the
other side. -/
def iIcb : IcbUp where
  cmdReady := SirvGnrlBypbuf.iRdy s.bypBuf false
  rspValid := s.e1Stage.vldR
  rsp := { err := false, rdata := SubsysRam.dout s.ram }

def step : State where
  bypBuf := SirvGnrlBypbuf.step s.bypBuf i.cmdValid i.cmd.pack (bypIcbCmdReady s i)
  e1Stage := SirvGnrlPipeStage.step s.e1Stage (bypIcbCmdValid s i) () i.rspReady
  ram := SubsysRam.step s.ram (ramInput s i)

end SirvSramIcbCtrl

end RepVGGAcc
