import RepVGGAcc.Fabric.Icb1toNBus

/-! `e203_biu.v` with `E203_HAS_MEM_ITF` and `E203_HAS_FIO`: the bus interface of the core.
An arbiter, a buffer and a splitter with one command outstanding in each of them. Port 0 of
the arbiter is that of the LSU, which takes the higher priority, port 1 that of the IFU. -/

namespace RepVGGAcc

open Clocked

namespace E203Biu

open SirvIcb1toNBus (Region selects)

/-- The regions of fio, plic, clint and ppi, all of them enabled. -/
def regions : Fin 4 → Region
  | 0 => { baseAddr := 0xf0000000, baseRegionLsb := 28, enable := true }
  | 1 => { baseAddr := 0x0c000000, baseRegionLsb := 24, enable := true }
  | 2 => { baseAddr := 0x02000000, baseRegionLsb := 16, enable := true }
  | 3 => { baseAddr := 0x10000000, baseRegionLsb := 28, enable := true }

/-- A command with its `usr`, which tells a fetch of the IFU. -/
structure UsrCmd where
  cmd : IcbCmd
  usr : Bool
  deriving DecidableEq

namespace UsrCmd

def pack (c : UsrCmd) : BitVec 70 :=
  c.cmd.pack ++ BitVec.ofBool c.usr

def unpack (dat : BitVec 70) : UsrCmd where
  cmd := IcbCmd.unpack (dat.extractLsb' 1 69)
  usr := dat.getLsbD 0

theorem unpack_pack (c : UsrCmd) : unpack c.pack = c := by
  obtain ⟨cmd, usr⟩ := c
  unfold unpack pack
  congr 1
  · rw [BitVec.extractLsb'_append_eq_left, IcbCmd.unpack_pack]
  · rw [BitVec.getLsbD_append, if_pos (by decide), BitVec.getLsbD_ofBool]
    rfl

end UsrCmd

/-- `FIFO_OUTS_NUM = 1` of the arbiter. -/
def arbtFifo : QueueCircuit (BitVec 1) :=
  SirvGnrlPipeStage.cutCircuit (BitVec 1)

/-- `FIFO_OUTS_NUM = 1` of the splitter. -/
def spltFifo : QueueCircuit (BitVec 6) :=
  SirvGnrlPipeStage.cutCircuit (BitVec 6)

/-! The ports of the splitter. -/

theorem mem_lt : 0 < 6 := by decide
theorem fio_lt : 1 < 6 := by decide
theorem plic_lt : 2 < 6 := by decide
theorem clint_lt : 3 < 6 := by decide
theorem ppi_lt : 4 < 6 := by decide
theorem ifuerr_lt : 5 < 6 := by decide

def mem : Fin 6 := ⟨0, mem_lt⟩
def fio : Fin 6 := ⟨1, fio_lt⟩
def plic : Fin 6 := ⟨2, plic_lt⟩
def clint : Fin 6 := ⟨3, clint_lt⟩
def ppi : Fin 6 := ⟨4, ppi_lt⟩
def ifuerr : Fin 6 := ⟨5, ifuerr_lt⟩

structure State where
  arbt : arbtFifo.State
  cmdFifo : SirvGnrlFifo.State 1 70
  rspFifo : SirvGnrlFifo.State 1 33
  splt : spltFifo.State

structure IsReset (s : State) : Prop where
  arbt : arbtFifo.IsReset s.arbt
  cmdFifo : SirvGnrlFifo.IsReset s.cmdFifo
  rspFifo : SirvGnrlFifo.IsReset s.rspFifo
  splt : spltFifo.IsReset s.splt

variable (s : State) (i : Fin 2 → IcbDown) (o : Fin 6 → IcbUp)

def arbtIcbUp : IcbUp where
  cmdReady := SirvGnrlFifo.iRdy true s.cmdFifo false
  rspValid := SirvGnrlFifo.oVld s.rspFifo
  rsp := IcbRsp.unpack (SirvGnrlFifo.oDat s.rspFifo)

def arbtIcb : IcbDown :=
  SirvGnrlIcbArbt.oIcb arbtFifo s.arbt i (arbtIcbUp s)

/-- `arbt_icb_cmd_usr`: the IFU drives 1 and the LSU 0. -/
def arbtIcbCmdUsr : Bool :=
  anyMux (SirvGnrlIcbArbt.iBusIcbCmdSel i) fun k => decide (k.val = 1)

def iIcb (k : Fin 2) : IcbUp :=
  SirvGnrlIcbArbt.iIcb arbtFifo s.arbt i (arbtIcbUp s) k

def bufCmd : UsrCmd :=
  UsrCmd.unpack (SirvGnrlFifo.oDat s.cmdFifo)

def bufIcb : IcbDown where
  cmdValid := SirvGnrlFifo.oVld s.cmdFifo
  cmd := (bufCmd s).cmd
  rspReady := SirvGnrlFifo.iRdy true s.rspFifo false

/-- `buf_icb_cmd_fio` and its like. -/
def bufIcbCmd (c : UsrCmd) (k : Fin 4) : Bool :=
  selects regions c.cmd.addr k

def bufIcbSel (c : UsrCmd) (k : Fin 4) : Bool :=
  bufIcbCmd c k && !c.usr

def bufIcbSelIfuerr (c : UsrCmd) : Bool :=
  (List.finRange 4).any (bufIcbCmd c) && c.usr

def bufIcbSelMem (c : UsrCmd) : Bool :=
  !bufIcbSelIfuerr c && !(List.finRange 4).any (bufIcbSel c)

def bufIcbSpltIndic (c : UsrCmd) : BitVec 6 :=
  bits (Fin.cons (bufIcbSelMem c) (Fin.snoc (bufIcbSel c) (bufIcbSelIfuerr c)))

/-- `VLD_MSK_PAYLOAD = 0`: the command is not masked. -/
def oIcb (k : Fin 6) : IcbDown :=
  { SirvGnrlIcbSplt.oIcb spltFifo s.splt (bufIcbSpltIndic (bufCmd s)) (bufIcb s) k with
    cmd := (bufIcb s).cmd }

def bufIcbUp : IcbUp :=
  SirvGnrlIcbSplt.iIcb spltFifo s.splt (bufIcbSpltIndic (bufCmd s)) o

/-- A fetch from the region of a peripheral gets an error, like a command to the default slave
of a bus. -/
def ifuerrIcbUp : IcbUp :=
  SirvIcb1toNBus.deftIcb (oIcb s ifuerr)

def step : State where
  arbt := SirvGnrlIcbArbt.step arbtFifo s.arbt i (arbtIcbUp s)
  cmdFifo := SirvGnrlFifo.step true s.cmdFifo (arbtIcb s i).cmdValid
    (UsrCmd.pack { cmd := (arbtIcb s i).cmd, usr := arbtIcbCmdUsr i }) (bufIcbUp s o).cmdReady
  rspFifo := SirvGnrlFifo.step true s.rspFifo (bufIcbUp s o).rspValid
    (bufIcbUp s o).rsp.pack (arbtIcb s i).rspReady
  splt := SirvGnrlIcbSplt.step spltFifo s.splt (bufIcbSpltIndic (bufCmd s)) (bufIcb s) o

end E203Biu

end RepVGGAcc
