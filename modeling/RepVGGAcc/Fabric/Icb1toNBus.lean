import RepVGGAcc.Fabric.Fifo
import RepVGGAcc.Fabric.GnrlIcbs
import Mathlib.Logic.Equiv.Fin.Basic
import Mathlib.Logic.Equiv.Option

/-! `sirv_icb1to8_bus.v` and `sirv_icb1to16_bus.v`, which differ in the number `n` of their
outputs only, with `ICB_FIFO_DP` not 0 and `ICB_FIFO_CUT_READY = 1`. The FIFO of the splitter
is a parameter. -/

namespace RepVGGAcc

open Clocked

namespace SirvIcb1toNBus

/-- `Ok_BASE_ADDR`, `Ok_BASE_REGION_LSB` and `ok_icb_enable`. -/
structure Region where
  baseAddr : BitVec 32
  baseRegionLsb : Nat
  enable : Bool

variable {n dp : Nat}

structure State (dp : Nat) (fifo : QueueCircuit (BitVec (n + 1))) where
  buffer : SirvGnrlIcbBuffer.State dp dp
  splt : fifo.State

structure IsReset {fifo : QueueCircuit (BitVec (n + 1))} (s : State dp fifo) : Prop where
  cmdFifo : SirvGnrlFifo.IsReset s.buffer.cmdFifo
  rspFifo : SirvGnrlFifo.IsReset s.buffer.rspFifo
  splt : fifo.IsReset s.splt

/-- `{o0, o1, ..., deft}`, from the last one on. -/
def concat {α : Type} (o : Fin n → α) (deft : α) : Fin (n + 1) → α :=
  Fin.cons deft fun j => o j.rev

def selects (regions : Fin n → Region) (addr : BitVec 32) (k : Fin n) : Bool :=
  addr >>> (regions k).baseRegionLsb ==
    (regions k).baseAddr >>> (regions k).baseRegionLsb && (regions k).enable

/-- `icb_cmd_ok`. -/
def icbCmdO (regions : Fin n → Region) (buf : IcbDown) (k : Fin n) : Bool :=
  buf.cmdValid && selects regions buf.cmd.addr k

def icbCmdDeft (regions : Fin n → Region) (buf : IcbDown) : Bool :=
  !(List.finRange n).any (icbCmdO regions buf)

def bufIcbSpltIndic (regions : Fin n → Region) (buf : IcbDown) : BitVec (n + 1) :=
  bits (concat (icbCmdO regions buf) (icbCmdDeft regions buf))

/-- The default slave: a response with an error, in the cycle of the command. -/
def deftIcb (down : IcbDown) : IcbUp where
  cmdReady := down.rspReady
  rspValid := down.cmdValid
  rsp := { err := true, rdata := 0 }

variable (regions : Fin n → Region) (fifo : QueueCircuit (BitVec (n + 1))) (s : State dp fifo)
  (i : IcbDown) (o : Fin n → IcbUp)

def bufIcb : IcbDown :=
  SirvGnrlIcbBuffer.oIcb s.buffer

def spltIcb (k : Fin (n + 1)) : IcbDown :=
  SirvGnrlIcbSplt.oIcb fifo s.splt (bufIcbSpltIndic regions (bufIcb fifo s)) (bufIcb fifo s) k

def oIcb (k : Fin n) : IcbDown :=
  spltIcb regions fifo s k.rev.succ

def spltBusIcb : Fin (n + 1) → IcbUp :=
  concat o (deftIcb (spltIcb regions fifo s 0))

def bufIcbUp : IcbUp :=
  SirvGnrlIcbSplt.iIcb fifo s.splt (bufIcbSpltIndic regions (bufIcb fifo s))
    (spltBusIcb regions fifo s o)

def iIcb : IcbUp :=
  SirvGnrlIcbBuffer.iIcb s.buffer

def step : State dp fifo where
  buffer := SirvGnrlIcbBuffer.step s.buffer i (bufIcbUp regions fifo s o)
  splt := SirvGnrlIcbSplt.step fifo s.splt (bufIcbSpltIndic regions (bufIcb fifo s))
    (bufIcb fifo s) (spltBusIcb regions fifo s o)

end SirvIcb1toNBus

end RepVGGAcc
