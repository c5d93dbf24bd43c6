import RepVGGAcc.Clocked.Queue
import RepVGGAcc.Fabric.GnrlBufs

/-! `sirv_gnrl_icbs.v`: the arbiter, the buffer and the splitter of the ICB bus, with
addresses and data of 32 bits. -/

namespace RepVGGAcc

open Clocked

structure IcbCmd where
  read : Bool
  addr : BitVec 32
  wdata : BitVec 32
  wmask : BitVec 4
  deriving DecidableEq

structure IcbRsp where
  err : Bool
  rdata : BitVec 32
  deriving DecidableEq

namespace IcbCmd

/-- `cmd_fifo_i_dat`. -/
def pack (c : IcbCmd) : BitVec 69 :=
  BitVec.ofBool c.read ++ c.addr ++ c.wdata ++ c.wmask

def unpack (dat : BitVec 69) : IcbCmd where
  read := dat.getLsbD 68
  addr := dat.extractLsb' 36 32
  wdata := dat.extractLsb' 4 32
  wmask := dat.extractLsb' 0 4

theorem unpack_pack (c : IcbCmd) : unpack c.pack = c := by
  obtain ⟨read, addr, wdata, wmask⟩ := c
  unfold unpack pack
  congr 1
  · rw [BitVec.getLsbD_append, if_neg (by decide), BitVec.getLsbD_append, if_neg (by decide),
      BitVec.getLsbD_append, if_neg (by decide), BitVec.getLsbD_ofBool]
    rfl
  · rw [BitVec.extractLsb'_append_eq_of_le (by decide),
      BitVec.extractLsb'_append_eq_of_le (by decide), BitVec.extractLsb'_append_eq_right]
  · rw [BitVec.extractLsb'_append_eq_of_le (by decide), BitVec.extractLsb'_append_eq_right]
  · rw [BitVec.extractLsb'_append_eq_right]

/-- The multiplexers `sel_o_icb_cmd_*`. -/
def mux (sel : Fin n → Bool) (c : Fin n → IcbCmd) : IcbCmd where
  read := anyMux sel fun j => (c j).read
  addr := orMux sel fun j => (c j).addr
  wdata := orMux sel fun j => (c j).wdata
  wmask := orMux sel fun j => (c j).wmask

theorem mux_eq {sel : Fin n → Bool} {k : Fin n} (only : ∀ j, sel j = decide (j = k))
    (c : Fin n → IcbCmd) : mux sel c = c k := by
  unfold mux
  rw [anyMux_eq only, orMux_eq only, orMux_eq only, orMux_eq only]

/-- `vld_msk_payload`. -/
def mask (vld : Bool) (c : IcbCmd) : IcbCmd where
  read := vld && c.read
  addr := BitVec.fill 32 vld &&& c.addr
  wdata := BitVec.fill 32 vld &&& c.wdata
  wmask := BitVec.fill 4 vld &&& c.wmask

@[simp] theorem mask_true (c : IcbCmd) : c.mask true = c := by
  have all32 : BitVec.fill 32 true = BitVec.allOnes 32 := rfl
  have all4 : BitVec.fill 4 true = BitVec.allOnes 4 := rfl
  unfold mask
  rw [all32, all4, BitVec.allOnes_and, BitVec.allOnes_and, BitVec.allOnes_and, Bool.true_and]

end IcbCmd

namespace IcbRsp

def pack (r : IcbRsp) : BitVec 33 :=
  BitVec.ofBool r.err ++ r.rdata

def unpack (dat : BitVec 33) : IcbRsp where
  err := dat.getLsbD 32
  rdata := dat.extractLsb' 0 32

theorem unpack_pack (r : IcbRsp) : unpack r.pack = r := by
  obtain ⟨err, rdata⟩ := r
  unfold unpack pack
  congr 1
  · rw [BitVec.getLsbD_append, if_neg (by decide), BitVec.getLsbD_ofBool]
    rfl
  · rw [BitVec.extractLsb'_append_eq_right]

def mux (sel : Fin n → Bool) (r : Fin n → IcbRsp) : IcbRsp where
  err := anyMux sel fun j => (r j).err
  rdata := orMux sel fun j => (r j).rdata

theorem mux_eq {sel : Fin n → Bool} {k : Fin n} (only : ∀ j, sel j = decide (j = k))
    (r : Fin n → IcbRsp) : mux sel r = r k := by
  unfold mux
  rw [anyMux_eq only, orMux_eq only]

end IcbRsp

/-- What a master drives: the command channel and `rsp_ready`. -/
structure IcbDown where
  cmdValid : Bool
  cmd : IcbCmd
  rspReady : Bool

/-- What a slave drives: `cmd_ready` and the response channel. -/
structure IcbUp where
  cmdReady : Bool
  rspValid : Bool
  rsp : IcbRsp

def icbCmd (down : IcbDown) (up : IcbUp) : Option IcbCmd :=
  handshake down.cmdValid up.cmdReady down.cmd

def icbRsp (down : IcbDown) (up : IcbUp) : Option IcbRsp :=
  handshake up.rspValid down.rspReady up.rsp

/-! `sirv_gnrl_icb_arbt` with `ARBT_SCHEME = 0`, `ALLOW_0CYCL_RSP = 0` and more than one
port. The FIFO of the port numbers is a parameter. -/

namespace SirvGnrlIcbArbt

variable {n w : Nat}

def iBusIcbCmdGrtVec (i : Fin n → IcbDown) (k : Fin n) : Bool :=
  !(List.finRange n).any fun j => decide (j < k) && (i j).cmdValid

def iBusIcbCmdSel (i : Fin n → IcbDown) (k : Fin n) : Bool :=
  iBusIcbCmdGrtVec i k && (i k).cmdValid

def oIcbCmd (i : Fin n → IcbDown) : IcbCmd :=
  IcbCmd.mux (iBusIcbCmdSel i) fun k => (i k).cmd

/-- `$unsigned(j)`. -/
def unsigned (w : Nat) (j : Fin n) : BitVec w :=
  BitVec.ofNat w j.val

def iArbtIndicId (w : Nat) (i : Fin n → IcbDown) : BitVec w :=
  orMux (iBusIcbCmdSel i) (unsigned w)

variable (fifo : QueueCircuit (BitVec w)) (s : fifo.State) (i : Fin n → IcbDown) (o : IcbUp)

def rspidFifoEmpty : Bool :=
  !fifo.oVld s

def oIcbRspPortId : BitVec w :=
  if rspidFifoEmpty fifo s then 0 else fifo.oDat s

def oIcbRspReady : Bool :=
  !rspidFifoEmpty fifo s &&
    anyMux (fun k => decide ((oIcbRspPortId fifo s).toNat = k.val)) fun k => (i k).rspReady

def oIcbRspValidPre : Bool :=
  !rspidFifoEmpty fifo s && o.rspValid

def rspidFifoRen : Bool :=
  o.rspValid && oIcbRspReady fifo s i

def rspidFifoFull : Bool :=
  !fifo.iRdy s (rspidFifoRen fifo s i o)

def oIcbCmdValid : Bool :=
  (List.finRange n).any (fun k => (i k).cmdValid) && !rspidFifoFull fifo s i o

def oIcb : IcbDown where
  cmdValid := oIcbCmdValid fifo s i o
  cmd := oIcbCmd i
  rspReady := oIcbRspReady fifo s i

def iIcb (k : Fin n) : IcbUp where
  cmdReady := iBusIcbCmdGrtVec i k && (o.cmdReady && !rspidFifoFull fifo s i o)
  rspValid := oIcbRspValidPre fifo s o && decide ((oIcbRspPortId fifo s).toNat = k.val)
  rsp := o.rsp

def rspidFifoWen : Bool :=
  oIcbCmdValid fifo s i o && o.cmdReady

def step : fifo.State :=
  fifo.step s (rspidFifoWen fifo s i o) (iArbtIndicId w i) (rspidFifoRen fifo s i o)

end SirvGnrlIcbArbt

/-! `sirv_gnrl_icb_buffer` with depths that are not 0 and with `CMD_CUT_READY = 1` and
`RSP_CUT_READY = 1`: its readies do not depend on the other side. -/

namespace SirvGnrlIcbBuffer

structure State (cmdDp rspDp : Nat) where
  cmdFifo : SirvGnrlFifo.State cmdDp 69
  rspFifo : SirvGnrlFifo.State rspDp 33

variable {cmdDp rspDp : Nat}

def iIcb (s : State cmdDp rspDp) : IcbUp where
  cmdReady := SirvGnrlFifo.iRdy true s.cmdFifo false
  rspValid := SirvGnrlFifo.oVld s.rspFifo
  rsp := IcbRsp.unpack (SirvGnrlFifo.oDat s.rspFifo)

def oIcb (s : State cmdDp rspDp) : IcbDown where
  cmdValid := SirvGnrlFifo.oVld s.cmdFifo
  cmd := IcbCmd.unpack (SirvGnrlFifo.oDat s.cmdFifo)
  rspReady := SirvGnrlFifo.iRdy true s.rspFifo false

def step (s : State cmdDp rspDp) (i : IcbDown) (o : IcbUp) : State cmdDp rspDp where
  cmdFifo := SirvGnrlFifo.step true s.cmdFifo i.cmdValid i.cmd.pack o.cmdReady
  rspFifo := SirvGnrlFifo.step true s.rspFifo o.rspValid o.rsp.pack i.rspReady

end SirvGnrlIcbBuffer

/-! `sirv_gnrl_icb_splt` with `ALLOW_DIFF = 0`, `ALLOW_0CYCL_RSP = 1`, `SPLT_PTR_1HOT = 1`,
`VLD_MSK_PAYLOAD = 1` and more than one port. `FIFO_CUT_READY = 1`: the ready of the FIFO
does not depend on `rspid_fifo_o_ready`. -/

namespace SirvGnrlIcbSplt

variable {n : Nat} (fifo : QueueCircuit (BitVec n)) (s : fifo.State)
  (iIcbSpltIndic : BitVec n) (i : IcbDown) (o : Fin n → IcbUp)

def rspidFifoEmpty : Bool :=
  !fifo.oVld s

def rspidFifoFull : Bool :=
  !fifo.iRdy s false

/-- Commands are under way to another port. -/
def cmdDiffBranch : Bool :=
  !rspidFifoEmpty fifo s && !(iIcbSpltIndic == fifo.oDat s)

def iIcbCmdValidPre : Bool :=
  i.cmdValid && !cmdDiffBranch fifo s iIcbSpltIndic && !rspidFifoFull fifo s

def oIcbCmdValid (k : Fin n) : Bool :=
  iIcbSpltIndic.getLsbD k && iIcbCmdValidPre fifo s iIcbSpltIndic i

def oIcbRspPortId : BitVec n :=
  if rspidFifoEmpty fifo s then iIcbSpltIndic else fifo.oDat s

def oIcb (k : Fin n) : IcbDown where
  cmdValid := oIcbCmdValid fifo s iIcbSpltIndic i k
  cmd := i.cmd.mask (oIcbCmdValid fifo s iIcbSpltIndic i k)
  rspReady := (oIcbRspPortId fifo s iIcbSpltIndic).getLsbD k && i.rspReady

def iIcbCmdReadyPre : Bool :=
  anyMux (fun k => iIcbSpltIndic.getLsbD k) fun k => (o k).cmdReady

def iIcb : IcbUp where
  cmdReady := iIcbCmdReadyPre iIcbSpltIndic o && !cmdDiffBranch fifo s iIcbSpltIndic &&
    !rspidFifoFull fifo s
  rspValid := anyMux (fun k => (oIcbRspPortId fifo s iIcbSpltIndic).getLsbD k) fun k =>
    (o k).rspValid
  rsp := IcbRsp.mux (fun k => (oIcbRspPortId fifo s iIcbSpltIndic).getLsbD k) fun k => (o k).rsp

def rspidFifoWen : Bool :=
  i.cmdValid && (iIcb fifo s iIcbSpltIndic o).cmdReady

def rspidFifoRen : Bool :=
  (iIcb fifo s iIcbSpltIndic o).rspValid && i.rspReady

def rspidFifoBypass : Bool :=
  rspidFifoEmpty fifo s && rspidFifoWen fifo s iIcbSpltIndic i o &&
    rspidFifoRen fifo s iIcbSpltIndic i o

def step : fifo.State :=
  fifo.step s
    (rspidFifoWen fifo s iIcbSpltIndic i o && !rspidFifoBypass fifo s iIcbSpltIndic i o)
    iIcbSpltIndic
    (rspidFifoRen fifo s iIcbSpltIndic i o && !rspidFifoBypass fifo s iIcbSpltIndic i o)

end SirvGnrlIcbSplt

end RepVGGAcc
