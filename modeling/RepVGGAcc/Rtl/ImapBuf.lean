import RepVGGAcc.Rtl.GnrlModules

/-! `imap_buf.v`: the input feature map buffer, seven SRAM banks behind one
write port and four read ports. -/

namespace RepVGGAcc.ImapBuf

def blockSize : Nat := 56 * 56

structure State where
  imapSramBuf : Fin 7 → SirvSimRam.State
  sramCsD : Fin 7 → Bool

structure Input where
  imapWaddr : Nat
  imapWdata : BitVec 64
  imapWen : Bool
  imapRaddr : Nat
  imapRen : Bool

/-- A state after `rst_n`. The memories and their address registers are not
reset. -/
def IsReset (s : State) : Prop :=
  s.sramCsD = fun _ => false

/-- `sram_raddr[j]`, from bits 12 and 11:0 of the read address. -/
def sramRaddr (i : Input) (j : Nat) : Nat :=
  (2 * j + i.imapRaddr / 2 ^ 12 % 2) * blockSize + i.imapRaddr % 2 ^ 12

/-- Bits 14:12 of an address name its bank. -/
def bank (addr : Nat) : Nat :=
  addr / 2 ^ 12 % 2 ^ 3

def sramCs (i : Input) (k : Fin 7) : Bool :=
  (bank i.imapWaddr == k.val && i.imapWen) ||
  (bank (sramRaddr i 0) == k.val && i.imapRen) ||
  (bank (sramRaddr i 1) == k.val && i.imapRen) ||
  (bank (sramRaddr i 2) == k.val && i.imapRen) ||
  (bank (sramRaddr i 3) == k.val && i.imapRen)

/-- Bits 11:0 of an address, gated by `select`. -/
def gated (addr : Nat) (select : Bool) : Nat :=
  if select then addr % 2 ^ 12 else 0

def sramAddr (i : Input) (k : Fin 7) : Nat :=
  gated i.imapWaddr i.imapWen |||
  gated (sramRaddr i 0) (bank (sramRaddr i 0) == k.val && i.imapRen) |||
  gated (sramRaddr i 1) (bank (sramRaddr i 1) == k.val && i.imapRen) |||
  gated (sramRaddr i 2) (bank (sramRaddr i 2) == k.val && i.imapRen) |||
  gated (sramRaddr i 3) (bank (sramRaddr i 3) == k.val && i.imapRen)

def sramInput (i : Input) (k : Fin 7) : SirvSimRam.Input where
  cs := sramCs i k
  we := i.imapWen
  wem := 0xff
  addr := sramAddr i k
  din := i.imapWdata

def step (s : State) (i : Input) : State where
  imapSramBuf := fun k => SirvSimRam.step (s.imapSramBuf k) (sramInput i k)
  sramCsD := sramCs i

/-- One iteration of the read merge: an active bank shifts the data collected so
far up by 64 bits and takes the low word. -/
def mergeBank (s : State) (imapRdata : BitVec 256) (m : Fin 7) : BitVec 256 :=
  if s.sramCsD m then
    imapRdata.extractLsb' 0 192 ++ SirvSimRam.dout (s.imapSramBuf m)
  else imapRdata

/-- `imap_rdata`, merged from bank 6 down to bank 0. -/
def imapRdata (s : State) : BitVec 256 :=
  [6, 5, 4, 3, 2, 1, 0].foldl (mergeBank s) 0

end RepVGGAcc.ImapBuf
