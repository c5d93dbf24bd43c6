import Mathlib.Data.BitVec

/-! `hbirdv2_acc_cfg.c`: the driver's functions as programs over loads and stores. -/

namespace RepVGGAcc.AccCfg

/-- What remains of a function whose memory accesses are all to volatile fields. -/
inductive Prog
  | ret (value : BitVec 32)
  | load (addr : BitVec 32) (next : BitVec 32 → Prog)
  | store (addr data : BitVec 32) (next : Prog)

/-! The offsets of the fields of `ACC_CFG_TypeDef`. -/

def imapAddr : BitVec 32 := 0x00
def w3Addr : BitVec 32 := 0x04
def w1Addr : BitVec 32 := 0x08
def omapAddr : BitVec 32 := 0x0c
def control : BitVec 32 := 0x10
def mapSize : BitVec 32 := 0x14
def inCh : BitVec 32 := 0x18
def outCh : BitVec 32 := 0x1c
def status : BitVec 32 := 0x20

/-- `ACC_CFG`: `HBIRD_PERIPH_BASE + 0x42000`. -/
def accCfg : BitVec 32 := 0x10000000 + 0x42000

structure Config where
  imapAddr : BitVec 32
  w3Addr : BitVec 32
  w1Addr : BitVec 32
  omapAddr : BitVec 32
  mapSize : BitVec 32
  inCh : BitVec 32
  outCh : BitVec 32
  deriving DecidableEq, Repr

/-- `cfg == NULL` returns -1 without an access. -/
def accConfig (cfg : BitVec 32) (c : Config) : Prog :=
  if cfg = 0 then .ret (-1)
  else
    .store (cfg + imapAddr) c.imapAddr <|
    .store (cfg + w3Addr) c.w3Addr <|
    .store (cfg + w1Addr) c.w1Addr <|
    .store (cfg + omapAddr) c.omapAddr <|
    .store (cfg + mapSize) c.mapSize <|
    .store (cfg + inCh) c.inCh <|
    .store (cfg + outCh) c.outCh <|
    .ret 0

def accStart (cfg : BitVec 32) : Prog :=
  if cfg = 0 then .ret (-1)
  else .store (cfg + control) 1 (.ret 0)

/-- A status that is not 0 is cleared before it is returned. -/
def checkAccStatus (cfg : BitVec 32) : Prog :=
  if cfg = 0 then .ret (-1)
  else .load (cfg + status) fun value =>
    if value ≠ 0 then .store (cfg + status) 0 (.ret value) else .ret value

end RepVGGAcc.AccCfg
