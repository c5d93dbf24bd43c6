import RepVGGAcc.Fabric.MemoryPath
import RepVGGAcc.System.Commands
import RepVGGAcc.System.Contents

/-! The words of the SRAM as the words of a memory by byte address, and the regions of a
layer in it. -/

namespace RepVGGAcc

open SirvSramIcbCtrl (access ramAddr)

namespace SubsysRam

def wordIndex (addr : BitVec 32) : BitVec 21 :=
  addr.extractLsb' 2 21

def bytes (ram : State) : Memory :=
  fun addr => (ram.memR (wordIndex addr)).extractLsb' (8 * (addr.toNat % 4)) 8

theorem toNat_wordIndex (addr : BitVec 32) :
    (wordIndex addr).toNat = addr.toNat / 4 % 2 ^ 21 := by
  unfold wordIndex
  rw [BitVec.extractLsb'_toNat, Nat.shiftRight_eq_div_pow]

structure InSram (addr : BitVec 32) : Prop where
  low : 0x40000000 ≤ addr.toNat
  high : addr.toNat + 4 ≤ 0x40200000
  aligned : addr.toNat % 4 = 0

theorem InSram.decode_eq {addr : BitVec 32} (inSram : InSram addr) :
    SirvIcb1toNBus.decode E203SubsysMems.regions addr = some 5 := by
  have high := inSram.high
  exact E203SubsysMems.decode_sram.mpr ⟨inSram.low, by omega⟩

theorem InSram.wordIndex_inj {addr addr' : BitVec 32} (inSram : InSram addr)
    (inSram' : InSram addr') (same : wordIndex addr = wordIndex addr') : addr = addr' := by
  have places := congrArg BitVec.toNat same
  rw [toNat_wordIndex, toNat_wordIndex] at places
  obtain ⟨low, high, aligned⟩ := inSram
  obtain ⟨low', high', aligned'⟩ := inSram'
  exact BitVec.eq_of_toNat_eq (by omega)

theorem word_bytes (ram : State) {addr : BitVec 32} (inSram : InSram addr) :
    (bytes ram).word addr = ram.memR (wordIndex addr) := by
  obtain ⟨low, high, aligned⟩ := inSram
  have byte (k : BitVec 32) (inWord : k.toNat < 4) : bytes ram (addr + k) =
      (ram.memR (wordIndex addr)).extractLsb' (8 * k.toNat) 8 := by
    have place : (addr + k).toNat = addr.toNat + k.toNat := by
      rw [BitVec.toNat_add]
      omega
    have same : wordIndex (addr + k) = wordIndex addr := by
      refine BitVec.eq_of_toNat_eq ?_
      rw [toNat_wordIndex, toNat_wordIndex, place]
      omega
    unfold bytes
    rw [same, place, show (addr.toNat + k.toNat) % 4 = k.toNat by omega]
  have lowest := byte 0 (by decide)
  rw [BitVec.ofNat_eq_ofNat, BitVec.add_zero] at lowest
  unfold Memory.word
  rw [lowest, byte 1 (by decide), byte 2 (by decide), byte 3 (by decide)]
  refine BitVec.eq_of_getLsbD_eq fun j inside => ?_
  simp only [BitVec.getLsbD_append, BitVec.getLsbD_extractLsb']
  grind

def Agrees (P : BitVec 32 → Prop) (memory : Memory) (ram : State) : Prop :=
  ∀ addr, P addr → memory.word addr = ram.memR (wordIndex addr)

namespace Agrees

variable {P : BitVec 32 → Prop} {memory : Memory} {ram : State} {c : IcbCmd}

theorem bytes (inSram : ∀ addr, P addr → InSram addr) (ram : State) :
    Agrees P (SubsysRam.bytes ram) ram :=
  fun addr here => word_bytes ram (inSram addr here)

theorem read (agrees : Agrees P memory ram) (read : c.read = true) :
    Agrees P memory (step ram (access c)) := by
  intro addr here
  rw [memR_read ram read]
  exact agrees addr here

theorem elsewhere (agrees : Agrees P memory ram)
    (other : ∀ addr, P addr → ramAddr c ≠ wordIndex addr) :
    Agrees P memory (step ram (access c)) := by
  intro addr here
  rw [memR_elsewhere ram (other addr here)]
  exact agrees addr here

theorem write (agrees : Agrees P memory ram) (inSram : ∀ addr, P addr → InSram addr)
    (place : InSram c.addr) (write : c.read = false) (full : c.wmask = 0xf) :
    Agrees P (memory.store c.addr c.wdata) (step ram (access c)) := by
  intro addr here
  by_cases same : c.addr = addr
  · rw [← same, Memory.word_store_self]
    exact (memR_write ram write full).symm
  · have other : ramAddr c ≠ wordIndex addr := fun index =>
      same (place.wordIndex_inj (inSram addr here) index)
    have apart : c.addr.toNat + 4 ≤ addr.toNat ∨ addr.toNat + 4 ≤ c.addr.toNat := by
      have ne : c.addr.toNat ≠ addr.toNat := fun equal => same (BitVec.eq_of_toNat_eq equal)
      have aligned := place.aligned
      have aligned' := (inSram addr here).aligned
      omega
    have high := place.high
    have high' := (inSram addr here).high
    rw [memR_elsewhere ram other, Memory.word_store _ _ (by omega) (by omega) apart]
    exact agrees addr here

end Agrees

end SubsysRam

open SubsysRam (InSram)

structure Placed (base : BitVec 32) (words : Nat) : Prop where
  low : 0x40000000 ≤ base.toNat
  high : base.toNat + 4 * words ≤ 0x40200000
  aligned : base.toNat % 4 = 0

theorem Placed.inSram {base : BitVec 32} {words k : Nat} (placed : Placed base words)
    (inside : k < words) : InSram (wordAddr base k) := by
  obtain ⟨low, high, aligned⟩ := placed
  have fits : FitsAt base words := by
    unfold FitsAt
    omega
  have place := fits.toNat_wordAddr inside
  exact ⟨by omega, by omega, by omega⟩

namespace Settings

structure Placed (settings : Settings) : Prop where
  imap : RepVGGAcc.Placed settings.inAddr 50176
  w3 : RepVGGAcc.Placed settings.w3Addr 9216
  w1 : RepVGGAcc.Placed settings.w1Addr 1024
  omap : RepVGGAcc.Placed settings.outAddr 200704

inductive Uses (settings : Settings) (addr : BitVec 32) : Prop
  | input (input : settings.IsInput addr) : Uses settings addr
  | output {k : Nat} (inside : k < 200704) (place : addr = wordAddr settings.outAddr k) :
      Uses settings addr

theorem Uses.inSram {settings : Settings} (placed : settings.Placed) {addr : BitVec 32}
    (uses : settings.Uses addr) : InSram addr := by
  cases uses with
  | input input =>
      cases input with
      | imap inside => exact placed.imap.inSram inside
      | w3 inside => exact placed.w3.inSram inside
      | w1 inside => exact placed.w1.inSram inside
  | output inside place =>
      rw [place]
      exact placed.omap.inSram inside

theorem Within.uses {settings : Settings} {command : BusUnits.Command}
    (within : settings.Within command) : settings.Uses command.addr := by
  cases within with
  | read _ input => exact .input input
  | write _ inside addr => exact .output inside addr

end Settings

end RepVGGAcc
