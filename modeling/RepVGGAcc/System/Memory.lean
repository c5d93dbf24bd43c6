import RepVGGAcc.Control.FirstRun

/-! The external memory behind the bus port. -/

namespace RepVGGAcc

/-- The memory by byte address. -/
abbrev Memory := BitVec 32 → BitVec 8

namespace Memory

def word (m : Memory) (addr : BitVec 32) : BitVec 32 :=
  m (addr + 3) ++ m (addr + 2) ++ m (addr + 1) ++ m addr

def store (m : Memory) (addr data : BitVec 32) : Memory :=
  fun a =>
    if (a - addr).toNat < 4 then data.extractLsb' (8 * (a - addr).toNat) 8 else m a

def after (m : Memory) : Option BusUnits.Command → Memory
  | some c => m.store c.addr c.wdata
  | none => m

theorem word_store (m : Memory) {addr addr' : BitVec 32} (data : BitVec 32)
    (fits : addr.toNat + 4 ≤ 2 ^ 32) (fits' : addr'.toNat + 4 ≤ 2 ^ 32)
    (apart : addr.toNat + 4 ≤ addr'.toNat ∨ addr'.toNat + 4 ≤ addr.toNat) :
    (m.store addr data).word addr' = m.word addr' := by
  have kept (k : BitVec 32) (inWord : k.toNat < 4) :
      m.store addr data (addr' + k) = m (addr' + k) := by
    refine if_neg ?_
    rw [BitVec.toNat_sub, BitVec.toNat_add]
    omega
  have lowest := kept 0 (by decide)
  rw [BitVec.ofNat_eq_ofNat, BitVec.add_zero] at lowest
  unfold word
  rw [lowest, kept 1 (by decide), kept 2 (by decide), kept 3 (by decide)]

end Memory

def wordAddr (base : BitVec 32) (k : Nat) : BitVec 32 :=
  base + BitVec.ofNat 32 (4 * k)

theorem burstAddr_kernel (w3Addr w1Addr : BitVec 32) (och : Nat) {k : Nat} (kernel : k < 144) :
    WeightBiu.burstAddr w3Addr w1Addr och k = wordAddr w3Addr (36 * och + k) := by
  unfold WeightBiu.burstAddr wordAddr
  rw [if_pos kernel, BitVec.add_assoc, ← BitVec.ofNat_add,
    show och * 0x90 + 4 * k = 4 * (36 * och + k) by omega]

theorem burstAddr_point (w3Addr w1Addr : BitVec 32) (och : Nat) {k : Nat} (point : 144 ≤ k) :
    WeightBiu.burstAddr w3Addr w1Addr och k = wordAddr w1Addr (4 * och + (k - 144)) := by
  unfold WeightBiu.burstAddr wordAddr
  rw [if_neg (by omega), BitVec.add_assoc, ← BitVec.ofNat_add,
    show och * 0x10 + 4 * (k - 144) = 4 * (4 * och + (k - 144)) by omega]

/-- A region of `words` words that ends below `2^32`. -/
def FitsAt (base : BitVec 32) (words : Nat) : Prop :=
  base.toNat + 4 * words ≤ 2 ^ 32

instance (base : BitVec 32) (words : Nat) : Decidable (FitsAt base words) :=
  inferInstanceAs (Decidable (_ ≤ _))

theorem FitsAt.toNat_wordAddr {base : BitVec 32} {words k : Nat} (fits : FitsAt base words)
    (inside : k < words) : (wordAddr base k).toNat = base.toNat + 4 * k := by
  unfold FitsAt at fits
  unfold wordAddr
  rw [BitVec.toNat_add, BitVec.toNat_ofNat]
  omega

def Apart (base : BitVec 32) (words : Nat) (base' : BitVec 32) (words' : Nat) : Prop :=
  base.toNat + 4 * words ≤ base'.toNat ∨ base'.toNat + 4 * words' ≤ base.toNat

instance (base : BitVec 32) (words : Nat) (base' : BitVec 32) (words' : Nat) :
    Decidable (Apart base words base' words') :=
  inferInstanceAs (Decidable (_ ∨ _))

theorem Apart.word_store {base base' : BitVec 32} {words words' k k' : Nat}
    (apart : Apart base words base' words') (fits : FitsAt base words)
    (fits' : FitsAt base' words') (inside : k < words) (inside' : k' < words')
    (m : Memory) (data : BitVec 32) :
    (m.store (wordAddr base k) data).word (wordAddr base' k') = m.word (wordAddr base' k') := by
  have place := fits.toNat_wordAddr inside
  have place' := fits'.toNat_wordAddr inside'
  unfold FitsAt at fits fits'
  unfold Apart at apart
  exact m.word_store data (by omega) (by omega) (by omega)

/-- The regions of the maps and of the weights: none wraps around, and what is written
is none of what is read. -/
structure Settings.Regions (settings : Settings) : Prop where
  imap : FitsAt settings.inAddr 50176
  w3 : FitsAt settings.w3Addr 9216
  w1 : FitsAt settings.w1Addr 1024
  omap : FitsAt settings.outAddr 200704
  imapKept : Apart settings.outAddr 200704 settings.inAddr 50176
  w3Kept : Apart settings.outAddr 200704 settings.w3Addr 9216
  w1Kept : Apart settings.outAddr 200704 settings.w1Addr 1024

inductive Settings.IsInput (settings : Settings) : BitVec 32 → Prop
  | imap {k : Nat} (inside : k < 50176) : IsInput settings (wordAddr settings.inAddr k)
  | w3 {k : Nat} (inside : k < 9216) : IsInput settings (wordAddr settings.w3Addr k)
  | w1 {k : Nat} (inside : k < 1024) : IsInput settings (wordAddr settings.w1Addr k)

theorem Settings.isInput_burst (settings : Settings) {och k : Nat} (channel : och < 64)
    (inBurst : k < 160) :
    settings.IsInput (WeightBiu.burstAddr settings.w3Addr settings.w1Addr och k) := by
  by_cases kernel : k < 144
  · rw [burstAddr_kernel _ _ _ kernel]
    exact .w3 (by omega)
  · rw [burstAddr_point _ _ _ (by omega)]
    exact .w1 (by omega)

theorem Settings.Regions.word_store {settings : Settings} (regions : settings.Regions)
    {addr : BitVec 32} (input : settings.IsInput addr) {k : Nat} (inside : k < 200704)
    (m : Memory) (data : BitVec 32) :
    (m.store (wordAddr settings.outAddr k) data).word addr = m.word addr := by
  cases input with
  | imap inside' => exact regions.imapKept.word_store regions.omap regions.imap inside inside' _ _
  | w3 inside' => exact regions.w3Kept.word_store regions.omap regions.w3 inside inside' _ _
  | w1 inside' => exact regions.w1Kept.word_store regions.omap regions.w1 inside inside' _ _

namespace RepvggAccTop

variable (memory : Memory) (s : Nat → State) (i : Nat → Input)

def contents : Nat → Memory
  | 0 => memory
  | t + 1 => (contents t).after (writeCommand (s t) (i t))

/-- A read command is answered `L` cycles later with the word it asked for. -/
def Answers (L : Nat) : Prop :=
  ∀ t, accepts (s t) (i t) = true → (command (s t) (i t)).read = true →
    (i (t + L)).accIcbRspRdata = (contents memory s i t).word (command (s t) (i t)).addr

end RepvggAccTop

end RepVGGAcc
