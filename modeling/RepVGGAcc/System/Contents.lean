import RepVGGAcc.System.Correctness

/-! What the memory holds in every cycle of the first run. -/

namespace RepVGGAcc

namespace Memory

theorem word_store_self (m : Memory) (addr data : BitVec 32) :
    (m.store addr data).word addr = data := by
  have stored (k : BitVec 32) (inWord : k.toNat < 4) :
      m.store addr data (addr + k) = data.extractLsb' (8 * k.toNat) 8 := by
    have place : addr + k - addr = k := by rw [BitVec.add_comm, BitVec.add_sub_cancel]
    show (if (addr + k - addr).toNat < 4 then _ else _) = _
    rw [place, if_pos inWord]
  have lowest := stored 0 (by decide)
  rw [BitVec.ofNat_eq_ofNat, BitVec.add_zero] at lowest
  unfold word
  rw [lowest, stored 1 (by decide), stored 2 (by decide), stored 3 (by decide)]
  refine BitVec.eq_of_getLsbD_eq fun j inside => ?_
  simp only [BitVec.getLsbD_append, BitVec.getLsbD_extractLsb']
  grind

def storeWords (m : Memory) (base : BitVec 32) (words : Nat → BitVec 32) : Nat → Memory
  | 0 => m
  | n + 1 => (m.storeWords base words n).store (wordAddr base n) (words n)

section StoreWords

variable {m : Memory} {base : BitVec 32} {words : Nat → BitVec 32} {size : Nat}

theorem word_storeWords (fits : FitsAt base size) {n k : Nat} (le : n ≤ size)
    (inside : k < size) : (m.storeWords base words n).word (wordAddr base k) =
      if k < n then words k else m.word (wordAddr base k) := by
  induction n with
  | zero => rw [if_neg (Nat.not_lt_zero k)]; rfl
  | succ n held =>
      have before := held (by omega)
      show ((m.storeWords base words n).store (wordAddr base n) (words n)).word _ = _
      by_cases here : k = n
      · rw [here, word_store_self, if_pos (Nat.lt_succ_self n)]
      · have place := fits.toNat_wordAddr inside
        have place' := fits.toNat_wordAddr (k := n) (by omega)
        unfold FitsAt at fits
        rw [word_store _ _ (by omega) (by omega) (by omega), before]
        exact if_congr (by omega) rfl rfl

theorem storeWords_outside (fits : FitsAt base size) {n : Nat} (le : n ≤ size) {addr : BitVec 32}
    (outside : addr.toNat < base.toNat ∨ base.toNat + 4 * size ≤ addr.toNat) :
    m.storeWords base words n addr = m addr := by
  induction n with
  | zero => rfl
  | succ n held =>
      have place := fits.toNat_wordAddr (k := n) (by omega)
      unfold FitsAt at fits
      have far : ¬ (addr - wordAddr base n).toNat < 4 := by
        rw [BitVec.toNat_sub]
        omega
      exact (if_neg far).trans (held (by omega))

end StoreWords

end Memory

namespace RepvggAccTop

open Layer (routed)

/-- Word `k` of the output map: the pixel `k % 3136` of channel `k / 3136`. -/
def outputWord (settings : Settings) (memory : Memory) (k : Nat) : BitVec 32 :=
  (routed settings memory (k / 3136)).word (k % 3136 / 56) (k % 56)

namespace FirstRun

variable {L a stop : Nat} {s : Nat → State} {i : Nat → Input} {settings : Settings}
  {memory : Memory} (run : FirstRun L a stop s i) (some_ : 1 ≤ L) (latency : L ≤ 1000)
  (settled : ∀ t, a ≤ t → t ≤ stop → settings.HeldBy (s t)) (regions : settings.Regions)
  (answers : Answers memory s i L)

include run some_ latency settled regions answers

theorem writeCommand_written {t : Nat} (within : t ≤ stop) : writeCommand (s t) (i t) =
    if (Control.timeline L (t - a)).omapPipe then
      some {
        addr := wordAddr settings.outAddr (Control.written L (t - a))
        read := false
        wdata := outputWord settings memory (Control.written L (t - a)) }
    else none := by
  have command := run.writeCommand_eq some_ latency within
  split_ifs at command ⊢ with writing
  · obtain ⟨och, channel, r, row, c, column, rfl⟩ :=
      run.writeCommand_cycle some_ latency within (by rw [command]; rfl)
    have place : writeCycle L a och (56 * r + c) - a =
        53539 + 2 * L + 6272 * och + (10 + (56 * r + c)) := by
      unfold writeCycle
      omega
    have number : Control.written L (writeCycle L a och (56 * r + c) - a) =
        3136 * och + 56 * r + c := by
      rw [place, Control.written_channel (by omega) (by omega), Control.mapDone]
      omega
    rw [run.writeCommand_pixel some_ latency settled regions answers channel row column within,
      number, outputWord, show (3136 * och + 56 * r + c) / 3136 = och by omega,
      show (3136 * och + 56 * r + c) % 3136 / 56 = r by omega,
      show (3136 * och + 56 * r + c) % 56 = c by omega]
  · exact command

/-- In every cycle the memory holds its first contents with the words that have been written
so far: those of the layer, in the order of their addresses. -/
theorem contents_eq {t : Nat} (within : t ≤ stop + 1) : contents memory s i t =
    memory.storeWords settings.outAddr (outputWord settings memory)
      (Control.written L (t - a)) := by
  induction t with
  | zero =>
      rw [Nat.zero_sub, Control.written_early (Nat.zero_le _)]
      rfl
  | succ t held =>
      show (contents memory s i t).after (writeCommand (s t) (i t)) = _
      rw [held (by omega),
        run.writeCommand_written some_ latency settled regions answers (by omega)]
      by_cases begun : a ≤ t
      · have next := Control.written_succ latency (t - a)
        rw [show t + 1 - a = t - a + 1 by omega, next]
        cases (Control.timeline L (t - a)).omapPipe <;> rfl
      · rw [show t - a = 0 by omega, (Control.omapPipe_early latency (Nat.zero_le _)).1,
          show t + 1 - a = 0 by omega]
        rfl

end FirstRun

/-- In cycle `t` the first words of the output map are those of the layer, the others are as
before the run, and so is every byte outside the map. -/
structure HoldsMap (settings : Settings) (memory : Memory) (done : Nat) (held : Memory) :
    Prop where
  stored : ∀ k < 200704, held.word (wordAddr settings.outAddr k) =
    if k < done then outputWord settings memory k else memory.word (wordAddr settings.outAddr k)
  kept : ∀ addr : BitVec 32, addr.toNat < settings.outAddr.toNat ∨
    settings.outAddr.toNat + 4 * 200704 ≤ addr.toNat → held addr = memory addr

theorem FirstRun.holdsWritten {L a stop : Nat} {s : Nat → State} {i : Nat → Input}
    {settings : Settings} {memory : Memory} (run : FirstRun L a stop s i) (some_ : 1 ≤ L)
    (latency : L ≤ 1000) (settled : ∀ t, a ≤ t → t ≤ stop → settings.HeldBy (s t))
    (regions : settings.Regions) (answers : Answers memory s i L) {t : Nat}
    (within : t ≤ stop + 1) :
    HoldsMap settings memory (Control.written L (t - a)) (contents memory s i t) := by
  rw [run.contents_eq some_ latency settled regions answers within]
  exact ⟨fun k inside => Memory.word_storeWords regions.omap (Control.written_le L _) inside,
    fun addr outside =>
      Memory.storeWords_outside regions.omap (Control.written_le L _) outside⟩

end RepvggAccTop

end RepVGGAcc
