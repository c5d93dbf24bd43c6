import RepVGGAcc.Clocked.Trace
import RepVGGAcc.Control.Bursts

/-! The addresses of a burst of weights against the layout that `gen_w3` and `gen_w1` of
the test program write: 144 words of 3x3 weights for each output channel, 16 words of 1x1
weights. -/

namespace RepVGGAcc.WeightBiu

open Clocked

/-- The address of word `k` of an output channel in the software's layout. -/
def ownAddr (w3Addr w1Addr : BitVec 32) (och k : Nat) : BitVec 32 :=
  if k < 144 then w3Addr + BitVec.ofNat 32 (576 * och + 4 * k)
  else w1Addr + BitVec.ofNat 32 (64 * och + 4 * (k - 144))

def fetchAddr (s : State) (i : Input) : Option (BitVec 32) :=
  if hdshk s i then some s.weightBiu2arbAddr else none

/-- The cycles before `t` in which the arbiter was ready for the burst of cycle 0. -/
def grants (i : Nat → Input) (t : Nat) : Nat :=
  Nat.count (fun u => u ≠ 0 ∧ (i u).weightBiu2arbRdy = true) t

/-- A burst that begins in cycle 0 and is watched up to cycle `stop`, the output channel
and the base addresses being held. -/
structure IsBurst (w3Addr w1Addr : BitVec 32) (och stop : Nat) (s : Nat → State)
    (i : Nat → Input) : Prop where
  trace : IsTrace step s i
  idle : (s 0).state = .idle ∧ (s 0).nextstate = .idle ∧ (s 0).cnt = 0 ∧
    (s 0).weightBiu2arbVld = false
  start : ∀ t < stop, (i t).weightStart = decide (t = 0)
  held : ∀ t < stop, (i t).weight3BaseAddr = w3Addr ∧ (i t).weight1BaseAddr = w1Addr ∧
    (i t).weightOchCnt = och

def burstReads (s : Nat → State) (i : Nat → Input) (stop : Nat) : List (BitVec 32) :=
  events (fun t => fetchAddr (s t) (i t)) stop

/-- Every grant reads the next one of the channel's own 160 words. -/
def ReadsOwnWords (w3Addr w1Addr : BitVec 32) (och stop : Nat) (s : Nat → State)
    (i : Nat → Input) : Prop :=
  burstReads s i stop =
    (List.range (min (grants i stop) burstWords)).map (ownAddr w3Addr w1Addr och)

namespace IsBurst

variable {w3Addr w1Addr : BitVec 32} {och stop : Nat} {s : Nat → State} {i : Nat → Input}

theorem rested (burst : IsBurst w3Addr w1Addr och stop s i) : Issuing burstWords (s 0) where
  bound := le_rfl
  state := burst.idle.1
  nextstate := burst.idle.2.1.trans burst.idle.1.symm
  cnt := burst.idle.2.2.1
  vld := burst.idle.2.2.2

theorem grants_succ (i : Nat → Input) {t : Nat} (begun : 0 < t) :
    grants i (t + 1) = grants i t + (i t).weightBiu2arbRdy.toNat := by
  unfold grants
  rw [Nat.count_succ]
  cases (i t).weightBiu2arbRdy <;> simp [Nat.ne_of_gt begun]

theorem grants_one (i : Nat → Input) : grants i 1 = 0 := by
  simp [grants, Nat.count_succ]

theorem issuing (burst : IsBurst w3Addr w1Addr och stop s i) {t : Nat} (begun : 0 < t)
    (within : t ≤ stop) :
    Issuing (min (grants i t) burstWords) (s t) ∧
      (grants i t < burstWords →
        (s t).weightBiu2arbAddr = burstAddr w3Addr w1Addr och (grants i t)) := by
  induction t, begun using Nat.le_induction with
  | base =>
      have start : (i 0).weightStart = true := burst.start 0 within
      obtain ⟨w3, w1, channel⟩ := burst.held 0 within
      have addr := burst.rested.addr_start start
      rw [w3, w1, channel] at addr
      rw [burst.trace 0, grants_one]
      exact ⟨burst.rested.step_start start, fun _ => addr⟩
  | succ t begun before =>
      obtain ⟨issuing, addressed⟩ := before (by omega)
      obtain ⟨w3, w1, channel⟩ := burst.held t within
      have running : (i t).weightStart = false :=
        (burst.start t within).trans (decide_eq_false (by omega))
      have moved : min (grants i (t + 1)) burstWords =
          if (i t).weightBiu2arbRdy = true ∧ min (grants i t) burstWords < burstWords
          then min (grants i t) burstWords + 1 else min (grants i t) burstWords := by
        rw [grants_succ i begun]
        cases (i t).weightBiu2arbRdy
        · simp
        · simp only [Bool.toNat_true, true_and]
          split_ifs <;> omega
      rw [burst.trace t]
      refine ⟨issuing.step running moved, fun more => ?_⟩
      have less : grants i t < burstWords := by
        rw [grants_succ i begun] at more
        omega
      have addr := issuing.addr_step
        (by rw [w3, w1, channel, addressed less, Nat.min_eq_left less.le]) moved (by omega)
      rwa [w3, w1, channel, Nat.min_eq_left more.le] at addr

theorem burstReads_eq (burst : IsBurst w3Addr w1Addr och stop s i) :
    burstReads s i stop =
      (List.range (min (grants i stop) burstWords)).map (burstAddr w3Addr w1Addr och) := by
  suffices reads : ∀ t ≤ stop, burstReads s i t =
      (List.range (min (grants i t) burstWords)).map (burstAddr w3Addr w1Addr och) from
    reads stop le_rfl
  intro t within
  induction t with
  | zero => simp [burstReads, grants]
  | succ t before =>
      unfold burstReads at before ⊢
      rw [events_succ, before (by omega)]
      rcases Nat.eq_zero_or_pos t with rfl | begun
      · rw [grants_one]
        simp [fetchAddr, hdshk, burst.idle.2.2.2, grants]
      · obtain ⟨issuing, addressed⟩ := burst.issuing begun (by omega)
        rw [fetchAddr, issuing.hdshk_eq, grants_succ i begun]
        cases rdy : (i t).weightBiu2arbRdy with
        | false => simp
        | true =>
            by_cases more : grants i t < burstWords
            · rw [Nat.min_eq_left more.le, if_pos (decide_eq_true ⟨rfl, more⟩), addressed more,
                Bool.toNat_true, Nat.min_eq_left (by omega), List.range_succ, List.map_append]
              rfl
            · rw [Nat.min_eq_right (by omega), Nat.min_eq_right (by omega),
                if_neg (by simp)]
              exact List.append_nil _

end IsBurst

theorem burstAddr_zero_channel (w3Addr w1Addr : BitVec 32) :
    burstAddr w3Addr w1Addr 0 = ownAddr w3Addr w1Addr 0 := by
  funext k
  simp [burstAddr, ownAddr]

theorem first_addr_iff {w3Addr w1Addr : BitVec 32} {och : Nat} (channel : och < 64) :
    burstAddr w3Addr w1Addr och 0 = ownAddr w3Addr w1Addr och 0 ↔ och = 0 := by
  constructor
  · intro same
    simp only [burstAddr, ownAddr, Nat.zero_lt_succ, if_true, Nat.mul_zero, Nat.add_zero,
      BitVec.add_zero] at same
    have offsets := congrArg BitVec.toNat (BitVec.add_right_inj _ |>.mp same)
    rw [BitVec.toNat_ofNat, BitVec.toNat_ofNat] at offsets
    omega
  · rintro rfl
    rw [burstAddr_zero_channel]

/-- A granted burst reads its own words exactly for channel 0; the bursts of neighbouring
channels share words of the 3x3 array. -/
theorem readsOwnWords_iff {w3Addr w1Addr : BitVec 32} {och stop : Nat} {s : Nat → State}
    {i : Nat → Input} (burst : IsBurst w3Addr w1Addr och stop s i) (channel : och < 64) :
    (ReadsOwnWords w3Addr w1Addr och stop s i ↔ och = 0 ∨ grants i stop = 0) ∧
    ∀ (stop' : Nat) (s' : Nat → State) (i' : Nat → Input),
      IsBurst w3Addr w1Addr (och + 1) stop' s' i' → 36 < grants i stop → 0 < grants i' stop' →
        ∃ addr, addr ∈ burstReads s i stop ∧ addr ∈ burstReads s' i' stop' := by
  refine ⟨⟨fun own => ?_, ?_⟩, fun stop' s' i' burst' long some_ => ?_⟩
  · rcases Nat.eq_zero_or_pos (grants i stop) with none | some_
    · exact Or.inr none
    · left
      rw [← @first_addr_iff w3Addr w1Addr och channel]
      unfold ReadsOwnWords at own
      rw [burst.burstReads_eq] at own
      have heads := congrArg List.head? own
      obtain ⟨n, more⟩ : ∃ n, min (grants i stop) burstWords = n + 1 :=
        ⟨min (grants i stop) burstWords - 1, by unfold burstWords; omega⟩
      rw [more, List.range_succ_eq_map] at heads
      simpa using heads
  · rintro (rfl | none)
    · rw [ReadsOwnWords, burst.burstReads_eq, burstAddr_zero_channel]
    · rw [ReadsOwnWords, burst.burstReads_eq, none, Nat.zero_min, List.range_zero,
        List.map_nil, List.map_nil]
  · refine ⟨burstAddr w3Addr w1Addr och 36, ?_, ?_⟩
    · rw [burst.burstReads_eq]
      exact List.mem_map_of_mem (List.mem_range.mpr (by unfold burstWords; omega))
    · rw [burst'.burstReads_eq]
      have shared : burstAddr w3Addr w1Addr och 36 = burstAddr w3Addr w1Addr (och + 1) 0 := by
        simp only [burstAddr, show (36 : Nat) < 144 by decide, Nat.zero_lt_succ, if_true]
        rw [BitVec.add_assoc, BitVec.add_assoc, ← BitVec.ofNat_add, ← BitVec.ofNat_add]
        congr 2
        omega
      rw [shared]
      exact List.mem_map_of_mem (List.mem_range.mpr (by unfold burstWords; omega))

/-! The burst of channel 1, granted in every cycle. -/

def grantedBurst (och : Nat) (t : Nat) : Input where
  weightStart := decide (t = 0)
  weight3BaseAddr := 0x40000
  weight1BaseAddr := 0x50000
  weightOchCnt := och
  weightBiu2arbRdy := true
  arb2weightBiuData := 0
  arb2weightBiuVld := false

theorem isBurst_grantedBurst (och stop : Nat) :
    IsBurst 0x40000 0x50000 och stop (run step reset (grantedBurst och)) (grantedBurst och) where
  trace := isTrace_run _ _ _
  idle := ⟨rfl, rfl, rfl, rfl⟩
  start := fun _ _ => rfl
  held := fun _ _ => ⟨rfl, rfl, rfl⟩

theorem readsOwnWords_iff_granted :
    let s := run step reset (grantedBurst 1)
    let s' := run step reset (grantedBurst 2)
    (ReadsOwnWords 0x40000 0x50000 1 40 s (grantedBurst 1) ↔
      1 = 0 ∨ grants (grantedBurst 1) 40 = 0) ∧
    ∃ addr, addr ∈ burstReads s (grantedBurst 1) 40 ∧
      addr ∈ burstReads s' (grantedBurst 2) 40 := by
  obtain ⟨own, shares⟩ := readsOwnWords_iff (isBurst_grantedBurst 1 40) (by decide)
  exact ⟨own, shares 40 _ _ (isBurst_grantedBurst 2 40) (by decide) (by decide)⟩

/-- Channel 1 begins to read 432 bytes too early. -/
theorem readsOwnWords_fails :
    ¬ ∀ (w3Addr w1Addr : BitVec 32) (och stop : Nat) (s : Nat → State) (i : Nat → Input),
      och < 64 → IsBurst w3Addr w1Addr och stop s i →
        ReadsOwnWords w3Addr w1Addr och stop s i := by
  intro always
  have own : burstReads _ _ 2 = _ :=
    always 0x40000 0x50000 1 2 _ _ (by decide) (isBurst_grantedBurst 1 2)
  exact absurd own (by decide)

end RepVGGAcc.WeightBiu
