import RepVGGAcc.Control.Timeline

/-! The weight fetches of the first run: when each burst is asked for, when its commands
are handed over and when its words arrive. -/

namespace RepVGGAcc.Control

open IcbMaster (Grant)
open WeightBiu (burstWords)
open ImapLoad (mapWords)

variable {L d n : Nat}

/-- `weight_och_cnt`, as the control determines it. -/
def weightOchCnt (c : Control) : Nat :=
  MainFsm.weightOchCnt c.main (c.mainInput false)

/-- The channel phase in which burst `b + 2` is fetched. In the phase of channel 62 there
is no fetch, in that of channel 63 one more. -/
def fetchPhase (b : Nat) : Nat :=
  if b < 62 then b else 63

/-- The cycle in which burst `b` is asked for. -/
def fetchStart (L : Nat) : Nat → Nat
  | 0 => 1
  | 1 => 50343 + 2 * L
  | b + 2 => 53539 + 2 * L + 6272 * fetchPhase b + 3137

/-- The cycle of the first command of burst `b`. -/
def fetchFirst (L : Nat) : Nat → Nat
  | 0 => 3
  | 1 => 50343 + 2 * L + 2
  | b + 2 => 53539 + 2 * L + 6272 * fetchPhase b + (3148 + L)

/-- The words of weights that have arrived before cycle `u`, over all bursts. -/
def fetched (L u : Nat) : Nat :=
  if u < 164 + L then min (u - (3 + L)) 160
  else if u < 50343 + 2 * L then 160
  else if u < 53539 + 2 * L then 160 + min (u - (50343 + 2 * L) - (2 + L)) 160
  else
    let channel := min ((u - (53539 + 2 * L)) / 6272) 63
    320 + 160 * min channel 62 +
      if channel = 62 then 0
      else min (u - (53539 + 2 * L) - 6272 * channel - (3148 + 2 * L)) 160

theorem fetched_weight (inside : d ≤ 164 + L) : fetched L d = min (d - (3 + L)) 160 := by
  unfold fetched
  split_ifs <;> omega

theorem fetched_imap (inside : d ≤ 50179 + L) : fetched L (164 + L + d) = 160 := by
  unfold fetched
  split_ifs <;> omega

theorem fetched_fill (latency : L ≤ 1000) (inside : d ≤ 3196) :
    fetched L (50343 + 2 * L + d) = 160 + min (d - (2 + L)) 160 := by
  unfold fetched
  split_ifs with early map fill
  · omega
  · omega
  · omega
  · simp only
    have channel : min ((50343 + 2 * L + d - (53539 + 2 * L)) / 6272) 63 = 0 := by omega
    rw [channel, if_neg (by decide)]
    omega

theorem fetched_channel (latency : L ≤ 1000) (last : n ≤ 63) (inside : d ≤ 6272 ∨ n = 63) :
    fetched L (53539 + 2 * L + 6272 * n + d) =
      320 + 160 * min n 62 + if n = 62 then 0 else min (d - (3148 + 2 * L)) 160 := by
  unfold fetched
  rw [if_neg (by omega), if_neg (by omega), if_neg (by omega)]
  have passed : 53539 + 2 * L + 6272 * n + d - (53539 + 2 * L) = 6272 * n + d := by omega
  simp only [passed]
  by_cases within : d < 6272 ∨ n = 63
  · have channel : min ((6272 * n + d) / 6272) 63 = n := by omega
    rw [channel, Nat.add_sub_cancel_left]
  · obtain rfl : d = 6272 := by omega
    have channel : min ((6272 * n + 6272) / 6272) 63 = n + 1 := by omega
    rw [channel]
    split_ifs <;> omega

def fetches (L u : Nat) : Bool :=
  (timeline L u).receives .weight (response L u)

theorem fetches_weight (inside : d < 164 + L) :
    fetches L d = decide (3 + L ≤ d ∧ d < 163 + L) := by
  unfold fetches
  rw [timeline_weight (by omega), response_weight inside]
  simp only [weightPhase, filling, receives, Burst.arrives]
  grind [burstWords]

theorem fetches_imap (inside : d < 50179 + L) : fetches L (164 + L + d) = false := by
  unfold fetches
  rw [timeline_imap (by omega)]
  simp only [imapPhase, filling, receives]
  grind

theorem fetches_fill (latency : L ≤ 1000) (inside : d < 3196) :
    fetches L (50343 + 2 * L + d) = decide (2 + L ≤ d ∧ d < 162 + L) := by
  unfold fetches
  rw [timeline_fill latency (by omega), response_fill latency inside]
  simp only [fillPhase, filling, receives, Burst.arrives]
  grind [burstWords]

theorem fetches_channel (latency : L ≤ 1000) (last : n ≤ 63) (inside : d < 6272 ∨ n = 63) :
    fetches L (53539 + 2 * L + 6272 * n + d) =
      decide (n ≠ 62 ∧ 3148 + 2 * L ≤ d ∧ d < 3308 + 2 * L) := by
  unfold fetches
  rw [timeline_channel latency last (by omega), response_channel latency last inside]
  simp only [channelPhase, receives, channelRsp, Burst.arrives]
  grind [burstWords]

theorem fetches_zero : fetches L 0 = false := by
  rw [fetches_weight (by omega), decide_eq_false (by omega)]

theorem fetched_zero : fetched L 0 = 0 := by
  rw [fetched_weight (by omega)]
  omega

theorem fetched_succ (latency : L ≤ 1000) (u : Nat) :
    fetched L (u + 1) = fetched L u + (fetches L u).toNat := by
  obtain weight | ⟨d, map, rfl⟩ | ⟨d, fill, rfl⟩ | ⟨n, last, d, channel, rfl⟩ :=
    phase_cases L u
  · rw [fetched_weight (by omega), fetched_weight (by omega), fetches_weight weight]
    by_cases arrives : 3 + L ≤ u ∧ u < 163 + L
    · rw [decide_eq_true arrives, Bool.toNat_true]
      omega
    · rw [decide_eq_false arrives, Bool.toNat_false]
      omega
  · rw [fetched_imap (by omega), fetches_imap map]
    exact fetched_imap (d := d + 1) (by omega)
  · rw [fetched_fill latency (by omega), fetches_fill latency fill]
    refine (fetched_fill (d := d + 1) latency (by omega)).trans ?_
    by_cases arrives : 2 + L ≤ d ∧ d < 162 + L
    · rw [decide_eq_true arrives, Bool.toNat_true]
      omega
    · rw [decide_eq_false arrives, Bool.toNat_false]
      omega
  · rw [fetched_channel latency last (by omega), fetches_channel latency last channel]
    refine (fetched_channel (d := d + 1) latency last (by omega)).trans ?_
    by_cases arrives : n ≠ 62 ∧ 3148 + 2 * L ≤ d ∧ d < 3308 + 2 * L
    · rw [decide_eq_true arrives, Bool.toNat_true, if_neg arrives.1, if_neg arrives.1]
      omega
    · rw [decide_eq_false arrives, Bool.toNat_false]
      split_ifs <;> omega

theorem received_timeline (latency : L ≤ 1000) (u : Nat) :
    (timeline L u).weight.received % 160 = fetched L u % 160 := by
  obtain weight | ⟨d, map, rfl⟩ | ⟨d, fill, rfl⟩ | ⟨n, last, d, channel, rfl⟩ :=
    phase_cases L u
  · rw [timeline_weight (by omega), fetched_weight (by omega)]
    exact Burst.during_received_mod (by omega)
  · rw [timeline_imap (by omega), fetched_imap (by omega)]
    rfl
  · rw [timeline_fill latency (by omega), fetched_fill latency (by omega)]
    exact (Burst.during_received_mod (by omega)).trans (by unfold burstWords; omega)
  · rw [timeline_channel latency last (by omega), fetched_channel latency last (by omega)]
    show (if n = 62 then Burst.rest burstWords
      else .during burstWords L 3138 (3148 + L) d).received % 160 = _
    split_ifs with skipped
    · show 160 % 160 = _
      omega
    · exact (Burst.during_received_mod (by omega)).trans (by unfold burstWords; omega)

theorem fetches_time (latency : L ≤ 1000) {u : Nat} (arrives : fetches L u = true) :
    u = fetchFirst L (fetched L u / 160) + fetched L u % 160 + L := by
  obtain weight | ⟨d, map, rfl⟩ | ⟨d, fill, rfl⟩ | ⟨n, last, d, channel, rfl⟩ :=
    phase_cases L u
  · rw [fetches_weight weight] at arrives
    have now := of_decide_eq_true arrives
    rw [fetched_weight (by omega), show min (u - (3 + L)) 160 / 160 = 0 by omega, fetchFirst]
    omega
  · rw [fetches_imap map] at arrives
    cases arrives
  · rw [fetches_fill latency fill] at arrives
    have now := of_decide_eq_true arrives
    rw [fetched_fill latency (by omega),
      show (160 + min (d - (2 + L)) 160) / 160 = 0 + 1 by omega, fetchFirst]
    omega
  · rw [fetches_channel latency last channel] at arrives
    have now := of_decide_eq_true arrives
    rw [fetched_channel latency last (by omega), if_neg now.1,
      show (320 + 160 * min n 62 + min (d - (3148 + 2 * L)) 160) / 160 = min n 62 + 2 by omega,
      fetchFirst]
    have phase : fetchPhase (min n 62) = n := by
      unfold fetchPhase
      split_ifs <;> omega
    rw [phase]
    omega

theorem fetched_past (latency : L ≤ 1000) {m u : Nat} (counted : m < fetched L u) :
    fetchFirst L (m / 160) + m % 160 + L < u := by
  induction u with
  | zero =>
      rw [fetched_zero] at counted
      omega
  | succ u past =>
      rw [fetched_succ latency] at counted
      by_cases before : m < fetched L u
      · exact Nat.lt_succ_of_lt (past before)
      · cases arrives : fetches L u with
        | false =>
            rw [arrives] at counted
            exact absurd counted before
        | true =>
            rw [arrives, Bool.toNat_true] at counted
            obtain rfl : m = fetched L u := by omega
            exact Nat.lt_succ_of_le (fetches_time latency arrives).ge

theorem fetches_last (latency : L ≤ 1000) {u : Nat} (last : fetched L u % 160 = 159) :
    fetches L u = true := by
  obtain weight | ⟨d, map, rfl⟩ | ⟨d, fill, rfl⟩ | ⟨n, inRun, d, channel, rfl⟩ :=
    phase_cases L u
  · rw [fetched_weight (by omega)] at last
    rw [fetches_weight weight]
    exact decide_eq_true (by omega)
  · rw [fetched_imap (by omega)] at last
    omega
  · rw [fetched_fill latency (by omega)] at last
    rw [fetches_fill latency fill]
    exact decide_eq_true (by omega)
  · rw [fetched_channel latency inRun (by omega)] at last
    rw [fetches_channel latency inRun channel]
    split_ifs at last with skipped
    · omega
    · exact decide_eq_true (by omega)

/-! The channel a burst is for. -/

theorem weightOchCnt_eq (c : Control) : weightOchCnt c =
    if c.main.state = .wsetup then 0 else (c.fsm.outChCnt + 1) % 2 ^ 8 := rfl

theorem weightOchCnt_weight (begun : 1 ≤ d) (inside : d < 164 + L) :
    weightOchCnt (timeline L d) = 0 := by
  have setup : (weightPhase L d).main.state = .wsetup := by
    show (if d = 0 then _ else if d < 164 + L then _ else _) = _
    rw [if_neg (by omega), if_pos inside]
  rw [timeline_weight (by omega), weightOchCnt_eq, if_pos setup]

theorem weightOchCnt_fill (latency : L ≤ 1000) (inside : d < 3196) :
    weightOchCnt (timeline L (50343 + 2 * L + d)) = 1 := by
  have conv : (fillPhase L d).main.state ≠ .wsetup := fun setup => by cases setup
  have first : (fillPhase L d).fsm.outChCnt = 0 := (fsm_fillPhase inside).1
  rw [timeline_fill latency (by omega), weightOchCnt_eq, if_neg conv, first]
  rfl

theorem weightOchCnt_channel (latency : L ≤ 1000) (last : n ≤ 63) (inside : d ≤ 6272 ∨ n = 63) :
    weightOchCnt (timeline L (53539 + 2 * L + 6272 * n + d)) =
      (if d < 3136 then n else (n + 1) % 64) + 1 := by
  have conv : (channelPhase L n d).main.state ≠ .wsetup := by
    show (if n = 63 ∧ 3143 ≤ d then MainFsm.FsmState.idle else .conv) ≠ _
    split_ifs <;> simp
  rw [timeline_channel latency last inside, weightOchCnt_eq, if_neg conv,
    outChCnt_channelPhase last inside]
  split_ifs <;> omega

theorem weightOchCnt_stable (latency : L ≤ 1000) {u : Nat}
    (more : (timeline L (u + 1)).weight.issued < burstWords) :
    weightOchCnt (timeline L (u + 1)) = weightOchCnt (timeline L u) := by
  obtain weight | ⟨d, map, rfl⟩ | ⟨d, fill, rfl⟩ | ⟨n, last, d, channel, rfl⟩ :=
    phase_cases L u
  · rw [timeline_weight (by omega)] at more
    have now := (Burst.during_issued (by decide)).mp more
    unfold burstWords at now
    rw [weightOchCnt_weight (by omega) (by omega), weightOchCnt_weight (by omega) weight]
  · rw [Nat.add_assoc, timeline_imap (by omega)] at more
    exact absurd more (Burst.rest_issued _)
  · by_cases next : d + 1 < 3196
    · rw [Nat.add_assoc, weightOchCnt_fill latency next, weightOchCnt_fill latency fill]
    · rw [Nat.add_assoc, timeline_fill latency (by omega)] at more
      have now := (Burst.during_issued (by decide)).mp more
      unfold burstWords at now
      omega
  · rw [Nat.add_assoc, timeline_channel latency last (by omega)] at more
    have running : 3138 ≤ d + 1 := by
      by_contra early
      have rested : (channelPhase L n (d + 1)).weight = .rest burstWords := by
        show (if n = 62 then _ else Burst.during burstWords L 3138 (3148 + L) (d + 1)) = _
        rw [Burst.during_early (by omega), ite_self]
      rw [rested] at more
      exact Burst.rest_issued _ more
    rw [Nat.add_assoc, weightOchCnt_channel latency last (by omega),
      weightOchCnt_channel latency last (by omega), if_neg (by omega), if_neg (by omega)]

theorem command_fetch (latency : L ≤ 1000) {b k : Nat} (channel : b < 64) (inBurst : k < 160) :
    (timeline L (fetchFirst L b + k)).grant = .weight ∧
      (timeline L (fetchFirst L b + k)).weight.issued = k ∧
      weightOchCnt (timeline L (fetchFirst L b + k)) = b := by
  match b with
  | 0 =>
      refine ⟨?_, ?_, weightOchCnt_weight (d := 3 + k) (by omega) (by omega)⟩
      · show (timeline L (3 + k)).grant = _
        rw [timeline_weight (by omega)]
        show (if 3 ≤ 3 + k ∧ 3 + k < 164 + L then Grant.weight else .none) = _
        rw [if_pos (by omega)]
      · show (timeline L (3 + k)).weight.issued = _
        rw [timeline_weight (by omega)]
        show (Burst.during burstWords L 2 3 (3 + k)).issued = k
        rw [Burst.during, if_neg (by omega)]
        show min (3 + k - 3) 160 = k
        omega
  | 1 =>
      have cycle : fetchFirst L 1 + k = 50343 + 2 * L + (2 + k) := by
        show 50343 + 2 * L + 2 + k = _
        omega
      rw [cycle]
      refine ⟨?_, ?_, weightOchCnt_fill latency (by omega)⟩
      · rw [timeline_fill latency (by omega)]
        show (if 2 ≤ 2 + k ∧ 2 + k < 163 + L then Grant.weight else .none) = _
        rw [if_pos (by omega)]
      · rw [timeline_fill latency (by omega)]
        show (Burst.during burstWords L 1 2 (2 + k)).issued = k
        rw [Burst.during, if_neg (by omega)]
        show min (2 + k - 2) 160 = k
        omega
  | b + 2 =>
      have cycle : fetchFirst L (b + 2) + k =
          53539 + 2 * L + 6272 * b + (3148 + L + k) := by
        rw [fetchFirst, fetchPhase, if_pos (by omega)]
        omega
      rw [cycle]
      refine ⟨?_, ?_, ?_⟩
      · rw [timeline_channel latency (by omega) (by omega)]
        show (if 2 ≤ 3148 + L + k ∧ 3148 + L + k < 3147 + L then Grant.omap
          else if b ≠ 62 ∧ 3148 + L ≤ 3148 + L + k ∧ 3148 + L + k < 3309 + 2 * L
            then .weight else .none) = _
        rw [if_neg (by omega), if_pos (by omega)]
      · rw [timeline_channel latency (by omega) (by omega)]
        show (if b = 62 then Burst.rest burstWords
          else .during burstWords L 3138 (3148 + L) (3148 + L + k)).issued = k
        rw [if_neg (by omega), Burst.during, if_neg (by omega)]
        show min (3148 + L + k - (3148 + L)) 160 = k
        omega
      · rw [weightOchCnt_channel latency (by omega) (by omega), if_neg (by omega)]
        omega

theorem fetchStart_le (L b : Nat) : fetchStart L b ≤ fetchFirst L b := by
  match b with
  | 0 => exact Nat.le_add_left 1 2
  | 1 => exact Nat.le_add_right _ 2
  | b + 2 => exact Nat.add_le_add_left (by omega) _

theorem request_fetch (latency : L ≤ 1000) {b : Nat} (channel : b < 64) :
    (timeline L (fetchStart L b)).main.weightStart = true ∧
      weightOchCnt (timeline L (fetchStart L b)) = b ∧
      ∀ u, fetchStart L b ≤ u → u < fetchFirst L b → (timeline L u).grant ≠ .weight := by
  match b with
  | 0 =>
      refine ⟨?_, weightOchCnt_weight (d := 1) (by omega) (by omega), ?_⟩
      · show (timeline L 1).main.weightStart = true
        rw [timeline_weight (by omega)]
        rfl
      · intro u from_ before
        have before : u < 3 := before
        rw [timeline_weight (by omega)]
        show (if 3 ≤ u ∧ u < 164 + L then Grant.weight else .none) ≠ _
        rw [if_neg (by omega)]
        simp
  | 1 =>
      refine ⟨?_, weightOchCnt_fill (d := 0) latency (by omega), ?_⟩
      · show (timeline L (50343 + 2 * L + 0)).main.weightStart = true
        rw [timeline_fill latency (by omega)]
        rfl
      · intro u from_ before
        have from_ : 50343 + 2 * L ≤ u := from_
        have before : u < 50343 + 2 * L + 2 := before
        obtain ⟨d, rfl⟩ := Nat.exists_eq_add_of_le from_
        rw [timeline_fill latency (by omega)]
        show (if 2 ≤ d ∧ d < 163 + L then Grant.weight else .none) ≠ _
        rw [if_neg (by omega)]
        simp
  | b + 2 =>
      have phase : fetchPhase b = b := if_pos (by omega)
      rw [fetchStart, fetchFirst, phase]
      refine ⟨?_, ?_, ?_⟩
      · rw [timeline_channel latency (by omega) (by omega)]
        exact decide_eq_true ⟨rfl, by omega⟩
      · rw [weightOchCnt_channel latency (by omega) (by omega), if_neg (by omega)]
        omega
      · intro u from_ before
        obtain ⟨d, rfl⟩ := Nat.exists_eq_add_of_le
          (by omega : 53539 + 2 * L + 6272 * b ≤ u)
        rw [timeline_channel latency (by omega) (by omega)]
        show (if 2 ≤ d ∧ d < 3147 + L then Grant.omap
          else if b ≠ 62 ∧ 3148 + L ≤ d ∧ d < 3309 + 2 * L then .weight else .none) ≠ _
        rw [if_neg (by omega : ¬ (b ≠ 62 ∧ 3148 + L ≤ d ∧ d < 3309 + 2 * L))]
        split_ifs <;> simp

/-! The bank the array computes with. -/

/-- While the array computes the output of a channel, the burst for this channel has
arrived, and that of the channel after the next one has not begun to. -/
theorem fetched_computing (latency : L ≤ 1000) {u : Nat}
    (computing : MacArrayFsm.arrayEn (timeline L u).fsm = true) :
    (timeline L u).fsm.outChCnt < 64 ∧
      160 * ((timeline L u).fsm.outChCnt + 1) ≤ fetched L u ∧
      fetched L u + (fetches L u).toNat ≤ 160 * ((timeline L u).fsm.outChCnt + 2) := by
  obtain weight | ⟨d, map, rfl⟩ | ⟨d, fill, rfl⟩ | ⟨n, last, d, channel, rfl⟩ :=
    phase_cases L u
  · rw [timeline_weight (by omega)] at computing
    cases computing
  · rw [timeline_imap (by omega)] at computing
    cases computing
  · rw [timeline_fill latency (by omega), (fsm_fillPhase fill).1, fetched_fill latency (by omega),
      fetches_fill latency fill]
    refine ⟨by omega, by omega, ?_⟩
    by_cases arrives : 2 + L ≤ d ∧ d < 162 + L
    · rw [decide_eq_true arrives, Bool.toNat_true]
      omega
    · rw [decide_eq_false arrives, Bool.toNat_false]
      omega
  · rw [timeline_channel latency last (by omega)] at computing
    have pixel : 3195 + 6272 * n + d < 401467 := by
      have running : MacArrayFsm.arrayEn (fsmAt (3195 + 6272 * n + d)) = true := computing
      unfold fsmAt at running
      split_ifs at running with inRun
      · rw [MacArrayFsm.arrayEn_scan] at running
        exact (of_decide_eq_true running).2
      · cases running
    rw [timeline_channel latency last (by omega), outChCnt_channelPhase last (by omega),
      fetched_channel latency last (by omega), fetches_channel latency last channel]
    by_cases arrives : n ≠ 62 ∧ 3148 + 2 * L ≤ d ∧ d < 3308 + 2 * L
    · rw [decide_eq_true arrives, Bool.toNat_true]
      split_ifs <;> omega
    · rw [decide_eq_false arrives, Bool.toNat_false]
      split_ifs <;> omega

end RepVGGAcc.Control
