import RepVGGAcc.Control.Phases

/-! The phases in a row: the control of the first run as a function of the cycles since
the start command. -/

namespace RepVGGAcc.Control

open WeightBiu (burstWords)
open ImapLoad (mapWords)

variable {L d n : Nat}

def timeline (L u : Nat) : Control :=
  if u < 164 + L then weightPhase L u
  else if u < 50343 + 2 * L then imapPhase L (u - (164 + L))
  else if u < 53539 + 2 * L then fillPhase L (u - (50343 + 2 * L))
  else
    let channel := min ((u - (53539 + 2 * L)) / 6272) 63
    channelPhase L channel (u - (53539 + 2 * L) - 6272 * channel)

theorem timeline_weight (inside : d ≤ 164 + L) : timeline L d = weightPhase L d := by
  unfold timeline
  split_ifs with before map
  · rfl
  · obtain rfl : d = 164 + L := by omega
    rw [Nat.sub_self, imapPhase_zero]
  · omega
  · omega

theorem timeline_imap (inside : d ≤ 50179 + L) :
    timeline L (164 + L + d) = imapPhase L d := by
  unfold timeline
  rw [if_neg (by omega), Nat.add_sub_cancel_left]
  split_ifs with map fill
  · rfl
  · obtain rfl : d = 50179 + L := by omega
    rw [fillPhase_zero, show 164 + L + (50179 + L) - (50343 + 2 * L) = 0 by omega]
  · omega

theorem timeline_fill (latency : L ≤ 1000) (inside : d ≤ 3196) :
    timeline L (50343 + 2 * L + d) = fillPhase L d := by
  unfold timeline
  rw [if_neg (by omega), if_neg (by omega), Nat.add_sub_cancel_left]
  split_ifs with fill
  · rfl
  · obtain rfl : d = 3196 := by omega
    rw [channelPhase_zero latency,
      show 50343 + 2 * L + 3196 - (53539 + 2 * L) = 0 by omega]
    rfl

theorem timeline_channel (latency : L ≤ 1000) (last : n ≤ 63) (inside : d ≤ 6272 ∨ n = 63) :
    timeline L (53539 + 2 * L + 6272 * n + d) = channelPhase L n d := by
  unfold timeline
  rw [if_neg (by omega), if_neg (by omega), if_neg (by omega)]
  have passed : 53539 + 2 * L + 6272 * n + d - (53539 + 2 * L) = 6272 * n + d := by omega
  simp only [passed]
  by_cases within : d < 6272 ∨ n = 63
  · have channel : min ((6272 * n + d) / 6272) 63 = n := by omega
    rw [channel, Nat.add_sub_cancel_left]
  · obtain rfl : d = 6272 := by omega
    have channel : min ((6272 * n + 6272) / 6272) 63 = n + 1 := by omega
    have from_ : 6272 * n + 6272 - 6272 * (n + 1) = 0 := by omega
    rw [channel, from_, channelPhase_succ latency (by omega)]

theorem timeline_zero (L : Nat) : timeline L 0 = rest MainFsm.reset := by
  rw [timeline_weight (by omega)]
  unfold weightPhase
  rw [Burst.during_early (by omega), decide_eq_false (by omega : ¬ 0 = 164 + L)]
  rfl

theorem next_rest : (rest MainFsm.reset).next false false = rest MainFsm.reset := by
  apply next_filling
  case fsmStep => exact MacArrayFsm.step_rested_wait 0 false rfl
  case weightStep => exact Burst.next_rest _ _
  case imapStep => exact Burst.next_rest _ _
  case other => simp
  all_goals rfl

theorem phase_cases (L u : Nat) :
    u < 164 + L ∨ (∃ d < 50179 + L, u = 164 + L + d) ∨
      (∃ d < 3196, u = 50343 + 2 * L + d) ∨
      ∃ n ≤ 63, ∃ d, (d < 6272 ∨ n = 63) ∧ u = 53539 + 2 * L + 6272 * n + d := by
  obtain weight | map | fill | channel : u < 164 + L ∨ 164 + L ≤ u ∧ u < 50343 + 2 * L ∨
      50343 + 2 * L ≤ u ∧ u < 53539 + 2 * L ∨ 53539 + 2 * L ≤ u := by
    omega
  · exact Or.inl weight
  · exact Or.inr (Or.inl ⟨u - (164 + L), by omega, by omega⟩)
  · exact Or.inr (Or.inr (Or.inl ⟨u - (50343 + 2 * L), by omega, by omega⟩))
  · exact Or.inr (Or.inr (Or.inr ⟨min ((u - (53539 + 2 * L)) / 6272) 63, by omega,
      u - (53539 + 2 * L) - 6272 * min ((u - (53539 + 2 * L)) / 6272) 63, by omega, by omega⟩))

/-- The response of the bus: a command is answered `L` cycles later. -/
def response (L u : Nat) : Bool :=
  decide (L ≤ u) && (timeline L (u - L)).cmdValid

theorem response_zero (some_ : 1 ≤ L) : response L 0 = false := by
  rw [response, decide_eq_false (by omega), Bool.false_and]

theorem response_weight (inside : d < 164 + L) :
    response L d = Burst.arrives burstWords L 3 d := by
  unfold response
  rw [timeline_weight (by omega), cmdValid_weightPhase, ← Bool.decide_and]
  exact decide_eq_decide.mpr (by omega)

theorem response_imap (inside : d < 50179 + L) :
    response L (164 + L + d) = Burst.arrives mapWords L 2 d := by
  unfold response
  rw [decide_eq_true (by omega), Bool.true_and]
  by_cases early : d < L
  · rw [show 164 + L + d - L = 164 + d by omega, timeline_weight (by omega),
      cmdValid_weightPhase]
    exact decide_eq_decide.mpr (by unfold burstWords; omega)
  · rw [show 164 + L + d - L = 164 + L + (d - L) by omega, timeline_imap (by omega),
      cmdValid_imapPhase]
    exact decide_eq_decide.mpr (by omega)

theorem response_fill (latency : L ≤ 1000) (inside : d < 3196) :
    response L (50343 + 2 * L + d) = Burst.arrives burstWords L 2 d := by
  unfold response
  rw [decide_eq_true (by omega), Bool.true_and]
  by_cases early : d < L
  · rw [show 50343 + 2 * L + d - L = 164 + L + (50179 + d) by omega, timeline_imap (by omega),
      cmdValid_imapPhase]
    exact decide_eq_decide.mpr (by unfold mapWords; omega)
  · rw [show 50343 + 2 * L + d - L = 50343 + 2 * L + (d - L) by omega,
      timeline_fill latency (by omega), cmdValid_fillPhase]
    exact decide_eq_decide.mpr (by omega)

theorem response_channel (latency : L ≤ 1000) (last : n ≤ 63) (inside : d < 6272 ∨ n = 63) :
    response L (53539 + 2 * L + 6272 * n + d) = channelRsp L n d := by
  have shape : channelRsp L n d = decide ((10 + L ≤ d ∧ d < 3146 + L) ∨
      n ≠ 62 ∧ 3148 + L + L ≤ d ∧ d < 3148 + L + L + burstWords) := by
    unfold channelRsp Burst.arrives
    grind
  unfold response
  rw [decide_eq_true (by omega), Bool.true_and, shape]
  by_cases early : d < L
  · cases n with
    | zero =>
        rw [show 53539 + 2 * L + 6272 * 0 + d - L = 50343 + 2 * L + (3196 + d - L) by omega,
          timeline_fill latency (by omega), cmdValid_fillPhase]
        exact decide_eq_decide.mpr (by unfold burstWords; omega)
    | succ n =>
        rw [show 53539 + 2 * L + 6272 * (n + 1) + d - L =
            53539 + 2 * L + 6272 * n + (6272 + d - L) by omega,
          timeline_channel latency (by omega) (by omega), cmdValid_channelPhase]
        exact decide_eq_decide.mpr (by unfold burstWords; omega)
  · rw [show 53539 + 2 * L + 6272 * n + d - L = 53539 + 2 * L + 6272 * n + (d - L) by omega,
      timeline_channel latency last (by omega), cmdValid_channelPhase]
    exact decide_eq_decide.mpr (by omega)

theorem next_timeline (some_ : 1 ≤ L) (latency : L ≤ 1000) (u : Nat) :
    (timeline L u).next (decide (u = 0)) (response L u) = timeline L (u + 1) := by
  obtain weight | ⟨d, map, rfl⟩ | ⟨d, fill, rfl⟩ | ⟨n, last, d, channel, rfl⟩ :=
    phase_cases L u
  · rw [response_weight weight, timeline_weight (by omega), timeline_weight (by omega),
      next_weightPhase weight]
  · rw [response_imap map, timeline_imap (by omega), decide_eq_false (by omega),
      next_imapPhase map]
    exact (timeline_imap (by omega)).symm
  · rw [response_fill latency fill, timeline_fill latency (by omega), decide_eq_false (by omega),
      next_fillPhase fill]
    exact (timeline_fill latency (by omega)).symm
  · rw [response_channel latency last channel, timeline_channel latency last (by omega),
      decide_eq_false (by omega), next_channelPhase latency last channel]
    exact (timeline_channel latency last (by omega)).symm

theorem fits_timeline (latency : L ≤ 1000) (u : Nat) :
    (timeline L u).Fits (response L u) := by
  obtain weight | ⟨d, map, rfl⟩ | ⟨d, fill, rfl⟩ | ⟨n, last, d, channel, rfl⟩ :=
    phase_cases L u
  · rw [response_weight weight, timeline_weight (by omega)]
    exact fits_weightPhase
  · rw [response_imap map, timeline_imap (by omega)]
    exact fits_imapPhase
  · rw [response_fill latency fill, timeline_fill latency (by omega)]
    exact fits_fillPhase
  · rw [response_channel latency last channel, timeline_channel latency last (by omega)]
    exact fits_channelPhase

theorem idle_timeline (latency : L ≤ 1000) (u : Nat) :
    (timeline L u).main.state = .idle ↔ u = 0 ∨ 451818 + 2 * L ≤ u := by
  obtain weight | ⟨d, map, rfl⟩ | ⟨d, fill, rfl⟩ | ⟨n, last, d, channel, rfl⟩ :=
    phase_cases L u
  · rw [timeline_weight (by omega)]
    simp only [weightPhase, filling, rest]
    grind
  · rw [timeline_imap (by omega)]
    simp only [imapPhase, filling, rest]
    grind
  · rw [timeline_fill latency (by omega)]
    exact iff_of_false MainFsm.FsmState.noConfusion (by omega)
  · rw [timeline_channel latency last (by omega)]
    simp only [channelPhase]
    grind

theorem accDone_timeline (latency : L ≤ 1000) :
    (timeline L (451818 + 2 * L)).main.accDone = true := by
  rw [show 451818 + 2 * L = 53539 + 2 * L + 6272 * 63 + 3143 by omega,
    timeline_channel latency le_rfl (Or.inr rfl)]
  rfl

theorem convStart_timeline (latency : L ≤ 1000) (u : Nat) :
    (timeline L u).main.convStart = decide (u = 50343 + 2 * L) := by
  obtain weight | ⟨d, map, rfl⟩ | ⟨d, fill, rfl⟩ | ⟨n, last, d, channel, rfl⟩ :=
    phase_cases L u
  · rw [timeline_weight (by omega), decide_eq_false (by omega)]
    rfl
  · rw [timeline_imap (by omega)]
    exact decide_eq_decide.mpr (by omega)
  · rw [timeline_fill latency (by omega)]
    exact decide_eq_decide.mpr (by omega)
  · rw [timeline_channel latency last (by omega), decide_eq_false (by omega)]
    rfl

theorem fsm_timeline (latency : L ≤ 1000) (u : Nat) :
    (timeline L u).fsm =
      if u < 50344 + 2 * L then MacArrayFsm.reset else fsmAt (u - (50344 + 2 * L)) := by
  obtain weight | ⟨d, map, rfl⟩ | ⟨d, fill, rfl⟩ | ⟨n, last, d, channel, rfl⟩ :=
    phase_cases L u
  · rw [timeline_weight (by omega), if_pos (by omega)]
    rfl
  · rw [timeline_imap (by omega), if_pos (by omega)]
    rfl
  · rw [timeline_fill latency (by omega)]
    show (if d = 0 then MacArrayFsm.reset else fsmAt (d - 1)) = _
    split_ifs with first early early
    · rfl
    · omega
    · omega
    · exact congrArg fsmAt (by omega)
  · rw [timeline_channel latency last (by omega), if_neg (by omega)]
    exact congrArg fsmAt (by omega)

/-! The words handed to the bus for writing. -/

def written (L u : Nat) : Nat :=
  let channel := min ((u - (53539 + 2 * L)) / 6272) 63
  3136 * channel + mapDone (u - (53539 + 2 * L) - 6272 * channel) 10

theorem written_early (early : d ≤ 53539 + 2 * L) : written L d = 0 := by
  simp only [written, mapDone]
  omega

theorem written_channel (last : n ≤ 63) (inside : d ≤ 6272 ∨ n = 63) :
    written L (53539 + 2 * L + 6272 * n + d) = 3136 * n + mapDone d 10 := by
  simp only [written, mapDone]
  by_cases within : d < 6272 ∨ n = 63
  · have channel : min ((53539 + 2 * L + 6272 * n + d - (53539 + 2 * L)) / 6272) 63 = n := by
      omega
    rw [channel]
    omega
  · have channel : min ((53539 + 2 * L + 6272 * n + d - (53539 + 2 * L)) / 6272) 63 =
        n + 1 := by
      omega
    rw [channel]
    omega

theorem omapPipe_early (latency : L ≤ 1000) (early : d ≤ 53539 + 2 * L) :
    (timeline L d).omapPipe = false ∧ (timeline L d).omapCnt = 0 := by
  obtain weight | map | fill : d < 164 + L ∨ 164 + L ≤ d ∧ d < 50343 + 2 * L ∨
      50343 + 2 * L ≤ d := by omega
  · rw [timeline_weight (by omega)]
    exact ⟨rfl, rfl⟩
  · obtain ⟨d, rfl⟩ := Nat.exists_eq_add_of_le map.1
    rw [timeline_imap (by omega)]
    exact ⟨rfl, rfl⟩
  · obtain ⟨d, rfl⟩ := Nat.exists_eq_add_of_le fill
    rw [timeline_fill latency (by omega)]
    exact ⟨rfl, rfl⟩

theorem written_succ (latency : L ≤ 1000) (u : Nat) :
    written L (u + 1) = written L u + (timeline L u).omapPipe.toNat := by
  by_cases early : u < 53539 + 2 * L
  · rw [written_early (by omega), written_early (by omega),
      (omapPipe_early latency (by omega)).1]
    rfl
  obtain weight | ⟨d, map, rfl⟩ | ⟨d, fill, rfl⟩ | ⟨n, last, d, channel, rfl⟩ :=
    phase_cases L u
  · omega
  · omega
  · omega
  · rw [timeline_channel latency last (by omega), written_channel last (by omega)]
    refine (written_channel (d := d + 1) last (by omega)).trans ?_
    show 3136 * n + mapDone (d + 1) 10 =
      3136 * n + mapDone d 10 + (decide (10 ≤ d ∧ d < 3146)).toNat
    unfold mapDone
    by_cases writing : 10 ≤ d ∧ d < 3146
    · rw [decide_eq_true writing, Bool.toNat_true]
      omega
    · rw [decide_eq_false writing, Bool.toNat_false]
      omega

theorem omapCnt_timeline (latency : L ≤ 1000) (u : Nat) :
    (timeline L u).omapCnt = written L u % 200704 := by
  by_cases early : u < 53539 + 2 * L
  · rw [written_early (by omega), (omapPipe_early latency (by omega)).2]
  obtain weight | ⟨d, map, rfl⟩ | ⟨d, fill, rfl⟩ | ⟨n, last, d, channel, rfl⟩ :=
    phase_cases L u
  · omega
  · omega
  · omega
  · rw [timeline_channel latency last (by omega), written_channel last (by omega)]
    rfl

theorem written_le (L u : Nat) : written L u ≤ 200704 := by
  simp only [written, mapDone]
  omega

theorem written_late {u : Nat} (late : 451821 + 2 * L ≤ u) : written L u = 200704 := by
  simp only [written, mapDone]
  omega

theorem written_lt (latency : L ≤ 1000) {u : Nat} (writing : (timeline L u).omapPipe = true) :
    written L u < 200704 := by
  have next := written_succ latency u
  have bound := written_le L (u + 1)
  rw [writing, Bool.toNat_true] at next
  omega

end RepVGGAcc.Control
