import RepVGGAcc.System.Delivery

/-! What the accelerator puts on the bus port in the first run: every command lies in its
regions, and every response finds a unit that takes it. -/

namespace RepVGGAcc

namespace Control

open WeightBiu (burstWords)

variable {L u : Nat}

theorem grant_of_response (latency : L ≤ 1000) (responds : response L u = true) :
    (timeline L u).grant ≠ .none := by
  obtain weight | ⟨d, map, rfl⟩ | ⟨d, fill, rfl⟩ | ⟨n, last, d, channel, rfl⟩ :=
    phase_cases L u
  · rw [response_weight weight] at responds
    have now := of_decide_eq_true responds
    rw [timeline_weight (by omega)]
    show (if 3 ≤ u ∧ u < 164 + L then IcbMaster.Grant.weight else .none) ≠ _
    rw [if_pos (by unfold burstWords at now; omega)]
    simp
  · rw [response_imap map] at responds
    have now := of_decide_eq_true responds
    rw [timeline_imap (by omega)]
    show (if 2 ≤ d ∧ d < 50179 + L then IcbMaster.Grant.imap else .none) ≠ _
    rw [if_pos (by omega)]
    simp
  · rw [response_fill latency fill] at responds
    have now := of_decide_eq_true responds
    rw [timeline_fill latency (by omega)]
    show (if 2 ≤ d ∧ d < 163 + L then IcbMaster.Grant.weight else .none) ≠ _
    rw [if_pos (by unfold burstWords at now; omega)]
    simp
  · rw [response_channel latency last channel] at responds
    rw [timeline_channel latency last (by omega)]
    show (if 2 ≤ d ∧ d < 3147 + L then IcbMaster.Grant.omap
      else if n ≠ 62 ∧ 3148 + L ≤ d ∧ d < 3309 + 2 * L then .weight else .none) ≠ _
    unfold channelRsp Burst.arrives burstWords at responds
    grind

theorem weightOchCnt_lt (latency : L ≤ 1000)
    (more : (timeline L u).weight.issued < burstWords) : weightOchCnt (timeline L u) < 64 := by
  obtain weight | ⟨d, map, rfl⟩ | ⟨d, fill, rfl⟩ | ⟨n, last, d, channel, rfl⟩ :=
    phase_cases L u
  · by_cases begun : 1 ≤ u
    · rw [weightOchCnt_weight begun weight]
      decide
    · obtain rfl : u = 0 := by omega
      rw [timeline_zero] at more
      exact absurd more (Burst.rest_issued _)
  · rw [timeline_imap (by omega)] at more
    exact absurd more (Burst.rest_issued _)
  · rw [weightOchCnt_fill latency fill]
    decide
  · rw [weightOchCnt_channel latency last (by omega)]
    rw [timeline_channel latency last (by omega)] at more
    have burst : (channelPhase L n d).weight =
        if n = 62 then .rest burstWords else .during burstWords L 3138 (3148 + L) d := rfl
    rw [burst] at more
    split_ifs at more with skipped
    · exact absurd more (Burst.rest_issued _)
    · by_cases early : d < 3138
      · rw [Burst.during_early early] at more
        exact absurd more (Burst.rest_issued _)
      · rw [if_neg (by omega)]
        omega

/-- A burst of commands is followed by a cycle without one. The fetch of the map is the
longest. -/
theorem exists_pause (latency : L ≤ 1000) (u : Nat) :
    ∃ v, u ≤ v ∧ v ≤ u + 50176 ∧ (timeline L v).cmdValid = false := by
  obtain weight | ⟨d, map, rfl⟩ | ⟨d, fill, rfl⟩ | ⟨n, last, d, channel, rfl⟩ :=
    phase_cases L u
  · by_cases issuing : 3 ≤ u ∧ u < 163
    · refine ⟨163, by omega, by omega, ?_⟩
      rw [timeline_weight (by omega), cmdValid_weightPhase]
      rfl
    · refine ⟨u, le_rfl, by omega, ?_⟩
      rw [timeline_weight (by omega), cmdValid_weightPhase]
      exact decide_eq_false issuing
  · by_cases issuing : 2 ≤ d ∧ d < 50178
    · refine ⟨164 + L + 50178, by omega, by omega, ?_⟩
      rw [timeline_imap (by omega), cmdValid_imapPhase]
      rfl
    · refine ⟨164 + L + d, le_rfl, by omega, ?_⟩
      rw [timeline_imap (by omega), cmdValid_imapPhase]
      exact decide_eq_false issuing
  · by_cases issuing : 2 ≤ d ∧ d < 162
    · refine ⟨50343 + 2 * L + 162, by omega, by omega, ?_⟩
      rw [timeline_fill latency (by omega), cmdValid_fillPhase]
      rfl
    · refine ⟨50343 + 2 * L + d, le_rfl, by omega, ?_⟩
      rw [timeline_fill latency (by omega), cmdValid_fillPhase]
      exact decide_eq_false issuing
  · have pause {d : Nat} (inside : d ≤ 6272 ∨ n = 63)
        (free : ¬ (10 ≤ d ∧ d < 3146 ∨ n ≠ 62 ∧ 3148 + L ≤ d ∧ d < 3148 + L + burstWords)) :
        (timeline L (53539 + 2 * L + 6272 * n + d)).cmdValid = false := by
      rw [timeline_channel latency last inside, cmdValid_channelPhase]
      exact decide_eq_false free
    unfold burstWords at pause
    by_cases writing : 10 ≤ d ∧ d < 3146
    · exact ⟨53539 + 2 * L + 6272 * n + 3146, by omega, by omega, pause (by omega) (by omega)⟩
    · by_cases fetching : 3148 + L ≤ d ∧ d < 3308 + L
      · exact ⟨53539 + 2 * L + 6272 * n + (3308 + L), by omega, by omega,
          pause (by omega) (by omega)⟩
      · exact ⟨53539 + 2 * L + 6272 * n + d, le_rfl, by omega, pause (by omega) (by omega)⟩

theorem cmdValid_map {k : Nat} (inMap : k < 50176) :
    (timeline L (166 + L + k)).cmdValid = true := by
  rw [show 166 + L + k = 164 + L + (k + 2) by omega, timeline_imap (by omega),
    cmdValid_imapPhase]
  exact decide_eq_true (by unfold ImapLoad.mapWords; omega)

end Control

/-- A read of a word of the map or of the weights, or a write of a word of the output map. -/
inductive Settings.Within (settings : Settings) : BusUnits.Command → Prop
  | read {command : BusUnits.Command} (read : command.read = true)
      (input : settings.IsInput command.addr) : Within settings command
  | write {command : BusUnits.Command} {k : Nat} (write : command.read = false)
      (inside : k < 200704) (addr : command.addr = wordAddr settings.outAddr k) :
      Within settings command

namespace RepvggAccTop

theorem command_read (s : State) (i : Input) : (command s i).read =
    (s.bus.icbMaster.state == .weight || s.bus.icbMaster.state == .imap) := rfl

namespace FirstRun

variable {L a stop : Nat} {s : Nat → State} {i : Nat → Input} {settings : Settings}

theorem accIcbRspReady (run : FirstRun L a stop s i) (some_ : 1 ≤ L) (latency : L ≤ 1000) {t : Nat}
    (within : t ≤ stop) (responds : (i t).accIcbRspValid = true) :
    IcbMaster.accIcbRspReady (s t).bus.icbMaster = true := by
  obtain ⟨shown, answer⟩ := run.shows some_ latency within
  rw [answer] at responds
  have granted := Control.grant_of_response latency responds
  rw [shown.grant]
  unfold IcbMaster.accIcbRspReady
  cases grant : (Control.timeline L (t - a)).grant with
  | none => exact absurd grant granted
  | omap => rfl
  | weight => rfl
  | imap => rfl

theorem begun_of_cmdValid (run : FirstRun L a stop s i) (some_ : 1 ≤ L) (latency : L ≤ 1000)
    {t : Nat} (within : t ≤ stop) (valid : BusUnits.accIcbCmdValid (s t).bus = true) : a < t := by
  rw [(run.control_eq some_ latency within).accIcbCmdValid] at valid
  by_contra early
  rw [show t - a = 0 by omega, Control.timeline_zero] at valid
  cases valid

/-- Every command lies in the regions of the layer. -/
theorem command_within (run : FirstRun L a stop s i) (some_ : 1 ≤ L) (latency : L ≤ 1000)
    (settled : ∀ t, a ≤ t → t ≤ stop → settings.HeldBy (s t)) {t : Nat} (within : t ≤ stop)
    (valid : BusUnits.accIcbCmdValid (s t).bus = true) :
    settings.Within (command (s t) (i t)) := by
  have begun := run.begun_of_cmdValid some_ latency within valid
  have shown := run.control_eq some_ latency within
  have state : (s t).bus.icbMaster.state = (Control.timeline L (t - a)).grant := by
    rw [shown.grant]
  have present := valid
  rw [shown.accIcbCmdValid, Control.cmdValid] at present
  obtain ⟨u, rfl⟩ := Nat.exists_eq_add_of_le begun.le
  rw [Nat.add_sub_cancel_left] at shown state present
  cases grant : (Control.timeline L u).grant with
  | none =>
      rw [grant] at present
      cases present
  | omap =>
      rw [grant] at present state
      have writing : (Control.timeline L u).omapPipe = true := present
      have read : (command (s (a + u)) (i (a + u))).read = false := by
        rw [command_read, state]
        rfl
      refine .write read (Control.written_lt latency writing) ?_
      have written := run.writeCommand_eq some_ latency within
      have accepted : accepts (s (a + u)) (i (a + u)) = true := by
        unfold accepts
        rw [valid, run.ready]
        rfl
      unfold writeCommand at written
      rw [Nat.add_sub_cancel_left, writing, accepted, read, Bool.not_false, Bool.and_true,
        if_pos rfl, if_pos rfl,
        (settled (a + u) (Nat.le_add_right a u) within).outAddr] at written
      exact congrArg BusUnits.Command.addr (Option.some.inj written)
  | weight =>
      rw [grant] at present state
      have more := of_decide_eq_true present
      have addr := run.weightAddr_eq some_ latency settled within more
      refine .read ?_ ?_
      · rw [command_read, state]
        rfl
      · have place : (command (s (a + u)) (i (a + u))).addr =
            (s (a + u)).bus.weightBiu.weightBiu2arbAddr := by
          unfold command BusUnits.command BusUnits.accIcbCmdAddr
          rw [state]
        rw [place, addr]
        exact settings.isInput_burst (Control.weightOchCnt_lt latency more) more
  | imap =>
      rw [grant] at present state
      have more := of_decide_eq_true present
      have addr := run.imapAddr_eq some_ latency settled within more
      refine .read ?_ ?_
      · rw [command_read, state]
        rfl
      · have place : (command (s (a + u)) (i (a + u))).addr =
            (s (a + u)).bus.imapBiu.imapBiu2arbAddr := by
          unfold command BusUnits.command BusUnits.accIcbCmdAddr
          rw [state]
        rw [place, addr]
        exact .imap more

end FirstRun

end RepvggAccTop

end RepVGGAcc
