import RepVGGAcc.Control.Fetches
import RepVGGAcc.Load.WeightBanks
import RepVGGAcc.System.Program

/-! The two weight banks in the first run: the array computes with one while the other
is loaded. -/

namespace RepVGGAcc.RepvggAccTop

open Clocked
open IcbMaster (Grant)
open MacArray (Banked bankSel tapWord)

theorem weightOchCnt_lt (s : MainFsm.State) {i : MainFsm.Input} :
    MainFsm.weightOchCnt s i < 2 ^ 8 := by
  unfold MainFsm.weightOchCnt
  split_ifs <;> omega

namespace FirstRun

variable {L a stop : Nat} {s : Nat → State} {i : Nat → Input}

/-- The `m`-th word of weights that the bus delivers. -/
def weightWord (L a : Nat) (i : Nat → Input) (m : Nat) : BitVec 32 :=
  (i (a + (Control.fetchFirst L (m / 160) + m % 160 + L))).accIcbRspRdata

theorem weightVld_eq (run : FirstRun L a stop s i) (some_ : 1 ≤ L) (latency : L ≤ 1000) {t : Nat}
    (within : t ≤ stop) : (weightBiuInput (s t) (i t)).arb2weightBiuVld = Control.fetches L (t - a) := by
  obtain ⟨shown, answer⟩ := run.shows some_ latency within
  have granted := shown.rspVld_eq (by decide : Grant.weight ≠ .none) (i t).accIcbRspValid
  exact granted.trans (congrArg _ answer)

theorem weightData_eq (run : FirstRun L a stop s i) (some_ : 1 ≤ L) (latency : L ≤ 1000) {t : Nat}
    (within : t ≤ stop) (arrives : Control.fetches L (t - a) = true) :
    (weightBiuInput (s t) (i t)).arb2weightBiuData = (i t).accIcbRspRdata := by
  have valid : IcbMaster.rspVld (s t).bus.icbMaster .weight (i t).accIcbRspValid = true :=
    (run.weightVld_eq some_ latency within).trans arrives
  show IcbMaster.rspData (s t).bus.icbMaster .weight (i t).accIcbRspValid
    (i t).accIcbRspRdata = _
  rw [IcbMaster.rspData, if_pos valid]

theorem banked (run : FirstRun L a stop s i) (some_ : 1 ≤ L) (latency : L ≤ 1000) {t : Nat}
    (within : t ≤ stop) : Banked (weightWord L a i) (Control.fetched L (t - a)) (s t).macArray := by
  induction t with
  | zero =>
      rw [Nat.zero_sub, run.initial.macArray, Control.fetched_zero]
      exact Banked.start _
  | succ t held =>
      have held := held (by omega)
      have within : t ≤ stop := by omega
      have received := (run.control_eq some_ latency within).weight.received
      rw [WeightBiu.burstWords, Control.received_timeline latency] at received
      have byteWide : (weightBiuInput (s t) (i t)).weightOchCnt < 2 ^ 8 := weightOchCnt_lt _
      have wired : MacArray.wluInput (macInput (s t) (i t)) =
          WeightBiu.port (s t).bus.weightBiu (weightBiuInput (s t) (i t)) := rfl
      have valid := run.weightVld_eq some_ latency within
      rw [run.trace t]
      show Banked _ _ (MacArray.step (s t).macArray (macInput (s t) (i t)))
      have advance : Control.fetched L (t + 1 - a) =
          Control.fetched L (t - a) + (Control.fetches L (t - a)).toNat := by
        by_cases early : t < a
        · rw [show t + 1 - a = t - a by omega, show t - a = 0 by omega,
            Control.fetches_zero]
          rfl
        · rw [show t + 1 - a = t - a + 1 by omega, Control.fetched_succ latency]
      rw [advance]
      cases arrives : Control.fetches L (t - a) with
      | false =>
          refine held.step_wait received byteWide wired (valid.trans arrives) fun last => ?_
          rw [Control.fetches_last latency last] at arrives
          cases arrives
      | true =>
          refine held.step_receive received byteWide wired (valid.trans arrives) ?_
          have cycle := Control.fetches_time latency arrives
          have begun : a ≤ t := by
            by_contra early
            rw [show t - a = 0 by omega, Control.fetches_zero] at arrives
            cases arrives
          rw [run.weightData_eq some_ latency within arrives, weightWord, ← cycle,
            show a + (t - a) = t by omega]

theorem weightOchCnt_eq (run : FirstRun L a stop s i) (some_ : 1 ≤ L) (latency : L ≤ 1000) {t : Nat}
    (within : t ≤ stop) : weightOchCnt (s t) = Control.weightOchCnt (Control.timeline L (t - a)) := by
  have shown := run.control_eq some_ latency within
  unfold weightOchCnt Control.weightOchCnt MainFsm.weightOchCnt
  rw [shown.main]
  show (if _ then 0 else ((s t).macArray.macArrayFsm.outChCnt + 1) % 2 ^ 8) = _
  rw [shown.fsm]
  rfl

theorem weightAddr_eq (run : FirstRun L a stop s i) (some_ : 1 ≤ L) (latency : L ≤ 1000)
    {settings : Settings} (settled : ∀ t, a ≤ t → t ≤ stop → settings.HeldBy (s t)) {u : Nat}
    (within : a + u ≤ stop) (more : (Control.timeline L u).weight.issued < WeightBiu.burstWords) :
    (s (a + u)).bus.weightBiu.weightBiu2arbAddr =
      WeightBiu.burstAddr settings.w3Addr settings.w1Addr
        (Control.weightOchCnt (Control.timeline L u)) (Control.timeline L u).weight.issued := by
  induction u with
  | zero =>
      rw [Control.timeline_zero] at more
      exact absurd more (Burst.rest_issued _)
  | succ u held =>
      have within : a + u ≤ stop := by omega
      obtain ⟨shown, answer⟩ := run.shows some_ latency within
      rw [Nat.add_sub_cancel_left] at shown answer
      have bases := settled (a + u) (by omega) within
      have fits := (Control.fits_timeline latency u).weight
      have next : (Control.timeline L (u + 1)).weight =
          (Control.timeline L u).weight.next WeightBiu.burstWords
            (Control.timeline L u).main.weightStart ((Control.timeline L u).grant == .weight)
            (Control.fetches L u) := by
        rw [← Control.next_timeline some_ latency u]
        rfl
      have start : (weightBiuInput (s (a + u)) (i (a + u))).weightStart =
          (Control.timeline L u).main.weightStart := congrArg MainFsm.State.weightStart shown.main
      have rdy : (weightBiuInput (s (a + u)) (i (a + u))).weightBiu2arbRdy =
          ((Control.timeline L u).grant == .weight) := shown.rdy_eq .weight
      have vld : (weightBiuInput (s (a + u)) (i (a + u))).arb2weightBiuVld =
          Control.fetches L u := by
        rw [run.weightVld_eq some_ latency within, Nat.add_sub_cancel_left]
      have channel : (weightBiuInput (s (a + u)) (i (a + u))).weightOchCnt =
          Control.weightOchCnt (Control.timeline L u) := by
        have port := run.weightOchCnt_eq some_ latency within
        rw [Nat.add_sub_cancel_left] at port
        exact port
      have addr := shown.weight.step_addr (i := weightBiuInput (s (a + u)) (i (a + u)))
      have base3 : (weightBiuInput (s (a + u)) (i (a + u))).weight3BaseAddr = settings.w3Addr :=
        bases.w3Addr
      have base1 : (weightBiuInput (s (a + u)) (i (a + u))).weight1BaseAddr = settings.w1Addr :=
        bases.w1Addr
      rw [start, rdy, vld, ← next, channel, base3, base1] at addr
      rw [← Nat.add_assoc, run.trace (a + u), Control.weightOchCnt_stable latency more]
      exact addr fits (held within) more

end FirstRun

/-- The 160 reads of a burst, one in every cycle from `first` on, that was asked for in
cycle `request` with the channel `och`. -/
structure IsFetch (settings : Settings) (och request first : Nat) (s : Nat → State)
    (i : Nat → Input) : Prop where
  requested : (s request).mainFsm.weightStart = true ∧ weightOchCnt (s request) = och
  next : request ≤ first ∧
    ∀ t, request ≤ t → t < first → (s t).bus.icbMaster.state ≠ .weight
  commands : ∀ k < 160, accepts (s (first + k)) (i (first + k)) = true ∧
    command (s (first + k)) (i (first + k)) = {
      addr := WeightBiu.burstAddr settings.w3Addr settings.w1Addr och k
      read := true
      wdata := 0 }

/-- The bank that bit 0 of `out_ch_cnt` selects holds the words of the burst that was
asked for with `out_ch_cnt`, all of them answered by now, and a weight written now goes
to the other bank. -/
structure BankProtected (settings : Settings) (L : Nat) (s : Nat → State) (i : Nat → Input)
    (t : Nat) : Prop where
  held : ∃ request first,
    IsFetch settings (s t).macArray.macArrayFsm.outChCnt request first s i ∧
      first + 159 + L < t ∧
      ∀ g lane tap,
        MacArray.weights (s t).macArray.macArrayCore
            (bankSel (s t).macArray.macArrayFsm.outChCnt g) lane tap =
          ImapLoad.byteOf (i (first + tapWord g lane tap + L)).accIcbRspRdata (lane % 4)
  other : (macInput (s t) (i t)).weightWen = true →
    (MacArrayWlu.weightLoadSel (s t).macArray.macArrayWlu
        (MacArray.wluInput (macInput (s t) (i t)))).val / 2 ≠
      (MacArrayFsm.weightSel (s t).macArray.macArrayFsm).val / 2

namespace FirstRun

variable {L a stop : Nat} {s : Nat → State} {i : Nat → Input}

theorem isFetch (run : FirstRun L a stop s i) (some_ : 1 ≤ L) (latency : L ≤ 1000)
    {settings : Settings} (settled : ∀ t, a ≤ t → t ≤ stop → settings.HeldBy (s t)) {b : Nat}
    (channel : b < 64) (within : a + Control.fetchFirst L b + 159 ≤ stop) :
    IsFetch settings b (a + Control.fetchStart L b) (a + Control.fetchFirst L b) s i := by
  obtain ⟨start, och, quiet⟩ := Control.request_fetch latency channel
  have early := Control.fetchStart_le L b
  have shown {u : Nat} (le : u ≤ Control.fetchFirst L b + 159) :
      Shows (Control.timeline L u) (s (a + u)) := by
    have at_ := run.control_eq some_ latency (by omega : a + u ≤ stop)
    rwa [Nat.add_sub_cancel_left] at at_
  have port {u : Nat} (le : u ≤ Control.fetchFirst L b + 159) : weightOchCnt (s (a + u)) =
      Control.weightOchCnt (Control.timeline L u) := by
    have at_ := run.weightOchCnt_eq some_ latency (by omega : a + u ≤ stop)
    rwa [Nat.add_sub_cancel_left] at at_
  refine ⟨⟨?_, (port (by omega)).trans och⟩, ⟨?_, fun t from_ before => ?_⟩, fun k inBurst => ?_⟩
  · rw [(shown (by omega)).main, start]
  · exact Nat.add_le_add_left (Control.fetchStart_le L b) a
  · obtain ⟨u, rfl⟩ := Nat.exists_eq_add_of_le (by omega : a ≤ t)
    rw [(shown (by omega)).grant]
    exact quiet u (by omega) (by omega)
  · obtain ⟨granted, issued, channelNow⟩ := Control.command_fetch latency channel inBurst
    rw [Nat.add_assoc]
    have here := shown (by omega : Control.fetchFirst L b + k ≤ Control.fetchFirst L b + 159)
    have state : (s (a + (Control.fetchFirst L b + k))).bus.icbMaster.state = .weight := by
      rw [here.grant]
      exact granted
    refine ⟨?_, ?_⟩
    · unfold accepts
      rw [here.accIcbCmdValid, run.ready, Bool.and_true, Control.cmdValid, granted]
      exact decide_eq_true (by rw [issued]; exact inBurst)
    · have addr := run.weightAddr_eq some_ latency settled
        (by omega : a + (Control.fetchFirst L b + k) ≤ stop) (by rw [issued]; exact inBurst)
      rw [channelNow, issued] at addr
      unfold command BusUnits.command BusUnits.accIcbCmdAddr BusUnits.accIcbCmdRead
        BusUnits.accIcbCmdWdata
      rw [state, addr]
      rfl

/-- While the array computes, its bank holds the burst of its channel. -/
theorem weights_computing (run : FirstRun L a stop s i) (some_ : 1 ≤ L) (latency : L ≤ 1000)
    {t : Nat} (within : t ≤ stop)
    (computing : MacArrayFsm.arrayEn (s t).macArray.macArrayFsm = true) :
    (s t).macArray.macArrayFsm.outChCnt < 64 ∧
      a + Control.fetchFirst L (s t).macArray.macArrayFsm.outChCnt + 159 + L < t ∧
      ∀ g lane tap,
        MacArray.weights (s t).macArray.macArrayCore
            (bankSel (s t).macArray.macArrayFsm.outChCnt g) lane tap =
          ImapLoad.byteOf (weightWord L a i
            (160 * (s t).macArray.macArrayFsm.outChCnt + tapWord g lane tap)) (lane % 4) := by
  have shown := run.control_eq some_ latency within
  have banks := run.banked some_ latency within
  rw [shown.fsm] at computing
  obtain ⟨channel, arrived, free⟩ := Control.fetched_computing latency computing
  rw [← shown.fsm] at channel arrived free
  have answered := Control.fetched_past latency
    (m := 160 * (s t).macArray.macArrayFsm.outChCnt + 159) (u := t - a) (by omega)
  rw [show (160 * (s t).macArray.macArrayFsm.outChCnt + 159) / 160 =
      (s t).macArray.macArrayFsm.outChCnt by omega,
    show (160 * (s t).macArray.macArrayFsm.outChCnt + 159) % 160 = 159 by omega] at answered
  refine ⟨channel, by omega, fun g lane tap => ?_⟩
  have inBurst := MacArray.tapWord_lt g lane tap
  exact banks.held _ g lane tap (by omega) (by omega)

theorem weightWord_burst (L a : Nat) (i : Nat → Input) (och : Nat) {k : Nat}
    (inBurst : k < 160) : weightWord L a i (160 * och + k) =
      (i (a + Control.fetchFirst L och + k + L)).accIcbRspRdata := by
  rw [weightWord, show (160 * och + k) / 160 = och by omega,
    show (160 * och + k) % 160 = k by omega, ← Nat.add_assoc, ← Nat.add_assoc]

theorem bankProtected (run : FirstRun L a stop s i) (some_ : 1 ≤ L) (latency : L ≤ 1000)
    {settings : Settings} (settled : ∀ t, a ≤ t → t ≤ stop → settings.HeldBy (s t)) {t : Nat}
    (within : t ≤ stop) (computing : MacArrayFsm.arrayEn (s t).macArray.macArrayFsm = true) :
    BankProtected settings L s i t := by
  have shown := run.control_eq some_ latency within
  have banks := run.banked some_ latency within
  obtain ⟨channel, answered, words⟩ := run.weights_computing some_ latency within computing
  refine ⟨⟨_, _, run.isFetch some_ latency settled channel (by omega), by omega,
    fun g lane tap => ?_⟩, fun written => ?_⟩
  · rw [words g lane tap, weightWord_burst _ _ _ _ (MacArray.tapWord_lt g lane tap)]
  · rw [shown.fsm] at computing
    obtain ⟨-, arrived, free⟩ := Control.fetched_computing latency computing
    rw [← shown.fsm] at arrived free
    have arrives : Control.fetches L (t - a) = true := by
      rw [← run.weightVld_eq some_ latency within]
      exact (WeightBiu.receive_eq _).symm.trans written
    rw [arrives, Bool.toNat_true] at free
    have received := shown.weight.received
    have sel := WeightBiu.weightLoadSel_port (i := weightBiuInput (s t) (i t)) received
      (s t).macArray.macArrayWlu
    have bank : (s t).macArray.macArrayWlu.weightLoadSelBase.toNat =
        Control.fetched L (t - a) / 160 % 2 := by
      rw [banks.base]
      rcases Nat.mod_two_eq_zero_or_one (Control.fetched L (t - a) / 160) with even | odd
      · rw [even]
        rfl
      · rw [odd]
        rfl
    have computes : (MacArrayFsm.weightSel (s t).macArray.macArrayFsm).val =
        2 * ((s t).macArray.macArrayFsm.outChCnt % 2) +
          (s t).macArray.macArrayFsm.inChCnt.toNat := rfl
    have group := (s t).macArray.macArrayFsm.inChCnt.toNat_lt
    have loads : (MacArrayWlu.weightLoadSel (s t).macArray.macArrayWlu
        (MacArray.wluInput (macInput (s t) (i t)))).val = _ := sel
    omega

theorem bankProtected_first :
    BankProtected System.offsets 1 (System.top System.offsets fun _ => 0)
      (System.topInput System.offsets fun _ => 0) (16 + (50343 + 2 * 1 + 60)) :=
  bankProtected (System.firstRun System.offsets (fun _ => 0) 60000) (by decide) (by decide)
    (fun _ started _ => System.settled System.offsets (fun _ => 0) started) (by decide) (by
      have run := System.firstRun System.offsets (fun _ => 0) 60000
      rw [(run.control_eq (by decide) (by decide) (by decide)).fsm, Nat.add_sub_cancel_left,
        Control.timeline_fill (by omega) (by omega)]
      exact (MacArrayFsm.arrayEn_scan 0 59).trans (decide_eq_true (by omega)))

end FirstRun

end RepVGGAcc.RepvggAccTop
