import RepVGGAcc.Bus.FetchBursts
import RepVGGAcc.Control.MapFetch
import RepVGGAcc.Control.Repeats
import RepVGGAcc.System.Program

/-! The first run as traffic between the units and the bus: the units are started and the
bus answers as is asked of them, and every unit has whole bursts. -/

namespace RepVGGAcc

open Clocked
open IcbMaster (Grant)

/-- Bursts that begin only when they fit are reported done before the next one begins. -/
theorem Burst.startsAfterDone {words : Nat} {b : Nat → Burst} {start : Nat → Bool}
    (rdy rsp : Nat → Bool) (some_ : 0 < words) (rested : b 0 = .rest words)
    (next : ∀ t, b (t + 1) = (b t).next words (start t) (rdy t) (rsp t))
    (fits : ∀ t, (b t).Fits words (start t) (rsp t))
    (doneLate : ∀ t, (b t).done = true → (b t).received = words) :
    BusUnits.StartsAfterDone start fun t => (b t).done := by
  have counted (t : Nat) : ∃ issued received, (b t).Counted words
      (Nat.count (fun k => start k = true) t) (Nat.count (fun k => (b k).done = true) t)
      issued received := by
    induction t with
    | zero =>
        rw [rested]
        exact ⟨0, 0, by simp [rest], by simp [rest], by simp [rest]⟩
    | succ t held =>
        obtain ⟨issued, received, held⟩ := held
        rw [next t, Nat.count_succ, Nat.count_succ]
        exact ⟨_, _, held.next some_ (fits t) (doneLate t)⟩
  intro t starting
  obtain ⟨issued, received, held⟩ := counted t
  have all := ((fits t).start starting).2.1
  have started := held.started
  rw [Nat.count_succ, started, all]
  simp

namespace Control

variable {L : Nat}

def rises (L u : Nat) : Bool :=
  (timeline L u).fsm.inChCnt && !(timeline L (u - 1)).fsm.inChCnt

/-- The channels whose second group has been begun before cycle `u`. -/
def begun (L u : Nat) : Nat :=
  min ((u + 6271 - (53539 + 2 * L)) / 6272) 64

/-- The response to a write comes back. -/
def writesBack (L u : Nat) : Bool :=
  (timeline L u).receives .omap (response L u)

theorem inChCnt_timeline (latency : L ≤ 1000) (u : Nat) : (timeline L u).fsm.inChCnt =
    decide (min (u - (50403 + 2 * L)) 401408 / 3136 % 2 = 1) := by
  rw [fsm_timeline latency]
  split_ifs with early
  · exact (decide_eq_false (by omega)).symm
  · rw [inChCnt_fsmAt]
    unfold MacArrayFsm.position
    exact decide_eq_decide.mpr (by omega)

theorem rises_iff (latency : L ≤ 1000) (u : Nat) : rises L u = true ↔
    53539 + 2 * L ≤ u ∧ (u - (53539 + 2 * L)) % 6272 = 0 ∧ u ≤ 448675 + 2 * L := by
  unfold rises
  rw [inChCnt_timeline latency, inChCnt_timeline latency, ← decide_not, ← Bool.decide_and,
    decide_eq_true_iff]
  omega

theorem begun_zero : begun L 0 = 0 := by
  unfold begun
  omega

theorem begun_succ (latency : L ≤ 1000) (u : Nat) :
    begun L (u + 1) = begun L u + (rises L u).toNat := by
  have rise := rises_iff latency u
  unfold begun
  cases now : rises L u with
  | true =>
      have now := rise.mp now
      rw [Bool.toNat_true]
      omega
  | false =>
      have not_now := mt rise.mpr (Bool.eq_false_iff.mp now)
      rw [Bool.toNat_false]
      omega

theorem omapPipe_succ (some_ : 1 ≤ L) (latency : L ≤ 1000) (u : Nat) :
    (timeline L (u + 1)).omapPipe = (timeline L u).mergerPipe := by
  rw [← next_timeline some_ latency u]
  rfl

theorem omapPipe_cases (latency : L ≤ 1000) {u : Nat} (waits : (timeline L u).omapPipe = true) :
    ∃ n ≤ 63, ∃ k < 3136, u = 53539 + 2 * L + 6272 * n + (10 + k) ∧
      written L u = 3136 * n + k := by
  have late : 53539 + 2 * L < u := by
    by_contra early
    rw [(omapPipe_early latency (by omega)).1] at waits
    cases waits
  obtain weight | ⟨d, map, rfl⟩ | ⟨d, fill, rfl⟩ | ⟨n, last, d, channel, rfl⟩ :=
    phase_cases L u
  · omega
  · omega
  · omega
  · rw [timeline_channel latency last (by omega)] at waits
    have now := of_decide_eq_true waits
    refine ⟨n, last, d - 10, by omega, by omega, ?_⟩
    rw [written_channel last (by omega), mapDone]
    omega

theorem written_lt_begun (latency : L ≤ 1000) {u : Nat}
    (waits : (timeline L u).omapPipe = true) : written L u < 3136 * begun L u := by
  obtain ⟨n, last, k, inside, rfl, count⟩ := omapPipe_cases latency waits
  rw [count]
  unfold begun
  omega

theorem writesBack_eq (latency : L ≤ 1000) (u : Nat) :
    writesBack L u = (decide (L ≤ u) && (timeline L (u - L)).omapPipe) := by
  unfold writesBack
  obtain weight | ⟨d, map, rfl⟩ | ⟨d, fill, rfl⟩ | ⟨n, last, d, channel, rfl⟩ :=
    phase_cases L u
  · rw [(omapPipe_early latency (by omega)).1, Bool.and_false, timeline_weight (by omega)]
    refine receives_of_ne ?_ _
    simp only [weightPhase, filling]
    grind
  · rw [(omapPipe_early latency (by omega)).1, Bool.and_false, timeline_imap (by omega)]
    refine receives_of_ne ?_ _
    simp only [imapPhase, filling]
    grind
  · rw [(omapPipe_early latency (by omega)).1, Bool.and_false, timeline_fill latency (by omega)]
    refine receives_of_ne ?_ _
    simp only [fillPhase, filling]
    grind
  · rw [timeline_channel latency last (by omega), response_channel latency last channel,
      decide_eq_true (by omega), Bool.true_and, receives_channelPhase]
    by_cases early : d < L
    · rw [decide_eq_false (by omega)]
      cases n with
      | zero => rw [(omapPipe_early latency (by omega)).1]
      | succ n =>
          rw [show 53539 + 2 * L + 6272 * (n + 1) + d - L =
              53539 + 2 * L + 6272 * n + (6272 + d - L) by omega,
            timeline_channel latency (by omega) (by omega)]
          exact (decide_eq_false (by omega)).symm
    · rw [show 53539 + 2 * L + 6272 * n + d - L = 53539 + 2 * L + 6272 * n + (d - L) by omega,
        timeline_channel latency last (by omega)]
      exact decide_eq_decide.mpr (by omega)

/-- The responses to the writes come `L` cycles after them. -/
theorem written_succ_back (latency : L ≤ 1000) (u : Nat) :
    written L (u + 1 - L) = written L (u - L) + (writesBack L u).toNat := by
  rw [writesBack_eq latency]
  by_cases early : u < L
  · rw [decide_eq_false (by omega), Bool.false_and, Bool.toNat_false, Nat.sub_eq_zero_of_le early,
      Nat.sub_eq_zero_of_le (by omega : u ≤ L)]
    rfl
  · rw [decide_eq_true (by omega), Bool.true_and, show u + 1 - L = u - L + 1 by omega,
      written_succ latency]

theorem written_of_rises (latency : L ≤ 1000) {u : Nat} (rise : rises L u = true) :
    written L (u - L) = 3136 * begun L u := by
  obtain ⟨from_, whole, last⟩ := (rises_iff latency u).mp rise
  simp only [written, mapDone, begun]
  omega

/-- `in_ch_cnt` is low when the last word of a channel is answered. -/
theorem inChCnt_of_writesBack (latency : L ≤ 1000) {u : Nat} (back : writesBack L u = true)
    (last : (written L (u - L) + 1) % 3136 = 0) : (timeline L u).fsm.inChCnt = false := by
  rw [writesBack_eq latency, Bool.and_eq_true, decide_eq_true_iff] at back
  obtain ⟨n, inRun, k, inside, time, count⟩ := omapPipe_cases latency back.2
  rw [inChCnt_timeline latency]
  exact decide_eq_false (by omega)

end Control

namespace RepvggAccTop

def units (s : Nat → State) (t : Nat) : BusUnits.State :=
  (s t).bus

def unitInputs (s : Nat → State) (i : Nat → Input) (t : Nat) : BusUnits.Input :=
  busInput (s t) (i t)

namespace FirstRun

/-- What is counted from the start command on is told by the timeline. -/
theorem count_timeline {a : Nat} {p : Nat → Prop} [DecidablePred p] {g : Nat → Bool}
    {f : Nat → Nat} (zero : f 0 = 0) (succ : ∀ u, f (u + 1) = f u + (g u).toNat)
    (rests : g 0 = false) (shows : ∀ t, p t ↔ g (t - a) = true) (t : Nat) :
    Nat.count p t = f (t - a) := by
  induction t with
  | zero => rw [Nat.zero_sub, zero, Nat.count_zero]
  | succ t held =>
      rw [Nat.count_succ, held]
      by_cases early : t < a
      · have quiet : ¬ p t := fun now => by
          rw [shows, Nat.sub_eq_zero_of_le early.le, rests] at now
          cases now
        rw [if_neg quiet, Nat.sub_eq_zero_of_le early.le, Nat.sub_eq_zero_of_le early,
          Nat.add_zero]
      · rw [show t + 1 - a = t - a + 1 by omega, succ]
        simp only [shows]
        cases g (t - a) <;> rfl

variable {L a : Nat} {s : Nat → State} {i : Nat → Input} (runs : ∀ stop, FirstRun L a stop s i)
  (some_ : 1 ≤ L) (latency : L ≤ 1000)

include runs

theorem units_trace : IsTrace BusUnits.step (units s) (unitInputs s i) :=
  (runs 0).trace.component State.bus busInput fun _ _ => rfl

theorem units_initial : BusUnits.IsReset (units s 0) :=
  (runs 0).initial.bus

/-- The responses come `L` cycles after the commands, and none of them was there before. -/
theorem answersCommands (some_ : 1 ≤ L) :
    BusUnits.AnswersCommands (units s) (unitInputs s i) where
  ready := (runs 0).ready
  asked := fun t responds => by
    have answered := (runs 0).answered
    have late : L ≤ t := by
      by_contra early
      rw [show (unitInputs s i t).accIcbRspValid = (i t).accIcbRspValid from rfl,
        (runs 0).silent t (by omega)] at responds
      cases responds
    obtain ⟨u, rfl⟩ := Nat.exists_eq_add_of_le' late
    have accepts (k : Nat) : (BusUnits.accepted (units s k) (unitInputs s i k)).isSome = true ↔
        (i (k + L)).accIcbRspValid = true := by
      rw [answered k, BusUnits.accepted]
      split_ifs with now
      · exact iff_of_true rfl now
      · exact iff_of_false Bool.false_ne_true now
    have early : Nat.count (fun k => (i k).accIcbRspValid = true) L = 0 :=
      (Nat.count_iff_forall_not).mpr fun k before => by
        rw [(runs 0).silent k before]
        exact Bool.false_ne_true
    calc Nat.count (fun k => BusUnits.responds (units s k) (unitInputs s i k) = true) (u + L)
        ≤ Nat.count (fun k => (i k).accIcbRspValid = true) (u + L) :=
          Nat.count_mono_left fun k _ now => ((Bool.and_eq_true _ _).mp now).1
      _ = Nat.count (fun k => (i (k + L)).accIcbRspValid = true) u := by
          rw [Nat.add_comm u L, Nat.count_add, early, Nat.zero_add]
          simp only [Nat.add_comm L]
      _ < Nat.count (fun k => (i (k + L)).accIcbRspValid = true) (u + 1) := by
          rw [Nat.count_succ, if_pos (show (i (u + L)).accIcbRspValid = true from responds)]
          exact Nat.lt_succ_self _
      _ ≤ _ := by
          simp only [accepts]
          exact Nat.count_monotone _ (Nat.add_le_add_left some_ u)

include some_ latency

theorem shown (t : Nat) : Shows (Control.timeline L (t - a)) (s t) :=
  (runs t).control_eq some_ latency le_rfl

theorem receiver_iff {unit : Grant} (real : unit ≠ .none) (t : Nat) :
    BusUnits.receiver (units s t) (unitInputs s i t) = some unit ↔
      (Control.timeline L (t - a)).receives unit (Control.response L (t - a)) = true := by
  rw [← BusUnits.rspVld_iff, ← ((runs t).shows some_ latency le_rfl).2,
    ← (shown runs some_ latency t).rspVld_eq real]
  rfl

theorem received_weight (t : Nat) :
    BusUnits.receivedBefore (units s) (unitInputs s i) t .weight = Control.fetched L (t - a) :=
  count_timeline Control.fetched_zero (Control.fetched_succ latency) Control.fetches_zero
    (receiver_iff runs some_ latency (by decide)) t

theorem received_imap (t : Nat) :
    BusUnits.receivedBefore (units s) (unitInputs s i) t .imap =
      Control.mapFetched L (t - a) := by
  refine count_timeline ?_ (Control.mapFetched_succ latency) ?_
    (receiver_iff runs some_ latency (by decide)) t
  · unfold Control.mapFetched
    omega
  · rw [Control.mapFetches_eq latency]
    exact decide_eq_false (by omega)

theorem received_omap (t : Nat) :
    BusUnits.receivedBefore (units s) (unitInputs s i) t .omap =
      Control.written L (t - a - L) := by
  refine count_timeline (f := fun u => Control.written L (u - L)) ?_
    (Control.written_succ_back latency) ?_ (receiver_iff runs some_ latency (by decide)) t
  · exact Control.written_early (by omega)
  · rw [Control.writesBack_eq latency, (Control.omapPipe_early latency (by omega)).1,
      Bool.and_false]

theorem rises_iff (t : Nat) : BusUnits.rises (unitInputs s i) t = true ↔
    Control.rises L (t - a) = true := by
  have level (t : Nat) : (unitInputs s i t).inChCnt = (Control.timeline L (t - a)).fsm.inChCnt :=
    congrArg MacArrayFsm.State.inChCnt (shown runs some_ latency t).fsm
  unfold BusUnits.rises Control.rises
  rw [level]
  cases t with
  | zero =>
      rw [Nat.zero_sub, Control.inChCnt_timeline latency, decide_eq_false (by omega)]
      simp
  | succ t =>
      show (_ && !(unitInputs s i t).inChCnt) = true ↔ _
      rw [level, show t - a = t + 1 - a - 1 by omega]

theorem count_rises (t : Nat) :
    Nat.count (fun k => BusUnits.rises (unitInputs s i) k = true) t = Control.begun L (t - a) :=
  count_timeline Control.begun_zero (Control.begun_succ latency)
    (Bool.eq_false_iff.mpr fun rise => by
      have now := (Control.rises_iff latency 0).mp rise
      omega)
    (rises_iff runs some_ latency) t

/-- `map_merger` hands over a word in the cycle before it waits for the bus. -/
theorem hdshkIn_eq (t : Nat) :
    OmapBiu.hdshkIn (units s t).omapBiu (BusUnits.omapInput (units s t) (unitInputs s i t)) =
      (Control.timeline L (t - a)).mergerPipe := by
  have shown := shown runs some_ latency t
  show (mapMerger2omapBiuRdy (s t) && (s t).mapMerger.pipe.vldR) = _
  rw [shown.mapMerger2omapBiuRdy (Control.fits_timeline latency (t - a)).flows, Bool.true_and,
    shown.mergerPipe]

theorem count_hdshkIn (t : Nat) : Nat.count (fun k => OmapBiu.hdshkIn (units s k).omapBiu
      (BusUnits.omapInput (units s k) (unitInputs s i k)) = true) t =
    Control.written L (t - a + 1) := by
  refine count_timeline (f := fun u => Control.written L (u + 1))
    (g := fun u => (Control.timeline L u).mergerPipe) ?_ (fun u => ?_) ?_ (fun k => ?_) t
  · exact Control.written_early (by omega)
  · rw [Control.written_succ latency, Control.omapPipe_succ some_ latency]
  · rw [Control.timeline_zero]
    rfl
  · rw [hdshkIn_eq runs some_ latency]

/-- A unit whose bursts the control goes through. -/
theorem startsAfterDone (words : Nat) (unit : Grant) (part : Control → Burst)
    (start : Control → Bool) (words_pos : 0 < words)
    (rested : part (.rest MainFsm.reset) = .rest words)
    (next : ∀ c begins rsp, part (Control.next c begins rsp) =
      (part c).next words (start c) (c.grant == unit) (c.receives unit rsp))
    (fits : ∀ c rsp, Control.Fits c rsp → (part c).Fits words (start c) (c.receives unit rsp))
    (doneLate : ∀ t, (part (Control.timeline L (t - a))).done = true →
      (part (Control.timeline L (t - a))).received = words) :
    BusUnits.StartsAfterDone (fun t => start (Control.timeline L (t - a)))
      fun t => (part (Control.timeline L (t - a))).done := by
  refine Burst.startsAfterDone (b := fun t => part (Control.timeline L (t - a)))
    (fun t => (Control.timeline L (t - a)).grant == unit)
    (fun t => (Control.timeline L (t - a)).receives unit (Control.response L (t - a)))
    words_pos ?_ (fun t => ?_) (fun t => fits _ _ (Control.fits_timeline latency (t - a))) doneLate
  · show part (Control.timeline L (0 - a)) = _
    rw [Nat.zero_sub, Control.timeline_zero, rested]
  · show part (Control.timeline L (t + 1 - a)) = _
    rw [← (runs (t + 1)).timeline_succ some_ latency (Nat.lt_succ_self t)
      (shown runs some_ latency t), next]

theorem weightStart_eq (t : Nat) :
    (unitInputs s i t).weightStart = (Control.timeline L (t - a)).main.weightStart :=
  congrArg MainFsm.State.weightStart (shown runs some_ latency t).main

theorem imapStart_eq (t : Nat) :
    (unitInputs s i t).imapStart = (Control.timeline L (t - a)).main.imapStart :=
  congrArg MainFsm.State.imapStart (shown runs some_ latency t).main

theorem startsAfterDone_weight : BusUnits.StartsAfterDone
    (fun t => (unitInputs s i t).weightStart) fun t => (units s t).weightBiu.weightDone := by
  have shown := shown runs some_ latency
  have start := funext (weightStart_eq runs some_ latency)
  have done : (fun t => (units s t).weightBiu.weightDone) =
      fun t => (Control.timeline L (t - a)).weight.done :=
    funext fun t => (shown t).weight.done
  rw [start, done]
  exact startsAfterDone runs some_ latency WeightBiu.burstWords .weight Control.weight
    (fun c => c.main.weightStart) (by decide) rfl (fun _ _ _ => rfl) (fun _ _ fits => fits.weight)
    fun t => (shown t).weight.doneLate

theorem startsAfterDone_imap : BusUnits.StartsAfterDone
    (fun t => (unitInputs s i t).imapStart) fun t => (units s t).imapBiu.imapDone := by
  have shown := shown runs some_ latency
  have start := funext (imapStart_eq runs some_ latency)
  have done : (fun t => (units s t).imapBiu.imapDone) =
      fun t => (Control.timeline L (t - a)).imap.done :=
    funext fun t => (shown t).imap.done
  rw [start, done]
  exact startsAfterDone runs some_ latency ImapLoad.mapWords .imap Control.imap
    (fun c => c.main.imapStart) (by decide) rfl (fun _ _ _ => rfl) (fun _ _ fits => fits.imap)
    fun t => (shown t).imap.doneLate

/-- The words of a channel are handed over, and answered, between two rises of `in_ch_cnt`. -/
theorem writesBursts : BusUnits.WritesBursts (units s) (unitInputs s i) where
  rises := fun t rise => by
    rw [received_omap runs some_ latency, count_rises runs some_ latency]
    exact Control.written_of_rises latency ((rises_iff runs some_ latency t).mp rise)
  falls := fun t receives last => by
    rw [received_omap runs some_ latency] at last
    have back := (receiver_iff runs some_ latency (by decide) t).mp receives
    exact (congrArg MacArrayFsm.State.inChCnt (shown runs some_ latency t).fsm).trans
      (Control.inChCnt_of_writesBack latency back last)
  words := fun t takes => by
    rw [hdshkIn_eq runs some_ latency] at takes
    have begun : a ≤ t := by
      by_contra early
      rw [Nat.sub_eq_zero_of_le (by omega), Control.timeline_zero] at takes
      cases takes
    rw [← Control.omapPipe_succ some_ latency] at takes
    rw [count_hdshkIn runs some_ latency, count_rises runs some_ latency,
      show t + 1 - a = t - a + 1 by omega]
    exact Control.written_lt_begun latency takes

theorem driven_weight : WeightBiu.engine.Driven (fun t => (units s t).weightBiu)
    fun t => BusUnits.weightInput (units s t) (unitInputs s i t) :=
  BusUnits.driven_weight (units_trace runs) (units_initial runs) (answersCommands runs some_)
    (startsAfterDone_weight runs some_ latency) (startsAfterDone_imap runs some_ latency)
    (writesBursts runs some_ latency)

theorem driven_imap : ImapBiu.engine.Driven (fun t => (units s t).imapBiu)
    fun t => BusUnits.imapInput (units s t) (unitInputs s i t) :=
  BusUnits.driven_imap (units_trace runs) (units_initial runs) (answersCommands runs some_)
    (startsAfterDone_weight runs some_ latency) (startsAfterDone_imap runs some_ latency)
    (writesBursts runs some_ latency)

omit runs some_ latency in
/-- The words that a unit has received from a cycle on, in the numbers of the run. -/
theorem count_receiver {unit : Grant} {f : Nat → Nat} (received : ∀ t,
      BusUnits.receivedBefore (units s) (unitInputs s i) t unit = f (t - a)) (first n : Nat) :
    Nat.count (fun k => BusUnits.receiver (units s (first + k)) (unitInputs s i (first + k)) =
        some unit) n + f (first - a) = f (first + n - a) := by
  rw [← received, ← received, BusUnits.receivedBefore, BusUnits.receivedBefore,
    Nat.count_add _ first, Nat.add_comm]

theorem received_burst (first n : Nat) : WeightBiu.engine.received
      (fun t => BusUnits.weightInput (units s t) (unitInputs s i t)) first n +
    Control.fetched L (first + 1 - a) = Control.fetched L (first + 1 + n - a) := by
  have counted := count_receiver (received_weight runs some_ latency) (first + 1) n
  simp only [← BusUnits.rspVld_iff] at counted
  exact counted

theorem received_map (first n : Nat) : ImapBiu.engine.received
      (fun t => BusUnits.imapInput (units s t) (unitInputs s i t)) first n +
    Control.mapFetched L (first + 1 - a) = Control.mapFetched L (first + 1 + n - a) := by
  have counted := count_receiver (received_imap runs some_ latency) (first + 1) n
  simp only [← BusUnits.rspVld_iff] at counted
  exact counted

end FirstRun

end RepvggAccTop

/-! The run of the test program on a memory whose bytes are those of their addresses. -/

namespace System

open RepvggAccTop (units unitInputs)

def numbered : Memory :=
  fun addr => addr.setWidth 8

def programUnits : Nat → BusUnits.State :=
  units (top offsets numbered)

def programInputs : Nat → BusUnits.Input :=
  unitInputs (top offsets numbered) (topInput offsets numbered)

/-- All bursts of the run: 65 of weights, one of the map and 64 of output words. -/
theorem routesResponses_program : BusUnits.RoutesResponses programUnits programInputs ∧
    BusUnits.receivedBefore programUnits programInputs 460000 .weight = 65 * 160 ∧
    BusUnits.receivedBefore programUnits programInputs 460000 .imap = 50176 ∧
    BusUnits.receivedBefore programUnits programInputs 460000 .omap = 64 * 3136 := by
  have runs := firstRun offsets numbered
  have latency : 1 ≤ 1000 := by decide
  have routes : BusUnits.RoutesResponses programUnits programInputs :=
    BusUnits.routesResponses (RepvggAccTop.FirstRun.units_trace runs)
      (RepvggAccTop.FirstRun.units_initial runs)
      (RepvggAccTop.FirstRun.answersCommands runs le_rfl)
      (RepvggAccTop.FirstRun.startsAfterDone_weight runs le_rfl latency)
      (RepvggAccTop.FirstRun.startsAfterDone_imap runs le_rfl latency)
      (RepvggAccTop.FirstRun.writesBursts runs le_rfl latency)
  refine ⟨routes, ?_, ?_, ?_⟩
  · exact (RepvggAccTop.FirstRun.received_weight runs le_rfl latency 460000).trans
      (Control.fetched_late latency (by decide))
  · exact RepvggAccTop.FirstRun.received_imap runs le_rfl latency 460000
  · exact (RepvggAccTop.FirstRun.received_omap runs le_rfl latency 460000).trans
      (Control.written_late (by decide))

/-- The fetch of the weights of channel 0 and that of the map, which have all their words
after 162 and 50178 cycles. -/
theorem fetchEngines_runBursts_program :
    let weightInputs := fun t => BusUnits.weightInput (programUnits t) (programInputs t)
    let imapInputs := fun t => BusUnits.imapInput (programUnits t) (programInputs t)
    (WeightBiu.FetchesWeights (fun t => (programUnits t).weightBiu) weightInputs 17 ∧
        WeightBiu.engine.received weightInputs 17 162 = 160) ∧
      ImapBiu.FetchesMap (fun t => (programUnits t).imapBiu) imapInputs 181 ∧
        ImapBiu.engine.received imapInputs 181 50178 = 50176 := by
  intro weightInputs imapInputs
  have runs := firstRun offsets numbered
  have latency : 1 ≤ 1000 := by decide
  have bursts : (∀ first, (programInputs first).weightStart = true →
        WeightBiu.FetchesWeights (fun t => (programUnits t).weightBiu) weightInputs first) ∧
      ∀ first, (programInputs first).imapStart = true →
        ImapBiu.FetchesMap (fun t => (programUnits t).imapBiu) imapInputs first :=
    fetchEngines_runBursts (RepvggAccTop.FirstRun.driven_weight runs le_rfl latency)
      (RepvggAccTop.FirstRun.driven_imap runs le_rfl latency)
  have weightStart : (programInputs 17).weightStart = true :=
    (RepvggAccTop.FirstRun.weightStart_eq runs le_rfl latency 17).trans
      (by rw [Control.timeline_weight (by decide)]; rfl)
  have imapStart : (programInputs 181).imapStart = true :=
    (RepvggAccTop.FirstRun.imapStart_eq runs le_rfl latency 181).trans
      (by rw [Control.timeline_weight (by decide)]; rfl)
  have burst := RepvggAccTop.FirstRun.received_burst runs le_rfl latency 17 162
  have map := RepvggAccTop.FirstRun.received_map runs le_rfl latency 181 50178
  rw [show Control.fetched 1 (17 + 1 - 16) = 0 by decide, Nat.add_zero,
    show Control.fetched 1 (17 + 1 + 162 - 16) = 160 by decide] at burst
  rw [show Control.mapFetched 1 (181 + 1 - 16) = 0 by decide, Nat.add_zero,
    show Control.mapFetched 1 (181 + 1 + 50178 - 16) = 50176 by decide] at map
  exact ⟨⟨bursts.1 17 weightStart, burst⟩, bursts.2 181 imapStart, map⟩

end System

end RepVGGAcc
