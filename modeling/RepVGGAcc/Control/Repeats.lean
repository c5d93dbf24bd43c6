import RepVGGAcc.Control.Fetches
import RepVGGAcc.Control.FirstRun

/-! Several runs in a row on a pipelined memory. The control of each is that of the first one,
but for the read address of the input map, which starts where the run before has left it. -/

namespace RepVGGAcc

open Clocked
open IcbMaster (Grant)

/-- The state without `imap_cnt`, which decides nothing but the read address. -/
def MacArrayFsm.State.forget (s : MacArrayFsm.State) : MacArrayFsm.State :=
  { s with imapCnt := 0 }

namespace Control

def forget (c : Control) : Control :=
  { c with fsm := c.fsm.forget }

theorem forget_next (c : Control) (start rsp : Bool) :
    (c.next start rsp).forget = (c.forget.next start rsp).forget := rfl

section ForgetEq

variable {c c' : Control} (same : c.forget = c'.forget)

include same

theorem grant_of_forget : c.grant = c'.grant := by
  have grant : c.forget.grant = c'.forget.grant := congrArg Control.grant same
  exact grant

theorem weight_of_forget : c.weight = c'.weight := by
  have weight : c.forget.weight = c'.forget.weight := congrArg Control.weight same
  exact weight

theorem outChCnt_of_forget : c.fsm.outChCnt = c'.fsm.outChCnt := by
  have channel : c.forget.fsm.outChCnt = c'.forget.fsm.outChCnt :=
    congrArg (fun c => c.fsm.outChCnt) same
  exact channel

theorem arrayEn_of_forget : MacArrayFsm.arrayEn c.fsm = MacArrayFsm.arrayEn c'.fsm := by
  have enabled : MacArrayFsm.arrayEn c.forget.fsm = MacArrayFsm.arrayEn c'.forget.fsm :=
    congrArg (fun c => MacArrayFsm.arrayEn c.fsm) same
  exact enabled

end ForgetEq

theorem forget_cmdValid (c : Control) : c.forget.cmdValid = c.cmdValid := rfl

theorem Fits.of_forget {c c' : Control} {rsp : Bool} (same : c.forget = c'.forget)
    (fits : c'.Fits rsp) : c.Fits rsp := by
  have fitting : c'.forget.Fits rsp := ⟨fits.flows, fits.weight, fits.imap⟩
  rw [← same] at fitting
  exact ⟨fitting.flows, fitting.weight, fitting.imap⟩

/-- The cycles of a run until the last fetch, which nobody uses, has ended. -/
def runCycles (L : Nat) : Nat :=
  451984 + 4 * L

variable {L u : Nat}

theorem forget_timeline_late (latency : L ≤ 1000) (late : runCycles L ≤ u) :
    (timeline L u).forget = (rest MainFsm.reset).forget := by
  unfold runCycles at late
  obtain ⟨d, rfl⟩ := Nat.exists_eq_add_of_le (by omega : 53539 + 2 * L + 6272 * 63 ≤ u)
  have loaded : Burst.during WeightBiu.burstWords L 3138 (3148 + L) d =
      .rest WeightBiu.burstWords :=
    Burst.during_late (by omega) (by unfold WeightBiu.burstWords; omega)
  rw [timeline_channel latency le_rfl (Or.inr rfl)]
  apply Control.ext
  case main =>
    unfold channelPhase forget rest
    simp [MainFsm.reset, show 3143 ≤ d by omega, show ¬ d ≤ 3136 by omega,
      show d ≠ 3137 by omega, show d ≠ 3143 by omega]
  case fsm =>
    have ended : fsmAt (3195 + 6272 * 63 + d) = MacArrayFsm.rested 59 false := by
      unfold fsmAt
      rw [if_neg (by omega), decide_eq_false (by omega)]
    show (fsmAt (3195 + 6272 * 63 + d)).forget = MacArrayFsm.reset.forget
    rw [ended]
    rfl
  case grant =>
    show (if 2 ≤ d ∧ d < 3147 + L then Grant.omap
      else if 63 ≠ 62 ∧ 3148 + L ≤ d ∧ d < 3309 + 2 * L then .weight else .none) = .none
    rw [if_neg (by omega), if_neg (by omega)]
  case weight => exact loaded
  case imap => rfl
  case omapCnt =>
    show (3136 * 63 + mapDone d 10) % 200704 = 0
    unfold mapDone
    omega
  case omapRcv =>
    show mapDone d (10 + L) % 3136 = 0
    unfold mapDone
    omega
  case omapReq => exact decide_eq_false (by omega)
  case psumVld => exact decide_eq_false (by omega)
  case psumPipe => exact decide_eq_false (by omega)
  case mergerPipe => exact decide_eq_false (by omega)
  case omapPipe => exact decide_eq_false (by omega)

theorem cmdValid_late (latency : L ≤ 1000) (late : runCycles L ≤ u + L) :
    (timeline L u).cmdValid = false := by
  unfold runCycles at late
  obtain ⟨d, rfl⟩ := Nat.exists_eq_add_of_le (by omega : 53539 + 2 * L + 6272 * 63 ≤ u)
  rw [timeline_channel latency le_rfl (Or.inr rfl), cmdValid_channelPhase]
  exact decide_eq_false (by unfold WeightBiu.burstWords; omega)

theorem fetched_late (latency : L ≤ 1000) (late : runCycles L ≤ u) : fetched L u = 10400 := by
  unfold runCycles at late
  obtain ⟨d, rfl⟩ := Nat.exists_eq_add_of_le (by omega : 53539 + 2 * L + 6272 * 63 ≤ u)
  rw [fetched_channel latency le_rfl (Or.inr rfl), if_neg (by decide)]
  omega

theorem fetched_le (latency : L ≤ 1000) (u : Nat) : fetched L u ≤ 10400 := by
  obtain weight | ⟨d, map, rfl⟩ | ⟨d, fill, rfl⟩ | ⟨n, last, d, channel, rfl⟩ := phase_cases L u
  · rw [fetched_weight (by omega)]
    omega
  · rw [fetched_imap (by omega)]
    decide
  · rw [fetched_fill latency (by omega)]
    omega
  · rw [fetched_channel latency last (by omega)]
    split_ifs <;> omega

end Control

namespace RepvggAccTop

/-- From reset on the bus accepts every command and answers it `L` cycles later. Run `k` is
started in cycle `start k`, when the run before has ended; up to cycle `stop` there are the
runs up to `n` and no other ones. -/
structure Repeats (L : Nat) (start : Nat → Nat) (n stop : Nat) (s : Nat → State)
    (i : Nat → Input) : Prop where
  trace : IsTrace step s i
  initial : IsReset (s 0)
  ready : ∀ t, (i t).accIcbCmdReady = true
  silent : ∀ t < L, (i t).accIcbRspValid = false
  answered : ∀ t, (i (t + L)).accIcbRspValid = accepts (s t) (i t)
  starts : ∀ k ≤ n, (s (start k)).icbSlave.start.getLsbD 0 = true
  apart : ∀ k < n, start k + Control.runCycles L ≤ start (k + 1)
  within : start n ≤ stop
  once : ∀ t < stop, (∀ k ≤ n, t ≠ start k) → (s t).mainFsm.state = .idle →
    (s t).icbSlave.start.getLsbD 0 = false

/-- The control registers are where the timeline says, but for `imap_cnt`. -/
def Follows (L u : Nat) (s : State) : Prop :=
  ∃ c, Shows c s ∧ c.forget = (Control.timeline L u).forget

namespace Repeats

variable {L n stop : Nat} {start : Nat → Nat} {s : Nat → State} {i : Nat → Input}

/-- Run `k` is about to start, with no response under way. -/
structure Begins (L : Nat) (s : Nat → State) (i : Nat → Input) (b : Nat) : Prop where
  rested : Follows L 0 (s b)
  quiet : ∀ t, b ≤ t → t < b + L → (i t).accIcbRspValid = false

/-- A cycle that belongs to run `k`, the first cycle of the next one included. -/
structure InRun (start : Nat → Nat) (n stop k t : Nat) : Prop where
  counted : k ≤ n
  begun : start k ≤ t
  before : t ≤ stop
  next : k < n → t ≤ start (k + 1)

variable (repeats : Repeats L start n stop s i)

include repeats

theorem start_lt {j k : Nat} (before : j < k) (counted : k ≤ n) :
    start j < start k := by
  induction k, before using Nat.le_induction with
  | base =>
      have bound := repeats.apart j counted
      unfold Control.runCycles at bound
      exact Nat.lt_of_lt_of_le (by omega) bound
  | succ k from_ held =>
      have bound := repeats.apart k (by omega)
      have earlier := held (by omega)
      unfold Control.runCycles at bound
      omega

theorem start_le {j k : Nat} (before : j ≤ k) (counted : k ≤ n) : start j ≤ start k := by
  obtain rfl | earlier := before.eq_or_lt
  · exact le_rfl
  · exact (repeats.start_lt earlier counted).le

theorem unstarted {k t : Nat} (counted : k ≤ n) (begun : start k < t)
    (before : t < stop) (next : k < n → t < start (k + 1))
    (idle : (s t).mainFsm.state = .idle) : (s t).icbSlave.start.getLsbD 0 = false := by
  refine repeats.once t before (fun j inside same => ?_) idle
  subst same
  obtain earlier | rfl | later : j < k ∨ j = k ∨ k < j := by omega
  · have order := repeats.start_lt earlier counted
    omega
  · omega
  · have bound := next (by omega)
    obtain rfl | after_ : j = k + 1 ∨ k + 1 < j := by omega
    · omega
    · have order := repeats.start_lt after_ inside
      omega

/-- From its start command on a run goes through the timeline. -/
theorem follows (some_ : 1 ≤ L) (latency : L ≤ 1000) {k t : Nat}
    (begins : Begins L s i (start k)) (inRun : InRun start n stop k t) :
    Follows L (t - start k) (s t) ∧
      (i t).accIcbRspValid = Control.response L (t - start k) := by
  obtain ⟨counted, begun, before, next⟩ := inRun
  obtain ⟨u, rfl⟩ := Nat.exists_eq_add_of_le begun
  rw [Nat.add_sub_cancel_left]
  induction u using Nat.strong_induction_on with
  | _ u held =>
      have shown : Follows L u (s (start k + u)) := by
        cases u with
        | zero => exact begins.rested
        | succ u =>
            obtain ⟨⟨c, shown, same⟩, answer⟩ :=
              held u (by omega) (by omega) (by omega) (fun more => by have := next more; omega)
            have fits := Control.fits_timeline latency u
            rw [← answer] at fits
            have stepped := shown.step (fits.of_forget same)
            rw [← repeats.trace (start k + u)] at stepped
            refine ⟨_, stepped, ?_⟩
            rw [Control.forget_next, same, ← Control.forget_next,
              ← Control.next_timeline some_ latency u, answer]
            cases u with
            | zero =>
                rw [Nat.add_zero, repeats.starts k counted]
                rfl
            | succ u =>
                rw [decide_eq_false (Nat.succ_ne_zero u)]
                by_cases idle : (s (start k + (u + 1))).mainFsm.state = .idle
                · rw [repeats.unstarted counted (by omega) (by omega)
                    (fun more => by have := next more; omega) idle]
                · have busy : (Control.timeline L (u + 1)).main.state ≠ .idle := by
                    have main := congrArg Control.main same
                    rw [shown.main] at idle
                    exact fun rested => idle ((congrArg MainFsm.State.state main).trans rested)
                  rw [Control.next_busy busy]
      refine ⟨shown, ?_⟩
      unfold Control.response
      by_cases early : u < L
      · rw [begins.quiet _ (by omega) (by omega), decide_eq_false (by omega), Bool.false_and]
      · obtain ⟨v, rfl⟩ := Nat.exists_eq_add_of_le' (by omega : L ≤ u)
        obtain ⟨⟨c, issued, same⟩, -⟩ :=
          held v (by omega) (by omega) (by omega) (fun more => by have := next more; omega)
        rw [← Nat.add_assoc, repeats.answered (start k + v), accepts, repeats.ready,
          Bool.and_true, issued.accIcbCmdValid, decide_eq_true (by omega : L ≤ v + L),
          Bool.true_and, Nat.add_sub_cancel, ← Control.forget_cmdValid, same]
        rfl

theorem firstRun : FirstRun L (start 0) (start 0) s i where
  trace := repeats.trace
  initial := repeats.initial
  ready := repeats.ready
  silent := repeats.silent
  answered := repeats.answered
  starts := repeats.starts 0 (Nat.zero_le n)
  once := fun t before _ idle => by
    have within := repeats.within
    refine repeats.once t (before.trans_le ?_) (fun k counted same => ?_) idle
    · exact (repeats.start_le (Nat.zero_le n) le_rfl).trans within
    · have order := repeats.start_le (Nat.zero_le k) counted
      omega

theorem begins_zero (some_ : 1 ≤ L) (latency : L ≤ 1000) : Begins L s i (start 0) where
  rested := by
    have shown := repeats.firstRun.control_eq some_ latency le_rfl
    rw [Nat.sub_self] at shown
    exact ⟨_, shown, rfl⟩
  quiet := fun t _ before => by
    by_cases early : t < L
    · exact repeats.silent t early
    obtain ⟨u, rfl⟩ := Nat.exists_eq_add_of_le' (Nat.le_of_not_lt early)
    have shown := repeats.firstRun.control_eq some_ latency (t := u) (by omega)
    rw [repeats.answered u, accepts, shown.accIcbCmdValid, Nat.sub_eq_zero_of_le (by omega),
      Control.timeline_zero]
    rfl

theorem begins_succ (some_ : 1 ≤ L) (latency : L ≤ 1000) {k : Nat} (counted : k < n)
    (begins : Begins L s i (start k)) : Begins L s i (start (k + 1)) := by
  have apart := repeats.apart k counted
  have stops := repeats.start_le (j := k + 1) (k := n) (by omega) le_rfl
  have within := repeats.within
  have inRun {t : Nat} (begun : start k ≤ t) (before : t ≤ start (k + 1)) :
      InRun start n stop k t := ⟨counted.le, begun, by omega, fun _ => before⟩
  refine ⟨?_, fun t from_ before => ?_⟩
  · obtain ⟨c, shown, same⟩ :=
      (repeats.follows some_ latency begins (inRun (by omega) le_rfl)).1
    refine ⟨c, shown, ?_⟩
    rw [same, Control.forget_timeline_late latency (by omega), Control.timeline_zero]
  · unfold Control.runCycles at apart
    obtain ⟨u, rfl⟩ := Nat.exists_eq_add_of_le' (by omega : L ≤ t)
    obtain ⟨c, shown, same⟩ :=
      (repeats.follows some_ latency begins (inRun (t := u) (by omega) (by omega))).1
    rw [repeats.answered u, accepts, shown.accIcbCmdValid, ← Control.forget_cmdValid, same,
      Control.forget_cmdValid, Control.cmdValid_late latency (by unfold Control.runCycles; omega)]
    rfl

theorem begins (some_ : 1 ≤ L) (latency : L ≤ 1000) {k : Nat} (counted : k ≤ n) :
    Begins L s i (start k) := by
  induction k with
  | zero => exact repeats.begins_zero some_ latency
  | succ k held => exact repeats.begins_succ some_ latency counted (held (by omega))

theorem follows_run (some_ : 1 ≤ L) (latency : L ≤ 1000) {k t : Nat}
    (inRun : InRun start n stop k t) : Follows L (t - start k) (s t) ∧
      (i t).accIcbRspValid = Control.response L (t - start k) :=
  repeats.follows some_ latency (repeats.begins some_ latency inRun.counted) inRun

end Repeats

end RepvggAccTop

end RepVGGAcc
