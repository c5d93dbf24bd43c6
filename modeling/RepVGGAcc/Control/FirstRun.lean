import RepVGGAcc.Clocked.Trace
import RepVGGAcc.Control.Timeline

/-! The first run on a pipelined memory: what the control does in every cycle, and the
words that are written. -/

namespace RepVGGAcc

open Clocked
open IcbMaster (Grant)

theorem Control.next_busy {c : Control} (busy : c.main.state ≠ .idle) (start rsp : Bool) :
    c.next start rsp = c.next false rsp := by
  have same : MainFsm.nextState c.main (c.mainInput start) =
      MainFsm.nextState c.main (c.mainInput false) := by
    unfold MainFsm.nextState
    cases state : c.main.state with
    | idle => exact absurd state busy
    | wsetup => rfl
    | isetup => rfl
    | conv => rfl
  apply Control.ext
  case main =>
    show MainFsm.step _ _ = MainFsm.step _ _
    simp only [MainFsm.step, MainFsm.weightTrigger, same]
    rfl
  all_goals rfl

structure Settings where
  inAddr : BitVec 32
  w3Addr : BitVec 32
  w1Addr : BitVec 32
  outAddr : BitVec 32

structure Settings.HeldBy (settings : Settings) (s : RepvggAccTop.State) : Prop where
  inAddr : s.icbSlave.inAddr = settings.inAddr
  w3Addr : s.icbSlave.w3Addr = settings.w3Addr
  w1Addr : s.icbSlave.w1Addr = settings.w1Addr
  outAddr : s.icbSlave.outAddr = settings.outAddr

namespace RepvggAccTop

/-- From reset on the bus accepts every command and answers it `L` cycles later. The
first start command is taken in cycle `a`, and no second one before cycle `stop`. The
data of the answers is arbitrary. -/
structure FirstRun (L a stop : Nat) (s : Nat → State) (i : Nat → Input) : Prop where
  trace : IsTrace step s i
  initial : IsReset (s 0)
  ready : ∀ t, (i t).accIcbCmdReady = true
  silent : ∀ t < L, (i t).accIcbRspValid = false
  answered : ∀ t, (i (t + L)).accIcbRspValid = accepts (s t) (i t)
  starts : (s a).icbSlave.start.getLsbD 0 = true
  once : ∀ t < stop, t ≠ a → (s t).mainFsm.state = .idle →
    (s t).icbSlave.start.getLsbD 0 = false

theorem macArray_trace {s : Nat → State} {i : Nat → Input} (trace : IsTrace step s i) :
    IsTrace MacArray.step (fun t => (s t).macArray) (fun t => macInput (s t) (i t)) :=
  trace.component State.macArray macInput fun _ _ => rfl

def writeCommand (s : State) (i : Input) : Option BusUnits.Command :=
  if accepts s i && !(command s i).read then some (command s i) else none

theorem Shows.writeCommand {c : Control} {s : State} {i : Input} (shows : Shows c s)
    (flows : c.omapPipe = true → c.grant = .omap) (ready : i.accIcbCmdReady = true) :
    RepvggAccTop.writeCommand s i =
      if c.omapPipe then
        some {
          addr := s.icbSlave.outAddr + (BitVec.ofNat 32 c.omapCnt <<< 2)
          read := false
          wdata := s.bus.omapBiu.pipe.datR }
      else none := by
  have grant : s.bus.icbMaster.state = c.grant := by rw [shows.grant]
  have read : (command s i).read = (c.grant == .weight || c.grant == .imap) := by
    rw [← grant]
    rfl
  unfold RepvggAccTop.writeCommand accepts
  rw [ready, Bool.and_true, shows.accIcbCmdValid, read]
  cases pipe : c.omapPipe with
  | true =>
      have omap := flows pipe
      have valid : c.cmdValid = true := by
        rw [Control.cmdValid, omap]
        exact pipe
      have data : (command s i).wdata = s.bus.omapBiu.pipe.datR := by
        show (if s.bus.icbMaster.state = .omap then _ else _) = _
        rw [grant, if_pos omap]
        rfl
      have addr : (command s i).addr =
          s.icbSlave.outAddr + (BitVec.ofNat 32 c.omapCnt <<< 2) := by
        show BusUnits.accIcbCmdAddr _ _ = _
        unfold BusUnits.accIcbCmdAddr
        rw [grant, omap, ← shows.omapCnt]
        rfl
      rw [omap] at read ⊢
      rw [valid]
      show some (command s i) = some _
      rw [show command s i =
        ⟨(command s i).addr, (command s i).read, (command s i).wdata⟩ from rfl, addr, read, data]
      rfl
  | false =>
      cases granted : c.grant with
      | none => simp [Control.cmdValid, granted]
      | omap => simp [Control.cmdValid, granted, pipe]
      | weight => simp
      | imap => simp

namespace FirstRun

variable {L a stop : Nat} {s : Nat → State} {i : Nat → Input}

/-- Before the start command the control rests, and after it the start port is not looked
at before the run has ended. -/
theorem timeline_succ (run : FirstRun L a stop s i) (some_ : 1 ≤ L) (latency : L ≤ 1000)
    {t : Nat} (within : t < stop) (shown : Shows (Control.timeline L (t - a)) (s t)) :
    (Control.timeline L (t - a)).next ((s t).icbSlave.start.getLsbD 0)
      (Control.response L (t - a)) = Control.timeline L (t + 1 - a) := by
  obtain early | rfl | late : t < a ∨ t = a ∨ a < t := by omega
  · have idle : (s t).mainFsm.state = .idle := by
      rw [shown.main, Nat.sub_eq_zero_of_le early.le, Control.timeline_zero]
      rfl
    rw [run.once t within (by omega) idle, Nat.sub_eq_zero_of_le early.le,
      Nat.sub_eq_zero_of_le early, Control.response_zero some_, Control.timeline_zero,
      Control.next_rest]
  · have first := Control.next_timeline some_ latency (t - t)
    rw [Nat.sub_self] at first ⊢
    rw [run.starts, Nat.add_sub_cancel_left]
    exact first
  · have later := Control.next_timeline some_ latency (t - a)
    rw [decide_eq_false (by omega)] at later
    rw [show t + 1 - a = t - a + 1 by omega, ← later]
    by_cases idle : (s t).mainFsm.state = .idle
    · rw [run.once t within (by omega) idle]
    · exact Control.next_busy (by rwa [shown.main] at idle) _ _

/-- In every cycle the control is where the timeline says. -/
theorem shows (run : FirstRun L a stop s i) (some_ : 1 ≤ L) (latency : L ≤ 1000) {t : Nat}
    (within : t ≤ stop) :
    Shows (Control.timeline L (t - a)) (s t) ∧
      (i t).accIcbRspValid = Control.response L (t - a) := by
  induction t using Nat.strong_induction_on with
  | _ t held =>
      have shown : Shows (Control.timeline L (t - a)) (s t) := by
        cases t with
        | zero =>
            rw [Nat.zero_sub, Control.timeline_zero]
            exact shows_reset run.initial
        | succ t =>
            obtain ⟨before, answer⟩ := held t (by omega) (by omega)
            have fits := Control.fits_timeline latency (t - a)
            rw [← answer] at fits
            have next := before.step fits
            rw [answer, run.timeline_succ some_ latency (by omega) before] at next
            rw [run.trace t]
            exact next
      refine ⟨shown, ?_⟩
      unfold Control.response
      by_cases early : t < L
      · rw [run.silent t early, decide_eq_false (by omega), Bool.false_and]
      obtain ⟨u, rfl⟩ := Nat.exists_eq_add_of_le' (by omega : L ≤ t)
      have issued := (held u (by omega) (by omega)).1
      rw [run.answered u, accepts, run.ready u, Bool.and_true, issued.accIcbCmdValid]
      by_cases begun : L ≤ u + L - a
      · rw [decide_eq_true begun, Bool.true_and]
        congr 2
        omega
      · rw [decide_eq_false begun, Nat.sub_eq_zero_of_le (by omega : u ≤ a),
          Control.timeline_zero]
        rfl

theorem control_eq (run : FirstRun L a stop s i) (some_ : 1 ≤ L) (latency : L ≤ 1000) {t : Nat}
    (within : t ≤ stop) : Shows (Control.timeline L (t - a)) (s t) :=
  (run.shows some_ latency within).1

theorem writeCommand_eq (run : FirstRun L a stop s i) (some_ : 1 ≤ L) (latency : L ≤ 1000)
    {t : Nat} (within : t ≤ stop) :
    writeCommand (s t) (i t) =
      if (Control.timeline L (t - a)).omapPipe then
        some {
          addr := (s t).icbSlave.outAddr +
            BitVec.ofNat 32 (4 * Control.written L (t - a))
          read := false
          wdata := (s t).bus.omapBiu.pipe.datR }
      else none := by
  rw [(run.control_eq some_ latency within).writeCommand
    (Control.fits_timeline latency (t - a)).flows (run.ready t)]
  split_ifs with writing
  · have bound := Control.written_lt latency writing
    rw [Control.omapCnt_timeline latency, Nat.mod_eq_of_lt bound]
    congr 3
    exact BitVec.eq_of_toNat_eq (by simp [Nat.shiftLeft_eq]; omega)
  · rfl

end FirstRun

end RepvggAccTop

end RepVGGAcc
