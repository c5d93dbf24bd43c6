import RepVGGAcc.System.Contents

/-! The register `DONE` in the first run, and what the memory holds when it is set. -/

namespace RepVGGAcc

namespace Control

variable {L : Nat}

theorem accDone_eq (latency : L ≤ 1000) (u : Nat) :
    (timeline L u).main.accDone = decide (u = 451818 + 2 * L) := by
  obtain weight | ⟨d, map, rfl⟩ | ⟨d, fill, rfl⟩ | ⟨n, last, d, channel, rfl⟩ :=
    phase_cases L u
  · rw [timeline_weight (by omega), decide_eq_false (by omega)]
    rfl
  · rw [timeline_imap (by omega), decide_eq_false (by omega)]
    rfl
  · rw [timeline_fill latency (by omega), decide_eq_false (by omega)]
    rfl
  · rw [timeline_channel latency last (by omega)]
    show decide (n = 63 ∧ d = 3143) = _
    exact decide_eq_decide.mpr (by omega)

/-- When `DONE` shows 1, two words are on their way. -/
theorem written_done (L : Nat) : written L (451819 + 2 * L) = 200702 := by
  rw [show 451819 + 2 * L = 53539 + 2 * L + 6272 * 63 + 3144 by omega,
    written_channel le_rfl (Or.inr rfl)]
  rfl

end Control

namespace RepvggAccTop

variable {L a stop : Nat} {s : Nat → State} {i : Nat → Input} {settings : Settings}
  {memory : Memory}

/-- The driver writes nothing to `DONE` from cycle `a` on. -/
def LeavesDone (a stop : Nat) (s : Nat → State) (i : Nat → Input) : Prop :=
  ∀ t, a ≤ t → t < stop →
    IcbSlave.writes (s t).icbSlave (slaveInput (s t) (i t)) IcbSlave.doneAddr = false

theorem FirstRun.done_eq (run : FirstRun L a stop s i) (some_ : 1 ≤ L) (latency : L ≤ 1000)
    (cleared : (s a).icbSlave.done = 0) {t : Nat} (begun : a ≤ t) (within : t ≤ stop)
    (leaves : LeavesDone a t s i) :
    (s t).icbSlave.done = if t < a + (451819 + 2 * L) then 0 else 1 := by
  induction t, begun using Nat.le_induction with
  | base => rw [cleared, if_pos (by omega)]
  | succ t begun held =>
      have before := held (by omega) fun u from_ until_ => leaves u from_ (by omega)
      have shown := run.control_eq some_ latency (t := t) (by omega)
      have reported : (slaveInput (s t) (i t)).accDone = decide (t - a = 451818 + 2 * L) := by
        rw [← Control.accDone_eq latency, ← shown.main]
        rfl
      rw [run.trace t]
      show (if IcbSlave.writes (s t).icbSlave (slaveInput (s t) (i t)) IcbSlave.doneAddr then _
        else if (slaveInput (s t) (i t)).accDone then 1 else (s t).icbSlave.done) = _
      rw [leaves t begun (Nat.lt_succ_self t), reported, before]
      by_cases last : t - a = 451818 + 2 * L
      · rw [decide_eq_true last, if_neg (by omega : ¬ t + 1 < _)]
        rfl
      · rw [decide_eq_false last]
        show (if t < a + (451819 + 2 * L) then (0 : BitVec 32) else 1) = _
        exact if_congr (by omega) rfl rfl

theorem FirstRun.quiet (run : FirstRun L a stop s i) (some_ : 1 ≤ L) (latency : L ≤ 1000) {t : Nat}
    (early : t < a) (within : t ≤ stop) : (s t).mainFsm.accDone = false := by
  rw [(run.control_eq some_ latency within).main, show t - a = 0 by omega, Control.timeline_zero]
  rfl

/-- `DONE` is set in cycle `a + 451819 + 2 * L` and not before. The memory then holds all
words of the map but two, and all of them two cycles later. -/
structure Reports (L a stop : Nat) (settings : Settings) (memory : Memory) (s : Nat → State)
    (i : Nat → Input) : Prop where
  done : ∀ t, a ≤ t → t ≤ stop →
    (s t).icbSlave.done = if t < a + (451819 + 2 * L) then 0 else 1
  missing : a + (451819 + 2 * L) ≤ stop →
    HoldsMap settings memory 200702 (contents memory s i (a + (451819 + 2 * L)))
  complete : ∀ t, a + (451821 + 2 * L) ≤ t → t ≤ stop →
    HoldsMap settings memory 200704 (contents memory s i t)

theorem FirstRun.reports (run : FirstRun L a stop s i) (some_ : 1 ≤ L) (latency : L ≤ 1000)
    (settled : ∀ t, a ≤ t → t ≤ stop → settings.HeldBy (s t)) (regions : settings.Regions)
    (answers : Answers memory s i L) (cleared : (s a).icbSlave.done = 0)
    (leaves : LeavesDone a stop s i) : Reports L a stop settings memory s i where
  done := fun t begun within =>
    run.done_eq some_ latency cleared begun within
      fun u from_ until_ => leaves u from_ (by omega)
  missing := fun within => by
    have holds := run.holdsWritten some_ latency settled regions answers
      (t := a + (451819 + 2 * L)) (by omega)
    rwa [Nat.add_sub_cancel_left, Control.written_done] at holds
  complete := fun t late within => by
    have holds := run.holdsWritten some_ latency settled regions answers (t := t) (by omega)
    rwa [Control.written_late (by omega)] at holds

end RepvggAccTop

namespace System

variable {settings : Settings}

theorem writes_done (s : IcbSlave.State) (t : Nat) (accDone : Bool) :
    IcbSlave.writes s (driver settings t accDone) IcbSlave.doneAddr = false := by
  by_cases through : 16 ≤ t
  · exact writes_driver through s accDone _
  unfold IcbSlave.writes
  rw [regAddr_driver]
  have other : ((entry settings (t / 2)).1 == IcbSlave.doneAddr) = false := by
    have inProgram : t / 2 < 8 := by omega
    generalize t / 2 = k at inProgram ⊢
    interval_cases k <;> rfl
  rw [other, Bool.and_false]

theorem Programs.done_eq {s : Nat → RepvggAccTop.State} (programs : Programs settings s)
    (quiet : ∀ t < 16, (s t).mainFsm.accDone = false) {t : Nat} (early : t ≤ 16) :
    (s t).icbSlave.done = 0 := by
  induction t with
  | zero =>
      rw [programs.initial]
      rfl
  | succ t held =>
      rw [programs.next t]
      show (if IcbSlave.writes (s t).icbSlave (driver settings t (s t).mainFsm.accDone)
          IcbSlave.doneAddr then _
        else if (s t).mainFsm.accDone then 1 else (s t).icbSlave.done) = _
      rw [writes_done, quiet t (by omega), held (by omega)]
      rfl

end System

namespace RepvggAccTop

theorem FirstRun.reports_program :
    Reports 1 16 500000 System.offsets sparse (System.top System.offsets sparse)
      (System.topInput System.offsets sparse) :=
  (System.firstRun System.offsets sparse 500000).reports (by decide) (by decide)
    (fun _ started _ => System.settled System.offsets sparse started) regions_offsets
    (System.answers System.offsets sparse)
    ((System.programs_top System.offsets sparse).done_eq
      (fun _ early => (System.firstRun System.offsets sparse 500000).quiet (by decide)
        (by decide) early (by omega)) le_rfl)
    fun _ _ _ => System.writes_done _ _ _

end RepvggAccTop

end RepVGGAcc
