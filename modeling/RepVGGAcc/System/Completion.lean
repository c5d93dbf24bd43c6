import RepVGGAcc.MacArray.Feed
import RepVGGAcc.System.Program

/-! Completion: when `DONE` shows the end of a run, and which words have been written
by then. -/

namespace RepVGGAcc.RepvggAccTop

open Clocked
open MacArrayFsm (Scan)

/-! Each output word comes from an item of the second group. Its way through the pipe
stages is followed by the cycle in which `psum_acc` has taken this item. -/

def takes (s : State) : Bool :=
  PsumAcc.ldEn s.psumAcc (psumInput s)

/-- For every register of the output path the cycle its content was taken in. -/
structure Stamps where
  psumAcc : Nat
  psumPipe : Nat
  mergerPipe : Nat
  omapPipe : Nat

/-- The stamps move with the data: under the load enables of the data registers. -/
def Stamps.step (t : Nat) (s : State) (i : Input) (p : Stamps) : Stamps where
  psumAcc := sirvGnrlDfflr (takes s) t p.psumAcc
  psumPipe := sirvGnrlDfflr
    (SirvGnrlPipeStage.vldSet s.psumAcc.pipe s.psumAcc.psumAccVldOut (psumAcc2mapMergerRdy s))
    p.psumAcc p.psumPipe
  mergerPipe := sirvGnrlDfflr
    (SirvGnrlPipeStage.vldSet s.mapMerger.pipe (MapMerger.mapMergerVldOut s.mapMerger (mergerInput s))
      (mapMerger2omapBiuRdy s))
    p.psumPipe p.mergerPipe
  omapPipe := sirvGnrlDfflr
    (SirvGnrlPipeStage.vldSet s.bus.omapBiu.pipe
      (OmapBiu.hdshkIn s.bus.omapBiu (BusUnits.omapInput s.bus (busInput s i)))
      (IcbMaster.rdy s.bus.icbMaster .omap))
    p.mergerPipe p.omapPipe

def stamps (s : Nat → State) (i : Nat → Input) : Nat → Stamps
  | 0 => ⟨0, 0, 0, 0⟩
  | t + 1 => (stamps s i t).step t (s t) (i t)

/-- In cycle `v` the bus accepts the word of the item taken in cycle `u`. -/
def WritesWordOf (s : Nat → State) (i : Nat → Input) (u v : Nat) : Prop :=
  (writeCommand (s v) (i v)).isSome = true ∧ (stamps s i v).omapPipe = u

/-- A run: `main_fsm` leaves the idle state in cycle `b` and emits `acc_done` in cycle
`d`. -/
structure IsRun (s : Nat → State) (b d : Nat) : Prop where
  starts : (s b).mainFsm.state = .idle
  busy : ∀ t, b < t → t < d → (s t).mainFsm.state ≠ .idle
  after : b < d
  done : (s d).mainFsm.accDone = true

/-- In cycle `t` the register `DONE` still holds what `acc_done` has put there in cycle
`d`. -/
def SetByAccDone (s : Nat → State) (i : Nat → Input) (d t : Nat) : Prop :=
  d < t ∧ ∀ u, d ≤ u → u < t →
    IcbSlave.writes (s u).icbSlave (slaveInput (s u) (i u)) IcbSlave.doneAddr = false

def AllWritten (s : Nat → State) (i : Nat → Input) (b d t : Nat) : Prop :=
  ∀ u, b < u → u < d → takes (s u) = true → ∃ v < t, WritesWordOf s i u v

/-- `DONE` means written: while it holds the value of `acc_done`, all words of the run
have been accepted. -/
def DoneMeansWritten (s : Nat → State) (i : Nat → Input) (b d : Nat) : Prop :=
  ∀ t, SetByAccDone s i d t → AllWritten s i b d t

/-- A valid register holds an item taken at least as many cycles ago as the way to it is
long. -/
structure Delayed (t : Nat) (s : State) (p : Stamps) : Prop where
  psumAcc : s.psumAcc.psumAccVldOut = true → p.psumAcc + 1 ≤ t
  psumPipe : s.psumAcc.pipe.vldR = true → p.psumPipe + 2 ≤ t
  mergerPipe : s.mapMerger.pipe.vldR = true → p.mergerPipe + 3 ≤ t
  omapPipe : s.bus.omapBiu.pipe.vldR = true → p.omapPipe + 4 ≤ t

theorem vldR_step {α : Type} {stage : SirvGnrlPipeStage.State α} {iVld oRdy : Bool} {iDat : α}
    (valid : (SirvGnrlPipeStage.step stage iVld iDat oRdy).vldR = true) {p q k t : Nat}
    (new : iVld = true → p + k ≤ t) (old : stage.vldR = true → q + (k + 1) ≤ t) :
    sirvGnrlDfflr (SirvGnrlPipeStage.vldSet stage iVld oRdy) p q + (k + 1) ≤ t + 1 := by
  cases set : SirvGnrlPipeStage.vldSet stage iVld oRdy with
  | true =>
      have offered : iVld = true := by
        unfold SirvGnrlPipeStage.vldSet at set
        exact (Bool.and_eq_true _ _ ▸ set).1
      exact Nat.succ_le_succ (new offered)
  | false =>
      have held : stage.vldR = true := by
        simp only [SirvGnrlPipeStage.step, set, Bool.false_or] at valid
        cases clear : SirvGnrlPipeStage.vldClr stage oRdy with
        | false => simpa [clear] using valid
        | true => simp [clear] at valid
      exact Nat.le_succ_of_le (old held)

theorem Delayed.step {t : Nat} {s : State} {i : Input} {p : Stamps} (delayed : Delayed t s p) :
    Delayed (t + 1) (RepvggAccTop.step s i) (p.step t s i) where
  psumAcc := fun valid => by
    have taken : takes s = true := by
      have valid : (if (psumInput s).macArray2psumAccInfo.inChGroup then
        PsumAcc.hdshkIn s.psumAcc (psumInput s) else false) = true := valid
      split_ifs at valid with second
      show (PsumAcc.hdshkIn _ _ && (psumInput s).macArray2psumAccInfo.inChGroup) = true
      rw [valid, second]
      rfl
    show sirvGnrlDfflr (takes s) t p.psumAcc + 1 ≤ t + 1
    rw [taken]
    exact le_rfl
  psumPipe := fun valid => vldR_step valid delayed.psumAcc delayed.psumPipe
  mergerPipe := fun valid => vldR_step valid (fun offered => 
    delayed.psumPipe (Bool.and_eq_true _ _ ▸ offered).1) delayed.mergerPipe
  omapPipe := fun valid => vldR_step valid (fun offered => 
    delayed.mergerPipe (Bool.and_eq_true _ _ ▸ offered).2) delayed.omapPipe

section Runs

variable {s : Nat → State} {i : Nat → Input}

theorem delayed (trace : IsTrace step s i) (initial : IsReset (s 0)) (t : Nat) :
    Delayed t (s t) (stamps s i t) := by
  induction t with
  | zero =>
      have empty {x : Bool} {m : Nat} (reset : x = false) : x = true → m ≤ 0 := fun set => by
        rw [reset] at set
        cases set
      exact ⟨empty initial.psumAcc.psumAccVldOut, empty initial.psumAcc.vldR,
        empty initial.mapMerger, empty initial.bus.omapBiu.vldR⟩
  | succ t held =>
      rw [trace t]
      exact held.step

theorem writesWordOf_late (trace : IsTrace step s i) (initial : IsReset (s 0)) {u v : Nat}
    (writes : WritesWordOf s i u v) : u + 4 ≤ v := by
  obtain ⟨written, stamp⟩ := writes
  have late := (delayed trace initial v).omapPipe
  rw [stamp] at late
  apply late
  unfold writeCommand at written
  split_ifs at written with writing
  · obtain ⟨valid, notRead⟩ := Bool.and_eq_true _ _ ▸ writing
    have valid := (Bool.and_eq_true _ _ ▸ valid).1
    unfold BusUnits.accIcbCmdValid at valid
    have read : (!((s v).bus.icbMaster.state == .weight || (s v).bus.icbMaster.state == .imap)) =
        true := notRead
    cases granted : (s v).bus.icbMaster.state with
    | omap =>
        rw [granted] at valid
        exact (Bool.and_eq_true _ _ ▸ valid).2
    | none =>
        rw [granted] at valid
        cases valid
    | weight =>
        rw [granted] at read
        cases read
    | imap =>
        rw [granted] at read
        cases read
  · cases written

end Runs

/-! `main_fsm` waits in its last state for `mac_array_fsm`. -/

inductive Coupled : MainFsm.State → Scan → Prop
  | outside {m : MainFsm.State} {skew : Fin 3136} (state : m.state ≠ .conv)
      (convStart : m.convStart = false) : Coupled m (.rest skew false)
  | starting {m : MainFsm.State} {skew : Fin 3136} (state : m.state = .conv)
      (convStart : m.convStart = true) : Coupled m (.rest skew false)
  | computing {m : MainFsm.State} {skew : Fin 3136} {e : Fin 401473} (state : m.state = .conv)
      (convStart : m.convStart = false) : Coupled m (.busy skew e)
  | finished {m : MainFsm.State} {skew : Fin 3136} (state : m.state = .conv)
      (convStart : m.convStart = false) : Coupled m (.rest skew true)

theorem nextState_eq_conv (m : MainFsm.State) (mi : MainFsm.Input) :
    MainFsm.nextState m mi = .conv ↔
      m.state = .isetup ∧ mi.imapDone = true ∨ m.state = .conv ∧ mi.convDone = false := by
  unfold MainFsm.nextState
  cases m.state with
  | idle => cases mi.accStart <;> simp
  | wsetup => cases mi.weightDone <;> simp
  | isetup => simp
  | conv => simp

theorem Coupled.conv_of_busy {m : MainFsm.State} {skew : Fin 3136} {e : Fin 401473}
    (coupled : Coupled m (.busy skew e)) : m.state = .conv := by
  cases coupled with
  | computing state _ => exact state

theorem Coupled.conv_of_done {m : MainFsm.State} {a : Scan} (coupled : Coupled m a)
    (done : a.done = true) : m.state = .conv := by
  cases coupled with
  | outside => cases done
  | starting => cases done
  | computing => cases done
  | finished state _ => exact state

theorem Coupled.step {m : MainFsm.State} {a : Scan} (coupled : Coupled m a)
    {mi : MainFsm.Input} (done : mi.convDone = a.done) (ready : Bool) :
    Coupled (MainFsm.step m mi)
      (a.step { convStart := m.convStart, macArray2psumAccRdy := ready }) := by
  have starts : (MainFsm.step m mi).convStart = (!m.convStart &&
      decide (m.state = .isetup ∧ MainFsm.nextState m mi = .conv)) := MainFsm.pulse_eq _ _
  have next : (MainFsm.step m mi).state = .conv ↔
      m.state = .isetup ∧ mi.imapDone = true ∨ m.state = .conv ∧ mi.convDone = false :=
    nextState_eq_conv m mi
  cases coupled with
  | outside state convStart =>
      simp only [Scan.step, convStart, Bool.false_eq_true, if_false]
      simp only [convStart, nextState_eq_conv] at starts
      by_cases enters : m.state = .isetup ∧ mi.imapDone = true
      · exact .starting (next.mpr (Or.inl enters)) (starts.trans (by simp [enters]))
      · refine .outside (fun conv => ?_) (starts.trans (by simpa [state] using enters))
        rcases next.mp conv with inside | ⟨conv, -⟩
        · exact enters inside
        · exact state conv
  | starting state convStart =>
      have quiet : (MainFsm.step m mi).convStart = false := starts.trans (by simp [convStart])
      simp only [Scan.step, convStart, if_true]
      exact .computing (next.mpr (Or.inr ⟨state, done⟩)) quiet
  | computing state convStart =>
      have quiet : (MainFsm.step m mi).convStart = false := starts.trans (by simp [state])
      have stays := next.mpr (Or.inr ⟨state, done⟩)
      simp only [Scan.step]
      split_ifs
      · exact .computing stays quiet
      · exact .finished stays quiet
      · exact .computing stays quiet
  | finished state convStart =>
      have quiet : (MainFsm.step m mi).convStart = false := starts.trans (by simp [state])
      simp only [Scan.step, convStart, Bool.false_eq_true, if_false]
      refine .outside (fun conv => ?_) quiet
      rcases next.mp conv with ⟨setup, -⟩ | ⟨-, running⟩
      · rw [state] at setup
        cases setup
      · rw [done] at running
        cases running

section Runs

variable {s : Nat → State} {i : Nat → Input}

/-- The scan `a` is what `mac_array_fsm` does in this trace, in step with `main_fsm`. -/
structure Scans (s : Nat → State) (i : Nat → Input) (a : Nat → Scan) : Prop where
  start : a 0 = .rest 0 false
  scans : IsTrace Scan.step a fun t => MacArray.fsmInput (macInput (s t) (i t))
  image : ∀ t, (s t).macArray.macArrayFsm = (a t).toState
  coupled : ∀ t, Coupled (s t).mainFsm (a t)

theorem convDone_of_image {s : State} {a : Scan} (image : s.macArray.macArrayFsm = a.toState) :
    (mainInput s).convDone = a.done := by
  rw [← Scan.convDone_toState, ← image]
  rfl

theorem exists_scans (trace : IsTrace step s i) (initial : IsReset (s 0)) :
    ∃ a : Nat → Scan, Scans s i a := by
  obtain ⟨a, start, scans, image⟩ := MacArrayFsm.exists_scan
    (MacArray.fsm_trace (macArray_trace trace))
    (congrArg MacArray.State.macArrayFsm initial.macArray)
  refine ⟨a, start, scans, image, fun t => ?_⟩
  induction t with
  | zero =>
      rw [initial.mainFsm, start]
      exact .outside (by decide) rfl
  | succ t held =>
      rw [trace t, scans t]
      exact held.step (convDone_of_image (image t)) _

def secondItems (e : Nat) : Nat :=
  3136 * ((e - 65) / 6272) + ((e - 65) % 6272 - 3136)

theorem secondItems_succ (e : Nat) :
    secondItems (e + 1) = secondItems e + (decide (65 ≤ e ∧ (e - 65) / 3136 % 2 = 1)).toNat := by
  unfold secondItems
  by_cases second : 65 ≤ e ∧ (e - 65) / 3136 % 2 = 1
  · rw [decide_eq_true second, Bool.toNat_true]
    omega
  · rw [decide_eq_false second, Bool.toNat_false]
    omega

/-- The items of the second group that a run has handed over. -/
def secondTaken : Scan → Nat
  | .rest _ done => if done then 200704 else 0
  | .busy _ e => secondItems e

theorem takes_rested {s : State} {skew : Nat} {done : Bool}
    (fsm : s.macArray.macArrayFsm = MacArrayFsm.rested skew done) : takes s = false := by
  have vld : macArray2psumAccVld s = false := by
    unfold macArray2psumAccVld
    rw [fsm]
    rfl
  show ((macArray2psumAccVld s && _) && _) = false
  rw [vld]
  rfl

theorem takes_scan {s : State} {skew e : Nat}
    (fsm : s.macArray.macArrayFsm = MacArrayFsm.scan skew e) (running : e < 401473) :
    takes s = (decide (65 ≤ e ∧ (e - 65) / 3136 % 2 = 1) && macArray2psumAccRdy s) := by
  have vld : macArray2psumAccVld s = decide (65 ≤ e ∧ e < 401473) := by
    unfold macArray2psumAccVld
    rw [fsm, MacArrayFsm.vld_scan]
  have group : (MacArrayFsm.macArray2psumAccInfo s.macArray.macArrayFsm).inChGroup =
      decide ((e - 65) / 3136 % 2 = 1) := by
    rw [fsm]
    rfl
  show ((macArray2psumAccVld s && macArray2psumAccRdy s) &&
    (MacArrayFsm.macArray2psumAccInfo s.macArray.macArrayFsm).inChGroup) = _
  rw [vld, group, Bool.and_right_comm, ← Bool.decide_and]
  congr 1
  exact decide_eq_decide.mpr (by omega)

theorem secondTaken_step {s : State} {i : Input} {a : Scan}
    (image : s.macArray.macArrayFsm = a.toState) (running : a.done = false) :
    secondTaken (a.step (MacArray.fsmInput (macInput s i))) =
      secondTaken a + (takes s).toNat := by
  cases a with
  | rest skew done =>
      obtain rfl : done = false := running
      rw [takes_rested image]
      simp only [Scan.step]
      split_ifs <;> rfl
  | busy skew e =>
      have inside := e.isLt
      rw [takes_scan image inside]
      show secondTaken (if macArray2psumAccRdy s = true then _ else _) = secondItems e + _
      cases macArray2psumAccRdy s with
      | false => simp [secondTaken]
      | true =>
          rw [if_pos rfl, Bool.and_true, ← secondItems_succ]
          split_ifs with more
          · rfl
          · obtain last : e.val + 1 = 401473 := by omega
            rw [last]
            rfl

namespace IsRun

variable {a : Nat → Scan} {b d : Nat}

theorem done_before (run : IsRun s b d) (trace : IsTrace step s i) (scans : Scans s i a) :
    ∃ u, d = u + 1 ∧ (a u).done = true := by
  have after := run.after
  obtain ⟨u, rfl⟩ : ∃ u, d = u + 1 := ⟨d - 1, by omega⟩
  have pulse : (s (u + 1)).mainFsm.accDone =
      (!(s u).mainFsm.accDone && decide ((mainInput (s u)).convDone = true)) := by
    rw [trace u]
    exact MainFsm.pulse_eq _ _
  rw [run.done, eq_comm, Bool.and_eq_true, convDone_of_image (scans.image u)] at pulse
  exact ⟨u, rfl, of_decide_eq_true pulse.2⟩

theorem running (run : IsRun s b d) (trace : IsTrace step s i) (scans : Scans s i a) {t : Nat}
    (begun : b ≤ t) (before : t + 1 < d) : (a t).done = false := by
  cases ended : (a t).done with
  | false => rfl
  | true =>
      have conv := (scans.coupled t).conv_of_done ended
      have idle : (s (t + 1)).mainFsm.state = .idle := by
        rw [trace t]
        show MainFsm.nextState (s t).mainFsm (mainInput (s t)) = .idle
        unfold MainFsm.nextState
        rw [conv, convDone_of_image (scans.image t), ended]
        rfl
      exact absurd idle (run.busy (t + 1) (by omega) before)

theorem secondTaken_start (run : IsRun s b d) (scans : Scans s i a) : secondTaken (a b) = 0 := by
  have idle := run.starts
  have coupled := scans.coupled b
  cases now : a b with
  | busy skew e =>
      rw [now] at coupled
      rw [coupled.conv_of_busy] at idle
      cases idle
  | rest skew done =>
      cases done with
      | false => rfl
      | true =>
          rw [now] at coupled
          rw [coupled.conv_of_done rfl] at idle
          cases idle

theorem count_takes (run : IsRun s b d) (trace : IsTrace step s i) (initial : IsReset (s 0)) :
    Nat.count (fun k => takes (s (b + k)) = true) (d - b) = 200704 := by
  obtain ⟨a, scans⟩ := exists_scans trace initial
  have counted (k : Nat) (before : b + k < d) :
      Nat.count (fun k => takes (s (b + k)) = true) k = secondTaken (a (b + k)) := by
    induction k with
    | zero => exact (run.secondTaken_start scans).symm
    | succ k held =>
        have now := run.running trace scans (t := b + k) (by omega) (by omega)
        rw [Nat.count_succ, held (by omega), ← Nat.add_assoc, scans.scans (b + k),
          secondTaken_step (scans.image (b + k)) now]
        cases takes (s (b + k)) <;> rfl
  obtain ⟨u, rfl, ended⟩ := run.done_before trace scans
  have after := run.after
  obtain ⟨k, rfl⟩ := Nat.exists_eq_add_of_le (by omega : b ≤ u)
  cases last : a (b + k) with
  | busy skew e =>
      rw [last] at ended
      cases ended
  | rest skew done =>
      obtain rfl : done = true := by
        rw [last] at ended
        exact ended
      have taken := takes_rested ((scans.image (b + k)).trans (congrArg Scan.toState last))
      rw [show b + k + 1 - b = k + 1 by omega, Nat.count_succ, counted k (by omega), last, taken]
      rfl

/-- The last item of a run is taken two cycles before `acc_done`. -/
theorem lastItem (run : IsRun s b d) (trace : IsTrace step s i) (initial : IsReset (s 0)) :
    ∃ t, d = t + 2 ∧ b < t ∧ takes (s t) = true := by
  obtain ⟨a, scans⟩ := exists_scans trace initial
  obtain ⟨u, rfl, ended⟩ := run.done_before trace scans
  have after := run.after
  cases u with
  | zero =>
      rw [scans.start] at ended
      cases ended
  | succ t =>
      have moved := scans.scans t
      have finished := ended
      cases before : a t with
      | rest skew done =>
          rw [before] at moved
          simp only [Scan.step] at moved
          rw [moved] at ended
          split_ifs at ended <;> cases ended
      | busy skew e =>
          have fsm : (s t).macArray.macArrayFsm = MacArrayFsm.scan skew e := by
            rw [scans.image t, before]
            rfl
          rw [before] at moved
          simp only [Scan.step] at moved
          rw [moved] at ended
          split_ifs at ended with ready last
          · cases ended
          · refine ⟨t, rfl, ?_, ?_⟩
            · have conv : (s t).mainFsm.state = .conv := by
                have now := scans.coupled t
                rw [before] at now
                exact now.conv_of_busy
              have conv' : (s (t + 1)).mainFsm.state = .conv :=
                (scans.coupled (t + 1)).conv_of_done finished
              have idle := run.starts
              obtain early | rfl | rfl : b < t ∨ b = t ∨ b = t + 1 := by omega
              · exact early
              · rw [conv] at idle
                cases idle
              · rw [conv'] at idle
                cases idle
            · rw [takes_scan fsm e.isLt, Bool.and_eq_true]
              exact ⟨decide_eq_true (by omega), ready⟩
          · cases ended

end IsRun

/-- `DONE` is set before the last word is written, in every run and with every bus
timing. The only way out is a driver that overwrites `DONE` in the very cycle in which
`acc_done` would set it. -/
theorem doneMeansWritten_iff (trace : IsTrace step s i) (initial : IsReset (s 0)) {b d : Nat}
    (run : IsRun s b d) :
    DoneMeansWritten s i b d ↔
      IcbSlave.writes (s d).icbSlave (slaveInput (s d) (i d)) IcbSlave.doneAddr = true := by
  constructor
  · intro means
    by_contra unwritten
    rw [Bool.not_eq_true] at unwritten
    obtain ⟨t, rfl, begun, taken⟩ := run.lastItem trace initial
    have set : SetByAccDone s i (t + 2) (t + 3) := by
      refine ⟨by omega, fun u from_ until_ => ?_⟩
      obtain rfl : u = t + 2 := by omega
      exact unwritten
    obtain ⟨v, early, writes⟩ := means (t + 3) set t begun (by omega) taken
    have late := writesWordOf_late trace initial writes
    omega
  · intro written t set
    have unwritten := set.2 d le_rfl set.1
    rw [written] at unwritten
    cases unwritten

end Runs

theorem isRun_program (settings : Settings) (memory : Memory) :
    IsRun (System.top settings memory) 16 451836 := by
  have shown {t : Nat} (within : t ≤ 500000) :
      (System.top settings memory t).mainFsm = (Control.timeline 1 (t - 16)).main :=
    ((System.firstRun settings memory 500000).control_eq (by decide) (by decide) within).main
  refine ⟨?_, fun t started before idle => ?_, by decide, ?_⟩
  · rw [shown (by decide)]
    exact (Control.idle_timeline (by decide) 0).mpr (Or.inl rfl)
  · rw [shown (by omega)] at idle
    have cycle := (Control.idle_timeline (by decide) (t - 16)).mp idle
    omega
  · rw [shown (by decide)]
    exact Control.accDone_timeline (by decide)

/-- In the run of the test program `DONE` is set while the last word is on its way. -/
theorem doneMeansWritten_fails :
    ¬ ∀ (s : Nat → State) (i : Nat → Input) (b d : Nat), IsTrace step s i → IsReset (s 0) →
      IsRun s b d → DoneMeansWritten s i b d := by
  intro claim
  have run := isRun_program System.offsets fun _ => 0
  have means := claim _ _ _ _ (System.trace_top System.offsets fun _ => 0)
    System.isReset_resetTop run
  obtain ⟨t, now, begun, taken⟩ :=
    run.lastItem (System.trace_top System.offsets fun _ => 0) System.isReset_resetTop
  have set : SetByAccDone (System.top System.offsets fun _ => 0)
      (System.topInput System.offsets fun _ => 0) 451836 451837 := by
    refine ⟨by decide, fun u from_ until_ => ?_⟩
    exact System.writes_top System.offsets (fun _ => 0) (by omega) _
  obtain ⟨v, early, writes⟩ := means 451837 set t begun (by omega) taken
  have late := writesWordOf_late (System.trace_top System.offsets fun _ => 0)
    System.isReset_resetTop writes
  omega

theorem doneMeansWritten_iff_program :
    DoneMeansWritten (System.top System.offsets fun _ => 0)
        (System.topInput System.offsets fun _ => 0) 16 451836 ↔
      IcbSlave.writes (System.top System.offsets (fun _ => 0) 451836).icbSlave
        (slaveInput (System.top System.offsets (fun _ => 0) 451836)
          (System.topInput System.offsets (fun _ => 0) 451836)) IcbSlave.doneAddr = true :=
  doneMeansWritten_iff (System.trace_top System.offsets fun _ => 0) System.isReset_resetTop
    (isRun_program System.offsets fun _ => 0)

end RepVGGAcc.RepvggAccTop
