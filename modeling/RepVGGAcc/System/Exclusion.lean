import RepVGGAcc.Load.FlatMemory
import RepVGGAcc.System.Completion

/-! The input buffers have one port: they are never written and read in one cycle. -/

namespace RepVGGAcc

open Clocked

theorem IcbMaster.requested_of_nextstate {s : IcbMaster.State} {i : Requests}
    (latched : s.nextstate = s.state) (next : nextstate s i = .imap) :
    i.imapBiu2arbReq = true := by
  unfold nextstate at next
  rw [latched] at next
  cases state : s.state <;> simp only [state] at next <;> split_ifs at next <;> assumption

namespace RepvggAccTop

/-- The input map is loaded while `main_fsm` waits for it: whatever takes part in the
load, from the start pulse to the grant of the bus, implies the state `isetup`. -/
structure LoadsInSetup (s : State) : Prop where
  latched : s.bus.icbMaster.nextstate = s.bus.icbMaster.state
  starts : s.mainFsm.imapStart = true →
    s.mainFsm.state = .isetup ∧ s.bus.imapBiu.imapDone = false ∧
      s.bus.icbMaster.state ≠ .imap
  requests : s.bus.imapBiu.imapBiu2arbReq = true →
    s.mainFsm.state = .isetup ∧ s.bus.imapBiu.imapDone = false
  granted : s.bus.icbMaster.state = .imap → s.mainFsm.state = .isetup

theorem loadsInSetup_of_isReset {s : State} (initial : IsReset s) : LoadsInSetup s where
  latched := by rw [initial.bus.icbMaster]; rfl
  starts := fun start => by
    rw [initial.mainFsm] at start
    cases start
  requests := fun request => by
    rw [initial.bus.imapBiu] at request
    cases request
  granted := fun grant => by
    rw [initial.bus.icbMaster] at grant
    cases grant

namespace LoadsInSetup

variable {s : State} {i : Input}

theorem stays (setup : s.mainFsm.state = .isetup) (loading : s.bus.imapBiu.imapDone = false) :
    (step s i).mainFsm.state = .isetup := by
  show MainFsm.nextState s.mainFsm (mainInput s) = .isetup
  unfold MainFsm.nextState
  rw [setup]
  exact if_neg (fun done : s.bus.imapBiu.imapDone = true => by
    rw [loading] at done
    cases done)

theorem unreceived (other : s.bus.icbMaster.state ≠ .imap) :
    (imapBiuInput s i).arb2imapBiuVld = false := by
  show IcbMaster.rspVld s.bus.icbMaster .imap i.accIcbRspValid = false
  simp [IcbMaster.rspVld, other]

theorem imapDone_step (loading : s.bus.imapBiu.imapDone = false)
    (unfinished : ¬ (s.bus.imapBiu.receiveCnt = 0xc3ff ∧
      (imapBiuInput s i).arb2imapBiuVld = true)) :
    (step s i).bus.imapBiu.imapDone = false := by
  show (if s.bus.imapBiu.imapDone = true then false
    else if s.bus.imapBiu.receiveCnt = 0xc3ff ∧ ImapBiu.receive (imapBiuInput s i) = true
      then true else s.bus.imapBiu.imapDone) = false
  rw [loading, if_neg Bool.false_ne_true, ImapBiu.receive_eq, if_neg unfinished]

theorem granted_step (loads : LoadsInSetup s)
    (grant : (step s i).bus.icbMaster.state = .imap) :
    s.bus.imapBiu.imapBiu2arbReq = true :=
  IcbMaster.requested_of_nextstate loads.latched grant

theorem step (loads : LoadsInSetup s) : LoadsInSetup (RepvggAccTop.step s i) where
  latched := rfl
  starts := fun start => by
    -- the pulse comes with the change from `wsetup` to `isetup`
    have entered : (!s.mainFsm.imapStart && decide (s.mainFsm.state = .wsetup ∧
        MainFsm.nextState s.mainFsm (mainInput s) = .isetup)) = true :=
      (MainFsm.pulse_eq _ _).symm.trans start
    obtain ⟨before, after⟩ := of_decide_eq_true (Bool.and_eq_true _ _ ▸ entered).2
    have outside : s.mainFsm.state ≠ .isetup := by
      rw [before]
      decide
    have other : s.bus.icbMaster.state ≠ .imap := fun grant => outside (loads.granted grant)
    refine ⟨after, ?_, fun grant => outside (loads.requests (loads.granted_step grant)).1⟩
    cases done : s.bus.imapBiu.imapDone with
    | false => exact imapDone_step done (by simp [unreceived other])
    | true =>
        show (if s.bus.imapBiu.imapDone = true then false else _) = false
        rw [done, if_pos rfl]
  requests := fun request => by
    have request : (if s.mainFsm.imapStart = true then true
      else if s.bus.imapBiu.receiveCnt = 0xc3ff ∧ ImapBiu.receive (imapBiuInput s i) = true
        then false else s.bus.imapBiu.imapBiu2arbReq) = true := request
    rw [ImapBiu.receive_eq] at request
    split_ifs at request with start last
    · obtain ⟨setup, loading, other⟩ := loads.starts start
      exact ⟨stays setup loading, imapDone_step loading (by simp [unreceived other])⟩
    · obtain ⟨setup, loading⟩ := loads.requests request
      exact ⟨stays setup loading, imapDone_step loading last⟩
  granted := fun grant => by
    obtain ⟨setup, loading⟩ := loads.requests (loads.granted_step grant)
    exact stays setup loading

theorem setup_of_imapWen (loads : LoadsInSetup s)
    (write : (imapBufInput s i).imapWen = true) : s.mainFsm.state = .isetup := by
  apply loads.granted
  by_contra other
  have write : (decide (s.bus.imapBiu.receiveCnt % 2 = 1) &&
    ImapBiu.receive (imapBiuInput s i)) = true := write
  rw [ImapBiu.receive_eq, unreceived other, Bool.and_false] at write
  cases write

end LoadsInSetup

theorem Scans.conv_of_imapRen {s : Nat → State} {i : Nat → Input} {a : Nat → MacArrayFsm.Scan}
    (scans : Scans s i a) {t : Nat} (read : (imapBufInput (s t) (i t)).imapRen = true) :
    (s t).mainFsm.state = .conv := by
  have coupled := scans.coupled t
  have read : MacArrayFsm.imapRen (s t).macArray.macArrayFsm
    (MacArray.fsmInput (macInput (s t) (i t))) = true := read
  rw [scans.image t] at read
  cases now : a t with
  | rest skew done =>
      rw [now, MacArrayFsm.Scan.imapRen_rest] at read
      cases read
  | busy skew e =>
      rw [now] at coupled
      exact coupled.conv_of_busy

/-- A word is written while `main_fsm` waits for the map, and read when it has it. -/
theorem LoadsInSetup.apart {s : Nat → State} {i : Nat → Input} {a : Nat → MacArrayFsm.Scan}
    {t : Nat} (loads : LoadsInSetup (s t)) (scans : Scans s i a)
    (write : (imapBufInput (s t) (i t)).imapWen = true) :
    (imapBufInput (s t) (i t)).imapRen = false := by
  have setup := loads.setup_of_imapWen write
  refine Bool.eq_false_of_not_eq_true fun read => ?_
  rw [scans.conv_of_imapRen read] at setup
  cases setup

/-! The input buffers and their fetch engine in the accelerator. -/

def imapLoad (s : State) : ImapLoad.State where
  imapBiu := s.bus.imapBiu
  imapBuf := s.imapBuf

def imapLoadInput (s : State) (i : Input) : ImapLoad.Input where
  imapBiu := imapBiuInput s i
  imapRaddr := (imapBufInput s i).imapRaddr
  imapRen := (imapBufInput s i).imapRen

/-- From reset on they are a memory that is never written and read together, and that
the responses to `imap_biu` fill. -/
theorem fills_imapLoad {word : Nat → BitVec 32} {s : Nat → State} {i : Nat → Input}
    (trace : IsTrace step s i) (initial : IsReset (s 0))
    (arrives : ∀ t, (imapBiuInput (s t) (i t)).arb2imapBiuVld = true →
      ImapLoad.arrived (fun u => imapLoadInput (s u) (i u)) t < ImapLoad.mapWords →
      (imapBiuInput (s t) (i t)).arb2imapBiuData =
        word (ImapLoad.arrived (fun u => imapLoadInput (s u) (i u)) t)) :
    ImapLoad.Fills word (fun t => imapLoad (s t)) fun t => imapLoadInput (s t) (i t) where
  trace := trace.component imapLoad imapLoadInput fun _ _ => rfl
  fresh := congrArg ImapBiu.State.receiveCnt initial.bus.imapBiu
  arrives := arrives
  apart := by
    intro t write
    obtain ⟨a, scans⟩ := exists_scans trace initial
    have loads : LoadsInSetup (s t) := trace.always (loadsInSetup_of_isReset initial)
      (fun _ => LoadsInSetup.step) t
    exact loads.apart scans write

/-- From reset on the input buffers are never written and read in the same cycle, whatever
is written to the registers and whatever the bus does. -/
theorem not_imapWen_and_imapRen {s : Nat → State} {i : Nat → Input}
    (trace : IsTrace step s i) (initial : IsReset (s 0)) (t : Nat) :
    ¬ ((imapBufInput (s t) (i t)).imapWen = true ∧
      (imapBufInput (s t) (i t)).imapRen = true) := by
  rintro ⟨write, read⟩
  obtain ⟨a, scans⟩ := exists_scans trace initial
  have loads : LoadsInSetup (s t) := trace.always (loadsInSetup_of_isReset initial)
    (fun _ => LoadsInSetup.step) t
  rw [loads.apart scans write] at read
  cases read

/-- The run of the test program, while it loads the input map. -/
theorem not_imapWen_and_imapRen_program :
    ¬ ((imapBufInput (System.top System.offsets (fun _ => 0) 200)
        (System.topInput System.offsets (fun _ => 0) 200)).imapWen = true ∧
      (imapBufInput (System.top System.offsets (fun _ => 0) 200)
        (System.topInput System.offsets (fun _ => 0) 200)).imapRen = true) :=
  not_imapWen_and_imapRen (System.trace_top System.offsets fun _ => 0)
    System.isReset_resetTop 200

end RepvggAccTop

end RepVGGAcc
