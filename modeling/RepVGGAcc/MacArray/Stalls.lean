import RepVGGAcc.MacArray.Feed
import RepVGGAcc.MacArray.Weights

/-! The items a run of `mac_array` hands over, under the stalls of its receiver. -/

namespace RepVGGAcc.MacArray

open Clocked
open MacArrayFsm (Scan)

structure Item where
  info : MacArrayFsm.Info
  data : BitVec 64
  deriving DecidableEq, Repr

/-- The item handed over in this cycle: `vld` and `rdy` are both 1. -/
def accepted (s : State) (i : Input) : Option Item :=
  if MacArrayFsm.handover s.macArrayFsm (fsmInput i) then
    some {
      info := MacArrayFsm.macArray2psumAccInfo s.macArrayFsm
      data := macArray2psumAccData s }
  else none

/-- A run that starts in cycle 0, from a state between two runs, on an input map
memory and with weight buffers that stay as they are. -/
structure IsRun (memory : Nat → BitVec 256) (start : State) (s : Nat → State)
    (i : Nat → Input) : Prop where
  trace : IsTrace step s i
  begins : s 0 = start
  between : ∃ (skew : Fin 3136) (done : Bool),
    start.macArrayFsm = MacArrayFsm.rested skew done
  started : ∀ t, (i t).convStart = decide (t = 0)
  reads : ReadsFrom memory s i
  fixed : ∀ t, (i t).weightWen = false

/-- The receiver is ready in every cycle of the convolution and of the cool-down. -/
def ReadyWhileConvolving (s : Nat → State) (i : Nat → Input) : Prop :=
  ∀ t, (s t).macArrayFsm.state ≠ .idle → (s t).macArrayFsm.state ≠ .arraySetup →
    (i t).macArray2psumAccRdy = true

theorem ReadyWhileConvolving.steady {s : Nat → State} {i : Nat → Input}
    (ready : ReadyWhileConvolving s i) {a : Nat → Scan}
    (image : ∀ t, (s t).macArrayFsm = (a t).toState) (T : Nat) : Steady T a i := by
  intro t _ skew e busy full
  have state : (s t).macArrayFsm.state = MacArrayFsm.scanState e := by
    rw [image t, busy]
    rfl
  refine ready t ?_ ?_
  · rw [state]
    exact MacArrayFsm.scanState_ne_idle e
  · rw [state]
    intro setup
    exact absurd (MacArrayFsm.scan_state_eq_arraySetup.mp setup) (by omega)

def itemOf (memory : Nat → BitVec 256) (core : MacArrayCore.State) (skew n : Nat) : Item where
  info := MacArrayFsm.macArray2psumAccInfo (MacArrayFsm.scan skew (65 + n))
  data := itemData (weights core (MacArrayFsm.weightSel (MacArrayFsm.scan skew (59 + n))))
    (fun lane m => MacArrayCore.laneIn (pixelRead memory skew m) lane)
    (MacArrayFsm.identitySel (MacArrayFsm.scan skew (62 + n))) n

namespace IsRun

variable {memory : Nat → BitVec 256} {start : State} {s : Nat → State} {i : Nat → Input}

theorem weights_eq (run : IsRun memory start s i) (t : Nat) :
    weights (s t).macArrayCore = weights start.macArrayCore := by
  rw [weights_fixed run.trace run.fixed, run.begins]

theorem exists_scan (run : IsRun memory start s i) {skew : Fin 3136} {done : Bool}
    (between : start.macArrayFsm = MacArrayFsm.rested skew done) :
    ∃ a : Nat → Scan, a 0 = .rest skew done ∧
      IsTrace Scan.step a (fun t => fsmInput (i t)) ∧
      ∀ t, (s t).macArrayFsm = (a t).toState :=
  ⟨Clocked.run Scan.step (.rest skew done) _, rfl, isTrace_run _ _ _,
    (fsm_trace run.trace).refines ((congrArg State.macArrayFsm run.begins).trans between)
      MacArrayFsm.step_toState⟩

/-- While the run goes on, all items up to the current one have been handed over;
once it is finished nothing follows. -/
theorem handed_over (run : IsRun memory start s i) {a : Nat → Scan} {skew : Fin 3136}
    {done : Bool} (start : a 0 = .rest skew done)
    (scans : IsTrace Scan.step a (fun t => fsmInput (i t)))
    (image : ∀ t, (s t).macArrayFsm = (a t).toState) (t : Nat) :
    (∃ e, a (t + 1) = .busy skew e ∧ Nat.count (fun u =>
      MacArrayFsm.handover (s u).macArrayFsm (fsmInput (i u)) = true) (t + 1) = e - 65) ∨
      ∃ skew' done', a (t + 1) = .rest skew' done' := by
  induction t with
  | zero =>
      left
      refine ⟨0, ?_, ?_⟩
      · rw [scans 0, start]
        simp [Scan.step, fsmInput, run.started]
      · rw [Nat.count_succ, image 0, start]
        rfl
  | succ t held =>
      rcases held with ⟨e, busy, counted⟩ | ⟨skew', done', rest⟩
      · have sent : MacArrayFsm.handover (s (t + 1)).macArrayFsm (fsmInput (i (t + 1))) =
            (decide (65 ≤ e.val ∧ e.val < 401473) && (i (t + 1)).macArray2psumAccRdy) := by
          rw [image (t + 1), busy]
          exact MacArrayFsm.handover_scan skew e _
        rw [scans (t + 1), busy]
        cases ready : (i (t + 1)).macArray2psumAccRdy with
        | false =>
            left
            refine ⟨e, by simp [Scan.step, fsmInput, ready], ?_⟩
            rw [Nat.count_succ, counted, sent, ready]
            simp
        | true =>
            by_cases last : e.val + 1 < 401473
            · left
              refine ⟨⟨e + 1, last⟩, by simp [Scan.step, fsmInput, ready, last], ?_⟩
              rw [Nat.count_succ, counted, sent, ready]
              simp only [Bool.and_true, decide_eq_true_eq]
              split_ifs <;> omega
            · right
              exact ⟨Scan.nextSkew skew, true, by simp [Scan.step, fsmInput, ready, last]⟩
      · right
        refine ⟨skew', false, ?_⟩
        rw [scans (t + 1), rest]
        simp [Scan.step, fsmInput, run.started]

/-- A run that is not stalled while it convolves hands over the items of the
positions in their order. -/
theorem accepted_eq (run : IsRun memory start s i) (ready : ReadyWhileConvolving s i)
    {skew : Fin 3136} {done : Bool}
    (between : start.macArrayFsm = MacArrayFsm.rested skew done) (n : Nat) :
    events (fun t => accepted (s t) (i t)) n =
      (List.range (Nat.count (fun t => (accepted (s t) (i t)).isSome = true) n)).map
        (itemOf memory start.macArrayCore skew) := by
  obtain ⟨a, first, scans, image⟩ := run.exists_scan between
  have seen (u : Nat) : (accepted (s u) (i u)).isSome = true ↔
      MacArrayFsm.handover (s u).macArrayFsm (fsmInput (i u)) = true := by
    unfold accepted
    split <;> simp_all
  refine events_eq_map_range _ _ (fun t x observed => ?_) n
  unfold accepted at observed
  split at observed
  case isFalse => cases observed
  case isTrue sent =>
    cases observed
    cases t with
    | zero =>
        rw [image 0, first] at sent
        cases sent
    | succ t =>
        rcases run.handed_over first scans image t with ⟨e, busy, counted⟩ | ⟨_, _, rest⟩
        · have full : 65 ≤ e.val := by
            rw [image (t + 1), busy] at sent
            have valid := (Bool.and_eq_true _ _).mp
              ((MacArrayFsm.handover_scan skew e _).symm.trans sent)
            exact (of_decide_eq_true valid.1).1
          have number : Nat.count (fun u => (accepted (s u) (i u)).isSome = true) (t + 1) =
              e - 65 := by
            simp only [seen]
            exact counted
          obtain ⟨c, -, -, data⟩ := data_of_busy run.trace (run.reads.until_ _) scans image
            (ready.steady image _) first busy (show e.val = 65 + (e - 65) by omega)
          rw [number, itemOf, data, run.weights_eq c, image (t + 1), busy]
          show Item.mk (MacArrayFsm.macArray2psumAccInfo (MacArrayFsm.scan skew e)) _ = _
          rw [show 65 + (e.val - 65) = e by omega]
        · rw [image (t + 1), rest] at sent
          cases sent

end IsRun

/-- Two runs from the same state hand over the same items, as long as neither is
stalled while it convolves. -/
theorem accepted_comparable {memory : Nat → BitVec 256} {start : State}
    {s s' : Nat → State} {i i' : Nat → Input} (run : IsRun memory start s i)
    (run' : IsRun memory start s' i') (ready : ReadyWhileConvolving s i)
    (ready' : ReadyWhileConvolving s' i') (n n' : Nat) :
    events (fun t => accepted (s t) (i t)) n <+: events (fun t => accepted (s' t) (i' t)) n' ∨
      events (fun t => accepted (s' t) (i' t)) n' <+:
        events (fun t => accepted (s t) (i t)) n := by
  obtain ⟨skew, done, between⟩ := run.between
  rw [run.accepted_eq ready between, run'.accepted_eq ready' between]
  rcases le_total (Nat.count (fun t => (accepted (s t) (i t)).isSome = true) n)
    (Nat.count (fun t => (accepted (s' t) (i' t)).isSome = true) n') with le | le
  · exact Or.inl (map_range_isPrefix _ le)
  · exact Or.inr (map_range_isPrefix _ le)

/-! Two runs from reset on a memory whose pixels are their own addresses. -/

def countingMemory (addr : Nat) : BitVec 256 :=
  BitVec.ofNat 256 addr

def controlInput (ready : Nat → Bool) (t : Nat) : MacArrayFsm.Input where
  convStart := decide (t = 0)
  macArray2psumAccRdy := ready t

/-- The control alone, which does not depend on the data. -/
def control (ready : Nat → Bool) : Nat → MacArrayFsm.State :=
  run MacArrayFsm.step MacArrayFsm.reset (controlInput ready)

/-- The inputs of a run on `countingMemory` whose receiver follows `ready`. -/
def drive (ready : Nat → Bool) (t : Nat) : Input where
  convStart := decide (t = 0)
  weightWaddr := 0
  weightWdata := 0
  weightWen := false
  imapRdata := countingMemory (MacArrayFsm.imapRaddr (control ready (t - 1)))
  macArray2psumAccRdy := ready t

theorem macArrayFsm_drive (ready : Nat → Bool) (t : Nat) :
    (run step reset (drive ready) t).macArrayFsm = control ready t := by
  induction t with
  | zero => rfl
  | succ t held =>
      show MacArrayFsm.step (run step reset (drive ready) t).macArrayFsm _ = _
      rw [held]
      rfl

theorem isRun_drive (ready : Nat → Bool) :
    IsRun countingMemory reset (run step reset (drive ready)) (drive ready) where
  trace := isTrace_run step reset (drive ready)
  begins := rfl
  between := ⟨0, false, rfl⟩
  started := fun _ => rfl
  reads := fun t _ => by
    rw [macArrayFsm_drive]
    rfl
  fixed := fun _ => rfl

theorem scan_of_ready {ready : Nat → Bool} {e : Nat} (running : e < 401473)
    (flowing : ∀ t ≤ e, ready t = true) :
    run Scan.step (.rest 0 false) (controlInput ready) (e + 1) = .busy 0 ⟨e, running⟩ := by
  induction e with
  | zero => rfl
  | succ e held =>
      have now : (controlInput ready (e + 1)).macArray2psumAccRdy = true :=
        flowing (e + 1) le_rfl
      show Scan.step (run Scan.step _ _ (e + 1)) _ = _
      rw [held (by omega) fun t le => flowing t (by omega)]
      simp [Scan.step, now, running]

theorem control_eq_toState (ready : Nat → Bool) (t : Nat) :
    control ready t = (run Scan.step (.rest 0 false) (controlInput ready) t).toState :=
  (isTrace_run MacArrayFsm.step MacArrayFsm.reset _).refines MacArrayFsm.reset_eq_toState
    MacArrayFsm.step_toState t

theorem control_eq_scan {ready : Nat → Bool} {e : Nat} (running : e < 401473)
    (flowing : ∀ t ≤ e, ready t = true) : control ready (e + 1) = MacArrayFsm.scan 0 e := by
  rw [control_eq_toState, scan_of_ready running flowing]
  rfl

theorem readyWhileConvolving_drive {ready : Nat → Bool} {origin : Nat} (early : origin ≤ 59)
    (stalls : ∀ t, ready t = true ∨ t = origin) :
    ReadyWhileConvolving (run step reset (drive ready)) (drive ready) := by
  intro t busy filled
  rcases stalls t with flowing | rfl
  · exact flowing
  · rw [macArrayFsm_drive] at busy filled
    cases t with
    | zero => exact absurd rfl busy
    | succ e =>
        refine absurd ?_ filled
        rw [control_eq_scan (by omega) fun u le => (stalls u).resolve_right (by omega)]
        exact MacArrayFsm.scanState_setup (by omega)

theorem accepted_comparable_setup :
    let ready := fun t => decide (t ≠ 5)
    events (fun t => accepted (run step reset (drive ready) t) (drive ready t)) 70 <+:
        events (fun t => accepted (run step reset (drive fun _ => true) t)
          (drive (fun _ => true) t)) 70 ∨
      events (fun t => accepted (run step reset (drive fun _ => true) t)
          (drive (fun _ => true) t)) 70 <+:
        events (fun t => accepted (run step reset (drive ready) t) (drive ready t)) 70 :=
  accepted_comparable (isRun_drive _) (isRun_drive _)
    (readyWhileConvolving_drive (by omega : 5 ≤ 59) fun t => by
      rcases eq_or_ne t 5 with rfl | late
      · exact Or.inr rfl
      · exact Or.inl (decide_eq_true late))
    (readyWhileConvolving_drive (by omega : 5 ≤ 59) fun _ => Or.inl rfl) 70 70

theorem identity_drive {ready : Nat → Bool} {n : Nat} (early : n < 6000)
    (flowing : ∀ t ≤ 64 + n, ready t = true) :
    (macArray2psumAccData (run step reset (drive ready) (66 + n))).extractLsb' 56 8 =
      MacArrayCore.laneIn (pixelRead countingMemory 0 n) 0 := by
  have trace := isTrace_run step reset (drive ready)
  have fsm {e : Nat} (le : e ≤ 64 + n) :
      (run step reset (drive ready) (e + 1)).macArrayFsm = MacArrayFsm.scan 0 e := by
    rw [macArrayFsm_drive, control_eq_scan (by omega) fun t _ => flowing t (by omega)]
  have enabled : ∀ j < 6,
      (run step reset (drive ready) (60 + n + j)).macArrayCore.pipeEnD = true := by
    intro j lt
    rw [show 60 + n + j = 58 + n + j + 1 + 1 by omega, pipeEnD_succ trace, fsm (by omega),
      MacArrayFsm.pipeEn_scan]
    exact flowing _ (by omega)
  have held : ∀ lane, SystolicArray.Holds
      (fun m => MacArrayCore.laneIn (pixelRead countingMemory 0 m) lane) (58 + n)
      ((run step reset (drive ready) (60 + n)).macArrayCore.convArray lane) := by
    have time : 59 + n + 1 = 60 + n := by omega
    have busy := scan_of_ready (by omega : 59 + n < 401473)
      fun t _ => flowing t (by omega)
    rw [time] at busy
    obtain ⟨count, total, held, -⟩ := fed_of_busy trace
      ((isRun_drive ready).reads.until_ (60 + n))
      (isTrace_run Scan.step (.rest 0 false) (controlInput ready))
      (fun t => (macArrayFsm_drive ready t).trans (control_eq_toState ready t)) rfl
      (60 + n) le_rfl busy (by simp; omega)
    have total : count + (run step reset (drive ready) (60 + n)).macArrayCore.pipeEnD.toNat =
      59 + n := total
    have flows := enabled 0 (by omega)
    rw [Nat.add_zero] at flows
    rw [flows] at total
    obtain rfl : count = 58 + n := by
      simp at total
      omega
    exact held
  have data := data_latency trace (by omega) held
    (by rw [show 60 + n = 59 + n + 1 by omega, fsm (by omega), MacArrayFsm.peEn_scan]) enabled
  rw [show 66 + n = 60 + n + 6 by omega, data, identity_itemData,
    show 60 + n + 3 = 62 + n + 1 by omega, fsm (by omega)]
  have first : MacArrayFsm.position (62 + n) / 6272 % 64 = 0 := by
    unfold MacArrayFsm.position
    omega
  have lane : MacArrayFsm.identitySel (MacArrayFsm.scan 0 (62 + n)) = 0 := by
    show Fin.ofNat 32 (MacArrayFsm.position (62 + n) / 6272 % 64) = 0
    rw [first]
    rfl
  rw [lane]

theorem accepted_drive_early {ready : Nat → Bool} (flowing : ∀ t ≤ 64, ready t = true) {t : Nat}
    (early : t ≤ 65) : accepted (run step reset (drive ready) t) (drive ready t) = none := by
  unfold accepted
  rw [macArrayFsm_drive]
  cases t with
  | zero => rfl
  | succ e =>
      rw [control_eq_scan (by omega) fun u _ => flowing u (by omega),
        MacArrayFsm.handover_scan, decide_eq_false (by omega)]
      rfl

theorem accepted_drive {ready : Nat → Bool} {t : Nat}
    (scan : control ready t = MacArrayFsm.scan 0 65) :
    accepted (run step reset (drive ready) t) (drive ready t) =
      if ready t then
        some {
          info := MacArrayFsm.macArray2psumAccInfo (MacArrayFsm.scan 0 65)
          data := macArray2psumAccData (run step reset (drive ready) t) }
      else none := by
  unfold accepted
  rw [macArrayFsm_drive, scan, MacArrayFsm.handover_scan, decide_eq_true ⟨by omega, by omega⟩,
    Bool.true_and]
  rfl

/-- A stall of the first item in the cycle it becomes valid replaces its data by
that of the second one. -/
theorem accepted_comparable_fails :
    ¬ ∀ (memory : Nat → BitVec 256) (start : State) (s s' : Nat → State)
      (i i' : Nat → Input), IsRun memory start s i → IsRun memory start s' i' →
      ∀ n n', events (fun t => accepted (s t) (i t)) n <+:
          events (fun t => accepted (s' t) (i' t)) n' ∨
        events (fun t => accepted (s' t) (i' t)) n' <+:
          events (fun t => accepted (s t) (i t)) n := by
  intro always
  have same := always _ _ _ _ _ _ (isRun_drive fun _ => true)
    (isRun_drive fun t => decide (t ≠ 66)) 67 68
  have flowing : ∀ t ≤ 65, (fun t => decide (t ≠ 66)) t = true :=
    fun t le => decide_eq_true (by omega)
  -- without the stall the first item comes in cycle 66
  have scan : control (fun _ => true) 66 = MacArrayFsm.scan 0 65 :=
    control_eq_scan (by omega) fun _ _ => rfl
  have first : events (fun t => accepted (run step reset (drive fun _ => true) t)
      (drive (fun _ => true) t)) 66 = [] :=
    events_eq_nil fun t _ => accepted_drive_early (fun _ _ => rfl) (by omega)
  -- with it, one cycle later
  have scan' : control (fun t => decide (t ≠ 66)) 66 = MacArrayFsm.scan 0 65 :=
    control_eq_scan (by omega) flowing
  have stalled : control (fun t => decide (t ≠ 66)) 67 = MacArrayFsm.scan 0 65 := by
    show MacArrayFsm.step (control (fun t => decide (t ≠ 66)) 66) _ = _
    rw [scan']
    exact MacArrayFsm.step_scan_stalled 0 65 _ rfl
  have first' : events (fun t => accepted
      (run step reset (drive fun t => decide (t ≠ 66)) t)
      (drive (fun t => decide (t ≠ 66)) t)) 67 = [] := by
    rw [events_succ, events_eq_nil fun t _ =>
      accepted_drive_early (fun u le => flowing u (by omega)) (by omega), accepted_drive scan']
    rfl
  rw [events_succ _ 66, first, events_succ _ 67, first', accepted_drive scan,
    accepted_drive stalled] at same
  have data : (macArray2psumAccData (run step reset (drive fun _ => true) 66)).extractLsb' 56 8 =
      MacArrayCore.laneIn (pixelRead countingMemory 0 0) 0 :=
    identity_drive (n := 0) (by omega) fun _ _ => rfl
  have data' := identity_drive (n := 1) (by omega) flowing
  have equal : macArray2psumAccData (run step reset (drive fun _ => true) 66) =
      macArray2psumAccData (run step reset (drive fun t => decide (t ≠ 66)) 67) := by
    rcases same with one | other
    · simpa using one
    · simpa using Eq.symm (by simpa using other)
  rw [equal, data'] at data
  unfold pixelRead countingMemory at data
  rw [MacArrayFsm.imapRaddr_scan (by omega), MacArrayFsm.imapRaddr_scan (by omega)] at data
  exact absurd data (by decide)

end RepVGGAcc.MacArray
