import RepVGGAcc.MacArray.Items

/-! A run of `mac_array` on an input map memory. As long as no cycle of the
convolution is stalled, the pipeline keeps step with the control. -/

namespace RepVGGAcc.MacArray

open Clocked
open MacArrayFsm (Scan mask)

variable {s : Nat → State} {i : Nat → Input}

theorem fsm_trace (trace : IsTrace step s i) :
    IsTrace MacArrayFsm.step (fun t => (s t).macArrayFsm) (fun t => fsmInput (i t)) :=
  trace.component State.macArrayFsm (fun _ signal => fsmInput signal) fun _ _ => rfl

theorem core_trace (trace : IsTrace step s i) :
    IsTrace MacArrayCore.step (fun t => (s t).macArrayCore)
      (fun t => coreInput (s t) (i t)) :=
  trace.component State.macArrayCore coreInput fun _ _ => rfl

theorem pipeEnD_succ (trace : IsTrace step s i) (t : Nat) :
    (s (t + 1)).macArrayCore.pipeEnD =
      MacArrayFsm.pipeEn (s t).macArrayFsm (fsmInput (i t)) := by
  rw [trace t]
  rfl

/-- The item of position `n` leaves the array six cycles after its window was
complete. -/
theorem data_latency (trace : IsTrace step s i) {pixel : Fin 32 → Nat → BitVec 8}
    {t n : Nat} (inRun : n < 401408)
    (held : ∀ lane, SystolicArray.Holds (pixel lane) (58 + n)
      ((s t).macArrayCore.convArray lane))
    (masked : MacArrayFsm.peEn (s t).macArrayFsm = mask n)
    (enabled : ∀ j < 6, (s (t + j)).macArrayCore.pipeEnD = true) :
    macArray2psumAccData (s (t + 6)) =
      itemData (weights (s t).macArrayCore (MacArrayFsm.weightSel (s t).macArrayFsm)) pixel
        (MacArrayFsm.identitySel (s (t + 3)).macArrayFsm) n := by
  have core := core_trace trace
  have kernel : MacArrayCore.psum3x3 (s (t + 6)).macArrayCore =
      kernelSum (weights (s t).macArrayCore (MacArrayFsm.weightSel (s t).macArrayFsm))
        pixel n := by
    rw [MacArrayCore.psum3x3_latency core t enabled]
    refine Finset.sum_congr rfl fun lane _ => ?_
    rw [← Equiv.sum_comp Fin.revPerm]
    refine Finset.sum_congr rfl fun tap _ => ?_
    rw [Fin.revPerm_apply, kernelProduct_eq (held lane) masked inRun tap]
    rfl
  have point : MacArrayCore.psum1x1 (s (t + 6)).macArrayCore =
      pointSum (weights (s t).macArrayCore (MacArrayFsm.weightSel (s t).macArrayFsm))
        pixel n := by
    rw [MacArrayCore.psum1x1_latency core t enabled]
    refine Finset.sum_congr rfl fun lane _ => ?_
    rw [pointProduct_eq (held lane) masked inRun]
    rfl
  have centre (lane : Fin 32) :
      ((s t).macArrayCore.convArray lane).identityD 0 = pixel lane n := by
    rw [(held lane).identity (by omega)]
    congr 1
    omega
  have identity : MacArrayCore.identity (s (t + 6)).macArrayCore =
      pixel (MacArrayFsm.identitySel (s (t + 3)).macArrayFsm) n := by
    rw [MacArrayCore.identity_latency core t enabled, centre]
    rfl
  unfold macArray2psumAccData itemData
  rw [kernel, point, identity]

/-- An input map memory: it returns the addressed pixel one cycle after the
read. -/
def ReadsFrom (memory : Nat → BitVec 256) (s : Nat → State) (i : Nat → Input) : Prop :=
  ∀ t, MacArrayFsm.imapRen (s t).macArrayFsm (fsmInput (i t)) = true →
    (i (t + 1)).imapRdata = memory (MacArrayFsm.imapRaddr (s t).macArrayFsm)

def ReadsUntil (T : Nat) (memory : Nat → BitVec 256) (s : Nat → State) (i : Nat → Input) :
    Prop :=
  ∀ t < T, MacArrayFsm.imapRen (s t).macArrayFsm (fsmInput (i t)) = true →
    (i (t + 1)).imapRdata = memory (MacArrayFsm.imapRaddr (s t).macArrayFsm)

theorem ReadsFrom.until_ {memory : Nat → BitVec 256} (reads : ReadsFrom memory s i) (T : Nat) :
    ReadsUntil T memory s i :=
  fun t _ => reads t

theorem ReadsUntil.mono {memory : Nat → BitVec 256} {T T' : Nat}
    (reads : ReadsUntil T memory s i) (le : T' ≤ T) : ReadsUntil T' memory s i :=
  fun t before => reads t (before.trans_le le)

def pixelRead (memory : Nat → BitVec 256) (skew m : Nat) : BitVec 256 :=
  memory (MacArrayFsm.imapRaddr (MacArrayFsm.scan skew m))

/-- Of `e` pixels read all have entered the lanes, the last one possibly still
being on its way. -/
def Fed (pixel : Nat → BitVec 256) (e : Nat) (s : State) (i : Input) : Prop :=
  ∃ count, count + s.macArrayCore.pipeEnD.toNat = e ∧
    (∀ lane, SystolicArray.Holds (fun m => MacArrayCore.laneIn (pixel m) lane) count
      (s.macArrayCore.convArray lane)) ∧
    (s.macArrayCore.pipeEnD = true → i.imapRdata = pixel count)

theorem Fed.step {pixel : Nat → BitVec 256} {e : Nat} {s : State} {i : Input}
    (fed : Fed pixel e s i) (lane : Fin 32) :
    SystolicArray.Holds (fun m => MacArrayCore.laneIn (pixel m) lane) e
      ((MacArray.step s i).macArrayCore.convArray lane) := by
  obtain ⟨count, total, held, coming⟩ := fed
  cases enabled : s.macArrayCore.pipeEnD with
  | false =>
      rw [enabled] at total
      obtain rfl : count = e := by simpa using total
      exact (held lane).step_stalled enabled
  | true =>
      rw [enabled] at total
      obtain rfl : count + 1 = e := by simpa using total
      refine (held lane).step_enabled enabled ?_
      show MacArrayCore.laneIn i.imapRdata lane = _
      rw [coming enabled]

section Run

variable {a : Nat → Scan} {memory : Nat → BitVec 256}

theorem fed_of_busy (trace : IsTrace step s i) {T : Nat} (reads : ReadsUntil T memory s i)
    (scans : IsTrace Scan.step a (fun t => fsmInput (i t)))
    (image : ∀ t, (s t).macArrayFsm = (a t).toState) {skew₀ : Fin 3136} {done₀ : Bool}
    (start : a 0 = .rest skew₀ done₀) (t : Nat) (within : t ≤ T) :
    ∀ {skew : Fin 3136} {e : Fin 401473}, a t = .busy skew e → e.val ≤ 401467 →
      Fed (pixelRead memory skew) e (s t) (i t) := by
  induction t with
  | zero =>
      intro skew e busy
      rw [start] at busy
      cases busy
  | succ t held =>
      intro skew e busy reading
      have held := @held (by omega)
      have moved := scans t
      rw [busy] at moved
      have enable := pipeEnD_succ trace t
      rw [image t] at enable
      cases before : a t with
      | rest skew' done =>
          -- the run starts: nothing has been read yet
          rw [before] at moved enable
          have idle : (s (t + 1)).macArrayCore.pipeEnD = false := enable
          simp only [Scan.step] at moved
          split_ifs at moved
          cases moved
          refine ⟨0, by simp [idle], fun lane => SystolicArray.Holds.zero _ _, ?_⟩
          intro absurdity
          rw [idle] at absurdity
          cases absurdity
      | busy skew' e' =>
          rw [before] at moved enable
          have enabled : (s (t + 1)).macArrayCore.pipeEnD = (i t).macArray2psumAccRdy :=
            enable.trans (MacArrayFsm.pipeEn_scan skew' e' _)
          cases ready : (i t).macArray2psumAccRdy with
          | false =>
              have same : Scan.busy skew e = .busy skew' e' := by
                rw [moved]
                simp [Scan.step, fsmInput, ready]
              cases same
              have fed := (held before reading).step
              rw [← trace t] at fed
              refine ⟨e, by simp [enabled, ready], fed, ?_⟩
              intro absurdity
              rw [enabled, ready] at absurdity
              cases absurdity
          | true =>
              have next : ∃ last : e'.val + 1 < 401473,
                  Scan.busy skew e = .busy skew' ⟨e' + 1, last⟩ := by
                simp only [Scan.step, fsmInput, ready, if_true] at moved
                split_ifs at moved with last
                exact ⟨last, moved⟩
              obtain ⟨last, same⟩ := next
              cases same
              have fed := (held before (by simp at reading; omega)).step
              rw [← trace t] at fed
              refine ⟨e', by simp [enabled, ready], fed, fun _ => ?_⟩
              have fsm : (s t).macArrayFsm = MacArrayFsm.scan skew e' := by
                rw [image t, before]
                rfl
              have read : MacArrayFsm.imapRen (s t).macArrayFsm (fsmInput (i t)) = true := by
                rw [fsm, MacArrayFsm.imapRen_scan]
                simp at reading
                simp [fsmInput, ready]
                omega
              rw [reads t within read, fsm]
              rfl

/-- No cycle before `T` is stalled once the line buffers are full. -/
def Steady (T : Nat) (a : Nat → Scan) (i : Nat → Input) : Prop :=
  ∀ t < T, ∀ (skew : Fin 3136) (e : Fin 401473), a t = .busy skew e → 59 ≤ e.val →
    (i t).macArray2psumAccRdy = true

theorem Steady.mono {T T' : Nat} (steady : Steady T a i) (le : T' ≤ T) : Steady T' a i :=
  fun t before => steady t (before.trans_le le)

/-- In a steady run the last `j` cycles were the last `j` steps of the scan. -/
theorem Steady.lookback {T : Nat} (steady : Steady T a i)
    (scans : IsTrace Scan.step a (fun t => fsmInput (i t))) {skew₀ : Fin 3136}
    {done₀ : Bool} (start : a 0 = .rest skew₀ done₀) {skew : Fin 3136}
    {e : Fin 401473} (busy : a T = .busy skew e) (j : Nat) (filled : 58 + j ≤ e.val) :
    ∃ t, T = t + j ∧ a t = .busy skew ⟨e - j, by omega⟩ ∧
      (j ≠ 0 → (i t).macArray2psumAccRdy = true) := by
  induction j with
  | zero => exact ⟨T, rfl, busy, fun absurdity => absurd rfl absurdity⟩
  | succ j found =>
      obtain ⟨t, here, later, -⟩ := found (by omega)
      cases t with
      | zero =>
          rw [start] at later
          cases later
      | succ t =>
          have moved := scans t
          rw [later] at moved
          refine ⟨t, by omega, ?_⟩
          cases before : a t with
          | rest skew' done =>
              rw [before] at moved
              simp only [Scan.step] at moved
              split_ifs at moved
              have first := congrArg Fin.val (Scan.busy.inj moved).2
              simp at first
              omega
          | busy skew' e' =>
              rw [before] at moved
              cases ready : (i t).macArray2psumAccRdy with
              | false =>
                  have same := Scan.busy.inj (moved.trans (by simp [Scan.step, fsmInput, ready] :
                    _ = Scan.busy skew' e'))
                  have stays := congrArg Fin.val same.2
                  have full : 59 ≤ e'.val := by
                    simp at stays
                    omega
                  rw [steady t (by omega) skew' e' before full] at ready
                  cases ready
              | true =>
                  simp only [Scan.step, fsmInput, ready, if_true] at moved
                  split_ifs at moved with last
                  obtain ⟨same, next⟩ := Scan.busy.inj moved
                  have steps := congrArg Fin.val next
                  simp at steps
                  subst same
                  refine ⟨congrArg (Scan.busy skew) (Fin.ext ?_), fun _ => rfl⟩
                  show e'.val = e - (j + 1)
                  omega

/-- The item on the port of `psum_acc` while the control has made `65 + n` steps
is the one of position `n`. -/
theorem data_of_busy (trace : IsTrace step s i) {T : Nat} (reads : ReadsUntil T memory s i)
    (scans : IsTrace Scan.step a (fun t => fsmInput (i t)))
    (image : ∀ t, (s t).macArrayFsm = (a t).toState) (steady : Steady T a i)
    {skew₀ : Fin 3136} {done₀ : Bool} (start : a 0 = .rest skew₀ done₀)
    {skew : Fin 3136} {e : Fin 401473} (busy : a T = .busy skew e) {n : Nat}
    (position : e.val = 65 + n) :
    ∃ t, T = t + 6 ∧ (s t).macArrayFsm = MacArrayFsm.scan skew (59 + n) ∧
      macArray2psumAccData (s T) =
        itemData (weights (s t).macArrayCore
            (MacArrayFsm.weightSel (MacArrayFsm.scan skew (59 + n))))
          (fun lane m => MacArrayCore.laneIn (pixelRead memory skew m) lane)
          (MacArrayFsm.identitySel (MacArrayFsm.scan skew (62 + n))) n := by
  have back (j : Nat) (le : j ≤ 7) := steady.lookback scans start busy j (by omega)
  have fsm (j : Nat) (le : j ≤ 7) : ∃ t, T = t + j ∧
      (s t).macArrayFsm = MacArrayFsm.scan skew (65 + n - j) := by
    obtain ⟨t, here, at_, -⟩ := back j le
    refine ⟨t, here, ?_⟩
    rw [image t, at_]
    show MacArrayFsm.scan skew (e - j) = _
    rw [position]
  obtain ⟨t, rfl, complete, -⟩ := back 6 (by omega)
  have window : (s t).macArrayFsm = MacArrayFsm.scan skew (59 + n) := by
    obtain ⟨t', here, at_⟩ := fsm 6 (by omega)
    obtain rfl : t = t' := by omega
    rw [at_, show 65 + n - 6 = 59 + n by omega]
  have later : (s (t + 3)).macArrayFsm = MacArrayFsm.scan skew (62 + n) := by
    obtain ⟨t', here, at_⟩ := fsm 3 (by omega)
    obtain rfl : t + 3 = t' := by omega
    rw [at_, show 65 + n - 3 = 62 + n by omega]
  have enabled : ∀ j < 6, (s (t + j)).macArrayCore.pipeEnD = true := by
    intro j lt
    obtain ⟨u, here, at_, ready⟩ := back (7 - j) (by omega)
    rw [show t + j = u + 1 by omega, pipeEnD_succ trace, image u, at_]
    exact (MacArrayFsm.pipeEn_scan _ _ _).trans (ready (by omega))
  have held : ∀ lane, SystolicArray.Holds
      (fun m => MacArrayCore.laneIn (pixelRead memory skew m) lane) (58 + n)
      ((s t).macArrayCore.convArray lane) := by
    obtain ⟨count, total, held, -⟩ :=
      fed_of_busy trace reads scans image start t (by omega) complete (by simp)
    have flowing : (s t).macArrayCore.pipeEnD = true := enabled 0 (by omega)
    rw [flowing] at total
    obtain rfl : count = 58 + n := by
      simp at total
      omega
    exact held
  refine ⟨t, rfl, window, ?_⟩
  have data := data_latency trace (by omega) held
    (by rw [window, MacArrayFsm.peEn_scan]) enabled
  rwa [window, later] at data

end Run

end RepVGGAcc.MacArray
