import RepVGGAcc.MacArrayFsm.Schedule

/-! The state of `mac_array_fsm` in the cycle in which it reports the end of a
run, and the run that follows. -/

namespace RepVGGAcc.MacArrayFsm

open Clocked

/-- The machine is idle, and its counters and the valid chain hold their reset
values. -/
structure Restarted (s : State) : Prop where
  state : s.state = .idle
  setupCnt : s.setupCnt = 0
  convColCnt : s.convColCnt = 0
  convRowCnt : s.convRowCnt = 0
  inChCnt : s.inChCnt = false
  outChCnt : s.outChCnt = 0
  imapCnt : s.imapCnt = 0
  omapCnt : s.omapCnt = 0
  omapChCnt : s.omapChCnt = 0
  vldDelay : s.vldDelay = fun _ => false

/-- What the machine tells the memories and the array. -/
structure Outputs where
  imapRen : Bool
  imapRaddr : Nat
  peEn : BitVec 10
  weightSel : Fin 4
  identitySel : Fin 32
  macArray2psumAccVld : Bool
  macArray2psumAccInfo : Info

def outputs (s : State) (i : Input) : Outputs where
  imapRen := imapRen s i
  imapRaddr := imapRaddr s
  peEn := peEn s
  weightSel := weightSel s
  identitySel := identitySel s
  macArray2psumAccVld := macArray2psumAccVld s
  macArray2psumAccInfo := macArray2psumAccInfo s

/-- From here on the machine behaves as it does from reset on. -/
def RunsAsFromReset (s : State) : Prop :=
  ∀ (i : Nat → Input) (n : Nat),
    outputs (run step s i n) (i n) = outputs (run step reset i n) (i n)

theorem restarted_rested_iff (skew : Nat) (done : Bool) :
    Restarted (rested skew done) ↔ skew = 0 :=
  ⟨fun restarted => restarted.imapCnt,
    fun zero => ⟨rfl, rfl, rfl, rfl, rfl, rfl, zero, rfl, rfl, rfl⟩⟩

theorem step_rested_done (done : Bool) (i : Input) :
    step (rested 0 done) i = step reset i := by
  show _ = step (rested 0 false) i
  cases start : i.convStart with
  | false => rw [step_rested_wait 0 done start, step_rested_wait 0 false start]
  | true =>
      rw [step_rested_start 0 (by omega) done start,
        step_rested_start 0 (by omega) false start]

theorem runsAsFromReset_rested (done : Bool) : RunsAsFromReset (rested 0 done) := by
  have same : ∀ (i : Nat → Input) (n : Nat),
      run step (rested 0 done) i (n + 1) = run step reset i (n + 1) := by
    intro i n
    induction n with
    | zero => exact step_rested_done done (i 0)
    | succ n held => exact congrArg (step · (i (n + 1))) held
  intro i n
  cases n with
  | zero => rfl
  | succ n => rw [same i n]

section Runs

variable {s : Nat → State} {i : Nat → Input}

/-- A completed run leaves a residue in `imap_cnt` and nowhere else. -/
theorem state_of_convDone (trace : IsTrace step s i) (initial : s 0 = reset) (t : Nat)
    (done : (s t).convDone = true) :
    s t = rested (59 * Nat.count (fun u => (s u).convDone) (t + 1) % 3136) true := by
  obtain ⟨a, start, scans, image⟩ := exists_scan trace initial
  have completions (u : Nat) : (s u).convDone = (a u).done := by
    rw [image, Scan.convDone_toState]
  have shifted := skew_eq_completions start scans t
  have finished : (a t).done = true := (completions t).symm.trans done
  simp only [completions]
  rw [image t, ← shifted]
  cases at_ : a t with
  | rest skew flag =>
      rw [at_] at finished
      cases finished
      rfl
  | busy skew e =>
      rw [at_] at finished
      cases finished

theorem restarted_iff (trace : IsTrace step s i) (initial : s 0 = reset) (t : Nat)
    (done : (s t).convDone = true) :
    Restarted (s t) ∧ RunsAsFromReset (s t) ↔
      3136 ∣ Nat.count (fun u => (s u).convDone) (t + 1) := by
  have state := state_of_convDone trace initial t done
  have residue (n : Nat) : 59 * n % 3136 = 0 ↔ 3136 ∣ n := by omega
  constructor
  · intro restored
    rw [← residue, ← restarted_rested_iff _ true, ← state]
    exact restored.1
  · intro divides
    rw [state, (residue _).mpr divides]
    exact ⟨(restarted_rested_iff 0 true).mpr rfl, runsAsFromReset_rested true⟩

end Runs

theorem unstalled_convDone : (run step reset unstalled 401474).convDone = true := by
  rw [run_unstalled_done]
  rfl

theorem restarted_iff_unstalled :
    Restarted (run step reset unstalled 401474) ∧
        RunsAsFromReset (run step reset unstalled 401474) ↔
      3136 ∣ Nat.count (fun u => (run step reset unstalled u).convDone) (401474 + 1) :=
  restarted_iff (isTrace_run step reset unstalled) rfl 401474 unstalled_convDone

/-- After the first run the next one would start reading at pixel 59. -/
theorem restarted_fails :
    ¬ ∀ (s : Nat → State) (i : Nat → Input), IsTrace step s i → s 0 = reset →
      ∀ t, (s t).convDone = true → Restarted (s t) ∧ RunsAsFromReset (s t) := by
  intro always
  have restored :=
    always _ _ (isTrace_run step reset unstalled) rfl 401474 unstalled_convDone
  rw [run_unstalled_done, restarted_rested_iff] at restored
  exact absurd restored.1 (by decide)

end RepVGGAcc.MacArrayFsm
