import RepVGGAcc.MacArrayFsm.Scan
import Mathlib.Data.Nat.Count

/-! The order in which `mac_array_fsm` reads the input feature map, and what a
completed run leaves behind. -/

namespace RepVGGAcc.MacArrayFsm

open Clocked

namespace Scan

def reads : Scan → Nat
  | .rest _ _ => 0
  | .busy _ e => min e 401467

/-- Where the current or the next run starts reading. -/
def skew : Scan → Fin 3136
  | .rest skew _ => skew
  | .busy skew _ => skew

def done : Scan → Bool
  | .rest _ done => done
  | .busy _ _ => false

theorem convDone_toState (a : Scan) : a.toState.convDone = a.done := by
  cases a <;> rfl

theorem imapRen_rest (skew : Fin 3136) (done : Bool) (i : Input) :
    imapRen (Scan.rest skew done).toState i = false := rfl

theorem step_skew (a : Scan) (i : Input) :
    (a.step i).skew = if (a.step i).done then nextSkew a.skew else a.skew := by
  cases a with
  | rest skew done => simp only [step]; split <;> rfl
  | busy skew e => simp only [step]; split <;> [split; skip] <;> rfl

theorem step_reads (a : Scan) (i : Input) (unfinished : (a.step i).done = false) :
    (a.step i).reads = a.reads + (imapRen a.toState i).toNat := by
  cases a with
  | rest skew done =>
      rw [imapRen_rest]
      simp only [step]
      split <;> rfl
  | busy skew e =>
      have read : imapRen (Scan.busy skew e).toState i =
          (decide (e.val < 401467) && i.macArray2psumAccRdy) := imapRen_scan skew e i
      rw [read]
      simp only [step] at unfinished ⊢
      split_ifs at unfinished ⊢ with ready last
      · rw [ready, Bool.and_true]
        by_cases reading : e.val < 401467
        · simp only [reads, reading, decide_true, Bool.toNat_true]
          omega
        · simp only [reads, reading, decide_false, Bool.toNat_false]
          omega
      · simp [done] at unfinished
      · simp [reads, ready]

end Scan

section Runs

variable {s : Nat → State} {i : Nat → Input}

/-- From reset on, `mac_array_fsm` is the image of a run of the run-level
machine. -/
theorem exists_scan (trace : IsTrace step s i) (initial : s 0 = reset) :
    ∃ a : Nat → Scan, a 0 = .rest 0 false ∧ IsTrace Scan.step a i ∧
      ∀ t, s t = (a t).toState :=
  ⟨run Scan.step (.rest 0 false) i, rfl, isTrace_run _ _ _,
    trace.refines (initial.trans reset_eq_toState) step_toState⟩

/-- Every completed run moves the start of the next one by 59. -/
theorem skew_eq_completions {a : Nat → Scan} (start : a 0 = .rest 0 false)
    (scans : IsTrace Scan.step a i) (t : Nat) :
    (a t).skew.val = 59 * Nat.count (fun u => (a u).done) (t + 1) % 3136 := by
  induction t with
  | zero => simp [start, Scan.skew, Scan.done, Nat.count_succ]
  | succ t held =>
      rw [Nat.count_succ, scans t, Scan.step_skew, ← scans t]
      split_ifs with finished
      · show ((a t).skew.val + 59) % 3136 = _
        rw [held]
        omega
      · exact held

theorem reads_eq_count {a : Nat → Scan} (start : a 0 = .rest 0 false)
    (scans : IsTrace Scan.step a i) (t : Nat)
    (unfinished : ∀ u ≤ t, (a u).done = false) :
    (a t).reads = Nat.count (fun u => imapRen (a u).toState (i u)) t := by
  induction t with
  | zero => simp [start, Scan.reads]
  | succ t held =>
      have before := held fun u le => unfinished u (by omega)
      have goesOn : ((a t).step (i t)).done = false := by
        rw [← scans t]
        exact unfinished (t + 1) (by omega)
      rw [scans t, Scan.step_reads _ _ goesOn, before, Nat.count_succ]
      cases imapRen (a t).toState (i t) <;> rfl

end Runs

/-! A run that is started in cycle 0 and never stalled. -/

structure Unstalled (skew : Fin 3136) (done : Bool) (s : Nat → State) (i : Nat → Input) :
    Prop where
  trace : IsTrace step s i
  rests : s 0 = rested skew done
  starts : ∀ t, (i t).convStart = decide (t = 0)
  ready : ∀ t, (i t).macArray2psumAccRdy = true

namespace Unstalled

variable {skew : Fin 3136} {done : Bool} {s : Nat → State} {i : Nat → Input}

theorem scan_succ (run : Unstalled skew done s i) {e : Nat} (running : e < 401473) :
    s (e + 1) = scan skew e := by
  induction e with
  | zero =>
      rw [run.trace 0, run.rests]
      exact step_rested_start skew skew.isLt done (run.starts 0)
  | succ e held =>
      rw [run.trace (e + 1), held (by omega), step_scan_ready (by omega) (run.ready _)]

theorem rested_add (run : Unstalled skew done s i) (k : Nat) :
    s (401474 + k) = rested ((skew + 59) % 3136) (decide (k = 0)) := by
  induction k with
  | zero =>
      rw [Nat.add_zero, run.trace (401472 + 1), run.scan_succ (by omega)]
      exact step_scan_last (by omega) (by omega) (run.ready _)
  | succ k held =>
      rw [← Nat.add_assoc, run.trace (401474 + k), held]
      exact step_rested_wait _ _ ((run.starts _).trans (decide_eq_false (by omega)))

theorem imapRen_succ (run : Unstalled skew done s i) (e : Nat) :
    imapRen (s (e + 1)) (i (e + 1)) = decide (e < 401467) := by
  by_cases running : e < 401473
  · rw [run.scan_succ running, imapRen_scan, run.ready, Bool.and_true]
  · obtain ⟨k, rfl⟩ := Nat.exists_eq_add_of_le (not_lt.mp running)
    rw [show 401473 + k + 1 = 401474 + k by omega, run.rested_add]
    exact (decide_eq_false (by omega)).symm

theorem count_imapRen (run : Unstalled skew done s i) {e : Nat} (reading : e ≤ 401467) :
    Nat.count (fun u => imapRen (s u) (i u) = true) (e + 1) = e := by
  induction e with
  | zero =>
      rw [Nat.count_succ, run.rests]
      rfl
  | succ e held =>
      rw [Nat.count_succ, held (by omega), run.imapRen_succ, if_pos (decide_eq_true (by omega))]

theorem handover_succ (run : Unstalled skew done s i) {e : Nat} (running : e < 401473) :
    handover (s (e + 1)) (i (e + 1)) = decide (65 ≤ e) := by
  rw [run.scan_succ running, handover_scan, run.ready, Bool.and_true]
  exact decide_eq_decide.mpr (and_iff_left running)

theorem count_handover (run : Unstalled skew done s i) {e : Nat} (running : e < 401473) :
    Nat.count (fun u => handover (s u) (i u) = true) (e + 1) = e - 65 := by
  induction e with
  | zero =>
      rw [Nat.count_succ, run.rests]
      rfl
  | succ e held =>
      rw [Nat.count_succ, held (by omega), run.handover_succ (by omega)]
      simp only [decide_eq_true_eq]
      split_ifs <;> omega

end Unstalled

def unstalled (t : Nat) : Input where
  convStart := t == 0
  macArray2psumAccRdy := true

theorem isUnstalled_unstalled : Unstalled 0 false (run step reset unstalled) unstalled where
  trace := isTrace_run step reset unstalled
  rests := rfl
  starts := fun _ => rfl
  ready := fun _ => rfl

theorem run_unstalled {n : Nat} (running : n < 401473) :
    run step reset unstalled (n + 1) = scan 0 n :=
  isUnstalled_unstalled.scan_succ running

theorem run_unstalled_done :
    run step reset unstalled 401474 = rested 59 true :=
  isUnstalled_unstalled.rested_add 0

theorem unstalled_unfinished {t : Nat} (running : t ≤ 401473) :
    (run step reset unstalled t).convDone = false := by
  cases t with
  | zero => rfl
  | succ n => rw [run_unstalled (by omega)]; rfl

theorem unstalled_reads {n : Nat} (reading : n ≤ 401467) :
    Nat.count (fun u => imapRen (run step reset unstalled u) (unstalled u)) (n + 1) =
      n :=
  isUnstalled_unstalled.count_imapRen reading

/-! The group of a read. The read address runs 59 pixels ahead of the counter
that the group bit is taken from. -/

/-- The `m`-th read addresses pixel `m mod 3136` of the group of pass
`m div 3136`. -/
def ReadsInPass (m raddr : Nat) : Prop :=
  raddr % 2 ^ 12 = m % 3136 ∧ raddr / 2 ^ 12 = m / 3136 % 2

theorem imapRaddr_scan {e : Nat} (reading : e < 401467) :
    imapRaddr (scan 0 e) = (e - 59) / 3136 % 2 * 2 ^ 12 + e % 3136 := by
  have here : position e = e - 59 := by unfold position; omega
  have pixel : (0 + min e 401467) % 3136 = e % 3136 := by omega
  show (decide (position e / 3136 % 2 = 1)).toNat * 2 ^ 12 +
    (0 + min e 401467) % 3136 = _
  rw [here, pixel]
  congr 2
  rcases Nat.mod_two_eq_zero_or_one ((e - 59) / 3136) with even | odd
  · simp [even]
  · simp [odd]

/-- Only the first 59 reads of a later pass miss their group. -/
theorem readsInPass_scan_iff {e : Nat} (reading : e < 401467) :
    ReadsInPass e (imapRaddr (scan 0 e)) ↔ e < 3136 ∨ 59 ≤ e % 3136 := by
  have low : e % 3136 < 2 ^ 12 := by omega
  rw [ReadsInPass, imapRaddr_scan reading]
  omega

theorem readsInPass_iff {s : Nat → State} {i : Nat → Input}
    (trace : IsTrace step s i) (initial : s 0 = reset) (t : Nat)
    (firstRun : ∀ u ≤ t, (s u).convDone = false)
    (read : imapRen (s t) (i t) = true) :
    ReadsInPass (Nat.count (fun u => imapRen (s u) (i u)) t) (imapRaddr (s t)) ↔
      Nat.count (fun u => imapRen (s u) (i u)) t < 3136 ∨
        59 ≤ Nat.count (fun u => imapRen (s u) (i u)) t % 3136 := by
  obtain ⟨a, start, scans, image⟩ := exists_scan trace initial
  have unfinished : ∀ u ≤ t, (a u).done = false := fun u le => by
    rw [← Scan.convDone_toState, ← image]
    exact firstRun u le
  have counted := reads_eq_count start scans t unfinished
  have shifted := skew_eq_completions start scans t
  have none : Nat.count (fun u => (a u).done) (t + 1) = 0 :=
    Nat.count_iff_forall_not.mpr fun u lt => by simp [unfinished u (by omega)]
  simp only [image] at read ⊢
  rw [← counted]
  cases at_ : a t with
  | rest skew done => simp [at_, Scan.imapRen_rest] at read
  | busy skew e =>
      rw [at_] at read shifted
      have first : skew.val = 0 := by simpa [none, Scan.skew] using shifted
      have reading : e.val < 401467 := by
        have := read
        rw [show imapRen (Scan.busy skew e).toState (i t) = _ from
          imapRen_scan skew e (i t), Bool.and_eq_true, decide_eq_true_eq] at this
        exact this.1
      have number : (Scan.busy skew e).reads = e := by
        simp only [Scan.reads]
        omega
      rw [number]
      simpa only [Scan.toState, first] using readsInPass_scan_iff reading

theorem readsInPass_sixth : ReadsInPass (3136 * 5 + 60)
    (imapRaddr (run step reset unstalled (3136 * 5 + 60 + 1))) ↔
      3136 * 5 + 60 < 3136 ∨ 59 ≤ (3136 * 5 + 60) % 3136 := by
  have law := readsInPass_iff (isTrace_run step reset unstalled) rfl (3136 * 5 + 60 + 1)
    (fun u le => unstalled_unfinished (by omega)) (by
      rw [run_unstalled (by omega), imapRen_scan]
      rfl)
  rwa [unstalled_reads (by omega)] at law

/-- The first read of the second pass still goes to the first group. -/
theorem readsInPass_fails :
    ¬ ∀ (s : Nat → State) (i : Nat → Input), IsTrace step s i → s 0 = reset →
      ∀ t, (∀ u ≤ t, (s u).convDone = false) → imapRen (s t) (i t) = true →
        ReadsInPass (Nat.count (fun u => imapRen (s u) (i u)) t) (imapRaddr (s t)) := by
  intro always
  have law := always _ _ (isTrace_run step reset unstalled) rfl (3136 + 1)
    (fun u le => unstalled_unfinished (by omega)) (by
      rw [run_unstalled (by omega), imapRen_scan]
      rfl)
  rw [unstalled_reads (by omega), run_unstalled (by omega),
    readsInPass_scan_iff (by omega)] at law
  omega

end RepVGGAcc.MacArrayFsm
