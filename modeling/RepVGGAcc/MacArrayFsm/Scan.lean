import RepVGGAcc.Clocked.Trace
import RepVGGAcc.Rtl.MacArrayFsm
import Mathlib.Tactic.Common

/-! The raster scan that `mac_array_fsm` carries out. A run is 401473 enabled
cycles: 59 to fill the line buffers, one for each of the 401408 pixels of the
128 passes, and six to drain the valid chain. Every register of the machine is a
function of the number of enabled cycles since the start. -/

namespace RepVGGAcc.MacArrayFsm

open Clocked

/-- The convolution state that stands for a position of the 56x56 map. -/
def region (row col : Nat) : FsmState :=
  if row = 0 then
    if col = 0 then .convS0 else if col = 55 then .convS2 else .convS1
  else if row = 55 then
    if col = 0 then .convS6 else if col = 55 then .convS8 else .convS7
  else
    if col = 0 then .convS3 else if col = 55 then .convS5 else .convS4

/-- The pixel position, over all passes, after `e` enabled cycles. -/
def position (e : Nat) : Nat :=
  min (e - 59) 401408

def scanState (e : Nat) : FsmState :=
  if e < 59 then .arraySetup
  else if e < 401467 then region (position e / 56 % 56) (position e % 56)
  else .arrayCoolDown

/-- The registers after `e` enabled cycles of a run that found `imap_cnt` at
`skew`. -/
def scan (skew e : Nat) : State where
  state := scanState e
  setupCnt := if e < 59 then e else 0
  convColCnt := position e % 56
  convRowCnt := position e / 56 % 56
  inChCnt := decide (position e / 3136 % 2 = 1)
  outChCnt := position e / 6272 % 64
  imapCnt := (skew + min e 401467) % 3136
  omapCnt := (e - 65) % 3136
  omapChCnt := (e - 65) / 3136
  convDone := false
  vldDelay := fun j => decide (60 + j.val ≤ e ∧ e < 401468 + j.val)

def rested (skew : Nat) (done : Bool) : State :=
  { reset with imapCnt := skew, convDone := done }

theorem region_ne_idle (row col : Nat) : region row col ≠ .idle := by
  unfold region
  split_ifs <;> simp

theorem region_ne_arraySetup (row col : Nat) : region row col ≠ .arraySetup := by
  unfold region
  split_ifs <;> simp

theorem region_ne_arrayCoolDown (row col : Nat) :
    region row col ≠ .arrayCoolDown := by
  unfold region
  split_ifs <;> simp

theorem scanState_setup {e : Nat} (filling : e < 59) :
    scanState e = .arraySetup := by
  simp [scanState, filling]

theorem scanState_conv {e : Nat} (filled : 59 ≤ e) (pixel : e < 401467) :
    scanState e = region (position e / 56 % 56) (position e % 56) := by
  simp [scanState, show ¬ e < 59 by omega, pixel]

theorem scanState_coolDown {e : Nat} (drained : 401467 ≤ e) :
    scanState e = .arrayCoolDown := by
  simp [scanState, show ¬ e < 59 by omega, show ¬ e < 401467 by omega]

theorem scanState_ne_idle (e : Nat) : scanState e ≠ .idle := by
  unfold scanState
  split_ifs
  · simp
  · exact region_ne_idle _ _
  · simp

@[simp] theorem scan_state (skew e : Nat) : (scan skew e).state = scanState e := rfl

theorem arrayEn_scan (skew e : Nat) :
    arrayEn (scan skew e) = decide (59 ≤ e ∧ e < 401467) := by
  by_cases filling : e < 59
  · simp [arrayEn, scanState_setup filling, show ¬ 59 ≤ e by omega]
  · by_cases pixel : e < 401467
    · simp [arrayEn, scanState_conv (by omega) pixel, region_ne_idle,
        region_ne_arraySetup, region_ne_arrayCoolDown, pixel, show 59 ≤ e by omega]
    · simp [arrayEn, scanState_coolDown (by omega : 401467 ≤ e), pixel]

theorem pipeEn_scan (skew e : Nat) (i : Input) :
    pipeEn (scan skew e) i = i.macArray2psumAccRdy := by
  simp [pipeEn, scanState_ne_idle]

theorem imapRen_scan (skew e : Nat) (i : Input) :
    imapRen (scan skew e) i = (decide (e < 401467) && i.macArray2psumAccRdy) := by
  by_cases pixel : e < 401467
  · have fetching : scanState e ≠ .arrayCoolDown := by
      by_cases filling : e < 59
      · simp [scanState_setup filling]
      · rw [scanState_conv (by omega) pixel]
        exact region_ne_arrayCoolDown _ _
    simp [imapRen, pipeEn_scan, scanState_ne_idle, fetching, pixel]
  · simp [imapRen, scanState_coolDown (by omega : 401467 ≤ e), pixel]

theorem vld_scan (skew e : Nat) :
    macArray2psumAccVld (scan skew e) = decide (65 ≤ e ∧ e < 401473) := rfl

theorem handover_scan (skew e : Nat) (i : Input) :
    handover (scan skew e) i =
      (decide (65 ≤ e ∧ e < 401473) && i.macArray2psumAccRdy) := rfl

/-! A stalled cycle changes nothing. -/

theorem nextState_stalled (s : State) (i : Input) (stalled : pipeEn s i = false)
    (busy : s.state ≠ .idle) : nextState s i = s.state := by
  unfold nextState
  cases at_ : s.state <;> simp_all

theorem step_scan_stalled (skew e : Nat) (i : Input)
    (stalled : i.macArray2psumAccRdy = false) :
    step (scan skew e) i = scan skew e := by
  have held : pipeEn (scan skew e) i = false := by rw [pipeEn_scan, stalled]
  have kept := nextState_stalled (scan skew e) i held (scanState_ne_idle e)
  have unread : imapRen (scan skew e) i = false := by simp [imapRen_scan, stalled]
  have unsent : handover (scan skew e) i = false := by simp [handover_scan, stalled]
  simp only [step, held, kept, unread, unsent, Bool.false_eq_true, and_false,
    false_and, if_false, dfflrChain_false]
  simp [scan, scanState_ne_idle]

/-! An enabled cycle moves the scan on by one. -/

theorem nextState_raster (s : State) (i : Input) (enabled : pipeEn s i = true)
    (located : s.state = region s.convRowCnt s.convColCnt)
    (row : s.convRowCnt < 56) (col : s.convColCnt < 56) (channel : s.outChCnt < 64) :
    nextState s i =
      if s.convColCnt < 55 then region s.convRowCnt (s.convColCnt + 1)
      else if s.convRowCnt < 55 then region (s.convRowCnt + 1) 0
      else if s.outChCnt = 63 ∧ s.inChCnt = true then .arrayCoolDown
      else .convS0 := by
  unfold region at located ⊢
  unfold nextState
  split_ifs at located <;> simp only [located, enabled, noch] <;> grind

variable {skew e : Nat} {i : Input}

theorem nextState_scan_setup (filling : e < 59) (ready : i.macArray2psumAccRdy = true) :
    nextState (scan skew e) i = scanState (e + 1) := by
  have enabled : pipeEn (scan skew e) i = true := by rw [pipeEn_scan, ready]
  have count : (scan skew e).setupCnt = e := by simp [scan, filling]
  have current : (scan skew e).state = .arraySetup := scanState_setup filling
  unfold nextState
  rw [current]
  by_cases last : e = 58
  · subst e
    simp [enabled, count, scanState, position, region]
  · simp [enabled, count, last, scanState_setup (show e + 1 < 59 by omega)]

theorem nextState_scan_conv (filled : 59 ≤ e) (pixel : e < 401467)
    (ready : i.macArray2psumAccRdy = true) :
    nextState (scan skew e) i = scanState (e + 1) := by
  have enabled : pipeEn (scan skew e) i = true := by rw [pipeEn_scan, ready]
  have here : position e = e - 59 := by unfold position; omega
  have next : position (e + 1) = e - 58 := by unfold position; omega
  rw [nextState_raster (scan skew e) i enabled (scanState_conv filled pixel)
    (Nat.mod_lt _ (by omega)) (Nat.mod_lt _ (by omega)) (Nat.mod_lt _ (by omega))]
  simp only [scan, here, decide_eq_true_eq]
  by_cases last : e = 401466
  · subst e
    rw [scanState_coolDown (by omega)]
    simp
  · rw [scanState_conv (by omega) (by omega), next]
    split_ifs with inRow inMap inRun
    · rw [show (e - 58) / 56 % 56 = (e - 59) / 56 % 56 by omega,
        show (e - 58) % 56 = (e - 59) % 56 + 1 by omega]
    · rw [show (e - 58) / 56 % 56 = (e - 59) / 56 % 56 + 1 by omega,
        show (e - 58) % 56 = 0 by omega]
    · omega
    · rw [show (e - 58) / 56 % 56 = 0 by omega, show (e - 58) % 56 = 0 by omega]
      rfl

theorem nextState_scan_coolDown (drained : 401467 ≤ e) (running : e < 401473)
    (ready : i.macArray2psumAccRdy = true) :
    nextState (scan skew e) i = if e < 401472 then .arrayCoolDown else .idle := by
  have enabled : pipeEn (scan skew e) i = true := by rw [pipeEn_scan, ready]
  have current : (scan skew e).state = .arrayCoolDown := scanState_coolDown drained
  have count : (scan skew e).omapCnt = 3135 ∧ (scan skew e).omapChCnt = 127 ↔
      e = 401472 := by
    simp only [scan]
    omega
  unfold nextState
  rw [current]
  simp only [noch, enabled, and_true]
  split_ifs <;> first | rfl | omega

theorem position_succ (e : Nat) :
    position (e + 1) = if 59 ≤ e ∧ e < 401467 then position e + 1 else position e := by
  unfold position
  split_ifs <;> omega

theorem position_lt_of_pixel (filled : 59 ≤ e) (pixel : e < 401467) :
    position e < 401408 := by
  unfold position
  omega

theorem scan_state_eq_arraySetup : scanState e = .arraySetup ↔ e < 59 := by
  by_cases filling : e < 59
  · simp [scanState_setup filling, filling]
  · by_cases pixel : e < 401467
    · simp [scanState_conv (by omega) pixel, region_ne_arraySetup, filling]
    · simp [scanState_coolDown (by omega : 401467 ≤ e), filling]

theorem step_scan_ready (running : e < 401472) (ready : i.macArray2psumAccRdy = true) :
    step (scan skew e) i = scan skew (e + 1) := by
  have enabled : pipeEn (scan skew e) i = true := by rw [pipeEn_scan, ready]
  have pixel : arrayEn (scan skew e) = decide (59 ≤ e ∧ e < 401467) :=
    arrayEn_scan skew e
  have read : imapRen (scan skew e) i = decide (e < 401467) := by
    simp [imapRen_scan, ready]
  have sent : handover (scan skew e) i = decide (65 ≤ e) := by
    simp [handover_scan, ready, show e < 401473 by omega]
  have state : nextState (scan skew e) i = scanState (e + 1) := by
    by_cases filling : e < 59
    · exact nextState_scan_setup filling ready
    · by_cases pixel : e < 401467
      · exact nextState_scan_conv (by omega) pixel ready
      · rw [nextState_scan_coolDown (by omega) (by omega) ready, if_pos running,
          scanState_coolDown (by omega)]
  have moved := position_succ e
  have inside := fun filled pixel => position_lt_of_pixel (e := e) filled pixel
  apply State.ext
  case state => exact state
  case setupCnt =>
    show (if scanState e = .arraySetup ∧ pipeEn (scan skew e) i then
      wrapCount 58 6 (if e < 59 then e else 0) else if e < 59 then e else 0) =
      if e + 1 < 59 then e + 1 else 0
    rw [enabled, wrapCount]
    simp only [scan_state_eq_arraySetup, and_true]
    split_ifs <;> omega
  case convColCnt =>
    show (if arrayEn (scan skew e) ∧ pipeEn (scan skew e) i then
      wrapCount 55 6 (position e % 56) else position e % 56) = position (e + 1) % 56
    rw [enabled, pixel, wrapCount_mod (by decide : 55 < 2 ^ 6), moved]
    split_ifs <;> simp_all
  case convRowCnt =>
    show (if position e % 56 = 55 ∧ arrayEn (scan skew e) ∧ pipeEn (scan skew e) i then
      wrapCount 55 6 (position e / 56 % 56) else position e / 56 % 56) =
      position (e + 1) / 56 % 56
    rw [enabled, pixel, wrapCount_mod (by decide : 55 < 2 ^ 6), moved]
    simp only [decide_eq_true_eq, and_true]
    split_ifs <;> omega
  case inChCnt =>
    show (if position e / 56 % 56 = 55 ∧ position e % 56 = 55 ∧ arrayEn (scan skew e) ∧
      pipeEn (scan skew e) i then !decide (position e / 3136 % 2 = 1)
      else decide (position e / 3136 % 2 = 1)) =
      decide (position (e + 1) / 3136 % 2 = 1)
    rw [enabled, pixel, moved, ← decide_not]
    simp only [decide_eq_true_eq, and_true]
    split_ifs <;> exact decide_eq_decide.mpr (by omega)
  case outChCnt =>
    show (if decide (position e / 3136 % 2 = 1) ∧ position e / 56 % 56 = 55 ∧
      position e % 56 = 55 ∧ arrayEn (scan skew e) ∧ pipeEn (scan skew e) i then
      wrapCount 63 8 (position e / 6272 % 64) else position e / 6272 % 64) =
      position (e + 1) / 6272 % 64
    rw [enabled, pixel, wrapCount_mod (by decide : 63 < 2 ^ 8), moved]
    simp only [decide_eq_true_eq, and_true]
    split_ifs <;> omega
  case imapCnt =>
    show (if imapRen (scan skew e) i then
      wrapCount 3135 12 ((skew + min e 401467) % 3136)
      else (skew + min e 401467) % 3136) = (skew + min (e + 1) 401467) % 3136
    rw [read, wrapCount_mod (by decide : 3135 < 2 ^ 12)]
    simp only [decide_eq_true_eq]
    split_ifs <;> omega
  case omapCnt =>
    show (if handover (scan skew e) i then wrapCount 3135 12 ((e - 65) % 3136)
      else (e - 65) % 3136) = (e + 1 - 65) % 3136
    rw [sent, wrapCount_mod (by decide : 3135 < 2 ^ 12)]
    simp only [decide_eq_true_eq]
    split_ifs <;> omega
  case omapChCnt =>
    show (if handover (scan skew e) i ∧ (e - 65) % 3136 = 3135 then
      wrapCount 127 7 ((e - 65) / 3136) else (e - 65) / 3136) = (e + 1 - 65) / 3136
    rw [sent, wrapCount]
    simp only [decide_eq_true_eq]
    split_ifs <;> omega
  case convDone =>
    show (if false then false
      else if scanState e = .arrayCoolDown ∧ nextState (scan skew e) i = .idle then true
      else false) = false
    rw [state]
    simp [scanState_ne_idle]
  case vldDelay =>
    funext j
    show dfflrChain (pipeEn (scan skew e) i) (arrayEn (scan skew e))
      (scan skew e).vldDelay j = decide (60 + j.val ≤ e + 1 ∧ e + 1 < 401468 + j.val)
    rw [enabled, pixel]
    refine Fin.cases ?_ (fun k => ?_) j
    · rw [dfflrChain_true_zero]
      exact decide_eq_decide.mpr (by simp; omega)
    · rw [dfflrChain_true_succ]
      exact decide_eq_decide.mpr (by simp; omega)

theorem step_scan_last (drained : 401472 ≤ e) (running : e < 401473)
    (ready : i.macArray2psumAccRdy = true) :
    step (scan skew e) i = rested ((skew + 59) % 3136) true := by
  have enabled : pipeEn (scan skew e) i = true := by rw [pipeEn_scan, ready]
  have pixel : arrayEn (scan skew e) = false := by
    rw [arrayEn_scan]
    exact decide_eq_false (by omega)
  have read : imapRen (scan skew e) i = false := by
    rw [imapRen_scan, decide_eq_false (by omega : ¬ e < 401467), Bool.false_and]
  have sent : handover (scan skew e) i = true := by
    rw [handover_scan, ready, decide_eq_true ⟨by omega, by omega⟩, Bool.and_self]
  have state : nextState (scan skew e) i = .idle := by
    rw [nextState_scan_coolDown (by omega) running ready, if_neg (by omega)]
  have current : scanState e = .arrayCoolDown := scanState_coolDown (by omega)
  have whole : position e = 401408 := by unfold position; omega
  apply State.ext
  case state => exact state
  case setupCnt =>
    show (if scanState e = .arraySetup ∧ pipeEn (scan skew e) i then
      wrapCount 58 6 (if e < 59 then e else 0) else if e < 59 then e else 0) = 0
    rw [current]
    simp [show ¬ e < 59 by omega]
  case convColCnt =>
    show (if arrayEn (scan skew e) ∧ pipeEn (scan skew e) i then
      wrapCount 55 6 (position e % 56) else position e % 56) = 0
    simp only [pixel, whole, Bool.false_eq_true, false_and, if_false]
  case convRowCnt =>
    show (if position e % 56 = 55 ∧ arrayEn (scan skew e) ∧ pipeEn (scan skew e) i then
      wrapCount 55 6 (position e / 56 % 56) else position e / 56 % 56) = 0
    simp only [pixel, whole, Bool.false_eq_true, false_and, and_false, if_false]
  case inChCnt =>
    show (if position e / 56 % 56 = 55 ∧ position e % 56 = 55 ∧ arrayEn (scan skew e) ∧
      pipeEn (scan skew e) i then !decide (position e / 3136 % 2 = 1)
      else decide (position e / 3136 % 2 = 1)) = false
    simp only [pixel, whole, Bool.false_eq_true, false_and, and_false, if_false]
    rfl
  case outChCnt =>
    show (if decide (position e / 3136 % 2 = 1) ∧ position e / 56 % 56 = 55 ∧
      position e % 56 = 55 ∧ arrayEn (scan skew e) ∧ pipeEn (scan skew e) i then
      wrapCount 63 8 (position e / 6272 % 64) else position e / 6272 % 64) = 0
    simp only [pixel, whole, Bool.false_eq_true, false_and, and_false, if_false]
  case imapCnt =>
    show (if imapRen (scan skew e) i then
      wrapCount 3135 12 ((skew + min e 401467) % 3136)
      else (skew + min e 401467) % 3136) = (skew + 59) % 3136
    rw [read, if_neg Bool.false_ne_true]
    omega
  case omapCnt =>
    show (if handover (scan skew e) i then wrapCount 3135 12 ((e - 65) % 3136)
      else (e - 65) % 3136) = 0
    rw [sent, if_pos rfl, wrapCount, if_pos (by omega)]
  case omapChCnt =>
    show (if handover (scan skew e) i ∧ (e - 65) % 3136 = 3135 then
      wrapCount 127 7 ((e - 65) / 3136) else (e - 65) / 3136) = 0
    rw [sent, if_pos ⟨rfl, by omega⟩, wrapCount, if_pos (by omega)]
  case convDone =>
    show (if false then false
      else if scanState e = .arrayCoolDown ∧ nextState (scan skew e) i = .idle then true
      else false) = true
    rw [state, current]
    rfl
  case vldDelay =>
    funext j
    show dfflrChain (pipeEn (scan skew e) i) (arrayEn (scan skew e))
      (scan skew e).vldDelay j = false
    rw [enabled, pixel]
    refine Fin.cases ?_ (fun k => ?_) j
    · rw [dfflrChain_true_zero]
    · rw [dfflrChain_true_succ]
      exact decide_eq_false (by simp; omega)

/-! The run-level machine: between runs it remembers where the next run will
start reading, within a run how many enabled cycles have passed. -/

inductive Scan
  | rest (skew : Fin 3136) (done : Bool)
  | busy (skew : Fin 3136) (e : Fin 401473)

namespace Scan

def toState : Scan → State
  | .rest skew done => rested skew done
  | .busy skew e => scan skew e

/-- The residue that a completed run leaves in `imap_cnt`. -/
def nextSkew (skew : Fin 3136) : Fin 3136 :=
  ⟨(skew + 59) % 3136, Nat.mod_lt _ (by omega)⟩

def step : Scan → Input → Scan
  | .rest skew _, i => if i.convStart then .busy skew 0 else .rest skew false
  | .busy skew e, i =>
      if i.macArray2psumAccRdy then
        if last : e.val + 1 < 401473 then .busy skew ⟨e + 1, last⟩
        else .rest (nextSkew skew) true
      else .busy skew e

end Scan

theorem step_rested_start (skew : Nat) (inside : skew < 3136) (done : Bool)
    (start : i.convStart = true) : step (rested skew done) i = scan skew 0 := by
  apply State.ext
  case imapCnt => exact (Nat.mod_eq_of_lt inside).symm
  case state => simp [step, nextState, rested, reset, start, scanState]
  case convDone => cases done <;> rfl
  case vldDelay =>
    funext j
    exact (decide_eq_false (by simp)).symm
  all_goals rfl

theorem step_rested_wait (skew : Nat) (done : Bool) (wait : i.convStart = false) :
    step (rested skew done) i = rested skew false := by
  apply State.ext
  case state => simp [step, nextState, rested, reset, wait]
  case convDone => cases done <;> rfl
  all_goals rfl

/-- `mac_array_fsm` refines the run-level machine. -/
theorem step_toState (a : Scan) (i : Input) :
    step a.toState i = (a.step i).toState := by
  cases a with
  | rest skew done =>
      cases start : i.convStart with
      | false => simpa [Scan.toState, Scan.step, start] using
          step_rested_wait skew.val done start
      | true => simpa [Scan.toState, Scan.step, start] using
          step_rested_start skew.val skew.isLt done start
  | busy skew e =>
      cases ready : i.macArray2psumAccRdy with
      | false => simpa [Scan.toState, Scan.step, ready] using
          step_scan_stalled skew e i ready
      | true =>
          by_cases last : e.val + 1 < 401473
          · simpa [Scan.toState, Scan.step, ready, last] using
              step_scan_ready (by omega) ready
          · have rests : MacArrayFsm.step (scan skew e) i = rested ((skew + 59) % 3136) true :=
              step_scan_last (by omega) e.isLt ready
            simpa [Scan.toState, Scan.step, Scan.nextSkew, ready, last] using rests

theorem reset_eq_toState : reset = (Scan.rest 0 false).toState := rfl

end RepVGGAcc.MacArrayFsm
