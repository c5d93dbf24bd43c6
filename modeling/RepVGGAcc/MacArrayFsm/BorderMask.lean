import RepVGGAcc.MacArrayFsm.Handover

/-! The nine convolution states and the borders of the map. -/

namespace RepVGGAcc.MacArrayFsm

open Clocked

/-- The positions a state stands for: the corners, the edges and the interior of the
56x56 map. Outside of the scan both counters are 0. -/
def InRegion (state : FsmState) (row col : Nat) : Prop :=
  match state with
  | .convS0 => row = 0 ∧ col = 0
  | .convS1 => row = 0 ∧ 0 < col ∧ col < 55
  | .convS2 => row = 0 ∧ col = 55
  | .convS3 => 0 < row ∧ row < 55 ∧ col = 0
  | .convS4 => 0 < row ∧ row < 55 ∧ 0 < col ∧ col < 55
  | .convS5 => 0 < row ∧ row < 55 ∧ col = 55
  | .convS6 => row = 55 ∧ col = 0
  | .convS7 => row = 55 ∧ 0 < col ∧ col < 55
  | .convS8 => row = 55 ∧ col = 55
  | .idle => row = 0 ∧ col = 0
  | .arraySetup => row = 0 ∧ col = 0
  | .arrayCoolDown => row = 0 ∧ col = 0

theorem inRegion_region {row col : Nat} (inRow : row < 56) (inCol : col < 56) :
    InRegion (region row col) row col := by
  unfold region
  split_ifs <;> simp only [InRegion] <;> omega

theorem peEn_kernel {s : State} {row col : Nat} (located : s.state = region row col)
    (line k : Fin 3) :
    (peEn s).getLsbD (3 * line + k) =
      decide (¬ (line.val = 2 ∧ row = 0) ∧ ¬ (line.val = 0 ∧ row = 55) ∧
        ¬ (k.val = 2 ∧ col = 0) ∧ ¬ (k.val = 0 ∧ col = 55)) := by
  unfold peEn
  rw [located]
  unfold region
  split_ifs with top left right bottom left right left right <;>
    simp_all <;> revert line k <;> decide

/-- By kernel tap: tap `(k, m)` of a window is its pixel in row `row + k - 1` and
column `col + m - 1`. -/
theorem peEn_window {s : State} {row col : Nat} (located : s.state = region row col)
    (inRow : row < 56) (inCol : col < 56) {k m : Nat} (line : k < 3) (place : m < 3) :
    (peEn s).getLsbD (8 - (3 * k + m)) =
      !decide (row + k = 0 ∨ row + k = 57 ∨ col + m = 0 ∨ col + m = 57) := by
  have enabled := peEn_kernel located ⟨2 - k, by omega⟩ ⟨2 - m, by omega⟩
  rw [show 3 * (2 - k) + (2 - m) = 8 - (3 * k + m) by omega] at enabled
  rw [enabled, ← decide_not]
  exact decide_eq_decide.mpr (by simp only; omega)

theorem peEn_point {s : State} {row col : Nat} (located : s.state = region row col) :
    (peEn s).getLsbD 9 = true := by
  unfold peEn
  rw [located]
  unfold region
  split_ifs <;> rfl

theorem peEn_tap {s : State} {row col : Nat} (located : s.state = region row col)
    (inRow : row < 56) (inCol : col < 56) {dy dx : Int} (up : -1 ≤ dy) (down : dy ≤ 1)
    (left : -1 ≤ dx) (right : dx ≤ 1) :
    (peEn s).getLsbD (3 * (1 - dy) + (1 - dx)).toNat = true ↔
      (0 ≤ row + dy ∧ row + dy < 56) ∧ 0 ≤ col + dx ∧ col + dx < 56 := by
  obtain ⟨line, lineEq⟩ : ∃ line : Fin 3, (line.val : Int) = 1 - dy :=
    ⟨⟨(1 - dy).toNat, by omega⟩, Int.toNat_of_nonneg (by omega)⟩
  obtain ⟨k, kEq⟩ : ∃ k : Fin 3, (k.val : Int) = 1 - dx :=
    ⟨⟨(1 - dx).toNat, by omega⟩, Int.toNat_of_nonneg (by omega)⟩
  have bit : (3 * (1 - dy) + (1 - dx)).toNat = 3 * line.val + k.val := by omega
  rw [bit, peEn_kernel located, decide_eq_true_iff]
  omega

/-- What the state says about the counters and the enables about the borders. -/
structure Masks (s : State) : Prop where
  region : InRegion s.state s.convRowCnt s.convColCnt
  kernel : arrayEn s = true → ∀ dy dx : Int, -1 ≤ dy → dy ≤ 1 → -1 ≤ dx → dx ≤ 1 →
    ((peEn s).getLsbD (3 * (1 - dy) + (1 - dx)).toNat = true ↔
      (0 ≤ s.convRowCnt + dy ∧ s.convRowCnt + dy < 56) ∧
        0 ≤ s.convColCnt + dx ∧ s.convColCnt + dx < 56)
  point : arrayEn s = true → (peEn s).getLsbD 9 = true
  off : arrayEn s = false → peEn s = 0

/-- The masks in cycle `t`, and that the state of this cycle is left again: the idle
state with the next start, any other when the receiver accepts again and again. -/
structure BorderMask (s : Nat → State) (i : Nat → Input) (t : Nat) : Prop where
  masks : Masks (s t)
  starts : (s t).state = .idle → (i t).convStart = true → (s (t + 1)).state = .arraySetup
  left : (s t).state ≠ .idle → (∀ m, ∃ u, m ≤ u ∧ (i u).macArray2psumAccRdy = true) →
    ∃ u, t < u ∧ (s u).state ≠ (s t).state
  ends : (s t).state ≠ .idle → (∀ m, ∃ u, m ≤ u ∧ (i u).macArray2psumAccRdy = true) →
    ∃ u, t < u ∧ (s u).state = .idle

theorem masks_of_off {s : State} (off : arrayEn s = false)
    (region : InRegion s.state s.convRowCnt s.convColCnt) : Masks s where
  region := region
  kernel := fun on => by
    rw [off] at on
    cases on
  point := fun on => by
    rw [off] at on
    cases on
  off := fun _ => by
    unfold arrayEn at off
    unfold peEn
    cases state : s.state <;> rw [state] at off <;> first | rfl | cases off

theorem masks_of_region {s : State} (located : s.state = region s.convRowCnt s.convColCnt)
    (inRow : s.convRowCnt < 56) (inCol : s.convColCnt < 56) : Masks s where
  region := by
    rw [located]
    exact inRegion_region inRow inCol
  kernel := fun _ _ _ up down left right => peEn_tap located inRow inCol up down left right
  point := fun _ => peEn_point located
  off := fun off => by
    unfold arrayEn at off
    rw [located] at off
    simp [region_ne_idle, region_ne_arraySetup, region_ne_arrayCoolDown] at off

theorem masks_scan (skew e : Nat) : Masks (scan skew e) := by
  by_cases filling : e < 59
  · refine masks_of_off ?_ ?_
    · rw [arrayEn_scan]
      exact decide_eq_false (by omega)
    · have start : position e = 0 := by unfold position; omega
      rw [scan_state, scanState_setup filling]
      show position e / 56 % 56 = 0 ∧ position e % 56 = 0
      rw [start]
      exact ⟨rfl, rfl⟩
  · by_cases pixel : e < 401467
    · exact masks_of_region (scanState_conv (by omega) pixel) (Nat.mod_lt _ (by decide))
        (Nat.mod_lt _ (by decide))
    · refine masks_of_off ?_ ?_
      · rw [arrayEn_scan]
        exact decide_eq_false (by omega)
      · have whole : position e = 401408 := by unfold position; omega
        rw [scan_state, scanState_coolDown (by omega)]
        show position e / 56 % 56 = 0 ∧ position e % 56 = 0
        rw [whole]
        exact ⟨rfl, rfl⟩

theorem Scan.masks_toState (a : Scan) : Masks a.toState := by
  cases a with
  | rest skew done => exact masks_of_off rfl ⟨rfl, rfl⟩
  | busy skew e => exact masks_scan skew e

theorem Scan.idle_of_done {a : Scan} (done : a.done = true) : a.toState.state = .idle := by
  cases a with
  | rest skew flag => rfl
  | busy skew e => cases done

theorem borderMask {s : Nat → State} {i : Nat → Input} (trace : IsTrace step s i)
    (initial : s 0 = reset) (t : Nat) : BorderMask s i t := by
  obtain ⟨a, first, scans, image⟩ := exists_scan trace initial
  have ends (busy : (s t).state ≠ .idle)
      (ready : ∀ m, ∃ u, m ≤ u ∧ (i u).macArray2psumAccRdy = true) :
      ∃ u, t < u ∧ (s u).state = .idle := by
    obtain ⟨u, later, done⟩ := (handsOver trace initial t).ends busy ready
    rw [image u, Scan.convDone_toState] at done
    refine ⟨u, later, ?_⟩
    rw [image u]
    exact Scan.idle_of_done done
  refine ⟨?_, ?_, ?_, ends⟩
  · rw [image t]
    exact (a t).masks_toState
  · intro idle start
    rw [trace t]
    show nextState (s t) (i t) = _
    unfold nextState
    rw [idle]
    exact if_pos start
  · intro busy ready
    obtain ⟨u, later, idle⟩ := ends busy ready
    refine ⟨u, later, ?_⟩
    rw [idle]
    exact busy.symm

theorem borderMask_unstalled : BorderMask (run step reset unstalled) unstalled 60 :=
  borderMask (isTrace_run step reset unstalled) rfl 60

end RepVGGAcc.MacArrayFsm
