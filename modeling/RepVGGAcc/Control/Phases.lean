import RepVGGAcc.Control.Skeleton

/-! The phases of the first run on a bus that accepts every command and answers it `L`
cycles later. In each the control is a closed form of the cycles spent in it. -/

namespace RepVGGAcc

open IcbMaster (Grant)
open WeightBiu (burstWords)
open ImapLoad (mapWords)

namespace Burst

/-- A burst that begins in cycle `begins` and whose first command is handed over in
cycle `first`. -/
def during (words L begins first d : Nat) : Burst :=
  if d < begins then rest words
  else {
    issued := min (d - first) words
    received := min (d - first - L) words
    done := decide (d - first - L = words) }

section During

variable {words L begins first d : Nat}

theorem during_done (some_ : 0 < words) (le : begins ≤ first) :
    (during words L begins first d).done = decide (d = first + L + words) := by
  unfold during
  split_ifs with early
  · exact (decide_eq_false (by omega)).symm
  · exact decide_eq_decide.mpr (by omega)

theorem during_received (some_ : 0 < words) :
    (during words L begins first d).received < words ↔
      begins ≤ d ∧ d < first + L + words := by
  unfold during
  split_ifs with early
  · exact iff_of_false (lt_irrefl words) (by omega)
  · show min (d - first - L) words < words ↔ _
    omega

theorem during_received_mod (le : begins ≤ first) :
    (during words L begins first d).received % words = min (d - (first + L)) words % words := by
  unfold during
  split_ifs with early
  · show words % words = _
    rw [Nat.mod_self, show d - (first + L) = 0 by omega, Nat.zero_min, Nat.zero_mod]
  · show min (d - first - L) words % words = _
    rw [Nat.sub_sub]

theorem during_issued (some_ : 0 < words) :
    (during words L begins first d).issued < words ↔ begins ≤ d ∧ d < first + words := by
  unfold during
  split_ifs with early
  · exact iff_of_false (lt_irrefl words) (by omega)
  · show min (d - first) words < words ↔ _
    omega

theorem during_late (le : begins ≤ first) (late : first + L + words < d) :
    during words L begins first d = rest words := by
  unfold during
  rw [if_neg (by omega)]
  ext
  · exact Nat.min_eq_right (by omega)
  · exact Nat.min_eq_right (by omega)
  · exact decide_eq_false (by omega)

theorem during_early (early : d < begins) : during words L begins first d = rest words :=
  if_pos early

/-- The words arrive in order, `L` cycles after their commands. -/
def arrives (words L first d : Nat) : Bool :=
  decide (first + L ≤ d ∧ d < first + L + words)

theorem next_during {start rdy rsp : Bool} (some_ : 0 < words) (le : begins ≤ first)
    (starts : start = decide (d + 1 = begins))
    (granted : begins ≤ d → d < first + words → (rdy = true ↔ first ≤ d))
    (answered : rsp = arrives words L first d) :
    (during words L begins first d).next words start rdy rsp =
      during words L begins first (d + 1) := by
  subst starts answered
  obtain early | starting | running : d + 1 < begins ∨ d + 1 = begins ∨ begins ≤ d := by omega
  · have silent : arrives words L first d = false := decide_eq_false (by omega)
    rw [decide_eq_false (by omega), silent, during_early (by omega), during_early (by omega)]
    simp [next, rest]
  · rw [decide_eq_true starting]
    unfold next during
    rw [if_pos rfl, if_neg (by omega)]
    ext
    · show 0 = min (d + 1 - first) words
      omega
    · show 0 = min (d + 1 - first - L) words
      omega
    · exact (decide_eq_false (by omega)).symm
  · have busy : during words L begins first d =
        ⟨min (d - first) words, min (d - first - L) words, decide (d - first - L = words)⟩ :=
      if_neg (by omega)
    rw [decide_eq_false (by omega), busy]
    unfold next during arrives
    rw [if_neg Bool.false_ne_true, if_neg (show ¬ d + 1 < begins by omega)]
    ext
    · show (if rdy = true ∧ min (d - first) words < words then min (d - first) words + 1
        else min (d - first) words) = min (d + 1 - first) words
      by_cases more : d < first + words
      · have handed := granted running more
        simp only [handed]
        split_ifs <;> omega
      · rw [if_neg (by omega)]
        omega
    · show (if decide (first + L ≤ d ∧ d < first + L + words) = true then
        min (d - first - L) words + 1 else min (d - first - L) words) =
          min (d + 1 - first - L) words
      simp only [decide_eq_true_eq]
      split_ifs <;> omega
    · show (decide (first + L ≤ d ∧ d < first + L + words) &&
        decide (min (d - first - L) words + 1 = words)) = decide (d + 1 - first - L = words)
      rw [← Bool.decide_and]
      exact decide_eq_decide.mpr (by omega)

theorem fits_during {start rsp : Bool} (some_ : 0 < words) (le : begins ≤ first)
    (starts : start = decide (d + 1 = begins)) (answered : rsp = arrives words L first d) :
    (during words L begins first d).Fits words start rsp := by
  subst starts answered
  refine ⟨fun starting => ?_, fun receives => ?_⟩
  · have now := of_decide_eq_true starting
    rw [during_early (by omega)]
    exact ⟨rfl, rfl, decide_eq_false (by omega)⟩
  · have now := of_decide_eq_true receives
    exact (during_received some_).mpr (by omega)

end During

@[simp] theorem rest_received (words : Nat) : ¬ (rest words).received < words :=
  lt_irrefl words

@[simp] theorem rest_issued (words : Nat) : ¬ (rest words).issued < words :=
  lt_irrefl words

theorem fits_rest {words : Nat} {start rsp : Bool} (silent : rsp = false) :
    (rest words).Fits words start rsp :=
  ⟨fun _ => ⟨rfl, rfl, silent⟩, fun absurdity => by rw [silent] at absurdity; cases absurdity⟩

theorem next_rest (words : Nat) (rdy : Bool) :
    (rest words).next words false rdy false = rest words := by
  simp [next, rest]

end Burst

namespace Control

variable {L d n : Nat}

theorem receives_of_ne {c : Control} {unit : Grant} (other : c.grant ≠ unit) (rsp : Bool) :
    c.receives unit rsp = false := by
  unfold receives
  rw [beq_eq_false_iff_ne.mpr other]
  rfl

/-- Before the first item of a second group nothing is on its way to the bus. -/
def filling (main : MainFsm.State) (fsm : MacArrayFsm.State) (grant : Grant)
    (weight imap : Burst) : Control :=
  { rest main with fsm, grant, weight, imap }

theorem next_filling {main main' : MainFsm.State} {fsm fsm' : MacArrayFsm.State}
    {grant grant' : Grant} {weight weight' imap imap' : Burst} {start rsp : Bool}
    (mainStep : MainFsm.step main ((filling main fsm grant weight imap).mainInput start) = main')
    (fsmStep : MacArrayFsm.step fsm
      { convStart := main.convStart, macArray2psumAccRdy := true } = fsm')
    (grantStep : IcbMaster.nextstate { state := grant, nextstate := grant }
      (filling main fsm grant weight imap).requests = grant')
    (weightStep : weight.next burstWords main.weightStart (grant == .weight)
      (grant == .weight && rsp) = weight')
    (imapStep : imap.next mapWords main.imapStart (grant == .imap) (grant == .imap && rsp) =
      imap')
    (other : grant ≠ .omap) (firstGroup : fsm.inChCnt = false)
    (noItem : (filling main fsm grant weight imap).secondItem = false) :
    (filling main fsm grant weight imap).next start rsp =
      filling main' fsm' grant' weight' imap' := by
  have quiet : (filling main fsm grant weight imap).receives .omap rsp = false :=
    receives_of_ne other rsp
  subst mainStep fsmStep grantStep weightStep imapStep
  apply Control.ext
  case omapRcv =>
    show (if 0 = 3135 ∧ (filling main fsm grant weight imap).receives .omap rsp then 0
      else if (filling main fsm grant weight imap).receives .omap rsp then _ else 0) = 0
    simp [quiet]
  case omapReq =>
    show (if 0 = 3135 ∧ (filling main fsm grant weight imap).receives .omap rsp then false
      else if fsm.inChCnt then true else false) = false
    simp [quiet, firstGroup]
  case psumVld => exact noItem
  all_goals rfl

/-! From the cycle of the start command: the fetch of the weights of channel 0. -/

def weightPhase (L d : Nat) : Control :=
  filling
    { MainFsm.reset with
      state := if d = 0 then .idle else if d < 164 + L then .wsetup else .isetup
      weightStart := decide (d = 1)
      imapStart := decide (d = 164 + L) }
    MacArrayFsm.reset
    (if 3 ≤ d ∧ d < 164 + L then .weight else .none)
    (.during burstWords L 2 3 d)
    (.rest mapWords)

theorem next_weightPhase (running : d < 164 + L) :
    (weightPhase L d).next (decide (d = 0)) (Burst.arrives burstWords L 3 d) =
      weightPhase L (d + 1) := by
  have done : (Burst.during burstWords L 2 3 d).done = decide (d = 163 + L) :=
    (Burst.during_done (by decide) (by omega)).trans
      (decide_eq_decide.mpr (by unfold burstWords; omega))
  have requests : ((Burst.during burstWords L 2 3 d).received < burstWords) =
      (2 ≤ d ∧ d < 163 + L) :=
    propext ((Burst.during_received (by decide)).trans (by unfold burstWords; omega))
  apply next_filling
  case mainStep =>
    apply MainFsm.step_eq
    case state =>
      simp only [filling, mainInput, done, MainFsm.nextState]
      grind
    case outChCnt => rfl
    all_goals
      simp only [filling, rest, mainInput, MainFsm.reset, MacArrayFsm.reset]
      grind
  case fsmStep => exact MacArrayFsm.step_rested_wait 0 false rfl
  case grantStep =>
    simp only [filling, rest, Control.requests, requests, Burst.rest_received,
      decide_false, IcbMaster.nextstate]
    grind
  case weightStep =>
    refine Burst.next_during (by decide) (by omega) (decide_eq_decide.mpr (by omega)) ?_ ?_
    · grind [burstWords]
    · grind [burstWords, Burst.arrives]
  case imapStep =>
    have starts : decide (d = 164 + L) = false := decide_eq_false (by omega)
    have granted : ((if 3 ≤ d ∧ d < 164 + L then Grant.weight else .none) == Grant.imap) =
        false := by
      grind
    rw [starts, granted]
    exact Burst.next_rest _ _
  case other => grind
  all_goals rfl

theorem fits_weightPhase : (weightPhase L d).Fits (Burst.arrives burstWords L 3 d) where
  flows := fun absurdity => Bool.noConfusion absurdity
  weight := by
    refine Burst.fits_during (by decide) (by omega) (decide_eq_decide.mpr (by omega)) ?_
    simp only [weightPhase, filling, receives]
    grind [Burst.arrives, burstWords]
  imap := by
    refine Burst.fits_rest ?_
    simp only [weightPhase, filling, receives]
    grind

theorem cmdValid_weightPhase :
    (weightPhase L d).cmdValid = decide (3 ≤ d ∧ d < 3 + burstWords) := by
  have issues : ((Burst.during burstWords L 2 3 d).issued < burstWords) =
      (2 ≤ d ∧ d < 163) :=
    propext ((Burst.during_issued (by decide)).trans (by unfold burstWords; omega))
  simp only [weightPhase, filling, cmdValid, issues]
  grind [burstWords]

/-! Then the fetch of the input map. -/

def imapPhase (L d : Nat) : Control :=
  filling
    { MainFsm.reset with
      state := if d < 50179 + L then .isetup else .conv
      weightStart := decide (d = 50179 + L)
      imapStart := decide (d = 0)
      convStart := decide (d = 50179 + L) }
    MacArrayFsm.reset
    (if 2 ≤ d ∧ d < 50179 + L then .imap else .none)
    (.rest burstWords)
    (.during mapWords L 1 2 d)

theorem imapPhase_zero : weightPhase L (164 + L) = imapPhase L 0 := by
  unfold weightPhase imapPhase
  rw [Burst.during_late (by omega) (by unfold burstWords; omega), Burst.during_early (by omega)]
  simp [MainFsm.reset, show 0 < 50179 + L by omega, show 164 + L ≠ 1 by omega,
    show 0 ≠ 50179 + L by omega]

theorem next_imapPhase (running : d < 50179 + L) :
    (imapPhase L d).next false (Burst.arrives mapWords L 2 d) = imapPhase L (d + 1) := by
  have done : (Burst.during mapWords L 1 2 d).done = decide (d = 50178 + L) :=
    (Burst.during_done (by decide) (by omega)).trans
      (decide_eq_decide.mpr (by unfold mapWords; omega))
  have requests : ((Burst.during mapWords L 1 2 d).received < mapWords) =
      (1 ≤ d ∧ d < 50178 + L) :=
    propext ((Burst.during_received (by decide)).trans (by unfold mapWords; omega))
  apply next_filling
  case mainStep =>
    apply MainFsm.step_eq
    case state =>
      simp only [filling, mainInput, done, MainFsm.nextState]
      grind
    case outChCnt => rfl
    all_goals
      simp only [filling, rest, mainInput, MainFsm.reset, MacArrayFsm.reset]
      grind
  case fsmStep => exact MacArrayFsm.step_rested_wait 0 false (decide_eq_false (by omega))
  case grantStep =>
    simp only [filling, rest, Control.requests, requests, Burst.rest_received,
      decide_false, IcbMaster.nextstate]
    grind
  case weightStep =>
    have starts : decide (d = 50179 + L) = false := decide_eq_false (by omega)
    have granted : ((if 2 ≤ d ∧ d < 50179 + L then Grant.imap else .none) == Grant.weight) =
        false := by
      grind
    rw [starts, granted]
    exact Burst.next_rest _ _
  case imapStep =>
    refine Burst.next_during (by decide) (by omega) (decide_eq_decide.mpr (by omega)) ?_ ?_
    · grind [mapWords]
    · grind [mapWords, Burst.arrives]
  case other => grind
  all_goals rfl

theorem fits_imapPhase : (imapPhase L d).Fits (Burst.arrives mapWords L 2 d) where
  flows := fun absurdity => Bool.noConfusion absurdity
  weight := by
    refine Burst.fits_rest ?_
    simp only [imapPhase, filling, receives]
    grind
  imap := by
    refine Burst.fits_during (by decide) (by omega) (decide_eq_decide.mpr (by omega)) ?_
    simp only [imapPhase, filling, receives]
    grind [Burst.arrives, mapWords]

theorem cmdValid_imapPhase :
    (imapPhase L d).cmdValid = decide (2 ≤ d ∧ d < 2 + mapWords) := by
  have issues : ((Burst.during mapWords L 1 2 d).issued < mapWords) = (1 ≤ d ∧ d < 50178) :=
    propext ((Burst.during_issued (by decide)).trans (by unfold mapWords; omega))
  simp only [imapPhase, filling, cmdValid, issues]
  grind [mapWords]

/-! `mac_array_fsm` in a run that is never stalled, and after it. -/

def fsmAt (e : Nat) : MacArrayFsm.State :=
  if e < 401473 then MacArrayFsm.scan 0 e else MacArrayFsm.rested 59 (decide (e = 401473))

theorem step_fsmAt (e : Nat) :
    MacArrayFsm.step (fsmAt e) { convStart := false, macArray2psumAccRdy := true } =
      fsmAt (e + 1) := by
  obtain running | last | after_ : e < 401472 ∨ e = 401472 ∨ 401473 ≤ e := by omega
  · rw [fsmAt, fsmAt, if_pos (by omega), if_pos (by omega)]
    exact MacArrayFsm.step_scan_ready running rfl
  · rw [fsmAt, fsmAt, if_pos (by omega), if_neg (by omega), decide_eq_true (by omega)]
    exact MacArrayFsm.step_scan_last (by omega) (by omega) rfl
  · rw [fsmAt, fsmAt, if_neg (by omega), if_neg (by omega),
      decide_eq_false (by omega : ¬ e + 1 = 401473)]
    exact MacArrayFsm.step_rested_wait 59 _ rfl

theorem outChCnt_fsmAt (e : Nat) :
    (fsmAt e).outChCnt = MacArrayFsm.position e / 6272 % 64 := by
  unfold fsmAt
  split_ifs with running
  · rfl
  · show 0 = _
    unfold MacArrayFsm.position
    omega

theorem inChCnt_fsmAt (e : Nat) :
    (fsmAt e).inChCnt = decide (MacArrayFsm.position e / 3136 % 2 = 1) := by
  unfold fsmAt
  split_ifs with running
  · rfl
  · refine (decide_eq_false ?_).symm
    unfold MacArrayFsm.position
    omega

theorem convDone_fsmAt (e : Nat) : (fsmAt e).convDone = decide (e = 401473) := by
  unfold fsmAt
  split_ifs with running
  · exact (decide_eq_false (by omega)).symm
  · rfl

theorem secondItem_fsmAt (e : Nat) :
    (MacArrayFsm.macArray2psumAccVld (fsmAt e) &&
      (MacArrayFsm.macArray2psumAccInfo (fsmAt e)).inChGroup) =
      decide (65 ≤ e ∧ e < 401473 ∧ (e - 65) / 3136 % 2 = 1) := by
  unfold fsmAt
  split_ifs with running
  · rw [MacArrayFsm.vld_scan]
    show (_ && decide ((e - 65) / 3136 % 2 = 1)) = _
    rw [← Bool.decide_and]
    exact decide_eq_decide.mpr (by omega)
  · refine (decide_eq_false (by omega)).symm

/-! Then the weights of channel 1, while the line buffers fill and the first group of
channel 0 is scanned. -/

def fillPhase (L d : Nat) : Control :=
  filling
    { MainFsm.reset with
      state := .conv
      weightStart := decide (d = 0)
      convStart := decide (d = 0) }
    (if d = 0 then MacArrayFsm.reset else fsmAt (d - 1))
    (if 2 ≤ d ∧ d < 163 + L then .weight else .none)
    (.during burstWords L 1 2 d)
    (.rest mapWords)

theorem fillPhase_zero : imapPhase L (50179 + L) = fillPhase L 0 := by
  unfold imapPhase fillPhase
  rw [Burst.during_late (by omega) (by unfold mapWords; omega), Burst.during_early (by omega)]
  simp [MainFsm.reset]

theorem fsm_fillPhase (running : d < 3196) :
    (fillPhase L d).fsm.outChCnt = 0 ∧ (fillPhase L d).fsm.inChCnt = false ∧
      (fillPhase L d).fsm.convDone = false ∧ (fillPhase L d).secondItem = false := by
  cases d with
  | zero => exact ⟨rfl, rfl, rfl, rfl⟩
  | succ e =>
      have position : MacArrayFsm.position e < 3136 := by
        unfold MacArrayFsm.position
        omega
      refine ⟨(outChCnt_fsmAt e).trans (by omega),
        (inChCnt_fsmAt e).trans (decide_eq_false (by omega)),
        (convDone_fsmAt e).trans (decide_eq_false (by omega)),
        (secondItem_fsmAt e).trans (decide_eq_false (by omega))⟩

theorem next_fillPhase (running : d < 3196) :
    (fillPhase L d).next false (Burst.arrives burstWords L 2 d) = fillPhase L (d + 1) := by
  have requests : ((Burst.during burstWords L 1 2 d).received < burstWords) =
      (1 ≤ d ∧ d < 162 + L) :=
    propext ((Burst.during_received (by decide)).trans (by unfold burstWords; omega))
  obtain ⟨outChCnt, inChCnt, convDone, noItem⟩ := fsm_fillPhase (L := L) running
  apply next_filling
  case mainStep =>
    apply MainFsm.step_eq
    case state =>
      show (if (fillPhase L d).fsm.convDone then _ else _) = _
      rw [convDone]
      rfl
    case outChCnt => exact outChCnt
    case weightStart =>
      refine iff_of_false (by simp) ?_
      rintro ⟨-, ⟨idle, -⟩ | ⟨setup, -⟩ | ⟨moved, -⟩⟩
      · cases idle
      · cases setup
      · exact moved outChCnt
    case imapStart => simp [MainFsm.reset]
    case convStart => simp
    case accDone => exact iff_of_false Bool.false_ne_true fun finished =>
        Bool.false_ne_true (convDone.symm.trans finished.2)
  case fsmStep =>
    cases d with
    | zero => exact MacArrayFsm.step_rested_start 0 (by omega) false rfl
    | succ e => exact step_fsmAt e
  case grantStep =>
    simp only [filling, rest, Control.requests, requests, Burst.rest_received,
      decide_false, IcbMaster.nextstate]
    grind
  case weightStep =>
    refine Burst.next_during (by decide) (by omega) (decide_eq_decide.mpr (by omega)) ?_ ?_
    · grind [burstWords]
    · grind [burstWords, Burst.arrives]
  case imapStep =>
    have granted : ((if 2 ≤ d ∧ d < 163 + L then Grant.weight else .none) == Grant.imap) =
        false := by
      grind
    rw [granted]
    exact Burst.next_rest _ _
  case other => grind
  case firstGroup => exact inChCnt
  case noItem => exact noItem

theorem fits_fillPhase : (fillPhase L d).Fits (Burst.arrives burstWords L 2 d) where
  flows := fun absurdity => Bool.noConfusion absurdity
  weight := by
    refine Burst.fits_during (by decide) (by omega) (decide_eq_decide.mpr (by omega)) ?_
    simp only [fillPhase, filling, receives]
    grind [Burst.arrives, burstWords]
  imap := by
    refine Burst.fits_rest ?_
    simp only [fillPhase, filling, receives]
    grind

theorem cmdValid_fillPhase :
    (fillPhase L d).cmdValid = decide (2 ≤ d ∧ d < 2 + burstWords) := by
  have issues : ((Burst.during burstWords L 1 2 d).issued < burstWords) = (1 ≤ d ∧ d < 162) :=
    propext ((Burst.during_issued (by decide)).trans (by unfold burstWords; omega))
  simp only [fillPhase, filling, cmdValid, issues]
  grind [burstWords]

/-! Then, for each channel in turn, its second group with the output of its map, and
after that the first group of the next channel with the fetch of the weights of the
channel after that. The phase of the last channel does not end. -/

/-- The words of a channel's map handed over, or answered, after `d - delay` cycles. -/
def mapDone (d delay : Nat) : Nat :=
  min (d - delay) 3136

def channelPhase (L n d : Nat) : Control where
  main := { MainFsm.reset with
    state := if n = 63 ∧ 3143 ≤ d then .idle else .conv
    outChCntD := if d ≤ 3136 then n else (n + 1) % 64
    weightStart := decide (d = 3137 ∧ n ≠ 62)
    accDone := decide (n = 63 ∧ d = 3143) }
  fsm := fsmAt (3195 + 6272 * n + d)
  grant :=
    if 2 ≤ d ∧ d < 3147 + L then .omap
    else if n ≠ 62 ∧ 3148 + L ≤ d ∧ d < 3309 + 2 * L then .weight
    else .none
  weight := if n = 62 then .rest burstWords else .during burstWords L 3138 (3148 + L) d
  imap := .rest mapWords
  omapCnt := (3136 * n + mapDone d 10) % 200704
  omapRcv := mapDone d (10 + L) % 3136
  omapReq := decide (1 ≤ d ∧ d < 3146 + L)
  psumVld := decide (7 ≤ d ∧ d < 3143)
  psumPipe := decide (8 ≤ d ∧ d < 3144)
  mergerPipe := decide (9 ≤ d ∧ d < 3145)
  omapPipe := decide (10 ≤ d ∧ d < 3146)

def channelRsp (L n d : Nat) : Bool :=
  decide (10 + L ≤ d ∧ d < 3146 + L) || (n != 62 && Burst.arrives burstWords L (3148 + L) d)

theorem channelPhase_zero (latency : L ≤ 1000) :
    fillPhase L 3196 = channelPhase L 0 0 := by
  have rested : Burst.during burstWords L 1 2 3196 = .rest burstWords :=
    Burst.during_late (by omega) (by unfold burstWords; omega)
  have early : Burst.during burstWords L 3138 (3148 + L) 0 = .rest burstWords :=
    Burst.during_early (by omega)
  unfold fillPhase channelPhase filling rest
  rw [rested, early]
  simp [MainFsm.reset, mapDone]
  omega

theorem channelPhase_succ (latency : L ≤ 1000) (more : n < 63) :
    channelPhase L n 6272 = channelPhase L (n + 1) 0 := by
  have early : Burst.during burstWords L 3138 (3148 + L) 0 = .rest burstWords :=
    Burst.during_early (by omega)
  have rested : Burst.during burstWords L 3138 (3148 + L) 6272 = .rest burstWords :=
    Burst.during_late (by omega) (by unfold burstWords; omega)
  unfold channelPhase
  rw [rested, early]
  simp [MainFsm.reset, mapDone]
  refine ⟨by omega, congrArg fsmAt (by omega), ?_, by omega, by omega, by omega⟩
  rw [if_neg (by omega), if_neg (by omega)]

theorem position_channelPhase (last : n ≤ 63) :
    MacArrayFsm.position (3195 + 6272 * n + d) = min (3136 + 6272 * n + d) 401408 := by
  unfold MacArrayFsm.position
  omega

theorem outChCnt_channelPhase (last : n ≤ 63) (inside : d ≤ 6272 ∨ n = 63) :
    (channelPhase L n d).fsm.outChCnt = if d < 3136 then n else (n + 1) % 64 := by
  refine (outChCnt_fsmAt _).trans ?_
  rw [position_channelPhase last]
  split_ifs <;> omega

theorem inChCnt_channelPhase (last : n ≤ 63) (inside : d < 6272 ∨ n = 63) :
    (channelPhase L n d).fsm.inChCnt = decide (d < 3136) := by
  refine (inChCnt_fsmAt _).trans (decide_eq_decide.mpr ?_)
  rw [position_channelPhase last]
  omega

theorem convDone_channelPhase (last : n ≤ 63) (inside : d < 6272 ∨ n = 63) :
    (channelPhase L n d).fsm.convDone = decide (n = 63 ∧ d = 3142) := by
  refine (convDone_fsmAt _).trans (decide_eq_decide.mpr ?_)
  omega

theorem secondItem_channelPhase (last : n ≤ 63) (inside : d < 6272 ∨ n = 63) :
    (channelPhase L n d).secondItem = decide (6 ≤ d ∧ d < 3142) := by
  refine (secondItem_fsmAt _).trans (decide_eq_decide.mpr ?_)
  omega

theorem receives_channelPhase : (channelPhase L n d).receives .omap (channelRsp L n d) =
    decide (10 + L ≤ d ∧ d < 3146 + L) := by
  simp only [receives, channelPhase, channelRsp, Burst.arrives]
  grind [burstWords]

theorem next_channelPhase (latency : L ≤ 1000) (last : n ≤ 63) (inside : d < 6272 ∨ n = 63) :
    (channelPhase L n d).next false (channelRsp L n d) = channelPhase L n (d + 1) := by
  have input : (channelPhase L n d).mainInput false = {
      accStart := false
      weightDone := (channelPhase L n d).weight.done
      imapDone := false
      convDone := decide (n = 63 ∧ d = 3142)
      outChCnt := if d < 3136 then n else (n + 1) % 64 } := by
    unfold mainInput
    rw [convDone_channelPhase last inside, outChCnt_channelPhase last (by omega)]
    rfl
  have answered := receives_channelPhase (L := L) (n := n) (d := d)
  apply Control.ext
  case main =>
    show MainFsm.step _ ((channelPhase L n d).mainInput false) = _
    rw [input]
    apply MainFsm.step_eq
    case state =>
      simp only [channelPhase, MainFsm.nextState]
      grind
    case outChCnt =>
      show (if d < 3136 then n else (n + 1) % 64) = if d + 1 ≤ 3136 then n else (n + 1) % 64
      split_ifs <;> omega
    all_goals
      simp only [channelPhase, MainFsm.reset]
      grind
  case fsm => exact step_fsmAt _
  case grant =>
    have requests : ((if n = 62 then Burst.rest burstWords
        else .during burstWords L 3138 (3148 + L) d).received < burstWords) =
        (n ≠ 62 ∧ 3138 ≤ d ∧ d < 3308 + 2 * L) := by
      split_ifs with skipped
      · simp [skipped]
      · refine propext ((Burst.during_received (by decide)).trans ?_)
        unfold burstWords
        omega
    show IcbMaster.nextstate _ (channelPhase L n d).requests = _
    simp only [channelPhase, Control.requests, requests, Burst.rest_received, decide_false,
      IcbMaster.nextstate]
    grind
  case weight =>
    show Burst.next burstWords (if n = 62 then Burst.rest burstWords
      else .during burstWords L 3138 (3148 + L) d) (decide (d = 3137 ∧ n ≠ 62)) _ _ =
      if n = 62 then _ else _
    split_ifs with skipped
    · have silent : (channelPhase L n d).receives .weight (channelRsp L n d) = false := by
        simp only [receives, channelPhase, channelRsp, Burst.arrives]
        grind
      rw [silent, decide_eq_false (by omega)]
      exact Burst.next_rest _ _
    · refine Burst.next_during (by decide) (by omega) (decide_eq_decide.mpr (by omega)) ?_ ?_
      · simp only [channelPhase]
        grind [burstWords]
      · simp only [receives, channelPhase, channelRsp, Burst.arrives]
        grind [burstWords]
  case imap =>
    have granted : ((channelPhase L n d).grant == .imap) = false := by
      simp only [channelPhase]
      grind
    show (Burst.rest mapWords).next mapWords false _ (_ && _) = _
    rw [granted]
    exact Burst.next_rest _ _
  case omapCnt =>
    show (if decide (10 ≤ d ∧ d < 3146) = true then
      Clocked.wrapCount 200703 20 ((3136 * n + mapDone d 10) % 200704)
      else (3136 * n + mapDone d 10) % 200704) = (3136 * n + mapDone (d + 1) 10) % 200704
    rw [Clocked.wrapCount_mod (by omega)]
    simp only [decide_eq_true_eq, mapDone]
    split_ifs <;> omega
  case omapRcv =>
    simp only [next, answered, decide_eq_true_eq]
    show (if mapDone d (10 + L) % 3136 = 3135 ∧ (10 + L ≤ d ∧ d < 3146 + L) then 0
      else if 10 + L ≤ d ∧ d < 3146 + L then (mapDone d (10 + L) % 3136 + 1) % 2 ^ 12
      else mapDone d (10 + L) % 3136) = mapDone (d + 1) (10 + L) % 3136
    unfold mapDone
    split_ifs <;> omega
  case omapReq =>
    simp only [next, answered, decide_eq_true_eq, inChCnt_channelPhase last inside]
    simp only [channelPhase, mapDone]
    grind
  case psumVld =>
    exact (secondItem_channelPhase last inside).trans (decide_eq_decide.mpr (by omega))
  case psumPipe => exact decide_eq_decide.mpr (by omega)
  case mergerPipe => exact decide_eq_decide.mpr (by omega)
  case omapPipe => exact decide_eq_decide.mpr (by omega)

theorem fits_channelPhase :
    (channelPhase L n d).Fits (channelRsp L n d) where
  flows := by
    simp only [channelPhase]
    grind
  weight := by
    show (if n = 62 then Burst.rest burstWords
      else .during burstWords L 3138 (3148 + L) d).Fits burstWords
        (decide (d = 3137 ∧ n ≠ 62)) _
    split_ifs with skipped
    · refine Burst.fits_rest ?_
      simp only [receives, channelPhase, channelRsp, Burst.arrives]
      grind
    · refine Burst.fits_during (by decide) (by omega) (decide_eq_decide.mpr (by omega)) ?_
      simp only [receives, channelPhase, channelRsp, Burst.arrives]
      grind [burstWords]
  imap := by
    refine Burst.fits_rest ?_
    simp only [receives, channelPhase]
    grind

theorem cmdValid_channelPhase :
    (channelPhase L n d).cmdValid =
      decide (10 ≤ d ∧ d < 3146 ∨ n ≠ 62 ∧ 3148 + L ≤ d ∧ d < 3148 + L + burstWords) := by
  have issues : ((if n = 62 then Burst.rest burstWords
      else .during burstWords L 3138 (3148 + L) d).issued < burstWords) =
      (n ≠ 62 ∧ 3138 ≤ d ∧ d < 3308 + L) := by
    split_ifs with skipped
    · simp [skipped]
    · refine propext ((Burst.during_issued (by decide)).trans ?_)
      unfold burstWords
      omega
  simp only [channelPhase, cmdValid, issues]
  grind [burstWords]

end Control

end RepVGGAcc
