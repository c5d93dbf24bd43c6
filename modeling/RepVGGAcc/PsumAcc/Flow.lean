import RepVGGAcc.Clocked.Channel
import RepVGGAcc.Rtl.PsumAcc

/-! The items that go through `psum_acc`. An item of a second group spends one cycle on
the read of the partial sum before it is offered to the output stage; whether that stage
still takes it then decides whether it is lost. -/

namespace RepVGGAcc

open Clocked

namespace SirvGnrlPipeStage

def contents (s : State α) : List α :=
  if s.vldR then [s.datR] else []

theorem contents_step (s : State α) (iVld : Bool) (iDat : α) (oRdy : Bool) :
    (if s.vldR && oRdy then [s.datR] else []) ++ contents (step s iVld iDat oRdy) =
      contents s ++ if iVld && iRdy s oRdy then [iDat] else [] := by
  cases vld : s.vldR <;> cases iVld <;> cases oRdy <;>
    simp [contents, step, vldSet, vldClr, iRdy, vld]

end SirvGnrlPipeStage

namespace PsumAcc

/-! The partial sums: an item of a first group stays in its entry until the item of the
next channel with the same offset is accepted. -/

/-- `memR` holds what has been stored of the first `n` items. -/
def Stored (data : Nat → BitVec 64) (n : Nat) (memR : Nat → BitVec 64) : Prop :=
  ∀ m < n, m / 3136 % 2 = 0 → n ≤ m + 6272 → memR (m % 3136) = data m

namespace Stored

variable {data : Nat → BitVec 64} {n : Nat} {sram : SirvSimRam.State} {i : SirvSimRam.Input}

theorem zero (data memR : Nat → BitVec 64) : Stored data 0 memR :=
  fun m absurdity => absurd absurdity (Nat.not_lt_zero m)

theorem step_accept (stored : Stored data n sram.memR) (mask : i.wem = 0xff)
    (cs : i.cs = true) (we : i.we = !decide (n / 3136 % 2 = 1)) (addr : i.addr = n % 3136)
    (din : i.din = data n) : Stored data (n + 1) (SirvSimRam.step sram i).memR := by
  intro m before first recent
  rw [SirvSimRam.step_memR_fullMask _ _ mask, cs, we, addr]
  by_cases now : m = n
  · subst now
    rw [if_pos ⟨rfl, by simp [first], rfl⟩, din]
  · rw [if_neg ?_]
    · exact stored m (by omega) first (by omega)
    · rintro ⟨-, written, same⟩
      have group : n / 3136 % 2 ≠ 1 := by simpa using written
      omega

theorem step_idle (stored : Stored data n sram.memR) (mask : i.wem = 0xff)
    (cs : i.cs = false) : Stored data n (SirvSimRam.step sram i).memR := by
  intro m before first recent
  rw [SirvSimRam.step_memR_fullMask _ _ mask, cs, if_neg (by simp)]
  exact stored m before first recent

end Stored

theorem psumAccDataOut_step {s : State} {i : Input} (taken : ldEn s i = true) :
    psumAccDataOut (step s i) =
      accumulate i.macArray2psumAccInfo.outChHigh i.macArray2psumAccData
        ((step s i).psumSramBuf.memR i.macArray2psumAccInfo.offset) := by
  obtain ⟨cs, group⟩ := (Bool.and_eq_true _ _).mp taken
  have dataD : (step s i).dataD = i.macArray2psumAccData := by
    show sirvGnrlDfflr (ldEn s i) _ _ = _
    rw [taken, sirvGnrlDfflr_true]
  have identitySelD : (step s i).identitySelD = i.macArray2psumAccInfo.outChHigh := by
    show sirvGnrlDfflr (ldEn s i) _ _ = _
    rw [taken, sirvGnrlDfflr_true]
  have addrR : (step s i).psumSramBuf.addrR = i.macArray2psumAccInfo.offset := by
    show (if hdshkIn s i && !(!i.macArray2psumAccInfo.inChGroup) then _ else _) = _
    rw [cs, group]
    rfl
  unfold psumAccDataOut SirvSimRam.dout
  rw [dataD, identitySelD, addrR]

theorem psumAccVldOut_step (s : State) (i : Input) :
    (step s i).psumAccVldOut = ldEn s i := by
  show (if i.macArray2psumAccInfo.inChGroup then hdshkIn s i else false) = _
  unfold ldEn
  cases i.macArray2psumAccInfo.inChGroup <;> simp

/-! The unit on a stream of items. -/

def accepted (s : Nat → State) (i : Nat → Input) (t : Nat) : Nat :=
  Nat.count (fun u => hdshkIn (s u) (i u) = true) t

/-- The tag of item `n`: 3136 items of the first group, then 3136 of the second, for one
output channel after the other. -/
def tag (outChHigh : Nat → Bool) (n : Nat) : MacArrayFsm.Info where
  outChHigh := outChHigh n
  inChGroup := decide (n / 3136 % 2 = 1)
  offset := n % 3136

/-- From reset on the unit is offered the items one after the other, each until it is
accepted. -/
structure Feeds (outChHigh : Nat → Bool) (data : Nat → BitVec 64) (s : Nat → State)
    (i : Nat → Input) : Prop where
  trace : IsTrace step s i
  initial : IsReset (s 0)
  offered : ∀ t, (i t).macArray2psumAccVld = true →
    (i t).macArray2psumAccInfo = tag outChHigh (accepted s i t) ∧
      (i t).macArray2psumAccData = data (accepted s i t)

/-- What is due for an item of a second group accepted in cycle `t`. -/
def summed (outChHigh : Nat → Bool) (data : Nat → BitVec 64) (s : Nat → State)
    (i : Nat → Input) (t : Nat) : Option (BitVec 64) :=
  if ldEn (s t) (i t) then
    let n := accepted s i t
    some (accumulate (outChHigh n) (data n) (data (n - 3136)))
  else none

def handedOver (s : State) (i : Input) : Option (BitVec 64) :=
  if psumAcc2mapMergerVld s && i.psumAcc2mapMergerRdy then some (psumAcc2mapMergerData s)
  else none

/-- The sum that waits to enter the output stage. -/
def waiting (s : State) : List (BitVec 64) :=
  if s.psumAccVldOut then [psumAccDataOut s] else []

def inside (s : State) : List (BitVec 64) :=
  SirvGnrlPipeStage.contents s.pipe ++ waiting s

/-- At all times the items handed over, with those still inside, are the sums that are
due, one for each item of a second group and in their order. -/
def LosesNothing (outChHigh : Nat → Bool) (data : Nat → BitVec 64) (s : Nat → State)
    (i : Nat → Input) : Prop :=
  ∀ n, events (fun t => handedOver (s t) (i t)) n ++ inside (s n) =
    events (summed outChHigh data s i) n

section Runs

variable {outChHigh : Nat → Bool} {data : Nat → BitVec 64} {s : Nat → State} {i : Nat → Input}

theorem accepted_succ (s : Nat → State) (i : Nat → Input) (t : Nat) :
    accepted s i (t + 1) = accepted s i t + (hdshkIn (s t) (i t)).toNat := by
  unfold accepted
  rw [Nat.count_succ]
  cases hdshkIn (s t) (i t) <;> rfl

namespace Feeds

theorem vld_of_hdshkIn {s : State} {i : Input} (taken : hdshkIn s i = true) :
    i.macArray2psumAccVld = true :=
  ((Bool.and_eq_true _ _).mp taken).1

theorem stored (feeds : Feeds outChHigh data s i) (t : Nat) :
    Stored data (accepted s i t) (s t).psumSramBuf.memR := by
  induction t with
  | zero =>
      have none : accepted s i 0 = 0 := Nat.count_zero _
      rw [none]
      exact Stored.zero _ _
  | succ t held =>
      rw [feeds.trace t, accepted_succ]
      show Stored data _ (SirvSimRam.step (s t).psumSramBuf (sramInput (s t) (i t))).memR
      cases taken : hdshkIn (s t) (i t) with
      | false => exact held.step_idle rfl taken
      | true =>
          obtain ⟨info, item⟩ := feeds.offered t (vld_of_hdshkIn taken)
          refine held.step_accept rfl taken ?_ ?_ item
          · show (!(i t).macArray2psumAccInfo.inChGroup) = _
            rw [info]
            rfl
          · show (i t).macArray2psumAccInfo.offset = _
            rw [info]
            rfl

theorem waiting_succ (feeds : Feeds outChHigh data s i) (t : Nat) :
    waiting (s (t + 1)) = (summed outChHigh data s i t).toList := by
  have stored := feeds.stored (t + 1)
  rw [accepted_succ, feeds.trace t] at stored
  rw [feeds.trace t]
  unfold waiting summed
  rw [psumAccVldOut_step]
  cases taken : ldEn (s t) (i t) with
  | false => rfl
  | true =>
      obtain ⟨hdshk, group⟩ := (Bool.and_eq_true _ _).mp taken
      obtain ⟨info, item⟩ := feeds.offered t (vld_of_hdshkIn hdshk)
      rw [info] at group
      have second : accepted s i t / 3136 % 2 = 1 := of_decide_eq_true group
      rw [hdshk, Bool.toNat_true] at stored
      have first := stored (accepted s i t - 3136) (by omega) (by omega) (by omega)
      rw [show (accepted s i t - 3136) % 3136 = accepted s i t % 3136 by omega] at first
      have offset : (i t).macArray2psumAccInfo.offset = accepted s i t % 3136 := by
        rw [info]
        rfl
      simp only [if_true]
      rw [psumAccDataOut_step taken, offset, first, info, item]
      rfl

/-- A cycle conserves the items exactly when the output stage takes the waiting one. -/
theorem conserves_iff (feeds : Feeds outChHigh data s i) (t : Nat) :
    Conserves (summed outChHigh data s i) (fun t => handedOver (s t) (i t))
        (fun t => inside (s t)) t ↔
      ((s t).psumAccVldOut = true → psumAccRdyOut (s t) (i t).psumAcc2mapMergerRdy = true) := by
  have stage := SirvGnrlPipeStage.contents_step (s t).pipe (s t).psumAccVldOut
    (psumAccDataOut (s t)) (i t).psumAcc2mapMergerRdy
  have handed : (handedOver (s t) (i t)).toList =
      if (s t).pipe.vldR && (i t).psumAcc2mapMergerRdy then [(s t).pipe.datR] else [] := by
    unfold handedOver psumAcc2mapMergerVld psumAcc2mapMergerData
    split_ifs <;> rfl
  have pipe : (s (t + 1)).pipe = SirvGnrlPipeStage.step (s t).pipe (s t).psumAccVldOut
      (psumAccDataOut (s t)) (i t).psumAcc2mapMergerRdy := by
    rw [feeds.trace t]
    rfl
  unfold Conserves inside
  beta_reduce
  rw [handed, feeds.waiting_succ, pipe, ← List.append_assoc, stage, List.append_left_inj,
    List.append_right_inj]
  unfold waiting psumAccRdyOut
  cases (s t).psumAccVldOut <;>
    cases SirvGnrlPipeStage.iRdy (s t).pipe (i t).psumAcc2mapMergerRdy <;> simp

end Feeds

/-- Nothing is lost exactly when the output stage is ready, in every cycle in which a sum
waits for it. -/
theorem losesNothing_iff (feeds : Feeds outChHigh data s i) :
    LosesNothing outChHigh data s i ↔
      ∀ t, (s t).psumAccVldOut = true →
        psumAccRdyOut (s t) (i t).psumAcc2mapMergerRdy = true := by
  have empty : inside (s 0) = [] := by
    unfold inside waiting SirvGnrlPipeStage.contents
    rw [feeds.initial.psumAccVldOut, feeds.initial.vldR]
    rfl
  exact (conserved_iff empty).trans (forall_congr' feeds.conserves_iff)

end Runs

/-! The first two items of a second group, offered without a gap to a unit whose receiver
is not ready in cycle `hold`. -/

def twoItems (hold : Nat) (t : Nat) : Input where
  macArray2psumAccInfo := tag (fun _ => false) t
  macArray2psumAccData := 1
  macArray2psumAccVld := decide (t ≤ 3137)
  psumAcc2mapMergerRdy := decide (t ≠ hold)

def blank : State where
  psumAccVldOut := false
  dataD := 0
  identitySelD := false
  psumSramBuf := { memR := fun _ => 0, addrR := 0 }
  pipe := { vldR := false, datR := 0 }

section TwoItems

variable {hold : Nat}

theorem hdshkIn_twoItems (late : 3138 ≤ hold) {t : Nat} (offered : t ≤ 3137) :
    hdshkIn (run step blank (twoItems hold) t) (twoItems hold t) = true := by
  have ready : (twoItems hold t).psumAcc2mapMergerRdy = true := decide_eq_true (by omega)
  have valid : (twoItems hold t).macArray2psumAccVld = true := decide_eq_true offered
  unfold hdshkIn macArray2psumAccRdy psumAccRdyOut
  rw [valid, ready, SirvGnrlPipeStage.iRdy_ready, ite_self]
  rfl

theorem accepted_twoItems (late : 3138 ≤ hold) {t : Nat} (offered : t ≤ 3138) :
    accepted (run step blank (twoItems hold)) (twoItems hold) t = t := by
  induction t with
  | zero => exact Nat.count_zero _
  | succ t before =>
      rw [accepted_succ, before (by omega), hdshkIn_twoItems late (by omega)]
      rfl

theorem feeds_twoItems (late : 3138 ≤ hold) :
    Feeds (fun _ => false) (fun _ => 1) (run step blank (twoItems hold)) (twoItems hold) where
  trace := isTrace_run _ _ _
  initial := ⟨rfl, rfl, rfl, rfl⟩
  offered := fun t valid => by
    have inTime : t ≤ 3137 := of_decide_eq_true valid
    rw [accepted_twoItems late (by omega)]
    exact ⟨rfl, rfl⟩

theorem psumAccVldOut_twoItems (late : 3138 ≤ hold) {t : Nat} (second : 3136 ≤ t)
    (offered : t ≤ 3137) : (run step blank (twoItems hold) (t + 1)).psumAccVldOut = true := by
  have group : (twoItems hold t).macArray2psumAccInfo.inChGroup = true :=
    decide_eq_true (by omega)
  show (step (run step blank (twoItems hold) t) (twoItems hold t)).psumAccVldOut = true
  rw [psumAccVldOut_step, ldEn, hdshkIn_twoItems late offered, group]
  rfl

end TwoItems

theorem losesNothing_iff_twoItems :
    LosesNothing (fun _ => false) (fun _ => 1) (run step blank (twoItems 3140)) (twoItems 3140) ↔
      ∀ t, (run step blank (twoItems 3140) t).psumAccVldOut = true →
        psumAccRdyOut (run step blank (twoItems 3140) t)
          (twoItems 3140 t).psumAcc2mapMergerRdy = true :=
  losesNothing_iff (feeds_twoItems (by decide))

/-- A receiver that pauses for one cycle loses the second of two items in a row. -/
theorem losesNothing_fails :
    ¬ ∀ (outChHigh : Nat → Bool) (data : Nat → BitVec 64) (s : Nat → State)
      (i : Nat → Input), Feeds outChHigh data s i → LosesNothing outChHigh data s i := by
  intro always
  have feeds := @feeds_twoItems 3138 le_rfl
  have ready := (losesNothing_iff feeds).mp (always _ _ _ _ feeds) 3138
    (psumAccVldOut_twoItems le_rfl (by decide) le_rfl)
  have full : (run step blank (twoItems 3138) 3138).pipe.vldR = true := by
    have first : (run step blank (twoItems 3138) 3137).psumAccVldOut = true :=
      psumAccVldOut_twoItems le_rfl le_rfl (by decide)
    refine (SirvGnrlPipeStage.step_flowing (run step blank (twoItems 3138) 3137).pipe
      (run step blank (twoItems 3138) 3137).psumAccVldOut _
      (twoItems 3138 3137).psumAcc2mapMergerRdy fun _ => rfl).1.trans first
  have blocked : (twoItems 3138 3138).psumAcc2mapMergerRdy = false := rfl
  rw [psumAccRdyOut, blocked, SirvGnrlPipeStage.iRdy, SirvGnrlPipeStage.vldClr, full] at ready
  cases ready

end PsumAcc

end RepVGGAcc
