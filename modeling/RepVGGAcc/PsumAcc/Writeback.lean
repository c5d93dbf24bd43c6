import RepVGGAcc.Clocked.Progress
import RepVGGAcc.Clocked.Signed
import RepVGGAcc.PsumAcc.Flow
import RepVGGAcc.Rtl.RepvggAccTop

/-! The way of the output words from `psum_acc` to the arbiter: `map_merger` and
`omap_biu`, in any surroundings. -/

namespace RepVGGAcc

open Clocked

namespace SirvGnrlPipeStage

theorem step_held {s : State α} {oRdy : Bool} (full : s.vldR = true) (blocked : oRdy = false)
    (iVld : Bool) (iDat : α) : step s iVld iDat oRdy = s := by
  obtain ⟨vldR, datR⟩ := s
  subst full blocked
  cases iVld <;> rfl

theorem step_empty {s : State α} (empty : s.vldR = false) (iVld : Bool) (iDat : α)
    (oRdy : Bool) : (step s iVld iDat oRdy).vldR = iVld := by
  cases iVld <;> cases oRdy <;> simp [step, vldSet, vldClr, iRdy, empty]

end SirvGnrlPipeStage

namespace Writeback

structure State where
  mapMerger : MapMerger.State
  omapBiu : OmapBiu.State

structure Input where
  psumAcc2mapMergerData : BitVec 64
  psumAcc2mapMergerVld : Bool
  omapBaseAddr : BitVec 32
  inChCnt : Bool
  omapBiu2arbRdy : Bool
  arb2omapBiuVld : Bool

structure IsReset (s : State) : Prop where
  mapMerger : MapMerger.IsReset s.mapMerger
  omapBiu : OmapBiu.IsReset s.omapBiu

def mapMerger2omapBiuRdy (s : State) (i : Input) : Bool :=
  OmapBiu.mapMerger2omapBiuRdy s.omapBiu i.omapBiu2arbRdy

def psumAcc2mapMergerRdy (s : State) (i : Input) : Bool :=
  MapMerger.psumAcc2mapMergerRdy s.mapMerger (mapMerger2omapBiuRdy s i)

def mergerInput (s : State) (i : Input) : MapMerger.Input where
  psumAcc2mapMergerData := i.psumAcc2mapMergerData
  psumAcc2mapMergerVld := i.psumAcc2mapMergerVld
  mapMerger2omapBiuRdy := mapMerger2omapBiuRdy s i

def omapInput (s : State) (i : Input) : OmapBiu.Input where
  omapBaseAddr := i.omapBaseAddr
  inChCnt := i.inChCnt
  omapBiu2arbRdy := i.omapBiu2arbRdy
  arb2omapBiuVld := i.arb2omapBiuVld
  mapMerger2omapBiuData := MapMerger.mapMerger2omapBiuData s.mapMerger
  mapMerger2omapBiuVld := MapMerger.mapMerger2omapBiuVld s.mapMerger

def step (s : State) (i : Input) : State where
  mapMerger := MapMerger.step s.mapMerger (mergerInput s i)
  omapBiu := OmapBiu.step s.omapBiu (omapInput s i)

/-! The accelerator contains this circuit. -/

def ofTop (s : RepvggAccTop.State) : State where
  mapMerger := s.mapMerger
  omapBiu := s.bus.omapBiu

def topInput (s : RepvggAccTop.State) (i : RepvggAccTop.Input) : Input where
  psumAcc2mapMergerData := PsumAcc.psumAcc2mapMergerData s.psumAcc
  psumAcc2mapMergerVld := PsumAcc.psumAcc2mapMergerVld s.psumAcc
  omapBaseAddr := s.icbSlave.outAddr
  inChCnt := s.macArray.macArrayFsm.inChCnt
  omapBiu2arbRdy := IcbMaster.rdy s.bus.icbMaster .omap
  arb2omapBiuVld := IcbMaster.rspVld s.bus.icbMaster .omap i.accIcbRspValid

theorem isTrace_ofTop {s : Nat → RepvggAccTop.State} {i : Nat → RepvggAccTop.Input}
    (trace : IsTrace RepvggAccTop.step s i) :
    IsTrace step (fun t => ofTop (s t)) (fun t => topInput (s t) (i t)) :=
  trace.component ofTop topInput fun _ _ => rfl

/-! What is seen at the two ends. -/

/-- The image of an item. The sum of its three fields is formed in 32 bits; it, cut off at 0,
and the two sums are divided by powers of two, and the lowest bytes of the quotients kept. -/
def quantized (item : BitVec 64) : BitVec 32 :=
  let psum3x3 := (item.extractLsb' 0 32).toInt
  let psum1x1 := (item.extractLsb' 32 24).toInt
  let identity := (item.extractLsb' 56 8).toInt
  let merged := (psum3x3 + psum1x1 + identity).bmod (2 ^ 32)
  0#8 ++ BitVec.ofInt 8 (max merged 0 / 2 ^ 17) ++ BitVec.ofInt 8 (psum3x3 / 2 ^ 17) ++
    BitVec.ofInt 8 (psum1x1 / 2 ^ 14)

def accepted (s : State) (i : Input) : Option (BitVec 32) :=
  if i.psumAcc2mapMergerVld && psumAcc2mapMergerRdy s i then
    some (quantized i.psumAcc2mapMergerData)
  else none

def omapBiu2arbVld (s : State) : Bool :=
  OmapBiu.omapBiu2arbVld s.omapBiu

def omapBiu2arbData (s : State) : BitVec 32 :=
  OmapBiu.omapBiu2arbData s.omapBiu

def omapBiu2arbAddr (s : State) (i : Input) : BitVec 32 :=
  OmapBiu.omapBiu2arbAddr s.omapBiu i.omapBaseAddr

def delivered (s : State) (i : Input) : Option (BitVec 32) :=
  if omapBiu2arbVld s && i.omapBiu2arbRdy then some (omapBiu2arbData s) else none

/-- The word that moves on from `map_merger` to `omap_biu`. -/
def moved (s : State) (i : Input) : Option (BitVec 32) :=
  if s.mapMerger.pipe.vldR && mapMerger2omapBiuRdy s i then some s.mapMerger.pipe.datR else none

def acceptedBefore (s : Nat → State) (i : Nat → Input) (t : Nat) : List (BitVec 32) :=
  events (fun t => accepted (s t) (i t)) t

def deliveredBefore (s : Nat → State) (i : Nat → Input) (t : Nat) : List (BitVec 32) :=
  events (fun t => delivered (s t) (i t)) t

def inside (s : State) : List (BitVec 32) :=
  SirvGnrlPipeStage.contents s.omapBiu.pipe ++ SirvGnrlPipeStage.contents s.mapMerger.pipe

/-- The output path with its base address held. -/
structure Delivers (base : BitVec 32) (s : Nat → State) (i : Nat → Input) : Prop where
  /-- Nothing is lost, doubled or reordered: what has been delivered and what is on
  the way is what has been accepted. -/
  conserved : ∀ t, deliveredBefore s i t ++ inside (s t) = acceptedBefore s i t
  /-- The word offered after `k` others goes to word `k mod 200704` of the output map. -/
  addressed : ∀ t, omapBiu2arbAddr (s t) (i t) =
    base + 4 * BitVec.ofNat 32 ((deliveredBefore s i t).length % 200704)
  /-- A word that is not taken stays offered, at the same address. -/
  stable : ∀ t, omapBiu2arbVld (s t) = true → (i t).omapBiu2arbRdy = false →
    omapBiu2arbVld (s (t + 1)) = true ∧ omapBiu2arbData (s (t + 1)) = omapBiu2arbData (s t) ∧
      omapBiu2arbAddr (s (t + 1)) (i (t + 1)) = omapBiu2arbAddr (s t) (i t)
  /-- An arbiter that is ready again and again gets every accepted word. -/
  arrives : (∀ t, ∃ u, t ≤ u ∧ (i u).omapBiu2arbRdy = true) →
    ∀ t, ∃ u, t ≤ u ∧ acceptedBefore s i t <+: deliveredBefore s i u

section Runs

variable {s : Nat → State} {i : Nat → Input}

theorem toList_delivered (s : State) (i : Input) :
    (delivered s i).toList =
      if s.omapBiu.pipe.vldR && i.omapBiu2arbRdy then [s.omapBiu.pipe.datR] else [] := by
  unfold delivered omapBiu2arbVld omapBiu2arbData OmapBiu.omapBiu2arbVld OmapBiu.omapBiu2arbData
  split <;> rfl

theorem toList_moved (s : State) (i : Input) :
    (moved s i).toList =
      if s.mapMerger.pipe.vldR && mapMerger2omapBiuRdy s i then [s.mapMerger.pipe.datR]
      else [] := by
  unfold moved
  split <;> rfl

theorem mapMergerDataOut_eq (item : BitVec 64) :
    MapMerger.mapMergerDataOut item = quantized item := by
  let total := (item.extractLsb' 0 32).toInt + (item.extractLsb' 32 24).toInt +
    (item.extractLsb' 56 8).toInt
  have bounds : -2 ^ 31 ≤ total.bmod (2 ^ 32) ∧ total.bmod (2 ^ 32) < 2 ^ 31 :=
    ⟨Int.le_bmod (by decide), Int.bmod_lt (by decide)⟩
  have merged : MapMerger.mergeResult item = BitVec.ofInt 32 (total.bmod (2 ^ 32)) := by
    have sum : MapMerger.mergeResult item = BitVec.ofInt 32 total := by
      unfold MapMerger.mergeResult MapMerger.identity MapMerger.map3x3 MapMerger.map1x1
      rw [signExtend_eq_ofInt, signExtend_eq_ofInt,
        ← BitVec.ofInt_toInt (x := item.extractLsb' 0 32), ← BitVec.ofInt_add,
        ← BitVec.ofInt_add]
      exact congrArg (BitVec.ofInt 32) (by unfold total; omega)
    rw [sum, ← BitVec.toInt_ofInt, BitVec.ofInt_toInt]
  have act : MapMerger.actMerge item = BitVec.ofInt 32 (max (total.bmod (2 ^ 32)) 0) := by
    unfold MapMerger.actMerge
    rw [merged]
    exact ite_msb_ofInt bounds.1 bounds.2
  have value : (MapMerger.actMerge item).toInt = max (total.bmod (2 ^ 32)) 0 := by
    rw [act]
    exact BitVec.toInt_ofInt_eq_self (by decide) (by omega) (by omega)
  unfold MapMerger.mapMergerDataOut MapMerger.quanMerge MapMerger.quan3x3 MapMerger.quan1x1
  rw [extractLsb'_eq_ofInt _ (by decide), extractLsb'_eq_ofInt _ (by decide),
    extractLsb'_eq_ofInt _ (by decide), value]
  rfl

theorem toList_accepted (s : State) (i : Input) :
    (accepted s i).toList =
      if i.psumAcc2mapMergerVld && psumAcc2mapMergerRdy s i then
        [MapMerger.mapMergerDataOut i.psumAcc2mapMergerData]
      else [] := by
  unfold accepted
  rw [mapMergerDataOut_eq]
  split <;> rfl

/-- `map_merger` lets in what it accepts: its valid is gated with its own ready. -/
theorem mapMerger_conserves (trace : IsTrace step s i) (t : Nat) :
    Conserves (fun t => accepted (s t) (i t)) (fun t => moved (s t) (i t))
      (fun t => SirvGnrlPipeStage.contents (s t).mapMerger.pipe) t := by
  have stage := SirvGnrlPipeStage.contents_step (s t).mapMerger.pipe
    (MapMerger.mapMergerVldOut (s t).mapMerger (mergerInput (s t) (i t)))
    (MapMerger.mapMergerDataOut (i t).psumAcc2mapMergerData) (mapMerger2omapBiuRdy (s t) (i t))
  have gated : (MapMerger.mapMergerVldOut (s t).mapMerger (mergerInput (s t) (i t)) &&
      SirvGnrlPipeStage.iRdy (s t).mapMerger.pipe (mapMerger2omapBiuRdy (s t) (i t))) =
      ((i t).psumAcc2mapMergerVld && psumAcc2mapMergerRdy (s t) (i t)) := by
    show ((_ && psumAcc2mapMergerRdy (s t) (i t)) && psumAcc2mapMergerRdy (s t) (i t)) = _
    rw [Bool.and_assoc, Bool.and_self]
    rfl
  show (moved (s t) (i t)).toList ++ SirvGnrlPipeStage.contents (s (t + 1)).mapMerger.pipe =
    _ ++ (accepted (s t) (i t)).toList
  rw [toList_moved, toList_accepted, trace t, ← gated]
  exact stage

theorem omapBiu_conserves (trace : IsTrace step s i) (t : Nat) :
    Conserves (fun t => moved (s t) (i t)) (fun t => delivered (s t) (i t))
      (fun t => SirvGnrlPipeStage.contents (s t).omapBiu.pipe) t := by
  have stage := SirvGnrlPipeStage.contents_step (s t).omapBiu.pipe
    (OmapBiu.hdshkIn (s t).omapBiu (omapInput (s t) (i t))) (s t).mapMerger.pipe.datR
    (i t).omapBiu2arbRdy
  have gated : (OmapBiu.hdshkIn (s t).omapBiu (omapInput (s t) (i t)) &&
      SirvGnrlPipeStage.iRdy (s t).omapBiu.pipe (i t).omapBiu2arbRdy) =
      ((s t).mapMerger.pipe.vldR && mapMerger2omapBiuRdy (s t) (i t)) := by
    show ((mapMerger2omapBiuRdy (s t) (i t) && _) && mapMerger2omapBiuRdy (s t) (i t)) = _
    rw [Bool.and_right_comm, Bool.and_self, Bool.and_comm]
    rfl
  show (delivered (s t) (i t)).toList ++ SirvGnrlPipeStage.contents (s (t + 1)).omapBiu.pipe =
    _ ++ (moved (s t) (i t)).toList
  rw [toList_delivered, toList_moved, trace t, ← gated]
  exact stage

theorem conserved (trace : IsTrace step s i) (initial : IsReset (s 0)) (t : Nat) :
    deliveredBefore s i t ++ inside (s t) = acceptedBefore s i t := by
  have empty : inside (s 0) = [] := by
    have merger : (s 0).mapMerger.pipe.vldR = false := initial.mapMerger
    unfold inside SirvGnrlPipeStage.contents
    rw [merger, initial.omapBiu.vldR]
    rfl
  exact (conserved_iff empty).mpr
    (fun t => (mapMerger_conserves trace t).trans (omapBiu_conserves trace t)) t

/-! The address counter. -/

theorem length_deliveredBefore_succ (s : Nat → State) (i : Nat → Input) (t : Nat) :
    (deliveredBefore s i (t + 1)).length = (deliveredBefore s i t).length +
      (omapBiu2arbVld (s t) && (i t).omapBiu2arbRdy).toNat := by
  unfold deliveredBefore delivered
  rw [events_succ, List.length_append]
  cases omapBiu2arbVld (s t) && (i t).omapBiu2arbRdy <;> rfl

theorem omapBiu2arbCnt_eq (trace : IsTrace step s i) (initial : IsReset (s 0)) (t : Nat) :
    (s t).omapBiu.omapBiu2arbCnt = (deliveredBefore s i t).length % 200704 := by
  induction t with
  | zero => exact initial.omapBiu.omapBiu2arbCnt
  | succ t held =>
      rw [length_deliveredBefore_succ, trace t]
      show (if omapBiu2arbVld (s t) && (i t).omapBiu2arbRdy then
        wrapCount 200703 20 (s t).omapBiu.omapBiu2arbCnt else (s t).omapBiu.omapBiu2arbCnt) = _
      rw [held]
      cases omapBiu2arbVld (s t) && (i t).omapBiu2arbRdy with
      | true => exact wrapCount_mod (by decide) _
      | false => rfl

theorem shiftLeft_two (x : BitVec 32) : x <<< 2 = 4 * x := by
  rw [BitVec.shiftLeft_eq_mul_twoPow, BitVec.mul_comm]
  rfl

theorem addressed (trace : IsTrace step s i) (initial : IsReset (s 0)) (t : Nat) :
    omapBiu2arbAddr (s t) (i t) = (i t).omapBaseAddr +
      4 * BitVec.ofNat 32 ((deliveredBefore s i t).length % 200704) := by
  unfold omapBiu2arbAddr OmapBiu.omapBiu2arbAddr
  rw [omapBiu2arbCnt_eq trace initial, shiftLeft_two]

theorem stable (trace : IsTrace step s i) {t : Nat} (valid : omapBiu2arbVld (s t) = true)
    (blocked : (i t).omapBiu2arbRdy = false) :
    (s (t + 1)).omapBiu.pipe = (s t).omapBiu.pipe := by
  rw [trace t]
  exact SirvGnrlPipeStage.step_held valid blocked _ _

/-! Every accepted word arrives. -/

/-- Two for each word of `goal` still to be delivered, one less when the next one is
already offered. -/
def distance (goal : Nat) (s : Nat → State) (i : Nat → Input) (t : Nat) : Nat :=
  2 * (goal - (deliveredBefore s i t).length) - (omapBiu2arbVld (s t)).toNat

theorem offered_next (trace : IsTrace step s i) {t : Nat} (some_ : inside (s t) ≠ [])
    (none_ : omapBiu2arbVld (s t) = false) : omapBiu2arbVld (s (t + 1)) = true := by
  have empty : (s t).omapBiu.pipe.vldR = false := none_
  have full : (s t).mapMerger.pipe.vldR = true := by
    by_contra unset
    refine some_ ?_
    unfold inside SirvGnrlPipeStage.contents
    rw [empty, Bool.eq_false_of_not_eq_true unset]
    rfl
  rw [trace t]
  refine (SirvGnrlPipeStage.step_empty empty _ _ _).trans ?_
  show (mapMerger2omapBiuRdy (s t) (i t) && (s t).mapMerger.pipe.vldR) = true
  rw [full, Bool.and_true]
  exact SirvGnrlPipeStage.iRdy_of_empty _ _ empty

theorem distance_falls (trace : IsTrace step s i) {goal t : Nat} (some_ : inside (s t) ≠ [])
    (short : (deliveredBefore s i t).length < goal) :
    distance goal s i (t + 1) ≤ distance goal s i t ∧
      ((i t).omapBiu2arbRdy = true → distance goal s i (t + 1) < distance goal s i t) := by
  unfold distance
  rw [length_deliveredBefore_succ]
  cases valid : omapBiu2arbVld (s t) with
  | false =>
      rw [offered_next trace some_ valid, Bool.false_and, Bool.toNat_false, Bool.toNat_true]
      omega
  | true =>
      cases ready : (i t).omapBiu2arbRdy with
      | false =>
          have again : omapBiu2arbVld (s (t + 1)) = true := by
            unfold omapBiu2arbVld OmapBiu.omapBiu2arbVld
            rw [stable trace valid ready]
            exact valid
          rw [again]
          exact ⟨Nat.le_refl _, fun absurdity => Bool.noConfusion absurdity⟩
      | true =>
          rw [Bool.and_self, Bool.toNat_true]
          omega

theorem arrives (trace : IsTrace step s i) (initial : IsReset (s 0))
    (ready : ∀ t, ∃ u, t ≤ u ∧ (i u).omapBiu2arbRdy = true) (t : Nat) :
    ∃ u, t ≤ u ∧ acceptedBefore s i t <+: deliveredBefore s i u := by
  let goal := (acceptedBefore s i t).length
  have falls (u : Nat) (after : t ≤ u) (missing : ¬ goal ≤ (deliveredBefore s i u).length) :
      distance goal s i (u + 1) ≤ distance goal s i u ∧
        ((i u).omapBiu2arbRdy = true → distance goal s i (u + 1) < distance goal s i u) := by
    refine distance_falls trace (fun none_ => missing ?_) (by omega)
    rw [← List.append_nil (deliveredBefore s i u), ← none_, conserved trace initial u]
    obtain ⟨k, rfl⟩ := Nat.exists_eq_add_of_le after
    unfold acceptedBefore
    rw [events_add, List.length_append]
    exact Nat.le_add_right _ _
  obtain ⟨u, after, reached⟩ := eventually_of_measure ready falls
  refine ⟨u, after, ?_⟩
  obtain ⟨k, rfl⟩ := Nat.exists_eq_add_of_le after
  have earlier : acceptedBefore s i t <+: acceptedBefore s i (t + k) := by
    unfold acceptedBefore
    rw [events_add]
    exact List.prefix_append _ _
  have whole : deliveredBefore s i (t + k) <+: acceptedBefore s i (t + k) :=
    ⟨inside (s (t + k)), conserved trace initial (t + k)⟩
  exact List.prefix_of_prefix_length_le earlier whole reached

theorem delivers {base : BitVec 32} (trace : IsTrace step s i) (initial : IsReset (s 0))
    (held : ∀ t, (i t).omapBaseAddr = base) : Delivers base s i where
  conserved := conserved trace initial
  addressed := by
    intro t
    rw [← held t]
    exact addressed trace initial t
  stable := by
    intro t valid blocked
    have pipe := stable trace valid blocked
    refine ⟨?_, ?_, ?_⟩
    · exact (congrArg SirvGnrlPipeStage.State.vldR pipe).trans valid
    · exact congrArg SirvGnrlPipeStage.State.datR pipe
    · rw [addressed trace initial, addressed trace initial, held, held,
        length_deliveredBefore_succ, blocked, Bool.and_false]
      rfl
  arrives := arrives trace initial

end Runs

/-! One item is offered in every cycle and the arbiter takes every other word. -/

def everyOther (t : Nat) : Input where
  psumAcc2mapMergerData := BitVec.ofNat 64 (t * (2 ^ 56 + 2 ^ 46 + 2 ^ 17))
  psumAcc2mapMergerVld := true
  omapBaseAddr := 0x60000
  inChCnt := false
  omapBiu2arbRdy := t.testBit 0
  arb2omapBiuVld := false

def blank : State where
  mapMerger := { pipe := { vldR := false, datR := 0 } }
  omapBiu := {
    omapBiu2arbCnt := 0
    pipe := { vldR := false, datR := 0 }
    receiveCnt := 0
    omapBiu2arbReq := false }

theorem delivers_everyOther : Delivers 0x60000 (run step blank everyOther) everyOther :=
  delivers (isTrace_run step blank everyOther) ⟨rfl, rfl, rfl, rfl, rfl⟩ fun _ => rfl

end Writeback

end RepVGGAcc
