import RepVGGAcc.Clocked.Queue
import RepVGGAcc.Fabric.GnrlBufs

/-! The FIFO of the bus fabric is a queue, for every depth and width. -/

namespace RepVGGAcc

open Clocked

namespace SirvGnrlFifo

variable {dp dw : Nat}

theorem oneHot_ptrVecNxt {ptrVecR : BitVec dp} {k : Nat} (inside : k < dp)
    (hot : OneHot ptrVecR k) : OneHot (ptrVecNxt ptrVecR) ((k + 1) % dp) := by
  unfold ptrVecNxt
  split_ifs with single last
  · subst single
    rw [Nat.mod_one]
    exact oneHot_one 1
  · rw [hot _ (by omega), decide_eq_true_iff] at last
    rw [← last, Nat.sub_add_cancel (by omega), Nat.mod_self]
    exact oneHot_one dp
  · rw [hot _ (by omega), decide_eq_true_iff] at last
    rw [Nat.mod_eq_of_lt (by omega)]
    exact hot.shiftLeft

/-- `vec_r` while `n` elements are in the FIFO: bits 0 to `n`. -/
def Filled (vecR : BitVec (dp + 1)) (n : Nat) : Prop :=
  ∀ j ≤ dp, vecR.getLsbD j = decide (j ≤ n)

theorem filled_vecNxt_true {vecR : BitVec (dp + 1)} {n : Nat} (filled : Filled vecR n) :
    Filled (vecNxt vecR true) (n + 1) := by
  intro j inside
  unfold vecNxt
  rw [if_pos rfl, BitVec.getLsbD_append]
  cases j with
  | zero => rfl
  | succ j =>
      rw [if_neg (by omega), Nat.add_sub_cancel, BitVec.getLsbD_setWidth, filled j (by omega),
        decide_eq_true (by omega), Bool.true_and]
      exact decide_eq_decide.mpr (by omega)

theorem filled_vecNxt_false {vecR : BitVec (dp + 1)} {n : Nat} (filled : Filled vecR (n + 1))
    (room : n < dp) : Filled (vecNxt vecR false) n := by
  intro j inside
  unfold vecNxt
  rw [if_neg Bool.false_ne_true, BitVec.getLsbD_ushiftRight]
  by_cases last : j = dp
  · rw [BitVec.getLsbD_of_ge _ _ (by omega), decide_eq_false (by omega)]
  · rw [filled _ (by omega)]
    exact decide_eq_decide.mpr (by omega)

/-- The registers from the read pointer on hold the elements of the queue. -/
structure At (s : State dp dw) (q : List (BitVec dw)) (r : Nat) : Prop where
  inside : r < dp
  length_le : q.length ≤ dp
  rptrVecR : OneHot s.rptrVecR r
  wptrVecR : OneHot s.wptrVecR ((r + q.length) % dp)
  vecR : Filled s.vecR q.length
  fifoRfR : ∀ k (element : k < q.length),
    s.fifoRfR ⟨(r + k) % dp, Nat.mod_lt _ (Nat.zero_lt_of_lt inside)⟩ = q[k]

def Holds (s : State dp dw) (q : List (BitVec dw)) : Prop :=
  ∃ r, At s q r

namespace At

variable {s : State dp dw} {q : List (BitVec dw)} {r : Nat}

theorem oVld (at_ : At s q r) : SirvGnrlFifo.oVld s = !q.isEmpty := by
  unfold SirvGnrlFifo.oVld
  rw [at_.vecR 1 (Nat.zero_lt_of_lt at_.inside)]
  cases q <;> simp

theorem oDat {x : BitVec dw} (at_ : At s (x :: q) r) : SirvGnrlFifo.oDat s = x := by
  have selected (j : Fin dp) : s.rptrVecR.getLsbD j = decide (j = ⟨r, at_.inside⟩) :=
    OneHot.select (k := ⟨r, at_.inside⟩) at_.rptrVecR j
  unfold SirvGnrlFifo.oDat
  rw [orMux_eq selected]
  have first := at_.fifoRfR 0 (Nat.zero_lt_succ _)
  simp only [Nat.add_zero, Nat.mod_eq_of_lt at_.inside] at first
  exact first

theorem full (at_ : At s q r) : s.vecR.getLsbD dp = decide (dp ≤ q.length) :=
  at_.vecR dp (Nat.le_refl _)

theorem iRdy (at_ : At s q r) (cutReady oRdy : Bool) : SirvGnrlFifo.iRdy cutReady s oRdy =
    (decide (q.length < dp) || (decide (dp = 1) && !cutReady && !q.isEmpty && oRdy)) := by
  have room : (!s.vecR.getLsbD dp) = decide (q.length < dp) := by
    rw [at_.full, ← decide_not]
    exact decide_eq_decide.mpr (by omega)
  unfold SirvGnrlFifo.iRdy ren
  rw [room, at_.oVld]
  by_cases single : dp = 1
  · cases cutReady <;> simp [single]
  · simp [single]

theorem place_ne {r a b : Nat} (before : a < b) (near : b < a + dp) :
    (r + a) % dp ≠ (r + b) % dp := by
  intro same
  have divides : dp ∣ r + b - (r + a) := (Nat.modEq_iff_dvd' (by omega)).mp same
  have far := Nat.le_of_dvd (by omega) divides
  omega

theorem pop {x : BitVec dw} (at_ : At s (x :: q) r) {vecR : BitVec (dp + 1)}
    (filled : Filled vecR q.length) :
    At { s with rptrVecR := ptrVecNxt s.rptrVecR, vecR := vecR } q ((r + 1) % dp) := by
  have positive := Nat.zero_lt_of_lt at_.inside
  have moved (k : Nat) : ((r + 1) % dp + k) % dp = (r + (k + 1)) % dp := by
    rw [Nat.mod_add_mod, Nat.add_assoc, Nat.add_comm 1]
  refine ⟨Nat.mod_lt _ positive, (Nat.le_succ _).trans at_.length_le,
    oneHot_ptrVecNxt at_.inside at_.rptrVecR, ?_, filled, fun k element => ?_⟩
  · rw [moved]
    exact at_.wptrVecR
  · simp only [moved]
    exact at_.fifoRfR (k + 1) (Nat.succ_lt_succ element)

theorem push (at_ : At s q r) (room : q.length < dp) (x : BitVec dw) {vecR : BitVec (dp + 1)}
    (filled : Filled vecR (q.length + 1)) :
    At { s with
      wptrVecR := ptrVecNxt s.wptrVecR
      vecR := vecR
      fifoRfR := fun k => sirvGnrlDfflr (s.wptrVecR.getLsbD k) x (s.fifoRfR k) }
      (q ++ [x]) r := by
  have positive := Nat.zero_lt_of_lt at_.inside
  have place : (r + q.length) % dp < dp := Nat.mod_lt _ positive
  refine ⟨at_.inside, ?_, at_.rptrVecR, ?_, ?_, fun k element => ?_⟩
  · rw [List.length_append]
    exact room
  · rw [List.length_append, ← Nat.add_assoc]
    have next := oneHot_ptrVecNxt place at_.wptrVecR
    rwa [Nat.mod_add_mod] at next
  · rw [List.length_append]
    exact filled
  · rw [List.length_append, List.length_singleton] at element
    simp only [at_.wptrVecR _ (Nat.mod_lt _ positive)]
    rcases Nat.lt_succ_iff_lt_or_eq.mp element with before | rfl
    · rw [decide_eq_false (place_ne before (by omega)), List.getElem_append_left before]
      exact at_.fifoRfR k before
    · rw [decide_eq_true rfl, List.getElem_concat_length rfl]
      rfl

theorem step (at_ : At s q r) (cutReady iVld : Bool) (iDat : BitVec dw) (oRdy : Bool) :
    Holds (SirvGnrlFifo.step cutReady s iVld iDat oRdy)
      (queueNext q (SirvGnrlFifo.oVld s && oRdy)
        (handshake iVld (SirvGnrlFifo.iRdy cutReady s oRdy) iDat)) := by
  have ready := at_.iRdy cutReady oRdy
  unfold SirvGnrlFifo.step ren handshake
  cases leaves : SirvGnrlFifo.oVld s && oRdy with
  | false =>
      cases enters : iVld && SirvGnrlFifo.iRdy cutReady s oRdy with
      | false =>
          refine ⟨r, ?_⟩
          simpa [queueNext] using at_
      | true =>
          have room : q.length < dp := by
            rw [at_.oVld] at leaves
            have accepted := ((Bool.and_eq_true _ _).mp enters).2
            rw [ready, Bool.and_assoc, leaves, Bool.and_false, Bool.or_false] at accepted
            exact of_decide_eq_true accepted
          exact ⟨r, at_.push room iDat (filled_vecNxt_true at_.vecR)⟩
  | true =>
      obtain ⟨x, q, rfl⟩ : ∃ x q', q = x :: q' := by
        refine List.exists_cons_of_ne_nil fun empty => ?_
        rw [at_.oVld, empty] at leaves
        cases leaves
      have shorter : Filled (vecNxt s.vecR false) q.length :=
        filled_vecNxt_false at_.vecR at_.length_le
      have popped := at_.pop shorter
      refine ⟨(r + 1) % dp, ?_⟩
      cases enters : iVld && SirvGnrlFifo.iRdy cutReady s oRdy with
      | false => simpa [queueNext] using popped
      | true => exact popped.push at_.length_le iDat at_.vecR

end At

namespace Holds

variable {s : State dp dw} {q : List (BitVec dw)}

theorem oVld (holds : Holds s q) : SirvGnrlFifo.oVld s = !q.isEmpty := by
  obtain ⟨r, at_⟩ := holds
  exact at_.oVld

theorem oDat {x : BitVec dw} (holds : Holds s (x :: q)) : SirvGnrlFifo.oDat s = x := by
  obtain ⟨r, at_⟩ := holds
  exact at_.oDat

theorem iRdy_cut (holds : Holds s q) :
    SirvGnrlFifo.iRdy true s false = decide (q.length < dp) := by
  obtain ⟨r, at_⟩ := holds
  rw [at_.iRdy]
  simp

theorem step_cut (holds : Holds s q) (iVld : Bool) (iDat : BitVec dw) (oRdy : Bool) :
    Holds (SirvGnrlFifo.step true s iVld iDat oRdy)
      (queueNext q (SirvGnrlFifo.oVld s && oRdy)
        (handshake iVld (SirvGnrlFifo.iRdy true s false) iDat)) := by
  obtain ⟨r, at_⟩ := holds
  rw [← SirvGnrlFifo.iRdy_cut s oRdy]
  exact at_.step true iVld iDat oRdy

end Holds

def circuit (dp dw : Nat) (positive : 0 < dp) (cutReady : Bool) : QueueCircuit (BitVec dw) where
  State := State dp dw
  step := step cutReady
  iRdy := iRdy cutReady
  oVld := oVld
  oDat := oDat
  IsReset := IsReset
  Holds := Holds
  depth := dp
  flow := decide (dp = 1) && !cutReady
  holds_reset := fun {s} reset => by
    refine ⟨0, positive, Nat.zero_le _, ?_, ?_, ?_, fun k element => absurd element (by simp)⟩
    · rw [reset.rptrVecR]
      exact oneHot_one dp
    · rw [reset.wptrVecR, List.length_nil, Nat.zero_mod]
      exact oneHot_one dp
    · intro j inside
      rw [reset.vecR, oneHot_one (dp + 1) j (by omega)]
      exact decide_eq_decide.mpr (by simp)
  length_le := fun ⟨_, at_⟩ => at_.length_le
  oVld_eq := Holds.oVld
  oDat_eq := Holds.oDat
  iRdy_eq := fun ⟨_, at_⟩ oRdy => at_.iRdy cutReady oRdy
  step_holds := fun ⟨_, at_⟩ iVld iDat oRdy => at_.step cutReady iVld iDat oRdy

section Run

variable {s : Nat → State dp dw} {iVld oRdy : Nat → Bool} {iDat : Nat → BitVec dw}
  {cutReady : Bool}

/-- The elements `q` wait in the FIFO after `n` cycles: those that have entered and not left,
in their order, and at most `dp`. It stalls a side only when it is full or empty. -/
structure InOrder (cutReady : Bool) (s : Nat → State dp dw) (iVld : Nat → Bool)
    (iDat : Nat → BitVec dw) (oRdy : Nat → Bool) (n : Nat) (q : List (BitVec dw)) : Prop where
  length_le : q.length ≤ dp
  conserved : events (fun t => handshake (oVld (s t)) (oRdy t) (oDat (s t))) n ++ q =
    events (fun t => handshake (iVld t) (iRdy cutReady (s t) (oRdy t)) (iDat t)) n
  oVld_eq : oVld (s n) = !q.isEmpty
  iRdy_eq : ∀ ready, iRdy cutReady (s n) ready =
    (decide (q.length < dp) || (decide (dp = 1) && !cutReady && !q.isEmpty && ready))

/-- From a reset on a FIFO loses, repeats and overtakes nothing. -/
theorem deliversInOrder (positive : 0 < dp)
    (trace : ∀ t, s (t + 1) = step cutReady (s t) (iVld t) (iDat t) (oRdy t))
    (initial : IsReset (s 0)) (n : Nat) : ∃ q, InOrder cutReady s iVld iDat oRdy n q := by
  obtain ⟨q, holds, conserved⟩ :=
    QueueCircuit.exists_held (c := circuit dp dw positive cutReady) trace initial n
  exact ⟨q, (circuit dp dw positive cutReady).length_le holds, conserved, Holds.oVld holds,
    fun ready => (circuit dp dw positive cutReady).iRdy_eq holds ready⟩

/-- A FIFO of three bytes that is offered one in every cycle and read in every other one. -/
def numbered : Nat → State 3 8 :=
  run (fun s t => step false s true (BitVec.ofNat 8 t) (t % 2 == 1)) reset id

theorem deliversInOrder_numbered : ∃ q, InOrder false numbered (fun _ => true)
    (fun t => BitVec.ofNat 8 t) (fun t => t % 2 == 1) 9 q :=
  deliversInOrder (by decide) (fun _ => rfl) isReset_reset 9

end Run

end SirvGnrlFifo

namespace SirvGnrlBypbuf

open SirvGnrlFifo (State circuit)

variable {dp dw : Nat} {s : State dp dw} {q : List (BitVec dw)}

theorem step_conserves (positive : 0 < dp) (holds : SirvGnrlFifo.Holds s q) (iVld : Bool)
    (iDat : BitVec dw) (oRdy : Bool) :
    ∃ q', SirvGnrlFifo.Holds (step s iVld iDat oRdy) q' ∧
      (handshake (oVld s iVld) oRdy (oDat s iDat)).toList ++ q' =
        q ++ (handshake iVld (iRdy s oRdy) iDat).toList := by
  have stepped := (circuit dp dw positive true).step_holds holds (iVld && !byp s iVld oRdy) iDat
    oRdy
  refine ⟨_, stepped, ?_⟩
  have valid := (circuit dp dw positive true).oVld_eq holds
  have ready := (circuit dp dw positive true).iRdy_eq holds oRdy
  simp only [circuit] at valid ready ⊢
  unfold oVld oDat iRdy byp handshake queueNext
  rw [valid, ready]
  cases q with
  | nil =>
      cases iVld <;> cases oRdy <;> simp [positive]
  | cons x q =>
      have first := (circuit dp dw positive true).oDat_eq holds
      simp only [circuit] at first
      rw [first]
      cases iVld <;> cases oRdy <;> simp

section Run

variable {s : Nat → State dp dw} {iVld oRdy : Nat → Bool} {iDat : Nat → BitVec dw}

theorem exists_held (positive : 0 < dp)
    (trace : ∀ t, s (t + 1) = step (s t) (iVld t) (iDat t) (oRdy t))
    (initial : SirvGnrlFifo.IsReset (s 0)) (n : Nat) : ∃ q, SirvGnrlFifo.Holds (s n) q ∧
      events (fun t => handshake (oVld (s t) (iVld t)) (oRdy t) (oDat (s t) (iDat t))) n ++ q =
        events (fun t => handshake (iVld t) (iRdy (s t) (oRdy t)) (iDat t)) n := by
  induction n with
  | zero => exact ⟨[], (circuit dp dw positive true).holds_reset initial, rfl⟩
  | succ n held =>
      obtain ⟨q, holds, conserved⟩ := held
      obtain ⟨q', next, moves⟩ := step_conserves positive holds (iVld n) (iDat n) (oRdy n)
      rw [← trace n] at next
      refine ⟨q', next, ?_⟩
      rw [events_succ, events_succ, ← conserved, List.append_assoc, List.append_assoc]
      exact congrArg _ moves

/-- The elements `q` wait in the buffer after `n` cycles; the others have passed it, at once
or after waiting, in their order. -/
structure InOrder (s : Nat → State dp dw) (iVld : Nat → Bool) (iDat : Nat → BitVec dw)
    (oRdy : Nat → Bool) (n : Nat) (q : List (BitVec dw)) : Prop where
  length_le : q.length ≤ dp
  conserved :
    events (fun t => handshake (oVld (s t) (iVld t)) (oRdy t) (oDat (s t) (iDat t))) n ++ q =
      events (fun t => handshake (iVld t) (iRdy (s t) (oRdy t)) (iDat t)) n
  oVld_eq : ∀ valid, oVld (s n) valid = (!q.isEmpty || valid)
  iRdy_eq : ∀ ready, iRdy (s n) ready = decide (q.length < dp)

/-- From a reset on the bypass buffer loses, repeats and overtakes nothing. -/
theorem bypassesInOrder (positive : 0 < dp)
    (trace : ∀ t, s (t + 1) = step (s t) (iVld t) (iDat t) (oRdy t))
    (initial : SirvGnrlFifo.IsReset (s 0)) (n : Nat) : ∃ q, InOrder s iVld iDat oRdy n q := by
  obtain ⟨q, holds, conserved⟩ := exists_held positive trace initial n
  refine ⟨q, (circuit dp dw positive true).length_le holds, conserved, fun valid => ?_,
    fun ready => ?_⟩
  · rw [oVld, holds.oVld]
  · rw [iRdy, SirvGnrlFifo.iRdy_cut, holds.iRdy_cut]

/-- A bypass buffer of two bytes that is offered one in every cycle and read in every other
one. -/
def numbered : Nat → State 2 8 :=
  run (fun s t => step s true (BitVec.ofNat 8 t) (t % 2 == 0)) SirvGnrlFifo.reset id

theorem bypassesInOrder_numbered : ∃ q, InOrder numbered (fun _ => true)
    (fun t => BitVec.ofNat 8 t) (fun t => t % 2 == 0) 9 q :=
  bypassesInOrder (by decide) (fun _ => rfl) SirvGnrlFifo.isReset_reset 9

end Run

end SirvGnrlBypbuf

namespace SirvGnrlPipeStage

def cutCircuit (α : Type) : QueueCircuit α where
  State := State α
  step := stepCut
  iRdy := fun s _ => iRdyCut s
  oVld := State.vldR
  oDat := State.datR
  IsReset := fun s => s.vldR = false
  Holds := fun s q => q = if s.vldR then [s.datR] else []
  depth := 1
  flow := false
  holds_reset := fun empty => by rw [empty]; rfl
  length_le := fun {s q} holds => by
    rw [holds]
    cases s.vldR <;> simp
  oVld_eq := fun {s q} holds => by
    rw [holds]
    cases s.vldR <;> rfl
  oDat_eq := fun {s x q} holds => by
    cases full : s.vldR <;> simp_all
  iRdy_eq := fun {s q} holds oRdy => by
    rw [holds]
    unfold iRdyCut
    cases s.vldR <;> rfl
  step_holds := fun {s q} holds iVld iDat oRdy => by
    rw [holds]
    unfold stepCut vldSetCut vldClr iRdyCut handshake queueNext sirvGnrlDfflr
    cases s.vldR <;> cases iVld <;> cases oRdy <;> rfl

end SirvGnrlPipeStage

end RepVGGAcc
