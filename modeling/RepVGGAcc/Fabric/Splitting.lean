import RepVGGAcc.Fabric.Arbitration
import Mathlib.Logic.Equiv.Defs

/-! The splitter in front of several services: every command goes to the port that is
indicated, and the responses come in the order of the commands. -/

namespace RepVGGAcc

open Clocked

namespace SirvGnrlIcbSplt

variable {n : Nat} (fifo : QueueCircuit (BitVec n)) (s : fifo.State) (indic : BitVec n)
  (i : IcbDown) (o : Fin n → IcbUp)

/-- The port at the front of the queue, and the one that is indicated when it is empty. -/
def source (q : List (Fin n)) (target : Fin n) : Fin n :=
  q.head?.getD target

def next (q : List (Fin n)) (target : Fin n) : List (Fin n) :=
  queueNext q
    (fifo.oVld s && (rspidFifoRen fifo s indic i o && !rspidFifoBypass fifo s indic i o))
    (handshake (rspidFifoWen fifo s indic i o && !rspidFifoBypass fifo s indic i o)
      (!rspidFifoFull fifo s) target)

variable {fifo s indic i o} {target : Fin n}

theorem oIcb_icbCmd (indicated : OneHot indic target) (k : Fin n) :
    icbCmd (oIcb fifo s indic i k) (o k) =
      ((icbCmd i (iIcb fifo s indic o)).map (target, ·)).bind (atPort k) := by
  unfold icbCmd oIcb oIcbCmdValid iIcbCmdValidPre iIcb iIcbCmdReadyPre
  rw [map_handshake, anyMux_eq indicated.select, indicated.select]
  by_cases here : k = target
  · subst here
    rw [decide_eq_true rfl, Bool.true_and]
    unfold handshake
    cases i.cmdValid <;> cases (o k).cmdReady <;> cases cmdDiffBranch fifo s indic <;>
      cases rspidFifoFull fifo s <;> simp [atPort_self]
  · rw [decide_eq_false here, Bool.false_and]
    unfold handshake
    rw [Bool.false_and, if_neg Bool.false_ne_true]
    split_ifs
    · rw [Option.bind_some, atPort_ne (Ne.symm here)]
    · rfl

theorem wen_eq : rspidFifoWen fifo s indic i o = (icbCmd i (iIcb fifo s indic o)).isSome := by
  unfold rspidFifoWen icbCmd handshake
  cases i.cmdValid <;> cases (iIcb fifo s indic o).cmdReady <;> rfl

theorem ren_eq : rspidFifoRen fifo s indic i o = (icbRsp i (iIcb fifo s indic o)).isSome := by
  unfold rspidFifoRen icbRsp handshake
  cases (iIcb fifo s indic o).rspValid <;> cases i.rspReady <;> rfl

section Held

variable {q : List (Fin n)} (holds : fifo.Holds s (q.map fun k => BitVec.twoPow n k.val))

include holds

theorem rspidFifoEmpty_eq : rspidFifoEmpty fifo s = q.isEmpty := by
  unfold rspidFifoEmpty
  rw [fifo.oVld_eq holds]
  cases q <;> rfl

section Indicated

variable (indicated : OneHot indic target)

include indicated

theorem oIcbRspPortId_hot : OneHot (oIcbRspPortId fifo s indic) (source q target) := by
  unfold oIcbRspPortId
  rw [rspidFifoEmpty_eq holds]
  cases q with
  | nil => exact indicated
  | cons k q =>
      rw [fifo.oDat_eq holds]
      exact oneHot_twoPow k

theorem cmdDiffBranch_eq :
    cmdDiffBranch fifo s indic = q.head?.any fun k => decide (k ≠ target) := by
  unfold cmdDiffBranch
  rw [rspidFifoEmpty_eq holds]
  cases q with
  | nil => rfl
  | cons k q =>
      have same : (BitVec.twoPow n target == BitVec.twoPow n k) = decide (k = target) := by
        rw [Bool.eq_iff_iff, beq_iff_eq, decide_eq_true_iff, twoPow_inj]
        exact eq_comm
      rw [fifo.oDat_eq holds, indicated.eq_twoPow, same]
      simp

theorem iIcb_rspValid : (iIcb fifo s indic o).rspValid = (o (source q target)).rspValid :=
  anyMux_eq (oIcbRspPortId_hot holds indicated).select _

theorem iIcb_rsp : (iIcb fifo s indic o).rsp = (o (source q target)).rsp :=
  IcbRsp.mux_eq (oIcbRspPortId_hot holds indicated).select _

theorem iIcb_cmdReady : (iIcb fifo s indic o).cmdReady = ((o target).cmdReady &&
    !(q.head?.any fun k => decide (k ≠ target)) && !rspidFifoFull fifo s) := by
  unfold iIcb iIcbCmdReadyPre
  rw [cmdDiffBranch_eq holds indicated, anyMux_eq indicated.select]

theorem oIcb_cmdValid (k : Fin n) : (oIcb fifo s indic i k).cmdValid = (decide (k = target) &&
    (i.cmdValid && !(q.head?.any fun k => decide (k ≠ target)) && !rspidFifoFull fifo s)) := by
  unfold oIcb oIcbCmdValid iIcbCmdValidPre
  rw [cmdDiffBranch_eq holds indicated, indicated.select]

theorem oIcb_rspReady (k : Fin n) : (oIcb fifo s indic i k).rspReady =
    (decide (k = source q target) && i.rspReady) := by
  unfold oIcb
  rw [(oIcbRspPortId_hot holds indicated).select]

theorem oIcb_icbRsp (k : Fin n) : icbRsp (oIcb fifo s indic i k) (o k) =
    ((icbRsp i (iIcb fifo s indic o)).map (source q target, ·)).bind (atPort k) := by
  unfold icbRsp
  rw [map_handshake, iIcb_rspValid holds indicated, iIcb_rsp holds indicated,
    oIcb_rspReady holds indicated]
  by_cases here : k = source q target
  · rw [← here, decide_eq_true rfl, Bool.true_and]
    unfold handshake
    split_ifs
    · rw [Option.bind_some, atPort_self]
    · rfl
  · rw [decide_eq_false here, Bool.false_and]
    unfold handshake
    rw [Bool.and_false, if_neg Bool.false_ne_true]
    split_ifs
    · rw [Option.bind_some, atPort_ne (Ne.symm here)]
    · rfl

theorem length_lt (cut : fifo.flow = false)
    (accepted : (icbCmd i (iIcb fifo s indic o)).isSome = true) : q.length < fifo.depth := by
  unfold icbCmd handshake at accepted
  split_ifs at accepted with both
  · obtain ⟨-, ready⟩ := (Bool.and_eq_true _ _).mp both
    rw [iIcb_cmdReady holds indicated, Bool.and_eq_true] at ready
    have room := ready.2
    unfold rspidFifoFull at room
    rw [fifo.iRdy_eq holds, cut, List.length_map] at room
    simpa using room
  · cases accepted

theorem step_holds (cut : fifo.flow = false) : fifo.Holds (step fifo s indic i o)
    ((next fifo s indic i o q target).map fun k => BitVec.twoPow n k.val) := by
  have stepped := fifo.step_holds holds
    (rspidFifoWen fifo s indic i o && !rspidFifoBypass fifo s indic i o)
    (BitVec.twoPow n target)
    (rspidFifoRen fifo s indic i o && !rspidFifoBypass fifo s indic i o)
  have ready (oRdy : Bool) : fifo.iRdy s oRdy = !rspidFifoFull fifo s := by
    unfold rspidFifoFull
    rw [fifo.iRdy_eq holds, fifo.iRdy_eq holds, cut, Bool.not_not]
    rfl
  rwa [ready, ← map_handshake fun k : Fin n => BitVec.twoPow n k.val, ← map_queueNext,
    ← indicated.eq_twoPow] at stepped

end Indicated

theorem next_conserves (asked : q = [] → (icbRsp i (iIcb fifo s indic o)).isSome = true →
      (icbCmd i (iIcb fifo s indic o)).isSome = true) :
    ((icbRsp i (iIcb fifo s indic o)).map fun _ => source q target).toList ++
        next fifo s indic i o q target =
      q ++ ((icbCmd i (iIcb fifo s indic o)).map fun _ => target).toList := by
  have room : rspidFifoWen fifo s indic i o = true → rspidFifoFull fifo s = false := by
    unfold rspidFifoWen iIcb
    simp only [Bool.and_eq_true, Bool.not_eq_true']
    exact fun accepted => accepted.2.2
  have requests : (icbCmd i (iIcb fifo s indic o)).map (fun _ => target) =
      if rspidFifoWen fifo s indic i o then some target else none :=
    map_handshake _ _ _ _
  have responses : (icbRsp i (iIcb fifo s indic o)).map (fun _ => source q target) =
      if rspidFifoRen fifo s indic i o then some (source q target) else none :=
    map_handshake _ _ _ _
  rw [← ren_eq, ← wen_eq] at asked
  rw [requests, responses]
  unfold next rspidFifoBypass handshake queueNext
  rw [fifo.oVld_eq holds, rspidFifoEmpty_eq holds]
  cases accepts : rspidFifoWen fifo s indic i o with
  | false =>
      cases responds : rspidFifoRen fifo s indic i o with
      | false => simp
      | true =>
          cases q with
          | nil => exact absurd (asked rfl responds) (by rw [accepts]; exact Bool.false_ne_true)
          | cons k q => simp [source]
  | true =>
      rw [room accepts]
      cases responds : rspidFifoRen fifo s indic i o with
      | false => simp
      | true => cases q <;> simp [source]

end Held

theorem events_named {ι β : Type} (port : ι ≃ Fin n) (x : Nat → Option β) (p : Nat → Fin n)
    (m : Nat) : events (fun t => ((x t).map (port.symm (p t), ·)).map Prod.fst) m =
      (events (fun t => (x t).map fun _ => p t) m).map port.symm := by
  rw [← events_map]
  simp only [Option.map_map]
  rfl

section Parts

variable {fifo : QueueCircuit (BitVec n)} {s : Nat → fifo.State} {indic : Nat → BitVec n}
  {i : Nat → IcbDown} {o : Nat → Fin n → IcbUp} {target : Nat → Fin n}
  (indicated : ∀ t, OneHot (indic t) (target t))
  {q : Nat → List (Fin n)}
  (holds : ∀ t, fifo.Holds (s t) ((q t).map fun k => BitVec.twoPow n k.val))

include indicated holds

theorem served_parts {ι : Type} [DecidableEq ι] (port : ι ≃ Fin n) {τ : ι → Type}
    {serve : ∀ k, τ k → IcbCmd → τ k × IcbRsp} {start : ∀ k, τ k}
    (served : ∀ k, Serves (serve k) (start k)
      (fun t => icbCmd (oIcb fifo (s t) (indic t) (i t) (port k)) (o t (port k)))
      fun t => icbRsp (oIcb fifo (s t) (indic t) (i t) (port k)) (o t (port k))) (k : ι) :
    Serves (serve k) (start k)
      (fun t => ((icbCmd (i t) (iIcb fifo (s t) (indic t) (o t))).map
        (port.symm (target t), ·)).bind (atPort k))
      fun t => ((icbRsp (i t) (iIcb fifo (s t) (indic t) (o t))).map
        (port.symm (source (q t) (target t)), ·)).bind (atPort k) := by
  have named {β : Type} (x : Option β) (p : Fin n) :
      (x.map (p, ·)).bind (atPort (port k)) = (x.map (port.symm p, ·)).bind (atPort k) := by
    cases x <;> simp [atPort, Equiv.symm_apply_eq]
  simpa only [oIcb_icbCmd (indicated _), oIcb_icbRsp (holds _) (indicated _), named]
    using served k

theorem length_outstanding
    (ordered : ∀ m, events (fun t => (icbRsp (i t) (iIcb fifo (s t) (indic t) (o t))).map
          fun _ => source (q t) (target t)) m ++ q m =
      events (fun t => (icbCmd (i t) (iIcb fifo (s t) (indic t) (o t))).map fun _ =>
        target t) m) (k : Fin n) (m : Nat) :
    (events (fun t => icbCmd (oIcb fifo (s t) (indic t) (i t) k) (o t k)) m).length =
      (events (fun t => icbRsp (oIcb fifo (s t) (indic t) (i t) k) (o t k)) m).length +
        (q m).count k := by
  have count {β : Type} (x : Nat → Option β) (p : Nat → Fin n) :
      (events (fun t => ((x t).map (p t, ·)).bind (atPort k)) m).length =
        (events (fun t => (x t).map fun _ => p t) m).count k := by
    rw [events_bind, length_filterMap_atPort, ← events_map]
    simp only [Option.map_map]
    rfl
  simp only [oIcb_icbCmd (indicated _), oIcb_icbRsp (holds _) (indicated _)]
  rw [count, count, ← ordered m, List.count_append]

end Parts

section Run

variable {fifo : QueueCircuit (BitVec n)} {s : Nat → fifo.State} {indic : Nat → BitVec n}
  {i : Nat → IcbDown} {o : Nat → Fin n → IcbUp} {target : Nat → Fin n}
  (cut : fifo.flow = false)
  (trace : ∀ t, s (t + 1) = step fifo (s t) (indic t) (i t) (o t))
  (initial : fifo.IsReset (s 0)) (indicated : ∀ t, OneHot (indic t) (target t))

include cut trace initial indicated

theorem exists_ports : ∃ q : Nat → List (Fin n), q 0 = [] ∧
    (∀ t, fifo.Holds (s t) ((q t).map fun k => BitVec.twoPow n k.val)) ∧
    ∀ t, q (t + 1) = next fifo (s t) (indic t) (i t) (o t) (q t) (target t) := by
  let q : Nat → List (Fin n) := fun t =>
    Nat.rec [] (fun t q => next fifo (s t) (indic t) (i t) (o t) q (target t)) t
  refine ⟨q, rfl, fun t => ?_, fun t => rfl⟩
  induction t with
  | zero => exact fifo.holds_reset initial
  | succ t held =>
      rw [trace t]
      exact step_holds held (indicated t) cut

/-- The ports that have answered, with those whose commands are under way, are those the
commands were for. The ports are called by the names `ι`. -/
theorem exists_under_way {ι : Type} [DecidableEq ι] (port : ι ≃ Fin n) {τ : ι → Type}
    {serve : ∀ k, τ k → IcbCmd → τ k × IcbRsp} {start : ∀ k, τ k}
    (served : ∀ k, Serves (serve k) (start k)
      (fun t => icbCmd (oIcb fifo (s t) (indic t) (i t) (port k)) (o t (port k)))
      fun t => icbRsp (oIcb fifo (s t) (indic t) (i t) (port k)) (o t (port k))) :
    ∃ q : Nat → List (Fin n),
      (∀ t, fifo.Holds (s t) ((q t).map fun k => BitVec.twoPow n k.val)) ∧
      ∀ m, events (fun t => (icbRsp (i t) (iIcb fifo (s t) (indic t) (o t))).map fun _ =>
          source (q t) (target t)) m ++ q m =
        events (fun t => (icbCmd (i t) (iIcb fifo (s t) (indic t) (o t))).map fun _ =>
          target t) m := by
  obtain ⟨q, empty, holds, moves⟩ := exists_ports cut trace initial indicated
  have parts := served_parts indicated holds port served
  refine ⟨q, holds, fun m => ?_⟩
  induction m with
  | zero => rw [empty, events_zero, events_zero, List.nil_append]
  | succ m held =>
      have conserved : _ ++ next fifo (s m) (indic m) (i m) (o m) (q m) (target m) = _ :=
        next_conserves (holds m) fun settled responds => by
          rw [settled, List.append_nil] at held
          have asked := request_of_response parts
            (by rw [events_named, events_named, held])
            (by rw [Option.isSome_map]; exact responds)
          rwa [Option.isSome_map] at asked
      rw [events_succ, events_succ, ← held, List.append_assoc, List.append_assoc, moves m]
      exact congrArg _ conserved

/-- Behind the splitter the services of its ports are one service: every command is answered
by the port that is indicated, in the order of the commands. The ports are called by the
names `ι`. -/
theorem serves {ι : Type} [DecidableEq ι] (port : ι ≃ Fin n) {τ : ι → Type}
    {serve : ∀ k, τ k → IcbCmd → τ k × IcbRsp} {start : ∀ k, τ k}
    (served : ∀ k, Serves (serve k) (start k)
      (fun t => icbCmd (oIcb fifo (s t) (indic t) (i t) (port k)) (o t (port k)))
      fun t => icbRsp (oIcb fifo (s t) (indic t) (i t) (port k)) (o t (port k))) :
    ∃ sources : Nat → ι, Serves (routed serve) start
      (fun t => (icbCmd (i t) (iIcb fifo (s t) (indic t) (o t))).map (port.symm (target t), ·))
      fun t => (icbRsp (i t) (iIcb fifo (s t) (indic t) (o t))).map (sources t, ·) := by
  obtain ⟨q, holds, ordered⟩ := exists_under_way cut trace initial indicated port served
  refine ⟨fun t => port.symm (source (q t) (target t)),
    Serves.routed (served_parts indicated holds port served) fun m => ?_⟩
  rw [events_named, events_named, ← ordered m, List.map_append]
  exact List.prefix_append _ _

end Run

end SirvGnrlIcbSplt

end RepVGGAcc
