import RepVGGAcc.Fabric.Decoding
import RepVGGAcc.Fabric.E203Biu

/-! The bus interface of the core as one service: the commands of the LSU and of the IFU go to
the slaves one at a time. -/

namespace RepVGGAcc

open Clocked

namespace E203Biu

open SirvIcb1toNBus (Aligned apart_of_bounds decode selects_eq)

theorem regions_aligned : Aligned regions := by
  unfold Aligned
  decide

theorem regions_apart : SirvIcb1toNBus.Apart regions :=
  apart_of_bounds regions_aligned (by decide)

/-- The port of the splitter that a command is for. -/
def target (c : UsrCmd) : Fin 6 :=
  match decode regions c.cmd.addr with
  | none => mem
  | some k => if c.usr then ifuerr else k.castSucc.succ

theorem target_of_decode {c : UsrCmd} {k : Fin 4} (region : decode regions c.cmd.addr = some k)
    (usr : c.usr = false) : target c = k.castSucc.succ := by
  unfold target
  rw [region, usr]
  rfl

theorem usr_of_target {c : UsrCmd} (toPpi : target c = ppi) : c.usr = false := by
  unfold target at toPpi
  split at toPpi
  · exact absurd toPpi (by decide)
  · split_ifs at toPpi with usr
    · exact absurd toPpi (by decide)
    · exact Bool.eq_false_iff.mpr usr

theorem indicated (c : UsrCmd) : OneHot (bufIcbSpltIndic c) (target c) := by
  refine oneHot_bits ?_
  have selected : bufIcbCmd c = fun k => decide (decode regions c.cmd.addr = some k) :=
    funext (selects_eq regions_apart c.cmd.addr)
  unfold bufIcbSelMem bufIcbSelIfuerr bufIcbSel target
  rw [selected]
  generalize decode regions c.cmd.addr = region
  generalize c.usr = usr
  revert region usr
  decide

theorem oIcb_icbCmd (s : State) (k : Fin 6) (up : IcbUp) : icbCmd (oIcb s k) up =
    icbCmd (SirvGnrlIcbSplt.oIcb spltFifo s.splt (bufIcbSpltIndic (bufCmd s)) (bufIcb s) k)
      up := by
  unfold icbCmd oIcb SirvGnrlIcbSplt.oIcb
  cases SirvGnrlIcbSplt.oIcbCmdValid spltFifo s.splt (bufIcbSpltIndic (bufCmd s)) (bufIcb s) k
  · rfl
  · rw [IcbCmd.mask_true]

def request (s : State) (i : Fin 2 → IcbDown) : Option (Fin 2 × IcbCmd) :=
  SirvGnrlIcbArbt.request arbtFifo s.arbt i (arbtIcbUp s)

def response (s : State) (i : Fin 2 → IcbDown) : Option (Fin 2 × IcbRsp) :=
  SirvGnrlIcbArbt.response arbtFifo s.arbt i (arbtIcbUp s)

theorem bind_request (s : State) (i : Fin 2 → IcbDown) (k : Fin 2) :
    (request s i).bind (atPort k) = icbCmd (i k) (iIcb s i k) :=
  SirvGnrlIcbArbt.bind_request k

theorem bind_response (s : State) (i : Fin 2 → IcbDown) (k : Fin 2) :
    (response s i).bind (atPort k) = icbRsp (i k) (iIcb s i k) :=
  SirvGnrlIcbArbt.bind_response k

/-- What enters the buffer for a command of a port. -/
def entry (x : Fin 2 × IcbCmd) : UsrCmd where
  cmd := x.2
  usr := decide (x.1.val = 1)

def entered (s : State) (i : Fin 2 → IcbDown) : Option UsrCmd :=
  handshake (arbtIcb s i).cmdValid (arbtIcbUp s).cmdReady
    { cmd := (arbtIcb s i).cmd, usr := arbtIcbCmdUsr i }

def left (s : State) (o : Fin 6 → IcbUp) : Option UsrCmd :=
  handshake (bufIcb s).cmdValid (bufIcbUp s o).cmdReady (bufCmd s)

theorem entered_eq (s : State) (i : Fin 2 → IcbDown) :
    entered s i = (request s i).map entry :=
  SirvGnrlIcbArbt.handed_on fun k first => by
    have cmd : (arbtIcb s i).cmd = (i k).cmd := IcbCmd.mux_eq first.sel _
    have usr : arbtIcbCmdUsr i = decide (k.val = 1) := anyMux_eq first.sel _
    rw [cmd, usr]
    rfl

theorem map_left (s : State) (o : Fin 6 → IcbUp) :
    (left s o).map (fun c => (target c, c.cmd)) =
      (icbCmd (bufIcb s) (bufIcbUp s o)).map (target (bufCmd s), ·) := by
  unfold left icbCmd
  rw [map_handshake, map_handshake]
  rfl

/-- The slaves behind the splitter, as one service for the buffer. -/
def serve (slaves : Fin 6 → IcbService) :
    (∀ k, (slaves k).State) → UsrCmd → (∀ k, (slaves k).State) × IcbRsp :=
  viewed (fun c => (target c, c.cmd)) Prod.snd (routed fun k => (slaves k).serve)

theorem serve_answer (slaves : Fin 6 → IcbService) (before : List UsrCmd) (c : UsrCmd)
    (k : Fin 6) (here : target c = k) :
    (serve slaves (served (serve slaves) (fun k => (slaves k).start) before) c).2 =
      (slaves k).answer ((before.filter fun c => decide (target c = k)).map UsrCmd.cmd) c.cmd := by
  subst here
  have own : (before.map fun c => (target c, c.cmd)).filterMap (atPort (target c)) =
      (before.filter fun x => decide (target x = target c)).map UsrCmd.cmd := by
    rw [← filterMap_atPort, List.map_filterMap, List.filterMap_map, List.filterMap_map]
    refine List.filterMap_congr fun x _ => ?_
    by_cases here : target x = target c
    · simp [atPort, here]
    · simp [atPort, here]
  unfold serve
  rw [served_viewed]
  show ((slaves (target c)).serve (served (routed fun k => (slaves k).serve) _ _ (target c))
    c.cmd).2 = _
  rw [served_routed, own]
  rfl

section Run

variable {s : Nat → State} {i : Nat → Fin 2 → IcbDown} {o : Nat → Fin 6 → IcbUp}

theorem events_left (trace : ∀ t, s (t + 1) = step (s t) (i t) (o t)) (initial : IsReset (s 0))
    (m : Nat) : events (fun t => left (s t) (o t)) m <+:
      events (fun t => entered (s t) (i t)) m := by
  let cmds := (SirvGnrlFifo.circuit 1 70 Nat.one_pos true).packed UsrCmd.pack UsrCmd.unpack
    UsrCmd.unpack_pack
  have order := QueueCircuit.events_leaves (c := cmds) (s := fun t => (s t).cmdFifo)
    (fun t => congrArg State.cmdFifo (trace t)) initial.cmdFifo m
  simp only [cmds, QueueCircuit.packed, SirvGnrlFifo.circuit, SirvGnrlFifo.iRdy_cut] at order
  exact order

theorem events_responses (trace : ∀ t, s (t + 1) = step (s t) (i t) (o t))
    (initial : IsReset (s 0)) (m : Nat) :
    events (fun t => icbRsp (arbtIcb (s t) (i t)) (arbtIcbUp (s t))) m <+:
      events (fun t => icbRsp (bufIcb (s t)) (bufIcbUp (s t) (o t))) m := by
  let rsps := (SirvGnrlFifo.circuit 1 33 Nat.one_pos true).packed IcbRsp.pack IcbRsp.unpack
    IcbRsp.unpack_pack
  have order := QueueCircuit.events_leaves (c := rsps) (s := fun t => (s t).rspFifo)
    (fun t => congrArg State.rspFifo (trace t)) initial.rspFifo m
  simp only [rsps, QueueCircuit.packed, SirvGnrlFifo.circuit, SirvGnrlFifo.iRdy_cut] at order
  exact order

variable {slaves : Fin 6 → IcbService}

/-- The LSU and the IFU see the slaves as one service that takes their commands one at a
time. -/
theorem serves (trace : ∀ t, s (t + 1) = step (s t) (i t) (o t)) (initial : IsReset (s 0))
    (served : ∀ k, (slaves k).At (fun t => oIcb (s t) k) fun t => o t k) :
    Serves (tagged (serve slaves)) (fun k => (slaves k).start)
      (fun t => (request (s t) (i t)).map fun x => (x.1, entry x))
      fun t => response (s t) (i t) := by
  unfold IcbService.At at served
  simp only [oIcb_icbCmd] at served
  obtain ⟨sources, inner⟩ := SirvGnrlIcbSplt.serves (s := fun t => (s t).splt) rfl
    (fun t => congrArg State.splt (trace t)) initial.splt
    (fun t => indicated (bufCmd (s t))) (Equiv.refl _) served
  have buffered : Serves (routed fun k => (slaves k).serve) (fun k => (slaves k).start)
      (fun t => (left (s t) (o t)).map fun c => (target c, c.cmd))
      fun t => (icbRsp (bufIcb (s t)) (bufIcbUp (s t) (o t))).map (sources t, ·) := by
    simp only [map_left]
    exact inner
  have slaves := buffered.viewed (g := Prod.snd)
  simp only [Option.map_map, Function.comp_def, Option.map_id'] at slaves
  refine SirvGnrlIcbArbt.serves_own (s := fun t => (s t).arbt)
    (fun t => congrArg State.arbt (trace t)) initial.arbt (le_refl 2)
    (slaves.trans (fun m => ?_) (events_responses trace initial))
  have early := events_left trace initial m
  simp only [entered_eq] at early
  exact early

omit o in
theorem events_entries (k : Fin 2) (m : Nat) :
    events (fun t => ((request (s t) (i t)).map fun x => (x.1, entry x)).bind (atPort k)) m =
      (events (fun t => icbCmd (i t k) (iIcb (s t) (i t) k)) m).map fun c => entry (k, c) := by
  have own (x : Option (Fin 2 × IcbCmd)) : (x.map fun x => (x.1, entry x)).bind (atPort k) =
      (x.bind (atPort k)).map fun c => entry (k, c) := by
    cases x with
    | none => rfl
    | some x =>
        obtain ⟨j, c⟩ := x
        by_cases here : j = k
        · subst here
          simp [atPort]
        · simp [atPort, here]
  rw [← events_map]
  simp only [own, bind_request]

theorem length_responses (trace : ∀ t, s (t + 1) = step (s t) (i t) (o t))
    (initial : IsReset (s 0)) (served : ∀ k, (slaves k).At (fun t => oIcb (s t) k) fun t => o t k)
    (k : Fin 2) (m : Nat) :
    (events (fun t => icbRsp (i t k) (iIcb (s t) (i t) k)) m).length ≤
      (events (fun t => icbCmd (i t k) (iIcb (s t) (i t) k)) m).length := by
  have bound := ((serves trace initial served).events_atPort k m).length_le
  rw [length_replies_atPort, ← events_bind, events_entries, List.length_map] at bound
  simpa only [bind_response] using bound

/-- A port gets the responses to its commands in their order. What a slave answers depends on
the commands of both ports that were accepted before. -/
theorem answers (trace : ∀ t, s (t + 1) = step (s t) (i t) (o t)) (initial : IsReset (s 0))
    (served : ∀ k, (slaves k).At (fun t => oIcb (s t) k) fun t => o t k) {k : Fin 2} {m n : Nat}
    {c : IcbCmd} {r : IcbRsp}
    (asked : (events (fun t => icbCmd (i t k) (iIcb (s t) (i t) k)) m)[n]? = some c)
    (answered : (events (fun t => icbRsp (i t k) (iIcb (s t) (i t) k)) m)[n]? = some r) :
    ∃ before : List (Fin 2 × IcbCmd),
      before.filterMap (atPort k) =
        (events (fun t => icbCmd (i t k) (iIcb (s t) (i t) k)) m).take n ∧
      r = (slaves (target (entry (k, c)))).answer (((before.map entry).filter fun x =>
        decide (target x = target (entry (k, c)))).map UsrCmd.cmd) c := by
  obtain ⟨before, early, sofar, answer⟩ := (serves trace initial served).port_answer
    (k := k) (m := m) (n := n) (x := entry (k, c)) (y := r)
    (by rw [events_entries, List.getElem?_map, asked]; rfl)
    (by simpa only [bind_response] using answered)
  rw [events_map] at early
  obtain ⟨xs, -, rfl⟩ := List.prefix_map_iff.mp early
  refine ⟨xs, ?_, ?_⟩
  · rw [events_entries] at sofar
    have unpacked := congrArg (List.map UsrCmd.cmd) sofar
    rw [List.map_filterMap, List.filterMap_map, ← List.map_take, List.map_map] at unpacked
    refine Eq.trans (List.filterMap_congr fun x _ => ?_) (unpacked.trans (List.map_id _))
    show atPort k x = (atPort k (x.1, entry x)).map UsrCmd.cmd
    unfold atPort
    split_ifs <;> rfl
  · rw [answer, List.map_map]
    exact serve_answer slaves _ _ _ rfl

theorem length_le (trace : ∀ t, s (t + 1) = step (s t) (i t) (o t)) (initial : IsReset (s 0))
    (served : ∀ k, (slaves k).At (fun t => oIcb (s t) k) fun t => o t k) (k : Fin 6) (m : Nat) :
    (events (fun t => icbCmd (oIcb (s t) k) (o t k)) m).length ≤
      (events (fun t => icbRsp (oIcb (s t) k) (o t k)) m).length + 1 := by
  unfold IcbService.At at served
  simp only [oIcb_icbCmd] at served
  obtain ⟨q, holds, ordered⟩ := SirvGnrlIcbSplt.exists_under_way (s := fun t => (s t).splt) rfl
    (fun t => congrArg State.splt (trace t)) initial.splt
    (fun t => indicated (bufCmd (s t))) (Equiv.refl _) served
  have outstanding := SirvGnrlIcbSplt.length_outstanding
    (fun t => indicated (bufCmd (s t))) holds ordered k m
  have one : ((q m).map fun k => BitVec.twoPow 6 k.val).length ≤ 1 :=
    spltFifo.length_le (holds m)
  rw [List.length_map] at one
  have few : (q m).count k ≤ (q m).length := List.count_le_length
  simp only [oIcb_icbCmd]
  have responses : (fun t => icbRsp (oIcb (s t) k) (o t k)) = fun t =>
      icbRsp (SirvGnrlIcbSplt.oIcb spltFifo (s t).splt (bufIcbSpltIndic (bufCmd (s t)))
        (bufIcb (s t)) k) (o t k) := rfl
  rw [responses]
  omega

end Run

end E203Biu

end RepVGGAcc
