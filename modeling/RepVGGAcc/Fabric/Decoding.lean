import RepVGGAcc.Fabric.Icb1toNBus
import RepVGGAcc.Fabric.Splitting

/-! The bus as one service: its address decoder chooses among the services of its outputs. -/

namespace RepVGGAcc

open Clocked

namespace SirvGnrlIcbBuffer

variable {dp : Nat} {s : Nat → State dp dp} {i : Nat → IcbDown} {o : Nat → IcbUp}

section Run

variable (positive : 0 < dp) (trace : ∀ t, s (t + 1) = step (s t) (i t) (o t))

include positive trace

theorem commands_isPrefix (initial : SirvGnrlFifo.IsReset (s 0).cmdFifo) (m : Nat) :
    events (fun t => icbCmd (oIcb (s t)) (o t)) m <+:
      events (fun t => icbCmd (i t) (iIcb (s t))) m := by
  let cmds := (SirvGnrlFifo.circuit dp 69 positive true).packed IcbCmd.pack IcbCmd.unpack
    IcbCmd.unpack_pack
  have order := QueueCircuit.events_leaves (c := cmds) (s := fun t => (s t).cmdFifo)
    (fun t => congrArg State.cmdFifo (trace t)) initial m
  simp only [cmds, QueueCircuit.packed, SirvGnrlFifo.circuit, SirvGnrlFifo.iRdy_cut] at order
  exact order

theorem exists_responses (initial : SirvGnrlFifo.IsReset (s 0).rspFifo) (m : Nat) :
    ∃ q : List IcbRsp, (oIcb (s m)).rspReady = decide (q.length < dp) ∧
      events (fun t => icbRsp (i t) (iIcb (s t))) m ++ q =
        events (fun t => icbRsp (oIcb (s t)) (o t)) m := by
  let rsps := (SirvGnrlFifo.circuit dp 33 positive true).packed IcbRsp.pack IcbRsp.unpack
    IcbRsp.unpack_pack
  obtain ⟨q, holds, order⟩ := QueueCircuit.exists_held (c := rsps)
    (s := fun t => (s t).rspFifo) (fun t => congrArg State.rspFifo (trace t)) initial m
  refine ⟨q, ?_, ?_⟩
  · have room := rsps.iRdy_eq holds false
    rw [Bool.and_false, Bool.or_false] at room
    exact room
  · simp only [rsps, QueueCircuit.packed, SirvGnrlFifo.circuit, SirvGnrlFifo.iRdy_cut] at order
    exact order

theorem responses_isPrefix (initial : SirvGnrlFifo.IsReset (s 0).rspFifo) (m : Nat) :
    events (fun t => icbRsp (i t) (iIcb (s t))) m <+:
      events (fun t => icbRsp (oIcb (s t)) (o t)) m := by
  obtain ⟨q, -, order⟩ := exists_responses positive trace initial m
  exact ⟨q, order⟩

end Run

end SirvGnrlIcbBuffer

namespace SirvIcb1toNBus

variable {n dp : Nat}

/-- The output whose region an address lies in, `none` for the default slave. -/
def decode (regions : Fin n → Region) (addr : BitVec 32) : Option (Fin n) :=
  (List.finRange n).find? (selects regions addr)

/-- No address lies in the regions of two outputs. -/
def Apart (regions : Fin n → Region) : Prop :=
  ∀ addr j k, selects regions addr j = true → selects regions addr k = true → j = k

/-- The regions start at multiples of their sizes. -/
def Aligned (regions : Fin n → Region) : Prop :=
  ∀ k, (regions k).baseAddr.toNat % 2 ^ (regions k).baseRegionLsb = 0

theorem selects_iff {regions : Fin n → Region} (aligned : Aligned regions) (addr : BitVec 32)
    (k : Fin n) : selects regions addr k = true ↔ (regions k).enable = true ∧
      (regions k).baseAddr.toNat ≤ addr.toNat ∧
      addr.toNat < (regions k).baseAddr.toNat + 2 ^ (regions k).baseRegionLsb := by
  have begins := aligned k
  unfold selects
  rw [Bool.and_eq_true, beq_iff_eq, ← BitVec.toNat_inj, BitVec.toNat_ushiftRight,
    BitVec.toNat_ushiftRight, Nat.shiftRight_eq_div_pow, Nat.shiftRight_eq_div_pow, and_comm]
  refine and_congr_right fun _ => ?_
  generalize (regions k).baseAddr.toNat = base at begins ⊢
  have size : 0 < 2 ^ (regions k).baseRegionLsb := Nat.two_pow_pos _
  generalize 2 ^ (regions k).baseRegionLsb = size_ at begins size ⊢
  obtain ⟨m, rfl⟩ := Nat.dvd_of_mod_eq_zero begins
  rw [Nat.mul_div_cancel_left m size, Nat.div_eq_iff size]
  constructor
  · rintro ⟨low, high⟩
    constructor
    · rwa [Nat.mul_comm]
    · rw [Nat.mul_comm]
      omega
  · rintro ⟨low, high⟩
    rw [Nat.mul_comm] at low high
    exact ⟨low, by omega⟩

theorem apart_of_bounds {regions : Fin n → Region} (aligned : Aligned regions)
    (bounds : ∀ j k, j ≠ k → (regions j).enable = true → (regions k).enable = true →
      (regions j).baseAddr.toNat + 2 ^ (regions j).baseRegionLsb ≤ (regions k).baseAddr.toNat ∨
      (regions k).baseAddr.toNat + 2 ^ (regions k).baseRegionLsb ≤ (regions j).baseAddr.toNat) :
    Apart regions := by
  intro addr j k inJ inK
  rw [selects_iff aligned] at inJ inK
  by_contra other
  have bound := bounds j k other inJ.1 inK.1
  omega

def port (n : Nat) : Option (Fin n) ≃ Fin (n + 1) :=
  (Equiv.optionCongr Fin.revPerm).trans (finSuccEquiv n).symm

@[simp] theorem port_none : port n none = 0 := by
  simp [port]

@[simp] theorem port_some (k : Fin n) : port n (some k) = k.rev.succ := by
  simp [port]

theorem oIcb_eq (regions : Fin n → Region) (fifo : QueueCircuit (BitVec (n + 1)))
    (s : State dp fifo) (k : Fin n) :
    oIcb regions fifo s k = spltIcb regions fifo s (port n (some k)) := by
  rw [port_some]
  rfl

theorem concat_port {α : Type} (o : Fin n → α) (deft : α) (k : Option (Fin n)) :
    concat o deft (port n k) = k.elim deft o := by
  cases k with
  | none => rw [port_none]; rfl
  | some k =>
      rw [port_some]
      show o k.rev.rev = o k
      rw [Fin.rev_rev]

/-- The output a command is for. Without a command the default slave is indicated. -/
def target (regions : Fin n → Region) (buf : IcbDown) : Option (Fin n) :=
  if buf.cmdValid then decode regions buf.cmd.addr else none

theorem map_target (regions : Fin n → Region) (buf : IcbDown) (up : IcbUp) :
    (icbCmd buf up).map (target regions buf, ·) =
      (icbCmd buf up).map fun c => (decode regions c.addr, c) := by
  unfold icbCmd target
  rw [map_handshake, map_handshake]
  unfold handshake
  split_ifs with accepted valid
  · rfl
  · simp_all
  · rfl

theorem selects_eq {regions : Fin n → Region} (apart : Apart regions) (addr : BitVec 32)
    (k : Fin n) : selects regions addr k = decide (decode regions addr = some k) := by
  rw [Bool.eq_iff_iff, decide_eq_true_iff]
  unfold decode
  constructor
  · intro here
    cases found : (List.finRange n).find? (selects regions addr) with
    | none => exact absurd here (List.find?_eq_none.mp found k (List.mem_finRange k))
    | some j => rw [apart addr j k (List.find?_some found) here]
  · exact fun found => List.find?_some found

theorem icbCmdO_eq {regions : Fin n → Region} (apart : Apart regions) (buf : IcbDown)
    (k : Fin n) : icbCmdO regions buf k = decide (target regions buf = some k) := by
  unfold icbCmdO target
  rw [selects_eq apart]
  cases buf.cmdValid <;> simp

theorem icbCmdDeft_eq {regions : Fin n → Region} (apart : Apart regions) (buf : IcbDown) :
    icbCmdDeft regions buf = decide (target regions buf = none) := by
  unfold icbCmdDeft
  rw [funext (icbCmdO_eq apart buf), Bool.eq_iff_iff]
  simp [Option.eq_none_iff_forall_ne_some]

theorem indicated {regions : Fin n → Region} (apart : Apart regions) (buf : IcbDown) :
    OneHot (bufIcbSpltIndic regions buf) (port n (target regions buf)) := by
  refine oneHot_bits fun p => ?_
  obtain ⟨k, rfl⟩ := (port n).surjective p
  rw [concat_port, Bool.eq_iff_iff, decide_eq_true_iff, (port n).apply_eq_iff_eq]
  cases k with
  | none => rw [Option.elim_none, icbCmdDeft_eq apart, decide_eq_true_iff, eq_comm]
  | some k => rw [Option.elim_some, icbCmdO_eq apart, decide_eq_true_iff, eq_comm]

def deftService : IcbService where
  State := Unit
  serve := fun _ _ => ((), { err := true, rdata := 0 })
  start := ()

theorem deftService_at (down : Nat → IcbDown) :
    deftService.At down fun t => deftIcb (down t) := by
  intro m
  have answers (s : deftService.State) (xs : List IcbCmd) : replies deftService.serve s xs =
      xs.map fun _ => { err := true, rdata := 0 } := by
    induction xs with
    | nil => rfl
    | cons x xs step => exact congrArg _ step
  have answered (t : Nat) : icbRsp (down t) (deftIcb (down t)) =
      (icbCmd (down t) (deftIcb (down t))).map fun _ => { err := true, rdata := 0 } :=
    (map_handshake (fun _ : IcbCmd => ({ err := true, rdata := 0 } : IcbRsp)) _ _ _).symm
  rw [answers, ← events_map, ← funext answered]

def busService (regions : Fin n → Region) (outputs : Fin n → IcbService) : IcbService where
  State := ∀ k : Option (Fin n), (k.elim deftService outputs).State
  serve := dispatched (fun c => decode regions c.addr) fun k =>
    (k.elim deftService outputs).serve
  start := fun k => (k.elim deftService outputs).start

theorem busService_answer (regions : Fin n → Region) (outputs : Fin n → IcbService)
    (before : List IcbCmd) {c : IcbCmd} {k : Fin n} (here : decode regions c.addr = some k) :
    (busService regions outputs).answer before c =
      (outputs k).answer (before.filter fun c => decide (decode regions c.addr = some k)) c := by
  let at_ (k : Option (Fin n)) : IcbService := k.elim deftService outputs
  have own : served (dispatched (fun c : IcbCmd => decode regions c.addr) fun k => (at_ k).serve)
      (fun k => (at_ k).start) before (some k) = served (at_ (some k)).serve (at_ (some k)).start
        (before.filter fun c => decide (decode regions c.addr = some k)) := by
    rw [served_dispatched, served_routed, filterMap_atPort]
  have routed_ (state : ∀ k, (at_ k).State) (d : Option (Fin n)) (same : d = some k) :
      ((at_ d).serve (state d) c).2 = ((at_ (some k)).serve (state (some k)) c).2 := by
    rw [same]
  exact (routed_ _ _ here).trans (congrArg (fun state => ((at_ (some k)).serve state c).2) own)

section Run

variable {regions : Fin n → Region} {fifo : QueueCircuit (BitVec (n + 1))}
  {s : Nat → State dp fifo} {i : Nat → IcbDown} {o : Nat → Fin n → IcbUp}

theorem ports_at {outputs : Fin n → IcbService}
    (served : ∀ k, (outputs k).At (fun t => oIcb regions fifo (s t) k) fun t => o t k)
    (k : Option (Fin n)) : (k.elim deftService outputs).At
      (fun t => spltIcb regions fifo (s t) (port n k))
      fun t => spltBusIcb regions fifo (s t) (o t) (port n k) := by
  unfold spltBusIcb
  simp only [concat_port]
  cases k with
  | none =>
      rw [port_none]
      exact deftService_at _
  | some k =>
      rw [port_some]
      exact served k

/-- At the input of the bus the services of the outputs are one service: a command goes to
the output whose region its address lies in, or to the default slave, and the responses come
in the order of the commands. -/
theorem serves (apart : Apart regions) (cut : fifo.flow = false) (positive : 0 < dp)
    (trace : ∀ t, s (t + 1) = step regions fifo (s t) (i t) (o t)) (initial : IsReset (s 0))
    {outputs : Fin n → IcbService}
    (served : ∀ k, (outputs k).At (fun t => oIcb regions fifo (s t) k) fun t => o t k) :
    (busService regions outputs).At i fun t => iIcb fifo (s t) := by
  obtain ⟨sources, ordered⟩ := SirvGnrlIcbSplt.serves (s := fun t => (s t).splt) cut
    (fun t => congrArg State.splt (trace t)) initial.splt (fun t => indicated apart _) (port n)
    (ports_at served)
  have routes (t : Nat) : (icbCmd (bufIcb fifo (s t))
      (bufIcbUp regions fifo (s t) (o t))).map
        ((port n).symm (port n (target regions (bufIcb fifo (s t)))), ·) =
      (icbCmd (bufIcb fifo (s t)) (bufIcbUp regions fifo (s t) (o t))).map
        fun c => (decode regions c.addr, c) := by
    rw [Equiv.symm_apply_apply]
    exact map_target regions _ _
  have plain (t : Nat) : ((icbRsp (bufIcb fifo (s t))
      (bufIcbUp regions fifo (s t) (o t))).map (sources t, ·)).map Prod.snd =
        icbRsp (bufIcb fifo (s t)) (bufIcbUp regions fifo (s t) (o t)) := by
    rw [Option.map_map]
    exact Option.map_id'
  have inner : Serves (routed fun k => (k.elim deftService outputs).serve)
      (fun k => (k.elim deftService outputs).start)
      (fun t => (icbCmd (bufIcb fifo (s t))
        (bufIcbUp regions fifo (s t) (o t))).map fun c => (decode regions c.addr, c))
      fun t => (icbRsp (bufIcb fifo (s t))
        (bufIcbUp regions fifo (s t) (o t))).map (sources t, ·) := by
    rw [← funext routes]
    exact ordered
  have whole := inner.dispatched
  rw [funext plain] at whole
  exact whole.trans
    (SirvGnrlIcbBuffer.commands_isPrefix (s := fun t => (s t).buffer) positive
      (fun t => congrArg State.buffer (trace t)) initial.cmdFifo)
    (SirvGnrlIcbBuffer.responses_isPrefix (s := fun t => (s t).buffer) positive
      (fun t => congrArg State.buffer (trace t)) initial.rspFifo)

/-- The ports of the splitter whose commands are under way, when as many commands as the
buffer has places for responses have not been answered yet: a response from one of these ports
is taken at once. -/
theorem exists_under_way (apart : Apart regions) (cut : fifo.flow = false) (positive : 0 < dp)
    (trace : ∀ t, s (t + 1) = step regions fifo (s t) (i t) (o t)) (initial : IsReset (s 0))
    {outputs : Fin n → IcbService}
    (served : ∀ k, (outputs k).At (fun t => oIcb regions fifo (s t) k) fun t => o t k)
    (few : ∀ m, (events (fun t => icbCmd (i t) (iIcb fifo (s t))) m).length ≤
      (events (fun t => icbRsp (i t) (iIcb fifo (s t))) m).length + dp) :
    ∃ q : Nat → List (Fin (n + 1)), q 0 = [] ∧
      (∀ t, fifo.Holds (s t).splt ((q t).map fun k => BitVec.twoPow (n + 1) k.val)) ∧
      (∀ t, Conserves
        (fun t => (icbCmd (bufIcb fifo (s t)) (bufIcbUp regions fifo (s t) (o t))).map fun _ =>
          port n (target regions (bufIcb fifo (s t))))
        (fun t => (icbRsp (bufIcb fifo (s t)) (bufIcbUp regions fifo (s t) (o t))).map fun _ =>
          SirvGnrlIcbSplt.source (q t) (port n (target regions (bufIcb fifo (s t))))) q t) ∧
      ∀ t, q t ≠ [] → (bufIcb fifo (s t)).rspReady = true := by
  obtain ⟨q, holds, ordered⟩ := SirvGnrlIcbSplt.exists_under_way (s := fun t => (s t).splt) cut
    (fun t => congrArg State.splt (trace t)) initial.splt (fun t => indicated apart _) (port n)
    (ports_at served)
  have empty : q 0 = [] := ordered 0
  refine ⟨q, empty, holds, (conserved_iff empty).mp ordered, fun t waits => ?_⟩
  obtain ⟨kept, ready, responses⟩ := SirvGnrlIcbBuffer.exists_responses
    (s := fun t => (s t).buffer) positive (fun t => congrArg State.buffer (trace t))
    initial.rspFifo t
  have entering : (events (fun t => icbCmd (bufIcb fifo (s t))
        (bufIcbUp regions fifo (s t) (o t))) t).length ≤
      (events (fun t => icbCmd (i t) (iIcb fifo (s t))) t).length :=
    (SirvGnrlIcbBuffer.commands_isPrefix (s := fun t => (s t).buffer) positive
      (fun t => congrArg State.buffer (trace t)) initial.cmdFifo t).length_le
  have between : (events (fun t => icbRsp (bufIcb fifo (s t))
        (bufIcbUp regions fifo (s t) (o t))) t).length + (q t).length =
      (events (fun t => icbCmd (bufIcb fifo (s t))
        (bufIcbUp regions fifo (s t) (o t))) t).length := by
    have lengths := congrArg List.length (ordered t)
    rwa [List.length_append, length_events_map, length_events_map] at lengths
  have leaving : (events (fun t => icbRsp (i t) (iIcb fifo (s t))) t).length + kept.length =
      (events (fun t => icbRsp (bufIcb fifo (s t))
        (bufIcbUp regions fifo (s t) (o t))) t).length := by
    rw [← List.length_append]
    exact congrArg List.length responses
  have waiting : 0 < (q t).length := List.length_pos_of_ne_nil waits
  have bound := few t
  refine ready.trans (decide_eq_true ?_)
  omega

/-- With one command under way at a time, a slave that responds in the cycle after a command
is never kept waiting. -/
theorem rspReady_of_prompt (apart : Apart regions) (cut : fifo.flow = false)
    (positive : 0 < dp) (single : fifo.depth = 1)
    (trace : ∀ t, s (t + 1) = step regions fifo (s t) (i t) (o t)) (initial : IsReset (s 0))
    {outputs : Fin n → IcbService}
    (served : ∀ k, (outputs k).At (fun t => oIcb regions fifo (s t) k) fun t => o t k)
    (few : ∀ m, (events (fun t => icbCmd (i t) (iIcb fifo (s t))) m).length ≤
      (events (fun t => icbRsp (i t) (iIcb fifo (s t))) m).length + dp) {k : Fin n}
    (silent : (o 0 k).rspValid = false)
    (prompt : ∀ t, (o (t + 1) k).rspValid =
      ((icbCmd (oIcb regions fifo (s t) k) (o t k)).isSome ||
        ((o t k).rspValid && !(oIcb regions fifo (s t) k).rspReady)))
    (t : Nat) (valid : (o t k).rspValid = true) :
    (oIcb regions fifo (s t) k).rspReady = true := by
  obtain ⟨q, empty, holds, conserves, taken⟩ :=
    exists_under_way apart cut positive trace initial served few
  have ready (t : Nat) (here : q t = [port n (some k)]) :
      (oIcb regions fifo (s t) k).rspReady = true := by
    rw [oIcb_eq, spltIcb, SirvGnrlIcbSplt.oIcb_rspReady (holds t) (indicated apart _),
      taken t (by rw [here]; exact List.cons_ne_nil _ _), here, Bool.and_true]
    exact decide_eq_true rfl
  suffices waiting : ∀ t, (o t k).rspValid = true → q t = [port n (some k)] from
    ready t (waiting t valid)
  intro t
  induction t with
  | zero =>
      intro valid
      rw [silent] at valid
      cases valid
  | succ t held =>
      intro valid
      have asked : (icbCmd (oIcb regions fifo (s t) k) (o t k)).isSome = true := by
        rw [prompt t, Bool.or_eq_true] at valid
        refine valid.resolve_right fun waits => ?_
        obtain ⟨valid, unready⟩ := (Bool.and_eq_true _ _).mp waits
        rw [ready t (held valid)] at unready
        cases unready
      have own : spltBusIcb regions fifo (s t) (o t) (port n (some k)) = o t k :=
        concat_port _ _ _
      rw [oIcb_eq, ← own, spltIcb, SirvGnrlIcbSplt.oIcb_icbCmd (indicated apart _)] at asked
      change (((icbCmd (bufIcb fifo (s t)) (bufIcbUp regions fifo (s t) (o t))).map
        (port n (target regions (bufIcb fifo (s t))), ·)).bind _).isSome = true at asked
      have conserved := conserves t
      unfold Conserves at conserved
      beta_reduce at conserved
      cases accepted : icbCmd (bufIcb fifo (s t)) (bufIcbUp regions fifo (s t) (o t)) with
      | none =>
          rw [accepted] at asked
          cases asked
      | some c =>
          have here : port n (target regions (bufIcb fifo (s t))) = port n (some k) := by
            by_contra other
            rw [accepted, Option.map_some, Option.bind_some, atPort_ne other] at asked
            cases asked
          have room := SirvGnrlIcbSplt.length_lt (holds t) (indicated apart _) cut
            (Option.isSome_iff_exists.mpr ⟨c, accepted⟩)
          obtain before : q t = [] := List.length_eq_zero_iff.mp (by omega)
          have quiet : icbRsp (bufIcb fifo (s t)) (bufIcbUp regions fifo (s t) (o t)) = none := by
            unfold icbRsp handshake
            refine if_neg fun both => ?_
            have offered : (bufIcbUp regions fifo (s t) (o t)).rspValid = true :=
              ((Bool.and_eq_true _ _).mp both).1
            rw [bufIcbUp, SirvGnrlIcbSplt.iIcb_rspValid (holds t) (indicated apart _), before,
              SirvGnrlIcbSplt.source, List.head?_nil, Option.getD_none, here, own] at offered
            have full := held offered
            rw [before] at full
            cases full
          rw [accepted, quiet, before, here] at conserved
          exact conserved

theorem commands_isPrefix (apart : Apart regions) (positive : 0 < dp)
    (trace : ∀ t, s (t + 1) = step regions fifo (s t) (i t) (o t)) (initial : IsReset (s 0))
    (k : Fin n) (m : Nat) :
    events (fun t => icbCmd (oIcb regions fifo (s t) k) (o t k)) m <+:
      (events (fun t => icbCmd (i t) (iIcb fifo (s t))) m).filter
        fun c => decide (decode regions c.addr = some k) := by
  have behind (t : Nat) : icbCmd (oIcb regions fifo (s t) k) (o t k) =
      (icbCmd (bufIcb fifo (s t)) (bufIcbUp regions fifo (s t) (o t))).filter
        fun c => decide (decode regions c.addr = some k) := by
    have own : spltBusIcb regions fifo (s t) (o t) (port n (some k)) = o t k :=
      concat_port _ _ _
    have routed := map_target regions (bufIcb fifo (s t)) (bufIcbUp regions fifo (s t) (o t))
    rw [oIcb_eq, ← own, spltIcb, SirvGnrlIcbSplt.oIcb_icbCmd (indicated apart _)]
    show ((icbCmd (bufIcb fifo (s t)) (bufIcbUp regions fifo (s t) (o t))).map
      (port n (target regions (bufIcb fifo (s t))), ·)).bind _ = _
    cases accepted : icbCmd (bufIcb fifo (s t)) (bufIcbUp regions fifo (s t) (o t)) with
    | none => rfl
    | some c =>
        rw [accepted] at routed
        have same : target regions (bufIcb fifo (s t)) = decode regions c.addr :=
          congrArg Prod.fst (Option.some.inj routed)
        rw [Option.map_some, Option.bind_some, atPort, same]
        simp only [Option.filter, decide_eq_true_eq, (port n).apply_eq_iff_eq]
  have order := SirvGnrlIcbBuffer.commands_isPrefix (s := fun t => (s t).buffer) positive
    (fun t => congrArg State.buffer (trace t)) initial.cmdFifo m
  rw [funext behind, events_filter]
  exact order.filter _

/-- Each output sees the commands for its region in their order, and the input sees the
responses in the order of all commands, with an error where no region has the address. -/
structure Routes (regions : Fin n → Region) (outputs : Fin n → IcbService)
    (down : Nat → IcbDown) (up : Nat → IcbUp) (oDown : Nat → Fin n → IcbDown)
    (oUp : Nat → Fin n → IcbUp) : Prop where
  commands : ∀ k m, events (fun t => icbCmd (oDown t k) (oUp t k)) m <+:
    (events (fun t => icbCmd (down t) (up t)) m).filter
      fun c => decide (decode regions c.addr = some k)
  responses : (busService regions outputs).At down up

theorem routes (apart : Apart regions) (cut : fifo.flow = false) (positive : 0 < dp)
    (trace : ∀ t, s (t + 1) = step regions fifo (s t) (i t) (o t)) (initial : IsReset (s 0))
    {outputs : Fin n → IcbService}
    (served : ∀ k, (outputs k).At (fun t => oIcb regions fifo (s t) k) fun t => o t k) :
    Routes regions outputs i (fun t => iIcb fifo (s t)) (fun t => oIcb regions fifo (s t)) o :=
  ⟨commands_isPrefix apart positive trace initial,
    serves apart cut positive trace initial served⟩

end Run

/-! A bus with two outputs at which every command is answered at once. The commands go to the
first one, to the second one and to no region. -/

def twoRegions : Fin 2 → Region
  | 0 => { baseAddr := 0, baseRegionLsb := 12, enable := true }
  | 1 => { baseAddr := 0x1000, baseRegionLsb := 12, enable := true }

theorem apart_twoRegions : Apart twoRegions :=
  apart_of_bounds (by unfold Aligned; decide) (by decide)

theorem twoOuts_pos : 0 < 4 := by decide

def twoOuts : QueueCircuit (BitVec 3) :=
  SirvGnrlFifo.circuit 4 3 twoOuts_pos true

def inTurn (t : Nat) : IcbDown where
  cmdValid := true
  cmd := { read := true, addr := BitVec.ofNat 32 (0x1000 * (t % 3)), wdata := 0, wmask := 0 }
  rspReady := true

def prompt (s : State 2 twoOuts) (k : Fin 2) : IcbUp :=
  deftIcb (oIcb twoRegions twoOuts s k)

def inTurnRun : Nat → State 2 twoOuts :=
  run (fun s i => step twoRegions twoOuts s i (prompt s))
    { buffer := { cmdFifo := SirvGnrlFifo.reset, rspFifo := SirvGnrlFifo.reset }
      splt := (SirvGnrlFifo.reset : SirvGnrlFifo.State 4 3) } inTurn

theorem routes_inTurn : Routes twoRegions (fun _ => deftService) inTurn
    (fun t => iIcb twoOuts (inTurnRun t)) (fun t => oIcb twoRegions twoOuts (inTurnRun t))
    fun t => prompt (inTurnRun t) :=
  routes apart_twoRegions rfl Nat.two_pos (fun _ => rfl)
    ⟨SirvGnrlFifo.isReset_reset, SirvGnrlFifo.isReset_reset, SirvGnrlFifo.isReset_reset⟩
    fun _ => deftService_at _

end SirvIcb1toNBus

end RepVGGAcc
