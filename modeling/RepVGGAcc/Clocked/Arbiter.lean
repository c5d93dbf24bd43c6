import RepVGGAcc.Clocked.Channel
import Mathlib.Data.Nat.Count
import Mathlib.Tactic.Common

/-! A port that one unit at a time holds. A unit asks for words, hands over one command
for each and receives one response for each command. It gives the port back when all the
words it has asked for have come. -/

namespace Clocked

variable {U : Type}

/-- Only the unit that holds the port has commands under way. -/
structure Served (grant : U) (asked issued received : U → Nat) : Prop where
  issued_le : ∀ u, issued u ≤ asked u
  received_le : ∀ u, received u ≤ issued u
  settled : ∀ u, u ≠ grant → received u = issued u

/-- The units whose commands are under way, in the order of the commands. -/
def underWay (grant : U) (issued received : U → Nat) : List U :=
  List.replicate (issued grant - received grant) grant

/-- A count that goes up by one with an event. -/
def tally [DecidableEq U] (event : Option U) (count : U → Nat) (u : U) : Nat :=
  count u + if event = some u then 1 else 0

theorem toList_eq_replicate [DecidableEq U] {event : Option U} {u : U}
    (only : ∀ v, event = some v → v = u) :
    event.toList = List.replicate (if event = some u then 1 else 0) u := by
  cases event with
  | none => rfl
  | some v =>
      obtain rfl := only v rfl
      rw [if_pos rfl]
      rfl

/-- One cycle of the port: `issuer` hands over a command, `receiver` gets a response, and
the port passes from `grant` to `next`. -/
structure PortCycle (grant next : U) (asked issued received : U → Nat)
    (issuer receiver : Option U) : Prop where
  issues : ∀ u, issuer = some u → u = grant ∧ issued u < asked u
  receives : ∀ u, receiver = some u → u = grant ∧ received u < issued u
  releases : next ≠ grant → received grant = asked grant

namespace PortCycle

variable {grant next : U} {asked issued received : U → Nat} {issuer receiver : Option U}

theorem rests (cycle : PortCycle grant next asked issued received issuer receiver)
    (served : Served grant asked issued received) (leaves : next ≠ grant) :
    issuer = none ∧ receiver = none ∧ received grant = issued grant := by
  have all := cycle.releases leaves
  have issuedBound := served.issued_le grant
  have receivedBound := served.received_le grant
  refine ⟨Option.eq_none_iff_forall_not_mem.mpr fun u issue => ?_,
    Option.eq_none_iff_forall_not_mem.mpr fun u receive => ?_, by omega⟩
  · obtain ⟨rfl, more⟩ := cycle.issues u issue
    omega
  · obtain ⟨rfl, more⟩ := cycle.receives u receive
    omega

variable [DecidableEq U]

theorem served (cycle : PortCycle grant next asked issued received issuer receiver)
    (served : Served grant asked issued received) {asked' : U → Nat}
    (grows : ∀ u, asked u ≤ asked' u) :
    Served next asked' (tally issuer issued) (tally receiver received) where
  issued_le := fun u => by
    have bound := served.issued_le u
    have grown := grows u
    unfold tally
    split_ifs with issue
    · have more := (cycle.issues u issue).2
      omega
    · omega
  received_le := fun u => by
    have bound := served.received_le u
    unfold tally
    by_cases receive : receiver = some u
    · have more := (cycle.receives u receive).2
      rw [if_pos receive]
      omega
    · rw [if_neg receive]
      omega
  settled := fun u other => by
    unfold tally
    by_cases holds : u = grant
    · subst holds
      obtain ⟨noIssue, noReceive, all⟩ := cycle.rests served (Ne.symm other)
      rw [noIssue, noReceive, all]
    · rw [if_neg fun receive => holds (cycle.receives u receive).1,
        if_neg fun issue => holds (cycle.issues u issue).1, served.settled u holds]

theorem underWay_of_leaves
    (cycle : PortCycle grant next asked issued received issuer receiver)
    (served : Served grant asked issued received) (leaves : next ≠ grant) :
    underWay next (tally issuer issued) (tally receiver received) = [] := by
  obtain ⟨noIssue, noReceive, -⟩ := cycle.rests served leaves
  unfold underWay tally
  simp [noIssue, noReceive, served.settled next leaves]

/-- Responses leave the commands under way in the order in which they were handed over. -/
theorem conserves (cycle : PortCycle grant next asked issued received issuer receiver)
    (served : Served grant asked issued received) :
    receiver.toList ++ underWay next (tally issuer issued) (tally receiver received) =
      underWay grant issued received ++ issuer.toList := by
  by_cases leaves : next = grant
  · subst leaves
    have bound := served.received_le next
    unfold underWay tally
    rw [toList_eq_replicate fun u receive => (cycle.receives u receive).1,
      toList_eq_replicate fun u issue => (cycle.issues u issue).1,
      ← List.replicate_add, ← List.replicate_add]
    congr 1
    by_cases receive : receiver = some next
    · have more := (cycle.receives next receive).2
      rw [if_pos receive]
      omega
    · rw [if_neg receive]
      omega
  · obtain ⟨noIssue, noReceive, all⟩ := cycle.rests served leaves
    rw [cycle.underWay_of_leaves served leaves, underWay, noIssue, noReceive, all]
    simp

end PortCycle

end Clocked
