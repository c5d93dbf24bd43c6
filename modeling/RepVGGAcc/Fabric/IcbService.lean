import RepVGGAcc.Clocked.Service
import RepVGGAcc.Fabric.GnrlIcbs

/-! What is behind an interface of the ICB bus: a service that answers commands. -/

namespace RepVGGAcc

open Clocked

/-- A service that takes commands one at a time and gives a response to each of them. -/
structure IcbService where
  State : Type
  serve : State → IcbCmd → State × IcbRsp
  start : State

/-- The responses at an interface are those of the service to the commands there. -/
def IcbService.At (service : IcbService) (down : Nat → IcbDown) (up : Nat → IcbUp) : Prop :=
  Serves service.serve service.start (fun t => icbCmd (down t) (up t))
    fun t => icbRsp (down t) (up t)

/-- The ports of an interface see what the service does when it takes the commands one at a
time, in the order in which they are accepted. -/
structure IcbService.Linearizes {n : Nat} (service : IcbService)
    (request : Nat → Option (Fin n × IcbCmd)) (down : Nat → Fin n → IcbDown)
    (up : Nat → Fin n → IcbUp) : Prop where
  accepts : ∀ k t, (request t).bind (atPort k) = icbCmd (down t k) (up t k)
  answers : ∀ k m, events (fun t => icbRsp (down t k) (up t k)) m <+:
    (replies (tagged service.serve) service.start (events request m)).filterMap (atPort k)

theorem IcbService.Linearizes.of_serves {n : Nat} {service : IcbService}
    {request : Nat → Option (Fin n × IcbCmd)} {response : Nat → Option (Fin n × IcbRsp)}
    {down : Nat → Fin n → IcbDown} {up : Nat → Fin n → IcbUp}
    (serves : Serves (tagged service.serve) service.start request response)
    (requests : ∀ k t, (request t).bind (atPort k) = icbCmd (down t k) (up t k))
    (responses : ∀ k t, (response t).bind (atPort k) = icbRsp (down t k) (up t k)) :
    service.Linearizes request down up := by
  refine ⟨requests, fun k m => ?_⟩
  have own := serves.events_atPort k m
  simp only [responses] at own
  exact own

def IcbService.answer (service : IcbService) (before : List IcbCmd) (c : IcbCmd) : IcbRsp :=
  (service.serve (served service.serve service.start before) c).2

theorem IcbService.Linearizes.length_le {n : Nat} {service : IcbService}
    {request : Nat → Option (Fin n × IcbCmd)} {down : Nat → Fin n → IcbDown}
    {up : Nat → Fin n → IcbUp} (linearizes : service.Linearizes request down up) (k : Fin n)
    (m : Nat) : (events (fun t => icbRsp (down t k) (up t k)) m).length ≤
      (events (fun t => icbCmd (down t k) (up t k)) m).length := by
  have bound := (linearizes.answers k m).length_le
  rw [length_replies_atPort, ← events_bind] at bound
  simpa only [linearizes.accepts] using bound

/-- A service of some kind, of which only the number of the responses is known. -/
def IcbService.recalled (answer : Nat → IcbRsp) : IcbService where
  State := Nat
  serve := Clocked.recalled answer
  start := 0

end RepVGGAcc
