import Mathlib.Algebra.Order.Group.Nat
import Mathlib.Data.Nat.Count
import Mathlib.Tactic.Common

/-! A token that goes round a ring of stations. Each station has an event of its own, and
the event passes the token on. -/

namespace Clocked

/-- The token has passed `pos t` stations before cycle `t`. -/
structure GoesRound (stations : Nat) (pos : Nat → Nat) (event : Nat → Nat → Bool) : Prop where
  start : pos 0 = 0
  passes : ∀ t, pos (t + 1) = pos t + (event (pos t % stations) t).toNat
  here : ∀ c < stations, ∀ t, event c t = true → pos t % stations = c

theorem dvd_station_iff {stations c : Nat} (station : c < stations) (n : Nat) :
    stations ∣ n + (stations - 1 - c) + 1 ↔ n % stations = c := by
  have inside : n % stations < stations := Nat.mod_lt _ (by omega)
  have round : n + (stations - 1 - c) + 1 =
      stations * (n / stations) + (n % stations + (stations - c)) := by
    have located := Nat.div_add_mod n stations
    omega
  rw [round, Nat.dvd_add_right (Nat.dvd_mul_right _ _)]
  constructor
  · intro divides
    have once := Nat.eq_of_dvd_of_lt_two_mul (by omega) divides (by omega)
    omega
  · intro here
    have whole : n % stations + (stations - c) = stations := by omega
    exact whole.symm ▸ Nat.dvd_refl stations

namespace GoesRound

variable {stations : Nat} {pos : Nat → Nat} {event : Nat → Nat → Bool}

/-- How often a station has had its event is told by the position of the token. -/
theorem count_event (ring : GoesRound stations pos event) {c : Nat} (station : c < stations)
    (t : Nat) :
    Nat.count (fun u => event c u = true) t = (pos t + (stations - 1 - c)) / stations := by
  induction t with
  | zero => rw [Nat.count_zero, ring.start, Nat.div_eq_of_lt (by omega)]
  | succ t counted =>
      rw [Nat.count_succ, counted, ring.passes t]
      cases passed : event (pos t % stations) t with
      | false =>
          have unseen : ¬ event c t = true := fun now => by
            rw [ring.here c station t now, now] at passed
            cases passed
          rw [if_neg unseen, Bool.toNat_false]
          rfl
      | true =>
          have seen : event c t = true ↔ stations ∣ pos t + (stations - 1 - c) + 1 := by
            rw [dvd_station_iff station]
            refine ⟨ring.here c station t, fun here => ?_⟩
            rwa [here] at passed
          rw [Bool.toNat_true, Nat.add_right_comm, Nat.succ_div]
          simp only [seen]

theorem stays (ring : GoesRound stations pos event) {c t u : Nat} (at_ : pos t % stations = c)
    (unseen : ∀ u, t ≤ u → event c u = false) (later : t ≤ u) : pos u = pos t := by
  induction u, later using Nat.le_induction with
  | base => rfl
  | succ u later stayed =>
      rw [ring.passes, stayed, at_, unseen u later]
      rfl

theorem pos_le_succ (ring : GoesRound stations pos event) (t : Nat) :
    pos t ≤ pos (t + 1) ∧ pos (t + 1) ≤ pos t + 1 := by
  have bit := Bool.toNat_le (event (pos t % stations) t)
  rw [ring.passes t]
  omega

theorem exists_pos_succ (ring : GoesRound stations pos event) {t u : Nat} (later : t ≤ u)
    (comes : event (pos t % stations) u = true) : ∃ v, t ≤ v ∧ pos v = pos t + 1 := by
  by_contra never
  have stays (n : Nat) : pos (t + n) = pos t := by
    induction n with
    | zero => rfl
    | succ n stayed =>
        have bounds := ring.pos_le_succ (t + n)
        have moved : pos (t + (n + 1)) ≠ pos t + 1 := fun moved => never ⟨_, by omega, moved⟩
        rw [← Nat.add_assoc] at moved ⊢
        omega
  have stayed := stays (u - t)
  have next := ring.passes u
  rw [Nat.add_sub_cancel' later] at stayed
  rw [stayed, comes, Bool.toNat_true] at next
  exact never ⟨u + 1, by omega, next⟩

/-- When the event of its station always comes the token goes round for ever. -/
theorem exists_event (ring : GoesRound stations pos event)
    (comes : ∀ t, ∃ u, t ≤ u ∧ event (pos t % stations) u = true) {c : Nat}
    (station : c < stations) (t : Nat) : ∃ u, t ≤ u ∧ event c u = true := by
  have reaches (n : Nat) : ∃ u, t ≤ u ∧ pos u = pos t + n := by
    induction n with
    | zero => exact ⟨t, Nat.le_refl t, rfl⟩
    | succ n reached =>
        obtain ⟨u, later, here⟩ := reached
        obtain ⟨v, later', now⟩ := comes u
        obtain ⟨w, later'', next⟩ := ring.exists_pos_succ later' now
        exact ⟨w, by omega, by omega⟩
  have inside := Nat.mod_lt (pos t) (by omega : 0 < stations)
  obtain ⟨u, later, here⟩ := reaches (stations - pos t % stations + c)
  obtain ⟨v, later', now⟩ := comes u
  have round : pos u = stations * (pos t / stations + 1) + c := by
    have located := Nat.div_add_mod (pos t) stations
    rw [Nat.mul_succ]
    omega
  rw [round, Nat.mul_add_mod, Nat.mod_eq_of_lt station] at now
  exact ⟨v, by omega, now⟩

theorem next_event (ring : GoesRound stations pos event) {c t : Nat} (station : c + 1 < stations)
    (now : event c t = true)
    (comes : pos (t + 1) % stations = c + 1 → ∃ u, t + 1 ≤ u ∧ event (c + 1) u = true) :
    ∃ u, t < u ∧ event (c + 1) u = true := by
  have here := ring.here c (by omega) t now
  have next : pos (t + 1) % stations = c + 1 := by
    rw [ring.passes, here, now, Bool.toNat_true, Nat.add_mod, here,
      Nat.mod_eq_of_lt (by omega : 1 < stations), Nat.mod_eq_of_lt station]
  obtain ⟨u, later, event⟩ := comes next
  exact ⟨u, later, event⟩

end GoesRound

end Clocked
