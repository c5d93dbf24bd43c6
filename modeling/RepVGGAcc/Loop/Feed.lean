import Mathlib.Logic.Function.Basic
import Mathlib.Data.List.Range

/-! Streams that are written into arrays: each datum goes to the place to which counters in
the state point. -/

namespace Loop

variable {σ δ κ α : Type} {turn : σ → δ → σ} {datum : Nat → δ} {m n : Nat}

def feed (turn : σ → δ → σ) (datum : Nat → δ) (n : Nat) (s : σ) : σ :=
  ((List.range n).map datum).foldl turn s

theorem feed_succ (turn : σ → δ → σ) (datum : Nat → δ) (n : Nat) (s : σ) :
    feed turn datum (n + 1) s = turn (feed turn datum n s) (datum n) := by
  unfold feed
  rw [List.range_succ, List.map_append, List.foldl_append]
  rfl

attribute [irreducible] feed

theorem feed_invariant {P : Nat → σ → Prop} {s : σ} (start : P 0 s)
    (each : ∀ k < n, ∀ s, P k s → P (k + 1) (turn s (datum k))) :
    P n (feed turn datum n s) := by
  induction n with
  | zero =>
      unfold feed
      exact start
  | succ n held =>
      rw [feed_succ]
      exact each n (Nat.lt_succ_self n) _
        (held fun k more => each k (Nat.lt_succ_of_lt more))

theorem feed_add (turn : σ → δ → σ) (datum : Nat → δ) (m n : Nat) (s : σ) :
    feed turn datum (m + n) s =
      feed turn (fun k => datum (m + k)) n (feed turn datum m s) := by
  induction n with
  | zero =>
      unfold feed
      rfl
  | succ n same => rw [← Nat.add_assoc, feed_succ, same, feed_succ]

/-- Before datum `k` the counters stand at `k`, and datum `k` is written as `value k` to
`place k`. -/
structure Fills (turn : σ → δ → σ) (datum : Nat → δ) (n : Nat) (Counts : Nat → σ → Prop)
    (array : σ → κ → α) (place : Nat → κ) (value : Nat → α) : Prop where
  counts : ∀ k < n, ∀ s, Counts k s → Counts (k + 1) (turn s (datum k))
  written : ∀ k < n, ∀ s, Counts k s → array (turn s (datum k)) (place k) = value k
  kept : ∀ k < n, ∀ s, Counts k s → ∀ x, x ≠ place k → array (turn s (datum k)) x = array s x

section Fills

variable {Counts : Nat → σ → Prop} {array : σ → κ → α} {place : Nat → κ} {value : Nat → α}

theorem Fills.counted (fills : Fills turn datum n Counts array place value) {s : σ}
    (start : Counts 0 s) : Counts n (feed turn datum n s) :=
  feed_invariant start fills.counts

/-- When all places are different, each holds its datum in the end. -/
theorem Fills.filled (fills : Fills turn datum n Counts array place value) {s : σ}
    (start : Counts 0 s)
    (apart : ∀ j < n, ∀ k < n, place j = place k → j = k) {k : Nat} (inside : k < n) {x : κ}
    (here : place k = x) : array (feed turn datum n s) x = value k := by
  let Filled (m : Nat) (s : σ) : Prop :=
    m ≤ n → Counts m s ∧ ∀ k < m, array s (place k) = value k
  have filled : Filled n (feed turn datum n s) := by
    refine feed_invariant (fun _ => ⟨start, fun k none => absurd none (Nat.not_lt_zero k)⟩)
      fun m within s held _ => ?_
    obtain ⟨counted, before⟩ := held within.le
    refine ⟨fills.counts m within s counted, fun k less => ?_⟩
    obtain earlier | rfl := (Nat.le_of_lt_succ less).lt_or_eq
    · have other : place k ≠ place m := fun same => by
        have equal := apart k (by omega) m within same
        omega
      rw [fills.kept m within s counted _ other]
      exact before k earlier
    · exact fills.written k within s counted
  rw [← here]
  exact (filled le_rfl).2 k inside

end Fills

theorem feed_kept {Counts : Nat → σ → Prop} {β : Type} (see : σ → β)
    (counts : ∀ k < n, ∀ s, Counts k s → Counts (k + 1) (turn s (datum k)))
    (kept : ∀ k < n, ∀ s, Counts k s → see (turn s (datum k)) = see s) {s : σ}
    (start : Counts 0 s) : see (feed turn datum n s) = see s := by
  have held := feed_invariant (P := fun k s' => Counts k s' ∧ see s' = see s) ⟨start, rfl⟩
    fun k within s' before =>
      ⟨counts k within s' before.1, (kept k within s' before.1).trans before.2⟩
  exact held.2

end Loop
