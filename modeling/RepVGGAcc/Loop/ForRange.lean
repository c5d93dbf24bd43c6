import Mathlib.Algebra.BigOperators.Group.Finset.Basic
import Mathlib.Logic.Function.Basic

/-! Counting loops: what an invariant gives after the last turn, what a loop adds up, and
what nested loops leave in the array they write. -/

namespace Loop

open BigOperators

variable {σ : Type}

/-- `for (k = first; k < stop; k++) s = body k s`. -/
def forRange (first stop : Nat) (body : Nat → σ → σ) (s : σ) : σ :=
  (List.range' first (stop - first)).foldl (fun s k => body k s) s

section Rules

variable {first stop : Nat} {body : Nat → σ → σ}

theorem forRange_of_le (ended : stop ≤ first) (s : σ) : forRange first stop body s = s := by
  unfold forRange
  rw [Nat.sub_eq_zero_of_le ended]
  rfl

theorem forRange_succ (begun : first ≤ stop) (s : σ) :
    forRange first (stop + 1) body s = body stop (forRange first stop body s) := by
  unfold forRange
  rw [Nat.succ_sub begun, List.range'_1_concat, List.foldl_append, Nat.add_sub_cancel' begun]
  rfl

attribute [irreducible] forRange

theorem forRange_invariant {P : Nat → σ → Prop} (begun : first ≤ stop) {s : σ} (start : P first s)
    (turn : ∀ k s, first ≤ k → k < stop → P k s → P (k + 1) (body k s)) :
    P stop (forRange first stop body s) := by
  induction stop, begun using Nat.le_induction with
  | base =>
      rw [forRange_of_le le_rfl]
      exact start
  | succ stop begun held =>
      rw [forRange_succ begun]
      exact turn stop _ begun (Nat.lt_succ_self stop)
        (held fun k s from_ more => turn k s from_ (Nat.lt_succ_of_lt more))

theorem forRange_sum {M : Type} [AddCommMonoid M] (acc : σ → M) (f : Nat → M) {n : Nat}
    (adds : ∀ k s, k < n → acc (body k s) = acc s + f k) (s : σ) :
    acc (forRange 0 n body s) = acc s + ∑ k ∈ Finset.range n, f k := by
  refine forRange_invariant (P := fun k s' => acc s' = acc s + ∑ j ∈ Finset.range k, f j)
    (Nat.zero_le n) (by simp) fun k s' _ more held => ?_
  rw [adds k s' more, held, Finset.sum_range_succ, add_assoc]

theorem forRange_shift (d n : Nat) :
    forRange d (n + d) body = forRange 0 n fun k => body (k + d) := by
  funext s
  induction n with
  | zero => rw [Nat.zero_add, forRange_of_le le_rfl, forRange_of_le le_rfl]
  | succ n same =>
      rw [Nat.add_right_comm, forRange_succ (Nat.le_add_left d n), same,
        forRange_succ (Nat.zero_le n)]

end Rules

section Nested

variable {m n : Nat} {body : Nat → Nat → σ → σ}

/-- The turns of two nested loops are numbered through, from `a` on. -/
theorem forRange_nested_invariant {P : Nat → σ → Prop} {a : Nat} {s : σ} (start : P a s)
    (turn : ∀ i j s, i < m → j < n → P (a + n * i + j) s → P (a + n * i + j + 1) (body i j s)) :
    P (a + n * m) (forRange 0 m (fun i => forRange 0 n (body i)) s) := by
  refine forRange_invariant (P := fun i => P (a + n * i)) (Nat.zero_le m) start
    fun i s _ inside held => ?_
  rw [Nat.mul_succ, ← Nat.add_assoc]
  exact forRange_invariant (P := fun j => P (a + n * i + j)) (Nat.zero_le n) held
    fun j s _ inside' held => turn i j s inside inside' held

theorem forRange_nested_sum {M : Type} [AddCommMonoid M] (acc : σ → M) (f : Nat → M)
    (adds : ∀ i j s, i < m → j < n → acc (body i j s) = acc s + f (n * i + j)) (s : σ) :
    acc (forRange 0 m (fun i => forRange 0 n (body i)) s) =
      acc s + ∑ k ∈ Finset.range (n * m), f k := by
  have total := forRange_nested_invariant (m := m) (n := n) (a := 0) (s := s)
    (P := fun k s' => acc s' = acc s + ∑ j ∈ Finset.range k, f j) (by simp)
    fun i j s' inside inside' held => by
      rw [adds i j s' inside inside', held, Finset.sum_range_succ, Nat.zero_add, add_assoc]
  rwa [Nat.zero_add] at total

end Nested

section Arrays

variable {κ β : Type} {S : κ → Prop} {body : Nat → (κ → β) → κ → β}

theorem forRange_update [DecidableEq κ] {n : Nat} {key : Nat → κ} (apart : Function.Injective key)
    (value : Nat → β) (f : κ → β) {k : Nat} (inside : k < n) :
    forRange 0 n (fun k f => Function.update f (key k) (value k)) f (key k) = value k := by
  refine forRange_invariant (P := fun m (g : κ → β) => ∀ k < m, g (key k) = value k) (Nat.zero_le n)
    (fun k none => absurd none (Nat.not_lt_zero k)) ?_ k inside
  intro m g _ _ held k less
  by_cases last : k = m
  · rw [last, Function.update_self]
  · rw [Function.update_of_ne (apart.ne last)]
    exact held k (by omega)

theorem forRange_update_of_ne [DecidableEq κ] {n : Nat} {key : Nat → κ} (value : Nat → β)
    (f : κ → β) {x : κ} (other : ∀ k, x ≠ key k) :
    forRange 0 n (fun k f => Function.update f (key k) (value k)) f x = f x :=
  forRange_invariant (P := fun _ (g : κ → β) => g x = f x) (Nat.zero_le n) rfl
    fun k _ _ _ held => (Function.update_of_ne (other k) _ _).trans held

/-- The operation replaces each entry in `S` by a function of itself and keeps the others. -/
structure UpdatesAt (S : κ → Prop) (g : κ → β → β) (op : (κ → β) → κ → β) : Prop where
  inside : ∀ f x, S x → op f x = g x (f x)
  outside : ∀ f x, ¬ S x → op f x = f x

theorem updatesAt_update [DecidableEq κ] (key : κ) (g : κ → β → β) :
    UpdatesAt (· = key) g fun f => Function.update f key (g key (f key)) where
  inside := by
    rintro f x rfl
    exact Function.update_self _ _ _
  outside := fun f x other => Function.update_of_ne other _ _

theorem UpdatesAt.repeated {g : Nat → κ → β → β} {a b : Nat}
    (each : ∀ k, UpdatesAt S (g k) (body k)) :
    UpdatesAt S (fun x => forRange a b fun k => g k x) (forRange a b body) := by
  rcases Nat.le_total b a with empty | begun
  · constructor <;> intro f x _ <;> simp only [forRange_of_le empty]
  induction b, begun using Nat.le_induction with
  | base => constructor <;> intro f x _ <;> simp only [forRange_of_le le_rfl]
  | succ b begun held =>
      constructor
      · intro f x inside
        rw [forRange_succ begun, forRange_succ begun, (each b).inside _ x inside,
          held.inside f x inside]
      · intro f x outside
        rw [forRange_succ begun, (each b).outside _ x outside, held.outside f x outside]

/-- A loop whose turns work on entries of their own, told apart by a coordinate. -/
theorem UpdatesAt.forRange {S : Nat → κ → Prop} {g : κ → β → β} {a b : Nat} (coord : κ → Nat)
    (each : ∀ k, UpdatesAt (S k) g (body k)) (own : ∀ k x, S k x → coord x = k) :
    UpdatesAt (fun x => ∃ k, a ≤ k ∧ k < b ∧ S k x) g (forRange a b body) := by
  rcases Nat.le_total b a with empty | begun
  · refine ⟨?_, fun f x _ => by rw [forRange_of_le empty]⟩
    rintro f x ⟨k, from_, more, -⟩
    omega
  induction b, begun using Nat.le_induction with
  | base =>
      refine ⟨?_, fun f x _ => by rw [forRange_of_le le_rfl]⟩
      rintro f x ⟨k, from_, more, -⟩
      omega
  | succ b begun held =>
      constructor
      · rintro f x ⟨k, from_, more, inside⟩
        rw [forRange_succ begun]
        by_cases last : k = b
        · subst last
          rw [(each k).inside _ x inside, held.outside f x]
          rintro ⟨l, -, less, inside'⟩
          exact absurd ((own l x inside').symm.trans (own k x inside)) (by omega)
        · rw [(each b).outside _ x fun again =>
            last ((own k x inside).symm.trans (own b x again))]
          exact held.inside f x ⟨k, from_, by omega, inside⟩
      · intro f x outside
        rw [forRange_succ begun, (each b).outside _ x fun inside =>
          outside ⟨b, begun, Nat.lt_succ_self b, inside⟩]
        exact held.outside f x fun ⟨k, from_, more, inside⟩ =>
          outside ⟨k, from_, by omega, inside⟩

theorem UpdatesAt.forRange_cube {g : Nat × Nat × Nat → β → β}
    {body : Nat → Nat → Nat → (Nat × Nat × Nat → β) → Nat × Nat × Nat → β}
    (each : ∀ i j k, UpdatesAt (· = (i, j, k)) g (body i j k)) (a a' b b' c c' : Nat) :
    UpdatesAt (fun x => (a ≤ x.1 ∧ x.1 < a') ∧ (b ≤ x.2.1 ∧ x.2.1 < b') ∧ c ≤ x.2.2 ∧ x.2.2 < c') g
      (Loop.forRange a a' fun i => Loop.forRange b b' fun j => Loop.forRange c c' fun k =>
        body i j k) := by
  have line (i j : Nat) : UpdatesAt (fun x => ∃ k, c ≤ k ∧ k < c' ∧ x = (i, j, k)) g
      (Loop.forRange c c' (body i j)) :=
    UpdatesAt.forRange (fun x => x.2.2) (each i j) (by rintro k x rfl; rfl)
  have plane (i : Nat) : UpdatesAt
      (fun x => ∃ j, b ≤ j ∧ j < b' ∧ ∃ k, c ≤ k ∧ k < c' ∧ x = (i, j, k)) g
      (Loop.forRange b b' fun j => Loop.forRange c c' (body i j)) :=
    UpdatesAt.forRange (fun x => x.2.1) (line i) (by rintro j x ⟨k, -, -, rfl⟩; rfl)
  have cube := UpdatesAt.forRange (a := a) (b := a') (fun x => x.1) plane
    (by rintro i x ⟨j, -, -, k, -, -, rfl⟩; rfl)
  constructor
  · rintro f ⟨i, j, k⟩ ⟨⟨from_, more⟩, ⟨from_', more'⟩, from_'', more''⟩
    exact cube.inside f _ ⟨i, from_, more, j, from_', more', k, from_'', more'', rfl⟩
  · rintro f x outside
    refine cube.outside f x ?_
    rintro ⟨i, from_, more, j, from_', more', k, from_'', more'', rfl⟩
    exact outside ⟨⟨from_, more⟩, ⟨from_', more'⟩, from_'', more''⟩

end Arrays

end Loop
