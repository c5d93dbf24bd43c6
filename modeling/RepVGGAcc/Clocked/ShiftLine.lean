import Mathlib.Data.Nat.Basic

/-! Shift lines: registers in a row that pass on what enters at position 0. -/

namespace Clocked

/-- The first `length` positions of `line` hold the last of the `count` values
that have entered, the latest one in position 0. -/
def HoldsLast (length : Nat) (line value : Nat → α) (count : Nat) : Prop :=
  ∀ j < length, j < count → line j = value (count - 1 - j)

namespace HoldsLast

variable {length count : Nat} {line line' value : Nat → α}

theorem zero (length : Nat) (line value : Nat → α) : HoldsLast length line value 0 :=
  fun _ _ absurdity => absurd absurdity (Nat.not_lt_zero _)

theorem enter (held : HoldsLast length line value count) (head : line' 0 = value count)
    (moved : ∀ j, j + 1 < length → line' (j + 1) = line j) :
    HoldsLast length line' value (count + 1) := by
  intro j inside entered
  cases j with
  | zero => simpa using head
  | succ j =>
      rw [moved j inside, held j (by omega) (by omega)]
      congr 1
      omega

theorem keep (held : HoldsLast length line value count)
    (kept : ∀ j < length, line' j = line j) : HoldsLast length line' value count :=
  fun j inside entered => (kept j inside).trans (held j inside entered)

end HoldsLast

end Clocked
