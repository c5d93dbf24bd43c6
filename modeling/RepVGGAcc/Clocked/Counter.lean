import Mathlib.Data.BitVec
import Mathlib.Tactic.SplitIfs

/-! Counters that wrap, and the positions they stand for. -/

namespace Clocked

/-- The successor of a counter of `width` bits that returns to 0 after `last`. -/
def wrapCount (last width cnt : Nat) : Nat :=
  if cnt = last then 0 else (cnt + 1) % 2 ^ width

theorem wrapCount_mod {last width : Nat} (fits : last < 2 ^ width) (n : Nat) :
    wrapCount last width (n % (last + 1)) = (n + 1) % (last + 1) := by
  have inside : n % (last + 1) < last + 1 := Nat.mod_lt _ (by omega)
  unfold wrapCount
  split_ifs with atLast
  · rw [Nat.add_mod, atLast, Nat.add_mod_mod, Nat.mod_self]
  · rw [Nat.mod_eq_of_lt (by omega), Nat.add_mod n 1,
      Nat.add_mod_mod, Nat.mod_eq_of_lt (by omega : n % (last + 1) + 1 < last + 1)]

end Clocked
