import RepVGGAcc.Clocked.ShiftLine
import RepVGGAcc.Rtl.SystolicArray

/-! The line buffers of one lane. The three rows of processing elements and the
registers between them form one shift line of 115 positions, in which a
processing element of the kernel sees one pixel of the window. -/

namespace RepVGGAcc.SystolicArray

open Clocked

/-- The shift line: position `j` is `imap_pipe[j+1]`. -/
def line (s : State) (j : Nat) : BitVec 8 :=
  imapPipe s 0 (j + 1)

theorem line_linePe (s : State) (l k : Fin 3) :
    line s (56 * l + k) = (s.linePe l k).imapR := by
  have row : (56 * l.val + k.val + 1 - 1) / lineBufLen = l := by
    unfold lineBufLen
    omega
  have column : (56 * l.val + k.val + 1 - 1) % lineBufLen = k := by
    unfold lineBufLen
    omega
  unfold line imapPipe
  simp only [row, column, l.isLt, k.isLt, and_self, dif_pos, Nat.succ_ne_zero, if_false]

theorem line_lineShiftReg (s : State) (l : Fin 2) (k : Fin 53) :
    line s (56 * l + 3 + k) = s.lineShiftReg l k := by
  have row : (56 * l.val + 3 + k.val + 1 - 1) / lineBufLen = l := by
    unfold lineBufLen
    omega
  have column : (56 * l.val + 3 + k.val + 1 - 1) % lineBufLen = 3 + k := by
    unfold lineBufLen
    omega
  unfold line imapPipe
  simp only [row, column]
  rw [if_neg (by omega), dif_neg (by omega), dif_pos ⟨l.isLt, by omega, by omega⟩]
  congr 1
  exact Fin.ext (by simp)

theorem imapPipe_succ (s : State) (x : BitVec 8) (j : Nat) :
    imapPipe s x (j + 1) = line s j := rfl

theorem line_cases {j : Nat} (inside : j < 115) :
    (∃ l k : Fin 3, j = 56 * l + k) ∨ (∃ (l : Fin 2) (k : Fin 53), j = 56 * l + 3 + k) := by
  by_cases pe : j % 56 < 3
  · exact Or.inl ⟨⟨j / 56, by omega⟩, ⟨j % 56, pe⟩, (Nat.div_add_mod j 56).symm⟩
  · refine Or.inr ⟨⟨j / 56, by omega⟩, ⟨j % 56 - 3, by omega⟩, ?_⟩
    show j = 56 * (j / 56) + 3 + (j % 56 - 3)
    omega

theorem line_step (s : State) (i : Input) {j : Nat} (inside : j < 115) :
    line (step s i) j = if i.pipeEn then imapPipe s i.imapIn j else line s j := by
  rcases line_cases inside with ⟨l, k, rfl⟩ | ⟨l, k, rfl⟩
  · rw [line_linePe, line_linePe]
    rfl
  · rw [line_lineShiftReg, line_lineShiftReg]
    rfl

/-- The line of a lane holds the last of the `count` pixels it has taken, and
the two other takers of the window's centre have kept pace with it. -/
structure Holds (pixel : Nat → BitVec 8) (count : Nat) (s : State) : Prop where
  line : HoldsLast 115 (line s) pixel count
  pe1x1 : 57 < count → s.pe1x1.imapR = pixel (count - 58)
  identity : 57 < count → s.identityD 0 = pixel (count - 58)

namespace Holds

variable {pixel : Nat → BitVec 8} {count : Nat} {s : State} {i : Input}

theorem zero (pixel : Nat → BitVec 8) (s : State) : Holds pixel 0 s where
  line := HoldsLast.zero _ _ _
  pe1x1 := fun absurdity => absurd absurdity (by omega)
  identity := fun absurdity => absurd absurdity (by omega)

theorem step_enabled (held : Holds pixel count s) (enabled : i.pipeEn = true)
    (taken : i.imapIn = pixel count) : Holds pixel (count + 1) (step s i) := by
  have centre (filled : 57 < count + 1) : imapPipe s i.imapIn 57 = pixel (count - 57) := by
    rw [imapPipe_succ, held.line 56 (by omega) (by omega)]
    congr 1
  refine ⟨held.line.enter ?_ ?_, fun filled => ?_, fun filled => ?_⟩
  · rw [line_step s i (by omega), if_pos enabled]
    exact taken
  · intro j inside
    rw [line_step s i inside, if_pos enabled, imapPipe_succ]
  · show sirvGnrlDfflr i.pipeEn (imapPipe s i.imapIn 57) s.pe1x1.imapR = _
    rw [enabled, sirvGnrlDfflr_true, centre filled]
    congr 1
  · show dfflrChain i.pipeEn (imapPipe s i.imapIn 57) s.identityD 0 = _
    rw [enabled, dfflrChain_true_zero, centre filled]
    congr 1

theorem step_stalled (held : Holds pixel count s) (stalled : i.pipeEn = false) :
    Holds pixel count (step s i) := by
  refine ⟨held.line.keep ?_, fun filled => ?_, fun filled => ?_⟩
  · intro j inside
    rw [line_step s i inside, stalled]
    rfl
  · show sirvGnrlDfflr i.pipeEn _ s.pe1x1.imapR = _
    rw [stalled, sirvGnrlDfflr_false, held.pe1x1 filled]
  · show dfflrChain i.pipeEn _ s.identityD 0 = _
    rw [stalled, dfflrChain_false, held.identity filled]

theorem linePe_imapR (held : Holds pixel count s) (l k : Fin 3)
    (filled : 56 * l + k < count) :
    (s.linePe l k).imapR = pixel (count - 1 - (56 * l + k)) := by
  rw [← line_linePe]
  exact held.line _ (by omega) filled

end Holds

end RepVGGAcc.SystolicArray
