import RepVGGAcc.MacArray.Items

/-! The weight buffers: a buffer changes only where the load port points. -/

namespace RepVGGAcc

namespace SystolicArray

theorem weightBuf_step (s : State) (i : Input) (tap : Fin 10) (buf : Fin 4) :
    weightBuf (step s i) tap buf =
      if i.weightLoadSel = buf ∧ i.weightLoadEn tap = true then i.weightLoad
      else weightBuf s tap buf := by
  by_cases inside : tap.val < 9
  · let pe : Fin 9 := (tap.castLT inside).rev
    have rev : pe.val = 8 - tap := by
      rw [Fin.val_rev]
      simp
    have place : (⟨8 - (3 * (peLine pe).val + (peColumn pe).val), by omega⟩ : Fin 10) =
        tap := by
      apply Fin.ext
      show 8 - (3 * (pe.val / 3) + pe.val % 3) = tap
      omega
    unfold weightBuf
    rw [dif_pos inside, dif_pos inside]
    show sirvGnrlDfflr (i.weightLoadSel == buf && i.weightLoadEn ⟨_, _⟩) i.weightLoad _ = _
    rw [place]
    simp [sirvGnrlDfflr]
  · obtain rfl : tap = 9 := Fin.ext (by simp; omega)
    show sirvGnrlDfflr (i.weightLoadSel == buf && i.weightLoadEn 9) i.weightLoad _ = _
    simp only [sirvGnrlDfflr, Bool.and_eq_true, beq_iff_eq]
    rfl

end SystolicArray

namespace MacArray

theorem weights_step (s : State) (i : Input) (sel : Fin 4) (lane : Fin 32)
    (tap : Fin 10) :
    weights (step s i).macArrayCore sel lane tap =
      if MacArrayWlu.weightLoadSel s.macArrayWlu (wluInput i) = sel ∧
          MacArrayWlu.weightLoadEn (wluInput i) lane tap = true then
        MacArrayWlu.weightLoad (wluInput i) lane
      else weights s.macArrayCore sel lane tap :=
  SystolicArray.weightBuf_step _ _ _ _

theorem weightLoadEn_of_not_wen {i : MacArrayWlu.Input} (unwritten : i.weightWen = false)
    (lane : Fin 32) (tap : Fin 10) : MacArrayWlu.weightLoadEn i lane tap = false := by
  simp [MacArrayWlu.weightLoadEn, MacArrayWlu.weightLoadEnBase, unwritten]

theorem weights_step_of_not_wen (s : State) {i : Input} (unwritten : i.weightWen = false) :
    weights (step s i).macArrayCore = weights s.macArrayCore := by
  funext sel lane tap
  rw [weights_step, weightLoadEn_of_not_wen (i := wluInput i) unwritten]
  simp

theorem weights_fixed {s : Nat → State} {i : Nat → Input} (trace : Clocked.IsTrace step s i)
    (fixed : ∀ t, (i t).weightWen = false) (t : Nat) :
    weights (s t).macArrayCore = weights (s 0).macArrayCore := by
  induction t with
  | zero => rfl
  | succ t held => rw [trace t, weights_step_of_not_wen _ (fixed t), held]

end MacArray

end RepVGGAcc
