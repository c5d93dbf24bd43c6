import RepVGGAcc.Control.Timeline

/-! The fetch of the input map in the first run: its commands, and the words that
arrive. -/

namespace RepVGGAcc.Control

open IcbMaster (Grant)
open ImapLoad (mapWords)

variable {L u : Nat}

def mapFetched (L u : Nat) : Nat :=
  min (u - (166 + 2 * L)) mapWords

def mapFetches (L u : Nat) : Bool :=
  (timeline L u).receives .imap (response L u)

theorem mapFetches_eq (latency : L ≤ 1000) (u : Nat) :
    mapFetches L u = decide (166 + 2 * L ≤ u ∧ u < 50342 + 2 * L) := by
  unfold mapFetches
  obtain weight | ⟨d, map, rfl⟩ | ⟨d, fill, rfl⟩ | ⟨n, last, d, channel, rfl⟩ :=
    phase_cases L u
  · rw [timeline_weight (by omega), decide_eq_false (by omega)]
    refine receives_of_ne ?_ _
    simp only [weightPhase, filling]
    grind
  · rw [timeline_imap (by omega), response_imap map]
    simp only [imapPhase, filling, receives, Burst.arrives]
    grind [mapWords]
  · rw [timeline_fill latency (by omega), decide_eq_false (by omega)]
    refine receives_of_ne ?_ _
    simp only [fillPhase, filling]
    grind
  · rw [timeline_channel latency last (by omega), decide_eq_false (by omega)]
    refine receives_of_ne ?_ _
    simp only [channelPhase]
    grind

theorem mapFetched_succ (latency : L ≤ 1000) (u : Nat) :
    mapFetched L (u + 1) = mapFetched L u + (mapFetches L u).toNat := by
  rw [mapFetches_eq latency]
  unfold mapFetched mapWords
  by_cases arrives : 166 + 2 * L ≤ u ∧ u < 50342 + 2 * L
  · rw [decide_eq_true arrives, Bool.toNat_true]
    omega
  · rw [decide_eq_false arrives, Bool.toNat_false]
    omega

theorem mapFetches_time (latency : L ≤ 1000) (arrives : mapFetches L u = true) :
    u = 166 + L + mapFetched L u + L ∧ mapFetched L u < mapWords := by
  rw [mapFetches_eq latency] at arrives
  have now := of_decide_eq_true arrives
  unfold mapFetched mapWords
  omega

theorem command_map {k : Nat} (inside : k < mapWords) :
    (timeline L (166 + L + k)).grant = .imap ∧ (timeline L (166 + L + k)).imap.issued = k := by
  unfold mapWords at inside
  rw [show 166 + L + k = 164 + L + (2 + k) by omega, timeline_imap (by omega)]
  refine ⟨if_pos (by omega), ?_⟩
  show (Burst.during mapWords L 1 2 (2 + k)).issued = k
  unfold Burst.during
  rw [if_neg (by omega)]
  show min (2 + k - 2) mapWords = k
  unfold mapWords
  omega

end RepVGGAcc.Control
