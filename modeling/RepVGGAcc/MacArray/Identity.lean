import RepVGGAcc.MacArray.Stream

/-! The identity path. The lane of the identity byte, and the bit of the tag that tells
whose byte is kept, follow the channel counter of the moment, not of the item. -/

namespace RepVGGAcc.MacArray

open Clocked

/-- The item handed over after `n` others. -/
def IsItem (s : Nat → State) (i : Nat → Input) (n : Nat) (item : Item) : Prop :=
  ∃ t, Nat.count (fun u => (accepted (s u) (i u)).isSome = true) t = n ∧
    accepted (s t) (i t) = some item

theorem IsItem.unique {s : Nat → State} {i : Nat → Input} {n : Nat} {item item' : Item}
    (isItem : IsItem s i n item) (isItem' : IsItem s i n item') : item = item' := by
  obtain ⟨t, number, now⟩ := isItem
  obtain ⟨t', number', now'⟩ := isItem'
  obtain rfl : t = t' := Nat.count_injective (by simp [now]) (by simp [now'])
    (number.trans number'.symm)
  exact Option.some.inj (now.symm.trans now')

/-- The output channel, the group and the pixel of item `n`. -/
def outCh (n : Nat) : Nat :=
  n / 6272

def inGroup (n : Nat) : Nat :=
  n / 3136 % 2

def mapPixel (n : Nat) : Nat :=
  n % 3136

/-- The lane of a channel's own map, in the group that holds it. -/
def lane (ch : Nat) : Fin 32 :=
  ⟨ch % 32, Nat.mod_lt ch (by decide)⟩

/-- The identity path is in step: bit 13 tells the half of the output channels, and in the
group that holds the channel's own map the identity byte is the pixel of that channel. -/
def InStep (pixel : Nat → BitVec 256) (n : Nat) (item : Item) : Prop :=
  (item.info.outChHigh = true ↔ 32 ≤ outCh n) ∧
    (inGroup n = outCh n / 32 →
      item.data.extractLsb' 56 8 = MacArrayCore.laneIn (pixel n) (lane (outCh n)))

/-- The tag is taken when the counter is six pixels ahead. -/
theorem outChHigh_scan (skew n : Nat) :
    (MacArrayFsm.macArray2psumAccInfo (MacArrayFsm.scan skew (65 + n))).outChHigh =
      decide (min (n + 6) 401408 / 6272 % 64 / 32 = 1) := by
  show (MacArrayFsm.position (65 + n) / 6272 % 64).testBit 5 = _
  rw [MacArrayFsm.position, show 65 + n - 59 = n + 6 by omega,
    Nat.testBit_eq_decide_div_mod_eq]
  exact decide_eq_decide.mpr (by omega)

/-- The lane is selected when the counter is three pixels ahead. -/
theorem identitySel_scan (skew : Nat) {n : Nat} (inRun : n < 401408) :
    MacArrayFsm.identitySel (MacArrayFsm.scan skew (62 + n)) =
      lane (if n % 6272 < 6269 then outCh n else outCh n + 1) := by
  apply Fin.ext
  show MacArrayFsm.position (62 + n) / 6272 % 64 % 32 = _ % 32
  rw [MacArrayFsm.position, outCh]
  split_ifs <;> omega

namespace Streams

variable {pixel : Nat → BitVec 256} {skew : Fin 3136} {done : Bool} {s : Nat → State}
  {i : Nat → Input} {n : Nat}

theorem exists_isItem (run : Streams pixel skew done s i) (inRun : n < 401408) :
    ∃ item, IsItem s i n item ∧
      item.info.outChHigh = decide (min (n + 6) 401408 / 6272 % 64 / 32 = 1) ∧
      item.data.extractLsb' 56 8 = MacArrayCore.laneIn (pixel n)
        (lane (if n % 6272 < 6269 then outCh n else outCh n + 1)) := by
  have fsm : (s (66 + n)).macArrayFsm = MacArrayFsm.scan skew (65 + n) := by
    rw [show 66 + n = 65 + n + 1 by omega]
    exact run.fsm_eq (by omega)
  have sent : MacArrayFsm.handover (s (66 + n)).macArrayFsm (fsmInput (i (66 + n))) = true := by
    have now := run.unstalled.handover_succ (e := 65 + n) (by omega)
    rw [show 65 + n + 1 = 66 + n by omega] at now
    exact now.trans (decide_eq_true (by omega))
  have isSome (u : Nat) : (accepted (s u) (i u)).isSome = true ↔
      MacArrayFsm.handover (s u).macArrayFsm (fsmInput (i u)) = true := by
    unfold accepted
    split_ifs <;> simp_all
  have number : Nat.count (fun u => (accepted (s u) (i u)).isSome = true) (66 + n) = n := by
    have counted := run.unstalled.count_handover (e := 65 + n) (by omega)
    simp only [isSome]
    rw [show 65 + n + 1 = 66 + n by omega, Nat.add_sub_cancel_left] at counted
    exact counted
  have data := data_latency run.trace inRun (run.window_holds inRun)
    (by rw [run.window_fsm inRun, MacArrayFsm.peEn_scan]) (run.window_enabled inRun)
  rw [show 60 + n + 3 = 62 + n + 1 by omega, run.fsm_eq (by omega), identitySel_scan _ inRun,
    show 60 + n + 6 = 66 + n by omega] at data
  refine ⟨_, ⟨66 + n, number, if_pos sent⟩, ?_, ?_⟩
  · rw [fsm, outChHigh_scan]
  · rw [data, identity_itemData]

end Streams

theorem outChHigh_iff {n : Nat} (inRun : n < 401408) :
    (min (n + 6) 401408 / 6272 % 64 / 32 = 1 ↔ 32 ≤ outCh n) ↔ n % 200704 < 200698 := by
  unfold outCh
  omega

theorem identityLane_iff (pixel : BitVec 256) {n : Nat} (inRun : n < 401408) :
    (inGroup n = outCh n / 32 →
        MacArrayCore.laneIn pixel (lane (if n % 6272 < 6269 then outCh n else outCh n + 1)) =
          MacArrayCore.laneIn pixel (lane (outCh n))) ↔
      outCh n < 32 ∨ inGroup n = 0 ∨ mapPixel n < 3133 ∨
        MacArrayCore.laneIn pixel (lane (outCh n + 1)) =
          MacArrayCore.laneIn pixel (lane (outCh n)) := by
  by_cases early : n % 6272 < 6269
  · rw [if_pos early]
    refine iff_of_true (fun _ => rfl) ?_
    unfold inGroup mapPixel
    omega
  · rw [if_neg early]
    have second : inGroup n = 1 := by
      unfold inGroup
      omega
    have last : ¬ mapPixel n < 3133 := by
      unfold mapPixel
      omega
    have range : outCh n < 64 := by
      unfold outCh
      omega
    rw [second]
    by_cases high : 32 ≤ outCh n
    · have half : 1 = outCh n / 32 := by omega
      simp [← half, last, not_lt.mpr high]
    · have half : ¬ 1 = outCh n / 32 := by omega
      simp [half, not_le.mp high]

/-- The identity path is in step with the convolution but for the last six pixels of the
channels 31 and 63, and for the last three of the channels from 32 on where the next lane
differs. -/
theorem inStep_iff {pixel : Nat → BitVec 256} {skew : Fin 3136} {done : Bool}
    {s : Nat → State} {i : Nat → Input} (run : Streams pixel skew done s i) {n : Nat}
    (inRun : n < 401408) :
    (∃ item, IsItem s i n item ∧ InStep pixel n item) ↔
      n % 200704 < 200698 ∧
        (outCh n < 32 ∨ inGroup n = 0 ∨ mapPixel n < 3133 ∨
          MacArrayCore.laneIn (pixel n) (lane (outCh n + 1)) =
            MacArrayCore.laneIn (pixel n) (lane (outCh n))) := by
  obtain ⟨item, isItem, high, identity⟩ := run.exists_isItem inRun
  have only : (∃ item, IsItem s i n item ∧ InStep pixel n item) ↔ InStep pixel n item := by
    constructor
    · rintro ⟨item', isItem', inStep⟩
      rwa [isItem.unique isItem']
    · exact fun inStep => ⟨item, isItem, inStep⟩
  rw [only, ← outChHigh_iff inRun, ← identityLane_iff (pixel n) inRun, InStep, high, identity,
    decide_eq_true_eq]

/-- Pixel 3133 of channel 32 with the second group, on a stream that counts. -/
theorem inStep_iff_stream : let n := 3136 * 65 + 3133
    (∃ item, IsItem (run step reset (stream (BitVec.ofNat 256))) (stream (BitVec.ofNat 256)) n
        item ∧ InStep (BitVec.ofNat 256) n item) ↔
      n % 200704 < 200698 ∧
        (outCh n < 32 ∨ inGroup n = 0 ∨ mapPixel n < 3133 ∨
          MacArrayCore.laneIn (BitVec.ofNat 256 n) (lane (outCh n + 1)) =
            MacArrayCore.laneIn (BitVec.ofNat 256 n) (lane (outCh n))) :=
  inStep_iff (streams_stream rfl (BitVec.ofNat 256)) (by decide)

/-- Pixel 3130 of channel 31 is tagged as one of the upper channels. -/
theorem inStep_fails :
    ¬ ∀ (pixel : Nat → BitVec 256) (skew : Fin 3136) (done : Bool) (s : Nat → State)
      (i : Nat → Input), Streams pixel skew done s i →
      ∀ n < 401408, ∃ item, IsItem s i n item ∧ InStep pixel n item := by
  intro always
  have run : Streams _ 0 false (run step reset (stream fun _ => 0)) _ :=
    streams_stream rfl fun _ => 0
  obtain ⟨item, isItem, inStep⟩ := always _ _ _ _ _ run 200698 (by decide)
  obtain ⟨item', isItem', high, -⟩ := run.exists_isItem (n := 200698) (by decide)
  obtain rfl := isItem.unique isItem'
  exact absurd (inStep.1.mp high) (by decide)

end RepVGGAcc.MacArray
