import RepVGGAcc.System.OutputPath

/-! The first run from end to end: the words it writes are those of the layer over the
operands that the accelerator brings together. -/

namespace RepVGGAcc.RepvggAccTop

open Layer (reference routed)

/-- Up to cycle `stop` each word of the reference has been written to its address. -/
def WritesMap (settings : Settings) (memory : Memory) (stop : Nat) (s : Nat → State)
    (i : Nat → Input) : Prop :=
  ∀ och < 64, ∀ r < 56, ∀ c < 56, ∃ t ≤ stop,
    writeCommand (s t) (i t) = some {
      addr := wordAddr settings.outAddr (3136 * och + 56 * r + c)
      read := false
      wdata := (reference settings memory och).word r c }

namespace FirstRun

open MacArrayFsm (scan)

variable {L a stop : Nat} {s : Nat → State} {i : Nat → Input} {settings : Settings}
  {memory : Memory}

theorem itemWord_eq (settings : Settings) (memory : Memory) (och : Nat) (g : Fin 2) {p : Nat}
    (pixel : p < 3136) :
    itemWord settings memory (3136 * (2 * och + g) + p) =
      MacArray.itemData (laneWeight settings memory och g) (lanePixel settings memory)
        (MacArrayFsm.identitySel (scan 0 (62 + (3136 * (2 * och + g) + p))))
        (3136 * (2 * och + g) + p) := by
  have channel : (3136 * (2 * och + g) + p) / 6272 = och := by omega
  have group : (⟨(3136 * (2 * och + g) + p) / 3136 % 2, Nat.mod_lt _ two_pos⟩ : Fin 2) = g :=
    Fin.ext (by show (3136 * (2 * och + g.val) + p) / 3136 % 2 = g; omega)
  unfold itemWord
  rw [group, channel]

theorem identitySel_val {m : Nat} (inRun : m < 401408) :
    (MacArrayFsm.identitySel (scan 0 (62 + m))).val = (m + 3) / 6272 % 32 := by
  show MacArrayFsm.position (62 + m) / 6272 % 64 % 32 = _
  unfold MacArrayFsm.position
  omega

theorem identityChannel_val (och p : Nat) :
    (Layer.identityChannel och p).val =
      32 * ((if p < 3130 then och else och + 1) / 32 % 2) +
        (if (if p < 3130 then och else och + 1) / 32 % 2 = 1 ∧ 3133 ≤ p then och + 1 else och) %
          32 :=
  rfl

theorem identity_items (settings : Settings) (memory : Memory) {och p : Nat} (channel : och < 64)
    (pixel : p < 3136) :
    (if ((3136 * (2 * och + 1) + p + 6) / 6272 % 64).testBit 5 then
      lanePixel settings memory
        (MacArrayFsm.identitySel (scan 0 (62 + (3136 * (2 * och + 1) + p))))
        (3136 * (2 * och + 1) + p)
    else lanePixel settings memory
      (MacArrayFsm.identitySel (scan 0 (62 + (3136 * (2 * och) + p)))) (3136 * (2 * och) + p)) =
      (routed settings memory och).identity p := by
  have tag : ((3136 * (2 * och + 1) + p + 6) / 6272 % 64).testBit 5 =
      decide ((if p < 3130 then och else och + 1) / 32 % 2 = 1) := by
    rw [Nat.testBit_eq_decide_div_mod_eq]
    exact decide_eq_decide.mpr (by split_ifs <;> omega)
  have position := identityChannel_val och p
  show _ = Layer.routedPixel settings memory och p (Layer.identityChannel och p)
  rw [tag]
  by_cases high : (if p < 3130 then och else och + 1) / 32 % 2 = 1
  · have sel := identitySel_val (m := 3136 * (2 * och + 1) + p) (by omega)
    simp only [high, true_and] at position
    rw [decide_eq_true high, if_pos rfl]
    refine (lanePixel_eq channel pixel 1 _).trans (congrArg _ (Fin.ext ?_))
    show 32 * 1 + (MacArrayFsm.identitySel _).val = _
    rw [sel, position]
    split_ifs <;> omega
  · have sel := identitySel_val (m := 3136 * (2 * och) + p) (by omega)
    have low : (if p < 3130 then och else och + 1) / 32 % 2 = 0 := by omega
    simp only [low, Nat.zero_ne_one, false_and, if_false] at position
    rw [decide_eq_false high, if_neg Bool.false_ne_true]
    refine (lanePixel_eq channel pixel 0 _).trans (congrArg _ (Fin.ext ?_))
    show 32 * 0 + (MacArrayFsm.identitySel _).val = _
    rw [sel, position]
    omega

theorem word_items (settings : Settings) (memory : Memory) {och r c : Nat} (channel : och < 64)
    (row : r < 56) (column : c < 56) :
    MapMerger.mapMergerDataOut (PsumAcc.accumulate
        (((3136 * (2 * och + 1) + (56 * r + c) + 6) / 6272 % 64).testBit 5)
        (itemWord settings memory (3136 * (2 * och + 1) + (56 * r + c)))
        (itemWord settings memory (3136 * (2 * och) + (56 * r + c)))) =
      (routed settings memory och).word r c := by
  have pixel : 56 * r + c < 3136 := by omega
  have second := itemWord_eq settings memory och 1 pixel
  have first := itemWord_eq settings memory och 0 pixel
  rw [show (2 * och + (1 : Fin 2).val) = 2 * och + 1 from rfl] at second
  rw [show (2 * och + (0 : Fin 2).val) = 2 * och from rfl] at first
  rw [second, first]
  exact (feeds settings memory channel).mapMergerDataOut (by omega) row column
    (fun g => MacArrayFsm.identitySel (scan 0 (62 + (3136 * (2 * och + g) + (56 * r + c)))))
    (identity_items settings memory channel pixel)

/-- The cycle in which the word of pixel `p` of an output channel is handed to the bus. -/
def writeCycle (L a och p : Nat) : Nat :=
  a + (53549 + 2 * L + 6272 * och + p)

theorem writeCommand_pixel (run : FirstRun L a stop s i) (some_ : 1 ≤ L) (latency : L ≤ 1000)
    (settled : ∀ t, a ≤ t → t ≤ stop → settings.HeldBy (s t)) (regions : settings.Regions)
    (answers : Answers memory s i L) {och r c : Nat} (channel : och < 64) (row : r < 56)
    (column : c < 56) (within : writeCycle L a och (56 * r + c) ≤ stop) :
    writeCommand (s (writeCycle L a och (56 * r + c))) (i (writeCycle L a och (56 * r + c))) =
      some {
        addr := wordAddr settings.outAddr (3136 * och + 56 * r + c)
        read := false
        wdata := (routed settings memory och).word r c } := by
  have cycle : writeCycle L a och (56 * r + c) =
      itemCycle L a (3136 * (2 * och + 1) + (56 * r + c)) + 4 := by
    unfold writeCycle itemCycle scanStart
    omega
  have place : writeCycle L a och (56 * r + c) - a =
      53539 + 2 * L + 6272 * och + (10 + (56 * r + c)) := by
    unfold writeCycle
    omega
  have writing : (Control.timeline L (writeCycle L a och (56 * r + c) - a)).omapPipe = true := by
    rw [place, Control.timeline_channel latency (by omega) (by omega)]
    exact decide_eq_true (by omega)
  have number : Control.written L (writeCycle L a och (56 * r + c) - a) =
      3136 * och + 56 * r + c := by
    rw [place, Control.written_channel (by omega) (by omega), Control.mapDone]
    omega
  have data := run.omapPipe_item some_ latency (n := 3136 * (2 * och + 1) + (56 * r + c))
    (by omega) (by omega) (by omega)
  rw [arrayItem, arrayItem, show 3136 * (2 * och + 1) + (56 * r + c) - 3136 =
      3136 * (2 * och) + (56 * r + c) by omega] at data
  have item {n : Nat} (inRun : n < 401408)
      (early : n ≤ 3136 * (2 * och + 1) + (56 * r + c)) :
      MacArray.macArray2psumAccData (s (itemCycle L a n)).macArray =
        itemWord settings memory n := by
    refine run.item_eq some_ latency settled regions answers inRun ?_
    rw [cycle] at within
    unfold itemCycle at within
    omega
  rw [item (by omega) le_rfl, item (by omega) (by omega),
    word_items settings memory channel row column, ← cycle] at data
  rw [run.writeCommand_eq some_ latency within, if_pos writing, number, data,
    (settled _ (by unfold writeCycle; omega) within).outAddr]
  rfl

theorem writeCommand_cycle (run : FirstRun L a stop s i) (some_ : 1 ≤ L) (latency : L ≤ 1000)
    {t : Nat} (within : t ≤ stop) (writes : (writeCommand (s t) (i t)).isSome = true) :
    ∃ och < 64, ∃ r < 56, ∃ c < 56, t = writeCycle L a och (56 * r + c) := by
  rw [run.writeCommand_eq some_ latency within] at writes
  split_ifs at writes with writing
  · obtain ⟨u, rfl⟩ : ∃ u, t = a + u := by
      by_cases begun : a ≤ t
      · exact Nat.exists_eq_add_of_le begun
      · rw [(Control.omapPipe_early latency (by omega)).1] at writing
        cases writing
    rw [Nat.add_sub_cancel_left] at writing
    obtain weight | ⟨d, map, rfl⟩ | ⟨d, fill, rfl⟩ | ⟨n, last, d, channel, rfl⟩ :=
      Control.phase_cases L u
    · rw [(Control.omapPipe_early latency (by omega)).1] at writing
      cases writing
    · rw [(Control.omapPipe_early latency (by omega)).1] at writing
      cases writing
    · rw [(Control.omapPipe_early latency (by omega)).1] at writing
      cases writing
    · rw [Control.timeline_channel latency last (by omega)] at writing
      have inPhase := of_decide_eq_true writing
      refine ⟨n, by omega, (d - 10) / 56, by omega, (d - 10) % 56, by omega, ?_⟩
      unfold writeCycle
      omega
  · cases writes

section Answered

variable (run : FirstRun L a stop s i) (some_ : 1 ≤ L) (latency : L ≤ 1000)
  (settled : ∀ t, a ≤ t → t ≤ stop → settings.HeldBy (s t)) (regions : settings.Regions)
  (answers : Answers memory s i L)

include run some_ latency settled regions answers

theorem words_eq_of_writesMap (writes : WritesMap settings memory stop s i) :
    ∀ och < 64, ∀ r < 56, ∀ c < 56,
      (routed settings memory och).word r c = (reference settings memory och).word r c := by
  intro och channel r row c column
  obtain ⟨t, within, command⟩ := writes och channel r row c column
  obtain ⟨och', channel', r', row', c', column', rfl⟩ :=
    run.writeCommand_cycle some_ latency within (by rw [command]; rfl)
  rw [run.writeCommand_pixel some_ latency settled regions answers channel' row' column' within]
    at command
  obtain ⟨addr, -, data⟩ := BusUnits.Command.mk.inj (Option.some.inj command)
  have place := congrArg BitVec.toNat addr
  rw [regions.omap.toNat_wordAddr (by omega), regions.omap.toNat_wordAddr (by omega)] at place
  obtain ⟨rfl, rfl, rfl⟩ : och' = och ∧ r' = r ∧ c' = c := by omega
  exact data

theorem writesMap_of_words_eq (long : a + 451820 + 2 * L ≤ stop)
    (same : ∀ och < 64, ∀ r < 56, ∀ c < 56,
      (routed settings memory och).word r c = (reference settings memory och).word r c) :
    WritesMap settings memory stop s i := by
  intro och channel r row c column
  have within : writeCycle L a och (56 * r + c) ≤ stop := by
    unfold writeCycle
    omega
  refine ⟨_, within, ?_⟩
  rw [run.writeCommand_pixel some_ latency settled regions answers channel row column within,
    same och channel r row c column]

/-- The first run writes the map of the reference exactly if, for every output channel and
pixel, the operands it brings together give the same word as those of the reference. -/
theorem writesMap_iff (long : a + 451820 + 2 * L ≤ stop) :
    WritesMap settings memory stop s i ↔
      ∀ och < 64, ∀ r < 56, ∀ c < 56,
        (routed settings memory och).word r c = (reference settings memory och).word r c :=
  ⟨run.words_eq_of_writesMap some_ latency settled regions answers,
    run.writesMap_of_words_eq some_ latency settled regions answers long⟩

/-- On a uniform map with uniform kernels the first run writes the map of the reference. -/
theorem writesMap_uniform (long : a + 451820 + 2 * L ≤ stop) {x w3 w1 : BitVec 8}
    (imap : ∀ k < 50176, ∀ b < 4, memory.byteAt settings.inAddr k b = x)
    (kernel : ∀ k < 9216, ∀ b < 4, memory.byteAt settings.w3Addr k b = w3)
    (point : ∀ k < 1024, ∀ b < 4, memory.byteAt settings.w1Addr k b = w1) :
    WritesMap settings memory stop s i :=
  run.writesMap_of_words_eq some_ latency settled regions answers long
    fun _ channel _ row _ column => Layer.word_uniform imap kernel point channel row column

end Answered

theorem regions_offsets : System.offsets.Regions := by
  constructor <;> decide

/-- A memory with the pixel 1 in channel 0 of pixel 0, the 1x1 weight -1 for channel 0 of
output channel 0, and 0 everywhere else. -/
def sparse : Memory :=
  fun addr => if addr = 0 then 1 else if addr = 0x50000 then 0xff else 0

theorem writesMap_iff_sparse :
    WritesMap System.offsets sparse 500000 (System.top System.offsets sparse)
        (System.topInput System.offsets sparse) ↔
      ∀ och < 64, ∀ r < 56, ∀ c < 56,
        (routed System.offsets sparse och).word r c =
          (reference System.offsets sparse och).word r c :=
  writesMap_iff (System.firstRun System.offsets sparse 500000) (by decide) (by decide)
    (fun _ started _ => System.settled System.offsets sparse started) regions_offsets
    (System.answers System.offsets sparse) (by decide)

/-- Channel 0 of the map meets no weight of channel 0: the sum is 0 instead of -1. -/
theorem writesMap_fails :
    ¬ ∀ (settings : Settings) (memory : Memory) (a stop : Nat) (s : Nat → State)
      (i : Nat → Input), FirstRun 1 a stop s i →
      (∀ t, a ≤ t → t ≤ stop → settings.HeldBy (s t)) → settings.Regions →
      Answers memory s i 1 → a + 451820 + 2 * 1 ≤ stop →
      WritesMap settings memory stop s i := by
  intro claim
  have run := System.firstRun System.offsets sparse 500000
  have settled : ∀ t, 16 ≤ t → t ≤ 500000 →
      System.offsets.HeldBy (System.top System.offsets sparse t) :=
    fun _ started _ => System.settled System.offsets sparse started
  have answers := System.answers System.offsets sparse
  have writes := claim _ _ _ _ _ _ run settled regions_offsets answers (by decide)
  have same := run.words_eq_of_writesMap (by decide) (by decide) settled regions_offsets answers
    writes 0 (by decide) 0 (by decide) 0 (by decide)
  have wanted : (reference System.offsets sparse 0).word 0 0 = 0xff := by decide +kernel
  have got : (routed System.offsets sparse 0).word 0 0 = 0 := by decide +kernel
  rw [wanted, got] at same
  exact absurd same (by decide)

end FirstRun

end RepVGGAcc.RepvggAccTop
