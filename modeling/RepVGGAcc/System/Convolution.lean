import RepVGGAcc.Layer.Merge
import RepVGGAcc.MacArray.Feed
import RepVGGAcc.System.Delivery
import RepVGGAcc.System.Layout

/-! The items of the first run: what the array forms of the words that the memory has
delivered. -/

namespace RepVGGAcc.RepvggAccTop.FirstRun

open Clocked
open ImapLoad (byteOf mapWords pixelOf pixelWord)
open MacArray (ReadsUntil Steady bankSel pixelRead tapWord)
open MacArrayFsm (Scan scan)

variable {L a stop : Nat} {s : Nat → State} {i : Nat → Input} {settings : Settings}
  {memory : Memory}

/-- The map as `imap_buf` shows it, by the read address of the array. -/
def imapMemory (settings : Settings) (memory : Memory) (addr : Nat) : BitVec 256 :=
  pixelOf (fun k => memory.word (wordAddr settings.inAddr k)) (addr / 2 ^ 12) (addr % 2 ^ 12)

/-- The cycle of the first step of the scan. -/
def scanStart (L a : Nat) : Nat :=
  a + 50344 + 2 * L

theorem fsm_scan (run : FirstRun L a stop s i) (some_ : 1 ≤ L) (latency : L ≤ 1000) {e : Nat}
    (running : e < 401473) (within : scanStart L a + e ≤ stop) :
    (s (scanStart L a + e)).macArray.macArrayFsm = scan 0 e := by
  have shown := run.control_eq some_ latency within
  unfold scanStart at *
  rw [shown.fsm, Control.fsm_timeline latency, if_neg (by omega), Control.fsmAt,
    if_pos (by omega)]
  congr 1
  omega

theorem imapRen_cases (run : FirstRun L a stop s i) (some_ : 1 ≤ L) (latency : L ≤ 1000)
    {t : Nat} (within : t ≤ stop)
    (read : MacArrayFsm.imapRen (s t).macArray.macArrayFsm
      (MacArray.fsmInput (macInput (s t) (i t))) = true) :
    ∃ e < 401467, t = scanStart L a + e ∧ (s t).macArray.macArrayFsm = scan 0 e := by
  have shown := run.control_eq some_ latency within
  have fsm := shown.fsm
  rw [Control.fsm_timeline latency] at fsm
  split_ifs at fsm with early
  · rw [fsm] at read
    cases read
  · unfold Control.fsmAt at fsm
    split_ifs at fsm with running
    · rw [fsm, MacArrayFsm.imapRen_scan] at read
      have reading := of_decide_eq_true ((Bool.and_eq_true _ _).mp read).1
      refine ⟨t - a - (50344 + 2 * L), by omega, ?_, fsm⟩
      unfold scanStart
      omega
    · rw [fsm] at read
      cases read

section Answered

variable (run : FirstRun L a stop s i) (some_ : 1 ≤ L) (latency : L ≤ 1000)
  (settled : ∀ t, a ≤ t → t ≤ stop → settings.HeldBy (s t)) (regions : settings.Regions)
  (answers : Answers memory s i L)

include run some_ latency settled regions answers

theorem readsUntil :
    ReadsUntil stop (imapMemory settings memory) (fun t => (s t).macArray)
      (fun t => macInput (s t) (i t)) := by
  intro t within read
  obtain ⟨e, reading, rfl, fsm⟩ := run.imapRen_cases some_ latency within.le read
  have loaded := run.loaded some_ latency settled regions answers within.le
  have complete : Control.mapFetched L (scanStart L a + e - a) = mapWords := by
    unfold Control.mapFetched mapWords scanStart
    omega
  rw [complete] at loaded
  have silent : (imapBiuInput (s (scanStart L a + e)) (i (scanStart L a + e))).arb2imapBiuVld =
      false := by
    refine (run.imapVld_eq some_ latency within.le).trans
      ((Control.mapFetches_eq latency _).trans (decide_eq_false ?_))
    unfold scanStart
    omega
  have raddr : MacArrayFsm.imapRaddr (scan 0 e) =
      (decide (MacArrayFsm.position e / 3136 % 2 = 1)).toNat * 2 ^ 12 +
        (0 + min e 401467) % 3136 := rfl
  have group := (decide (MacArrayFsm.position e / 3136 % 2 = 1)).toNat_lt
  have reads : ImapBuf.Reads (imapBufInput (s (scanStart L a + e)) (i (scanStart L a + e)))
      (decide (MacArrayFsm.position e / 3136 % 2 = 1)).toNat ((0 + min e 401467) % 3136) := by
    refine ⟨?_, read, group, Nat.mod_lt _ (by decide), ?_⟩
    · show (_ && ImapBiu.receive _) = false
      rw [ImapBiu.receive_eq, silent, Bool.and_false]
    · show MacArrayFsm.imapRaddr (s (scanStart L a + e)).macArray.macArrayFsm = _
      rw [fsm, raddr]
  show ImapBuf.imapRdata (s (scanStart L a + e + 1)).imapBuf =
    imapMemory settings memory
      (MacArrayFsm.imapRaddr (s (scanStart L a + e)).macArray.macArrayFsm)
  rw [run.trace, fsm, raddr]
  refine (ImapLoad.imapRdata_loaded loaded reads).trans ?_
  unfold imapMemory
  congr 1 <;> omega

end Answered

/-- The scan of the first run begins after the fetch of the map and is never stalled. -/
structure ScansFrom (start stop : Nat) (s : Nat → State) (i : Nat → Input) (b : Nat → Scan) :
    Prop where
  scans : IsTrace Scan.step b fun t => MacArray.fsmInput (macInput (s t) (i t))
  image : ∀ t, (s t).macArray.macArrayFsm = (b t).toState
  steady : Steady stop b fun t => macInput (s t) (i t)
  rest : ∀ t < start, t ≤ stop → b t = .rest 0 false
  busy : ∀ e (running : e < 401473), start + e ≤ stop → b (start + e) = .busy 0 ⟨e, running⟩

theorem exists_scansFrom (run : FirstRun L a stop s i) (some_ : 1 ≤ L) (latency : L ≤ 1000) :
    ∃ b : Nat → Scan, ScansFrom (scanStart L a) stop s i b := by
  obtain ⟨b, start, scans, image⟩ := MacArrayFsm.exists_scan
    (MacArray.fsm_trace (macArray_trace run.trace))
    (congrArg MacArray.State.macArrayFsm run.initial.macArray)
  have convStart {t : Nat} (within : t ≤ stop) :
      (macInput (s t) (i t)).convStart = decide (t - a = 50343 + 2 * L) := by
    show (s t).mainFsm.convStart = _
    rw [(run.control_eq some_ latency within).main, Control.convStart_timeline latency]
  have ready {t : Nat} (within : t ≤ stop) :
      (macInput (s t) (i t)).macArray2psumAccRdy = true :=
    (run.control_eq some_ latency within).macArray2psumAccRdy
      (Control.fits_timeline latency (t - a)).flows
  have rest (t : Nat) (early : t < scanStart L a) (within : t ≤ stop) : b t = .rest 0 false := by
    induction t with
    | zero => exact start
    | succ t held =>
        have quiet : (macInput (s t) (i t)).convStart = false := by
          refine (convStart (by omega)).trans (decide_eq_false ?_)
          unfold scanStart at early
          omega
        rw [scans t, held (by omega) (by omega)]
        simp [Scan.step, MacArray.fsmInput, quiet]
  refine ⟨b, scans, image, fun t within _ _ _ _ => ready within.le, rest,
    fun e running within => ?_⟩
  induction e with
  | zero =>
      have last : scanStart L a = a + 50343 + 2 * L + 1 := by
        unfold scanStart
        omega
      have begins : (macInput (s (a + 50343 + 2 * L)) (i (a + 50343 + 2 * L))).convStart =
          true :=
        (convStart (by omega)).trans (decide_eq_true (by omega))
      rw [Nat.add_zero, last, scans, rest _ (by omega) (by omega)]
      simp [Scan.step, MacArray.fsmInput, begins]
  | succ e held =>
      have flows := ready (t := scanStart L a + e) (by omega)
      rw [← Nat.add_assoc, scans, held (by omega) (by omega)]
      simp [Scan.step, MacArray.fsmInput, flows, running]

/-! The operands of an item, by lane. -/

def laneWeight (settings : Settings) (memory : Memory) (och : Nat) (g : Fin 2) (lane : Fin 32)
    (tap : Fin 10) : BitVec 8 :=
  byteOf (memory.word (WeightBiu.burstAddr settings.w3Addr settings.w1Addr och
    (tapWord g lane tap))) (lane % 4)

def lanePixel (settings : Settings) (memory : Memory) (lane : Fin 32) (m : Nat) : BitVec 8 :=
  MacArrayCore.laneIn (pixelRead (imapMemory settings memory) 0 m) lane

def itemWord (settings : Settings) (memory : Memory) (n : Nat) : BitVec 64 :=
  MacArray.itemData (laneWeight settings memory (n / 6272) ⟨n / 3136 % 2, Nat.mod_lt _ two_pos⟩)
    (lanePixel settings memory) (MacArrayFsm.identitySel (scan 0 (62 + n))) n

theorem item_eq (run : FirstRun L a stop s i) (some_ : 1 ≤ L) (latency : L ≤ 1000)
    (settled : ∀ t, a ≤ t → t ≤ stop → settings.HeldBy (s t)) (regions : settings.Regions)
    (answers : Answers memory s i L) {n : Nat} (inRun : n < 401408)
    (within : scanStart L a + (65 + n) ≤ stop) :
    MacArray.macArray2psumAccData (s (scanStart L a + (65 + n))).macArray =
      itemWord settings memory n := by
  obtain ⟨b, scans⟩ := run.exists_scansFrom some_ latency
  have reads := run.readsUntil some_ latency settled regions answers
  have first : b 0 = .rest 0 false := scans.rest 0 (by unfold scanStart; omega) (by omega)
  obtain ⟨t, time, window, data⟩ := MacArray.data_of_busy (macArray_trace run.trace)
    (reads.mono within) scans.scans scans.image (scans.steady.mono within) first
    (scans.busy (65 + n) (by omega) within) rfl
  have here : MacArrayFsm.position (59 + n) = n := by
    unfold MacArrayFsm.position
    omega
  have outChCnt : (s t).macArray.macArrayFsm.outChCnt = n / 6272 := by
    rw [show (s t).macArray.macArrayFsm = scan 0 (59 + n) from window]
    show MacArrayFsm.position (59 + n) / 6272 % 64 = _
    rw [here]
    omega
  have computing : MacArrayFsm.arrayEn (s t).macArray.macArrayFsm = true := by
    rw [show (s t).macArray.macArrayFsm = scan 0 (59 + n) from window,
      MacArrayFsm.arrayEn_scan]
    exact decide_eq_true (by omega)
  obtain ⟨channel, answered, words⟩ := run.weights_computing some_ latency (by omega) computing
  rw [outChCnt] at channel answered words
  have sel : MacArrayFsm.weightSel (scan 0 (59 + n)) =
      bankSel (n / 6272) ⟨n / 3136 % 2, Nat.mod_lt _ two_pos⟩ := by
    refine Fin.ext ?_
    show 2 * (MacArrayFsm.position (59 + n) / 6272 % 64 % 2) +
      (decide (MacArrayFsm.position (59 + n) / 3136 % 2 = 1)).toNat =
        2 * (n / 6272 % 2) + n / 3136 % 2
    rw [here]
    rcases Nat.mod_two_eq_zero_or_one (n / 3136) with even | odd
    · rw [even, decide_eq_false (by decide)]
      show _ + 0 = _
      omega
    · rw [odd, decide_eq_true rfl]
      show _ + 1 = _
      omega
  have weights : MacArray.weights (s t).macArray.macArrayCore
      (MacArrayFsm.weightSel (scan 0 (59 + n))) =
      laneWeight settings memory (n / 6272) ⟨n / 3136 % 2, Nat.mod_lt _ two_pos⟩ := by
    funext lane tap
    rw [sel, words, run.weightWord_eq some_ latency settled regions answers channel
      (MacArray.tapWord_lt _ lane tap) (by omega)]
    rfl
  refine data.trans ?_
  show MacArray.itemData (MacArray.weights (s t).macArray.macArrayCore
    (MacArrayFsm.weightSel (scan 0 (59 + n)))) _ _ _ = _
  rw [weights]
  rfl

/-! The operands of an output channel are those of its two passes. -/

theorem lanePixel_eq {och p : Nat} (channel : och < 64) (pixel : p < 3136) (g : Fin 2)
    (lane : Fin 32) :
    lanePixel settings memory lane (3136 * (2 * och + g) + p) =
      Layer.routedPixel settings memory och p (Layer.channel g lane) := by
  have raddr : MacArrayFsm.imapRaddr (scan 0 (3136 * (2 * och + g) + p)) =
      Layer.readGroup (2 * och + g) p * 2 ^ 12 + p := by
    show (decide (MacArrayFsm.position (3136 * (2 * och + g) + p) / 3136 % 2 = 1)).toNat * 2 ^ 12 +
      (0 + min (3136 * (2 * och + g) + p) 401467) % 3136 = _
    have group : (decide (MacArrayFsm.position (3136 * (2 * och + g) + p) / 3136 % 2 = 1)).toNat =
        Layer.readGroup (2 * och + g) p := by
      unfold MacArrayFsm.position Layer.readGroup
      by_cases second : min (3136 * (2 * och + g.val) + p - 59) 401408 / 3136 % 2 = 1
      · rw [decide_eq_true second, Bool.toNat_true]
        split_ifs <;> omega
      · rw [decide_eq_false second, Bool.toNat_false]
        split_ifs <;> omega
    rw [group]
    omega
  unfold lanePixel pixelRead imapMemory
  rw [raddr, show (Layer.readGroup (2 * och + g) p * 2 ^ 12 + p) / 2 ^ 12 =
      Layer.readGroup (2 * och + g) p by omega,
    show (Layer.readGroup (2 * och + g) p * 2 ^ 12 + p) % 2 ^ 12 = p by omega,
    ImapLoad.laneIn_pixelOf]
  unfold Layer.routedPixel Memory.byteAt
  have position : (Layer.channel g lane).val = 32 * g + lane := rfl
  rw [position, show (32 * g.val + lane) / 32 = g by omega,
    show (32 * g.val + lane.val) % 32 = lane by omega,
    show (32 * g.val + lane.val) % 4 = lane % 4 by omega]

theorem feeds (settings : Settings) (memory : Memory) {och : Nat} (channel : och < 64) :
    (Layer.routed settings memory och).Feeds (2 * och) (laneWeight settings memory och)
      (lanePixel settings memory) where
  w3 := fun g lane tap => by
    have number : tapWord g lane tap.castSucc = 16 * tap.val + 8 * g.val + lane / 4 := rfl
    have position : (Layer.channel g lane).val = 32 * g + lane := rfl
    unfold laneWeight
    rw [burstAddr_kernel _ _ _ (by omega), number]
    show _ = Memory.byteAt memory settings.w3Addr _ _
    unfold Memory.byteAt
    rw [position, show (32 * g.val + lane.val) % 4 = lane % 4 by omega,
      show 36 * och + 16 * tap.val + (32 * g.val + lane.val) / 4 =
        36 * och + (16 * tap + 8 * g + lane / 4) by omega]
  w1 := fun g lane => by
    have number : tapWord g lane (Fin.last 9) = 16 * 9 + 8 * g.val + lane / 4 := rfl
    have position : (Layer.channel g lane).val = 32 * g + lane := rfl
    unfold laneWeight
    rw [burstAddr_point _ _ _ (by omega), number]
    show _ = Memory.byteAt memory settings.w1Addr _ _
    unfold Memory.byteAt
    rw [position, show (32 * g.val + lane.val) % 4 = lane % 4 by omega,
      show 4 * och + (32 * g.val + lane.val) / 4 =
        4 * och + (16 * 9 + 8 * g + lane / 4 - 144) by omega]
  imap := fun g lane p pixel => lanePixel_eq channel pixel g lane

end RepVGGAcc.RepvggAccTop.FirstRun
