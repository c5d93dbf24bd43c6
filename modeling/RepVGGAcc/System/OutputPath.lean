import RepVGGAcc.PsumAcc.Flow
import RepVGGAcc.System.Convolution

/-! From the array to the bus in the first run: `psum_acc` adds the items of the two
groups, and the word of each pixel moves on by one stage in every cycle. -/

namespace RepVGGAcc.RepvggAccTop

open Clocked

namespace Shows

variable {c : Control} {s : State} {i : Input}

/-! What the data registers of the output path take in, while the pipeline flows. -/

theorem psumPipe_step (shows : Shows c s) (flows : c.omapPipe = true → c.grant = .omap)
    (valid : c.psumVld = true) :
    (RepvggAccTop.step s i).psumAcc.pipe.datR = PsumAcc.psumAccDataOut s.psumAcc :=
  (SirvGnrlPipeStage.step_flowing s.psumAcc.pipe s.psumAcc.psumAccVldOut
    (PsumAcc.psumAccDataOut s.psumAcc) (RepvggAccTop.psumAcc2mapMergerRdy s)
    fun _ => shows.psumAcc2mapMergerRdy flows).2 (shows.psumVld.trans valid)

theorem mergerPipe_step (shows : Shows c s) (flows : c.omapPipe = true → c.grant = .omap)
    (valid : c.psumPipe = true) :
    (RepvggAccTop.step s i).mapMerger.pipe.datR = MapMerger.mapMergerDataOut s.psumAcc.pipe.datR := by
  refine (SirvGnrlPipeStage.step_flowing s.mapMerger.pipe
    (MapMerger.mapMergerVldOut s.mapMerger (mergerInput s))
    (MapMerger.mapMergerDataOut (PsumAcc.psumAcc2mapMergerData s.psumAcc))
    (RepvggAccTop.mapMerger2omapBiuRdy s) fun _ => shows.mapMerger2omapBiuRdy flows).2 ?_
  show (s.psumAcc.pipe.vldR && RepvggAccTop.psumAcc2mapMergerRdy s) = true
  rw [shows.psumAcc2mapMergerRdy flows, shows.psumPipe, valid]
  rfl

theorem omapPipe_step (shows : Shows c s) (flows : c.omapPipe = true → c.grant = .omap)
    (valid : c.mergerPipe = true) :
    (RepvggAccTop.step s i).bus.omapBiu.pipe.datR = s.mapMerger.pipe.datR := by
  refine (SirvGnrlPipeStage.step_flowing s.bus.omapBiu.pipe
    (OmapBiu.hdshkIn s.bus.omapBiu (BusUnits.omapInput s.bus (busInput s i)))
    (MapMerger.mapMerger2omapBiuData s.mapMerger) (IcbMaster.rdy s.bus.icbMaster .omap)
    fun pipe => ?_).2 ?_
  · rw [shows.rdy_eq, flows (shows.omapPipe.symm.trans pipe)]
    rfl
  · show (RepvggAccTop.mapMerger2omapBiuRdy s && s.mapMerger.pipe.vldR) = true
    rw [shows.mapMerger2omapBiuRdy flows, shows.mergerPipe, valid]
    rfl

end Shows

namespace FirstRun

open MacArrayFsm (scan)

variable {L a stop : Nat} {s : Nat → State} {i : Nat → Input} {settings : Settings}
  {memory : Memory}

/-- The cycle in which item `n` leaves the array. -/
def itemCycle (L a n : Nat) : Nat :=
  scanStart L a + (65 + n)

def arrayItem (L a : Nat) (s : Nat → State) (n : Nat) : BitVec 64 :=
  MacArray.macArray2psumAccData (s (itemCycle L a n)).macArray

theorem psumInput_item (run : FirstRun L a stop s i) (some_ : 1 ≤ L) (latency : L ≤ 1000)
    {n : Nat} (inRun : n < 401408) (within : itemCycle L a n ≤ stop) :
    (psumInput (s (itemCycle L a n))).macArray2psumAccInfo = {
        outChHigh := ((n + 6) / 6272 % 64).testBit 5
        inChGroup := decide (n / 3136 % 2 = 1)
        offset := n % 3136 } ∧
      PsumAcc.hdshkIn (s (itemCycle L a n)).psumAcc (psumInput (s (itemCycle L a n))) = true := by
  have fsm := run.fsm_scan some_ latency (e := 65 + n) (by omega) within
  have shown := run.control_eq some_ latency within
  refine ⟨?_, ?_⟩
  · show MacArrayFsm.macArray2psumAccInfo (s (scanStart L a + (65 + n))).macArray.macArrayFsm = _
    rw [fsm]
    show MacArrayFsm.Info.mk ((MacArrayFsm.position (65 + n) / 6272 % 64).testBit 5)
      (decide ((65 + n - 65) / 3136 % 2 = 1)) ((65 + n - 65) % 3136) = _
    have channel : MacArrayFsm.position (65 + n) / 6272 % 64 = (n + 6) / 6272 % 64 := by
      unfold MacArrayFsm.position
      omega
    rw [channel, Nat.add_sub_cancel_left]
  · show (macArray2psumAccVld _ && macArray2psumAccRdy _) = true
    rw [shown.macArray2psumAccRdy (Control.fits_timeline latency _).flows, Bool.and_true]
    show MacArrayFsm.macArray2psumAccVld (s (scanStart L a + (65 + n))).macArray.macArrayFsm = true
    rw [fsm, MacArrayFsm.vld_scan]
    exact decide_eq_true (by omega)

theorem stored_item (run : FirstRun L a stop s i) (some_ : 1 ≤ L) (latency : L ≤ 1000) {n : Nat}
    (inRun : n ≤ 401408) (within : itemCycle L a n ≤ stop) :
    PsumAcc.Stored (arrayItem L a s) n (s (itemCycle L a n)).psumAcc.psumSramBuf.memR := by
  induction n with
  | zero => exact PsumAcc.Stored.zero _ _
  | succ n held =>
      have next : itemCycle L a (n + 1) = itemCycle L a n + 1 := rfl
      obtain ⟨info, taken⟩ := run.psumInput_item some_ latency (n := n) (by omega) (by omega)
      rw [next, run.trace]
      refine (held (by omega) (by omega)).step_accept rfl taken ?_ ?_ rfl
      · exact congrArg (fun x : MacArrayFsm.Info => !x.inChGroup) info
      · exact congrArg MacArrayFsm.Info.offset info

theorem psumAccDataOut_item (run : FirstRun L a stop s i) (some_ : 1 ≤ L) (latency : L ≤ 1000)
    {n : Nat} (inRun : n < 401408) (second : n / 3136 % 2 = 1)
    (within : itemCycle L a n + 1 ≤ stop) :
    PsumAcc.psumAccDataOut (s (itemCycle L a n + 1)).psumAcc =
      PsumAcc.accumulate (((n + 6) / 6272 % 64).testBit 5) (arrayItem L a s n)
        (arrayItem L a s (n - 3136)) := by
  obtain ⟨info, taken⟩ := run.psumInput_item some_ latency inRun (by omega)
  have stored := run.stored_item some_ latency (n := n + 1) inRun within (n - 3136)
    (by omega) (by omega) (by omega)
  rw [show (n - 3136) % 3136 = n % 3136 by omega] at stored
  have ldEn : PsumAcc.ldEn (s (itemCycle L a n)).psumAcc (psumInput (s (itemCycle L a n))) =
      true := by
    unfold PsumAcc.ldEn
    rw [taken, info]
    exact decide_eq_true second
  have moved : (s (itemCycle L a n + 1)).psumAcc =
      PsumAcc.step (s (itemCycle L a n)).psumAcc (psumInput (s (itemCycle L a n))) :=
    congrArg State.psumAcc (run.trace (itemCycle L a n))
  have entry : (s (itemCycle L a n + 1)).psumAcc.psumSramBuf.memR (n % 3136) =
      arrayItem L a s (n - 3136) := stored
  rw [moved] at entry ⊢
  rw [PsumAcc.psumAccDataOut_step ldEn, info, entry]
  rfl

/-- The word of item `n` of a second group is handed to the bus four cycles after it. -/
theorem omapPipe_item (run : FirstRun L a stop s i) (some_ : 1 ≤ L) (latency : L ≤ 1000)
    {n : Nat} (inRun : n < 401408) (second : n / 3136 % 2 = 1)
    (within : itemCycle L a n + 4 ≤ stop) :
    (s (itemCycle L a n + 4)).bus.omapBiu.pipe.datR =
      MapMerger.mapMergerDataOut (PsumAcc.accumulate (((n + 6) / 6272 % 64).testBit 5)
        (arrayItem L a s n) (arrayItem L a s (n - 3136))) := by
  have last : n / 6272 ≤ 63 := by omega
  have stage (k : Nat) (few : k ≤ 3) : Control.timeline L (itemCycle L a n + k - a) =
      Control.channelPhase L (n / 6272) (6 + n % 3136 + k) := by
    rw [← Control.timeline_channel latency last (by omega)]
    congr 1
    unfold itemCycle scanStart
    omega
  have at_ (k : Nat) (few : k ≤ 3) :
      Shows (Control.channelPhase L (n / 6272) (6 + n % 3136 + k)) (s (itemCycle L a n + k)) := by
    rw [← stage k few]
    exact run.control_eq some_ latency (by omega)
  have flows (k : Nat) := (Control.fits_channelPhase (L := L) (n := n / 6272)
    (d := 6 + n % 3136 + k)).flows
  have omap : (s (itemCycle L a n + 3 + 1)).bus.omapBiu.pipe.datR =
      (s (itemCycle L a n + 3)).mapMerger.pipe.datR := by
    rw [run.trace]
    exact (at_ 3 (by omega)).omapPipe_step (flows 3) (decide_eq_true (by omega))
  have merged : (s (itemCycle L a n + 2 + 1)).mapMerger.pipe.datR =
      MapMerger.mapMergerDataOut (s (itemCycle L a n + 2)).psumAcc.pipe.datR := by
    rw [run.trace]
    exact (at_ 2 (by omega)).mergerPipe_step (flows 2) (decide_eq_true (by omega))
  have summed : (s (itemCycle L a n + 1 + 1)).psumAcc.pipe.datR =
      PsumAcc.psumAccDataOut (s (itemCycle L a n + 1)).psumAcc := by
    rw [run.trace]
    exact (at_ 1 (by omega)).psumPipe_step (flows 1) (decide_eq_true (by omega))
  rw [omap, merged, summed, run.psumAccDataOut_item some_ latency inRun second (by omega)]

end FirstRun

end RepVGGAcc.RepvggAccTop
