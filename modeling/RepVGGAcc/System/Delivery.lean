import RepVGGAcc.Control.MapFetch
import RepVGGAcc.Load.ImapLoad
import RepVGGAcc.System.PingPong

/-! What the memory delivers in the first run: the words of the weights and of the map at
the addresses the fetch engines ask for, unchanged by what has been written. -/

namespace RepVGGAcc.RepvggAccTop.FirstRun

open Clocked
open IcbMaster (Grant)
open ImapLoad (Loaded mapWords)

variable {L a stop : Nat} {s : Nat → State} {i : Nat → Input} {settings : Settings}
  {memory : Memory}

theorem word_contents (run : FirstRun L a stop s i) (some_ : 1 ≤ L) (latency : L ≤ 1000)
    (settled : ∀ t, a ≤ t → t ≤ stop → settings.HeldBy (s t)) (regions : settings.Regions)
    {addr : BitVec 32} (input : settings.IsInput addr) {t : Nat} (within : t ≤ stop + 1) :
    (contents memory s i t).word addr = memory.word addr := by
  induction t with
  | zero => rfl
  | succ t held =>
      rw [← held (by omega)]
      show ((contents memory s i t).after (writeCommand (s t) (i t))).word addr = _
      rw [run.writeCommand_eq some_ latency (by omega : t ≤ stop)]
      split_ifs with writing
      · have begun : a ≤ t := by
          by_contra early
          rw [(Control.omapPipe_early latency (by omega)).1] at writing
          cases writing
        rw [(settled t begun (by omega)).outAddr]
        exact regions.word_store input (Control.written_lt latency writing) _ _
      · rfl

theorem imapVld_eq (run : FirstRun L a stop s i) (some_ : 1 ≤ L) (latency : L ≤ 1000) {t : Nat}
    (within : t ≤ stop) :
    (imapBiuInput (s t) (i t)).arb2imapBiuVld = Control.mapFetches L (t - a) := by
  obtain ⟨shown, answer⟩ := run.shows some_ latency within
  exact (shown.rspVld_eq (by decide : Grant.imap ≠ .none) _).trans (congrArg _ answer)

theorem imapAddr_eq (run : FirstRun L a stop s i) (some_ : 1 ≤ L) (latency : L ≤ 1000)
    (settled : ∀ t, a ≤ t → t ≤ stop → settings.HeldBy (s t)) {u : Nat} (within : a + u ≤ stop)
    (more : (Control.timeline L u).imap.issued < mapWords) :
    (s (a + u)).bus.imapBiu.imapBiu2arbAddr =
      wordAddr settings.inAddr (Control.timeline L u).imap.issued := by
  induction u with
  | zero =>
      rw [Control.timeline_zero] at more
      exact absurd more (Burst.rest_issued _)
  | succ u held =>
      have within : a + u ≤ stop := by omega
      have shown := run.control_eq some_ latency within
      rw [Nat.add_sub_cancel_left] at shown
      have base := (settled (a + u) (by omega) within).inAddr
      have fits := (Control.fits_timeline latency u).imap
      have next : (Control.timeline L (u + 1)).imap =
          (Control.timeline L u).imap.next mapWords
            (Control.timeline L u).main.imapStart ((Control.timeline L u).grant == .imap)
            (Control.mapFetches L u) := by
        rw [← Control.next_timeline some_ latency u]
        rfl
      have start : (imapBiuInput (s (a + u)) (i (a + u))).imapStart =
          (Control.timeline L u).main.imapStart := congrArg MainFsm.State.imapStart shown.main
      have rdy : (imapBiuInput (s (a + u)) (i (a + u))).imapBiu2arbRdy =
          ((Control.timeline L u).grant == .imap) := shown.rdy_eq .imap
      have vld : (imapBiuInput (s (a + u)) (i (a + u))).arb2imapBiuVld =
          Control.mapFetches L u := by
        rw [run.imapVld_eq some_ latency within, Nat.add_sub_cancel_left]
      have inAddr : (imapBiuInput (s (a + u)) (i (a + u))).imapBaseAddr = settings.inAddr := base
      have addr := shown.imap.step_addr (i := imapBiuInput (s (a + u)) (i (a + u)))
      rw [start, rdy, vld, ← next, inAddr] at addr
      rw [← Nat.add_assoc, run.trace (a + u)]
      exact addr fits (held within) more

section Answered

variable (run : FirstRun L a stop s i) (some_ : 1 ≤ L) (latency : L ≤ 1000)
  (settled : ∀ t, a ≤ t → t ≤ stop → settings.HeldBy (s t)) (regions : settings.Regions)
  (answers : Answers memory s i L)

include run some_ latency settled regions answers

theorem answer_eq {t : Nat} (within : t ≤ stop) (accepted : accepts (s t) (i t) = true)
    (read : (command (s t) (i t)).read = true)
    (input : settings.IsInput (command (s t) (i t)).addr) :
    (i (t + L)).accIcbRspRdata = memory.word (command (s t) (i t)).addr := by
  rw [answers t accepted read,
    run.word_contents some_ latency settled regions input (by omega)]

theorem mapWord_eq {k : Nat} (inside : k < mapWords) (within : a + (166 + L + k) ≤ stop) :
    (i (a + (166 + L + k) + L)).accIcbRspRdata = memory.word (wordAddr settings.inAddr k) := by
  obtain ⟨granted, issued⟩ := Control.command_map (L := L) inside
  have shown := run.control_eq some_ latency within
  rw [Nat.add_sub_cancel_left] at shown
  have state : (s (a + (166 + L + k))).bus.icbMaster.state = .imap := by
    rw [shown.grant]
    exact granted
  have addr := run.imapAddr_eq some_ latency settled within (by rw [issued]; exact inside)
  rw [issued] at addr
  have asked : command (s (a + (166 + L + k))) (i (a + (166 + L + k))) = {
      addr := wordAddr settings.inAddr k
      read := true
      wdata := 0 } := by
    unfold command BusUnits.command BusUnits.accIcbCmdAddr BusUnits.accIcbCmdRead
      BusUnits.accIcbCmdWdata
    rw [state, addr]
    rfl
  have accepted : accepts (s (a + (166 + L + k))) (i (a + (166 + L + k))) = true := by
    unfold accepts
    rw [shown.accIcbCmdValid, run.ready, Bool.and_true, Control.cmdValid, granted]
    exact decide_eq_true (by rw [issued]; exact inside)
  have answer := run.answer_eq some_ latency settled regions answers within accepted
    (by rw [asked]) (by rw [asked]; exact .imap inside)
  rw [answer, asked]

theorem weightWord_eq {och k : Nat} (channel : och < 64) (inBurst : k < 160)
    (within : a + Control.fetchFirst L och + 159 ≤ stop) :
    weightWord L a i (160 * och + k) =
      memory.word (WeightBiu.burstAddr settings.w3Addr settings.w1Addr och k) := by
  obtain ⟨accepted, asked⟩ :=
    (run.isFetch some_ latency settled channel within).commands k inBurst
  have answer := run.answer_eq some_ latency settled regions answers (by omega) accepted
    (by rw [asked]) (by rw [asked]; exact settings.isInput_burst channel inBurst)
  rw [weightWord_burst _ _ _ _ inBurst, answer, asked]

theorem loaded {t : Nat} (within : t ≤ stop) :
    Loaded (fun k => memory.word (wordAddr settings.inAddr k)) (Control.mapFetched L (t - a))
      { imapBiu := (s t).bus.imapBiu, imapBuf := (s t).imapBuf } := by
  induction t with
  | zero =>
      rw [Nat.zero_sub, show Control.mapFetched L 0 = 0 by unfold Control.mapFetched; omega]
      refine Loaded.start _ ?_
      show (s 0).bus.imapBiu.receiveCnt = 0
      rw [run.initial.bus.imapBiu]
      rfl
  | succ t held =>
      have held := held (by omega)
      have shown := run.control_eq some_ latency (by omega : t ≤ stop)
      have vld := run.imapVld_eq some_ latency (by omega : t ≤ stop)
      have moved : (⟨(s (t + 1)).bus.imapBiu, (s (t + 1)).imapBuf⟩ : ImapLoad.State) =
          ImapLoad.step ⟨(s t).bus.imapBiu, (s t).imapBuf⟩ {
            imapBiu := imapBiuInput (s t) (i t)
            imapRaddr := (imapBufInput (s t) (i t)).imapRaddr
            imapRen := (imapBufInput (s t) (i t)).imapRen } := by
        rw [run.trace t]
        rfl
      have advance : Control.mapFetched L (t + 1 - a) =
          Control.mapFetched L (t - a) + (Control.mapFetches L (t - a)).toNat := by
        by_cases early : t < a
        · rw [show t + 1 - a = t - a by omega, show t - a = 0 by omega,
            Control.mapFetches_eq latency, decide_eq_false (by omega)]
          rfl
        · rw [show t + 1 - a = t - a + 1 by omega, Control.mapFetched_succ latency]
      rw [moved, advance]
      cases arrives : Control.mapFetches L (t - a) with
      | false => exact held.step_wait (vld.trans arrives)
      | true =>
          obtain ⟨time, more⟩ := Control.mapFetches_time latency arrives
          have early := arrives
          rw [Control.mapFetches_eq latency] at early
          have cycle := of_decide_eq_true early
          have rested : (s t).macArray.macArrayFsm = MacArrayFsm.reset := by
            rw [shown.fsm, Control.fsm_timeline latency, if_pos (by omega)]
          have unread : (imapBufInput (s t) (i t)).imapRen = false := by
            show MacArrayFsm.imapRen (s t).macArray.macArrayFsm _ = false
            rw [rested]
            rfl
          have data : (imapBiuInput (s t) (i t)).arb2imapBiuData =
              memory.word (wordAddr settings.inAddr (Control.mapFetched L (t - a))) := by
            have valid : IcbMaster.rspVld (s t).bus.icbMaster .imap (i t).accIcbRspValid = true :=
              vld.trans arrives
            show IcbMaster.rspData (s t).bus.icbMaster .imap (i t).accIcbRspValid
              (i t).accIcbRspRdata = _
            rw [IcbMaster.rspData, if_pos valid,
              ← run.mapWord_eq some_ latency settled regions answers more (by omega)]
            congr 2
            omega
          exact held.step_receive more (vld.trans arrives) data fun _ => unread

end Answered

end RepVGGAcc.RepvggAccTop.FirstRun
