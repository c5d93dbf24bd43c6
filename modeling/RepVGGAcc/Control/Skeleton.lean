import RepVGGAcc.Control.Bursts
import RepVGGAcc.MacArrayFsm.Scan
import RepVGGAcc.Rtl.RepvggAccTop

/-! The control of the accelerator without its data: which unit does what in a
cycle. As long as the pipeline behind the array flows, no data decides it. -/

namespace RepVGGAcc

open Clocked (wrapCount)
open IcbMaster (Grant)

@[ext]
structure Control where
  main : MainFsm.State
  fsm : MacArrayFsm.State
  grant : Grant
  weight : Burst
  imap : Burst
  omapCnt : Nat
  omapRcv : Nat
  omapReq : Bool
  psumVld : Bool
  psumPipe : Bool
  mergerPipe : Bool
  omapPipe : Bool

namespace Control

open WeightBiu (burstWords)
open ImapLoad (mapWords)

/-- Between runs, with the main state machine in `main`. -/
def rest (main : MainFsm.State) : Control where
  main := main
  fsm := MacArrayFsm.reset
  grant := .none
  weight := .rest burstWords
  imap := .rest mapWords
  omapCnt := 0
  omapRcv := 0
  omapReq := false
  psumVld := false
  psumPipe := false
  mergerPipe := false
  omapPipe := false

def mainInput (c : Control) (start : Bool) : MainFsm.Input where
  accStart := start
  weightDone := c.weight.done
  imapDone := c.imap.done
  convDone := c.fsm.convDone
  outChCnt := c.fsm.outChCnt

def requests (c : Control) : IcbMaster.Requests where
  weightBiu2arbReq := decide (c.weight.received < burstWords)
  imapBiu2arbReq := decide (c.imap.received < mapWords)
  omapBiu2arbReq := c.omapReq

def receives (c : Control) (unit : Grant) (rsp : Bool) : Bool :=
  c.grant == unit && rsp

def secondItem (c : Control) : Bool :=
  MacArrayFsm.macArray2psumAccVld c.fsm && (MacArrayFsm.macArray2psumAccInfo c.fsm).inChGroup

def next (c : Control) (start rsp : Bool) : Control where
  main := MainFsm.step c.main (c.mainInput start)
  fsm := MacArrayFsm.step c.fsm { convStart := c.main.convStart, macArray2psumAccRdy := true }
  grant := IcbMaster.nextstate { state := c.grant, nextstate := c.grant } c.requests
  weight := c.weight.next burstWords c.main.weightStart (c.grant == .weight)
    (c.receives .weight rsp)
  imap := c.imap.next mapWords c.main.imapStart (c.grant == .imap) (c.receives .imap rsp)
  omapCnt := if c.omapPipe then wrapCount 200703 20 c.omapCnt else c.omapCnt
  omapRcv :=
    if c.omapRcv = 3135 ∧ c.receives .omap rsp then 0
    else if c.receives .omap rsp then (c.omapRcv + 1) % 2 ^ 12
    else c.omapRcv
  omapReq :=
    if c.omapRcv = 3135 ∧ c.receives .omap rsp then false
    else if c.fsm.inChCnt then true
    else c.omapReq
  psumVld := c.secondItem
  psumPipe := c.psumVld
  mergerPipe := c.psumPipe
  omapPipe := c.mergerPipe

def cmdValid (c : Control) : Bool :=
  match c.grant with
  | .none => false
  | .omap => c.omapPipe
  | .weight => decide (c.weight.issued < burstWords)
  | .imap => decide (c.imap.issued < mapWords)

/-- A word that waits to be written is never kept waiting, and the fetch engines are
used in turn. -/
structure Fits (c : Control) (rsp : Bool) : Prop where
  flows : c.omapPipe = true → c.grant = .omap
  weight : c.weight.Fits burstWords c.main.weightStart (c.receives .weight rsp)
  imap : c.imap.Fits mapWords c.main.imapStart (c.receives .imap rsp)

end Control

namespace RepvggAccTop

/-- The control registers of the accelerator are in the state `c`. -/
structure Shows (c : Control) (s : State) : Prop where
  main : s.mainFsm = c.main
  fsm : s.macArray.macArrayFsm = c.fsm
  grant : s.bus.icbMaster = { state := c.grant, nextstate := c.grant }
  weight : WeightBiu.At c.weight s.bus.weightBiu
  imap : ImapBiu.At c.imap s.bus.imapBiu
  omapCnt : s.bus.omapBiu.omapBiu2arbCnt = c.omapCnt
  omapRcv : s.bus.omapBiu.receiveCnt = c.omapRcv
  omapReq : s.bus.omapBiu.omapBiu2arbReq = c.omapReq
  psumVld : s.psumAcc.psumAccVldOut = c.psumVld
  psumPipe : s.psumAcc.pipe.vldR = c.psumPipe
  mergerPipe : s.mapMerger.pipe.vldR = c.mergerPipe
  omapPipe : s.bus.omapBiu.pipe.vldR = c.omapPipe

theorem shows_reset {s : State} (initial : IsReset s) :
    Shows (.rest MainFsm.reset) s where
  main := initial.mainFsm
  fsm := by rw [initial.macArray]; rfl
  grant := initial.bus.icbMaster
  weight := by rw [initial.bus.weightBiu]; exact WeightBiu.at_reset
  imap := by rw [initial.bus.imapBiu]; exact ImapBiu.at_reset
  omapCnt := initial.bus.omapBiu.omapBiu2arbCnt
  omapRcv := initial.bus.omapBiu.receiveCnt
  omapReq := initial.bus.omapBiu.omapBiu2arbReq
  psumVld := initial.psumAcc.psumAccVldOut
  psumPipe := initial.psumAcc.vldR
  mergerPipe := initial.mapMerger
  omapPipe := initial.bus.omapBiu.vldR

namespace Shows

variable {c : Control} {s : State} {i : Input}

theorem rdy_eq (shows : Shows c s) (unit : Grant) :
    IcbMaster.rdy s.bus.icbMaster unit = (c.grant == unit) := by
  rw [shows.grant]
  rfl

theorem rspVld_eq (shows : Shows c s) {unit : Grant} (some_ : unit ≠ .none) (rsp : Bool) :
    IcbMaster.rspVld s.bus.icbMaster unit rsp = c.receives unit rsp := by
  rw [shows.grant]
  unfold IcbMaster.rspVld IcbMaster.accIcbRspReady Control.receives
  cases unit with
  | none => exact absurd rfl some_
  | omap => cases c.grant <;> cases rsp <;> rfl
  | weight => cases c.grant <;> cases rsp <;> rfl
  | imap => cases c.grant <;> cases rsp <;> rfl

theorem mapMerger2omapBiuRdy (shows : Shows c s)
    (flows : c.omapPipe = true → c.grant = .omap) :
    RepvggAccTop.mapMerger2omapBiuRdy s = true := by
  unfold RepvggAccTop.mapMerger2omapBiuRdy OmapBiu.mapMerger2omapBiuRdy
  rw [shows.rdy_eq]
  cases pipe : c.omapPipe with
  | false => exact SirvGnrlPipeStage.iRdy_of_empty _ _ (shows.omapPipe.trans pipe)
  | true => rw [flows pipe]; exact SirvGnrlPipeStage.iRdy_ready _

theorem psumAcc2mapMergerRdy (shows : Shows c s)
    (flows : c.omapPipe = true → c.grant = .omap) :
    RepvggAccTop.psumAcc2mapMergerRdy s = true := by
  unfold RepvggAccTop.psumAcc2mapMergerRdy MapMerger.psumAcc2mapMergerRdy
  rw [shows.mapMerger2omapBiuRdy flows]
  exact SirvGnrlPipeStage.iRdy_ready _

theorem macArray2psumAccRdy (shows : Shows c s)
    (flows : c.omapPipe = true → c.grant = .omap) :
    RepvggAccTop.macArray2psumAccRdy s = true := by
  unfold RepvggAccTop.macArray2psumAccRdy PsumAcc.macArray2psumAccRdy PsumAcc.psumAccRdyOut
  rw [shows.psumAcc2mapMergerRdy flows, SirvGnrlPipeStage.iRdy_ready, ite_self]

theorem accIcbCmdValid (shows : Shows c s) :
    BusUnits.accIcbCmdValid s.bus = c.cmdValid := by
  have grant : s.bus.icbMaster.state = c.grant := by rw [shows.grant]
  unfold BusUnits.accIcbCmdValid Control.cmdValid
  rw [grant]
  cases granted : c.grant with
  | none => rfl
  | omap =>
      show (IcbMaster.rdy s.bus.icbMaster .omap && s.bus.omapBiu.pipe.vldR) = _
      rw [shows.rdy_eq, granted, shows.omapPipe]
      rfl
  | weight =>
      show (s.bus.weightBiu.weightBiu2arbVld && IcbMaster.rdy s.bus.icbMaster .weight) = _
      rw [shows.rdy_eq, granted, shows.weight.vld]
      exact Bool.and_true _
  | imap =>
      show (s.bus.imapBiu.imapBiu2arbVld && IcbMaster.rdy s.bus.icbMaster .imap) = _
      rw [shows.rdy_eq, granted, shows.imap.vld]
      exact Bool.and_true _

theorem step (shows : Shows c s) (fits : c.Fits i.accIcbRspValid) :
    Shows (c.next (s.icbSlave.start.getLsbD 0) i.accIcbRspValid) (RepvggAccTop.step s i) := by
  have ready := shows.macArray2psumAccRdy fits.flows
  have merger := shows.mapMerger2omapBiuRdy fits.flows
  have psum := shows.psumAcc2mapMergerRdy fits.flows
  have weightVld := shows.rspVld_eq (by decide : Grant.weight ≠ .none) i.accIcbRspValid
  have imapVld := shows.rspVld_eq (by decide : Grant.imap ≠ .none) i.accIcbRspValid
  have omapVld := shows.rspVld_eq (by decide : Grant.omap ≠ .none) i.accIcbRspValid
  have mainInput : RepvggAccTop.mainInput s =
      c.mainInput (s.icbSlave.start.getLsbD 0) := by
    unfold RepvggAccTop.mainInput Control.mainInput
    rw [shows.weight.done, shows.imap.done, shows.fsm]
  refine ⟨?_, ?_, ?_, ?_, ?_, ?_, ?_, ?_, ?_, ?_, ?_, ?_⟩
  · show MainFsm.step s.mainFsm (RepvggAccTop.mainInput s) = _
    rw [mainInput, shows.main]
    rfl
  · show MacArrayFsm.step s.macArray.macArrayFsm
      { convStart := s.mainFsm.convStart, macArray2psumAccRdy :=
        RepvggAccTop.macArray2psumAccRdy s } = _
    rw [ready, shows.fsm, shows.main]
    rfl
  · show IcbMaster.step s.bus.icbMaster (BusUnits.requests s.bus) = _
    have requests : BusUnits.requests s.bus = c.requests := by
      unfold BusUnits.requests Control.requests
      rw [shows.weight.req, shows.imap.req, shows.omapReq]
    rw [requests, shows.grant]
    rfl
  · have start : (weightBiuInput s i).weightStart = c.main.weightStart :=
      congrArg MainFsm.State.weightStart shows.main
    have rdy : (weightBiuInput s i).weightBiu2arbRdy = (c.grant == .weight) :=
      shows.rdy_eq .weight
    have fitting := fits.weight
    rw [← start, ← weightVld] at fitting
    have next := shows.weight.step (i := weightBiuInput s i) fitting
    rw [rdy, start, show (weightBiuInput s i).arb2weightBiuVld = _ from weightVld] at next
    exact next
  · have start : (imapBiuInput s i).imapStart = c.main.imapStart :=
      congrArg MainFsm.State.imapStart shows.main
    have rdy : (imapBiuInput s i).imapBiu2arbRdy = (c.grant == .imap) :=
      shows.rdy_eq .imap
    have fitting := fits.imap
    rw [← start, ← imapVld] at fitting
    have next := shows.imap.step (i := imapBiuInput s i) fitting
    rw [rdy, start, show (imapBiuInput s i).arb2imapBiuVld = _ from imapVld] at next
    exact next
  · have hdshk : OmapBiu.hdshk s.bus.omapBiu (BusUnits.omapInput s.bus (busInput s i)) =
        c.omapPipe := by
      show (s.bus.omapBiu.pipe.vldR && IcbMaster.rdy s.bus.icbMaster .omap) = _
      rw [shows.omapPipe, shows.rdy_eq]
      cases pipe : c.omapPipe with
      | false => rfl
      | true => rw [fits.flows pipe]; rfl
    show (if OmapBiu.hdshk _ _ then _ else s.bus.omapBiu.omapBiu2arbCnt) = _
    rw [hdshk, shows.omapCnt]
    rfl
  · show (if s.bus.omapBiu.receiveCnt = 3135 ∧ OmapBiu.receive _ then 0
      else if OmapBiu.receive _ then _ else _) = _
    simp only [OmapBiu.receive_eq, shows.omapRcv]
    rw [show (BusUnits.omapInput s.bus (busInput s i)).arb2omapBiuVld = _ from omapVld]
    rfl
  · show (if s.bus.omapBiu.receiveCnt = 3135 ∧ OmapBiu.receive _ then false
      else if s.macArray.macArrayFsm.inChCnt then true else _) = _
    simp only [OmapBiu.receive_eq, shows.omapRcv, shows.omapReq, shows.fsm]
    rw [show (BusUnits.omapInput s.bus (busInput s i)).arb2omapBiuVld = _ from omapVld]
    rfl
  · show (if (MacArrayFsm.macArray2psumAccInfo s.macArray.macArrayFsm).inChGroup then
      RepvggAccTop.macArray2psumAccVld s && RepvggAccTop.macArray2psumAccRdy s else false) = _
    rw [ready, Bool.and_true]
    unfold RepvggAccTop.macArray2psumAccVld
    rw [shows.fsm]
    show _ = (MacArrayFsm.macArray2psumAccVld c.fsm &&
      (MacArrayFsm.macArray2psumAccInfo c.fsm).inChGroup)
    cases (MacArrayFsm.macArray2psumAccInfo c.fsm).inChGroup <;> simp
  · have flow := SirvGnrlPipeStage.step_flowing s.psumAcc.pipe s.psumAcc.psumAccVldOut
      (PsumAcc.psumAccDataOut s.psumAcc) (RepvggAccTop.psumAcc2mapMergerRdy s) fun _ => psum
    exact flow.1.trans shows.psumVld
  · have flow := SirvGnrlPipeStage.step_flowing s.mapMerger.pipe
      (MapMerger.mapMergerVldOut s.mapMerger (mergerInput s))
      (MapMerger.mapMergerDataOut (PsumAcc.psumAcc2mapMergerData s.psumAcc))
      (RepvggAccTop.mapMerger2omapBiuRdy s) fun _ => merger
    refine flow.1.trans ?_
    show (s.psumAcc.pipe.vldR && RepvggAccTop.psumAcc2mapMergerRdy s) = _
    rw [psum, Bool.and_true]
    exact shows.psumPipe
  · have flow := SirvGnrlPipeStage.step_flowing s.bus.omapBiu.pipe
      (OmapBiu.hdshkIn s.bus.omapBiu (BusUnits.omapInput s.bus (busInput s i)))
      (MapMerger.mapMerger2omapBiuData s.mapMerger) (IcbMaster.rdy s.bus.icbMaster .omap)
      fun pipe => by
        rw [shows.rdy_eq, fits.flows (shows.omapPipe.symm.trans pipe)]
        rfl
    refine flow.1.trans ?_
    show (RepvggAccTop.mapMerger2omapBiuRdy s && s.mapMerger.pipe.vldR) = _
    rw [merger, Bool.true_and]
    exact shows.mergerPipe

end Shows

end RepvggAccTop

end RepVGGAcc
