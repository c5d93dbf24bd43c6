import RepVGGAcc.Fabric.Flow
import RepVGGAcc.Fabric.SramMemory
import RepVGGAcc.System.Continuation

/-! The first run of the accelerator in the SoC: to the accelerator the SRAM behind the
arbiter and the bus is a pipelined memory that answers three cycles later, while the core
uses the rest of it. -/

namespace RepVGGAcc

open Clocked

namespace E203SubsysMain

open E203SubsysMems (regions)
open MemPath (Flowing Streams granted granted_zero granted_one)
open MemPath.Streams (asked asked_succ)
open RepvggAccTop (RunsUpTo contents writeCommand)
open SirvIcb1toNBus (decode)
open SirvSramIcbCtrl (access ramAddr serve)
open SubsysRam (Agrees InSram bytes wordIndex)

section Signals

variable (s : Nat → State) (i : Nat → Input)

def accState (t : Nat) : RepvggAccTop.State :=
  (s t).acc

def accInputs (t : Nat) : RepvggAccTop.Input :=
  topInput (s t) (i t)

def pathState (t : Nat) : MemPath.State :=
  (s t).path

def ports (t : Nat) : Fin 2 → IcbDown :=
  arbtBus (s t) (i t)

def ramAfter (t : Nat) : SubsysRam.State :=
  served serve (s 0).path.mems.sram.ram (asked (ports s i) t)

end Signals

/-- The accelerator is started once, in cycle `a`, with its settings held from then on and
its regions in the SRAM. The core sends commands to the SRAM only, takes the responses at
once, and from cycle `a` on writes no word that the accelerator uses. -/
structure Runs (a stop : Nat) (settings : Settings) (s : Nat → State) (i : Nat → Input) :
    Prop where
  trace : IsTrace step s i
  initial : IsReset (s 0)
  inSram : ∀ t < stop, (i t).cpuMemIcb.cmdValid = true →
    decode regions (i t).cpuMemIcb.cmd.addr = some 5
  taken : ∀ t < stop, (MemPath.arbtBusIcb (s t).path (arbtBus (s t) (i t)) 1).rspValid = true →
    (i t).cpuMemIcb.rspReady = true
  apart : ∀ t, a ≤ t → t < stop → (i t).cpuMemIcb.cmdValid = true →
    (i t).cpuMemIcb.cmd.read = true ∨
      ∀ addr, settings.Uses addr → ramAddr (i t).cpuMemIcb.cmd ≠ wordIndex addr
  starts : (s a).acc.icbSlave.start.getLsbD 0 = true
  once : ∀ t < stop, t ≠ a → (s t).acc.mainFsm.state = .idle →
    (s t).acc.icbSlave.start.getLsbD 0 = false
  settled : ∀ t, a ≤ t → t ≤ stop → settings.HeldBy (s t).acc
  regions : settings.Regions
  placed : settings.Placed

variable {a stop n t : Nat} {settings : Settings} {s : Nat → State} {i : Nat → Input}

theorem topInput_rspValid {newest middle oldest : Option (Fin 2 × IcbCmd)} {answer : IcbRsp}
    (flow : Flowing (s t).path newest middle oldest answer) :
    (accInputs s i t).accIcbRspValid = oldest.any fun x => decide (x.1 = 0) := by
  show (MemPath.arbtBusIcb (s t).path (arbtBus (s t) (i t)) 0).rspValid = _
  rw [MemPath.arbtBusIcb, SirvGnrlIcbArbt.iIcb_rspValid (le_refl 2) flow.arbt,
    flow.iIcb_rspValid]
  cases oldest with
  | none => rfl
  | some x => exact congrArg _ (decide_eq_decide.mpr Option.some_inj)

theorem topInput_cmdReady {newest middle oldest : Option (Fin 2 × IcbCmd)} {answer : IcbRsp}
    (flow : Flowing (s t).path newest middle oldest answer) :
    (accInputs s i t).accIcbCmdReady = true :=
  (flow.arbtBusIcb_cmdReady (arbtBus (s t) (i t)) 0).trans (MemPath.iBusIcbCmdGrtVec_zero _)

theorem any_granted (s : State) (i : Input) :
    ((granted (arbtBus s i)).any fun x => decide (x.1 = 0)) =
      BusUnits.accIcbCmdValid s.acc.bus := by
  cases valid : BusUnits.accIcbCmdValid s.acc.bus with
  | true =>
      rw [granted_zero (i := arbtBus s i) valid]
      rfl
  | false =>
      rw [granted_one (i := arbtBus s i) valid]
      split_ifs <;> rfl

namespace Runs

variable (runs : Runs a stop settings s i)

include runs

theorem path_trace (t : Nat) :
    pathState s (t + 1) = MemPath.step (pathState s t) (ports s i t) (i t).outside :=
  congrArg State.path (runs.trace t)

theorem acc_trace (t : Nat) :
    accState s (t + 1) = RepvggAccTop.step (accState s t) (accInputs s i t) :=
  congrArg State.acc (runs.trace t)

section Streamed

variable (streams : Streams n (pathState s) (ports s i))

include streams

theorem cmdReady (within : t ≤ n) : (accInputs s i t).accIcbCmdReady = true :=
  topInput_cmdReady (streams.flowing runs.path_trace runs.initial.path within).1

theorem silent (within : t ≤ n) (early : t < 3) : (accInputs s i t).accIcbRspValid = false := by
  rw [topInput_rspValid (streams.flowing runs.path_trace runs.initial.path within).1,
    delayed_early _ early]
  rfl

/-- The accelerator has the responses to its own commands, three cycles later. -/
theorem answered (within : t + 3 ≤ n) : (accInputs s i (t + 3)).accIcbRspValid =
    RepvggAccTop.accepts (accState s t) (accInputs s i t) := by
  rw [topInput_rspValid (streams.flowing runs.path_trace runs.initial.path within).1,
    delayed_add, RepvggAccTop.accepts, runs.cmdReady streams (by omega), Bool.and_true]
  exact any_granted (s t) (i t)

theorem rdata_eq (within : t + 3 ≤ n)
    (accepted : RepvggAccTop.accepts (accState s t) (accInputs s i t) = true) :
    (accInputs s i (t + 3)).accIcbRspRdata =
      SubsysRam.dout (SubsysRam.step (ramAfter s i t) (access (ports s i t 0).cmd)) := by
  have valid : BusUnits.accIcbCmdValid (s t).acc.bus = true :=
    (Bool.and_eq_true_iff.mp accepted).1
  obtain ⟨flow, -⟩ := streams.flowing runs.path_trace runs.initial.path within
  obtain ⟨-, ram⟩ :=
    streams.flowing runs.path_trace runs.initial.path (t := t + 2) (by omega)
  have here : granted (ports s i t) = some (0, (ports s i t 0).cmd) := granted_zero valid
  have shown := flow.iIcb_rsp (by rw [delayed_add, here]; rfl)
  show (E203SubsysMems.iIcb (pathState s (t + 3)).mems).rsp.rdata = _
  rw [shown]
  show SubsysRam.dout (pathState s (t + 2)).mems.sram.ram = _
  rw [ram, show t + 2 - 1 = t + 1 from rfl, asked_succ, here, served_append]
  rfl

end Streamed

theorem streams_succ (streams : Streams n (pathState s) (ports s i)) (within : n < stop)
    (command : BusUnits.accIcbCmdValid (s n).acc.bus = true →
      InSram (RepvggAccTop.command (accState s n) (accInputs s i n)).addr)
    (response : (accInputs s i n).accIcbRspValid = true →
      IcbMaster.accIcbRspReady (s n).acc.bus.icbMaster = true) :
    Streams (n + 1) (pathState s) (ports s i) where
  inSram := fun t before k valid => by
    by_cases earlier : t < n
    · exact streams.inSram t earlier k valid
    obtain rfl : t = n := by omega
    match k with
    | 0 => exact (command valid).decode_eq
    | 1 => exact runs.inSram t within valid
  taken := fun t before k valid => by
    by_cases earlier : t < n
    · exact streams.taken t earlier k valid
    obtain rfl : t = n := by omega
    match k with
    | 0 => exact response valid
    | 1 => exact runs.taken t within valid

theorem idle (before : n ≤ a) (within : n ≤ stop) : Streams n (pathState s) (ports s i) ∧
    ∀ t ≤ n, RepvggAccTop.Shows (.rest MainFsm.reset) (accState s t) := by
  induction n with
  | zero =>
      refine ⟨⟨fun t below => absurd below (by omega), fun t below => absurd below (by omega)⟩,
        fun t first => ?_⟩
      obtain rfl : t = 0 := by omega
      exact RepvggAccTop.shows_reset runs.initial.acc
  | succ n held =>
      obtain ⟨streams, rested⟩ := held (by omega) (by omega)
      have quiet {t : Nat} (early : t ≤ n) :
          BusUnits.accIcbCmdValid (accState s t).bus = false :=
        (rested t early).accIcbCmdValid
      have unanswered : (accInputs s i n).accIcbRspValid = false := by
        by_cases first : n < 3
        · exact runs.silent streams le_rfl first
        · obtain ⟨u, rfl⟩ := Nat.exists_eq_add_of_le' (Nat.le_of_not_lt first)
          rw [runs.answered streams le_rfl, RepvggAccTop.accepts, quiet (by omega)]
          rfl
      refine ⟨runs.streams_succ streams (by omega) (fun valid => ?_) fun valid => ?_,
        fun t early => ?_⟩
      · rw [show BusUnits.accIcbCmdValid (s n).acc.bus = false from quiet le_rfl] at valid
        cases valid
      · rw [unanswered] at valid
        cases valid
      · by_cases earlier : t ≤ n
        · exact rested t earlier
        obtain rfl : t = n + 1 := by omega
        have now := rested n le_rfl
        have fits := Control.fits_timeline (L := 1) (by decide) 0
        rw [Control.response_zero le_rfl, Control.timeline_zero, ← unanswered] at fits
        have next := now.step fits
        have state : (accState s n).mainFsm.state = .idle := by
          rw [now.main]
          rfl
        have unstarted : (accState s n).icbSlave.start.getLsbD 0 = false :=
          runs.once n (by omega) (by omega) state
        rw [unstarted, unanswered, Control.next_rest] at next
        rw [runs.acc_trace n]
        exact next

end Runs

theorem ramAfter_succ (s : Nat → State) (i : Nat → Input) (t : Nat) : ramAfter s i (t + 1) =
    (granted (ports s i t)).elim (ramAfter s i t) fun x =>
      SubsysRam.step (ramAfter s i t) (access x.2) := by
  unfold ramAfter
  rw [asked_succ, served_append]
  cases granted (ports s i t) <;> rfl

def startMemory (a : Nat) (s : Nat → State) (i : Nat → Input) : Memory :=
  bytes (ramAfter s i a)

structure Progress (a n : Nat) (settings : Settings) (s : Nat → State) (i : Nat → Input) :
    Prop where
  streams : Streams n (pathState s) (ports s i)
  runsUpTo : RunsUpTo 3 a n (startMemory a s i) (accState s) (accInputs s i)
  agrees : ∀ t, a ≤ t → t ≤ n → Agrees settings.Uses
    (contents (startMemory a s i) (accState s) (accInputs s i) t) (ramAfter s i t)

namespace Progress

variable (progress : Progress a n settings s i)

include progress

theorem accIcbRspReady (runs : Runs a stop settings s i)
    (responds : (accInputs s i n).accIcbRspValid = true) :
    IcbMaster.accIcbRspReady (accState s n).bus.icbMaster = true := by
  by_cases first : n < 3
  · rw [runs.silent progress.streams le_rfl first] at responds
    cases responds
  obtain ⟨u, rfl⟩ := Nat.exists_eq_add_of_le' (Nat.le_of_not_lt first)
  have run := progress.runsUpTo.firstRun (by decide)
  have answer := run.answered u
  rw [RepvggAccTop.continuedState_eq (by omega),
    RepvggAccTop.continuedInput_eq (t := u) (by omega), ← runs.answered progress.streams le_rfl,
    responds] at answer
  have ready := run.accIcbRspReady (by decide) (by decide) le_rfl answer
  rwa [RepvggAccTop.continuedState_eq le_rfl] at ready

theorem command_within (settled : ∀ t, a ≤ t → t ≤ n → settings.HeldBy (accState s t))
    (within : t ≤ n) (valid : BusUnits.accIcbCmdValid (accState s t).bus = true) :
    a < t ∧ settings.Within (RepvggAccTop.command (accState s t) (accInputs s i t)) := by
  have run := progress.runsUpTo.firstRun (by decide)
  have same : RepvggAccTop.continuedState 3 n (startMemory a s i) (accState s) (accInputs s i) t =
      accState s t := RepvggAccTop.continuedState_eq within
  rw [← same] at valid
  have command := run.command_within (by decide) (by decide)
    (fun u from_ until_ => by
      rw [RepvggAccTop.continuedState_eq until_]
      exact settled u from_ until_) within valid
  refine ⟨run.begun_of_cmdValid (by decide) (by decide) within valid, ?_⟩
  rw [same] at command
  exact command

end Progress

namespace Runs

variable (runs : Runs a stop settings s i)

include runs

theorem progress_start (within : a ≤ stop) : Progress a a settings s i := by
  obtain ⟨streams, rested⟩ := runs.idle le_rfl within
  have quiet {t : Nat} (early : t ≤ a) :
      RepvggAccTop.accepts (accState s t) (accInputs s i t) = false := by
    have none_ : BusUnits.accIcbCmdValid (accState s t).bus = false :=
      (rested t early).accIcbCmdValid
    rw [RepvggAccTop.accepts, none_, Bool.false_and]
  have unwritten {t : Nat} (early : t ≤ a) :
      contents (startMemory a s i) (accState s) (accInputs s i) t = startMemory a s i := by
    induction t with
    | zero => rfl
    | succ t held =>
        show (contents _ _ _ t).after (writeCommand _ _) = _
        rw [held (by omega), writeCommand, quiet (by omega)]
        rfl
  refine ⟨streams, ?_, fun t from_ until_ => ?_⟩
  · exact {
      trace := fun t _ => runs.acc_trace t
      initial := runs.initial.acc
      ready := fun t before => runs.cmdReady streams before.le
      silent := fun t before early => runs.silent streams before.le early
      answered := fun t before => runs.answered streams before.le
      reads := fun t before accepted => by
        rw [quiet (by omega)] at accepted
        cases accepted
      begun := le_rfl
      starts := runs.starts
      once := fun t before => runs.once t (before.trans_le within) }
  · obtain rfl : t = a := by omega
    rw [unwritten le_rfl]
    exact Agrees.bytes (fun addr uses => uses.inSram runs.placed) _

theorem progress_succ (progress : Progress a n settings s i) (begun : a ≤ n)
    (within : n < stop) : Progress a (n + 1) settings s i := by
  have settled : ∀ t, a ≤ t → t ≤ n → settings.HeldBy (accState s t) :=
    fun t from_ until_ => runs.settled t from_ (by omega)
  have streams : Streams (n + 1) (pathState s) (ports s i) :=
    runs.streams_succ progress.streams within
      (fun valid => (progress.command_within settled le_rfl valid).2.uses.inSram runs.placed)
      (progress.accIcbRspReady runs)
  have ready := runs.cmdReady streams (Nat.le_succ n)
  have before := progress.agrees n begun le_rfl
  have after : Agrees settings.Uses
      (contents (startMemory a s i) (accState s) (accInputs s i) (n + 1))
      (ramAfter s i (n + 1)) := by
    show Agrees _ ((contents _ _ _ n).after (writeCommand _ _)) _
    rw [ramAfter_succ]
    cases valid : BusUnits.accIcbCmdValid (accState s n).bus with
    | false =>
        have none_ : writeCommand (accState s n) (accInputs s i n) = none := by
          rw [writeCommand, RepvggAccTop.accepts, valid]
          rfl
        rw [none_, granted_one (i := ports s i n) valid]
        split_ifs with core
        · obtain read | other := runs.apart n begun within core
          · exact before.read read
          · exact before.elsewhere other
        · exact before
    | true =>
        have command := (progress.command_within settled le_rfl valid).2
        have accepted : RepvggAccTop.accepts (accState s n) (accInputs s i n) = true := by
          rw [RepvggAccTop.accepts, valid, ready]
          rfl
        rw [granted_zero (i := ports s i n) valid, writeCommand, accepted]
        cases read : (RepvggAccTop.command (accState s n) (accInputs s i n)).read with
        | true => exact before.read read
        | false =>
            have granted : (accState s n).bus.icbMaster.state = .omap := by
              rw [RepvggAccTop.command_read] at read
              unfold BusUnits.accIcbCmdValid at valid
              cases grant : (accState s n).bus.icbMaster.state with
              | none =>
                  rw [grant] at valid
                  cases valid
              | omap => rfl
              | weight =>
                  rw [grant] at read
                  cases read
              | imap =>
                  rw [grant] at read
                  cases read
            exact before.write (c := (ports s i n 0).cmd)
              (fun addr uses => uses.inSram runs.placed)
              (command.uses.inSram runs.placed) read (if_pos granted)
  refine ⟨streams, ?_, fun t from_ until_ => ?_⟩
  · exact {
      trace := fun t _ => runs.acc_trace t
      initial := runs.initial.acc
      ready := fun t before => runs.cmdReady streams before.le
      silent := fun t before early => runs.silent streams before.le early
      answered := fun t before => runs.answered streams before.le
      reads := fun t before accepted read => by
        obtain ⟨begun, command⟩ := progress.command_within settled (t := t) (by omega)
          (Bool.and_eq_true_iff.mp accepted).1
        rw [runs.rdata_eq streams before.le accepted,
          SubsysRam.dout_read (c := (ports s i t 0).cmd) _ read,
          progress.agrees t begun.le (by omega) _ command.uses]
        rfl
      begun := by omega
      starts := runs.starts
      once := fun t before => runs.once t (by omega) }
  · by_cases earlier : t ≤ n
    · exact progress.agrees t from_ earlier
    · obtain rfl : t = n + 1 := by omega
      exact after

theorem progress (from_ : a ≤ n) (within : n ≤ stop) : Progress a n settings s i := by
  induction n, from_ using Nat.le_induction with
  | base => exact runs.progress_start within
  | succ n from_ held => exact runs.progress_succ (held (by omega)) from_ within

end Runs

end E203SubsysMain

end RepVGGAcc
