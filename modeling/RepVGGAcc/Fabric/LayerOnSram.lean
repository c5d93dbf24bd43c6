import RepVGGAcc.Fabric.FirstRunOnSram

/-! The SRAM over the first run in the SoC. -/

namespace RepVGGAcc

open Clocked

namespace E203SubsysMain

open MemPath (granted granted_zero granted_one)
open MemPath.Streams (asked asked_succ)
open RepvggAccTop (Answers FirstRun contents outputWord)
open SirvSramIcbCtrl (access ramAddr serve)
open SubsysRam (InSram wordIndex)

variable {a stop t : Nat} {settings : Settings} {s : Nat → State} {i : Nat → Input}

def sramWord (s : Nat → State) (t : Nat) (index : BitVec 21) : BitVec 32 :=
  (s t).path.mems.sram.ram.memR index

def coreAsked (s : Nat → State) (i : Nat → Input) (t : Nat) : List IcbCmd :=
  events (fun u => (granted (ports s i u)).bind (atPort ⟨1, Nat.one_lt_two⟩)) t

theorem coreAsked_succ (s : Nat → State) (i : Nat → Input) (t : Nat) :
    coreAsked s i (t + 1) =
      coreAsked s i t ++ ((granted (ports s i t)).bind (atPort 1)).toList :=
  events_succ _ t

namespace Runs

variable (runs : Runs a stop settings s i)

include runs

/-- To the accelerator the arbiter, the bus and the SRAM are a memory that answers after three
cycles: its run is a first run on the words it found in the SRAM when it was started. -/
theorem isFirstRun (begun : a ≤ stop) : ∃ s' i', FirstRun 3 a stop s' i' ∧
    Answers (startMemory a s i) s' i' 3 ∧ (∀ t ≤ stop, s' t = accState s t) ∧
      ∀ t < stop, i' t = accInputs s i t := by
  have runsUpTo := (runs.progress begun le_rfl).runsUpTo
  exact ⟨_, _, runsUpTo.firstRun (by decide), runsUpTo.answers (by decide),
    fun t within => RepvggAccTop.continuedState_eq within,
    fun t within => RepvggAccTop.continuedInput_eq within⟩

theorem sramWord_succ (begun : a ≤ stop) (within : t < stop) (index : BitVec 21) :
    sramWord s (t + 1) index = (ramAfter s i t).memR index := by
  have ram := ((runs.progress begun le_rfl).streams.flowing runs.path_trace runs.initial.path
    (t := t + 1) within).2
  exact congrArg (fun ram => SubsysRam.State.memR ram index) ram

theorem ramAfter_rest (begun : a ≤ stop) (within : t ≤ stop) {index : BitVec 21}
    (other : ∀ k < 200704, wordIndex (wordAddr settings.outAddr k) ≠ index) :
    (ramAfter s i t).memR index =
      (served serve (s 0).path.mems.sram.ram (coreAsked s i t)).memR index := by
  induction t with
  | zero => rfl
  | succ t held =>
      have before := held (by omega)
      have progress := runs.progress begun le_rfl
      rw [ramAfter_succ, coreAsked_succ, served_append]
      generalize served serve (s 0).path.mems.sram.ram (coreAsked s i t) = ram at before ⊢
      cases valid : BusUnits.accIcbCmdValid (accState s t).bus with
      | true =>
          have command := progress.command_within runs.settled (by omega : t ≤ stop) valid
          rw [granted_zero (i := ports s i t) valid]
          show (SubsysRam.step (ramAfter s i t) (access (ports s i t 0).cmd)).memR index =
            ram.memR index
          rw [← before]
          cases command.2 with
          | read read => rw [SubsysRam.memR_read (c := (ports s i t 0).cmd) _ read]
          | write _ inside addr =>
              refine SubsysRam.memR_elsewhere _ (c := (ports s i t 0).cmd) ?_
              show wordIndex (RepvggAccTop.command (accState s t) (accInputs s i t)).addr ≠ index
              rw [addr]
              exact other _ inside
      | false =>
          rw [granted_one (i := ports s i t) valid]
          split_ifs with core
          · show (SubsysRam.step _ (access _)).memR index =
              (SubsysRam.step ram (access _)).memR index
            unfold SubsysRam.step
            simp only [before]
          · exact before

/-- Every other word is what the core has made of it, as if the accelerator was not there. -/
theorem keepsRest (begun : a ≤ stop) (within : t < stop) {index : BitVec 21}
    (other : ∀ k < 200704, wordIndex (wordAddr settings.outAddr k) ≠ index) :
    sramWord s (t + 1) index =
      (served serve (s 0).path.mems.sram.ram (coreAsked s i t)).memR index := by
  rw [runs.sramWord_succ begun within]
  exact runs.ramAfter_rest begun within.le other

end Runs

/-! The SoC with the program of the driver and a core that reads in every cycle, the first
word of the SRAM and the first word of the output map in turn. -/

/-- `SRAM_BASE` with `IMAP_OFFSET`, `W3_OFFSET`, `W1_OFFSET` and `OMAP_OFFSET`. -/
def sramOffsets : Settings where
  inAddr := 0x40000000
  w3Addr := 0x40040000
  w1Addr := 0x40050000
  outAddr := 0x40060000

def resetSoc : State where
  acc := System.resetTop
  path := MemPath.reset

/-- A command on the register port as `System.driver` gives it. -/
def programInput (t : Nat) : Input where
  accCfgIcb := {
    cmdValid := (System.driver sramOffsets t false).icbCmdValid
    cmd := {
      read := (System.driver sramOffsets t false).icbCmdRead
      addr := (System.driver sramOffsets t false).icbCmdAddr
      wdata := (System.driver sramOffsets t false).icbCmdWdata
      wmask := 0xf }
    rspReady := (System.driver sramOffsets t false).icbRspReady }
  cpuMemIcb := {
    cmdValid := true
    cmd := {
      read := true
      addr := if t % 2 = 0 then 0x40000000 else 0x40060000
      wdata := 0
      wmask := 0 }
    rspReady := true }
  outside := MemPath.silent

def programRun : Nat → State :=
  run step resetSoc programInput

theorem programs_programRun : System.Programs sramOffsets (accState programRun) :=
  ⟨rfl, fun _ => rfl⟩

theorem inSram_base : InSram 0x40000000 :=
  ⟨by decide, by decide, by decide⟩

theorem inSram_map : InSram 0x40060000 :=
  ⟨by decide, by decide, by decide⟩

theorem runs_program (stop : Nat) : Runs 16 stop sramOffsets programRun programInput where
  trace := isTrace_run step resetSoc programInput
  initial := ⟨System.isReset_resetTop, MemPath.isReset_reset⟩
  inSram := fun t _ _ => by
    show SirvIcb1toNBus.decode _ (if t % 2 = 0 then 0x40000000 else 0x40060000) = _
    split_ifs
    · exact inSram_base.decode_eq
    · exact inSram_map.decode_eq
  taken := fun _ _ _ => rfl
  apart := fun _ _ _ _ => Or.inl rfl
  starts := by
    have start := (programs_programRun.registers 0).2
    show (accState programRun 16).icbSlave.start.getLsbD 0 = true
    rw [start]
    rfl
  once := fun t _ other _ => by
    show (accState programRun t).icbSlave.start.getLsbD 0 = false
    rw [programs_programRun.start_eq other]
    rfl
  settled := fun t started _ => programs_programRun.settled started
  regions := by constructor <;> decide
  placed := by constructor <;> exact ⟨by decide, by decide, by decide⟩

theorem isFirstRun_program : ∃ s' i', FirstRun 3 16 500000 s' i' ∧
    Answers (startMemory 16 programRun programInput) s' i' 3 ∧
    (∀ t ≤ 500000, s' t = accState programRun t) ∧
      ∀ t < 500000, i' t = accInputs programRun programInput t :=
  (runs_program 500000).isFirstRun (by decide)

theorem keepsRest_program : sramWord programRun 460001 0 =
    (served serve (programRun 0).path.mems.sram.ram
      (coreAsked programRun programInput 460000)).memR 0 :=
  (runs_program 500000).keepsRest (by decide) (by decide) fun k inside same => by
    have place := (runs_program 500000).placed.omap.inSram inside
    have address := place.wordIndex_inj inSram_base (same.trans (by decide))
    have fits : FitsAt sramOffsets.outAddr 200704 := by decide
    have value := fits.toNat_wordAddr inside
    rw [address] at value
    have base : sramOffsets.outAddr.toNat = 0x40060000 := by decide
    have first : (0x40000000 : BitVec 32).toNat = 0x40000000 := by decide
    omega

end E203SubsysMain

end RepVGGAcc
