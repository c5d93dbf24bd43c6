import RepVGGAcc.Fabric.LayerOnSram
import RepVGGAcc.System.Report

/-! The accesses of the core to the SRAM while the accelerator runs. -/

namespace RepVGGAcc

open Clocked

namespace MemPath

theorem iBusIcbCmdGrtVec_one (i : Fin 2 → IcbDown) :
    SirvGnrlIcbArbt.iBusIcbCmdGrtVec i 1 = !(i 0).cmdValid := by
  rw [Bool.eq_iff_iff, SirvGnrlIcbArbt.iBusIcbCmdGrtVec_eq_true]
  constructor
  · intro first
    rw [first 0 (by decide)]
    rfl
  · intro free j below
    obtain rfl : j = 0 := by omega
    exact (Bool.not_eq_true' _).mp free

end MemPath

namespace E203SubsysMain

open MemPath (granted_one)
open MemPath.Streams (asked_succ)
open RepvggAccTop (outputWord)
open SirvSramIcbCtrl (access ramAddr serve)
open SubsysRam (wordIndex)

variable {a stop t : Nat} {settings : Settings} {s : Nat → State} {i : Nat → Input}

def coreUp (s : Nat → State) (i : Nat → Input) (t : Nat) : IcbUp :=
  MemPath.arbtBusIcb (pathState s t) (ports s i t) ⟨1, Nat.one_lt_two⟩

/-- A command of the core is accepted after at most 50176 cycles. It waits that long when it
comes with the first read of the input map. -/
structure ServesCore (a stop : Nat) (s : Nat → State) (i : Nat → Input) : Prop where
  accepts : ∀ t, t + 50176 ≤ stop →
    ∃ u, t ≤ u ∧ u ≤ t + 50176 ∧ (coreUp s i u).cmdReady = true
  waits : ∀ k < 50176, a + 169 + k ≤ stop → (coreUp s i (a + 169 + k)).cmdReady = false

namespace Runs

variable (runs : Runs a stop settings s i) (begun : a ≤ stop)

include runs begun

theorem accIcbCmdValid_timeline (within : t ≤ stop) :
    BusUnits.accIcbCmdValid (accState s t).bus = (Control.timeline 3 (t - a)).cmdValid := by
  have run := (runs.progress begun le_rfl).runsUpTo.firstRun (by decide)
  have shown := run.control_eq (by decide) (by decide) within
  rw [RepvggAccTop.continuedState_eq within] at shown
  exact shown.accIcbCmdValid

theorem core_cmdReady (within : t ≤ stop) :
    (coreUp s i t).cmdReady = !(Control.timeline 3 (t - a)).cmdValid := by
  have flow := ((runs.progress begun le_rfl).streams.flowing runs.path_trace runs.initial.path
    within).1
  rw [← runs.accIcbCmdValid_timeline begun within]
  exact (flow.arbtBusIcb_cmdReady (ports s i t) 1).trans (MemPath.iBusIcbCmdGrtVec_one _)

/-- The accelerator does not starve the core. -/
theorem servesCore : ServesCore a stop s i where
  accepts := fun t within => by
    by_cases early : t < a
    · refine ⟨t, le_rfl, by omega, ?_⟩
      rw [runs.core_cmdReady begun (by omega), show t - a = 0 by omega, Control.timeline_zero]
      rfl
    · obtain ⟨v, from_, until_, pause⟩ := Control.exists_pause (L := 3) (by decide) (t - a)
      refine ⟨a + v, by omega, by omega, ?_⟩
      rw [runs.core_cmdReady begun (by omega), Nat.add_sub_cancel_left, pause]
      rfl
  waits := fun k inMap within => by
    rw [runs.core_cmdReady begun within, show a + 169 + k - a = 166 + 3 + k by omega,
      Control.cmdValid_map inMap]
    rfl

theorem done_eq (cleared : (s a).acc.icbSlave.done = 0) (from_ : a ≤ t) (within : t ≤ stop)
    (leaves : RepvggAccTop.LeavesDone a t (accState s) (accInputs s i)) :
    (s t).acc.icbSlave.done = if t < a + (451819 + 2 * 3) then 0 else 1 := by
  have run := (runs.progress begun le_rfl).runsUpTo.firstRun (by decide)
  have shown := run.done_eq (by decide) (by decide) (t := t)
    (by rw [RepvggAccTop.continuedState_eq begun]; exact cleared) from_ within
    fun u later before => by
      rw [RepvggAccTop.continuedState_eq (by omega), RepvggAccTop.continuedInput_eq (by omega)]
      exact leaves u later before
  rwa [RepvggAccTop.continuedState_eq within] at shown

end Runs

theorem servesCore_program : ServesCore 16 500000 programRun programInput :=
  (runs_program 500000).servesCore (by decide)

end E203SubsysMain

end RepVGGAcc
