import RepVGGAcc.Fabric.Decoding
import RepVGGAcc.Fabric.E203Subsys
import RepVGGAcc.Fabric.SramService

/-! The memory path of the accelerator and the core as one atomic service. -/

namespace RepVGGAcc

open Clocked

namespace E203SubsysMems

open SirvIcb1toNBus (Aligned Apart busService decode selects_iff apart_of_bounds deftService)

theorem regions_aligned : Aligned regions := by
  unfold Aligned
  decide

theorem regions_apart : Apart regions :=
  apart_of_bounds regions_aligned (by decide)

theorem decode_sram {addr : BitVec 32} :
    decode regions addr = some 5 ↔ 0x40000000 ≤ addr.toNat ∧ addr.toNat < 0x40200000 := by
  rw [← decide_eq_true_iff (p := decode regions addr = some 5),
    ← SirvIcb1toNBus.selects_eq regions_apart, selects_iff regions_aligned]
  exact and_iff_right rfl

/-- The services of the slaves outside. -/
structure Services where
  dm : IcbService
  mrom : IcbService
  qspi0Ro : IcbService
  sysmem : IcbService

/-- The service of each output. Those that are not used are never asked. -/
def outputs (services : Services) (ram : SubsysRam.State) : Fin 8 → IcbService
  | 0 => services.dm
  | 1 => services.mrom
  | 3 => services.qspi0Ro
  | 4 => services.sysmem
  | 5 => SirvSramIcbCtrl.sramService ram
  | _ => deftService

def memService (services : Services) (ram : SubsysRam.State) : IcbService :=
  busService regions (outputs services ram)

structure Attached (services : Services) (s : Nat → State) (out : Nat → Outside) : Prop where
  dm : services.dm.At (fun t => oIcb (s t) 0) fun t => oIcbUp (s t) (out t) 0
  mrom : services.mrom.At (fun t => oIcb (s t) 1) fun t => oIcbUp (s t) (out t) 1
  qspi0Ro : services.qspi0Ro.At (fun t => oIcb (s t) 3) fun t => oIcbUp (s t) (out t) 3
  sysmem : services.sysmem.At (fun t => oIcb (s t) 4) fun t => oIcbUp (s t) (out t) 4

theorem notUsed_at (service : IcbService) (down : Nat → IcbDown) :
    service.At down fun _ => notUsed := by
  intro n
  have silent : events (fun t => icbRsp (down t) notUsed) n = [] := events_eq_nil fun _ _ => rfl
  rw [silent]
  exact List.nil_prefix

section Run

variable {s : Nat → State} {i : Nat → IcbDown} {out : Nat → Outside} {services : Services}

theorem serves (trace : ∀ t, s (t + 1) = step (s t) (i t) (out t)) (initial : IsReset (s 0))
    (attached : Attached services s out) :
    (memService services (s 0).sram.ram).At i fun t => iIcb (s t) := by
  have sram := SirvSramIcbCtrl.at_ (s := fun t => (s t).sram)
    (fun t => congrArg State.sram (trace t)) initial.sram
  refine SirvIcb1toNBus.serves regions_apart rfl Nat.two_pos
    (fun t => congrArg State.memFab (trace t)) initial.memFab fun k => ?_
  match k with
  | 0 => exact attached.dm
  | 1 => exact attached.mrom
  | 2 => exact notUsed_at _ _
  | 3 => exact attached.qspi0Ro
  | 4 => exact attached.sysmem
  | 5 => exact sram
  | 6 => exact notUsed_at _ _
  | 7 => exact notUsed_at _ _

end Run

end E203SubsysMems

namespace MemPath

open E203SubsysMems (Services Outside Attached memService)

def accepted (s : State) (i : Fin 2 → IcbDown) : Option (Fin 2 × IcbCmd) :=
  SirvGnrlIcbArbt.request rspidFifo s.arbt i (E203SubsysMems.iIcb s.mems)

/-- The arbiter, the bus, its buffers and the SRAM controller are an atomic memory map for
the accelerator and the core, whatever they do. -/
theorem linearizes {s : Nat → State} {i : Nat → Fin 2 → IcbDown} {out : Nat → Outside}
    {services : Services} (trace : ∀ t, s (t + 1) = step (s t) (i t) (out t))
    (initial : IsReset (s 0)) (attached : Attached services (fun t => (s t).mems) out) :
    (memService services (s 0).mems.sram.ram).Linearizes (fun t => accepted (s t) (i t)) i
      fun t => arbtBusIcb (s t) (i t) := by
  have mems := E203SubsysMems.serves (s := fun t => (s t).mems)
    (fun t => congrArg State.mems (trace t)) initial.mems attached
  exact .of_serves (SirvGnrlIcbArbt.serves (s := fun t => (s t).arbt)
    (fun t => congrArg State.arbt (trace t)) initial.arbt (le_refl 2) mems)
    (fun k _ => SirvGnrlIcbArbt.bind_request k) fun k _ => SirvGnrlIcbArbt.bind_response k

/-! The path with slaves outside that are silent. The accelerator writes the SRAM in every
third cycle and the core reads it. -/

def silent : Outside where
  dm := E203SubsysMems.notUsed
  mrom := E203SubsysMems.notUsed
  qspi0Ro := E203SubsysMems.notUsed
  sysmem := E203SubsysMems.notUsed

def noServices : Services where
  dm := SirvIcb1toNBus.deftService
  mrom := SirvIcb1toNBus.deftService
  qspi0Ro := SirvIcb1toNBus.deftService
  sysmem := SirvIcb1toNBus.deftService

def writesAndReads (t : Nat) : Fin 2 → IcbDown
  | 0 => {
      cmdValid := t % 3 == 0
      cmd := { read := false, addr := 0x40000000, wdata := BitVec.ofNat 32 t, wmask := 0xf }
      rspReady := true }
  | 1 => {
      cmdValid := true
      cmd := { read := true, addr := 0x40000000, wdata := 0, wmask := 0 }
      rspReady := true }

def writesAndReadsRun : Nat → State :=
  run (fun s i => step s i silent) reset writesAndReads

theorem linearizes_writesAndReads :
    (memService noServices reset.mems.sram.ram).Linearizes
      (fun t => accepted (writesAndReadsRun t) (writesAndReads t)) writesAndReads
      fun t => arbtBusIcb (writesAndReadsRun t) (writesAndReads t) :=
  linearizes (s := writesAndReadsRun) (i := writesAndReads) (fun _ => rfl) isReset_reset
    ⟨E203SubsysMems.notUsed_at _ _, E203SubsysMems.notUsed_at _ _,
      E203SubsysMems.notUsed_at _ _, E203SubsysMems.notUsed_at _ _⟩

end MemPath

end RepVGGAcc
