import RepVGGAcc.Fabric.RegisterAccess
import RepVGGAcc.System.Program

/-! The path from the LSU to the registers of the accelerator. -/

namespace RepVGGAcc

open Clocked

namespace E203SubsysPerips

open SirvIcb1toNBus (Aligned apart_of_bounds decode selects_eq selects_iff)

theorem regions_aligned : Aligned regions := by
  unfold Aligned
  decide

theorem regions_apart : SirvIcb1toNBus.Apart regions :=
  apart_of_bounds regions_aligned (by decide)

theorem decode_accCfg {addr : BitVec 32} : decode regions addr = some (Fin.last 15) ↔
    0x10042000 ≤ addr.toNat ∧ addr.toNat < 0x10043000 := by
  rw [← decide_eq_true_iff (p := decode regions addr = some (Fin.last 15)),
    ← selects_eq regions_apart, selects_iff regions_aligned]
  exact and_iff_right rfl

end E203SubsysPerips

namespace CorePath

open SirvIcb1toNBus (busService deftService)

/-- The services of the slaves outside. -/
structure Services where
  fio : IcbService
  plic : IcbService
  clint : IcbService
  perips : Fin 15 → IcbService
  mems : E203SubsysMems.Services

structure Attached (services : Services) (s : Nat → State) (i : Nat → Input) : Prop where
  fio : services.fio.At (fun t => E203Biu.oIcb (s t).biu E203Biu.fio) fun t => (i t).fio
  plic : services.plic.At (fun t => E203Biu.oIcb (s t).biu E203Biu.plic) fun t => (i t).plic
  clint : services.clint.At (fun t => E203Biu.oIcb (s t).biu E203Biu.clint) fun t => (i t).clint
  perips : ∀ k, (services.perips k).At
    (fun t => E203SubsysPerips.oIcb (s t).perips k.castSucc) fun t => (i t).perips k
  mems : E203SubsysMems.Attached services.mems (fun t => (s t).main.path.mems) fun t => (i t).mems

def peripServices (services : Services) (registers : IcbService) : Fin 16 → IcbService :=
  Fin.snoc services.perips registers

def slaves (services : Services) (mem registers : IcbService) : Fin 6 → IcbService
  | 0 => mem
  | 1 => services.fio
  | 2 => services.plic
  | 3 => services.clint
  | 4 => busService E203SubsysPerips.regions (peripServices services registers)
  | 5 => deftService

def registers (s : Nat → State) (t : Nat) : IcbSlave.State :=
  (s t).main.acc.icbSlave

def cfg (s : Nat → State) (t : Nat) : IcbDown :=
  E203SubsysPerips.accCfgIcb (s t).perips

def lsu : Fin 2 := ⟨0, Nat.two_pos⟩

def writesField (k : Fin 7) (c : IcbCmd) : Bool :=
  !c.read && c.addr == AccCfg.fieldAddr k

/-- A read of a register of the accelerator gets what was written there last, without an
error. -/
structure ReadsRegisters (down : Nat → IcbDown) (up : Nat → IcbUp) : Prop where
  answered : ∀ m, (events (fun t => icbRsp (down t) (up t)) m).length ≤
    (events (fun t => icbCmd (down t) (up t)) m).length
  reads : ∀ k m n c r, (events (fun t => icbCmd (down t) (up t)) m)[n]? = some c →
    (events (fun t => icbRsp (down t) (up t)) m)[n]? = some r →
      c.read = true → c.addr = AccCfg.fieldAddr k →
        r.err = false ∧ r.rdata = IcbSlave.lastWritten (writesField k)
          ((events (fun t => icbCmd (down t) (up t)) m).take n)

/-! Where a command of the core goes. -/

section Route

theorem target_field (k : Fin 7) (c : IcbCmd) (here : c.addr = AccCfg.fieldAddr k) :
    E203Biu.target (E203Biu.entry (lsu, c)) = E203Biu.ppi := by
  have region : ∀ k, SirvIcb1toNBus.decode E203Biu.regions (AccCfg.fieldAddr k) = some 3 := by
    decide
  refine (E203Biu.target_of_decode (k := 3) ?_ rfl).trans rfl
  show SirvIcb1toNBus.decode E203Biu.regions c.addr = _
  rw [here, region]

theorem decode_field (k : Fin 7) : SirvIcb1toNBus.decode E203SubsysPerips.regions
    (AccCfg.fieldAddr k) = some (Fin.last 15) := by
  rw [E203SubsysPerips.decode_accCfg]
  revert k
  decide

theorem addr_eq {addr : BitVec 32} {k : Fin 7}
    (region : SirvIcb1toNBus.decode E203SubsysPerips.regions addr = some (Fin.last 15))
    (reg : addr.extractLsb' 0 12 = IcbSlave.configAddr k) : addr = AccCfg.fieldAddr k := by
  obtain ⟨low, high⟩ := E203SubsysPerips.decode_accCfg.mp region
  have field : ∀ k, (AccCfg.fieldAddr k).toNat =
      0x10042000 + ((AccCfg.fieldAddr k).extractLsb' 0 12).toNat := by decide
  have bits := congrArg BitVec.toNat reg
  rw [← Driver.Sets.fieldAddr_eq k] at bits
  apply BitVec.eq_of_toNat_eq
  rw [field, ← bits, BitVec.extractLsb'_toNat, Nat.shiftRight_zero]
  omega

theorem reaches_iff (k : Fin 7) (x : Fin 2 × IcbCmd) :
    (E203Biu.target (E203Biu.entry x) = E203Biu.ppi ∧
      SirvIcb1toNBus.decode E203SubsysPerips.regions x.2.addr = some (Fin.last 15) ∧
        IcbSlave.writesConfig k x.2 = true) ↔ x.1 = lsu ∧ writesField k x.2 = true := by
  obtain ⟨port, c⟩ := x
  constructor
  · rintro ⟨toPpi, region, write⟩
    unfold IcbSlave.writesConfig at write
    rw [Bool.and_eq_true, beq_iff_eq] at write
    refine ⟨by_contra fun other => ?_, ?_⟩
    · have fetch : ∀ port : Fin 2, port ≠ lsu → decide (port.val = 1) = true := by decide
      exact Bool.eq_false_iff.mp (E203Biu.usr_of_target toPpi) (fetch port other)
    · unfold writesField
      rw [write.1, addr_eq region write.2, Bool.true_and]
      exact beq_self_eq_true _
  · rintro ⟨rfl, write⟩
    unfold writesField at write
    rw [Bool.and_eq_true, beq_iff_eq] at write
    refine ⟨target_field k c write.2, ?_, ?_⟩
    · show SirvIcb1toNBus.decode _ c.addr = _
      rw [write.2]
      exact decode_field k
    · unfold IcbSlave.writesConfig
      rw [write.1, write.2, Driver.Sets.fieldAddr_eq, Bool.true_and]
      exact beq_self_eq_true _

theorem filter_writes (k : Fin 7) (before : List (Fin 2 × IcbCmd)) :
    (((((before.map E203Biu.entry).filter fun x =>
        decide (E203Biu.target x = E203Biu.ppi)).map E203Biu.UsrCmd.cmd).filter fun c =>
      decide (SirvIcb1toNBus.decode E203SubsysPerips.regions c.addr = some (Fin.last 15))).filter
        (IcbSlave.writesConfig k)) =
      (before.filterMap (atPort lsu)).filter (writesField k) := by
  have reached : (fun x : Fin 2 × IcbCmd =>
      IcbSlave.writesConfig k x.2 &&
        (decide (SirvIcb1toNBus.decode E203SubsysPerips.regions x.2.addr = some (Fin.last 15)) &&
          decide (E203Biu.target (E203Biu.entry x) = E203Biu.ppi))) =
      fun x => decide (x.1 = lsu) && writesField k x.2 := by
    funext x
    have reaches := reaches_iff k x
    rw [Bool.eq_iff_iff]
    simp only [Bool.and_eq_true, decide_eq_true_iff]
    tauto
  calc _ = (before.filter fun x => IcbSlave.writesConfig k x.2 &&
        (decide (SirvIcb1toNBus.decode E203SubsysPerips.regions x.2.addr = some (Fin.last 15)) &&
          decide (E203Biu.target (E203Biu.entry x) = E203Biu.ppi))).map Prod.snd := by
        simp only [List.filter_map, List.filter_filter, List.map_map]
        rfl
    _ = (before.filter fun x => decide (x.1 = lsu) && writesField k x.2).map Prod.snd := by
        rw [reached]
    _ = _ := by
        rw [List.filter_filterMap, ← List.filterMap_eq_filter, List.map_filterMap]
        refine List.filterMap_congr fun x _ => ?_
        by_cases own : x.1 = lsu <;> cases written : writesField k x.2 <;>
          simp [atPort, own, written, Option.guard, Option.filter]

end Route

section Run

variable {services : Services} {s : Nat → State} {i : Nat → Input} {bank : IcbService}

theorem perips_at (attached : Attached services s i)
    (served : bank.At (cfg s) fun t => IcbSlave.portUp (registers s t)) (k : Fin 16) :
    (peripServices services bank k).At (fun t => E203SubsysPerips.oIcb (s t).perips k)
      fun t => peripsUp (s t) (i t) k := by
  unfold peripServices peripsUp E203SubsysPerips.oIcbUp
  cases k using Fin.lastCases with
  | last =>
      simp only [Fin.snoc_last]
      exact served
  | cast k =>
      simp only [Fin.snoc_castSucc]
      exact attached.perips k

variable (trace : ∀ t, s (t + 1) = step (s t) (i t))

include trace

theorem registers_step (t : Nat) : registers s (t + 1) = IcbSlave.step (registers s t)
    (IcbSlave.portInput (cfg s t) (s t).main.acc.mainFsm.accDone) :=
  congrArg (fun s => s.main.acc.icbSlave) (trace t)

variable (initial : IsReset (s 0)) (attached : Attached services s i)

include initial attached

theorem exists_mem : ∃ answer, (IcbService.recalled answer).At
    (fun t => E203Biu.oIcb (s t).biu E203Biu.mem) fun t => biuUp (s t) (i t) E203Biu.mem := by
  have path := MemPath.linearizes (s := fun t => (s t).main.path)
    (fun t => congrArg (fun s => s.main.path) (trace t)) initial.main.path attached.mems
  exact exists_recalled { err := false, rdata := 0 } (path.length_le ⟨1, Nat.one_lt_two⟩)

theorem slaves_at (served : bank.At (cfg s) fun t => IcbSlave.portUp (registers s t))
    {mem : IcbService} (memory : mem.At (fun t => E203Biu.oIcb (s t).biu E203Biu.mem)
      fun t => biuUp (s t) (i t) E203Biu.mem) (k : Fin 6) :
    (slaves services mem bank k).At (fun t => E203Biu.oIcb (s t).biu k)
      fun t => biuUp (s t) (i t) k :=
  match k with
  | 0 => memory
  | 1 => attached.fio
  | 2 => attached.plic
  | 3 => attached.clint
  | 4 => SirvIcb1toNBus.serves E203SubsysPerips.regions_apart rfl Nat.two_pos
      (fun t => congrArg State.perips (trace t)) initial.perips (perips_at attached served)
  | 5 => SirvIcb1toNBus.deftService_at _

theorem rspReady (t : Nat) (valid : (registers s t).icbRspValid = true) :
    (cfg s t).rspReady = true := by
  have reset : registers s 0 = IcbSlave.reset := initial.main.acc.icbSlave
  have silent : (registers s 0).icbRspValid = false := by rw [reset]; rfl
  obtain ⟨answer, counted⟩ : ∃ answer, (IcbService.recalled answer).At (cfg s)
      fun t => IcbSlave.portUp (registers s t) :=
    exists_recalled { err := false, rdata := 0 } fun m =>
      (Nat.le_add_right _ _).trans
        (IcbSlave.length_responses (registers_step trace) silent m)
  obtain ⟨memAnswer, memory⟩ := exists_mem trace initial attached
  have few := E203Biu.length_le (s := fun t => (s t).biu)
    (fun t => congrArg State.biu (trace t)) initial.biu
    (slaves_at trace initial attached counted memory) E203Biu.ppi
  have port (t : Nat) :
      peripsUp (s t) (i t) (Fin.last 15) = IcbSlave.portUp (registers s t) := by
    simp only [peripsUp, E203SubsysPerips.oIcbUp, Fin.snoc_last]
    rfl
  refine SirvIcb1toNBus.rspReady_of_prompt (k := Fin.last 15) E203SubsysPerips.regions_apart rfl
    Nat.two_pos rfl (fun t => congrArg State.perips (trace t)) initial.perips
    (perips_at attached counted) (fun m => (few m).trans (Nat.le_succ _)) ?_ (fun t => ?_) t ?_
  · rw [port]
    exact silent
  · rw [port, port, IcbSlave.portUp, registers_step trace]
    exact IcbSlave.rspValid_step
  · rw [port]
    exact valid

/-- The LSU reads from the registers of the accelerator what it has written there last,
whatever it and the IFU do meanwhile, and whatever the accelerator does. -/
theorem readsRegisters : ReadsRegisters (fun t => (i t).core lsu)
    fun t => coreIcb (s t) (i t) lsu := by
  obtain ⟨others, banked⟩ := IcbSlave.exists_bank (registers_step trace)
    initial.main.acc.icbSlave (rspReady trace initial attached)
  obtain ⟨memAnswer, memory⟩ := exists_mem trace initial attached
  have served := slaves_at trace initial attached banked memory
  have biu (t : Nat) : (s (t + 1)).biu = E203Biu.step (s t).biu (i t).core (biuUp (s t) (i t)) :=
    congrArg State.biu (trace t)
  refine ⟨E203Biu.length_responses biu initial.biu served lsu,
    fun k m n c r asked answered read addr => ?_⟩
  obtain ⟨before, own, answer⟩ := E203Biu.answers biu initial.biu served asked answered
  have last : peripServices services (IcbSlave.bank others) (Fin.last 15) =
      IcbSlave.bank others := Fin.snoc_last _ _
  rw [target_field k c addr] at answer
  replace answer := answer.trans
    (SirvIcb1toNBus.busService_answer _ _ _ (by rw [addr]; exact decode_field k))
  rw [last, IcbSlave.bank_answer, IcbSlave.bankAnswer_config others _ read
    (by rw [addr, Driver.Sets.fieldAddr_eq])] at answer
  rw [answer]
  refine ⟨rfl, ?_⟩
  unfold IcbSlave.lastWritten
  rw [filter_writes, own]
  rfl

end Run

/-! The LSU writes the register of the map size and reads it back, the IFU fetches from the
SRAM, and the slaves outside are silent. -/

def resetCore : State where
  biu := {
    arbt := ({ vldR := false, datR := 0 } : SirvGnrlPipeStage.State (BitVec 1))
    cmdFifo := SirvGnrlFifo.reset
    rspFifo := SirvGnrlFifo.reset
    splt := ({ vldR := false, datR := 0 } : SirvGnrlPipeStage.State (BitVec 6)) }
  perips := {
    buffer := { cmdFifo := SirvGnrlFifo.reset, rspFifo := SirvGnrlFifo.reset }
    splt := ({ vldR := false, datR := 0 } : SirvGnrlPipeStage.State (BitVec 17)) }
  main := { acc := System.resetTop, path := MemPath.reset }

theorem isReset_resetCore : IsReset resetCore where
  biu := ⟨rfl, SirvGnrlFifo.isReset_reset, SirvGnrlFifo.isReset_reset, rfl⟩
  perips := ⟨SirvGnrlFifo.isReset_reset, SirvGnrlFifo.isReset_reset, rfl⟩
  main := ⟨System.isReset_resetTop, MemPath.isReset_reset⟩

def accesses (t : Nat) : Fin 2 → IcbDown
  | 0 => {
      cmdValid := true
      cmd := {
        read := t % 64 >= 32
        addr := AccCfg.accCfg + AccCfg.mapSize
        wdata := BitVec.ofNat 32 t
        wmask := 0xf }
      rspReady := true }
  | 1 => {
      cmdValid := t % 3 == 0
      cmd := { read := true, addr := 0x40000000, wdata := 0, wmask := 0 }
      rspReady := true }

def accessesInput (t : Nat) : Input where
  core := accesses t
  fio := E203SubsysMems.notUsed
  plic := E203SubsysMems.notUsed
  clint := E203SubsysMems.notUsed
  perips := fun _ => E203SubsysMems.notUsed
  mems := MemPath.silent

def accessesRun : Nat → State :=
  run step resetCore accessesInput

def silentServices : Services where
  fio := deftService
  plic := deftService
  clint := deftService
  perips := fun _ => deftService
  mems := MemPath.noServices

theorem silent_attached : Attached silentServices accessesRun accessesInput where
  fio := E203SubsysMems.notUsed_at _ _
  plic := E203SubsysMems.notUsed_at _ _
  clint := E203SubsysMems.notUsed_at _ _
  perips := fun _ => E203SubsysMems.notUsed_at _ _
  mems := ⟨E203SubsysMems.notUsed_at _ _, E203SubsysMems.notUsed_at _ _,
    E203SubsysMems.notUsed_at _ _, E203SubsysMems.notUsed_at _ _⟩

theorem readsRegisters_accesses : ReadsRegisters (fun t => accesses t lsu)
    fun t => coreIcb (accessesRun t) (accessesInput t) lsu :=
  readsRegisters (isTrace_run step resetCore accessesInput) isReset_resetCore silent_attached

end CorePath

end RepVGGAcc
