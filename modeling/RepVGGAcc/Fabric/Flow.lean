import RepVGGAcc.Fabric.MemoryPath

/-! The memory path while all commands go to the SRAM and all responses are taken at once: a
pipeline of three stages that never stalls. -/

namespace RepVGGAcc

open Clocked

namespace MemPath

open E203SubsysMems (regions regions_apart spltFifo Outside)
open SirvIcb1toNBus (decode port)

/-- The port with the highest priority among those with a command, and its command. -/
def granted (i : Fin 2 → IcbDown) : Option (Fin 2 × IcbCmd) :=
  handed (fun k => (i k).cmdValid) (SirvGnrlIcbArbt.iBusIcbCmdGrtVec i) fun k => (i k).cmd

/-- The newest command is in the buffer in front of the splitter, the middle one has been to
the RAM, and the response to the oldest one is in the buffer behind the splitter. -/
structure Flowing (s : State) (newest middle oldest : Option (Fin 2 × IcbCmd))
    (answer : IcbRsp) : Prop where
  arbt : rspidFifo.Holds s.arbt
    (((oldest.toList ++ middle.toList ++ newest.toList).map Prod.fst).map
      (SirvGnrlIcbArbt.unsigned 1))
  cmdFifo : SirvGnrlFifo.Holds s.mems.memFab.buffer.cmdFifo
    (newest.toList.map fun x => x.2.pack)
  splt : spltFifo.Holds s.mems.memFab.splt
    ((middle.toList.map fun _ => port 8 (some 5)).map fun k => BitVec.twoPow 9 k.val)
  rspFifo : SirvGnrlFifo.Holds s.mems.memFab.buffer.rspFifo
    (oldest.toList.map fun _ => answer.pack)
  bypBuf : SirvGnrlFifo.Holds s.mems.sram.bypBuf []
  e1Stage : s.mems.sram.e1Stage.vldR = middle.isSome
  inSram : ∀ x ∈ newest, decode regions x.2.addr = some 5

namespace Flowing

variable {s : State} {newest middle oldest : Option (Fin 2 × IcbCmd)} {answer : IcbRsp}
  (flow : Flowing s newest middle oldest answer)

include flow

/-! The buffer. -/

theorem iIcb_cmdReady : (E203SubsysMems.iIcb s.mems).cmdReady = true := by
  refine flow.cmdFifo.iRdy_cut.trans (decide_eq_true ?_)
  cases newest <;> simp

theorem iIcb_rspValid : (E203SubsysMems.iIcb s.mems).rspValid = oldest.isSome := by
  refine flow.rspFifo.oVld.trans ?_
  cases oldest <;> rfl

theorem iIcb_rsp (some_ : oldest.isSome = true) : (E203SubsysMems.iIcb s.mems).rsp = answer := by
  cases oldest with
  | none => cases some_
  | some x => exact (congrArg IcbRsp.unpack flow.rspFifo.oDat).trans (IcbRsp.unpack_pack answer)

theorem bufIcb_cmdValid :
    (SirvIcb1toNBus.bufIcb spltFifo s.mems.memFab).cmdValid = newest.isSome := by
  refine flow.cmdFifo.oVld.trans ?_
  cases newest <;> rfl

theorem bufIcb_cmd {x : Fin 2 × IcbCmd} (here : newest = some x) :
    (SirvIcb1toNBus.bufIcb spltFifo s.mems.memFab).cmd = x.2 := by
  subst here
  exact (congrArg IcbCmd.unpack flow.cmdFifo.oDat).trans (IcbCmd.unpack_pack x.2)

theorem bufIcb_rspReady : (SirvIcb1toNBus.bufIcb spltFifo s.mems.memFab).rspReady = true := by
  refine flow.rspFifo.iRdy_cut.trans (decide_eq_true ?_)
  cases oldest <;> simp

/-! The splitter. -/

theorem target_eq : SirvIcb1toNBus.target regions (SirvIcb1toNBus.bufIcb spltFifo s.mems.memFab) =
    newest.map fun _ => 5 := by
  unfold SirvIcb1toNBus.target
  rw [flow.bufIcb_cmdValid]
  cases here : newest with
  | none => rfl
  | some x =>
      rw [flow.bufIcb_cmd here, flow.inSram x here]
      rfl

theorem room : SirvGnrlIcbSplt.rspidFifoFull spltFifo s.mems.memFab.splt = false := by
  have ready := spltFifo.iRdy_eq flow.splt false
  unfold SirvGnrlIcbSplt.rspidFifoFull
  rw [ready]
  cases middle <;> rfl

theorem indicated : OneHot
    (SirvIcb1toNBus.bufIcbSpltIndic regions (SirvIcb1toNBus.bufIcb spltFifo s.mems.memFab))
    (port 8 (newest.map fun _ => 5)) := by
  rw [← flow.target_eq]
  exact SirvIcb1toNBus.indicated regions_apart _

theorem same : ((middle.toList.map fun _ => port 8 (some 5)).head?.any
    fun k => decide (k ≠ port 8 (some 5))) = false := by
  cases middle <;> simp

theorem sramIcb_cmdValid : (E203SubsysMems.sramIcb s.mems).cmdValid = newest.isSome := by
  show (SirvIcb1toNBus.oIcb regions spltFifo s.mems.memFab 5).cmdValid = _
  rw [SirvIcb1toNBus.oIcb_eq, SirvIcb1toNBus.spltIcb,
    SirvGnrlIcbSplt.oIcb_cmdValid flow.splt flow.indicated, flow.bufIcb_cmdValid, flow.room]
  cases newest with
  | none => rw [Option.isSome_none, Bool.false_and, Bool.false_and, Bool.and_false]
  | some x =>
      rw [Option.map_some, flow.same, decide_eq_true rfl]
      rfl

theorem sramIcb_cmd {x : Fin 2 × IcbCmd} (here : newest = some x) :
    (E203SubsysMems.sramIcb s.mems).cmd = x.2 := by
  have valid := flow.sramIcb_cmdValid
  show IcbCmd.mask (E203SubsysMems.sramIcb s.mems).cmdValid
    (SirvIcb1toNBus.bufIcb spltFifo s.mems.memFab).cmd = x.2
  rw [valid, flow.bufIcb_cmd here, here]
  exact IcbCmd.mask_true x.2

theorem sramIcb_rspReady (some_ : middle.isSome = true) :
    (E203SubsysMems.sramIcb s.mems).rspReady = true := by
  show (SirvIcb1toNBus.oIcb regions spltFifo s.mems.memFab 5).rspReady = _
  rw [SirvIcb1toNBus.oIcb_eq, SirvIcb1toNBus.spltIcb,
    SirvGnrlIcbSplt.oIcb_rspReady flow.splt flow.indicated, flow.bufIcb_rspReady]
  cases middle with
  | none => cases some_
  | some x => exact Bool.and_eq_true_iff.mpr ⟨decide_eq_true rfl, rfl⟩

theorem accessed_eq : SirvSramIcbCtrl.accessed s.mems.sram (E203SubsysMems.sramIcb s.mems) =
    newest.map Prod.snd := by
  have ready : SirvSramIcbCtrl.bypIcbCmdReady s.mems.sram (E203SubsysMems.sramIcb s.mems) =
      true := by
    unfold SirvSramIcbCtrl.bypIcbCmdReady SirvGnrlPipeStage.iRdy SirvGnrlPipeStage.vldClr
    rw [flow.e1Stage]
    cases full : middle.isSome with
    | false => rfl
    | true =>
        rw [flow.sramIcb_rspReady full]
        rfl
  unfold SirvSramIcbCtrl.accessed SirvSramIcbCtrl.bypIcbCmdValid SirvSramIcbCtrl.bypIcbCmd
    SirvGnrlBypbuf.oVld SirvGnrlBypbuf.oDat handshake
  rw [ready, flow.bypBuf.oVld, flow.sramIcb_cmdValid]
  cases here : newest with
  | none => rfl
  | some x =>
      rw [flow.sramIcb_cmd here]
      exact congrArg some (IcbCmd.unpack_pack x.2)

theorem bypBuf_next : SirvGnrlFifo.Holds
    (SirvSramIcbCtrl.step s.mems.sram (E203SubsysMems.sramIcb s.mems)).bypBuf [] := by
  obtain ⟨q, holds, conserves⟩ := SirvGnrlBypbuf.step_conserves Nat.one_pos flow.bypBuf
    (E203SubsysMems.sramIcb s.mems).cmdValid (E203SubsysMems.sramIcb s.mems).cmd.pack
    (SirvSramIcbCtrl.bypIcbCmdReady s.mems.sram (E203SubsysMems.sramIcb s.mems))
  have passes := congrArg Option.isSome flow.accessed_eq
  rw [Option.isSome_map, SirvSramIcbCtrl.accessed, SirvSramIcbCtrl.bypIcbCmd,
    ← map_handshake IcbCmd.unpack, Option.isSome_map, SirvSramIcbCtrl.bypIcbCmdValid] at passes
  have lengths := congrArg List.length conserves
  rw [flow.sramIcb_cmdValid] at passes lengths
  have entered (rdy : Bool) (x : BitVec 69) :
      (handshake newest.isSome rdy x).toList.length ≤ newest.isSome.toNat := by
    cases newest <;> cases rdy <;> simp [handshake]
  rw [List.length_append, List.length_append, Option.length_toList, passes] at lengths
  have bound := entered
    (SirvGnrlBypbuf.iRdy s.mems.sram.bypBuf
      (SirvSramIcbCtrl.bypIcbCmdReady s.mems.sram (E203SubsysMems.sramIcb s.mems)))
    (E203SubsysMems.sramIcb s.mems).cmd.pack
  have passed : (if newest.isSome = true then 1 else 0) = newest.isSome.toNat := by
    cases newest <;> rfl
  rw [passed, List.length_nil] at lengths
  obtain rfl : q = [] := List.length_eq_zero_iff.mp (by omega)
  exact holds

variable (out : Outside)

omit flow in
theorem source_eq (newest middle : Option (Fin 2 × IcbCmd)) :
    SirvGnrlIcbSplt.source (middle.toList.map fun _ => port 8 (some 5))
      (port 8 (newest.map fun _ => 5)) =
      port 8 ((middle.map fun _ => 5).or (newest.map fun _ => 5)) := by
  cases middle <;> rfl

theorem bufIcbUp_rspValid : (SirvIcb1toNBus.bufIcbUp regions spltFifo s.mems.memFab
    (E203SubsysMems.oIcbUp s.mems out)).rspValid = middle.isSome := by
  have sram : (E203SubsysMems.oIcbUp s.mems out 5).rspValid = middle.isSome := flow.e1Stage
  rw [SirvIcb1toNBus.bufIcbUp, SirvGnrlIcbSplt.iIcb_rspValid flow.splt flow.indicated,
    SirvIcb1toNBus.spltBusIcb, source_eq, SirvIcb1toNBus.concat_port]
  cases here : middle with
  | some x => rwa [here] at sram
  | none =>
      rw [here] at sram
      cases asks : newest with
      | some x => exact sram
      | none =>
          show (SirvIcb1toNBus.spltIcb regions spltFifo s.mems.memFab 0).cmdValid = false
          rw [SirvIcb1toNBus.spltIcb, SirvGnrlIcbSplt.oIcb_cmdValid flow.splt flow.indicated,
            flow.bufIcb_cmdValid, asks, Option.isSome_none, Bool.false_and, Bool.false_and,
            Bool.and_false]

theorem bufIcbUp_rsp (some_ : middle.isSome = true) :
    (SirvIcb1toNBus.bufIcbUp regions spltFifo s.mems.memFab
      (E203SubsysMems.oIcbUp s.mems out)).rsp =
      { err := false, rdata := SubsysRam.dout s.mems.sram.ram } := by
  rw [SirvIcb1toNBus.bufIcbUp, SirvGnrlIcbSplt.iIcb_rsp flow.splt flow.indicated,
    SirvIcb1toNBus.spltBusIcb, source_eq, SirvIcb1toNBus.concat_port]
  cases middle with
  | none => cases some_
  | some x => rfl

theorem bufIcbUp_cmdReady (some_ : newest.isSome = true) :
    (SirvIcb1toNBus.bufIcbUp regions spltFifo s.mems.memFab
      (E203SubsysMems.oIcbUp s.mems out)).cmdReady = true := by
  have sram : (E203SubsysMems.oIcbUp s.mems out 5).cmdReady = true :=
    flow.bypBuf.iRdy_cut.trans (decide_eq_true Nat.one_pos)
  rw [SirvIcb1toNBus.bufIcbUp, SirvGnrlIcbSplt.iIcb_cmdReady flow.splt flow.indicated,
    SirvIcb1toNBus.spltBusIcb, flow.room]
  cases newest with
  | none => cases some_
  | some x =>
      rw [Option.map_some, flow.same, SirvIcb1toNBus.concat_port, Option.elim_some, sram]
      rfl

theorem icbCmd_eq : icbCmd (SirvIcb1toNBus.bufIcb spltFifo s.mems.memFab)
    (SirvIcb1toNBus.bufIcbUp regions spltFifo s.mems.memFab
      (E203SubsysMems.oIcbUp s.mems out)) = newest.map Prod.snd := by
  unfold icbCmd
  rw [flow.bufIcb_cmdValid]
  cases here : newest with
  | none => rfl
  | some x =>
      rw [← here, flow.bufIcbUp_cmdReady out (by rw [here]; rfl), flow.bufIcb_cmd here, here]
      rfl

theorem icbRsp_eq : icbRsp (SirvIcb1toNBus.bufIcb spltFifo s.mems.memFab)
    (SirvIcb1toNBus.bufIcbUp regions spltFifo s.mems.memFab
      (E203SubsysMems.oIcbUp s.mems out)) =
      middle.map fun _ => { err := false, rdata := SubsysRam.dout s.mems.sram.ram } := by
  unfold icbRsp
  rw [flow.bufIcbUp_rspValid, flow.bufIcb_rspReady]
  cases here : middle with
  | none => rfl
  | some x =>
      rw [← here, flow.bufIcbUp_rsp out (by rw [here]; rfl), here]
      rfl

theorem splt_next : spltFifo.Holds (SirvGnrlIcbSplt.step spltFifo s.mems.memFab.splt
    (SirvIcb1toNBus.bufIcbSpltIndic regions (SirvIcb1toNBus.bufIcb spltFifo s.mems.memFab))
    (SirvIcb1toNBus.bufIcb spltFifo s.mems.memFab)
    (SirvIcb1toNBus.spltBusIcb regions spltFifo s.mems.memFab (E203SubsysMems.oIcbUp s.mems out)))
    ((newest.toList.map fun _ => port 8 (some 5)).map fun k => BitVec.twoPow 9 k.val) := by
  have cmd := flow.icbCmd_eq out
  have rsp := flow.icbRsp_eq out
  unfold SirvIcb1toNBus.bufIcbUp at cmd rsp
  have stepped := SirvGnrlIcbSplt.step_holds (i := SirvIcb1toNBus.bufIcb spltFifo s.mems.memFab)
    (o := SirvIcb1toNBus.spltBusIcb regions spltFifo s.mems.memFab
      (E203SubsysMems.oIcbUp s.mems out)) flow.splt flow.indicated rfl
  have conserves : _ ++ SirvGnrlIcbSplt.next spltFifo _ _ _ _ _
      (port 8 (newest.map fun _ => 5)) = _ :=
    SirvGnrlIcbSplt.next_conserves (i := SirvIcb1toNBus.bufIcb spltFifo s.mems.memFab)
      flow.splt fun settled responds => by
        rw [rsp] at responds
        cases middle with
        | none => cases responds
        | some x => cases settled
  rw [cmd, rsp] at conserves
  have moved : SirvGnrlIcbSplt.next spltFifo s.mems.memFab.splt
      (SirvIcb1toNBus.bufIcbSpltIndic regions (SirvIcb1toNBus.bufIcb spltFifo s.mems.memFab))
      (SirvIcb1toNBus.bufIcb spltFifo s.mems.memFab)
      (SirvIcb1toNBus.spltBusIcb regions spltFifo s.mems.memFab
        (E203SubsysMems.oIcbUp s.mems out))
      (middle.toList.map fun _ => port 8 (some 5)) (port 8 (newest.map fun _ => 5)) =
      newest.toList.map fun _ => port 8 (some 5) := by
    cases middle with
    | none => cases newest <;> exact conserves
    | some x => cases newest <;> exact (List.cons.inj conserves).2
  rwa [moved] at stepped

/-! The ports. -/

theorem rspidFifoFull_eq (i : Fin 2 → IcbDown) :
    SirvGnrlIcbArbt.rspidFifoFull rspidFifo s.arbt i (E203SubsysMems.iIcb s.mems) = false := by
  unfold SirvGnrlIcbArbt.rspidFifoFull
  rw [rspidFifo.iRdy_eq flow.arbt]
  cases oldest <;> cases middle <;> cases newest <;> rfl

theorem arbtBusIcb_cmdReady (i : Fin 2 → IcbDown) (k : Fin 2) :
    (arbtBusIcb s i k).cmdReady = SirvGnrlIcbArbt.iBusIcbCmdGrtVec i k := by
  show (_ && ((E203SubsysMems.iIcb s.mems).cmdReady &&
    !SirvGnrlIcbArbt.rspidFifoFull rspidFifo s.arbt i (E203SubsysMems.iIcb s.mems))) = _
  rw [flow.iIcb_cmdReady, flow.rspidFifoFull_eq]
  exact Bool.and_true _

theorem accepted_eq (i : Fin 2 → IcbDown) : accepted s i = granted i := by
  have ready (k : Fin 2) := flow.arbtBusIcb_cmdReady i k
  unfold arbtBusIcb at ready
  unfold accepted SirvGnrlIcbArbt.request granted
  simp only [ready]

theorem response_eq {i : Fin 2 → IcbDown} (taken : ∀ x ∈ oldest, (i x.1).rspReady = true) :
    SirvGnrlIcbArbt.response rspidFifo s.arbt i (E203SubsysMems.iIcb s.mems) =
      oldest.map fun x => (x.1, answer) := by
  rw [SirvGnrlIcbArbt.response_eq (le_refl 2) flow.arbt, flow.iIcb_rspValid]
  cases here : oldest with
  | none =>
      have silent (k : Fin 2) : handshake (Option.isSome (none : Option (Fin 2 × IcbCmd)))
          (i k).rspReady (k, (E203SubsysMems.iIcb s.mems).rsp) = none := rfl
      simp only [silent]
      cases middle <;> cases newest <;> rfl
  | some x =>
      have first : ((((some x).toList ++ middle.toList ++ newest.toList).map
        Prod.fst).head?) = some x.1 := rfl
      rw [first, Option.bind_some, taken x here, flow.iIcb_rsp (by rw [here]; rfl)]
      rfl

theorem arbt_step {i : Fin 2 → IcbDown} (taken : ∀ x ∈ oldest, (i x.1).rspReady = true) :
    rspidFifo.Holds (SirvGnrlIcbArbt.step rspidFifo s.arbt i (E203SubsysMems.iIcb s.mems))
      (((middle.toList ++ newest.toList ++ (granted i).toList).map Prod.fst).map
        (SirvGnrlIcbArbt.unsigned 1)) := by
  have stepped := SirvGnrlIcbArbt.step_holds (le_refl 2) flow.arbt (i := i)
    (o := E203SubsysMems.iIcb s.mems)
  rw [flow.response_eq taken, Option.isSome_map,
    show SirvGnrlIcbArbt.request rspidFifo s.arbt i (E203SubsysMems.iIcb s.mems) = granted i from
      flow.accepted_eq i] at stepped
  have moved : queueNext ((oldest.toList ++ middle.toList ++ newest.toList).map Prod.fst)
      oldest.isSome ((granted i).map Prod.fst) =
      (middle.toList ++ newest.toList ++ (granted i).toList).map Prod.fst := by
    cases oldest <;> cases granted i <;> simp [queueNext]
  rwa [moved] at stepped

/-! The buffer after a cycle. -/

theorem cmdFifo_step (i : Fin 2 → IcbDown) : SirvGnrlFifo.Holds
    (MemPath.step s i out).mems.memFab.buffer.cmdFifo
    ((granted i).toList.map fun x => x.2.pack) := by
  have stepped := flow.cmdFifo.step_cut (memIcb s i).cmdValid (memIcb s i).cmd.pack
    (SirvIcb1toNBus.bufIcbUp regions spltFifo s.mems.memFab
      (E203SubsysMems.oIcbUp s.mems out)).cmdReady
  have leaves : (SirvGnrlFifo.oVld s.mems.memFab.buffer.cmdFifo &&
      (SirvIcb1toNBus.bufIcbUp regions spltFifo s.mems.memFab
        (E203SubsysMems.oIcbUp s.mems out)).cmdReady) = newest.isSome := by
    rw [show SirvGnrlFifo.oVld s.mems.memFab.buffer.cmdFifo = newest.isSome from
      flow.bufIcb_cmdValid]
    cases some_ : newest.isSome with
    | false => rfl
    | true => exact flow.bufIcbUp_cmdReady out some_
  have enters : handshake (memIcb s i).cmdValid
      (SirvGnrlFifo.iRdy true s.mems.memFab.buffer.cmdFifo false) (memIcb s i).cmd.pack =
      (granted i).map fun x => x.2.pack := by
    have command : icbCmd (memIcb s i) (E203SubsysMems.iIcb s.mems) =
        (granted i).map Prod.snd := by
      rw [← flow.accepted_eq i]
      exact SirvGnrlIcbArbt.oIcb_icbCmd
    have packed := congrArg (Option.map IcbCmd.pack) command
    rw [Option.map_map, icbCmd, map_handshake] at packed
    exact packed
  rw [leaves, enters] at stepped
  have moved : queueNext (newest.toList.map fun x => x.2.pack) newest.isSome
      ((granted i).map fun x => x.2.pack) = (granted i).toList.map fun x => x.2.pack := by
    cases newest <;> cases granted i <;> rfl
  rwa [moved] at stepped

theorem rspFifo_step {i : Fin 2 → IcbDown} (taken : ∀ x ∈ oldest, (i x.1).rspReady = true) :
    SirvGnrlFifo.Holds (MemPath.step s i out).mems.memFab.buffer.rspFifo
      (middle.toList.map fun _ =>
        IcbRsp.pack { err := false, rdata := SubsysRam.dout s.mems.sram.ram }) := by
  have stepped := flow.rspFifo.step_cut
    (SirvIcb1toNBus.bufIcbUp regions spltFifo s.mems.memFab
      (E203SubsysMems.oIcbUp s.mems out)).rspValid
    (SirvIcb1toNBus.bufIcbUp regions spltFifo s.mems.memFab
      (E203SubsysMems.oIcbUp s.mems out)).rsp.pack (memIcb s i).rspReady
  have leaves : (SirvGnrlFifo.oVld s.mems.memFab.buffer.rspFifo && (memIcb s i).rspReady) =
      oldest.isSome := by
    rw [show SirvGnrlFifo.oVld s.mems.memFab.buffer.rspFifo = oldest.isSome from
      flow.iIcb_rspValid]
    cases here : oldest with
    | none => rfl
    | some x =>
        have ready := SirvGnrlIcbArbt.oIcbRspReady_eq (le_refl 2) flow.arbt (i := i)
        rw [here] at ready
        exact ready.trans (taken x here)
  have enters : handshake
      (SirvIcb1toNBus.bufIcbUp regions spltFifo s.mems.memFab
        (E203SubsysMems.oIcbUp s.mems out)).rspValid
      (SirvGnrlFifo.iRdy true s.mems.memFab.buffer.rspFifo false)
      (SirvIcb1toNBus.bufIcbUp regions spltFifo s.mems.memFab
        (E203SubsysMems.oIcbUp s.mems out)).rsp.pack =
      middle.map fun _ =>
        IcbRsp.pack { err := false, rdata := SubsysRam.dout s.mems.sram.ram } := by
    have packed := congrArg (Option.map IcbRsp.pack) (flow.icbRsp_eq out)
    rw [Option.map_map, icbRsp, map_handshake] at packed
    exact packed
  rw [leaves, enters] at stepped
  have moved (x y : BitVec 33) : queueNext (oldest.toList.map fun _ => x) oldest.isSome
      (middle.map fun _ => y) = middle.toList.map fun _ => y := by
    cases oldest <;> cases middle <;> rfl
  rwa [moved] at stepped

/-- A cycle moves every command one stage on. -/
theorem step {i : Fin 2 → IcbDown} (taken : ∀ x ∈ oldest, (i x.1).rspReady = true)
    (inSram : ∀ x ∈ granted i, decode regions x.2.addr = some 5) :
    Flowing (MemPath.step s i out) (granted i) newest middle
      { err := false, rdata := SubsysRam.dout s.mems.sram.ram } where
  arbt := flow.arbt_step taken
  cmdFifo := flow.cmdFifo_step out i
  splt := flow.splt_next out
  rspFifo := flow.rspFifo_step out taken
  bypBuf := flow.bypBuf_next
  e1Stage := by
    refine (SirvSramIcbCtrl.vldR_step s.mems.sram (E203SubsysMems.sramIcb s.mems)).trans ?_
    rw [flow.accessed_eq, flow.e1Stage, Option.isSome_map]
    cases full : middle.isSome with
    | false => rw [Bool.false_and, Bool.or_false]
    | true => rw [flow.sramIcb_rspReady full, Bool.not_true, Bool.and_false, Bool.or_false]
  inSram := inSram

theorem ram_step (i : Fin 2 → IcbDown) : (MemPath.step s i out).mems.sram.ram =
    newest.elim s.mems.sram.ram fun x =>
      SubsysRam.step s.mems.sram.ram (SirvSramIcbCtrl.access x.2) := by
  refine (SirvSramIcbCtrl.ram_step s.mems.sram (E203SubsysMems.sramIcb s.mems)).trans ?_
  rw [flow.accessed_eq]
  cases newest <;> rfl

end Flowing

theorem flowing_reset {s : State} (initial : IsReset s) (answer : IcbRsp) :
    Flowing s none none none answer where
  arbt := rspidFifo.holds_reset initial.arbt
  cmdFifo := (SirvGnrlFifo.circuit 2 69 Nat.two_pos true).holds_reset initial.mems.memFab.cmdFifo
  splt := spltFifo.holds_reset initial.mems.memFab.splt
  rspFifo := (SirvGnrlFifo.circuit 2 33 Nat.two_pos true).holds_reset initial.mems.memFab.rspFifo
  bypBuf := (SirvGnrlFifo.circuit 1 69 Nat.one_pos true).holds_reset initial.mems.sram.bypBuf
  e1Stage := initial.mems.sram.e1Stage
  inSram := fun _ none_ => by cases none_

/-- Up to cycle `stop` all commands go to the SRAM and every response is taken at once. -/
structure Streams (stop : Nat) (s : Nat → State) (i : Nat → Fin 2 → IcbDown) : Prop where
  inSram : ∀ t < stop, ∀ k, (i t k).cmdValid = true → decode regions (i t k).cmd.addr = some 5
  taken : ∀ t < stop, ∀ k, (arbtBusIcb (s t) (i t) k).rspValid = true →
    (i t k).rspReady = true

theorem granted_eq_some {i : Fin 2 → IcbDown} {x : Fin 2 × IcbCmd} (first : granted i = some x) :
    (i x.1).cmdValid = true ∧ (i x.1).cmd = x.2 := by
  obtain ⟨k, -, here⟩ := List.exists_of_findSome?_eq_some first
  unfold handshake at here
  split_ifs at here with both
  obtain rfl := Option.some.inj here
  exact ⟨((Bool.and_eq_true _ _).mp both).1, rfl⟩

theorem iBusIcbCmdGrtVec_zero (i : Fin 2 → IcbDown) :
    SirvGnrlIcbArbt.iBusIcbCmdGrtVec i 0 = true :=
  SirvGnrlIcbArbt.iBusIcbCmdGrtVec_eq_true.mpr fun j below => absurd below (by omega)

theorem granted_zero {i : Fin 2 → IcbDown} (valid : (i 0).cmdValid = true) :
    granted i = some (0, (i 0).cmd) := by
  have both : ((i 0).cmdValid && SirvGnrlIcbArbt.iBusIcbCmdGrtVec i 0) = true := by
    rw [valid, iBusIcbCmdGrtVec_zero]
    rfl
  refine handed_eq_some both fun j here => ?_
  obtain ⟨asks, grant⟩ := (Bool.and_eq_true _ _).mp here
  exact SirvGnrlIcbArbt.First.eq ⟨valid, fun j below => absurd below (by omega)⟩ grant asks

theorem granted_one {i : Fin 2 → IcbDown} (free : (i 0).cmdValid = false) :
    granted i = if (i 1).cmdValid then some (1, (i 1).cmd) else none := by
  have other {j : Fin 2} (valid : (i j).cmdValid = true) : j = 1 := by
    by_contra first
    obtain rfl : j = 0 := by omega
    rw [free] at valid
    cases valid
  have grant : SirvGnrlIcbArbt.iBusIcbCmdGrtVec i 1 = true :=
    SirvGnrlIcbArbt.iBusIcbCmdGrtVec_eq_true.mpr fun j below =>
      Bool.eq_false_iff.mpr fun valid => absurd (other valid) (by omega)
  split_ifs with valid
  · exact handed_eq_some (Bool.and_eq_true_iff.mpr ⟨valid, grant⟩) fun j here =>
      other (Bool.and_eq_true_iff.mp here).1
  · refine handed_eq_none fun j => Bool.eq_false_iff.mpr fun here => valid ?_
    have asks := (Bool.and_eq_true_iff.mp here).1
    rwa [other asks] at asks

namespace Streams

open SirvSramIcbCtrl (serve)

variable {stop : Nat} {s : Nat → State} {i : Nat → Fin 2 → IcbDown} {out : Nat → Outside}

def asked (i : Nat → Fin 2 → IcbDown) (t : Nat) : List IcbCmd :=
  (events (fun u => granted (i u)) t).map Prod.snd

theorem asked_succ (i : Nat → Fin 2 → IcbDown) (t : Nat) :
    asked i (t + 1) = asked i t ++ ((granted (i t)).map Prod.snd).toList := by
  unfold asked
  rw [events_succ, List.map_append, Option.toList_map]

def reply (ram : SubsysRam.State) (i : Nat → Fin 2 → IcbDown) (t : Nat) : Option (Fin 2 × IcbRsp) :=
  (granted (i t)).map fun x => (x.1, (serve (served serve ram (asked i t)) x.2).2)

theorem flowing_step {t : Nat} {newest middle oldest : Option (Fin 2 × IcbCmd)} {answer : IcbRsp}
    (streams : Streams stop s i) (flow : Flowing (s t) newest middle oldest answer)
    (out : Outside) (within : t < stop) :
    Flowing (MemPath.step (s t) (i t) out) (granted (i t)) newest middle
      { err := false, rdata := SubsysRam.dout (s t).mems.sram.ram } := by
  refine flow.step out (fun x first => ?_) fun x first => ?_
  · refine streams.taken t within x.1 ?_
    rw [show arbtBusIcb (s t) (i t) x.1 = _ from rfl, arbtBusIcb,
      SirvGnrlIcbArbt.iIcb_rspValid (le_refl 2) flow.arbt, flow.iIcb_rspValid, first]
    exact decide_eq_true rfl
  · obtain ⟨valid, same⟩ := granted_eq_some first
    rw [← same]
    exact streams.inSram t within x.1 valid

section Run

variable (streams : Streams stop s i) (trace : ∀ t, s (t + 1) = step (s t) (i t) (out t))
  (initial : IsReset (s 0))

include streams trace initial

/-- A command is in the buffer one cycle after it is accepted, has been to the RAM two cycles
after, and has its response in the buffer three cycles after. -/
theorem flowing {t : Nat} (within : t ≤ stop) :
    Flowing (s t) (delayed 1 (fun u => granted (i u)) t) (delayed 2 (fun u => granted (i u)) t)
        (delayed 3 (fun u => granted (i u)) t)
        { err := false, rdata := SubsysRam.dout (s (t - 1)).mems.sram.ram } ∧
      (s t).mems.sram.ram = served serve (s 0).mems.sram.ram (asked i (t - 1)) := by
  induction t with
  | zero => exact ⟨flowing_reset initial _, rfl⟩
  | succ t held =>
      obtain ⟨flow, ram⟩ := held (by omega)
      rw [delayed_succ, delayed_succ, delayed_succ, Nat.add_sub_cancel, trace t]
      refine ⟨streams.flowing_step flow (out t) (by omega), ?_⟩
      rw [flow.ram_step, ram]
      cases t with
      | zero => rfl
      | succ t =>
          rw [Nat.add_sub_cancel, asked_succ, served_append, delayed_add 1 _ t]
          cases granted (i t) <;> rfl

/-- The path never holds up a command, and answers each one exactly three cycles later, with
what the RAM says after all commands up to it. -/
theorem pipelined {t : Nat} (within : t < stop) :
    accepted (s t) (i t) = granted (i t) ∧
      SirvGnrlIcbArbt.response rspidFifo (s t).arbt (i t) (E203SubsysMems.iIcb (s t).mems) =
        delayed 3 (reply (s 0).mems.sram.ram i) t := by
  obtain ⟨flow, -⟩ := streams.flowing trace initial within.le
  refine ⟨flow.accepted_eq (i t), ?_⟩
  rw [flow.response_eq fun x first => ?taken]
  case taken =>
    refine streams.taken t within x.1 ?_
    rw [arbtBusIcb, SirvGnrlIcbArbt.iIcb_rspValid (le_refl 2) flow.arbt, flow.iIcb_rspValid, first]
    exact decide_eq_true rfl
  by_cases early : t < 3
  · rw [delayed_early _ early, delayed_early _ early]
    rfl
  obtain ⟨u, rfl⟩ := Nat.exists_eq_add_of_le' (Nat.le_of_not_lt early)
  obtain ⟨-, ram⟩ := streams.flowing trace initial (t := u + 2) (by omega)
  rw [delayed_add, delayed_add, show u + 3 - 1 = u + 2 from rfl, ram,
    show u + 2 - 1 = u + 1 from rfl, asked_succ, served_append]
  unfold reply
  cases granted (i u) <;> rfl

end Run

theorem streams_writesAndReads (stop : Nat) :
    Streams stop writesAndReadsRun writesAndReads where
  inSram := fun t _ k _ => by
    have addr : (writesAndReads t k).cmd.addr = 0x40000000 := by
      match k with
      | 0 => rfl
      | 1 => rfl
    rw [addr]
    exact E203SubsysMems.decode_sram.mpr ⟨by decide, by decide⟩
  taken := fun t _ k _ => by
    match k with
    | 0 => rfl
    | 1 => rfl

theorem pipelined_writesAndReads :
    accepted (writesAndReadsRun 12) (writesAndReads 12) = granted (writesAndReads 12) ∧
      SirvGnrlIcbArbt.response rspidFifo (writesAndReadsRun 12).arbt (writesAndReads 12)
          (E203SubsysMems.iIcb (writesAndReadsRun 12).mems) =
        delayed 3 (reply reset.mems.sram.ram writesAndReads) 12 :=
  (streams_writesAndReads 13).pipelined (fun _ => rfl) isReset_reset (by decide)

end Streams

end MemPath

end RepVGGAcc
