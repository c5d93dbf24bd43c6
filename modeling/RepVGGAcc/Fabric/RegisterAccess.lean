import RepVGGAcc.Driver.Rounds
import RepVGGAcc.Fabric.BiuService
import RepVGGAcc.Fabric.CorePath
import RepVGGAcc.Fabric.MemoryPath

/-! The registers of the accelerator as the LSU of the core sees them. `icb_slave` shows its
read data for one cycle only; the bus interface has no more than one command outstanding, and
so the response is always taken in that cycle. -/

namespace RepVGGAcc

open Clocked

namespace IcbSlave

def portInput (down : IcbDown) (accDone : Bool) : Input where
  icbCmdValid := down.cmdValid
  icbCmdRead := down.cmd.read
  icbCmdAddr := down.cmd.addr
  icbCmdWdata := down.cmd.wdata
  icbRspReady := down.rspReady
  accDone := accDone

def writesConfig (k : Fin 7) (c : IcbCmd) : Bool :=
  !c.read && c.addr.extractLsb' 0 12 == configAddr k

/-- The word that was written last by the commands that `writes` tells, 0 without one. -/
def lastWritten (writes : IcbCmd → Bool) (cs : List IcbCmd) : BitVec 32 :=
  ((cs.filter writes).getLast?.map IcbCmd.wdata).getD 0

theorem lastWritten_concat (writes : IcbCmd → Bool) (cs : List IcbCmd) (c : IcbCmd) :
    lastWritten writes (cs ++ [c]) = if writes c then c.wdata else lastWritten writes cs := by
  unfold lastWritten
  rw [List.filter_append, List.filter_singleton]
  cases writes c <;> simp

/-- The answer of the registers after the commands `before`. What a command that is not a read
of one of the seven registers gets is taken from `others`. -/
def bankAnswer (others : Nat → IcbRsp) (before : List IcbCmd) (c : IcbCmd) : IcbRsp :=
  match (List.finRange 7).find? fun k => c.read && c.addr.extractLsb' 0 12 == configAddr k with
  | some k => { err := false, rdata := lastWritten (writesConfig k) before }
  | none => others before.length

def bank (others : Nat → IcbRsp) : IcbService where
  State := List IcbCmd
  serve := fun before c => (before ++ [c], bankAnswer others before c)
  start := []

theorem served_bank (others : Nat → IcbRsp) (before cs : List IcbCmd) :
    served (bank others).serve before cs = before ++ cs := by
  induction cs generalizing before with
  | nil => exact (List.append_nil before).symm
  | cons c cs step =>
      refine (step (before ++ [c])).trans ?_
      rw [List.append_assoc, List.singleton_append]

theorem bank_answer (others : Nat → IcbRsp) (before : List IcbCmd) (c : IcbCmd) :
    (bank others).answer before c = bankAnswer others before c :=
  congrArg (bankAnswer others · c) (served_bank others [] before)

theorem bankAnswer_config (others : Nat → IcbRsp) (before : List IcbCmd) {c : IcbCmd} {k : Fin 7}
    (read : c.read = true) (addr : c.addr.extractLsb' 0 12 = configAddr k) :
    bankAnswer others before c =
      { err := false, rdata := lastWritten (writesConfig k) before } := by
  have own : ∀ k, ((List.finRange 7).find? fun j => true && configAddr k == configAddr j) =
      some k := by decide
  unfold bankAnswer
  rw [read, addr, own]

variable {s : State} {down : IcbDown} {accDone : Bool}

theorem rspValid_step : (step s (portInput down accDone)).icbRspValid =
    ((icbCmd down (portUp s)).isSome || (s.icbRspValid && !down.rspReady)) := by
  unfold icbCmd handshake portUp step portInput hdshk
  cases down.cmdValid <;> cases s.icbCmdReady <;> cases s.icbRspValid <;> cases down.rspReady <;>
    rfl

theorem rdata_step {c : IcbCmd} (accepted : icbCmd down (portUp s) = some c) :
    (step s (portInput down accDone)).icbRspRdata =
      if c.read then readData s (c.addr.extractLsb' 0 12) else 0 := by
  unfold icbCmd handshake portUp at accepted
  split_ifs at accepted with both
  cases accepted
  have taken : hdshk s (portInput down accDone) = true := both
  unfold step
  rw [taken, Bool.true_and]
  rfl

theorem config_step (k : Fin 7) : configRegister (step s (portInput down accDone)) k =
    ((icbCmd down (portUp s)).elim (configRegister s k) fun c =>
      if writesConfig k c then c.wdata else configRegister s k) := by
  rw [configRegister_step]
  unfold written writes hdshk icbCmd handshake portUp portInput writesConfig
  cases down.cmdValid <;> cases s.icbCmdReady <;> rfl

theorem readData_config (s : State) (k : Fin 7) :
    readData s (configAddr k) = configRegister s k := by
  fin_cases k <;> rfl

section Run

variable {s : Nat → State} {down : Nat → IcbDown} {accDone : Nat → Bool}
  (trace : ∀ t, s (t + 1) = step (s t) (portInput (down t) (accDone t)))

include trace

theorem length_responses (initial : (s 0).icbRspValid = false) (m : Nat) :
    (events (fun t => icbRsp (down t) (portUp (s t))) m).length +
        (if (s m).icbRspValid then 1 else 0) ≤
      (events (fun t => icbCmd (down t) (portUp (s t))) m).length := by
  induction m with
  | zero => rw [initial]; exact Nat.le_refl 0
  | succ m held =>
      have response : icbRsp (down m) (portUp (s m)) =
        if (s m).icbRspValid && (down m).rspReady then some (portUp (s m)).rsp else none := rfl
      rw [events_succ, events_succ, List.length_append, List.length_append, trace m, rspValid_step,
        response]
      cases icbCmd (down m) (portUp (s m)) <;> cases valid : (s m).icbRspValid <;>
        cases (down m).rspReady <;> simp [valid] at held ⊢ <;> omega

theorem config_eq (initial : s 0 = reset) (k : Fin 7) (m : Nat) : configRegister (s m) k =
    lastWritten (writesConfig k) (events (fun t => icbCmd (down t) (portUp (s t))) m) := by
  induction m with
  | zero =>
      rw [initial]
      fin_cases k <;> rfl
  | succ m held =>
      rw [trace m, config_step, events_succ, held]
      cases icbCmd (down m) (portUp (s m)) with
      | none => rw [Option.toList_none, List.append_nil]; rfl
      | some c => rw [Option.toList_some, lastWritten_concat]; rfl

theorem exists_bank (initial : s 0 = reset)
    (ready : ∀ t, (s t).icbRspValid = true → (down t).rspReady = true) :
    ∃ others, (bank others).At down fun t => portUp (s t) := by
  let accepts (t : Nat) : Prop := (icbCmd (down t) (portUp (s t))).isSome = true
  let others (n : Nat) : IcbRsp :=
    { err := false, rdata := (s (Nat.nth accepts n + 1)).icbRspRdata }
  have valid (t : Nat) : (s (t + 1)).icbRspValid =
      (icbCmd (down t) (portUp (s t))).isSome := by
    rw [trace t, rspValid_step]
    cases waits : (s t).icbRspValid with
    | false => rw [Bool.false_and, Bool.or_false]
    | true => rw [ready t waits, Bool.not_true, Bool.and_false, Bool.or_false]
  have response (t : Nat) : icbRsp (down t) (portUp (s t)) =
      if (s t).icbRspValid then some { err := false, rdata := (s t).icbRspRdata } else none := by
    unfold icbRsp handshake portUp
    cases waits : (s t).icbRspValid with
    | false => rfl
    | true => rw [ready t waits]; rfl
  refine ⟨others, Serves.of_delayed ?_ fun t => ?_⟩
  · rw [response, initial]
    rfl
  · rw [response, valid]
    cases accepted : icbCmd (down t) (portUp (s t)) with
    | none => rfl
    | some c =>
        have now : Nat.nth accepts (Nat.count accepts t) = t :=
          Nat.nth_count (Option.isSome_iff_exists.mpr ⟨c, accepted⟩)
        have history : served (bank others).serve (bank others).start
            (events (fun t => icbCmd (down t) (portUp (s t))) t) = _ := served_bank others [] _
        rw [history, List.nil_append]
        refine congrArg some ?_
        show _ = bankAnswer others _ c
        unfold bankAnswer
        split
        · next k found =>
          have here := List.find?_some found
          rw [Bool.and_eq_true, beq_iff_eq] at here
          rw [trace t, rdata_step accepted, if_pos here.1, here.2, readData_config,
            config_eq trace initial]
        · rw [length_events]
          exact congrArg
            (fun u => ({ err := false, rdata := (s (u + 1)).icbRspRdata } : IcbRsp)) now.symm

end Run

end IcbSlave

end RepVGGAcc
