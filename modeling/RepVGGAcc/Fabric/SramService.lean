import RepVGGAcc.Fabric.Fifo
import RepVGGAcc.Fabric.IcbService
import RepVGGAcc.Fabric.SramIcbCtrl

/-! The SRAM controller with its RAM is an atomic memory. -/

namespace RepVGGAcc

open Clocked

namespace SirvSramIcbCtrl

def access (c : IcbCmd) : SubsysRam.Input where
  cs := true
  we := !c.read
  wem := c.wmask
  addr := ramAddr c
  din := c.wdata

end SirvSramIcbCtrl

namespace SubsysRam

open SirvSramIcbCtrl (access ramAddr)

theorem memR_read (ram : State) {c : IcbCmd} (read : c.read = true) :
    (step ram (access c)).memR = ram.memR := by
  funext a
  unfold step access
  rw [read]
  rfl

theorem dout_read (ram : State) {c : IcbCmd} (read : c.read = true) :
    dout (step ram (access c)) = ram.memR (ramAddr c) := by
  have address : (step ram (access c)).addrR = ramAddr c := by
    unfold step access
    rw [read]
    rfl
  unfold dout
  rw [memR_read ram read, address]

theorem memR_elsewhere (ram : State) {c : IcbCmd} {a : BitVec 21} (other : ramAddr c ≠ a) :
    (step ram (access c)).memR a = ram.memR a := by
  unfold step access
  have differs : (a == ramAddr c) = false := beq_eq_false_iff_ne.mpr (Ne.symm other)
  simp only [differs, Bool.and_false]
  rfl

theorem memR_write (ram : State) {c : IcbCmd} (write : c.read = false) (full : c.wmask = 0xf) :
    (step ram (access c)).memR (ramAddr c) = c.wdata := by
  have all : byteMask 0xf = BitVec.allOnes 32 := by decide
  unfold step access
  simp only [write, full, all, beq_self_eq_true, Bool.not_false, Bool.and_self, if_true,
    BitVec.and_allOnes, BitVec.not_allOnes, BitVec.and_zero, BitVec.or_zero]

theorem getLsbD_byteMask (wem : BitVec 4) {b j : Nat} (inWord : b < 4) (inByte : j < 8) :
    (byteMask wem).getLsbD (8 * b + j) = wem.getLsbD b := by
  have fill (vld : Bool) {k : Nat} (inside : k < 8) : (BitVec.fill 8 vld).getLsbD k = vld := by
    cases vld with
    | false => exact BitVec.getLsbD_zero
    | true => exact (BitVec.getLsbD_allOnes (i := k)).trans (decide_eq_true inside)
  unfold byteMask
  simp only [BitVec.getLsbD_append]
  obtain rfl | rfl | rfl | rfl : b = 0 ∨ b = 1 ∨ b = 2 ∨ b = 3 := by omega
  · rw [if_pos (by omega), fill _ (by omega)]
  · rw [if_neg (by omega), if_pos (by omega), fill _ (by omega)]
  · rw [if_neg (by omega), if_neg (by omega), if_pos (by omega), fill _ (by omega)]
  · rw [if_neg (by omega), if_neg (by omega), if_neg (by omega), fill _ (by omega)]

def byte (word : BitVec 32) (b : Nat) : BitVec 8 :=
  word.extractLsb' (8 * b) 8

def writtenByte (a : BitVec 21) (b : Nat) (c : IcbCmd) : Option (BitVec 8) :=
  if !c.read && ramAddr c == a && c.wmask.getLsbD b then some (byte c.wdata b) else none

/-- What the last of some commands that writes byte `b` of the word `a` has written there. -/
def lastByte (start : BitVec 8) (a : BitVec 21) (b : Nat) (cs : List IcbCmd) : BitVec 8 :=
  (cs.filterMap (writtenByte a b)).getLast?.getD start

theorem lastByte_cons (start : BitVec 8) (a : BitVec 21) (b : Nat) (c : IcbCmd)
    (cs : List IcbCmd) : lastByte start a b (c :: cs) =
      lastByte ((writtenByte a b c).getD start) a b cs := by
  unfold lastByte
  cases writes : writtenByte a b c with
  | none => rw [List.filterMap_cons_none writes]; rfl
  | some x =>
      rw [List.filterMap_cons_some writes, List.getLast?_cons]
      rfl

theorem byte_step (ram : State) (c : IcbCmd) (a : BitVec 21) {b : Nat} (inWord : b < 4) :
    byte ((step ram (access c)).memR a) b =
      (writtenByte a b c).getD (byte (ram.memR a) b) := by
  have written : (step ram (access c)).memR a = if (!c.read && ramAddr c == a) = true then
      (c.wdata &&& byteMask c.wmask) ||| (ram.memR a &&& ~~~byteMask c.wmask)
      else ram.memR a := by
    rw [BEq.comm]
    rfl
  rw [written]
  unfold writtenByte
  cases writes : !c.read && ramAddr c == a with
  | false => rfl
  | true =>
      rw [if_pos rfl, Bool.true_and]
      refine BitVec.eq_of_getLsbD_eq fun j inByte => ?_
      have mask := getLsbD_byteMask c.wmask inWord inByte
      cases set : c.wmask.getLsbD b with
      | false =>
          rw [set] at mask
          rw [if_neg Bool.false_ne_true, Option.getD_none]
          unfold byte
          rw [BitVec.getLsbD_extractLsb', BitVec.getLsbD_extractLsb', BitVec.getLsbD_or,
            BitVec.getLsbD_and, BitVec.getLsbD_and, BitVec.getLsbD_not, mask,
            decide_eq_true (by omega : 8 * b + j < 32)]
          simp
      | true =>
          rw [set] at mask
          rw [if_pos rfl, Option.getD_some]
          unfold byte
          rw [BitVec.getLsbD_extractLsb', BitVec.getLsbD_extractLsb', BitVec.getLsbD_or,
            BitVec.getLsbD_and, BitVec.getLsbD_and, BitVec.getLsbD_not, mask]
          simp

end SubsysRam

namespace SirvSramIcbCtrl

/-- The memory that does the access of a command at once. The response to a write shows the
word of the last read. -/
def serve (ram : SubsysRam.State) (c : IcbCmd) : SubsysRam.State × IcbRsp :=
  (SubsysRam.step ram (access c),
    { err := false, rdata := SubsysRam.dout (SubsysRam.step ram (access c)) })

def sramService (start : SubsysRam.State) : IcbService where
  State := SubsysRam.State
  serve := serve
  start := start

def accessed (s : State) (i : IcbDown) : Option IcbCmd :=
  handshake (bypIcbCmdValid s i) (bypIcbCmdReady s i) (bypIcbCmd s i)

theorem ram_step (s : State) (i : IcbDown) :
    (step s i).ram = (accessed s i).elim s.ram fun c => SubsysRam.step s.ram (access c) := by
  show SubsysRam.step s.ram (ramInput s i) = _
  unfold accessed handshake
  split_ifs with does
  · unfold ramInput
    rw [does]
    rfl
  · unfold ramInput
    rw [Bool.eq_false_iff.mpr does]
    rfl

theorem vldR_step (s : State) (i : IcbDown) : (step s i).e1Stage.vldR =
    ((accessed s i).isSome || (s.e1Stage.vldR && !i.rspReady)) := by
  show (SirvGnrlPipeStage.step s.e1Stage (bypIcbCmdValid s i) () i.rspReady).vldR = _
  unfold accessed bypIcbCmdReady handshake SirvGnrlPipeStage.step SirvGnrlPipeStage.vldSet
    SirvGnrlPipeStage.iRdy SirvGnrlPipeStage.vldClr
  cases s.e1Stage.vldR <;> cases bypIcbCmdValid s i <;> cases i.rspReady <;> rfl

theorem accessed_none {s : State} {i : IcbDown} (full : s.e1Stage.vldR = true)
    (waits : i.rspReady = false) : accessed s i = none := by
  unfold accessed bypIcbCmdReady handshake SirvGnrlPipeStage.iRdy SirvGnrlPipeStage.vldClr
  rw [full, waits, Bool.not_true, Bool.and_false, Bool.or_false, Bool.and_false]
  rfl

section Run

variable {s : Nat → State} {i : Nat → IcbDown} (trace : ∀ t, s (t + 1) = step (s t) (i t))

include trace

theorem events_accessed (initial : SirvGnrlFifo.IsReset (s 0).bypBuf) (n : Nat) :
    events (fun t => accessed (s t) (i t)) n <+:
      events (fun t => icbCmd (i t) (iIcb (s t))) n := by
  obtain ⟨q, -, conserved⟩ := SirvGnrlBypbuf.exists_held (s := fun t => (s t).bypBuf)
    Nat.one_pos (fun t => congrArg State.bypBuf (trace t)) initial n
  have unpacked := congrArg (List.map IcbCmd.unpack) conserved
  rw [List.map_append, ← events_map, ← events_map] at unpacked
  simp only [map_handshake, IcbCmd.unpack_pack, SirvGnrlBypbuf.iRdy, SirvGnrlFifo.iRdy_cut]
    at unpacked
  exact ⟨_, unpacked⟩

/-- The RAM holds what the accesses have made of its first contents, and the responses are
theirs, but for the last one as long as it waits in the pipe stage. -/
theorem responses (initial : (s 0).e1Stage.vldR = false) (n : Nat) :
    (s n).ram = served serve (s 0).ram (events (fun t => accessed (s t) (i t)) n) ∧
      events (fun t => icbRsp (i t) (iIcb (s t))) n ++
          (if (s n).e1Stage.vldR then [{ err := false, rdata := SubsysRam.dout (s n).ram }]
          else []) =
        replies serve (s 0).ram (events (fun t => accessed (s t) (i t)) n) := by
  induction n with
  | zero => exact ⟨rfl, by rw [initial]; rfl⟩
  | succ n held =>
      obtain ⟨ram, answers⟩ := held
      have response : icbRsp (i n) (iIcb (s n)) =
          if (s n).e1Stage.vldR && (i n).rspReady then
            some { err := false, rdata := SubsysRam.dout (s n).ram }
          else none := rfl
      rw [events_succ, events_succ, served_append, replies_append, ← ram, ← answers, response,
        trace n, ram_step, vldR_step]
      cases does : accessed (s n) (i n) with
      | none =>
          refine ⟨rfl, ?_⟩
          cases (s n).e1Stage.vldR <;> cases (i n).rspReady <;> simp
      | some c =>
          refine ⟨rfl, ?_⟩
          cases full : (s n).e1Stage.vldR with
          | false => simp [serve]
          | true =>
              cases ready : (i n).rspReady with
              | false =>
                  rw [accessed_none full ready] at does
                  cases does
              | true => simp [serve]

/-- The SRAM behind its controller is an atomic memory. -/
theorem at_ (initial : IsReset (s 0)) :
    (sramService (s 0).ram).At i fun t => iIcb (s t) := by
  intro n
  refine List.IsPrefix.trans ?_ (replies_isPrefix (events_accessed trace initial.bypBuf n))
  show _ <+: replies serve (s 0).ram _
  rw [← (responses trace initial.e1Stage n).2]
  exact List.prefix_append _ _

omit trace in
theorem byte_served (ram : SubsysRam.State) (cs : List IcbCmd) (a : BitVec 21) {b : Nat}
    (inWord : b < 4) : SubsysRam.byte ((served serve ram cs).memR a) b =
      SubsysRam.lastByte (SubsysRam.byte (ram.memR a) b) a b cs := by
  induction cs generalizing ram with
  | nil => rfl
  | cons c cs step =>
      rw [served_cons, step, SubsysRam.lastByte_cons, ← SubsysRam.byte_step ram c a inWord]
      rfl

/-- The response to a read has no error and shows, byte by byte, what the last write before
it has left at its address, or what was there at first. -/
structure ReadsLast (start : SubsysRam.State) (i : Nat → IcbDown) (up : Nat → IcbUp) : Prop where
  answered : ∀ m, (events (fun t => icbRsp (i t) (up t)) m).length ≤
    (events (fun t => icbCmd (i t) (up t)) m).length
  reads : ∀ m n c r, (events (fun t => icbCmd (i t) (up t)) m)[n]? = some c →
    (events (fun t => icbRsp (i t) (up t)) m)[n]? = some r → c.read = true →
      r.err = false ∧ ∀ b < 4, SubsysRam.byte r.rdata b =
        SubsysRam.lastByte (SubsysRam.byte (start.memR (ramAddr c)) b) (ramAddr c) b
          ((events (fun t => icbCmd (i t) (up t)) m).take n)

/-- Whatever the commands and however long responses wait, the SRAM reads what was written. -/
theorem readsLast (initial : IsReset (s 0)) :
    ReadsLast (s 0).ram i fun t => iIcb (s t) := by
  have serves := at_ trace initial
  refine ⟨serves.length_le, fun m n c r command response read => ?_⟩
  have answer : r = (serve (served serve (s 0).ram _) c).2 := serves.eq_answer command response
  refine ⟨congrArg IcbRsp.err answer, fun b inWord => ?_⟩
  rw [← byte_served (s 0).ram _ _ inWord, answer]
  exact congrArg (fun word => SubsysRam.byte word b) (SubsysRam.dout_read _ read)

end Run

/-! A read follows each write of two bytes, and a response waits every other cycle. -/

def writeRead (t : Nat) : IcbDown where
  cmdValid := true
  cmd := {
    read := decide (t % 4 < 2)
    addr := 0x40000000
    wdata := BitVec.ofNat 32 (0x01010101 * t)
    wmask := 0x5 }
  rspReady := t % 2 == 0

theorem readsLast_writeRead : ReadsLast reset.ram writeRead fun t =>
    iIcb (run step reset writeRead t) :=
  readsLast (isTrace_run step reset writeRead) isReset_reset

end SirvSramIcbCtrl

end RepVGGAcc
