import RepVGGAcc.System.Program
import RepVGGAcc.Testbench.IcbDriver

/-! `acc_initialize` and `write_reg` of `driver_pkg.sv` on the register port. -/

namespace RepVGGAcc.IcbDriver

open IcbSlave (inAddrAddr w3AddrAddr w1AddrAddr outAddrAddr mapsizeAddr ichAddr ochAddr startAddr)

/-- The calls of `write_reg`: the address and the data. -/
def calls : List (BitVec 12 × BitVec 32) :=
  [(ichAddr, 64), (ochAddr, 64), (mapsizeAddr, 56), (inAddrAddr, accInitialize.inAddr),
    (w3AddrAddr, accInitialize.w3Addr), (w1AddrAddr, accInitialize.w1Addr),
    (outAddrAddr, accInitialize.outAddr), (startAddr, 1)]

/-- The driver on the register port, with the calls that have not returned. -/
structure Master where
  calls : List (BitVec 12 × BitVec 32)
  icbCmdValid : Bool
  icbCmdAddr : BitVec 32
  icbCmdWdata : BitVec 32
  icbRspReady : Bool

/-- `write_reg` raises the valid, waits until the ready is there too, and returns at the clock
edge after that. -/
def writeReg (m : Master) (icbCmdReady : Bool) : Master :=
  match m.calls with
  | [] => m
  | (addr, wdata) :: rest =>
      if m.icbCmdValid then
        if icbCmdReady then { m with calls := rest, icbCmdValid := false, icbRspReady := true }
        else m
      else
        { m with
          icbCmdValid := true
          icbCmdAddr := addr.setWidth 32
          icbCmdWdata := wdata }

section WriteReg

variable {m : Master} {addr : BitVec 12} {wdata : BitVec 32} {rest : List (BitVec 12 × BitVec 32)}

theorem writeReg_raise (called : m.calls = (addr, wdata) :: rest)
    (silent : m.icbCmdValid = false) (icbCmdReady : Bool) : writeReg m icbCmdReady =
      { m with
        icbCmdValid := true
        icbCmdAddr := addr.setWidth 32
        icbCmdWdata := wdata } := by
  simp [writeReg, called, silent]

theorem writeReg_wait (valid : m.icbCmdValid = true) : writeReg m false = m := by
  unfold writeReg
  cases m.calls <;> simp [valid]

theorem writeReg_return (called : m.calls = (addr, wdata) :: rest)
    (valid : m.icbCmdValid = true) : writeReg m true =
      { m with
        calls := rest
        icbCmdValid := false
        icbRspReady := true } := by
  simp [writeReg, called, valid]

end WriteReg

def portInput (m : Master) (accDone : Bool) : IcbSlave.Input where
  icbCmdValid := m.icbCmdValid
  icbCmdRead := false
  icbCmdAddr := m.icbCmdAddr
  icbCmdWdata := m.icbCmdWdata
  icbRspReady := m.icbRspReady
  accDone := accDone

structure Initializes (m : Nat → Master) (s : Nat → IcbSlave.State) (accDone : Nat → Bool) :
    Prop where
  called : (m 0).calls = calls
  silent : (m 0).icbCmdValid = false
  initial : s 0 = IcbSlave.reset
  master : ∀ t, m (t + 1) = writeReg (m t) (s t).icbCmdReady
  slave : ∀ t, s (t + 1) = IcbSlave.step (s t) (portInput (m t) (accDone t))

structure Returned (k : Nat) (m : Master) (s : IcbSlave.State) : Prop where
  calls : m.calls = calls.drop k
  silent : m.icbCmdValid = false
  ready : s.icbCmdReady = false
  inAddr : s.inAddr = if 4 ≤ k then accInitialize.inAddr else 0
  w3Addr : s.w3Addr = if 5 ≤ k then accInitialize.w3Addr else 0
  w1Addr : s.w1Addr = if 6 ≤ k then accInitialize.w1Addr else 0
  outAddr : s.outAddr = if 7 ≤ k then accInitialize.outAddr else 0
  start : s.start = if 8 ≤ k then 1 else 0

theorem step_unaccepted {s : IcbSlave.State} {i : IcbSlave.Input}
    (unaccepted : IcbSlave.hdshk s i = false) :
    (IcbSlave.step s i).inAddr = s.inAddr ∧ (IcbSlave.step s i).w3Addr = s.w3Addr ∧
      (IcbSlave.step s i).w1Addr = s.w1Addr ∧ (IcbSlave.step s i).outAddr = s.outAddr ∧
      (IcbSlave.step s i).start = (if s.start = 1 then 0 else s.start) ∧
      (IcbSlave.step s i).icbCmdReady = (s.icbCmdReady || i.icbCmdValid) := by
  simp only [IcbSlave.step, IcbSlave.written, IcbSlave.writes, unaccepted, Bool.false_and,
    Bool.false_eq_true, if_false, true_and]
  cases i.icbCmdValid <;> simp

theorem exists_call {k : Nat} (more : k < 8) : ∃ addr wdata,
    calls[k]? = some (addr, wdata) ∧ calls.drop k = (addr, wdata) :: calls.drop (k + 1) := by
  interval_cases k <;> exact ⟨_, _, rfl, rfl⟩

namespace Initializes

variable {m : Nat → Master} {s : Nat → IcbSlave.State} {accDone : Nat → Bool}
  (initializes : Initializes m s accDone)

include initializes

/-- A call takes three cycles: the register file raises its ready in the second one and accepts
the command in the third. -/
theorem next {k t : Nat} (more : k < 8) (held : Returned k (m t) (s t)) :
    Returned (k + 1) (m (t + 3)) (s (t + 3)) ∧
      (s (t + 1)).start = 0 ∧ (s (t + 2)).start = 0 := by
  obtain ⟨addr, wdata, entry, split⟩ := exists_call more
  have unstarted := held.start
  rw [if_neg (by omega)] at unstarted
  -- the valid is raised
  have raised := (initializes.master t).trans
    (writeReg_raise (held.calls.trans split) held.silent _)
  have silent := step_unaccepted (s := s t) (i := portInput (m t) (accDone t))
    (by rw [IcbSlave.hdshk, held.ready, Bool.and_false])
  rw [← initializes.slave, unstarted, held.ready] at silent
  obtain ⟨in1, w31, w11, out1, start1, ready1⟩ := silent
  rw [show (portInput (m t) (accDone t)).icbCmdValid = false from held.silent, Bool.or_false]
    at ready1
  -- the ready follows
  have waiting := initializes.master (t + 1)
  rw [ready1, writeReg_wait (m := m (t + 1)) (by rw [raised])] at waiting
  have offered := step_unaccepted (s := s (t + 1)) (i := portInput (m (t + 1)) (accDone (t + 1)))
    (by rw [IcbSlave.hdshk, ready1, Bool.and_false])
  rw [← initializes.slave, start1] at offered
  obtain ⟨in2, w32, w12, out2, start2, ready2⟩ := offered
  rw [ready1, show (portInput (m (t + 1)) (accDone (t + 1))).icbCmdValid = true by
    rw [raised]; rfl, Bool.or_true] at ready2
  -- the command is accepted
  have called : (m (t + 2)).calls = (addr, wdata) :: calls.drop (k + 1) := by
    rw [waiting, raised]
    exact held.calls.trans split
  have valid : (m (t + 2)).icbCmdValid = true := by rw [waiting, raised]
  have returns := initializes.master (t + 2)
  rw [ready2, writeReg_return called valid] at returns
  have accepted := initializes.slave (t + 2)
  have command : IcbSlave.hdshk (s (t + 2)) (portInput (m (t + 2)) (accDone (t + 2))) = true := by
    rw [IcbSlave.hdshk, ready2, Bool.and_true]
    exact valid
  have writes (reg : BitVec 12) : IcbSlave.writes (s (t + 2))
      (portInput (m (t + 2)) (accDone (t + 2))) reg = (addr == reg) := by
    have place : IcbSlave.regAddr (portInput (m (t + 2)) (accDone (t + 2))) = addr := by
      rw [waiting, raised]
      exact BitVec.eq_of_toNat_eq (by simp [IcbSlave.regAddr, portInput]; omega)
    rw [IcbSlave.writes, command, place]
    rfl
  have data : (portInput (m (t + 2)) (accDone (t + 2))).icbCmdWdata = wdata := by
    rw [waiting, raised]
    rfl
  refine ⟨⟨by rw [returns], by rw [returns], ?_, ?_, ?_, ?_, ?_, ?_⟩, start1,
    start2.trans rfl⟩
  · rw [accepted]
    simp [IcbSlave.step, command]
  all_goals
    rw [accepted]
    simp only [IcbSlave.step, IcbSlave.written, writes, data, in2, w32, w12, out2, start2, in1,
      w31, w11, out1, held.inAddr, held.w3Addr, held.w1Addr, held.outAddr]
    interval_cases k <;> obtain ⟨rfl, rfl⟩ := Prod.mk.inj (Option.some.inj entry) <;> rfl

theorem returned {k : Nat} (called : k ≤ 8) : Returned k (m (3 * k)) (s (3 * k)) := by
  induction k with
  | zero =>
      rw [Nat.mul_zero, initializes.initial]
      exact ⟨initializes.called, initializes.silent, rfl, rfl, rfl, rfl, rfl, rfl⟩
  | succ k held => exact (initializes.next called (held (by omega))).1

theorem start_early {t : Nat} (early : t < 24) : (s t).start = 0 := by
  have held := initializes.returned (k := t / 3) (by omega)
  obtain ⟨-, second, third⟩ := initializes.next (by omega) held
  have first := held.start
  rw [if_neg (by omega)] at first
  obtain now | now | now : t = 3 * (t / 3) ∨ t = 3 * (t / 3) + 1 ∨ t = 3 * (t / 3) + 2 := by omega
  · rwa [← now] at first
  · rwa [← now] at second
  · rwa [← now] at third

theorem settled (n : Nat) : (m (24 + n)).calls = [] ∧ (m (24 + n)).icbCmdValid = false ∧
    (s (24 + n)).inAddr = accInitialize.inAddr ∧ (s (24 + n)).w3Addr = accInitialize.w3Addr ∧
    (s (24 + n)).w1Addr = accInitialize.w1Addr ∧ (s (24 + n)).outAddr = accInitialize.outAddr ∧
    (s (24 + n)).start = if n = 0 then 1 else 0 := by
  induction n with
  | zero =>
      have held := initializes.returned (k := 8) le_rfl
      exact ⟨held.calls, held.silent, held.inAddr, held.w3Addr, held.w1Addr, held.outAddr,
        held.start⟩
  | succ n settled =>
      obtain ⟨called, silent, inAddr, w3Addr, w1Addr, outAddr, start⟩ := settled
      have master : m (24 + (n + 1)) = m (24 + n) := by
        have next := initializes.master (24 + n)
        rwa [writeReg, called] at next
      have kept := step_unaccepted (s := s (24 + n)) (i := portInput (m (24 + n)) (accDone (24 + n)))
        (by
          rw [IcbSlave.hdshk]
          exact Bool.and_eq_false_imp.mpr fun valid => absurd (valid.symm.trans silent) (by decide))
      rw [← initializes.slave, inAddr, w3Addr, w1Addr, outAddr, start] at kept
      obtain ⟨inAddr', w3Addr', w1Addr', outAddr', start', -⟩ := kept
      refine ⟨by rw [master, called], by rw [master, silent], inAddr', w3Addr', w1Addr', outAddr',
        start'.trans ?_⟩
      cases n <;> rfl

end Initializes

end RepVGGAcc.IcbDriver
