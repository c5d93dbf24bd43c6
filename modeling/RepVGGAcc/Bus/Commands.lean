import RepVGGAcc.Clocked.Trace
import RepVGGAcc.Rtl.IcbMaster

/-! The commands that the bus interface units hand to the arbiter, and those the
bus accepts. -/

namespace RepVGGAcc.BusUnits

open Clocked
open IcbMaster (Grant)

/-- The command one unit hands to the arbiter in this cycle. -/
def handedBy (s : State) (i : Input) : Grant → Option Command
  | .none => none
  | .omap =>
      if OmapBiu.hdshk s.omapBiu (omapInput s i) then
        some {
          addr := OmapBiu.omapBiu2arbAddr s.omapBiu i.omapBaseAddr
          read := false
          wdata := OmapBiu.omapBiu2arbData s.omapBiu }
      else none
  | .weight =>
      if WeightBiu.hdshk s.weightBiu (weightInput s i) then
        some { addr := s.weightBiu.weightBiu2arbAddr, read := true, wdata := 0 }
      else none
  | .imap =>
      if ImapBiu.hdshk s.imapBiu (imapInput s i) then
        some { addr := s.imapBiu.imapBiu2arbAddr, read := true, wdata := 0 }
      else none

def handed (s : State) (i : Input) : Option Command :=
  handedBy s i .omap <|> handedBy s i .weight <|> handedBy s i .imap

def accepted (s : State) (i : Input) : Option Command :=
  if accIcbCmdValid s && i.accIcbCmdReady then some (command s i) else none

theorem handedBy_of_ne (s : State) (i : Input) (unit : Grant)
    (other : s.icbMaster.state ≠ unit) : handedBy s i unit = none := by
  cases unit <;>
    simp [handedBy, OmapBiu.hdshk, WeightBiu.hdshk, ImapBiu.hdshk, omapInput,
      weightInput, imapInput, IcbMaster.rdy, other]

theorem handedBy_granted (s : State) (i : Input) :
    handedBy s i s.icbMaster.state =
      if accIcbCmdValid s then some (command s i) else none := by
  cases granted : s.icbMaster.state <;>
    simp [handedBy, OmapBiu.hdshk, WeightBiu.hdshk, ImapBiu.hdshk, omapInput,
      weightInput, imapInput, IcbMaster.rdy, accIcbCmdValid, command, accIcbCmdAddr,
      accIcbCmdRead, accIcbCmdWdata, granted]
  case omap => rfl

theorem handed_eq (s : State) (i : Input) :
    handed s i = if accIcbCmdValid s then some (command s i) else none := by
  rw [← handedBy_granted s i, handed]
  cases granted : s.icbMaster.state with
  | none =>
      rw [handedBy_of_ne s i .omap (by simp [granted]),
        handedBy_of_ne s i .weight (by simp [granted]),
        handedBy_of_ne s i .imap (by simp [granted])]
      rfl
  | omap =>
      rw [handedBy_of_ne s i .weight (by simp [granted]),
        handedBy_of_ne s i .imap (by simp [granted])]
      simp
  | weight =>
      rw [handedBy_of_ne s i .omap (by simp [granted]),
        handedBy_of_ne s i .imap (by simp [granted])]
      simp
  | imap =>
      rw [handedBy_of_ne s i .omap (by simp [granted]),
        handedBy_of_ne s i .weight (by simp [granted])]
      simp

theorem handed_eq_accepted_iff (s : State) (i : Input) :
    accepted s i = handed s i ↔
      (accIcbCmdValid s = true → i.accIcbCmdReady = true) := by
  rw [handed_eq, accepted]
  cases accIcbCmdValid s <;> cases i.accIcbCmdReady <;> simp

/-- The bus accepts the commands handed over, in that order, and a command that
waits is neither withdrawn nor replaced. -/
structure CommandsKept (s : Nat → State) (i : Nat → Input) : Prop where
  accepted_eq : ∀ n,
    events (fun t => accepted (s t) (i t)) n = events (fun t => handed (s t) (i t)) n
  held : ∀ t, accIcbCmdValid (s t) = true → (i t).accIcbCmdReady = false →
    accIcbCmdValid (s (t + 1)) = true ∧
      command (s (t + 1)) (i (t + 1)) = command (s t) (i t)

/-- The port keeps the commands of a run exactly when none ever waits. -/
theorem commandsKept_iff (start : State) (i : Nat → Input) :
    CommandsKept (run step start i) i ↔
      ∀ t, accIcbCmdValid (run step start i t) = true → (i t).accIcbCmdReady = true := by
  constructor
  · intro kept t
    rw [← handed_eq_accepted_iff]
    exact observed_eq (kept.accepted_eq t) (kept.accepted_eq (t + 1))
  · intro ready
    have same : (fun t => accepted (run step start i t) (i t)) =
        fun t => handed (run step start i t) (i t) := by
      funext t
      exact (handed_eq_accepted_iff _ _).mpr (ready t)
    refine ⟨fun n => by rw [same], fun t valid waiting => ?_⟩
    rw [ready t valid] at waiting
    cases waiting

/-! A weight fetch on a bus that does not accept the first command. -/

def resetUnits : State where
  icbMaster := IcbMaster.reset
  weightBiu := WeightBiu.reset
  imapBiu := ImapBiu.reset
  omapBiu := {
    omapBiu2arbCnt := 0
    pipe := { vldR := false, datR := 0 }
    receiveCnt := 0
    omapBiu2arbReq := false }

theorem isReset_resetUnits : IsReset resetUnits :=
  ⟨rfl, rfl, rfl, ⟨rfl, rfl, rfl, rfl⟩⟩

def slowBus (t : Nat) : Input where
  weightStart := t == 0
  weight3BaseAddr := 0x1000
  weight1BaseAddr := 0x2000
  weightOchCnt := 0
  imapStart := false
  imapBaseAddr := 0
  omapBaseAddr := 0
  inChCnt := false
  mapMerger2omapBiuData := 0
  mapMerger2omapBiuVld := false
  accIcbCmdReady := t != 2
  accIcbRspValid := false
  accIcbRspRdata := 0

/-- The refused command is gone in the next cycle. -/
theorem commandsKept_fails :
    ¬ ∀ (start : State) (i : Nat → Input), IsReset start →
      CommandsKept (run step start i) i := by
  intro always
  have kept := (always resetUnits slowBus isReset_resetUnits).accepted_eq 3
  exact absurd kept (by decide)

end RepVGGAcc.BusUnits
