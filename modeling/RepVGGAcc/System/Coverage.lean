import RepVGGAcc.System.Program

/-! What the first run writes where: the words of the output map, in the order of their
addresses. -/

namespace RepVGGAcc

open Clocked

namespace RepvggAccTop

/-- Up to cycle `stop` nothing holds up the first run, whose last word is written before
cycle `last`: the array is not stalled, a word that is ready finds the arbiter in its
`omap` state, and the write commands go through the output map once. -/
structure Covers (outAddr : BitVec 32) (last stop : Nat) (s : Nat → State) (i : Nat → Input) :
    Prop where
  unstalled : ∀ t ≤ stop, macArray2psumAccVld (s t) = true → macArray2psumAccRdy (s t) = true
  granted : ∀ t ≤ stop, OmapBiu.omapBiu2arbVld (s t).bus.omapBiu = true →
    (s t).bus.icbMaster.state = .omap
  inOrder : ∀ n ≤ stop + 1,
    (events (fun t => writeCommand (s t) (i t)) n).map BusUnits.Command.addr <+:
      (List.range 200704).map fun k => outAddr + BitVec.ofNat 32 (4 * k)
  complete : ∀ n ≤ stop + 1, last ≤ n →
    (events (fun t => writeCommand (s t) (i t)) n).map BusUnits.Command.addr =
      (List.range 200704).map fun k => outAddr + BitVec.ofNat 32 (4 * k)
  once : ((List.range 200704).map fun k => outAddr + BitVec.ofNat 32 (4 * k)).Nodup

theorem nodup_addresses (outAddr : BitVec 32) :
    ((List.range 200704).map fun k => outAddr + BitVec.ofNat 32 (4 * k)).Nodup := by
  refine List.Nodup.map_on ?_ List.nodup_range
  intro k inside k' inside' same
  have bounds := List.mem_range.mp inside
  have bounds' := List.mem_range.mp inside'
  have words : BitVec.ofNat 32 (4 * k) = BitVec.ofNat 32 (4 * k') :=
    BitVec.add_right_inj outAddr |>.mp same
  have values := congrArg BitVec.toNat words
  simp only [BitVec.toNat_ofNat] at values
  omega

namespace FirstRun

variable {L a stop : Nat} {s : Nat → State} {i : Nat → Input}

theorem addresses_eq (run : FirstRun L a stop s i) (some_ : 1 ≤ L) (latency : L ≤ 1000)
    {settings : Settings} (settled : ∀ t, a ≤ t → t ≤ stop → settings.HeldBy (s t))
    {n : Nat} (within : n ≤ stop + 1) :
    (events (fun t => writeCommand (s t) (i t)) n).map BusUnits.Command.addr =
      (List.range (Control.written L (n - a))).map
        fun k => settings.outAddr + BitVec.ofNat 32 (4 * k) := by
  induction n with
  | zero => simp [Control.written_early]
  | succ n held =>
      rw [events_succ, List.map_append, held (by omega),
        run.writeCommand_eq some_ latency (by omega : n ≤ stop)]
      by_cases early : n < a
      · have unwritten : (Control.timeline L (n - a)).omapPipe = false :=
          (Control.omapPipe_early latency (by omega)).1
        rw [unwritten, show n + 1 - a = n - a by omega]
        simp
      · have next := Control.written_succ latency (n - a)
        rw [show n + 1 - a = n - a + 1 by omega, next]
        cases writing : (Control.timeline L (n - a)).omapPipe with
        | false => simp
        | true => simp [(settled n (by omega) (by omega)).outAddr, List.range_succ]

theorem covers (run : FirstRun L a stop s i) (some_ : 1 ≤ L) (latency : L ≤ 1000)
    {settings : Settings} (settled : ∀ t, a ≤ t → t ≤ stop → settings.HeldBy (s t)) :
    Covers settings.outAddr (a + 451821 + 2 * L) stop s i where
  unstalled := fun t within _ =>
    (run.control_eq some_ latency within).macArray2psumAccRdy
      (Control.fits_timeline latency (t - a)).flows
  granted := fun t within waiting => by
    have shown := run.control_eq some_ latency within
    rw [shown.grant]
    exact (Control.fits_timeline latency (t - a)).flows (shown.omapPipe.symm.trans waiting)
  inOrder := fun n within => by
    rw [run.addresses_eq some_ latency settled within]
    exact map_range_isPrefix _ (Control.written_le L (n - a))
  complete := fun n within late => by
    rw [run.addresses_eq some_ latency settled within, Control.written_late (by omega)]
  once := nodup_addresses settings.outAddr

theorem covers_cleared :
    Covers 0x60000 (16 + 451821 + 2 * 1) 500000 (System.top System.offsets fun _ => 0)
      (System.topInput System.offsets fun _ => 0) :=
  covers (System.firstRun System.offsets (fun _ => 0) 500000) (by decide) (by decide)
    fun _ started _ => System.settled System.offsets (fun _ => 0) started

end FirstRun

end RepvggAccTop

end RepVGGAcc
