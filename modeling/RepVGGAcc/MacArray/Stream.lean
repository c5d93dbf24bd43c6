import RepVGGAcc.MacArray.Stalls

/-! A run of `mac_array` on a stream of pixels, without stalls. Every register of the
array is then a function of the cycle. -/

namespace RepVGGAcc.MacArray

open Clocked
open MacArrayFsm (mask)

def reads (s : State) (i : Input) : Bool :=
  MacArrayFsm.imapRen s.macArrayFsm (fsmInput i)

/-- The array is started in cycle 0, its receiver is ready in every cycle, and read `m` of
the run returns pixel `m` of the stream in the next cycle. -/
structure Streams (pixel : Nat → BitVec 256) (skew : Fin 3136) (done : Bool)
    (s : Nat → State) (i : Nat → Input) : Prop where
  trace : IsTrace step s i
  rests : (s 0).macArrayFsm = MacArrayFsm.rested skew done
  starts : ∀ t, (i t).convStart = decide (t = 0)
  ready : ∀ t, (i t).macArray2psumAccRdy = true
  returns : ∀ t, reads (s t) (i t) = true →
    (i (t + 1)).imapRdata = pixel (Nat.count (fun u => reads (s u) (i u) = true) t)

namespace Streams

variable {pixel : Nat → BitVec 256} {skew : Fin 3136} {done : Bool} {s : Nat → State}
  {i : Nat → Input}

theorem unstalled (run : Streams pixel skew done s i) :
    MacArrayFsm.Unstalled skew done (fun t => (s t).macArrayFsm) fun t => fsmInput (i t) where
  trace := fsm_trace run.trace
  rests := run.rests
  starts := run.starts
  ready := run.ready

theorem fsm_eq (run : Streams pixel skew done s i) {e : Nat} (running : e < 401473) :
    (s (e + 1)).macArrayFsm = MacArrayFsm.scan skew e :=
  run.unstalled.scan_succ running

theorem pipeEnD_eq (run : Streams pixel skew done s i) {e : Nat} (running : e < 401473) :
    (s (e + 2)).macArrayCore.pipeEnD = true := by
  rw [pipeEnD_succ run.trace, run.fsm_eq running, MacArrayFsm.pipeEn_scan]
  exact run.ready _

theorem imapRdata_eq (run : Streams pixel skew done s i) {e : Nat} (reading : e < 401467) :
    (i (e + 2)).imapRdata = pixel e := by
  have read : reads (s (e + 1)) (i (e + 1)) = true :=
    (run.unstalled.imapRen_succ e).trans (decide_eq_true reading)
  have number : Nat.count (fun u => reads (s u) (i u) = true) (e + 1) = e :=
    run.unstalled.count_imapRen reading.le
  rw [run.returns (e + 1) read, number]

theorem holds (run : Streams pixel skew done s i) (lane : Fin 32) {e : Nat}
    (reading : e ≤ 401467) :
    SystolicArray.Holds (fun m => MacArrayCore.laneIn (pixel m) lane) e
      ((s (e + 2)).macArrayCore.convArray lane) := by
  induction e with
  | zero => exact .zero _ _
  | succ e held =>
      rw [run.trace (e + 2)]
      refine (held (by omega)).step_enabled (run.pipeEnD_eq (by omega)) ?_
      show MacArrayCore.laneIn (i (e + 2)).imapRdata lane = _
      rw [run.imapRdata_eq (by omega)]

section Position

variable {n : Nat}

theorem window_fsm (run : Streams pixel skew done s i) (inRun : n < 401408) :
    (s (60 + n)).macArrayFsm = MacArrayFsm.scan skew (59 + n) := by
  rw [show 60 + n = 59 + n + 1 by omega]
  exact run.fsm_eq (by omega)

theorem window_holds (run : Streams pixel skew done s i) (inRun : n < 401408)
    (lane : Fin 32) : SystolicArray.Holds (fun m => MacArrayCore.laneIn (pixel m) lane) (58 + n)
      ((s (60 + n)).macArrayCore.convArray lane) := by
  rw [show 60 + n = 58 + n + 2 by omega]
  exact run.holds lane (by omega)

theorem window_enabled (run : Streams pixel skew done s i) (inRun : n < 401408) :
    ∀ j < 6, (s (60 + n + j)).macArrayCore.pipeEnD = true := by
  intro j lt
  rw [show 60 + n + j = 58 + n + j + 2 by omega]
  exact run.pipeEnD_eq (by omega)

end Position

end Streams

/-- A stream that keeps its pace whatever the array asks for. -/
def stream (pixel : Nat → BitVec 256) (t : Nat) : Input where
  convStart := decide (t = 0)
  weightWaddr := 0
  weightWdata := 0
  weightWen := false
  imapRdata := pixel (t - 2)
  macArray2psumAccRdy := true

theorem streams_stream {start : State} (rests : start.macArrayFsm = MacArrayFsm.reset)
    (pixel : Nat → BitVec 256) :
    Streams pixel 0 false (run step start (stream pixel)) (stream pixel) := by
  have trace := isTrace_run step start (stream pixel)
  have unstalled : MacArrayFsm.Unstalled 0 false
      (fun t => (run step start (stream pixel) t).macArrayFsm)
      fun t => fsmInput (stream pixel t) :=
    ⟨fsm_trace trace, rests, fun _ => rfl, fun _ => rfl⟩
  refine ⟨trace, rests, fun _ => rfl, fun _ => rfl, fun t read => ?_⟩
  cases t with
  | zero =>
      have quiet : reads start (stream pixel 0) = false := by
        unfold reads
        rw [rests]
        rfl
      exact absurd (quiet.symm.trans read) Bool.false_ne_true
  | succ e =>
      have reading := of_decide_eq_true ((unstalled.imapRen_succ e).symm.trans read)
      have number : Nat.count
          (fun u => reads (run step start (stream pixel) u) (stream pixel u) = true) (e + 1) = e :=
        unstalled.count_imapRen reading.le
      rw [number]
      rfl

end RepVGGAcc.MacArray
