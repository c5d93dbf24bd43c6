import RepVGGAcc.Rtl.GnrlModules

/-! `weight_biu.v`: the fetch engine of the weights. One burst is 144 words of
3x3 weights followed by 16 words of 1x1 weights. -/

namespace RepVGGAcc.WeightBiu

/-- `2'b00`, `2'b01` and `2'b10`. -/
inductive FetchState
  | idle
  | fetch3x3
  | fetch1x1
  deriving DecidableEq, Repr

structure State where
  state : FetchState
  /-- The value `nextstate` holds in a cycle whose branch does not assign it:
  the combinational block is a latch. -/
  nextstate : FetchState
  cnt : Nat
  weightBiu2arbAddr : BitVec 32
  weightBiu2arbReq : Bool
  weightBiu2arbVld : Bool
  receiveCnt : Nat
  receiveBitCnt : Nat
  receiveChCnt : Nat
  weightDone : Bool
  deriving DecidableEq, Repr

structure Input where
  weightStart : Bool
  weight3BaseAddr : BitVec 32
  weight1BaseAddr : BitVec 32
  weightOchCnt : Nat
  weightBiu2arbRdy : Bool
  arb2weightBiuData : BitVec 32
  arb2weightBiuVld : Bool
  deriving DecidableEq, Repr

def reset : State where
  state := .idle
  nextstate := .idle
  cnt := 0
  weightBiu2arbAddr := 0
  weightBiu2arbReq := false
  weightBiu2arbVld := false
  receiveCnt := 0
  receiveBitCnt := 0
  receiveChCnt := 0
  weightDone := false

def hdshk (s : State) (i : Input) : Bool :=
  s.weightBiu2arbVld && i.weightBiu2arbRdy

def arb2weightBiuRdy : Bool := true

/-- A response word arrives: `arb2weight_biu_vld & arb2weight_biu_rdy`. -/
def receive (i : Input) : Bool :=
  i.arb2weightBiuVld && arb2weightBiuRdy

@[simp] theorem receive_eq (i : Input) : receive i = i.arb2weightBiuVld := by
  simp [receive, arb2weightBiuRdy]

def nextstate (s : State) (i : Input) : FetchState :=
  match s.state with
  | .idle => if i.weightStart then .fetch3x3 else s.nextstate
  | .fetch3x3 => if s.cnt = 143 ∧ hdshk s i then .fetch1x1 else s.nextstate
  | .fetch1x1 => if s.cnt = 15 ∧ hdshk s i then .idle else s.nextstate

def cntNext (s : State) (i : Input) : Nat :=
  match s.state with
  | .fetch3x3 =>
      if s.cnt = 143 ∧ hdshk s i then 0
      else if hdshk s i then (s.cnt + 1) % 2 ^ 8
      else s.cnt
  | .fetch1x1 =>
      if s.cnt = 15 ∧ hdshk s i then 0
      else if hdshk s i then (s.cnt + 1) % 2 ^ 8
      else s.cnt
  | .idle => 0

def addrNext (s : State) (i : Input) : BitVec 32 :=
  match s.state with
  | .idle =>
      if nextstate s i = .fetch3x3 then
        i.weight3BaseAddr + BitVec.ofNat 32 (i.weightOchCnt * 0x90)
      else s.weightBiu2arbAddr
  | .fetch3x3 =>
      if s.cnt = 143 ∧ hdshk s i then
        i.weight1BaseAddr + BitVec.ofNat 32 (i.weightOchCnt * 0x10)
      else if hdshk s i then s.weightBiu2arbAddr + 4
      else s.weightBiu2arbAddr
  | .fetch1x1 =>
      if s.cnt = 15 ∧ hdshk s i then 0
      else if hdshk s i then s.weightBiu2arbAddr + 4
      else s.weightBiu2arbAddr

/-- `weight_waddr`: bit 31 tells 3x3 from 1x1, bits 30:23 the output channel,
bits 11:6 the kernel tap and bits 5:0 the input channel word. -/
def weightWaddr (s : State) (i : Input) : Nat :=
  (if s.receiveCnt < 0x90 then 0 else 1) * 2 ^ 31 + i.weightOchCnt * 2 ^ 23 +
    s.receiveBitCnt * 2 ^ 6 + s.receiveChCnt

def weightWdata (i : Input) : BitVec 32 :=
  i.arb2weightBiuData

def weightWen (i : Input) : Bool :=
  receive i

def step (s : State) (i : Input) : State where
  state := nextstate s i
  nextstate := nextstate s i
  cnt := cntNext s i
  weightBiu2arbAddr := addrNext s i
  weightBiu2arbReq :=
    if i.weightStart then true
    else if s.receiveCnt = 159 ∧ receive i then false
    else s.weightBiu2arbReq
  weightBiu2arbVld :=
    if s.state = .fetch1x1 ∧ s.cnt = 15 ∧ hdshk s i then false
    else if i.weightStart then true
    else s.weightBiu2arbVld
  receiveCnt :=
    if s.receiveCnt = 159 ∧ receive i then 0
    else if receive i then (s.receiveCnt + 1) % 2 ^ 8
    else s.receiveCnt
  receiveBitCnt :=
    if s.receiveCnt ≤ 143 ∧ s.receiveChCnt = 15 ∧ receive i then
      if s.receiveBitCnt = 8 then 0 else (s.receiveBitCnt + 1) % 2 ^ 6
    else s.receiveBitCnt
  receiveChCnt :=
    if receive i then (s.receiveChCnt + 1) % 2 ^ 4 else s.receiveChCnt
  weightDone :=
    if s.weightDone then false
    else if s.receiveCnt = 159 ∧ receive i then true
    else s.weightDone

end RepVGGAcc.WeightBiu
