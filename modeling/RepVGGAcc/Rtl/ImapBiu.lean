import RepVGGAcc.Rtl.GnrlModules

/-! `imap_biu.v`: the fetch engine of the input feature map. One burst is
`0xc400` words, 16 for each pixel. -/

namespace RepVGGAcc.ImapBiu

/-- `2'b00` and `2'b01`. -/
inductive FetchState
  | idle
  | fetch
  deriving DecidableEq, Repr

structure State where
  state : FetchState
  /-- The value the `nextstate` latch holds. -/
  nextstate : FetchState
  cnt : Nat
  imapBiu2arbAddr : BitVec 32
  imapBiu2arbReq : Bool
  imapBiu2arbVld : Bool
  receiveCnt : Nat
  formerBits : BitVec 32
  imapDone : Bool
  deriving DecidableEq, Repr

structure Input where
  imapStart : Bool
  imapBaseAddr : BitVec 32
  imapBiu2arbRdy : Bool
  arb2imapBiuData : BitVec 32
  arb2imapBiuVld : Bool
  deriving DecidableEq, Repr

def reset : State where
  state := .idle
  nextstate := .idle
  cnt := 0
  imapBiu2arbAddr := 0
  imapBiu2arbReq := false
  imapBiu2arbVld := false
  receiveCnt := 0
  formerBits := 0
  imapDone := false

def hdshk (s : State) (i : Input) : Bool :=
  s.imapBiu2arbVld && i.imapBiu2arbRdy

def arb2imapBiuRdy : Bool := true

/-- A response word arrives: `arb2imap_biu_vld & arb2imap_biu_rdy`. -/
def receive (i : Input) : Bool :=
  i.arb2imapBiuVld && arb2imapBiuRdy

@[simp] theorem receive_eq (i : Input) : receive i = i.arb2imapBiuVld := by
  simp [receive, arb2imapBiuRdy]

def nextstate (s : State) (i : Input) : FetchState :=
  match s.state with
  | .idle => if i.imapStart then .fetch else s.nextstate
  | .fetch => if s.cnt = 0xc3ff ∧ hdshk s i then .idle else s.nextstate

def cntNext (s : State) (i : Input) : Nat :=
  match s.state with
  | .fetch =>
      if s.cnt = 0xc3ff ∧ hdshk s i then 0
      else if hdshk s i then (s.cnt + 1) % 2 ^ 16
      else s.cnt
  | .idle => 0

def addrNext (s : State) (i : Input) : BitVec 32 :=
  match s.state with
  | .idle =>
      if nextstate s i = .fetch then i.imapBaseAddr else s.imapBiu2arbAddr
  | .fetch =>
      if s.cnt = 0xc3ff ∧ hdshk s i then 0
      else if hdshk s i then s.imapBiu2arbAddr + 4
      else s.imapBiu2arbAddr

/-- `imap_waddr`, from bits 15:4, 2:1 and 3 of the receive counter. -/
def imapWaddr (s : State) : Nat :=
  s.receiveCnt / 2 ^ 4 +
    (s.receiveCnt / 2 % 4 * 2 + s.receiveCnt / 2 ^ 3 % 2) * 0xc40

def imapWdata (s : State) (i : Input) : BitVec 64 :=
  s.formerBits ++ i.arb2imapBiuData

def imapWen (s : State) (i : Input) : Bool :=
  s.receiveCnt % 2 = 1 && receive i

def step (s : State) (i : Input) : State where
  state := nextstate s i
  nextstate := nextstate s i
  cnt := cntNext s i
  imapBiu2arbAddr := addrNext s i
  imapBiu2arbReq :=
    if i.imapStart then true
    else if s.receiveCnt = 0xc3ff ∧ receive i then false
    else s.imapBiu2arbReq
  imapBiu2arbVld :=
    if s.cnt = 0xc3ff ∧ hdshk s i then false
    else if i.imapStart then true
    else s.imapBiu2arbVld
  receiveCnt :=
    if s.receiveCnt = 0xc3ff ∧ receive i then 0
    else if receive i then (s.receiveCnt + 1) % 2 ^ 16
    else s.receiveCnt
  formerBits :=
    if s.receiveCnt % 2 = 0 ∧ receive i then i.arb2imapBiuData else s.formerBits
  imapDone :=
    if s.imapDone then false
    else if s.receiveCnt = 0xc3ff ∧ receive i then true
    else s.imapDone

end RepVGGAcc.ImapBiu
