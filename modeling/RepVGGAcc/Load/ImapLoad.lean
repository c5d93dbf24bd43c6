import RepVGGAcc.Clocked.Trace
import RepVGGAcc.Load.ImapBuffer
import RepVGGAcc.Rtl.ImapBiu

/-! The load of the input feature map: `imap_biu` packs the words of the bus into
pairs, `imap_buf` stores them. -/

namespace RepVGGAcc.ImapLoad

open Clocked
open ImapBuf (stored portAddr)

structure State where
  imapBiu : ImapBiu.State
  imapBuf : ImapBuf.State

structure Input where
  imapBiu : ImapBiu.Input
  imapRaddr : Nat
  imapRen : Bool

def bufInput (s : State) (i : Input) : ImapBuf.Input where
  imapWaddr := ImapBiu.imapWaddr s.imapBiu
  imapWdata := ImapBiu.imapWdata s.imapBiu i.imapBiu
  imapWen := ImapBiu.imapWen s.imapBiu i.imapBiu
  imapRaddr := i.imapRaddr
  imapRen := i.imapRen

def step (s : State) (i : Input) : State where
  imapBiu := ImapBiu.step s.imapBiu i.imapBiu
  imapBuf := ImapBuf.step s.imapBuf (bufInput s i)

def mapWords : Nat := 0xc400

/-- Where the pair of the words `2 * q` and `2 * q + 1` is stored. -/
def pairAddr (q : Nat) : Nat :=
  q / 8 + (q % 4 * 2 + q / 4 % 2) * 3136

theorem pairAddr_lt {q : Nat} (inside : q < 25088) : pairAddr q < 7 * 2 ^ 12 := by
  unfold pairAddr
  omega

theorem pairAddr_inj {q q' : Nat} (inside : q < 25088) (inside' : q' < 25088) :
    pairAddr q = pairAddr q' ↔ q = q' := by
  constructor
  · intro same
    have pixel : q / 8 = q' / 8 := by
      have residue := congrArg (· % 3136) same
      simp only [pairAddr] at residue
      omega
    have block : q % 4 * 2 + q / 4 % 2 = q' % 4 * 2 + q' / 4 % 2 := by
      unfold pairAddr at same
      omega
    omega
  · rintro rfl
    rfl

theorem portAddr_eq_pairAddr {g j : Nat} (group : g < 2) (port : j < 4) (p : Nat) :
    portAddr g p j = pairAddr (8 * p + 4 * g + j) := by
  unfold portAddr pairAddr ImapBuf.blockSize
  omega

/-- The first `count` words of a map have arrived. -/
structure Loaded (word : Nat → BitVec 32) (count : Nat) (s : State) : Prop where
  bound : count ≤ mapWords
  receiveCnt : s.imapBiu.receiveCnt = count % mapWords
  former : count % 2 = 1 → s.imapBiu.formerBits = word (count - 1)
  pairs : ∀ q < count / 2,
    stored s.imapBuf (pairAddr q) = word (2 * q) ++ word (2 * q + 1)

namespace Loaded

variable {word : Nat → BitVec 32} {count : Nat} {s : State} {i : Input}

theorem start (word : Nat → BitVec 32) (fresh : s.imapBiu.receiveCnt = 0) :
    Loaded word 0 s where
  bound := Nat.zero_le _
  receiveCnt := fresh
  former := fun absurdity => absurd absurdity (by omega)
  pairs := fun _ absurdity => absurd absurdity (by omega)

theorem step_wait (loaded : Loaded word count s) (wait : i.imapBiu.arb2imapBiuVld = false) :
    Loaded word count (step s i) := by
  have unwritten : (bufInput s i).imapWen = false := by
    simp [bufInput, ImapBiu.imapWen, wait]
  refine ⟨loaded.bound, ?_, fun odd => ?_, fun q inside => ?_⟩
  · simp [step, ImapBiu.step, wait, loaded.receiveCnt]
  · simp [step, ImapBiu.step, wait, loaded.former odd]
  · exact (ImapBuf.stored_step_of_not_wen s.imapBuf unwritten _).trans (loaded.pairs q inside)

theorem step_receive (loaded : Loaded word count s) (more : count < mapWords)
    (receive : i.imapBiu.arb2imapBiuVld = true)
    (arrived : i.imapBiu.arb2imapBiuData = word count)
    (apart : (bufInput s i).imapWen = true → i.imapRen = false) :
    Loaded word (count + 1) (step s i) := by
  have counter : s.imapBiu.receiveCnt = count := by
    rw [loaded.receiveCnt, Nat.mod_eq_of_lt more]
  unfold mapWords at more
  refine ⟨more, ?_, fun odd => ?_, fun q inside => ?_⟩
  · simp only [step, ImapBiu.step, ImapBiu.receive_eq, receive, counter, and_true, if_true,
      mapWords]
    split_ifs <;> omega
  · have even : count % 2 = 0 := by omega
    simp [step, ImapBiu.step, receive, counter, even, arrived]
  · by_cases second : count % 2 = 1
    · have wen : (bufInput s i).imapWen = true := by
        simp [bufInput, ImapBiu.imapWen, counter, second, receive]
      have waddr : (bufInput s i).imapWaddr = pairAddr (count / 2) := by
        simp only [bufInput, ImapBiu.imapWaddr, counter, pairAddr]
        omega
      have valid : (bufInput s i).imapWaddr < 7 * 2 ^ 12 := by
        rw [waddr]
        exact pairAddr_lt (by omega)
      have written := ImapBuf.stored_step_write s.imapBuf wen (apart wen) valid
        (pairAddr_lt (by omega : q < 25088))
      refine written.trans ?_
      rw [waddr]
      simp only [pairAddr_inj (by omega : q < 25088) (by omega : count / 2 < 25088)]
      split_ifs with last
      · show (s.imapBiu.formerBits ++ i.imapBiu.arb2imapBiuData : BitVec 64) = _
        rw [loaded.former second, arrived, show 2 * q = count - 1 by omega,
          show count - 1 + 1 = count by omega]
      · exact loaded.pairs q (by omega)
    · have unwritten : (bufInput s i).imapWen = false := by
        simp [bufInput, ImapBiu.imapWen, counter, second]
      exact (ImapBuf.stored_step_of_not_wen s.imapBuf unwritten _).trans
        (loaded.pairs q (by omega))

end Loaded

/-- The words of a feature map arrive in the cycles before `last`, in their order
and at any times, and nothing is read before they are complete. -/
structure IsLoad (word : Nat → BitVec 32) (s : Nat → State) (i : Nat → Input) (last : Nat) :
    Prop where
  trace : IsTrace step s i
  fresh : (s 0).imapBiu.receiveCnt = 0
  arrives : ∀ t < last, (i t).imapBiu.arb2imapBiuVld = true →
    (i t).imapBiu.arb2imapBiuData =
      word (Nat.count (fun u => (i u).imapBiu.arb2imapBiuVld = true) t)
  complete : Nat.count (fun u => (i u).imapBiu.arb2imapBiuVld = true) last = mapWords
  unread : ∀ t < last, (i t).imapRen = false

theorem IsLoad.loaded {word : Nat → BitVec 32} {s : Nat → State} {i : Nat → Input}
    {last : Nat} (load : IsLoad word s i last) (t : Nat) (le : t ≤ last) :
    Loaded word (Nat.count (fun u => (i u).imapBiu.arb2imapBiuVld = true) t) (s t) := by
  induction t with
  | zero => exact Loaded.start word load.fresh
  | succ t held =>
      have before := held (by omega)
      rw [load.trace t, Nat.count_succ]
      cases receive : (i t).imapBiu.arb2imapBiuVld with
      | false => exact before.step_wait receive
      | true =>
          have more : Nat.count (fun u => (i u).imapBiu.arb2imapBiuVld = true) (t + 1) ≤
              mapWords := by
            rw [← load.complete]
            exact Nat.count_monotone _ le
          rw [Nat.count_succ, if_pos receive] at more
          rw [if_pos rfl]
          exact before.step_receive more receive (load.arrives t le receive)
            fun _ => load.unread t le

def byteOf (word : BitVec 32) (b : Nat) : BitVec 8 :=
  word.extractLsb' (8 * b) 8

/-- The word of a pixel whose bytes a lane receives, among 16. The two words of a
pair are stored with the later one below. -/
def pixelWord (g lane : Nat) : Nat :=
  8 * g + 2 * (lane / 8) + (1 - lane % 8 / 4)

/-- A pixel of a loaded map as a read of group `g` shows it. -/
def pixelOf (word : Nat → BitVec 32) (g p : Nat) : BitVec 256 :=
  ImapBuf.collect fun j =>
    word (2 * (8 * p + 4 * g + j)) ++ word (2 * (8 * p + 4 * g + j) + 1)

theorem imapRdata_loaded {word : Nat → BitVec 32} {s : State} (loaded : Loaded word mapWords s)
    {i : ImapBuf.Input} {g p : Nat} (reads : ImapBuf.Reads i g p) :
    ImapBuf.imapRdata (ImapBuf.step s.imapBuf i) = pixelOf word g p := by
  have group := reads.group
  have pixel := reads.pixel
  unfold ImapBuf.blockSize at pixel
  have pair {j : Nat} (port : j < 4) : stored s.imapBuf (portAddr g p j) =
      word (2 * (8 * p + 4 * g + j)) ++ word (2 * (8 * p + 4 * g + j) + 1) := by
    rw [portAddr_eq_pairAddr group port]
    exact loaded.pairs _ (by unfold mapWords; omega)
  rw [ImapBuf.imapRdata_read s.imapBuf reads]
  unfold pixelOf ImapBuf.collect
  simp only [List.foldl_cons, List.foldl_nil, pair (by decide : 0 < 4),
    pair (by decide : 1 < 4), pair (by decide : 2 < 4), pair (by decide : 3 < 4)]

theorem laneIn_pixelOf (word : Nat → BitVec 32) (g p : Nat) (lane : Fin 32) :
    MacArrayCore.laneIn (pixelOf word g p) lane =
      byteOf (word (16 * p + pixelWord g lane)) (lane % 4) := by
  unfold pixelOf
  rw [ImapBuf.laneIn_collect]
  unfold byteOf pixelWord
  by_cases low : lane.val % 8 < 4
  · rw [BitVec.extractLsb'_append_eq_of_add_le (by omega), show lane.val % 8 = lane % 4 by omega,
      show 2 * (8 * p + 4 * g + lane.val / 8) + 1 =
        16 * p + (8 * g + 2 * (lane / 8) + (1 - lane % 4 / 4)) by omega]
  · rw [BitVec.extractLsb'_append_eq_of_le (by omega),
      show 8 * (lane.val % 8) - 32 = 8 * (lane % 4) by omega,
      show 2 * (8 * p + 4 * g + lane.val / 8) =
        16 * p + (8 * g + 2 * (lane / 8) + (1 - lane % 8 / 4)) by omega]

theorem laneIn_loaded {word : Nat → BitVec 32} {s : State} (loaded : Loaded word mapWords s)
    {i : ImapBuf.Input} {g p : Nat} (reads : ImapBuf.Reads i g p) (lane : Fin 32) :
    MacArrayCore.laneIn (ImapBuf.imapRdata (ImapBuf.step s.imapBuf i)) lane =
      byteOf (word (16 * p + pixelWord g lane)) (lane % 4) := by
  rw [imapRdata_loaded loaded reads, laneIn_pixelOf]

end RepVGGAcc.ImapLoad
