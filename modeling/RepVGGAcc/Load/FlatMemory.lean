import RepVGGAcc.Load.ImapLoad
import Mathlib.Data.Finset.Card
import Mathlib.Data.Fintype.Basic

/-! The input buffers as one flat memory: a load writes each of its entries once, and a read
returns the four entries of a group of a pixel. -/

namespace RepVGGAcc.ImapLoad

open Clocked
open ImapBuf (entry portBank portOf)

def arrived (i : Nat → Input) (t : Nat) : Nat :=
  Nat.count (fun u => (i u).imapBiu.arb2imapBiuVld = true) t

/-- The words of a map arrive one after the other, at any times. Reads may come at any
time but together with a write. -/
structure Fills (word : Nat → BitVec 32) (s : Nat → State) (i : Nat → Input) : Prop where
  trace : IsTrace step s i
  fresh : (s 0).imapBiu.receiveCnt = 0
  arrives : ∀ t, (i t).imapBiu.arb2imapBiuVld = true → arrived i t < mapWords →
    (i t).imapBiu.arb2imapBiuData = word (arrived i t)
  apart : ∀ t, (bufInput (s t) (i t)).imapWen = true → (i t).imapRen = false

def writeAddr (s : State) (i : Input) : Option Nat :=
  if (bufInput s i).imapWen then some (bufInput s i).imapWaddr else none

def activeBanks (s : State) (i : Input) : Finset (Fin 7) :=
  Finset.univ.filter fun k => ImapBuf.sramCs (bufInput s i) k = true

/-- After the load, in a cycle `t` before any other word. -/
structure FlatMemory (word : Nat → BitVec 32) (s : Nat → State) (i : Nat → Input) (t : Nat) :
    Prop where
  /-- Each entry has been written once. -/
  written : (events (fun u => writeAddr (s u) (i u)) t).Perm (List.range 25088)
  /-- An entry is a row of one bank. -/
  placed : ∀ u addr, u < t → writeAddr (s u) (i u) = some addr → ∀ k,
    ((ImapBuf.sramInput (bufInput (s u) (i u)) k).cs = true ↔ k.val = addr / 2 ^ 12) ∧
      (ImapBuf.sramInput (bufInput (s u) (i u)) k).addr = addr % 2 ^ 12
  /-- A read of pixel `p` of group `g` selects four banks and shows its four entries in
  the next cycle. -/
  reads : ∀ g p, g < 2 → p < 3136 → (i t).imapRen = true →
    (i t).imapRaddr = g * 2 ^ 12 + p →
    (activeBanks (s t) (i t)).card = 4 ∧
      ∀ j < 4, entry (ImapBuf.imapRdata (s (t + 1)).imapBuf) j =
        word (16 * p + 8 * g + 2 * j) ++ word (16 * p + 8 * g + 2 * j + 1)

/-! The addresses of a load. -/

theorem exists_pairAddr {addr : Nat} (inside : addr < 25088) :
    ∃ q < 25088, pairAddr q = addr := by
  obtain ⟨block, pixel, inBlock, few, rfl⟩ : ∃ block pixel, pixel < 3136 ∧ block < 8 ∧
      addr = pixel + block * 3136 :=
    ⟨addr / 3136, addr % 3136, by omega, by omega, by omega⟩
  refine ⟨8 * pixel + 4 * (block % 2) + block / 2, by omega, ?_⟩
  unfold pairAddr
  rw [show (8 * pixel + 4 * (block % 2) + block / 2) / 8 = pixel by omega,
    show (8 * pixel + 4 * (block % 2) + block / 2) % 4 = block / 2 by omega,
    show (8 * pixel + 4 * (block % 2) + block / 2) / 4 = 2 * pixel + block % 2 by omega]
  omega

theorem pairAddr_lt_entries {q : Nat} (inside : q < 25088) : pairAddr q < 25088 := by
  unfold pairAddr
  omega

theorem pairAddr_perm : ((List.range 25088).map pairAddr).Perm (List.range 25088) := by
  have once : ((List.range 25088).map pairAddr).Nodup := by
    refine List.Nodup.map_on (fun q inside q' inside' same => ?_) List.nodup_range
    exact (pairAddr_inj (List.mem_range.mp inside) (List.mem_range.mp inside')).mp same
  refine (List.perm_ext_iff_of_nodup once List.nodup_range).mpr fun addr => ?_
  rw [List.mem_map, List.mem_range]
  constructor
  · rintro ⟨q, inside, rfl⟩
    exact pairAddr_lt_entries (List.mem_range.mp inside)
  · intro inside
    obtain ⟨q, entries, rfl⟩ := exists_pairAddr inside
    exact ⟨q, List.mem_range.mpr entries, rfl⟩

theorem receive_of_imapWen {s : State} {i : Input} (wen : (bufInput s i).imapWen = true) :
    i.imapBiu.arb2imapBiuVld = true := by
  have wen : ImapBiu.imapWen s.imapBiu i.imapBiu = true := wen
  rw [ImapBiu.imapWen, ImapBiu.receive_eq] at wen
  exact ((Bool.and_eq_true _ _).mp wen).2

namespace Fills

variable {word : Nat → BitVec 32} {s : Nat → State} {i : Nat → Input} (fills : Fills word s i)

theorem arrived_succ (i : Nat → Input) (t : Nat) :
    arrived i (t + 1) =
      arrived i t + if (i t).imapBiu.arb2imapBiuVld = true then 1 else 0 :=
  Nat.count_succ _ _

include fills in
theorem loaded {t : Nat} (inMap : arrived i t ≤ mapWords) : Loaded word (arrived i t) (s t) := by
  induction t with
  | zero => exact Loaded.start word fills.fresh
  | succ t held =>
      rw [arrived_succ] at inMap ⊢
      rw [fills.trace t]
      by_cases receive : (i t).imapBiu.arb2imapBiuVld = true
      · rw [if_pos receive] at inMap ⊢
        exact (held (by omega)).step_receive inMap receive (fills.arrives t receive inMap)
          (fills.apart t)
      · rw [if_neg receive] at inMap ⊢
        exact (held inMap).step_wait (Bool.eq_false_of_not_eq_true receive)

include fills in
theorem writeAddr_eq {t : Nat} (more : arrived i t < mapWords) :
    writeAddr (s t) (i t) =
      if (i t).imapBiu.arb2imapBiuVld = true ∧ arrived i t % 2 = 1 then
        some (pairAddr (arrived i t / 2))
      else none := by
  have counter : (s t).imapBiu.receiveCnt = arrived i t := by
    rw [(fills.loaded more.le).receiveCnt, Nat.mod_eq_of_lt more]
  have wen : (bufInput (s t) (i t)).imapWen = true ↔
      (i t).imapBiu.arb2imapBiuVld = true ∧ arrived i t % 2 = 1 := by
    show ImapBiu.imapWen (s t).imapBiu (i t).imapBiu = true ↔ _
    rw [ImapBiu.imapWen, counter, ImapBiu.receive_eq, Bool.and_eq_true, decide_eq_true_iff,
      and_comm]
  have waddr : (bufInput (s t) (i t)).imapWaddr = pairAddr (arrived i t / 2) := by
    show ImapBiu.imapWaddr (s t).imapBiu = _
    unfold ImapBiu.imapWaddr pairAddr
    rw [counter]
    omega
  unfold writeAddr
  rw [waddr]
  simp only [wen]

include fills in
theorem events_writeAddr {t : Nat} (inMap : arrived i t ≤ mapWords) :
    events (fun u => writeAddr (s u) (i u)) t =
      (List.range (arrived i t / 2)).map pairAddr := by
  induction t with
  | zero =>
      rw [show arrived i 0 = 0 from Nat.count_zero _]
      rfl
  | succ t before =>
      rw [arrived_succ] at inMap ⊢
      by_cases receive : (i t).imapBiu.arb2imapBiuVld = true
      · rw [if_pos receive] at inMap ⊢
        rw [events_succ, before (by omega), fills.writeAddr_eq inMap]
        by_cases second : arrived i t % 2 = 1
        · rw [if_pos ⟨receive, second⟩, show (arrived i t + 1) / 2 = arrived i t / 2 + 1 by omega,
            List.range_succ, List.map_append]
          rfl
        · rw [if_neg fun both => second both.2,
            show (arrived i t + 1) / 2 = arrived i t / 2 by omega]
          exact List.append_nil _
      · rw [if_neg receive, Nat.add_zero] at inMap ⊢
        have silent : writeAddr (s t) (i t) = none := by
          unfold writeAddr
          exact if_neg fun wen => receive (receive_of_imapWen wen)
        rw [events_succ, before inMap, silent]
        exact List.append_nil _

include fills in
theorem placed {u addr : Nat} (more : arrived i u < mapWords)
    (writes : writeAddr (s u) (i u) = some addr) (k : Fin 7) :
    ((ImapBuf.sramInput (bufInput (s u) (i u)) k).cs = true ↔ k.val = addr / 2 ^ 12) ∧
      (ImapBuf.sramInput (bufInput (s u) (i u)) k).addr = addr % 2 ^ 12 := by
  have law := fills.writeAddr_eq more
  unfold writeAddr at writes
  split_ifs at writes with wen
  rw [writeAddr, if_pos wen] at law
  split_ifs at law with second
  have waddr : (bufInput (s u) (i u)).imapWaddr = addr := Option.some.inj writes
  have place : (bufInput (s u) (i u)).imapWaddr < 7 * 2 ^ 12 := by
    rw [Option.some.inj law]
    unfold mapWords at more
    exact pairAddr_lt (by omega)
  have apart := fills.apart u wen
  refine ⟨?_, ?_⟩
  · show ImapBuf.sramCs _ k = true ↔ _
    rw [ImapBuf.sramCs_write wen apart place, waddr, decide_eq_true_iff, eq_comm]
  · show ImapBuf.sramAddr _ k = _
    rw [ImapBuf.sramAddr_write wen apart, waddr]

end Fills

theorem card_activeBanks {s : State} {i : Input} {g p : Nat}
    (reads : ImapBuf.Reads (bufInput s i) g p) : (activeBanks s i).card = 4 := by
  have served : activeBanks s i = Finset.univ.image (portBank g p) := by
    ext k
    unfold activeBanks
    rw [Finset.mem_filter, Finset.mem_image, ImapBuf.sramCs_read reads]
    simp [portOf, List.find?_isSome]
  rw [served, Finset.card_image_of_injective _
    (ImapBuf.portBank_strictMono reads.group reads.pixel).injective]
  rfl

theorem flatMemory {word : Nat → BitVec 32} {s : Nat → State} {i : Nat → Input} {t : Nat}
    (fills : Fills word s i) (complete : arrived i t = mapWords) : FlatMemory word s i t where
  written := by
    rw [fills.events_writeAddr complete.le, complete]
    exact pairAddr_perm
  placed := by
    intro u addr before writes
    refine fills.placed ?_ writes
    by_contra full
    -- the write would come with a word after the last one
    have receive : (i u).imapBiu.arb2imapBiuVld = true := by
      unfold writeAddr at writes
      split_ifs at writes with wen
      exact receive_of_imapWen wen
    have next := Fills.arrived_succ i u
    have later : arrived i (u + 1) ≤ arrived i t := Nat.count_monotone _ before
    rw [if_pos receive] at next
    omega
  reads := by
    intro g p group pixel ren raddr
    have loaded := fills.loaded complete.le
    rw [complete] at loaded
    have wen : (bufInput (s t) (i t)).imapWen = false := by
      by_contra write
      rw [fills.apart t (Bool.eq_true_of_not_eq_false write)] at ren
      cases ren
    have reads : ImapBuf.Reads (bufInput (s t) (i t)) g p := ⟨wen, ren, group, pixel, raddr⟩
    refine ⟨card_activeBanks reads, fun j port => ?_⟩
    have shown : ImapBuf.imapRdata (s (t + 1)).imapBuf = pixelOf word g p := by
      rw [fills.trace t]
      exact imapRdata_loaded loaded reads
    rw [shown, pixelOf, ImapBuf.entry_collect _ port,
      show 2 * (8 * p + 4 * g + j) = 16 * p + 8 * g + 2 * j by omega]

/-! A map whose words are their own numbers, loaded without a pause and then read. -/

def numbered (t : Nat) : Input where
  imapBiu := {
    imapStart := false
    imapBaseAddr := 0
    imapBiu2arbRdy := false
    arb2imapBiuData := BitVec.ofNat 32 t
    arb2imapBiuVld := decide (t < mapWords) }
  imapRaddr := 2 ^ 12 + 5
  imapRen := decide (mapWords ≤ t)

def blank : State where
  imapBiu := ImapBiu.reset
  imapBuf := {
    imapSramBuf := fun _ => { memR := fun _ => 0, addrR := 0 }
    sramCsD := fun _ => false }

theorem arrived_numbered {t : Nat} (inMap : t ≤ mapWords) : arrived numbered t = t :=
  Nat.count_of_forall fun _ before => decide_eq_true (by omega)

theorem flatMemory_numbered :
    FlatMemory (BitVec.ofNat 32) (run step blank numbered) numbered mapWords := by
  refine flatMemory ⟨isTrace_run _ _ _, rfl, fun t receive _ => ?_, fun t write => ?_⟩
    (arrived_numbered le_rfl)
  · have before : t < mapWords := of_decide_eq_true receive
    rw [arrived_numbered before.le]
    rfl
  · have before : t < mapWords := of_decide_eq_true (receive_of_imapWen write)
    exact decide_eq_false (by omega)

end RepVGGAcc.ImapLoad
