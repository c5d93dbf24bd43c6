import RepVGGAcc.Rtl.ImapBuf
import RepVGGAcc.Rtl.MacArray
import Mathlib.Order.Fin.Basic

/-! The input map buffer as one memory of 64-bit words. Block `2 * j + g` of 3136
words serves read port `j` when the second bit of the address says group `g`. -/

namespace RepVGGAcc.ImapBuf

/-- The bank of an address among those that exist. -/
def bankIndex (addr : Nat) : Fin 7 :=
  ⟨bank addr % 7, Nat.mod_lt _ (Nat.succ_pos 6)⟩

def stored (s : State) (addr : Nat) : BitVec 64 :=
  (s.imapSramBuf (bankIndex addr)).memR (addr % 2 ^ 12)

theorem bank_eq {addr : Nat} (inside : addr < 7 * 2 ^ 12) : bank addr = addr / 2 ^ 12 := by
  unfold bank
  omega

theorem bankIndex_val {addr : Nat} (inside : addr < 7 * 2 ^ 12) :
    (bankIndex addr).val = addr / 2 ^ 12 := by
  show bank addr % 7 = addr / 2 ^ 12
  rw [bank_eq inside]
  omega

theorem sramCs_write {i : Input} (wen : i.imapWen = true) (ren : i.imapRen = false)
    (inside : i.imapWaddr < 7 * 2 ^ 12) (k : Fin 7) :
    sramCs i k = decide (i.imapWaddr / 2 ^ 12 = k) := by
  simp only [sramCs, wen, ren, Bool.and_true, Bool.and_false, Bool.or_false, bank_eq inside]
  rfl

theorem sramAddr_write {i : Input} (wen : i.imapWen = true) (ren : i.imapRen = false)
    (k : Fin 7) : sramAddr i k = i.imapWaddr % 2 ^ 12 := by
  simp [sramAddr, wen, ren, gated]

theorem stored_step_write (s : State) {i : Input} (wen : i.imapWen = true)
    (ren : i.imapRen = false) (inside : i.imapWaddr < 7 * 2 ^ 12) {addr : Nat}
    (valid : addr < 7 * 2 ^ 12) :
    stored (step s i) addr = if addr = i.imapWaddr then i.imapWdata else stored s addr := by
  have selected := sramCs_write wen ren inside (bankIndex addr)
  have addressed := sramAddr_write wen ren (bankIndex addr)
  rw [bankIndex_val valid] at selected
  unfold stored
  show (SirvSimRam.step _ (sramInput i _)).memR _ = _
  rw [SirvSimRam.step_memR_fullMask _ _ rfl]
  simp only [sramInput, selected, addressed, wen, decide_eq_true_eq, true_and]
  congr 1
  rw [eq_iff_iff]
  omega

theorem memR_step_of_not_wen (s : State) {i : Input} (wen : i.imapWen = false) (k : Fin 7) :
    ((step s i).imapSramBuf k).memR = (s.imapSramBuf k).memR := by
  funext addr
  show (SirvSimRam.step _ (sramInput i _)).memR _ = _
  rw [SirvSimRam.step_memR_fullMask _ _ rfl]
  simp [sramInput, wen]

theorem stored_step_of_not_wen (s : State) {i : Input} (wen : i.imapWen = false)
    (addr : Nat) : stored (step s i) addr = stored s addr := by
  unfold stored
  rw [memR_step_of_not_wen s wen]

/-! A read collects one word from each of four banks. -/

def portAddr (g p j : Nat) : Nat :=
  (2 * j + g) * blockSize + p

/-- A read of pixel `p` of group `g`, with no write at the same time. -/
structure Reads (i : Input) (g p : Nat) : Prop where
  wen : i.imapWen = false
  ren : i.imapRen = true
  group : g < 2
  pixel : p < blockSize
  raddr : i.imapRaddr = g * 2 ^ 12 + p

section Read

variable {i : Input} {g p : Nat}

theorem sramRaddr_eq (reads : Reads i g p) (j : Nat) : sramRaddr i j = portAddr g p j := by
  have group := reads.group
  have pixel := reads.pixel
  have raddr := reads.raddr
  unfold blockSize at pixel
  have high : i.imapRaddr / 2 ^ 12 % 2 = g := by omega
  have low : i.imapRaddr % 2 ^ 12 = p := by omega
  unfold sramRaddr portAddr
  rw [high, low]

theorem portAddr_succ (g p j : Nat) : portAddr g p (j + 1) = portAddr g p j + 6272 := by
  unfold portAddr blockSize
  omega

theorem portAddr_lt (group : g < 2) (pixel : p < blockSize) {j : Nat} (port : j < 4) :
    portAddr g p j < 7 * 2 ^ 12 := by
  unfold portAddr
  unfold blockSize at *
  omega

theorem bank_portAddr_lt (group : g < 2) (pixel : p < blockSize) {j : Nat} (port : j < 3) :
    bank (portAddr g p j) < bank (portAddr g p (j + 1)) := by
  rw [bank_eq (portAddr_lt group pixel (by omega)), bank_eq (portAddr_lt group pixel (by omega)),
    portAddr_succ]
  omega

def portOf (b : Fin 4 → Fin 7) (k : Fin 7) : Option (Fin 4) :=
  (List.finRange 4).find? fun j => b j = k

theorem filterMap_portOf : ∀ b₀ b₁ b₂ b₃ : Fin 7, b₀ < b₁ → b₁ < b₂ → b₂ < b₃ →
    [6, 5, 4, 3, 2, 1, 0].filterMap (portOf ![b₀, b₁, b₂, b₃]) = [3, 2, 1, 0] := by
  decide +kernel

def portBank (g p : Nat) (j : Fin 4) : Fin 7 :=
  bankIndex (portAddr g p j)

theorem portBank_val (group : g < 2) (pixel : p < blockSize) (j : Fin 4) :
    (portBank g p j).val = bank (portAddr g p j) := by
  have inside := portAddr_lt group pixel j.isLt
  unfold portBank
  rw [bankIndex_val inside, bank_eq inside]

theorem portBank_strictMono (group : g < 2) (pixel : p < blockSize) :
    StrictMono (portBank g p) := by
  refine Fin.strictMono_iff_lt_succ.mpr fun j => ?_
  rw [Fin.lt_def, portBank_val group pixel, portBank_val group pixel]
  exact bank_portAddr_lt group pixel j.isLt

theorem filterMap_portBank (group : g < 2) (pixel : p < blockSize) :
    [6, 5, 4, 3, 2, 1, 0].filterMap (portOf (portBank g p)) = [3, 2, 1, 0] := by
  have ascends := portBank_strictMono group pixel
  exact filterMap_portOf (portBank g p 0) (portBank g p 1) (portBank g p 2) (portBank g p 3)
    (ascends (by decide)) (ascends (by decide)) (ascends (by decide))

theorem portOf_eq_some {b : Fin 4 → Fin 7} {k : Fin 7} {j : Fin 4}
    (served : portOf b k = some j) : b j = k := by
  have found := List.find?_some served
  exact of_decide_eq_true found

def shiftIn (collected : BitVec 256) (word : BitVec 64) : BitVec 256 :=
  collected.extractLsb' 0 192 ++ word

theorem serves (reads : Reads i g p) (j : Fin 4) (k : Fin 7) :
    (bank (sramRaddr i j) == k.val) = decide (portBank g p j = k) := by
  rw [sramRaddr_eq reads, ← portBank_val reads.group reads.pixel, Bool.eq_iff_iff,
    beq_iff_eq, decide_eq_true_eq, Fin.ext_iff]

theorem sramCs_read (reads : Reads i g p) (k : Fin 7) :
    sramCs i k = (portOf (portBank g p) k).isSome := by
  have zeroth : (bank (sramRaddr i 0) == k.val) = _ := serves reads 0 k
  have first : (bank (sramRaddr i 1) == k.val) = _ := serves reads 1 k
  have second : (bank (sramRaddr i 2) == k.val) = _ := serves reads 2 k
  have third : (bank (sramRaddr i 3) == k.val) = _ := serves reads 3 k
  unfold sramCs portOf
  rw [reads.wen, reads.ren, zeroth, first, second, third, List.isSome_find?]
  simp [List.finRange_succ, Bool.or_assoc]

theorem sramAddr_read (reads : Reads i g p) {k : Fin 7} {j : Fin 4}
    (served : portOf (portBank g p) k = some j) :
    sramAddr i k = portAddr g p j % 2 ^ 12 := by
  have only (j' : Fin 4) : decide (portBank g p j' = k) = decide (j' = j) := by
    rw [← portOf_eq_some served]
    exact decide_eq_decide.mpr
      (portBank_strictMono reads.group reads.pixel).injective.eq_iff
  have zeroth : (bank (sramRaddr i 0) == k.val) = _ := serves reads 0 k
  have first : (bank (sramRaddr i 1) == k.val) = _ := serves reads 1 k
  have second : (bank (sramRaddr i 2) == k.val) = _ := serves reads 2 k
  have third : (bank (sramRaddr i 3) == k.val) = _ := serves reads 3 k
  unfold sramAddr
  rw [reads.wen, reads.ren, zeroth, first, second, third, only, only, only, only,
    sramRaddr_eq reads, sramRaddr_eq reads, sramRaddr_eq reads, sramRaddr_eq reads]
  clear served only zeroth first second third
  revert j
  simp [Fin.forall_fin_succ, gated]

theorem mergeBank_read (s : State) (reads : Reads i g p) (collected : BitVec 256) (k : Fin 7) :
    mergeBank (step s i) collected k =
      match portOf (portBank g p) k with
      | some j => shiftIn collected (stored s (portAddr g p j))
      | none => collected := by
  unfold mergeBank
  show (if sramCs i k then _ else _) = _
  rw [sramCs_read reads]
  cases served : portOf (portBank g p) k with
  | none => rfl
  | some j =>
      have selected : sramCs i k = true := by rw [sramCs_read reads, served]; rfl
      have shown : SirvSimRam.dout ((step s i).imapSramBuf k) = stored s (portAddr g p j) := by
        have address : ((step s i).imapSramBuf k).addrR = portAddr g p j % 2 ^ 12 := by
          rw [← sramAddr_read reads served]
          show (if sramCs i k && !i.imapWen then sramAddr i k else _) = _
          rw [selected, reads.wen]
          rfl
        unfold SirvSimRam.dout stored
        rw [address, memR_step_of_not_wen s reads.wen, ← portOf_eq_some served]
        rfl
      rw [shown]
      rfl

/-- The words of the four read ports side by side, that of port 0 lowest. -/
def collect (word : Nat → BitVec 64) : BitVec 256 :=
  [3, 2, 1, 0].foldl (fun collected j => shiftIn collected (word j)) 0

theorem imapRdata_read (s : State) (reads : Reads i g p) :
    imapRdata (step s i) = collect fun j => stored s (portAddr g p j) := by
  have merge (ks : List (Fin 7)) (collected : BitVec 256) :
      ks.foldl (mergeBank (step s i)) collected =
        (ks.filterMap (portOf (portBank g p))).foldl
          (fun collected j => shiftIn collected (stored s (portAddr g p j))) collected := by
    induction ks generalizing collected with
    | nil => rfl
    | cons k ks merged =>
        rw [List.foldl_cons, merged, mergeBank_read s reads, List.filterMap_cons]
        cases portOf (portBank g p) k <;> rfl
  unfold imapRdata
  rw [merge, filterMap_portBank reads.group reads.pixel]
  rfl

end Read

/-! The 64-bit entries of the read data. -/

def entry (data : BitVec 256) (j : Nat) : BitVec 64 :=
  data.extractLsb' (64 * j) 64

theorem entry_shiftIn_zero (collected : BitVec 256) (word : BitVec 64) :
    entry (shiftIn collected word) 0 = word := by
  unfold entry shiftIn
  exact (BitVec.extractLsb'_append_eq_of_add_le (by decide)).trans BitVec.extractLsb'_eq_self

theorem entry_shiftIn_succ (collected : BitVec 256) (word : BitVec 64) {j : Nat}
    (inside : j < 3) : entry (shiftIn collected word) (j + 1) = entry collected j := by
  unfold entry shiftIn
  refine (BitVec.extractLsb'_append_eq_of_le (by omega)).trans ?_
  refine BitVec.eq_of_getLsbD_eq fun k inside => ?_
  simp only [BitVec.getLsbD_extractLsb', inside, decide_true, Bool.true_and]
  rw [decide_eq_true (by omega), Bool.true_and]
  congr 1
  omega

theorem entry_collect (word : Nat → BitVec 64) {j : Nat} (port : j < 4) :
    entry (collect word) j = word j := by
  unfold collect
  simp only [List.foldl_cons, List.foldl_nil]
  match j, port with
  | 0, _ => exact entry_shiftIn_zero _ _
  | 1, _ => rw [entry_shiftIn_succ _ _ (by decide), entry_shiftIn_zero]
  | 2, _ =>
      rw [entry_shiftIn_succ _ _ (by decide), entry_shiftIn_succ _ _ (by decide),
        entry_shiftIn_zero]
  | 3, _ =>
      rw [entry_shiftIn_succ _ _ (by decide), entry_shiftIn_succ _ _ (by decide),
        entry_shiftIn_succ _ _ (by decide), entry_shiftIn_zero]

theorem laneIn_collect (word : Nat → BitVec 64) (lane : Fin 32) :
    MacArrayCore.laneIn (collect word) lane =
      (word (lane / 8)).extractLsb' (8 * (lane % 8)) 8 := by
  rw [← entry_collect word (by omega : lane.val / 8 < 4)]
  unfold MacArrayCore.laneIn entry
  refine BitVec.eq_of_getLsbD_eq fun k inside => ?_
  simp only [BitVec.getLsbD_extractLsb', inside, decide_true, Bool.true_and]
  rw [decide_eq_true (by omega), Bool.true_and]
  congr 1
  omega

end RepVGGAcc.ImapBuf
