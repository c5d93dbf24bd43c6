import RepVGGAcc.Load.WeightPort

/-! The channels that meet in a lane: which byte of a kernel tap the weight path
loads, and which byte of a pixel the input path delivers. -/

namespace RepVGGAcc.Lanes

open Clocked
open ImapLoad (byteOf mapWords)
open WeightBiu (Received port)

/-- In every burst, whenever its words arrive, the weight path loads byte `byte` of
word `word` of each kernel tap into the buffers of group `g` of this lane. -/
def LoadsWeight (lane : Fin 32) (g word byte : Nat) : Prop :=
  ∀ (s : Nat → WeightBiu.State) (i : Nat → WeightBiu.Input) (wlu : MacArrayWlu.State),
    IsTrace WeightBiu.step s i → s 0 = WeightBiu.reset →
    (∀ t, (i t).weightOchCnt < 2 ^ 8) →
    ∀ (t : Nat) (tap : Fin 10), (i t).arb2weightBiuVld = true →
      Nat.count (fun u => (i u).arb2weightBiuVld = true) t % 160 = 16 * tap + word →
      MacArrayWlu.weightLoadEn (port (s t) (i t)) lane tap = true ∧
        (MacArrayWlu.weightLoadSel wlu (port (s t) (i t))).val % 2 = g ∧
        MacArrayWlu.weightLoad (port (s t) (i t)) lane = byteOf (i t).arb2weightBiuData byte

/-- A burst whose words arrive without a pause, each being `0x03020100`. -/
def steadyBurst (_ : Nat) : WeightBiu.Input where
  weightStart := false
  weight3BaseAddr := 0
  weight1BaseAddr := 0
  weightOchCnt := 0
  weightBiu2arbRdy := false
  arb2weightBiuData := 0x03020100
  arb2weightBiuVld := true

theorem byteOf_numbered : ∀ b < 4, byteOf 0x03020100 b = BitVec.ofNat 8 b := by
  decide

theorem loadsWeight_iff {lane : Fin 32} {g word byte : Nat} (group : g < 2)
    (inTap : word < 16) (inWord : byte < 4) :
    LoadsWeight lane g word byte ↔ word = 8 * g + lane / 4 ∧ byte = lane % 4 := by
  constructor
  · intro loads
    have count : Nat.count (fun u => (steadyBurst u).arb2weightBiuVld = true) word = word :=
      Nat.count_of_forall fun _ _ => rfl
    have received := WeightBiu.received_run
      (isTrace_run WeightBiu.step WeightBiu.reset steadyBurst) rfl word
    rw [count, WeightBiu.burstWords, Nat.mod_eq_of_lt (by omega)] at received
    obtain ⟨en, sel, data⟩ := loads _ _ MacArrayWlu.reset
      (isTrace_run WeightBiu.step WeightBiu.reset steadyBurst) rfl
      (fun _ => (by decide : 0 < 2 ^ 8)) word 0 rfl
      (by rw [count, Nat.mod_eq_of_lt (by omega)]; exact (Nat.zero_add word).symm)
    rw [WeightBiu.weightLoadEn_port received (by decide : 0 < 2 ^ 8), Bool.and_eq_true,
      decide_eq_true_eq] at en
    rw [WeightBiu.weightLoadSel_port received] at sel
    rw [WeightBiu.weightLoad_port received en.2.1] at data
    have numbers : BitVec.ofNat 8 (lane % 4) = BitVec.ofNat 8 byte := by
      rw [← byteOf_numbered _ (by omega), ← byteOf_numbered _ inWord]
      exact data
    have bytes := congrArg BitVec.toNat numbers
    simp only [BitVec.toNat_ofNat] at bytes
    omega
  · rintro ⟨rfl, rfl⟩ s i wlu trace initial byteWide t tap receive number
    have received := WeightBiu.received_run trace initial t
    rw [WeightBiu.burstWords, number] at received
    have mine : (16 * tap.val + (8 * g + lane / 4)) % 8 = lane / 4 := by omega
    refine ⟨?_, ?_, WeightBiu.weightLoad_port received mine⟩
    · rw [WeightBiu.weightLoadEn_port received (byteWide t), receive, Bool.true_and]
      exact decide_eq_true ⟨mine, by omega⟩
    · rw [WeightBiu.weightLoadSel_port received]
      omega

/-- Every lane multiplies weights and pixels of one channel, and the lane that
`identity_sel` picks for an output channel holds the channel of that number. -/
structure LanesAgree (content : Nat → Nat → BitVec 32) (buf : ImapBuf.State) : Prop where
  products : ∀ (lane : Fin 32) (g word byte : Nat), g < 2 → word < 16 → byte < 4 →
    LoadsWeight lane g word byte →
    ∀ (p : Nat) (i : ImapBuf.Input), ImapBuf.Reads i g p →
      MacArrayCore.laneIn (ImapBuf.imapRdata (ImapBuf.step buf i)) lane =
        byteOf (content p word) byte
  identity : ∀ fsm : MacArrayFsm.State, fsm.outChCnt < 64 →
    ∀ (p : Nat) (i : ImapBuf.Input), ImapBuf.Reads i (fsm.outChCnt / 32) p →
      MacArrayCore.laneIn (ImapBuf.imapRdata (ImapBuf.step buf i))
          (MacArrayFsm.identitySel fsm) =
        byteOf (content p (fsm.outChCnt / 4)) (fsm.outChCnt % 4)

/-- The words of a map, pixel by pixel, 16 for each. -/
def wordsOf (content : Nat → Nat → BitVec 32) (n : Nat) : BitVec 32 :=
  content (n / 16) (n % 16)

theorem wordsOf_pixel (content : Nat → Nat → BitVec 32) (p : Nat) {w : Nat} (inPixel : w < 16) :
    wordsOf content (16 * p + w) = content p w := by
  unfold wordsOf
  rw [show (16 * p + w) / 16 = p by omega, show (16 * p + w) % 16 = w by omega]

theorem eq_of_bytes {x y : BitVec 32} (same : ∀ b < 4, byteOf x b = byteOf y b) : x = y := by
  refine BitVec.eq_of_getLsbD_eq fun k inside => ?_
  have bit := congrArg (fun byte : BitVec 8 => byte.getLsbD (k % 8)) (same (k / 8) (by omega))
  simp only [byteOf, BitVec.getLsbD_extractLsb', Nat.mod_lt k (by decide : 0 < 8), decide_true,
    Bool.true_and, Nat.div_add_mod] at bit
  exact bit

theorem readInput_reads {g p : Nat} (group : g < 2) (pixel : p < 3136) :
    ImapBuf.Reads {
      imapWaddr := 0
      imapWdata := 0
      imapWen := false
      imapRaddr := g * 2 ^ 12 + p
      imapRen := true } g p :=
  ⟨rfl, rfl, group, pixel, rfl⟩

section Content

variable {content : Nat → Nat → BitVec 32} {s : ImapLoad.State}

/-- The two words of a pair change places on the way to the lanes, so the paths
agree on the contents in which they are equal. -/
theorem lanesAgree_iff_pairs (loaded : ImapLoad.Loaded (wordsOf content) mapWords s) :
    LanesAgree content s.imapBuf ↔
      ∀ p < 3136, ∀ k < 8, content p (2 * k) = content p (2 * k + 1) := by
  have delivered (lane : Fin 32) {g p : Nat} {i : ImapBuf.Input} (reads : ImapBuf.Reads i g p) :
      MacArrayCore.laneIn (ImapBuf.imapRdata (ImapBuf.step s.imapBuf i)) lane =
        byteOf (content p (ImapLoad.pixelWord g lane)) (lane % 4) := by
    have group := reads.group
    rw [ImapLoad.laneIn_loaded loaded reads, wordsOf_pixel]
    unfold ImapLoad.pixelWord
    omega
  constructor
  · intro agree p pixel k inPixel
    refine (eq_of_bytes fun b inWord => ?_).symm
    let lane : Fin 32 := ⟨8 * (k % 4) + b, by omega⟩
    have group : k / 4 < 2 := by omega
    have loads : LoadsWeight lane (k / 4) (2 * k) b :=
      (loadsWeight_iff group (by omega) inWord).mpr
        ⟨by show 2 * k = 8 * (k / 4) + (8 * (k % 4) + b) / 4; omega,
          by show b = (8 * (k % 4) + b) % 4; omega⟩
    have reads := readInput_reads group pixel
    rw [← agree.products lane _ _ _ group (by omega) inWord loads p _ reads,
      delivered lane reads]
    have word : ImapLoad.pixelWord (k / 4) lane = 2 * k + 1 := by
      show 8 * (k / 4) + 2 * ((8 * (k % 4) + b) / 8) + (1 - (8 * (k % 4) + b) % 8 / 4) = _
      omega
    rw [word, show lane.val % 4 = b by show (8 * (k % 4) + b) % 4 = b; omega]
  · intro pairs
    have same (lane : Fin 32) {g p : Nat} (group : g < 2) (pixel : p < 3136) :
        content p (ImapLoad.pixelWord g lane) = content p (8 * g + lane / 4) := by
      have equal := pairs p pixel (4 * g + lane / 8) (by omega)
      unfold ImapLoad.pixelWord
      by_cases low : lane.val % 8 < 4
      · rw [show 8 * g + lane.val / 4 = 2 * (4 * g + lane / 8) by omega, equal]
        congr 1
        omega
      · rw [show 8 * g + lane.val / 4 = 2 * (4 * g + lane / 8) + 1 by omega, ← equal]
        congr 1
        omega
    refine ⟨fun lane g word byte group inTap inWord loads p i reads => ?_,
      fun fsm channel p i reads => ?_⟩
    · obtain ⟨rfl, rfl⟩ := (loadsWeight_iff group inTap inWord).mp loads
      rw [delivered lane reads, same lane group reads.pixel]
    · have lane : (MacArrayFsm.identitySel fsm).val = fsm.outChCnt % 32 := rfl
      rw [delivered _ reads, same _ reads.group reads.pixel, lane,
        show 8 * (fsm.outChCnt / 32) + fsm.outChCnt % 32 / 4 = fsm.outChCnt / 4 by omega,
        show fsm.outChCnt % 32 % 4 = fsm.outChCnt % 4 by omega]

end Content

/-- After any load, the lanes agree exactly when in every pixel the words of each
pair are equal. -/
theorem lanesAgree_iff {content : Nat → Nat → BitVec 32} {s : Nat → ImapLoad.State}
    {i : Nat → ImapLoad.Input} {last : Nat}
    (load : ImapLoad.IsLoad (wordsOf content) s i last) :
    LanesAgree content (s last).imapBuf ↔
      ∀ p < 3136, ∀ k < 8, content p (2 * k) = content p (2 * k + 1) := by
  have loaded := load.loaded last le_rfl
  rw [load.complete] at loaded
  exact lanesAgree_iff_pairs loaded

/-! A load whose words arrive without a pause. -/

def blankBuffer : ImapLoad.State where
  imapBiu := ImapBiu.reset
  imapBuf := {
    imapSramBuf := fun _ => { memR := fun _ => 0, addrR := 0 }
    sramCsD := fun _ => false }

def steadyLoad (content : Nat → Nat → BitVec 32) (t : Nat) : ImapLoad.Input where
  imapBiu := {
    imapStart := false
    imapBaseAddr := 0
    imapBiu2arbRdy := false
    arb2imapBiuData := wordsOf content t
    arb2imapBiuVld := true }
  imapRaddr := 0
  imapRen := false

theorem isLoad_steadyLoad (content : Nat → Nat → BitVec 32) :
    ImapLoad.IsLoad (wordsOf content) (run ImapLoad.step blankBuffer (steadyLoad content))
      (steadyLoad content) mapWords := by
  have count (t : Nat) :
      Nat.count (fun u => (steadyLoad content u).imapBiu.arb2imapBiuVld = true) t = t :=
    Nat.count_of_forall fun _ _ => rfl
  refine ⟨isTrace_run _ _ _, rfl, fun t _ _ => ?_, count mapWords, fun _ _ => rfl⟩
  rw [count]
  rfl

def pairNumbers (p w : Nat) : BitVec 32 :=
  BitVec.ofNat 32 (8 * p + w / 2)

theorem lanesAgree_iff_pairNumbers :
    LanesAgree pairNumbers
        (run ImapLoad.step blankBuffer (steadyLoad pairNumbers) mapWords).imapBuf ↔
      ∀ p < 3136, ∀ k < 8, pairNumbers p (2 * k) = pairNumbers p (2 * k + 1) :=
  lanesAgree_iff (isLoad_steadyLoad pairNumbers)

/-- A map in which only the first word of the first pixel is not 0. -/
def firstWordOnly (p w : Nat) : BitVec 32 :=
  if p = 0 ∧ w = 0 then 1 else 0

theorem lanesAgree_fails :
    ¬ ∀ (content : Nat → Nat → BitVec 32) (s : Nat → ImapLoad.State)
      (i : Nat → ImapLoad.Input) (last : Nat),
      ImapLoad.IsLoad (wordsOf content) s i last → LanesAgree content (s last).imapBuf := by
  intro always
  have load := isLoad_steadyLoad firstWordOnly
  have loaded := load.loaded mapWords le_rfl
  rw [load.complete] at loaded
  have pairs := (lanesAgree_iff_pairs loaded).mp (always _ _ _ _ load)
  exact absurd (pairs 0 (by omega) 0 (by omega)) (by decide)

end RepVGGAcc.Lanes
