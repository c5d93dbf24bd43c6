import RepVGGAcc.Load.WeightPort

/-! A burst of reads as its two counts, and the registers of the two fetch engines
as functions of these counts. -/

namespace RepVGGAcc

/-- The commands handed over and the words received of the current burst. -/
@[ext]
structure Burst where
  issued : Nat
  received : Nat
  done : Bool

namespace Burst

/-- Between two bursts of `words` words. -/
def rest (words : Nat) : Burst where
  issued := words
  received := words
  done := false

/-- A burst begins with `start`, hands over a command with `rdy` and receives a word
with `rsp`. -/
def next (words : Nat) (b : Burst) (start rdy rsp : Bool) : Burst :=
  if start then { issued := 0, received := 0, done := false }
  else {
    issued := if rdy = true ∧ b.issued < words then b.issued + 1 else b.issued
    received := if rsp then b.received + 1 else b.received
    done := rsp && decide (b.received + 1 = words) }

/-- A burst begins only after the last one, and no word comes unasked. -/
structure Fits (words : Nat) (b : Burst) (start rsp : Bool) : Prop where
  start : start = true → b.issued = words ∧ b.received = words ∧ rsp = false
  rsp : rsp = true → b.received < words

end Burst

theorem ofNat_word_succ (k : Nat) :
    BitVec.ofNat 32 (4 * (k + 1)) = BitVec.ofNat 32 (4 * k) + 4 := by
  rw [Nat.mul_succ, BitVec.ofNat_add]
  rfl

namespace WeightBiu

/-- The registers of `weight_biu`, the address apart, as the burst says. -/
structure At (b : Burst) (s : State) : Prop where
  issuedBound : b.issued ≤ burstWords
  receivedBound : b.received ≤ burstWords
  state : s.state =
    if b.issued < 144 then .fetch3x3 else if b.issued < 160 then .fetch1x1 else .idle
  nextstate : s.nextstate = s.state
  cnt : s.cnt =
    if b.issued < 144 then b.issued else if b.issued < 160 then b.issued - 144 else 0
  req : s.weightBiu2arbReq = decide (b.received < burstWords)
  vld : s.weightBiu2arbVld = decide (b.issued < burstWords)
  received : Received (b.received % burstWords) s
  done : s.weightDone = b.done
  doneLate : b.done = true → b.received = burstWords

theorem at_reset : At (.rest burstWords) reset where
  issuedBound := le_rfl
  receivedBound := le_rfl
  state := rfl
  nextstate := rfl
  cnt := rfl
  req := rfl
  vld := rfl
  received := received_reset
  done := rfl
  doneLate := fun absurdity => Bool.noConfusion absurdity

/-- The command side of `weight_biu` when `issued` commands of the current burst have
been handed over. The responses do not show in it. -/
structure Issuing (issued : Nat) (s : State) : Prop where
  bound : issued ≤ burstWords
  state : s.state =
    if issued < 144 then .fetch3x3 else if issued < 160 then .fetch1x1 else .idle
  nextstate : s.nextstate = s.state
  cnt : s.cnt =
    if issued < 144 then issued else if issued < 160 then issued - 144 else 0
  vld : s.weightBiu2arbVld = decide (issued < burstWords)

/-- The address of command `k` of a burst: the 3x3 weights, then the 1x1 weights. -/
def burstAddr (w3Addr w1Addr : BitVec 32) (och k : Nat) : BitVec 32 :=
  if k < 144 then w3Addr + BitVec.ofNat 32 (och * 0x90) + BitVec.ofNat 32 (4 * k)
  else w1Addr + BitVec.ofNat 32 (och * 0x10) + BitVec.ofNat 32 (4 * (k - 144))

theorem burstAddr_succ (w3Addr w1Addr : BitVec 32) (och : Nat) {k : Nat} (inside : k ≠ 143) :
    burstAddr w3Addr w1Addr och k + 4 = burstAddr w3Addr w1Addr och (k + 1) := by
  unfold burstAddr
  by_cases kernel : k < 144
  · rw [if_pos kernel, if_pos (by omega), BitVec.add_assoc, ofNat_word_succ]
  · rw [if_neg kernel, if_neg (by omega), BitVec.add_assoc, show k + 1 - 144 = k - 144 + 1 by omega,
      ofNat_word_succ]

namespace Issuing

variable {issued : Nat} {s : State} {i : Input}

theorem hdshk_eq (issuing : Issuing issued s) :
    hdshk s i = decide (i.weightBiu2arbRdy = true ∧ issued < burstWords) := by
  rw [hdshk, issuing.vld]
  by_cases more : issued < burstWords <;> simp [more]

theorem step_start (rested : Issuing burstWords s) (start : i.weightStart = true) :
    Issuing 0 (step s i) := by
  have idle : s.state = .idle := rested.state
  have fetches : WeightBiu.nextstate s i = .fetch3x3 := by
    simp [WeightBiu.nextstate, idle, start]
  refine ⟨Nat.zero_le _, fetches, rfl, ?_, ?_⟩
  · simp [step, cntNext, idle]
  · simp [step, start, idle, burstWords]

theorem step (issuing : Issuing issued s) (running : i.weightStart = false) {next : Nat}
    (moved : next = if i.weightBiu2arbRdy = true ∧ issued < burstWords then issued + 1
      else issued) : Issuing next (step s i) := by
  have bound := issuing.bound
  have handed := issuing.hdshk_eq (i := i)
  have vld := issuing.vld
  suffices fields : (WeightBiu.step s i).state =
        (if next < 144 then .fetch3x3 else if next < 160 then .fetch1x1 else .idle) ∧
      (WeightBiu.step s i).cnt =
        (if next < 144 then next else if next < 160 then next - 144 else 0) ∧
      (WeightBiu.step s i).weightBiu2arbVld = decide (next < burstWords) by
    refine ⟨?_, fields.1, rfl, fields.2.1, fields.2.2⟩
    rw [moved]
    split_ifs <;> omega
  unfold burstWords at *
  simp only [WeightBiu.step, WeightBiu.nextstate, cntNext, handed, running,
    issuing.nextstate, issuing.cnt, vld]
  rw [issuing.state]
  by_cases moves : i.weightBiu2arbRdy = true ∧ issued < 160
  · rw [if_pos moves] at moved
    simp only [moves, decide_true]
    obtain kernel | turn | point | last :
        issued < 143 ∨ issued = 143 ∨ 144 ≤ issued ∧ issued < 159 ∨ issued = 159 := by
      omega
    · simp [moved, show issued < 144 by omega, show issued ≠ 143 by omega,
        show issued + 1 < 144 by omega, show issued + 1 < 160 by omega]
      omega
    · simp [moved, turn]
    · simp [moved, show ¬ issued < 144 by omega, show issued - 144 ≠ 15 by omega,
        show ¬ issued + 1 < 144 by omega, show issued + 1 < 160 by omega]
      omega
    · simp [moved, last]
  · rw [if_neg moves] at moved
    subst moved
    simp only [moves, decide_false]
    obtain kernel | point | idle : next < 144 ∨ 144 ≤ next ∧ next < 160 ∨ next = 160 := by
      omega
    · simp [kernel]
    · simp [show ¬ next < 144 by omega, point.2]
    · simp [idle]

theorem addr_start (rested : Issuing burstWords s) (start : i.weightStart = true) :
    (WeightBiu.step s i).weightBiu2arbAddr =
      burstAddr i.weight3BaseAddr i.weight1BaseAddr i.weightOchCnt 0 := by
  have idle : s.state = .idle := rested.state
  have fetches : WeightBiu.nextstate s i = .fetch3x3 := by
    simp [WeightBiu.nextstate, idle, start]
  show addrNext s i = _
  simp [addrNext, idle, fetches, burstAddr]

theorem addr_wait (issuing : Issuing issued s) (more : issued < burstWords)
    (wait : hdshk s i = false) : (WeightBiu.step s i).weightBiu2arbAddr = s.weightBiu2arbAddr := by
  have state := issuing.state
  unfold burstWords at more
  show addrNext s i = _
  by_cases kernel : issued < 144
  · rw [if_pos kernel] at state
    simp [addrNext, state, wait]
  · rw [if_neg kernel, if_pos more] at state
    simp [addrNext, state, wait]

theorem addr_turn (issuing : Issuing 143 s) (moves : hdshk s i = true) :
    (WeightBiu.step s i).weightBiu2arbAddr =
      i.weight1BaseAddr + BitVec.ofNat 32 (i.weightOchCnt * 0x10) := by
  have state : s.state = .fetch3x3 := issuing.state
  have cnt : s.cnt = 143 := issuing.cnt
  show addrNext s i = _
  simp [addrNext, state, cnt, moves]

theorem addr_move (issuing : Issuing issued s) (more : issued + 1 < burstWords)
    (inside : issued ≠ 143) (moves : hdshk s i = true) :
    (WeightBiu.step s i).weightBiu2arbAddr = s.weightBiu2arbAddr + 4 := by
  have state := issuing.state
  have cnt := issuing.cnt
  unfold burstWords at more
  show addrNext s i = _
  by_cases kernel : issued < 144
  · rw [if_pos kernel] at state cnt
    simp [addrNext, state, cnt, inside, moves]
  · rw [if_neg kernel, if_pos (by omega)] at state cnt
    simp [addrNext, state, cnt, moves]
    omega

theorem addr_step (issuing : Issuing issued s) (addressed : s.weightBiu2arbAddr =
      burstAddr i.weight3BaseAddr i.weight1BaseAddr i.weightOchCnt issued) {next : Nat}
    (moved : next = if i.weightBiu2arbRdy = true ∧ issued < burstWords then issued + 1
      else issued) (more : next < burstWords) :
    (WeightBiu.step s i).weightBiu2arbAddr =
      burstAddr i.weight3BaseAddr i.weight1BaseAddr i.weightOchCnt next := by
  have handed := issuing.hdshk_eq (i := i)
  by_cases moves : i.weightBiu2arbRdy = true ∧ issued < burstWords
  · rw [if_pos moves] at moved
    rw [decide_eq_true moves] at handed
    subst moved
    by_cases turn : issued = 143
    · subst turn
      rw [issuing.addr_turn handed]
      simp [burstAddr]
    · rw [issuing.addr_move more turn handed, addressed, burstAddr_succ _ _ _ turn]
  · rw [if_neg moves] at moved
    rw [decide_eq_false moves] at handed
    subst moved
    rw [issuing.addr_wait more handed, addressed]

end Issuing

section Step

variable {b : Burst} {s : State} {i : Input}

theorem At.issuing (held : At b s) : Issuing b.issued s :=
  ⟨held.issuedBound, held.state, held.nextstate, held.cnt, held.vld⟩

theorem At.step_start (held : At b s) (start : i.weightStart = true)
    (rested : b.issued = burstWords ∧ b.received = burstWords)
    (silent : i.arb2weightBiuVld = false) :
    At { issued := 0, received := 0, done := false } (step s i) := by
  have issuing := held.issuing
  rw [rested.1] at issuing
  obtain ⟨-, state, nextstate, cnt, vld⟩ := issuing.step_start start
  have counted := held.received
  rw [rested.2, Nat.mod_self] at counted
  refine ⟨Nat.zero_le _, Nat.zero_le _, state, nextstate, cnt, ?_, vld, ?_, ?_, ?_⟩
  · simp [step, start, burstWords]
  · exact counted.step_wait silent
  · simp [step, silent]
  · exact fun absurdity => Bool.noConfusion absurdity

theorem At.step (held : At b s)
    (fits : b.Fits burstWords i.weightStart i.arb2weightBiuVld) :
    At (b.next burstWords i.weightStart i.weightBiu2arbRdy i.arb2weightBiuVld)
      (WeightBiu.step s i) := by
  cases start : i.weightStart with
  | true =>
      obtain ⟨issued, received, silent⟩ := fits.start start
      exact held.step_start start ⟨issued, received⟩ silent
  | false =>
      have bound := held.issuedBound
      have receivedBound := held.receivedBound
      have counted := held.received.receiveCnt
      have rsp := fits.rsp
      obtain ⟨-, state, -, cnt, vld⟩ := held.issuing.step start rfl
      unfold burstWords at *
      refine ⟨?_, ?_, state, rfl, cnt, ?_, vld, ?_, ?_, ?_⟩
      · simp only [Burst.next, Bool.false_eq_true, if_false]
        split_ifs <;> unfold burstWords <;> omega
      · simp only [Burst.next, Bool.false_eq_true, if_false]
        split_ifs with receive <;> unfold burstWords
        · exact rsp receive
        · exact receivedBound
      · simp only [WeightBiu.step, Burst.next, start, counted, receive_eq, held.req,
          Bool.false_eq_true, if_false, burstWords]
        cases receive : i.arb2weightBiuVld with
        | false =>
            rw [if_neg (by simp), if_neg Bool.false_ne_true]
            exact decide_eq_decide.mpr Iff.rfl
        | true =>
            have more := rsp receive
            simp only [and_true, if_true]
            split_ifs with last
            · exact (decide_eq_false (by omega)).symm
            · exact decide_eq_decide.mpr (by omega)
      · cases receive : i.arb2weightBiuVld with
        | false => exact held.received.step_wait receive
        | true =>
            have next := held.received.step_receive receive
            rw [Nat.mod_add_mod] at next
            exact next
      · simp only [WeightBiu.step, Burst.next, counted, receive_eq, held.done,
          Bool.false_eq_true, if_false]
        cases receive : i.arb2weightBiuVld with
        | false => cases b.done <;> simp
        | true =>
            have more := rsp receive
            cases done : b.done with
            | true => exact absurd (held.doneLate done) (by unfold burstWords; omega)
            | false =>
                simp only [and_true, Bool.true_and, Bool.false_eq_true, if_false]
                split_ifs with last
                · exact (decide_eq_true (by omega)).symm
                · exact (decide_eq_false (by omega)).symm
      · simp only [Burst.next, Bool.false_eq_true, if_false, Bool.and_eq_true,
          decide_eq_true_eq]
        rintro ⟨receive, last⟩
        rw [if_pos receive]
        exact last

theorem At.step_addr (held : At b s)
    (fits : b.Fits burstWords i.weightStart i.arb2weightBiuVld)
    (addressed : b.issued < burstWords → s.weightBiu2arbAddr =
      burstAddr i.weight3BaseAddr i.weight1BaseAddr i.weightOchCnt b.issued) :
    let b' := b.next burstWords i.weightStart i.weightBiu2arbRdy i.arb2weightBiuVld
    b'.issued < burstWords → (WeightBiu.step s i).weightBiu2arbAddr =
      burstAddr i.weight3BaseAddr i.weight1BaseAddr i.weightOchCnt b'.issued := by
  intro b' more
  have issuing := held.issuing
  cases start : i.weightStart with
  | true =>
      have first : b'.issued = 0 := by
        show (b.next _ _ _ _).issued = 0
        rw [start]
        rfl
      rw [(fits.start start).1] at issuing
      rw [first]
      exact issuing.addr_start start
  | false =>
      have next : b'.issued =
          if i.weightBiu2arbRdy = true ∧ b.issued < burstWords then b.issued + 1
          else b.issued := by
        show (b.next _ _ _ _).issued = _
        rw [start]
        rfl
      refine issuing.addr_step (addressed ?_) next more
      split_ifs at next <;> omega

end Step

end WeightBiu

namespace ImapBiu

open ImapLoad (mapWords)

/-- The registers of `imap_biu`, the address and the packed word apart, as the burst
says. -/
structure At (b : Burst) (s : State) : Prop where
  issuedBound : b.issued ≤ mapWords
  receivedBound : b.received ≤ mapWords
  state : s.state = if b.issued < mapWords then .fetch else .idle
  nextstate : s.nextstate = s.state
  cnt : s.cnt = b.issued % mapWords
  req : s.imapBiu2arbReq = decide (b.received < mapWords)
  vld : s.imapBiu2arbVld = decide (b.issued < mapWords)
  receiveCnt : s.receiveCnt = b.received % mapWords
  done : s.imapDone = b.done
  doneLate : b.done = true → b.received = mapWords

theorem at_reset : At (.rest mapWords) reset where
  issuedBound := le_rfl
  receivedBound := le_rfl
  state := rfl
  nextstate := rfl
  cnt := rfl
  req := rfl
  vld := rfl
  receiveCnt := rfl
  done := rfl
  doneLate := fun absurdity => Bool.noConfusion absurdity

section Step

variable {b : Burst} {s : State} {i : Input}

theorem At.hdshk_eq (held : At b s) :
    hdshk s i = decide (i.imapBiu2arbRdy = true ∧ b.issued < mapWords) := by
  rw [hdshk, held.vld]
  by_cases more : b.issued < mapWords <;> simp [more]

theorem At.step_start (held : At b s) (start : i.imapStart = true)
    (rested : b.issued = mapWords ∧ b.received = mapWords)
    (silent : i.arb2imapBiuVld = false) :
    At { issued := 0, received := 0, done := false } (step s i) := by
  have idle : s.state = .idle := by
    rw [held.state, rested.1]
    rfl
  have zero : s.cnt = 0 := by
    rw [held.cnt, rested.1, Nat.mod_self]
  have fetches : ImapBiu.nextstate s i = .fetch := by simp [ImapBiu.nextstate, idle, start]
  refine ⟨Nat.zero_le _, Nat.zero_le _, fetches, rfl, ?_, ?_, ?_, ?_, ?_, ?_⟩
  · simp [step, cntNext, idle]
  · simp [step, start, mapWords]
  · simp [step, start, zero, mapWords]
  · simp [step, silent, held.receiveCnt, rested.2]
  · simp [step, silent]
  · exact fun absurdity => Bool.noConfusion absurdity

theorem At.step_issue (held : At b s) (running : i.imapStart = false) {issued : Nat}
    (next : issued = if i.imapBiu2arbRdy = true ∧ b.issued < mapWords then b.issued + 1
      else b.issued) :
    (step s i).state = (if issued < mapWords then .fetch else .idle) ∧
      (step s i).cnt = issued % mapWords ∧
      (step s i).imapBiu2arbVld = decide (issued < mapWords) := by
  have bound := held.issuedBound
  have handed := held.hdshk_eq (i := i)
  have vld := held.vld
  unfold mapWords at *
  simp only [step, ImapBiu.nextstate, cntNext, handed, running, held.nextstate, vld]
  rw [held.state, held.cnt]
  unfold mapWords
  by_cases moves : i.imapBiu2arbRdy = true ∧ b.issued < 0xc400
  · rw [if_pos moves] at next
    simp only [moves, decide_true]
    obtain inside | last : b.issued < 0xc3ff ∨ b.issued = 0xc3ff := by omega
    · simp [next, Nat.mod_eq_of_lt moves.2, Nat.ne_of_lt inside,
        show b.issued + 1 < 50176 by omega]
      omega
    · simp [next, last]
  · rw [if_neg moves] at next
    subst next
    simp only [moves, decide_false]
    obtain inside | idle : b.issued < 0xc400 ∨ b.issued = 0xc400 := by omega
    · simp [inside]
    · simp [idle]

theorem At.step (held : At b s) (fits : b.Fits mapWords i.imapStart i.arb2imapBiuVld) :
    At (b.next mapWords i.imapStart i.imapBiu2arbRdy i.arb2imapBiuVld) (ImapBiu.step s i) := by
  cases start : i.imapStart with
  | true =>
      obtain ⟨issued, received, silent⟩ := fits.start start
      exact held.step_start start ⟨issued, received⟩ silent
  | false =>
      have bound := held.issuedBound
      have receivedBound := held.receivedBound
      have counted := held.receiveCnt
      have rsp := fits.rsp
      obtain ⟨state, cnt, vld⟩ := held.step_issue start rfl
      unfold mapWords at *
      refine ⟨?_, ?_, state, rfl, cnt, ?_, vld, ?_, ?_, ?_⟩
      · simp only [Burst.next, Bool.false_eq_true, if_false]
        split_ifs <;> unfold mapWords <;> omega
      · simp only [Burst.next, Bool.false_eq_true, if_false]
        split_ifs with receive <;> unfold mapWords
        · exact rsp receive
        · exact receivedBound
      · simp only [ImapBiu.step, Burst.next, start, counted, receive_eq, held.req,
          Bool.false_eq_true, if_false, mapWords]
        cases receive : i.arb2imapBiuVld with
        | false =>
            rw [if_neg (by simp), if_neg Bool.false_ne_true]
            exact decide_eq_decide.mpr Iff.rfl
        | true =>
            have more := rsp receive
            simp only [and_true, if_true]
            split_ifs with last
            · exact (decide_eq_false (by omega)).symm
            · exact decide_eq_decide.mpr (by omega)
      · simp only [ImapBiu.step, Burst.next, counted, receive_eq, Bool.false_eq_true,
          if_false, mapWords]
        cases receive : i.arb2imapBiuVld with
        | false => simp
        | true =>
            have more := rsp receive
            simp only [and_true, if_true]
            split_ifs <;> omega
      · simp only [ImapBiu.step, Burst.next, counted, receive_eq, held.done,
          Bool.false_eq_true, if_false]
        cases receive : i.arb2imapBiuVld with
        | false => cases b.done <;> simp
        | true =>
            have more := rsp receive
            cases done : b.done with
            | true => exact absurd (held.doneLate done) (by unfold mapWords; omega)
            | false =>
                simp only [and_true, Bool.true_and, Bool.false_eq_true, if_false]
                split_ifs with last
                · exact (decide_eq_true (by omega)).symm
                · exact (decide_eq_false (by omega)).symm
      · simp only [Burst.next, Bool.false_eq_true, if_false, Bool.and_eq_true,
          decide_eq_true_eq]
        rintro ⟨receive, last⟩
        rw [if_pos receive]
        exact last

theorem At.addr_start (held : At b s) (start : i.imapStart = true)
    (rested : b.issued = mapWords) : (ImapBiu.step s i).imapBiu2arbAddr = i.imapBaseAddr := by
  have idle : s.state = .idle := by
    rw [held.state, rested]
    rfl
  have fetches : ImapBiu.nextstate s i = .fetch := by simp [ImapBiu.nextstate, idle, start]
  show addrNext s i = _
  simp [addrNext, idle, fetches]

theorem At.addr_wait (held : At b s) (more : b.issued < mapWords) (wait : hdshk s i = false) :
    (ImapBiu.step s i).imapBiu2arbAddr = s.imapBiu2arbAddr := by
  have state := held.state
  rw [if_pos more] at state
  show addrNext s i = _
  simp [addrNext, state, wait]

theorem At.addr_move (held : At b s) (more : b.issued + 1 < mapWords)
    (moves : hdshk s i = true) :
    (ImapBiu.step s i).imapBiu2arbAddr = s.imapBiu2arbAddr + 4 := by
  have state := held.state
  have cnt := held.cnt
  unfold mapWords at *
  rw [if_pos (by omega)] at state
  have inside : s.cnt ≠ 0xc3ff := by omega
  show addrNext s i = _
  simp [addrNext, state, inside, moves]

theorem At.step_addr (held : At b s) (fits : b.Fits mapWords i.imapStart i.arb2imapBiuVld)
    (addressed : b.issued < mapWords →
      s.imapBiu2arbAddr = i.imapBaseAddr + BitVec.ofNat 32 (4 * b.issued)) :
    let b' := b.next mapWords i.imapStart i.imapBiu2arbRdy i.arb2imapBiuVld
    b'.issued < mapWords → (ImapBiu.step s i).imapBiu2arbAddr =
      i.imapBaseAddr + BitVec.ofNat 32 (4 * b'.issued) := by
  intro b' more
  have handed := held.hdshk_eq (i := i)
  cases start : i.imapStart with
  | true =>
      have first : b'.issued = 0 := by
        show (b.next _ _ _ _).issued = 0
        rw [start]
        rfl
      rw [first, held.addr_start start (fits.start start).1]
      simp
  | false =>
      have next : b'.issued =
          if i.imapBiu2arbRdy = true ∧ b.issued < mapWords then b.issued + 1
          else b.issued := by
        show (b.next _ _ _ _).issued = _
        rw [start]
        rfl
      rw [next] at more ⊢
      by_cases moves : i.imapBiu2arbRdy = true ∧ b.issued < mapWords
      · rw [if_pos moves] at more ⊢
        rw [decide_eq_true moves] at handed
        rw [held.addr_move more handed, addressed moves.2, ofNat_word_succ, BitVec.add_assoc]
      · rw [if_neg moves] at more ⊢
        rw [decide_eq_false moves] at handed
        rw [held.addr_wait more handed, addressed more]

end Step

end ImapBiu

end RepVGGAcc
