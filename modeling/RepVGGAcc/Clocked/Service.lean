import RepVGGAcc.Clocked.Queue
import Mathlib.Data.List.FinRange
import Mathlib.Data.Nat.Nth
import Mathlib.Logic.Function.Basic

/-! Services behind a port. A service takes requests one at a time and gives an answer to
each of them; behind a port its answers come later, but in order. -/

namespace Clocked

variable {σ α β ι : Type}

/-- The state of a service after some requests. -/
def served (serve : σ → α → σ × β) : σ → List α → σ :=
  List.foldl fun s x => (serve s x).1

/-- The answers of a service that takes the requests one after the other. -/
def replies (serve : σ → α → σ × β) : σ → List α → List β
  | _, [] => []
  | s, x :: xs => (serve s x).2 :: replies serve (serve s x).1 xs

variable {serve : σ → α → σ × β} {s : σ}

@[simp] theorem replies_nil : replies serve s [] = [] := rfl

@[simp] theorem replies_cons (x : α) (xs : List α) :
    replies serve s (x :: xs) = (serve s x).2 :: replies serve (serve s x).1 xs := rfl

@[simp] theorem served_nil : served serve s [] = s := rfl

@[simp] theorem served_cons (x : α) (xs : List α) :
    served serve s (x :: xs) = served serve (serve s x).1 xs := rfl

theorem served_append (xs ys : List α) :
    served serve s (xs ++ ys) = served serve (served serve s xs) ys :=
  List.foldl_append

theorem replies_append (xs ys : List α) :
    replies serve s (xs ++ ys) = replies serve s xs ++ replies serve (served serve s xs) ys := by
  induction xs generalizing s with
  | nil => rfl
  | cons x xs step => simp [step]

@[simp] theorem length_replies (xs : List α) : (replies serve s xs).length = xs.length := by
  induction xs generalizing s with
  | nil => rfl
  | cons x xs step => simp [step]

theorem getElem?_replies (xs : List α) (n : Nat) : (replies serve s xs)[n]? =
    xs[n]?.map fun x => (serve (served serve s (xs.take n)) x).2 := by
  induction xs generalizing s n with
  | nil => rfl
  | cons x xs step =>
      cases n with
      | zero => rfl
      | succ n => exact step n

theorem replies_isPrefix {xs ys : List α} (early : xs <+: ys) :
    replies serve s xs <+: replies serve s ys := by
  obtain ⟨later, rfl⟩ := early
  rw [replies_append]
  exact List.prefix_append _ _

/-- At all times the responses are the first answers to the requests. -/
def Serves (serve : σ → α → σ × β) (start : σ) (request : Nat → Option α)
    (response : Nat → Option β) : Prop :=
  ∀ n, events response n <+: replies serve start (events request n)

namespace Serves

variable {start : σ} {request : Nat → Option α} {response : Nat → Option β}

theorem length_le (serves : Serves serve start request response) (n : Nat) :
    (events response n).length ≤ (events request n).length := by
  have bound := (serves n).length_le
  rwa [length_replies] at bound

/-- Requests and responses may wait in queues on their way. -/
theorem trans (serves : Serves serve start request response) {outer : Nat → Option α}
    {answer : Nat → Option β} (upstream : ∀ n, events request n <+: events outer n)
    (downstream : ∀ n, events answer n <+: events response n) :
    Serves serve start outer answer :=
  fun n => (downstream n).trans ((serves n).trans (replies_isPrefix (upstream n)))

theorem eq_answer (serves : Serves serve start request response) {m n : Nat} {x : α} {y : β}
    (asked : (events request m)[n]? = some x) (answered : (events response m)[n]? = some y) :
    y = (serve (served serve start ((events request m).take n)) x).2 := by
  obtain ⟨rest, whole⟩ := serves m
  obtain ⟨inside, -⟩ := List.getElem?_eq_some_iff.mp answered
  have answer : (replies serve start (events request m))[n]? = some y := by
    rw [← whole, List.getElem?_append_left inside, answered]
  rw [getElem?_replies, asked, Option.map_some, Option.some_inj] at answer
  exact answer.symm

theorem of_delayed (silent : response 0 = none)
    (answers : ∀ t, response (t + 1) =
      (request t).map fun x => (serve (served serve start (events request t)) x).2) :
    Serves serve start request response := by
  have whole (n : Nat) :
      events response (n + 1) = replies serve start (events request n) := by
    induction n with
    | zero => rw [events_succ, silent]; rfl
    | succ n held =>
        rw [events_succ, held, answers n, events_succ request n, replies_append]
        cases request n <;> rfl
  intro n
  cases n with
  | zero => exact List.nil_prefix
  | succ n =>
      rw [whole n, events_succ]
      exact replies_isPrefix (List.prefix_append _ _)

end Serves

/-- The service that gives the answers it was made with, whatever the requests are. -/
def recalled (answer : Nat → β) (n : Nat) (_ : α) : Nat × β :=
  (n + 1, answer n)

theorem replies_recalled (answer : Nat → β) (n : Nat) (xs : List α) :
    replies (recalled answer) n xs = (List.range xs.length).map fun k => answer (n + k) := by
  induction xs generalizing n with
  | nil => rfl
  | cons x xs step =>
      rw [replies_cons, List.length_cons, List.range_succ_eq_map, List.map_cons, List.map_map]
      refine congrArg _ ((step (n + 1)).trans (List.map_congr_left fun k _ => ?_))
      show answer (n + 1 + k) = answer (n + (k + 1))
      rw [Nat.add_assoc, Nat.add_comm 1 k]

/-- Whatever gives no response without a request is a service of some kind. -/
theorem exists_recalled (other : β) {request : Nat → Option α} {response : Nat → Option β}
    (bound : ∀ n, (events response n).length ≤ (events request n).length) :
    ∃ answer : Nat → β, Serves (recalled answer) 0 request response := by
  let responds (t : Nat) : Prop := (response t).isSome = true
  refine ⟨fun k => (response (Nat.nth responds k)).getD other, fun n => ?_⟩
  have lawful := events_eq_map_range response
    (fun k => (response (Nat.nth responds k)).getD other) (fun t x seen => by
      have here : Nat.nth responds (Nat.count responds t) = t :=
        Nat.nth_count (Option.isSome_iff_exists.mpr ⟨x, seen⟩)
      rw [here, seen, Option.getD_some]) n
  rw [lawful, replies_recalled, ← length_events]
  simp only [Nat.zero_add]
  exact map_range_isPrefix _ (bound n)

theorem events_map {γ : Type} (f : α → γ) (observe : Nat → Option α) (n : Nat) :
    events (fun t => (observe t).map f) n = (events observe n).map f := by
  unfold events
  rw [List.map_filterMap]

theorem length_events_map {γ : Type} (f : Nat → α → γ) (observe : Nat → Option α) (n : Nat) :
    (events (fun t => (observe t).map (f t)) n).length = (events observe n).length := by
  rw [length_events, length_events]
  simp only [Option.isSome_map]

theorem events_filter (p : α → Bool) (observe : Nat → Option α) (n : Nat) :
    events (fun t => (observe t).filter p) n = (events observe n).filter p := by
  unfold events
  rw [List.filter_filterMap]

def viewed {γ δ : Type} (f : γ → α) (g : β → δ) (serve : σ → α → σ × β) (s : σ) (x : γ) : σ × δ :=
  ((serve s (f x)).1, g (serve s (f x)).2)

section Viewed

variable {γ δ : Type} {f : γ → α} {g : β → δ}

theorem replies_viewed (xs : List γ) :
    replies (viewed f g serve) s xs = (replies serve s (xs.map f)).map g := by
  induction xs generalizing s with
  | nil => rfl
  | cons x xs step => exact congrArg _ step

theorem served_viewed (xs : List γ) :
    served (viewed f g serve) s xs = served serve s (xs.map f) := by
  induction xs generalizing s with
  | nil => rfl
  | cons x xs step => exact step

theorem Serves.viewed {start : σ} {request : Nat → Option γ} {response : Nat → Option β}
    (serves : Serves serve start (fun t => (request t).map f) response) :
    Serves (Clocked.viewed f g serve) start request fun t => (response t).map g := by
  intro n
  have answers := (serves n).map g
  rw [events_map] at answers
  rw [events_map, replies_viewed]
  exact answers

end Viewed

/-! Several clients of one service. A request carries the port it came from, and the
response goes back there. -/

/-- The service with the port on every request and response. -/
def tagged (serve : σ → α → σ × β) (s : σ) (x : ι × α) : σ × ι × β :=
  ((serve s x.2).1, x.1, (serve s x.2).2)

theorem map_fst_replies_tagged (xs : List (ι × α)) :
    (replies (tagged serve) s xs).map Prod.fst = xs.map Prod.fst := by
  induction xs generalizing s with
  | nil => rfl
  | cons x xs step => exact congrArg _ step

theorem isPrefix_replies_tagged {xs : List (ι × α)} {ys : List (ι × β)}
    (answers : ys.map Prod.snd <+: replies serve s (xs.map Prod.snd))
    (order : ys.map Prod.fst <+: xs.map Prod.fst) : ys <+: replies (tagged serve) s xs := by
  induction xs generalizing s ys with
  | nil =>
      rw [List.map_nil, List.prefix_nil, List.map_eq_nil_iff] at order
      rw [order]
      exact List.nil_prefix
  | cons x xs step =>
      cases ys with
      | nil => exact List.nil_prefix
      | cons y ys =>
          rw [List.map_cons, List.map_cons, replies_cons, List.cons_prefix_cons] at answers
          rw [List.map_cons, List.map_cons, List.cons_prefix_cons] at order
          obtain ⟨value, answers⟩ := answers
          obtain ⟨port, order⟩ := order
          rw [replies_cons, List.cons_prefix_cons]
          exact ⟨Prod.ext port value, step answers order⟩

/-- The responses reach the ports of their requests when the ports are kept in order. -/
theorem Serves.tagged {start : σ} {request : Nat → Option (ι × α)}
    {response : Nat → Option (ι × β)}
    (serves : Serves serve start (fun t => (request t).map Prod.snd)
      fun t => (response t).map Prod.snd)
    (order : ∀ n, events (fun t => (response t).map Prod.fst) n <+:
      events (fun t => (request t).map Prod.fst) n) :
    Serves (tagged serve) start request response := by
  intro n
  have answers := serves n
  have ports := order n
  rw [events_map, events_map] at answers ports
  exact isPrefix_replies_tagged answers ports

/-! One client of several services. Each request goes to one of them. -/

section Routed

variable [DecidableEq ι]

/-- What goes to or comes from the service `k`. -/
def atPort (k : ι) (x : ι × α) : Option α :=
  if x.1 = k then some x.2 else none

theorem atPort_self (k : ι) (x : α) : atPort k (k, x) = some x := if_pos rfl

theorem atPort_ne {k k' : ι} (other : k' ≠ k) (x : α) : atPort k (k', x) = none := if_neg other

theorem events_bind {γ : Type} (f : α → Option γ) (observe : Nat → Option α) (n : Nat) :
    events (fun t => (observe t).bind f) n = (events observe n).filterMap f := by
  unfold events
  rw [List.filterMap_filterMap]

variable {τ : ι → Type}

/-- The service that hands each request to the service it is for. -/
def routed (serve : ∀ k, τ k → α → τ k × β) (s : ∀ k, τ k) (x : ι × α) : (∀ k, τ k) × ι × β :=
  (Function.update s x.1 (serve x.1 (s x.1) x.2).1, x.1, (serve x.1 (s x.1) x.2).2)

/-- Each port has the answers to its own requests, in its own order. -/
theorem Serves.events_atPort {serve : σ → ι × α → σ × ι × β} {start : σ}
    {request : Nat → Option (ι × α)} {response : Nat → Option (ι × β)}
    (serves : Serves serve start request response) (k : ι) (n : Nat) :
    events (fun t => (response t).bind (atPort k)) n <+:
      (replies serve start (events request n)).filterMap (atPort k) := by
  rw [events_bind]
  exact (serves n).filterMap _

theorem port_reply {k : ι} {xs : List (ι × α)} {n : Nat} {x : α} {y : β}
    (asked : (xs.filterMap (atPort k))[n]? = some x)
    (answered : ((replies (tagged serve) s xs).filterMap (atPort k))[n]? = some y) :
    ∃ before, before <+: xs ∧
      before.filterMap (atPort k) = (xs.filterMap (atPort k)).take n ∧
      y = (serve (served serve s (before.map Prod.snd)) x).2 := by
  induction xs generalizing s n with
  | nil => cases asked
  | cons first xs step =>
      obtain ⟨k', x'⟩ := first
      replace answered : (((k', (serve s x').2) ::
        replies (tagged serve) (serve s x').1 xs).filterMap (atPort k))[n]? = some y := answered
      by_cases here : k' = k
      · subst here
        rw [List.filterMap_cons_some (atPort_self k' _)] at asked answered
        cases n with
        | zero =>
            cases asked
            cases answered
            exact ⟨[], List.nil_prefix, rfl, rfl⟩
        | succ n =>
            obtain ⟨before, early, own, answer⟩ := step asked answered
            refine ⟨(k', x') :: before, List.cons_prefix_cons.mpr ⟨rfl, early⟩, ?_, answer⟩
            rw [List.filterMap_cons_some (atPort_self k' x'),
              List.filterMap_cons_some (atPort_self k' x'), own, List.take_succ_cons]
      · rw [List.filterMap_cons_none (atPort_ne here _)] at asked answered
        obtain ⟨before, early, own, answer⟩ := step asked answered
        refine ⟨(k', x') :: before, List.cons_prefix_cons.mpr ⟨rfl, early⟩, ?_, answer⟩
        rw [List.filterMap_cons_none (atPort_ne here x'),
          List.filterMap_cons_none (atPort_ne here x'), own]

theorem Serves.port_answer {start : σ} {request : Nat → Option (ι × α)}
    {response : Nat → Option (ι × β)}
    (serves : Serves (Clocked.tagged serve) start request response)
    {k : ι} {m n : Nat} {x : α} {y : β}
    (asked : (events (fun t => (request t).bind (atPort k)) m)[n]? = some x)
    (answered : (events (fun t => (response t).bind (atPort k)) m)[n]? = some y) :
    ∃ before, before <+: events request m ∧
      before.filterMap (atPort k) = (events (fun t => (request t).bind (atPort k)) m).take n ∧
      y = (serve (served serve start (before.map Prod.snd)) x).2 := by
  rw [events_bind] at asked answered
  rw [events_bind]
  obtain ⟨later, whole⟩ := (serves m).filterMap (atPort k)
  obtain ⟨inside, -⟩ := List.getElem?_eq_some_iff.mp answered
  refine port_reply asked ?_
  rw [← whole, List.getElem?_append_left inside, answered]

theorem served_routed {serve : ∀ k, τ k → α → τ k × β} (s : ∀ k, τ k) (xs : List (ι × α))
    (k : ι) :
    served (routed serve) s xs k = served (serve k) (s k) (xs.filterMap (atPort k)) := by
  induction xs generalizing s with
  | nil => rfl
  | cons x xs step =>
      obtain ⟨k', x⟩ := x
      rw [served_cons, step]
      by_cases here : k' = k
      · subst here
        rw [List.filterMap_cons_some (atPort_self k' x), served_cons]
        simp [routed]
      · rw [List.filterMap_cons_none (atPort_ne here x)]
        simp [routed, Function.update_of_ne (Ne.symm here)]

theorem isPrefix_replies_routed {serve : ∀ k, τ k → α → τ k × β} {s : ∀ k, τ k}
    {xs : List (ι × α)} {ys : List (ι × β)}
    (answers : ∀ k, ys.filterMap (atPort k) <+:
      replies (serve k) (s k) (xs.filterMap (atPort k)))
    (order : ys.map Prod.fst <+: xs.map Prod.fst) : ys <+: replies (routed serve) s xs := by
  induction xs generalizing s ys with
  | nil =>
      rw [List.map_nil, List.prefix_nil, List.map_eq_nil_iff] at order
      rw [order]
      exact List.nil_prefix
  | cons x xs step =>
      cases ys with
      | nil => exact List.nil_prefix
      | cons y ys =>
          obtain ⟨k, x⟩ := x
          obtain ⟨k', y⟩ := y
          rw [List.map_cons, List.map_cons, List.cons_prefix_cons] at order
          obtain ⟨rfl, order⟩ := order
          have here := answers k'
          rw [List.filterMap_cons_some (atPort_self k' x),
            List.filterMap_cons_some (atPort_self k' y), replies_cons,
            List.cons_prefix_cons] at here
          obtain ⟨value, here⟩ := here
          rw [replies_cons, List.cons_prefix_cons]
          refine ⟨Prod.ext rfl value, step (fun k => ?_) order⟩
          by_cases same : k' = k
          · subst same
            simpa [routed] using here
          · have elsewhere := answers k
            rw [List.filterMap_cons_none (atPort_ne same x),
              List.filterMap_cons_none (atPort_ne same y)] at elsewhere
            simpa [routed, Function.update_of_ne (Ne.symm same)] using elsewhere

theorem Serves.routed {serve : ∀ k, τ k → α → τ k × β} {start : ∀ k, τ k}
    {request : Nat → Option (ι × α)} {response : Nat → Option (ι × β)}
    (serves : ∀ k, Serves (serve k) (start k) (fun t => (request t).bind (atPort k))
      fun t => (response t).bind (atPort k))
    (order : ∀ n, events (fun t => (response t).map Prod.fst) n <+:
      events (fun t => (request t).map Prod.fst) n) :
    Serves (routed serve) start request response := by
  intro n
  refine isPrefix_replies_routed (fun k => ?_) ?_
  · rw [← events_bind, ← events_bind]
    exact serves k n
  · rw [← events_map, ← events_map]
    exact order n

/-- The services as one, when a request tells which of them it is for. -/
def dispatched (route : α → ι) (serve : ∀ k, τ k → α → τ k × β) (s : ∀ k, τ k) (x : α) :
    (∀ k, τ k) × β :=
  ((routed serve s (route x, x)).1, (routed serve s (route x, x)).2.2)

theorem served_dispatched (route : α → ι) {serve : ∀ k, τ k → α → τ k × β} (s : ∀ k, τ k)
    (xs : List α) : served (dispatched route serve) s xs =
      served (routed serve) s (xs.map fun x => (route x, x)) :=
  served_viewed xs

theorem Serves.dispatched {route : α → ι} {serve : ∀ k, τ k → α → τ k × β} {start : ∀ k, τ k}
    {request : Nat → Option α} {response : Nat → Option (ι × β)}
    (serves : Serves (Clocked.routed serve) start
      (fun t => (request t).map fun x => (route x, x)) response) :
    Serves (Clocked.dispatched route serve) start request
      fun t => (response t).map Prod.snd :=
  serves.viewed

theorem length_filterMap_atPort (k : ι) (xs : List (ι × α)) :
    (xs.filterMap (atPort k)).length = (xs.map Prod.fst).count k := by
  induction xs with
  | nil => rfl
  | cons x xs step =>
      obtain ⟨k', x⟩ := x
      rw [List.map_cons, List.count_cons, ← step]
      by_cases here : k' = k
      · rw [here, List.filterMap_cons_some (atPort_self k x)]
        simp
      · rw [List.filterMap_cons_none (atPort_ne here x)]
        simp [here]

theorem length_replies_atPort (k : ι) (xs : List (ι × α)) :
    ((replies (tagged serve) s xs).filterMap (atPort k)).length =
      (xs.filterMap (atPort k)).length := by
  rw [length_filterMap_atPort, map_fst_replies_tagged, ← length_filterMap_atPort]

theorem filterMap_atPort (route : α → ι) (k : ι) (xs : List α) :
    (xs.map fun x => (route x, x)).filterMap (atPort k) =
      xs.filter fun x => decide (route x = k) := by
  rw [List.filterMap_map, ← List.filterMap_eq_filter]
  refine List.filterMap_congr fun x _ => ?_
  simp [atPort, Option.guard]

/-- A service answers nothing that it was not asked: when all requests have been answered,
a response comes with its request. -/
theorem request_of_response {serve : ∀ k, τ k → α → τ k × β} {start : ∀ k, τ k}
    {request : Nat → Option (ι × α)} {response : Nat → Option (ι × β)}
    (serves : ∀ k, Serves (serve k) (start k) (fun t => (request t).bind (atPort k))
      fun t => (response t).bind (atPort k))
    {t : Nat} (settled : events (fun t => (response t).map Prod.fst) t =
      events (fun t => (request t).map Prod.fst) t)
    (responds : (response t).isSome = true) : (request t).isSome = true := by
  obtain ⟨⟨k, y⟩, responds⟩ := Option.isSome_iff_exists.mp responds
  have bound := (serves k).length_le (t + 1)
  rw [events_bind, events_bind, length_filterMap_atPort, length_filterMap_atPort, ← events_map,
    ← events_map, events_succ, events_succ, settled, responds, List.count_append,
    List.count_append] at bound
  cases asks : request t with
  | none =>
      rw [asks, Option.map_some, Option.map_none, Option.toList_some, Option.toList_none,
        List.count_singleton_self, List.count_nil] at bound
      omega
  | some x => rfl

end Routed

/-! Ports of which at most one hands something over in a cycle. -/

/-- The port that hands something over, with what it hands over. -/
def handed {n : Nat} (vld rdy : Fin n → Bool) (x : Fin n → α) : Option (Fin n × α) :=
  (List.finRange n).findSome? fun k => handshake (vld k) (rdy k) (k, x k)

variable {n : Nat} {vld rdy : Fin n → Bool} {x : Fin n → α}

theorem handed_eq_none (none_ : ∀ k, (vld k && rdy k) = false) : handed vld rdy x = none := by
  unfold handed
  rw [List.findSome?_eq_none_iff]
  intro k _
  unfold handshake
  rw [if_neg (by rw [none_ k]; exact Bool.false_ne_true)]

theorem handed_eq_some {k : Fin n} (both : (vld k && rdy k) = true)
    (only : ∀ j, (vld j && rdy j) = true → j = k) : handed vld rdy x = some (k, x k) := by
  cases found : handed vld rdy x with
  | none =>
      have unseen := List.findSome?_eq_none_iff.mp found k (List.mem_finRange k)
      unfold handshake at unseen
      rw [if_pos both] at unseen
      cases unseen
  | some y =>
      obtain ⟨j, -, seen⟩ := List.exists_of_findSome?_eq_some found
      unfold handshake at seen
      split_ifs at seen with here
      rw [only j here] at seen
      exact seen.symm

theorem bind_handed (single : ∀ j k, (vld j && rdy j) = true → (vld k && rdy k) = true → j = k)
    (k : Fin n) : (handed vld rdy x).bind (atPort k) = handshake (vld k) (rdy k) (x k) := by
  by_cases some_ : ∃ j, (vld j && rdy j) = true
  · obtain ⟨j, both⟩ := some_
    rw [handed_eq_some both fun k here => single k j here both, Option.bind_some]
    unfold handshake
    by_cases here : j = k
    · subst here
      rw [atPort_self, if_pos both]
    · rw [atPort_ne here, if_neg fun other => here (single j k both other)]
  · have none_ (j : Fin n) : (vld j && rdy j) = false :=
      Bool.eq_false_iff.mpr fun both => some_ ⟨j, both⟩
    rw [handed_eq_none none_, Option.bind_none]
    unfold handshake
    rw [none_ k, if_neg Bool.false_ne_true]

end Clocked
