import MetricRelay.Queue

/-!
# The bounded queue, first in first out

`FifoStep` says how a list of limited length answers when it is served first in, first out: a batch
goes in as a whole, at the end, or not at all, and items come out at the front. A call has one such
answer (`FifoSteps.unique`), and what comes out is what has gone in (`FifoSteps.conserved`). A
`BoundedQueue` answers in this way, whatever it is asked (`serveAll_fifo`).
-/

namespace MetricRelay.BoundedQueue

variable {α : Type}

inductive Call (α : Type) where
  | push (batch : List α)
  | pop (n : Nat)

/-- A call with its answer. -/
inductive Event (α : Type) where
  | pushed (batch : List α) (admitted : Bool)
  | popped (n : Nat) (items : List α)

def Event.call : Event α → Call α
  | .pushed batch _ => .push batch
  | .popped n _ => .pop n

/-- What has gone in. -/
def admitted (events : List (Event α)) : List α :=
  events.flatMap fun
    | .pushed batch true => batch
    | _ => []

/-- What has come out. -/
def popped (events : List (Event α)) : List α :=
  events.flatMap fun
    | .popped _ items => items
    | _ => []

/-! ## Lists that are served first in, first out -/

/-- One answer of a list of at most `capacity` items. -/
inductive FifoStep (capacity : Nat) : List α → Event α → List α → Prop where
  | accept {content batch : List α} : content.length + batch.length ≤ capacity →
      FifoStep capacity content (.pushed batch true) (content ++ batch)
  | refuse {content batch : List α} : capacity < content.length + batch.length →
      FifoStep capacity content (.pushed batch false) content
  | pop {n : Nat} {items rest : List α} : items.length = min n (items ++ rest).length →
      FifoStep capacity (items ++ rest) (.popped n items) rest

inductive FifoSteps (capacity : Nat) : List α → List (Event α) → List α → Prop where
  | nil (content : List α) : FifoSteps capacity content [] content
  | cons {content next final : List α} {e : Event α} {events : List (Event α)} :
      FifoStep capacity content e next → FifoSteps capacity next events final →
      FifoSteps capacity content (e :: events) final

variable {capacity : Nat} {content final : List α} {e : Event α} {events : List (Event α)}

theorem FifoStep.length_le (h : FifoStep capacity content e final)
    (hc : content.length ≤ capacity) : final.length ≤ capacity := by
  cases h with
  | accept hle => rwa [List.length_append]
  | refuse => exact hc
  | pop =>
    rw [List.length_append] at hc
    omega

theorem FifoStep.conserved (h : FifoStep capacity content e final) :
    content ++ admitted [e] = popped [e] ++ final := by
  cases h with
  | accept | refuse | pop => simp [admitted, popped]

/-- A call has one answer, and leaves one list. -/
theorem FifoStep.unique {e' : Event α} {final' : List α} (h : FifoStep capacity content e final)
    (h' : FifoStep capacity content e' final') (hcall : e.call = e'.call) :
    e = e' ∧ final = final' := by
  cases h with
  | accept hle =>
    cases h' with
    | accept =>
      cases hcall
      exact ⟨rfl, rfl⟩
    | refuse hlt =>
      cases hcall
      exact absurd hle (Nat.not_le.2 hlt)
    | pop => cases hcall
  | refuse hlt =>
    cases h' with
    | accept hle =>
      cases hcall
      exact absurd hle (Nat.not_le.2 hlt)
    | refuse =>
      cases hcall
      exact ⟨rfl, rfl⟩
    | pop => cases hcall
  | @pop n items _ hlen =>
    generalize hcontent : items ++ final = content at h' hlen
    cases h' with
    | accept | refuse => cases hcall
    | pop hlen' =>
      cases hcall
      obtain ⟨rfl, rfl⟩ := List.append_inj hcontent (hlen.trans hlen'.symm)
      exact ⟨rfl, rfl⟩

theorem FifoSteps.length_le (h : FifoSteps capacity content events final)
    (hc : content.length ≤ capacity) : final.length ≤ capacity := by
  induction h with
  | nil => exact hc
  | cons hstep _ ih => exact ih (hstep.length_le hc)

/-- What was there and has gone in is what has come out and what is left, in this order. -/
theorem FifoSteps.conserved (h : FifoSteps capacity content events final) :
    content ++ admitted events = popped events ++ final := by
  induction h with
  | nil content => simp [admitted, popped]
  | @cons content next final e events hstep _ ih =>
    calc content ++ admitted (e :: events)
        = (content ++ admitted [e]) ++ admitted events := by simp [admitted]
      _ = popped [e] ++ (next ++ admitted events) := by rw [hstep.conserved, List.append_assoc]
      _ = popped (e :: events) ++ final := by rw [ih]; simp [popped]

theorem FifoSteps.unique {events' : List (Event α)} {final' : List α}
    (h : FifoSteps capacity content events final) (h' : FifoSteps capacity content events' final')
    (hcalls : events.map Event.call = events'.map Event.call) :
    events = events' ∧ final = final' := by
  induction h generalizing events' with
  | nil =>
    cases h' with
    | nil => exact ⟨rfl, rfl⟩
    | cons => cases hcalls
  | cons hstep _ ih =>
    cases h' with
    | nil => cases hcalls
    | cons hstep' hsteps' =>
      obtain ⟨hcall, hrest⟩ := List.cons.inj hcalls
      obtain ⟨rfl, rfl⟩ := hstep.unique hstep' hcall
      obtain ⟨rfl, rfl⟩ := ih hsteps' hrest
      exact ⟨rfl, rfl⟩

/-! ## What a queue answers -/

def serve (q : BoundedQueue α) : Call α → Event α × BoundedQueue α
  | .push batch =>
    let (admitted, q) := q.pushMany batch
    (.pushed batch admitted, q)
  | .pop n =>
    let (items, q) := q.popMany n
    (.popped n items, q)

/-- One call after the other. -/
def serveAll (q : BoundedQueue α) : List (Call α) → List (Event α) × BoundedQueue α
  | [] => ([], q)
  | c :: calls =>
    let (e, q) := q.serve c
    let (events, q) := q.serveAll calls
    (e :: events, q)

theorem call_serve (q : BoundedQueue α) (c : Call α) : (q.serve c).1.call = c := by
  cases c <;> rfl

theorem capacity_serve (q : BoundedQueue α) (c : Call α) : (q.serve c).2.capacity = q.capacity := by
  cases c with
  | push batch => exact q.capacity_pushMany batch
  | pop n => exact q.capacity_popMany n

theorem fifoStep_serve (q : BoundedQueue α) (c : Call α) :
    FifoStep q.capacity q.toList (q.serve c).1 (q.serve c).2.toList := by
  cases c with
  | push batch =>
    simp only [serve]
    by_cases h : q.capacity < q.size + batch.length
    · rw [pushMany_of_lt h]
      exact .refuse (by rwa [length_toList])
    · obtain ⟨q', hpush, hq', -⟩ := pushMany_of_le (Nat.not_lt.1 h)
      rw [hpush, hq']
      exact .accept (by rw [length_toList]; exact Nat.not_lt.1 h)
  | pop n =>
    simp only [serve]
    rw [popMany_fst, toList_popMany]
    have hsplit := List.take_append_drop n q.toList
    have hstep : FifoStep q.capacity (q.toList.take n ++ q.toList.drop n)
        (.popped n (q.toList.take n)) (q.toList.drop n) :=
      .pop (by rw [hsplit, List.length_take])
    rwa [hsplit] at hstep

theorem calls_serveAll (q : BoundedQueue α) (calls : List (Call α)) :
    (q.serveAll calls).1.map Event.call = calls := by
  induction calls generalizing q with
  | nil => rfl
  | cons c calls ih => simp only [serveAll, List.map_cons, call_serve, ih]

theorem capacity_serveAll (q : BoundedQueue α) (calls : List (Call α)) :
    (q.serveAll calls).2.capacity = q.capacity := by
  induction calls generalizing q with
  | nil => rfl
  | cons c calls ih => exact (ih _).trans (q.capacity_serve c)

theorem fifoSteps_serveAll (q : BoundedQueue α) (calls : List (Call α)) :
    FifoSteps q.capacity q.toList (q.serveAll calls).1 (q.serveAll calls).2.toList := by
  induction calls generalizing q with
  | nil => exact .nil q.toList
  | cons c calls ih =>
    have hrest := ih (q.serve c).2
    rw [capacity_serve] at hrest
    exact .cons (q.fifoStep_serve c) hrest

/-- A queue of that capacity, first empty, has answered these calls with these events. -/
structure ServedFifo (capacity : Nat) (calls : List (Call α)) (events : List (Event α))
    (q : BoundedQueue α) : Prop where
  calls_eq : events.map Event.call = calls
  steps : FifoSteps capacity [] events q.toList
  /-- A list that is served first in, first out gives the same answers and has the same content. -/
  only : ∀ es content, es.map Event.call = calls → FifoSteps capacity [] es content →
    es = events ∧ content = q.toList
  size_le : q.size ≤ capacity
  refused_iff : ∀ batch, (q.pushMany batch).1 = false ↔ capacity < q.size + batch.length
  refused : ∀ batch, (q.pushMany batch).1 = false → (q.pushMany batch).2 = q
  admitted : ∀ batch, (q.pushMany batch).1 = true → (q.pushMany batch).2.toList = q.toList ++ batch
  popped_length : ∀ n, (q.popMany n).1.length = min n q.size
  conserved : popped events ++ q.toList = BoundedQueue.admitted events

/-- Whatever a queue is asked, it answers first in, first out, and never has more than its capacity. -/
theorem serveAll_fifo (capacity : Nat) (calls : List (Call α)) :
    ServedFifo capacity calls ((empty capacity).serveAll calls).1
      ((empty capacity).serveAll calls).2 := by
  have hcalls := calls_serveAll (empty capacity : BoundedQueue α) calls
  have hsteps := fifoSteps_serveAll (empty capacity : BoundedQueue α) calls
  have hcapacity := capacity_serveAll (empty capacity : BoundedQueue α) calls
  generalize (empty capacity).serveAll calls = served at hcalls hsteps hcapacity ⊢
  obtain ⟨events, q⟩ := served
  obtain rfl : q.capacity = capacity := hcapacity
  exact {
    calls_eq := hcalls
    steps := hsteps
    only := fun es content hes hfifo => hfifo.unique hsteps (hes.trans hcalls.symm)
    size_le := by rw [← length_toList]; exact hsteps.length_le (Nat.zero_le _)
    refused_iff := q.pushMany_fst
    refused := fun batch h => by rw [pushMany_of_lt ((q.pushMany_fst batch).1 h)]
    admitted := fun batch h => by
      have hfits : ¬q.capacity < q.size + batch.length := by
        rw [← q.pushMany_fst, h]
        decide
      rw [toList_pushMany, if_neg hfits]
    popped_length := q.length_popMany
    conserved := hsteps.conserved.symm
  }

/-- The second batch does not fit before an item has come out. -/
example : ((empty 3).serveAll [.push [1, 2], .push [3, 4], .pop 1, .push [3, 4]]).1 =
    [.pushed [1, 2] true, .pushed [3, 4] false, .popped 1 [1], .pushed [3, 4] true] := rfl

end MetricRelay.BoundedQueue
