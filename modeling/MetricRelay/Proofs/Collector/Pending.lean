import Mathlib.Data.List.DropRight
import MetricRelay.Sample

/-!
# Where pushed samples go

A sample that is pushed on a list is taken out by the next call that empties the list, or is in the list
still if there is none: that is its `Place`. Such a call finds just the samples with its place, and these
are all that was pushed `since` the last such call before it (`delivers_once`).
-/

namespace MetricRelay.SampleList

/-! ## Calls -/

inductive Call where
  | push (s : Sample)
  | pushReading (source metric : String) (value : Value) (labels : Labels)
  | pushMany (samples : List Sample)
  | drain
  | discard

inductive Answer where
  | done
  | drained (samples : List Sample)
  | discarded (count : Nat)

/-- What a call pushes, in this order. -/
def Call.samples : Call → List Sample
  | .push s => [s]
  | .pushReading source metric value labels => [{ source, metric, value, labels }]
  | .pushMany samples => samples
  | .drain | .discard => []

def Call.empties : Call → Bool
  | .drain | .discard => true
  | _ => false

def perform (l : SampleList) : Call → Answer × SampleList
  | .push s => (.done, l.push s)
  | .pushReading source metric value labels => (.done, l.pushReading source metric value labels)
  | .pushMany samples => (.done, l.pushMany samples)
  | .drain =>
    let (samples, l) := l.drain
    (.drained samples, l)
  | .discard =>
    let (count, l) := l.discard
    (.discarded count, l)

/-- One call after the other. -/
def run (l : SampleList) (calls : List Call) : SampleList :=
  calls.foldl (fun l c => (l.perform c).2) l

def answers (l : SampleList) : List Call → List Answer
  | [] => []
  | c :: calls => (l.perform c).1 :: answers (l.perform c).2 calls

variable {l : SampleList} {c : Call} {calls : List Call} {n k : Nat}

theorem samples_of_empties (h : c.empties = true) : c.samples = [] := by
  cases c with
  | drain | discard => rfl
  | push | pushReading | pushMany => cases h

theorem perform_of_empties (h : c.empties = true) : (l.perform c).2 = empty := by
  cases c with
  | drain | discard => rfl
  | push | pushReading | pushMany => cases h

theorem toList_perform (l : SampleList) (c : Call) :
    (l.perform c).2.toList = if c.empties then [] else l.toList ++ c.samples := by
  cases c with
  | push | pushReading | pushMany => simp [perform, pushReading, Call.empties, Call.samples]
  | drain | discard => rfl

/-- Each call is answered by the list that the calls before it have left. -/
theorem getElem?_answers (l : SampleList) (calls : List Call) (k : Nat) :
    (l.answers calls)[k]? = calls[k]?.map fun c => ((l.run (calls.take k)).perform c).1 := by
  induction calls generalizing l k with
  | nil => rfl
  | cons c calls ih =>
    cases k with
    | zero => rfl
    | succ k => exact ih (l.perform c).2 k

theorem run_take_succ (h : calls[k]? = some c) :
    l.run (calls.take (k + 1)) = ((l.run (calls.take k)).perform c).2 := by
  rw [run, List.take_add_one, h, Option.toList_some, List.foldl_append]
  rfl

/-! ## Since the list was empty -/

/-- All that is pushed, in order. -/
def pushed (calls : List Call) : List Sample := calls.flatMap Call.samples

/-- What is pushed after the last call that empties the list. -/
def since (calls : List Call) : List Sample := pushed (calls.rtakeWhile fun c => !c.empties)

theorem toList_run (calls : List Call) : (empty.run calls).toList = since calls := by
  -- `since` looks back, so that the last call is taken first
  induction calls using List.reverseRecOn with
  | nil => rfl
  | append_singleton calls c ih =>
    rw [run, List.foldl_append, List.foldl_cons, List.foldl_nil, toList_perform, since,
      List.rtakeWhile_concat]
    cases c.empties with
    | true => rfl
    | false =>
      show (empty.run calls).toList ++ c.samples = pushed (calls.rtakeWhile _ ++ [c])
      rw [ih, pushed, List.flatMap_append, List.flatMap_singleton]
      rfl

/-! ## Places -/

inductive Place where
  /-- The call of that number took it out. -/
  | takenBy (call : Nat)
  | pending
  deriving DecidableEq

/-- Where that goes which is in a list before these calls, the first of which has the number `n`. -/
def destiny (n : Nat) : List Call → Place
  | [] => .pending
  | c :: calls => if c.empties then .takenBy n else destiny (n + 1) calls

/-- All that is pushed, in order, each sample with its place. -/
def placed (n : Nat) : List Call → List (Sample × Place)
  | [] => []
  | c :: calls => c.samples.map (fun s => (s, destiny (n + 1) calls)) ++ placed (n + 1) calls

def samplesAt (p : Place) (entries : List (Sample × Place)) : List Sample :=
  (entries.filter fun e => e.2 = p).map Prod.fst

theorem samplesAt_append (p : Place) (entries more : List (Sample × Place)) :
    samplesAt p (entries ++ more) = samplesAt p entries ++ samplesAt p more := by
  simp [samplesAt]

theorem samplesAt_map (p q : Place) (samples : List Sample) :
    samplesAt p (samples.map fun s => (s, q)) = if q = p then samples else [] := by
  unfold samplesAt
  rw [List.filter_map, List.map_map]
  by_cases h : q = p <;> simp [Function.comp_def, h]

theorem map_fst_placed (n : Nat) (calls : List Call) :
    (placed n calls).map Prod.fst = pushed calls := by
  induction calls generalizing n with
  | nil => rfl
  | cons c calls ih => simp [placed, pushed, ih, Function.comp_def]

/-- A place is the list or a call that empties it. -/
theorem destiny_cases (n : Nat) (calls : List Call) :
    destiny n calls = .pending ∨
      ∃ k c, destiny n calls = .takenBy (n + k) ∧ calls[k]? = some c ∧ c.empties = true := by
  induction calls generalizing n with
  | nil => exact .inl rfl
  | cons c calls ih =>
    rw [destiny]
    split
    · next h => exact .inr ⟨0, c, rfl, rfl, h⟩
    · refine (ih (n + 1)).imp_right ?_
      rintro ⟨k, c', hplace, hc', hempties⟩
      exact ⟨k + 1, c', by rw [hplace, Nat.add_right_comm, Nat.add_assoc], hc', hempties⟩

theorem mem_placed {e : Sample × Place} (h : e ∈ placed n calls) :
    e.2 = .pending ∨ ∃ k c, e.2 = .takenBy (n + k) ∧ calls[k]? = some c ∧ c.empties = true := by
  induction calls generalizing n with
  | nil => cases h
  | cons c calls ih =>
    have hplace : e.2 = .pending ∨ ∃ k c,
        e.2 = .takenBy (n + 1 + k) ∧ calls[k]? = some c ∧ c.empties = true := by
      rcases List.mem_append.1 h with hnew | hlater
      · obtain ⟨s, -, rfl⟩ := List.mem_map.1 hnew
        exact destiny_cases (n + 1) calls
      · exact ih hlater
    refine hplace.imp_right ?_
    rintro ⟨k, c', hk, hc', hempties⟩
    exact ⟨k + 1, c', by rw [hk, Nat.add_assoc, Nat.add_comm 1], hc', hempties⟩

/-- Nothing goes to a call that has been before. -/
theorem samplesAt_placed_of_lt (h : k < n) : samplesAt (.takenBy k) (placed n calls) = [] := by
  rw [samplesAt, List.map_eq_nil_iff, List.filter_eq_nil_iff]
  intro e he htaken
  rcases mem_placed he with hpending | ⟨j, -, hj, -⟩
  · simp [hpending] at htaken
  · simp only [hj, decide_eq_true_eq, Place.takenBy.injEq] at htaken
    omega

/-- What is in a list before these calls, and what they push, each sample with its place. -/
def held (l : SampleList) (n : Nat) (calls : List Call) : List (Sample × Place) :=
  l.toList.map (fun s => (s, destiny n calls)) ++ placed n calls

/-- What one call does: a sample that it does not take out is as well placed in the list it leaves. -/
theorem held_cons (l : SampleList) (n : Nat) (c : Call) (calls : List Call) :
    held l n (c :: calls) =
      (if c.empties then l.toList.map fun s => (s, .takenBy n) else []) ++
        held (l.perform c).2 (n + 1) calls := by
  unfold held
  rw [toList_perform, destiny, placed]
  split
  · next h => rw [samples_of_empties h]
  · rw [List.nil_append, List.map_append, List.append_assoc]

theorem samplesAt_held_cons {p : Place} (h : p ≠ .takenBy n) :
    samplesAt p (held l n (c :: calls)) = samplesAt p (held (l.perform c).2 (n + 1) calls) := by
  rw [held_cons, samplesAt_append]
  split
  · rw [samplesAt_map, if_neg h.symm, List.nil_append]
  · rfl

/-- What is in the list before a call that empties it has the place of that call. -/
theorem samplesAt_takenBy (hc : calls[k]? = some c) (h : c.empties = true) :
    samplesAt (.takenBy (n + k)) (held l n calls) = (l.run (calls.take k)).toList := by
  -- the list goes along with the calls: what they have pushed so far is in it, with the same place
  induction calls generalizing l n k with
  | nil => cases hc
  | cons c' calls ih =>
    cases k with
    | zero =>
      obtain rfl : c' = c := Option.some.inj hc
      have hlater : samplesAt (.takenBy n) (held (l.perform c').2 (n + 1) calls) = [] := by
        rw [perform_of_empties h]
        exact samplesAt_placed_of_lt (Nat.lt_succ_self n)
      rw [held_cons, samplesAt_append, if_pos h, Nat.add_zero, samplesAt_map, if_pos rfl, hlater,
        List.append_nil]
      rfl
    | succ k =>
      have hnumber : n + (k + 1) = n + 1 + k := by omega
      have hother : Place.takenBy (n + 1 + k) ≠ .takenBy n := by
        rw [ne_eq, Place.takenBy.injEq]
        omega
      rw [hnumber, samplesAt_held_cons hother]
      exact ih hc

theorem samplesAt_pending (l : SampleList) (n : Nat) (calls : List Call) :
    samplesAt .pending (held l n calls) = (l.run calls).toList := by
  induction calls generalizing l n with
  | nil =>
    rw [held, samplesAt_append, samplesAt_map]
    exact List.append_nil _
  | cons c calls ih =>
    have hother : Place.pending ≠ .takenBy n := nofun
    rw [samplesAt_held_cons hother]
    exact ih (l.perform c).2 (n + 1)

/-! ## Once and in order -/

/-- The call of that number finds these samples in the list, all that was pushed since the list was
emptied last, and leaves it empty. -/
structure Finds (calls : List Call) (k : Nat) (found : List Sample) : Prop where
  before : (empty.run (calls.take k)).toList = found
  found_eq : found = since (calls.take k)
  after : empty.run (calls.take (k + 1)) = empty

/-- Each sample that is pushed has one place, and what has a place is found there in the order it was
pushed: by the call that takes it out, or in the list at the end. -/
structure DeliversOnce (calls : List Call) : Prop where
  placed : (placed 0 calls).map Prod.fst = pushed calls
  places : ∀ e ∈ SampleList.placed 0 calls, e.2 = .pending ∨
    ∃ k c, e.2 = .takenBy k ∧ calls[k]? = some c ∧ c.empties = true
  drained : ∀ k, calls[k]? = some .drain →
    let found := samplesAt (.takenBy k) (SampleList.placed 0 calls)
    Finds calls k found ∧ (empty.answers calls)[k]? = some (.drained found)
  discarded : ∀ k, calls[k]? = some .discard →
    let found := samplesAt (.takenBy k) (SampleList.placed 0 calls)
    Finds calls k found ∧ (empty.answers calls)[k]? = some (.discarded found.length)
  pending : (empty.run calls).toList = samplesAt .pending (SampleList.placed 0 calls) ∧
    (empty.run calls).toList = since calls

theorem finds (hc : calls[k]? = some c) (h : c.empties = true) :
    Finds calls k (samplesAt (.takenBy k) (placed 0 calls)) := by
  have hfound := samplesAt_takenBy (l := empty) (n := 0) hc h
  rw [Nat.zero_add] at hfound
  refine ⟨hfound.symm, hfound.trans (toList_run _), ?_⟩
  rw [run_take_succ hc, perform_of_empties h]

/-- Whatever is called, a list delivers each sample once, the oldest first, or says how many it drops. -/
theorem delivers_once (calls : List Call) : DeliversOnce calls where
  placed := map_fst_placed 0 calls
  places e he := by simpa using mem_placed he
  drained k hk := by
    have hfinds := finds hk rfl
    refine ⟨hfinds, ?_⟩
    rw [getElem?_answers, hk, Option.map_some, ← hfinds.before]
    rfl
  discarded k hk := by
    have hfinds := finds hk rfl
    refine ⟨hfinds, ?_⟩
    rw [getElem?_answers, hk, Option.map_some, ← hfinds.before, length_toList]
    rfl
  pending := ⟨(samplesAt_pending empty 0 calls).symm, toList_run calls⟩

/-- Both ways to empty a list, and a list with nothing in it. -/
example (a b c : Sample) : empty.answers [.pushMany [a, b], .drain, .push c, .discard, .drain] =
    [.done, .drained [a, b], .done, .discarded 1, .drained []] := rfl

end MetricRelay.SampleList
