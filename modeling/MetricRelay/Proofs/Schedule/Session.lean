import MetricRelay.Proofs.Schedule.Lane
import MetricRelay.Schedule.Rehearsal

/-!
# Sessions with a scheduler

A `Session` is a rehearsal together with the calls that the host has made so far, over or not. `Step`
is one thing that happens: a call, a call that goes on, a move of one lane, or time that passes. Lanes
move in any order, and as late as they like; `allowed` says which calls the host may make.

`Rehearsal.moves_advance` says that advancing a rehearsal makes such moves.
-/

namespace MetricRelay

open Schedule

def Scheduler.leavingOf {ω β : Type} (s : Scheduler ω β) (name : String) : List (Lane ω β) :=
  (s.leaving.filter fun d => d.name = name).map Departure.lane

/-- The lanes under a name: of the task, and those that leave. -/
def Scheduler.lanesOf {ω β : Type} (s : Scheduler ω β) (name : String) : List (Lane ω β) :=
  ((s.tasks.get? name).map Task.lane).toList ++ s.leavingOf name

namespace Schedule

namespace Rehearsal

/-! ## Moves -/

/-- A task's lane is replaced, with what has happened in it. -/
def withTask (r : Rehearsal) (name : String) (t : Task Run Job) (lane : TimedLane)
    (hs : List Happening) : Rehearsal :=
  { r with
    scheduler := { r.scheduler with tasks := r.scheduler.tasks.insert name { t with lane } }
    events := r.events ++ hs.map (TaskEvent.mk name) }

/-- The same for a lane that leaves, between `before` and `after`. -/
def withDeparture (r : Rehearsal) (before : List (Departure Run Job)) (d : Departure Run Job)
    (after : List (Departure Run Job)) (lane : TimedLane) (hs : List Happening) : Rehearsal :=
  { r with
    scheduler := { r.scheduler with leaving := before ++ { d with lane } :: after }
    events := r.events ++ hs.map (TaskEvent.mk d.name) }

/-- What can happen without a call. A lane's clock may be ahead of the rehearsal's. -/
inductive Move (r : Rehearsal) : Rehearsal → Prop where
  | task {name : String} {t : Task Run Job} {now horizon : Nat} {m : Moment} :
      r.scheduler.tasks.get? name = some t → r.now ≤ now →
      (Moment.mk now t.lane []).step? horizon = some m →
      Move r (r.withTask name t m.lane m.past.reverse)
  | departure {before after : List (Departure Run Job)} {d : Departure Run Job}
      {now horizon : Nat} {m : Moment} :
      r.scheduler.leaving = before ++ d :: after → r.now ≤ now →
      (Moment.mk now d.lane []).step? horizon = some m →
      Move r (r.withDeparture before d after m.lane m.past.reverse)
  /-- Lanes that have ended are forgotten. -/
  | forget : Move r { r with scheduler := r.scheduler.forgetEnded }
  | pass {now : Nat} : r.now ≤ now → Move r { r with now }

inductive Moves : Rehearsal → Rehearsal → Prop where
  | refl (r : Rehearsal) : Moves r r
  | tail {r q p : Rehearsal} : Moves r q → Move q p → Moves r p

theorem Moves.trans {r q p : Rehearsal} (h : Moves r q) (h' : Moves q p) : Moves r p := by
  induction h' with
  | refl => exact h
  | tail _ hm ih => exact .tail ih hm

/-- What each move keeps, all of them keep. -/
theorem Moves.induct {P : Rehearsal → Prop} (hP : ∀ q p, P q → Move q p → P p) {r r' : Rehearsal}
    (h : Moves r r') (hr : P r) : P r' := by
  induction h with
  | refl => exact hr
  | tail _ hm ih => exact hP _ _ ih hm

/-! ## Advancing -/

/-- That a move of a lane is a move of the whole when the lane is in such a place. -/
def Moving (start : Nat) (place : TimedLane → List Happening → Rehearsal) : Prop :=
  ∀ l hs now horizon m, start ≤ now → (Moment.mk now l []).step? horizon = some m →
    Move (place l hs) (place m.lane (hs ++ m.past.reverse))

theorem Moving.moves {start now : Nat} {place : TimedLane → List Happening → Rehearsal}
    (hp : Moving start place) (hn : start ≤ now) (horizon limit : Nat) (l : TimedLane)
    (hs : List Happening) :
    Moves (place l hs) (place ((Moment.mk now l []).moves horizon limit).lane
      (hs ++ ((Moment.mk now l []).moves horizon limit).past.reverse)) := by
  induction limit generalizing now l hs with
  | zero =>
    rw [Moment.moves, List.reverse_nil, List.append_nil]
    exact .refl _
  | succ limit ih =>
    unfold Moment.moves
    cases hm : (Moment.mk now l []).step? horizon with
    | none =>
      simp only [List.reverse_nil, List.append_nil]
      exact .refl _
    | some m =>
      have hnow : now ≤ m.now := (Moment.move_of_step? hm).le_now
      have hrest := ih (Nat.le_trans hn hnow) m.lane (hs ++ m.past.reverse)
      have hpast := Moment.moves_past horizon limit m.now m.lane m.past
      simp only [hpast, List.reverse_append, ← List.append_assoc]
      exact Moves.trans (.tail (.refl _) (hp l hs now horizon m hn hm)) hrest

theorem Moving.advance {start : Nat} {place : TimedLane → List Happening → Rehearsal}
    (hp : Moving start place) (target : Nat) (l : TimedLane) :
    Moves (place l []) (place (l.advance start target).1 (l.advance start target).2) := by
  have h := hp.moves (Nat.le_refl start) target ((Moment.mk start l []).rank target) l []
  rwa [List.nil_append] at h

theorem moves_task {r : Rehearsal} {name : String} {t : Task Run Job}
    (ht : r.scheduler.tasks.get? name = some t) (target : Nat) :
    Moves r (r.withTask name t (t.lane.advance r.now target).1
      (t.lane.advance r.now target).2) := by
  have hself : r.withTask name t t.lane [] = r := by
    unfold withTask
    rw [Table.insert_of_get? ht, List.map_nil, List.append_nil]
  have hp : Moving r.now (r.withTask name t) := by
    intro l hs now horizon m hn hm
    have hget : (r.withTask name t l hs).scheduler.tasks.get? name = some { t with lane := l } :=
      Table.get?_insert_self ..
    have hmove := Move.task hget hn hm
    simpa [withTask, List.append_assoc] using hmove
  have h := hp.advance target t.lane
  rwa [hself] at h

theorem moves_departure {r : Rehearsal} {before after : List (Departure Run Job)}
    {d : Departure Run Job} (hl : r.scheduler.leaving = before ++ d :: after) (target : Nat) :
    Moves r (r.withDeparture before d after (d.lane.advance r.now target).1
      (d.lane.advance r.now target).2) := by
  have hself : r.withDeparture before d after d.lane [] = r := by
    unfold withDeparture
    rw [← hl, List.map_nil, List.append_nil]
  have hp : Moving r.now (r.withDeparture before d after) := by
    intro l hs now horizon m hn hm
    have hleaving : (r.withDeparture before d after l hs).scheduler.leaving =
        before ++ { d with lane := l } :: after := rfl
    have hmove := Move.departure hleaving hn hm
    simpa [withDeparture, List.append_assoc] using hmove
  have h := hp.advance target d.lane
  rwa [hself] at h

/-- Lanes that leave, one after the other; those before have been moved on already. -/
theorem moves_departures (r : Rehearsal) (target : Nat) {before after : List (Departure Run Job)}
    (hl : r.scheduler.leaving = before ++ after) :
    Moves r { r with
      scheduler := { r.scheduler with
        leaving := before ++ (after.map (moveDeparture r.now target)).map Prod.fst }
      events := r.events ++ (after.map (moveDeparture r.now target)).flatMap Prod.snd } := by
  induction after generalizing r before with
  | nil =>
    simp only [List.map_nil, List.flatMap_nil, ← hl, List.append_nil]
    exact .refl r
  | cons d rest ih =>
    have hfirst := moves_departure hl target
    have hleaving : (r.withDeparture before d rest (d.lane.advance r.now target).1
        (d.lane.advance r.now target).2).scheduler.leaving =
        (before ++ [(moveDeparture r.now target d).1]) ++ rest := by
      simp [withDeparture, moveDeparture]
    have h := hfirst.trans (ih _ hleaving)
    simpa [withDeparture, moveDeparture, List.append_assoc] using h

theorem moves_tasks (r : Rehearsal) (target : Nat) {es : List (String × Task Run Job)}
    (hes : Ascending es) (hget : ∀ e ∈ es, r.scheduler.tasks.get? e.1 = some e.2) :
    Moves r { r with
      scheduler := { r.scheduler with
        tasks := es.foldl (fun t e => t.insert e.1 (moveTask r.now target e.2).1)
          r.scheduler.tasks }
      events := r.events ++
        es.flatMap fun e => (moveTask r.now target e.2).2.map (TaskEvent.mk e.1) } := by
  induction es generalizing r with
  | nil =>
    simp only [List.foldl_nil, List.flatMap_nil, List.append_nil]
    exact .refl r
  | cons e rest ih =>
    have ⟨hlt, hrest⟩ := List.pairwise_cons.1 hes
    have hfirst := moves_task (hget e List.mem_cons_self) target
    have hkeep : ∀ a ∈ rest, (r.withTask e.1 e.2 (e.2.lane.advance r.now target).1
        (e.2.lane.advance r.now target).2).scheduler.tasks.get? a.1 = some a.2 := by
      intro a ha
      have hne : a.1 ≠ e.1 := fun h => String.lt_irrefl e.1 (h ▸ hlt a ha)
      rw [withTask, Table.get?_insert, if_neg hne]
      exact hget a (List.mem_cons_of_mem _ ha)
    have h := hfirst.trans (ih _ hrest hkeep)
    simpa [withTask, moveTask, List.append_assoc] using h

/-- Advancing makes moves only. -/
theorem moves_advance {r : Rehearsal} {target : Nat} (h : r.now ≤ target) :
    Moves r (r.advance target) := by
  refine Moves.trans (moves_departures r target (List.nil_append r.scheduler.leaving).symm) ?_
  refine Moves.trans (moves_tasks _ target r.scheduler.tasks.ascending
    fun e he => Table.get?_of_mem he) ?_
  refine .tail (.tail (.refl _) (.pass h)) ?_
  have hfold := Table.foldl_insert_entries r.scheduler.tasks
    fun t => (moveTask r.now target t).1
  have hmap : (r.scheduler.tasks.map (moveTask r.now target)).map Prod.fst =
      r.scheduler.tasks.map fun t => (moveTask r.now target t).1 := by
    refine Table.ext_get? fun k => ?_
    rw [Table.get?_map, Table.get?_map, Table.get?_map, Option.map_map]
    rfl
  have hevents : (r.scheduler.tasks.map (moveTask r.now target)).entries.flatMap
      (fun e => e.2.2.map (TaskEvent.mk e.1)) = r.scheduler.tasks.entries.flatMap
        fun e => (moveTask r.now target e.2).2.map (TaskEvent.mk e.1) := by
    unfold Table.map
    rw [List.flatMap_map]
  unfold advance
  simp only [hfold, hmap, hevents, List.nil_append, ← List.append_assoc]
  exact .forget

end Rehearsal

/-! ## Stopping in turn -/

/-- The departure that a call waits for. -/
def Progress.departure? : Progress → Option Nat
  | .finished _ => none
  | .waiting id _ _ => some id

/-- The tasks that a call is still to stop, after the one it waits for. -/
def Progress.more : Progress → List String
  | .finished _ => []
  | .waiting _ more _ => more

namespace Rehearsal

/-- A task is taken out of the table. -/
def depart (r : Rehearsal) (name : String) (t : Task Run Job) : Rehearsal :=
  { r with
    scheduler :=
      { tasks := r.scheduler.tasks.erase name
        leaving := r.scheduler.leaving ++ [⟨r.scheduler.stops, name, t.lane.cancel⟩]
        stops := r.scheduler.stops + 1 } }

/-- How tasks are stopped one by one: where the call stands after it, and the rehearsal then. -/
inductive Stopping (a : Answer) : Rehearsal → List String → Progress → Rehearsal → Prop where
  | done (r : Rehearsal) : Stopping a r [] (.finished a) r
  | absent {r r' : Rehearsal} {name : String} {more : List String} {p : Progress} :
      r.scheduler.tasks.get? name = none → Stopping a r more p r' →
      Stopping a r (name :: more) p r'
  /-- The task has no loops left. -/
  | ended {r r' : Rehearsal} {name : String} {t : Task Run Job} {more : List String} {p : Progress} :
      r.scheduler.tasks.get? name = some t → t.lane.isEmpty = true →
      Stopping a (r.depart name t) more p r' → Stopping a r (name :: more) p r'
  | waits {r : Rehearsal} {name : String} {t : Task Run Job} {more : List String} :
      r.scheduler.tasks.get? name = some t →
      Stopping a r (name :: more) (.waiting r.scheduler.stops more a) (r.depart name t)

theorem hasLeft_iff {r : Rehearsal} {id : Nat} : r.scheduler.hasLeft id = true ↔
    ∀ d ∈ r.scheduler.leaving, d.id = id → d.lane.isEmpty = true := by
  unfold Scheduler.hasLeft
  simp only [List.all_eq_true, Bool.or_eq_true, decide_eq_true_eq, ne_eq]
  exact forall₂_congr fun d _ => Decidable.imp_iff_not_or.symm

theorem stopping_stopInTurn (a : Answer) (r : Rehearsal) (names : List String) :
    Stopping a r names (r.stopInTurn a names).1 (r.stopInTurn a names).2 := by
  induction names generalizing r with
  | nil => exact .done r
  | cons name more ih =>
    unfold stopInTurn Scheduler.beginStop
    cases ht : r.scheduler.tasks.get? name with
    | none => exact .absent ht (ih r)
    | some t =>
      simp only
      split
      · next hleft =>
        have hd : (⟨r.scheduler.stops, name, t.lane.cancel⟩ : Departure Run Job) ∈
            (r.depart name t).scheduler.leaving := by simp [depart]
        have hempty := hasLeft_iff.1 hleft _ hd rfl
        rw [Lane.isEmpty_cancel] at hempty
        exact .ended ht hempty (ih (r.depart name t))
      · exact .waits ht

/-- What holds while tasks are taken out of the table holds when they are stopped in turn. -/
theorem Stopping.induct {P : Rehearsal → Prop}
    (hP : ∀ r name t, r.scheduler.tasks.get? name = some t → P r → P (r.depart name t))
    {a : Answer} {r r' : Rehearsal} {names : List String} {p : Progress}
    (h : Stopping a r names p r') (hr : P r) : P r' := by
  induction h with
  | done => exact hr
  | absent _ _ ih => exact ih hr
  | ended ht _ _ ih => exact ih (hP _ _ _ ht hr)
  | waits ht => exact hP _ _ _ ht hr

/-- A call that goes on stays where it is, or stops the rest of its tasks. -/
theorem resume_cases (r : Rehearsal) (p : Progress) :
    r.resume p = (p, r) ∨ ∃ id more a, p = .waiting id more a ∧ r.scheduler.hasLeft id = true ∧
      Stopping a r more (r.resume p).1 (r.resume p).2 := by
  unfold resume
  cases p with
  | finished a => exact .inl rfl
  | waiting id more a =>
    simp only
    split
    · next h => exact .inr ⟨id, more, a, rfl, h, stopping_stopInTurn a r more⟩
    · exact .inl rfl

end Rehearsal

/-! ## Steps -/

structure Session where
  rehearsal : Rehearsal := {}
  /-- Those made so far, oldest first. -/
  calls : List Progress := []

namespace Session

def call (s : Session) (c : Call) : Session where
  rehearsal := (s.rehearsal.begin c).2
  calls := s.calls ++ [(s.rehearsal.begin c).1]

/-- The call at that place goes on. -/
def resume (s : Session) (i : Nat) (p : Progress) : Session where
  rehearsal := (s.rehearsal.resume p).2
  calls := s.calls.set i (s.rehearsal.resume p).1

/-- Time passes, and all lanes move on. -/
def advance (s : Session) (target : Nat) : Session :=
  { s with rehearsal := s.rehearsal.advance target }

/-- Every call is over. -/
def Awaited (s : Session) : Prop := ∀ p ∈ s.calls, p.departure? = none

instance (s : Session) : Decidable s.Awaited :=
  inferInstanceAs (Decidable (∀ p ∈ s.calls, p.departure? = none))

/-- The numbers of the loops under a name that have an invocation in progress. -/
def invocations (s : Session) (name : String) : List Nat :=
  (s.rehearsal.scheduler.lanesOf name).filterMap Lane.invocation?

end Session

/-- What has happened under a name, oldest first. -/
def Rehearsal.happenings (r : Rehearsal) (name : String) : List Happening :=
  (r.events.filter fun e => e.task = name).map TaskEvent.happening

/-- The starts of invocations under a name, oldest first. -/
def Session.starts (s : Session) (name : String) : List Happening :=
  (s.rehearsal.happenings name).filter Happening.isStart

inductive Step (allowed : Session → Call → Prop) (s : Session) : Session → Prop where
  | call {c : Call} : allowed s c → Step allowed s (s.call c)
  | resume {i : Nat} {p : Progress} : s.calls[i]? = some p → Step allowed s (s.resume i p)
  | move {r : Rehearsal} : s.rehearsal.Move r → Step allowed s { s with rehearsal := r }

inductive Steps (allowed : Session → Call → Prop) : Session → Session → Prop where
  | refl (s : Session) : Steps allowed s s
  | tail {s t u : Session} : Steps allowed s t → Step allowed t u → Steps allowed s u

/-- Where a new scheduler can come to. -/
def Reachable (allowed : Session → Call → Prop) (s : Session) : Prop := Steps allowed {} s

/-- Calls may be made while others are under way. -/
def AnyTime (_ : Session) (_ : Call) : Prop := True

/-- Each call is awaited before the next one. -/
def Patient (s : Session) (_ : Call) : Prop := s.Awaited

instance (s : Session) (c : Call) : Decidable (Patient s c) :=
  inferInstanceAs (Decidable s.Awaited)

section

variable {allowed allowed' : Session → Call → Prop} {s t u : Session}

theorem Steps.trans (h : Steps allowed s t) (h' : Steps allowed t u) : Steps allowed s u := by
  induction h' with
  | refl => exact h
  | tail _ hs ih => exact .tail ih hs

theorem Step.mono (ha : ∀ s c, allowed s c → allowed' s c) (h : Step allowed s t) :
    Step allowed' s t := by
  cases h with
  | call hc => exact .call (ha _ _ hc)
  | resume hp => exact .resume hp
  | move hm => exact .move hm

theorem Steps.mono (ha : ∀ s c, allowed s c → allowed' s c) (h : Steps allowed s t) :
    Steps allowed' s t := by
  induction h with
  | refl => exact .refl _
  | tail _ hs ih => exact .tail ih (hs.mono ha)

theorem Steps.call (h : Steps allowed s t) {c : Call} (hc : allowed t c) :
    Steps allowed s (t.call c) := .tail h (.call hc)

theorem Steps.moves (h : Steps allowed s t) {r : Rehearsal} (hm : t.rehearsal.Moves r) :
    Steps allowed s { t with rehearsal := r } := by
  induction hm with
  | refl => exact h
  | tail _ hm ih => exact .tail ih (.move hm)

theorem Steps.advance (h : Steps allowed s t) (target : Nat) (hn : t.rehearsal.now ≤ target) :
    Steps allowed s (t.advance target) := h.moves (Rehearsal.moves_advance hn)

end

end Schedule

end MetricRelay
