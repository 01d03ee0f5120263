import MetricRelay.Schedule.Timeline

/-!
# Rehearsals

A `Rehearsal` runs a scheduler through virtual time, with invocations known by what they take. Time
stands still but for `advance` and for calls that wait: a stop waits for the lane that leaves, and
calls made together wait side by side.
-/

namespace MetricRelay.Schedule

/-- A happening of a task. -/
structure TaskEvent where
  task : String
  happening : Happening
  deriving DecidableEq, Repr

structure Rehearsal where
  /-- In milliseconds. -/
  now : Nat := 0
  scheduler : Scheduler Run Job := {}
  /-- How many runs have been asked for, failed ones included. -/
  runs : Nat := 0
  /-- What has happened, oldest first. -/
  events : List TaskEvent := []

/-- What the host may ask for. -/
inductive Call where
  | add (name : String)
  | run (name : String) (period : Duration) (efforts : List Effort)
  | stop (name : String)
  | stopAll

inductive Answer where
  | done
  | failed (e : Error)
  /-- Whether the stopped task was there. -/
  | stopped (found : Bool)
  deriving DecidableEq

/-- A call that may have to wait. -/
inductive Progress where
  | finished (a : Answer)
  /-- Waits for a departure; then `more` tasks are stopped one by one. -/
  | waiting (id : Nat) (more : List String) (a : Answer)
  deriving DecidableEq

def Progress.answer : Progress → Answer
  | .finished a => a
  | .waiting _ _ a => a

/-- Tasks that are still to be stopped, counting the one waited for. -/
def Progress.left : Progress → Nat
  | .finished _ => 0
  | .waiting _ more _ => more.length + 1

namespace Rehearsal

/-- A lane that leaves, after `target`, and what it does until then. -/
def moveDeparture (now target : Nat) (d : Departure Run Job) : Departure Run Job × List TaskEvent :=
  let (lane, hs) := d.lane.advance now target
  ({ d with lane }, hs.map (TaskEvent.mk d.name))

def moveTask (now target : Nat) (t : Task Run Job) : Task Run Job × List Happening :=
  let (lane, hs) := t.lane.advance now target
  ({ t with lane }, hs)

/-- Moves every lane on to `target`. -/
def advance (r : Rehearsal) (target : Nat) : Rehearsal :=
  let s := r.scheduler
  let departures := s.leaving.map (moveDeparture r.now target)
  let tasks := s.tasks.map (moveTask r.now target)
  let events := departures.flatMap Prod.snd ++
    tasks.entries.flatMap fun e => e.2.2.map (TaskEvent.mk e.1)
  let s := { s with tasks := tasks.map Prod.fst, leaving := departures.map Prod.fst }
  { now := target, scheduler := s.forgetEnded, runs := r.runs, events := r.events ++ events }

/-- All that can happen at this instant. -/
def settle (r : Rehearsal) : Rehearsal := r.advance r.now

/-! ## Calls -/

/-- Stops tasks one by one, up to the first that has to be waited for. -/
def stopInTurn (a : Answer) (r : Rehearsal) : List String → Progress × Rehearsal
  | [] => (.finished a, r)
  | name :: more =>
    match r.scheduler.beginStop name with
    | (none, _) => stopInTurn a r more
    | (some id, s) =>
      let r := { r with scheduler := s }
      if s.hasLeft id then stopInTurn a r more else (.waiting id more a, r)

/-- Begins a call; most are over at once. -/
def begin (r : Rehearsal) : Call → Progress × Rehearsal
  | .add name => (.finished .done, { r with scheduler := r.scheduler.add name })
  | .run name period efforts =>
    let (result, s) := r.scheduler.run name period ⟨r.runs, efforts, 0⟩
    let r := { r with scheduler := s, runs := r.runs + 1 }
    (.finished (match result with
      | .ok _ => .done
      | .error e => .failed e), r)
  | .stop name => stopInTurn (.stopped (r.scheduler.exists? name)) r [name]
  | .stopAll => stopInTurn .done r r.scheduler.tasks.keys

/-- Goes on with a call, if what it waits for has come about. -/
def resume (r : Rehearsal) (p : Progress) : Progress × Rehearsal :=
  match p with
  | .finished a => (.finished a, r)
  | .waiting id more a =>
    if r.scheduler.hasLeft id then stopInTurn a r more else (.waiting id more a, r)

def beginAll (r : Rehearsal) : List Call → List Progress × Rehearsal
  | [] => ([], r)
  | c :: more =>
    let (p, r) := r.begin c
    let (ps, r) := r.beginAll more
    (p :: ps, r)

def resumeAll (r : Rehearsal) : List Progress → List Progress × Rehearsal
  | [] => ([], r)
  | p :: more =>
    let (p, r) := r.resume p
    let (ps, r) := r.resumeAll more
    (p :: ps, r)

/-- When the lane that a call waits for ends: at once, unless an invocation is in progress. -/
def awaited? (r : Rehearsal) : Progress → Option Nat
  | .finished _ => none
  | .waiting id _ _ =>
    some (((r.scheduler.leaving.find? fun d => d.id = id).bind fun d =>
      d.lane.job?.map Job.done).getD r.now)

/-- Lets time pass until every call is over; `limit` bounds how often one of them moves on. -/
def wait : Nat → Rehearsal → List Progress → List Progress × Rehearsal
  | 0, r, ps => (ps, r)
  | limit + 1, r, ps =>
    match (ps.filterMap r.awaited?).min? with
    | none => (ps, r)
    | some t =>
      let (ps, r) := (r.advance (max r.now t)).resumeAll ps
      wait limit r ps

/-- Makes calls together and waits for all of them. -/
def together (r : Rehearsal) (calls : List Call) : List Answer × Rehearsal :=
  let (ps, r) := r.beginAll calls
  let (ps, r) := wait (2 * ps.foldl (fun n p => n + p.left) 0 + 1) r ps
  (ps.map Progress.answer, r)

/-- The events since the last look, by time and task, and the rehearsal without them. -/
def takeEvents (r : Rehearsal) : List TaskEvent × Rehearsal :=
  let before (a b : TaskEvent) : Bool :=
    decide (a.happening.time < b.happening.time) ||
      (decide (a.happening.time = b.happening.time) && decide (a.task ≤ b.task))
  (r.events.mergeSort before, { r with events := [] })

end Rehearsal

end MetricRelay.Schedule
