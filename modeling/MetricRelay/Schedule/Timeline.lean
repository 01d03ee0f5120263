import MetricRelay.Schedule.Scheduler

/-!
# Lanes in time

Here an invocation is known by what it takes: a number of milliseconds, at the end of which it returns
or breaks down. `Moment.step?` is one move of a lane that happens up to a horizon, `Lane.advance` all
of them. Lanes do not touch each other, so each is moved on by itself.
-/

namespace MetricRelay.Schedule

/-- What an invocation takes. -/
inductive Effort where
  | lasts (millis : Nat)
  /-- It breaks down after that time, and its loop with it. -/
  | breaksAfter (millis : Nat)
  deriving DecidableEq, Repr

/-- It breaks down right after its start. -/
def Effort.breaks : Effort := .breaksAfter 0

/-- One `run` of a task: the efforts of its invocations, the last for all to come. -/
structure Run where
  number : Nat
  efforts : List Effort
  /-- Invocations so far. -/
  started : Nat := 0
  deriving DecidableEq, Repr

def Run.effort (r : Run) : Effort :=
  (r.efforts[r.started]?.or r.efforts.getLast?).getD (.lasts 0)

def Run.next (r : Run) : Run := { r with started := r.started + 1 }

/-- The start or the end of an invocation, by a loop of that number. -/
structure Happening where
  time : Nat
  run : Nat
  isStart : Bool
  deriving DecidableEq, Repr

/-- An invocation in progress. -/
structure Job where
  /-- When it ends, in milliseconds. -/
  done : Nat
  breaks : Bool := false
  deriving DecidableEq, Repr

/-- The invocation that begins at that time. -/
def Effort.job (now : Nat) : Effort → Job
  | .lasts d => { done := now + d }
  | .breaksAfter d => { done := now + d, breaks := true }

abbrev TimedLane := Lane Run Job

/-- A lane at an instant in milliseconds, with what has happened, latest first. -/
structure Moment where
  now : Nat
  lane : TimedLane
  past : List Happening := []

namespace Moment

def note (m : Moment) (run : Nat) (isStart : Bool) : Moment :=
  { m with past := ⟨m.now, run, isStart⟩ :: m.past }

/-- Serves a tick at this instant. -/
def tick (m : Moment) (p : Plan Run) (deadline : Nat) : Moment :=
  let next := nextDeadline p.period deadline (instant m.now)
  let started := { p with work := p.work.next }
  let m := m.note p.work.number true
  { m with lane := { m.lane with current := some ⟨started, .busy next (p.work.effort.job m.now)⟩ } }

/-- The next move up to the horizon, if there is one. -/
def step? (horizon : Nat) (m : Moment) : Option Moment :=
  match m.lane.current with
  | none =>
    if m.lane.queued.isEmpty then none else some { m with lane := m.lane.beginNext m.now }
  | some ⟨p, .waiting deadline⟩ =>
    if p.cancelled then some { m with lane := m.lane.endCurrent }
    else
      let t := max m.now (wakeTime deadline)
      if t ≤ horizon then some ({ m with now := t }.tick p deadline) else none
  | some ⟨p, .busy next job⟩ =>
    let t := max m.now job.done
    if t ≤ horizon then
      if job.breaks then some { m with now := t, lane := m.lane.endCurrent }
      else
        let m := { m with now := t }.note p.work.number false
        some { m with lane := m.lane.setPhase ⟨p, .busy next job⟩ (.waiting next) }
    else none

/-- At most `limit` moves. -/
def moves (horizon : Nat) : Nat → Moment → Moment
  | 0, m => m
  | limit + 1, m =>
    match m.step? horizon with
    | some m => moves horizon limit m
    | none => m

/-- What is left of the time up to the horizon, for a loop in that phase. A move leaves less. -/
def phaseRank (horizon : Nat) : Phase Job → Nat
  | .waiting deadline => 2 * (instant horizon + 1 - deadline) + 1
  | .busy next _ => 2 * (instant horizon + 1 - next) + 2

/-- How many moves there can be up to the horizon: each queued loop may have all of the time. -/
def rank (horizon : Nat) (m : Moment) : Nat :=
  (m.lane.current.map fun c => phaseRank horizon c.phase).getD 0 +
    m.lane.queued.length * (2 * instant horizon + 4)

end Moment

/-- Moves a lane on from `now` up to `target`; what happens, in order. -/
def Lane.advance (l : TimedLane) (now target : Nat) : TimedLane × List Happening :=
  let m : Moment := ⟨now, l, []⟩
  let m := m.moves target (m.rank target)
  (m.lane, m.past.reverse)

end MetricRelay.Schedule
