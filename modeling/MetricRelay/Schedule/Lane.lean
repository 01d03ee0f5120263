import MetricRelay.Schedule.Tick

/-!
# Lanes

A `Lane` holds the loops of one task: the one that has begun, and those that wait for it to end. A
new loop cancels all before it, so at most the last is not cancelled, and at most one has begun. A
cancelled loop finishes the invocation it is in and ends; a loop cancelled before its first tick
never invokes anything. What is invoked, and how far an invocation has come, is left open.
-/

namespace MetricRelay.Schedule

/-- A loop that has been asked for. -/
structure Plan (ω : Type) where
  work : ω
  /-- In nanoseconds. -/
  period : Nat
  period_pos : 0 < period
  cancelled : Bool := false

inductive Phase (β : Type) where
  /-- Until the deadline. -/
  | waiting (deadline : Nat)
  /-- In an invocation; the next deadline is fixed already. -/
  | busy (next : Nat) (job : β)

/-- A loop that has begun. -/
structure Loop (ω β : Type) where
  plan : Plan ω
  phase : Phase β

structure Lane (ω β : Type) where
  current : Option (Loop ω β) := none
  /-- The loops that wait for the current one, oldest first. -/
  queued : List (Plan ω) := []

namespace Plan

variable {ω : Type}

def cancel (p : Plan ω) : Plan ω := { p with cancelled := true }

end Plan

namespace Lane

variable {ω β : Type}

def empty : Lane ω β := {}

/-- Whether every loop has ended. -/
def isEmpty (l : Lane ω β) : Bool := l.current.isNone && l.queued.isEmpty

def cancel (l : Lane ω β) : Lane ω β where
  current := l.current.map fun c => { c with plan := c.plan.cancel }
  queued := l.queued.map Plan.cancel

/-- Cancels all loops and asks for a new one. -/
def replace (l : Lane ω β) (p : Plan ω) : Lane ω β :=
  let l := l.cancel
  { l with queued := l.queued ++ [p] }

/-- The next queued loop begins, unless it is cancelled. -/
def beginNext (l : Lane ω β) (now : Nat) : Lane ω β :=
  match l.queued with
  | [] => l
  | p :: r =>
    if p.cancelled then { current := none, queued := r }
    else { current := some ⟨p, .waiting (instant now)⟩, queued := r }

/-- The current loop ends. -/
def endCurrent (l : Lane ω β) : Lane ω β := { l with current := none }

def setPhase (l : Lane ω β) (c : Loop ω β) (phase : Phase β) : Lane ω β :=
  { l with current := some { c with phase } }

/-- The invocation that is in progress. -/
def job? (l : Lane ω β) : Option β :=
  match l.current with
  | some ⟨_, .busy _ job⟩ => some job
  | _ => none

end Lane

end MetricRelay.Schedule
