import MetricRelay.Relay.Basic

/-!
# Rounds

A round of a monitor waits for its collector, observes, hands what is pending to the writer and
notes the time, whether or not the observation worked. `laneStep` is one move of the loops of a
task: a loop begins, ends, serves a tick, or its round comes one step further.
-/

namespace MetricRelay.Relay

open Schedule

variable {σ : Type} [Collector σ]

def setLane (r : Relay σ) (name : String) (lane : Lane Labels Round) : Relay σ :=
  { r with scheduler := r.scheduler.setLane name lane }

/-- The round in progress of a lane comes to another point. -/
def setRound (r : Relay σ) (name : String) (lane : Lane Labels Round) (p : Plan Labels) (next : Nat)
    (round : Round) : Relay σ :=
  r.setLane name { lane with current := some ⟨p, .busy next round⟩ }

/-- A round is over: what is pending is forwarded, and the loop looks to its next deadline. -/
def completeRound (r : Relay σ) (s : Surroundings) (name : String) (lane : Lane Labels Round)
    (p : Plan Labels) (next : Nat) : Relay σ :=
  let r := r.forward s name p.work
  { r.setLane name { lane with current := some ⟨p, .waiting next⟩ } with
    lastPush := r.lastPush.insert name r.clock }

/-- A round at the point where it has its collector. -/
def beginObservation (r : Relay σ) (s : Surroundings) (name : String) (lane : Lane Labels Round)
    (p : Plan Labels) (next registration : Nat) : Relay σ :=
  match r.registry.beginGather (r.connect s) name with
  | (.error _, _) => r.release registration |>.completeRound s name lane p next
  | (.ok (_, g), registry) =>
    { r with registry }.setRound name lane p next (.gathering registration g)

/-- One move of a round in progress. -/
def roundStep (r : Relay σ) (s : Surroundings) (name : String) (lane : Lane Labels Round)
    (p : Plan Labels) (next : Nat) (round : Round) : Relay σ :=
  let me : Agent := .lane name
  match round with
  | .beginning =>
    match r.registry.models.get? name with
    | none => (r.completeRound s name lane p next).goOn me
    | some m =>
      match r.acquire m.registration (.agent me) with
      | (true, r) => (r.beginObservation s name lane p next m.registration).goOn me
      | (false, r) => r.setRound name lane p next (.inLine m.registration)
  | .inLine registration =>
    if r.holds registration (.agent me) then
      (r.beginObservation s name lane p next registration).goOn me
    else r
  | .gathering registration ⟨[], _⟩ =>
    ((r.release registration).completeRound s name lane p next).goOn me
  | .gathering registration ⟨.push x :: more, outcome⟩ =>
    let r := { r with registry := r.registry.push name registration [x] }
    (r.setRound name lane p next (.gathering registration ⟨more, outcome⟩)).goOn me
  | .gathering registration ⟨.sleep d :: more, outcome⟩ =>
    if d = 0 then (r.setRound name lane p next (.gathering registration ⟨more, outcome⟩)).goOn me
    else
      (r.setRound name lane p next (.sleeping registration (r.clock + d) ⟨more, outcome⟩)).setAlarm
        me (r.clock + d)
  | .sleeping registration wake g =>
    if wake ≤ r.clock then (r.setRound name lane p next (.gathering registration g)).goOn me else r

/-- One move of the loops of a task. -/
def laneStep (r : Relay σ) (s : Surroundings) (name : String) : Relay σ :=
  let me : Agent := .lane name
  match r.scheduler.lane? name with
  | none => r
  | some lane =>
    match lane.current with
    | none =>
      if lane.queued.isEmpty then r else (r.setLane name (lane.beginNext r.clock)).goOn me
    | some ⟨p, .waiting deadline⟩ =>
      if p.cancelled then
        let r := r.setLane name lane.endCurrent
        if lane.queued.isEmpty then r else r.wakeUp me
      else if wakeTime deadline ≤ r.clock then
        let next := nextDeadline p.period deadline (instant r.clock)
        (r.setRound name lane p next .beginning).goOn me
      else r.setAlarm me (wakeTime deadline)
    | some ⟨p, .busy next round⟩ => r.roundStep s name lane p next round

end MetricRelay.Relay
