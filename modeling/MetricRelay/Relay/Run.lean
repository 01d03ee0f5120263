import MetricRelay.Relay.Round

/-!
# The relay in time

`step?` is one move: of the first agent that is ready, else of the host's call, else a step in time
to the next alarm, if time may pass. The calls of the host begin with `begin` and go on with
`resume`; `perform` makes one and lets time pass until it is over.
-/

namespace MetricRelay.Relay

open Schedule

variable {σ : Type} [Collector σ]

/-! ## Drain loop and emitter -/

def drainStep (r : Relay σ) (s : Surroundings) : Relay σ :=
  match r.writer.step? s.network r.clock with
  | some writer => { r with writer }.goOn .drain
  | none =>
    match r.writer.wake? with
    | some t => r.setAlarm .drain t
    | none => r

/-- The first report comes after a whole interval; none comes after the shutdown. -/
def emitterStep (r : Relay σ) (s : Surroundings) (number : Nat) : Relay σ :=
  match r.emitter with
  | none => r
  | some e =>
    if e.number ≠ number ∨ r.shutDown then r
    else
      let next := r.clock + e.interval
      match e.due with
      | none => { r with emitter := some { e with due := some next } }.setAlarm (.emitter number) next
      | some due =>
        if due ≤ r.clock then
          let (_, writer) := e.metrics.emit (r.now s) (s.process r.clock) r.writer
          { r with writer, emitter := some { e with due := some next } }.setAlarm (.emitter number) next
        else r

def agentStep (r : Relay σ) (s : Surroundings) : Agent → Relay σ
  | .lane name => r.laneStep s name
  | .drain => r.drainStep s
  | .emitter number => r.emitterStep s number

/-! ## The host's calls -/

def finish (r : Relay σ) (answer : Except Error Unit) : Relay σ := { r with call := .idle, answer }

/-- The collector is configured for a monitor, and its loop is asked for. -/
def configure (r : Relay σ) (spec : MonitorSpec) (registration : Nat) : Relay σ :=
  let model := spec.model.name
  let (result, registry) := r.registry.initConfig model ⟨spec.model.config⟩
  let r := { r with registry }.release registration
  match result with
  | .error e => r.finish (.error e)
  | .ok _ =>
    let (result, scheduler) := (r.scheduler.add model).run model spec.period spec.labels
    ({ r with scheduler }.wakeUp (.lane model)).finish result

/-- Follows an observation that the host has asked for, up to its next sleep. -/
def hostGather (r : Relay σ) (model : String) (registration : Nat) (outcome : Outcome) :
    List Action → Relay σ
  | [] => (r.release registration).finish (Registry.gatherResult model outcome)
  | .push x :: more =>
    hostGather { r with registry := r.registry.push model registration [x] } model registration
      outcome more
  | .sleep d :: more =>
    if d = 0 then hostGather r model registration outcome more
    else { r with call := .gathering model registration (r.clock + d) ⟨more, outcome⟩ }

def hostObserve (r : Relay σ) (s : Surroundings) (model : String) (registration : Nat) : Relay σ :=
  match r.registry.beginGather (r.connect s) model with
  | (.error e, _) => (r.release registration).finish (.error e)
  | (.ok (_, g), registry) => { r with registry }.hostGather model registration g.outcome g.actions

/-- The task of a model has ended: its traces go. -/
def forgetModel (r : Relay σ) (model : String) : Relay σ :=
  { r with
    lastPush := r.lastPush.erase model
    registry := (r.registry.evict model).2
    scheduler := r.scheduler.forgetEnded }.finish (.ok ())

/-- All tasks have ended: the emitter ends, and the writer is closed. -/
def closeWriter (r : Relay σ) : Relay σ :=
  { r with
    shutDown := true, emitter := none, call := .closing
    scheduler := r.scheduler.forgetEnded
    writer := { r.writer with closing := true } }.wakeUp .drain

/-- Stops the next task, or goes on to the writer. -/
def stopNext (r : Relay σ) : List String → Relay σ
  | [] => r.closeWriter
  | name :: more =>
    match r.scheduler.beginStop name with
    | (none, _) => r.stopNext more
    | (some id, scheduler) =>
      { r with scheduler, call := .stopping id more }.wakeUp (.lane name)

/-- Whether the host's call can go on. -/
def canResume (r : Relay σ) : Bool :=
  match r.call with
  | .idle => false
  | .configuring _ registration => r.holds registration .host
  | .awaitingGather _ registration => r.holds registration .host
  | .gathering _ _ wake _ => wake ≤ r.clock
  | .removing _ departure => r.scheduler.hasLeft departure
  | .stopping departure _ => r.scheduler.hasLeft departure
  | .closing => r.writer.drain matches .stopped

def resume (r : Relay σ) (s : Surroundings) : Relay σ :=
  match r.call with
  | .idle => r
  | .configuring spec registration => r.configure spec registration
  | .awaitingGather model registration => r.hostObserve s model registration
  | .gathering model registration _ g => r.hostGather model registration g.outcome g.actions
  | .removing model _ => r.forgetModel model
  | .stopping _ more => r.stopNext more
  | .closing => r.finish (.ok ())

/-- What the host may ask for that takes time. -/
inductive Demand where
  | applyMonitor (spec : MonitorSpec)
  | removeMonitor (model : String)
  | gather (model : String)
  | shutDown

/-- Takes the collector of a model for the host. -/
def hostAcquire (r : Relay σ) (model : String) (free waiting : Nat → Relay σ → Relay σ) : Relay σ :=
  match r.registry.models.get? model with
  | none => r.finish (.error (.notRegistered .model model))
  | some m =>
    match r.acquire m.registration .host with
    | (true, r) => free m.registration r
    | (false, r) => waiting m.registration r

def begin (r : Relay σ) (s : Surroundings) : Demand → Relay σ
  | .applyMonitor spec =>
    r.hostAcquire spec.model.name (fun n r => r.configure spec n)
      fun n r => { r with call := .configuring spec n }
  | .gather model =>
    r.hostAcquire model (fun n r => r.hostObserve s model n)
      fun n r => { r with call := .awaitingGather model n }
  | .removeMonitor model =>
    match r.scheduler.beginStop model with
    | (none, _) => r.forgetModel model
    | (some id, scheduler) => { r with scheduler, call := .removing model id }.wakeUp (.lane model)
  | .shutDown => r.stopNext r.scheduler.tasks.keys

/-! ## Moves -/

/-- How far time may pass. -/
inductive Horizon where
  | instant
  | time (millis : Nat)
  /-- Until the host's call is over. -/
  | call

def mayPass (r : Relay σ) (h : Horizon) (t : Nat) : Bool :=
  match h with
  | .instant => false
  | .time limit => t ≤ limit
  | .call => !(r.call matches .idle)

/-- Time passes to `t`: the alarms that are due then ring, in order. -/
def passTo (r : Relay σ) (t : Nat) : Relay σ :=
  { r with
    clock := t
    ready := r.ready ++ (r.alarms.filter fun a => a.time ≤ t).map Alarm.agent
    alarms := r.alarms.filter fun a => ¬a.time ≤ t }

/-- When something happens next by itself. -/
def nextTime? (r : Relay σ) : Option Nat :=
  let own := match r.call with
    | .gathering _ _ wake _ => some wake
    | _ => none
  match r.alarms.head?, own with
  | some a, some t => some (min a.time t)
  | some a, none => some a.time
  | none, own => own

def step? (s : Surroundings) (h : Horizon) (r : Relay σ) : Option (Relay σ) :=
  match r.ready with
  | a :: more => some ({ r with ready := more }.agentStep s a)
  | [] =>
    if r.canResume then some (r.resume s)
    else
      match r.nextTime? with
      | some t => if r.mayPass h t then some (r.passTo (max r.clock t)) else none
      | none => none

/-- At most `limit` moves. -/
def moves (s : Surroundings) (h : Horizon) : Nat → Relay σ → Relay σ
  | 0, r => r
  | limit + 1, r =>
    match r.step? s h with
    | some r => moves s h limit r
    | none => r

/-- More moves than any call takes. -/
def patience : Nat := UInt64.size

/-- All that can happen at this instant. -/
def settle (r : Relay σ) (s : Surroundings) : Relay σ := r.moves s .instant patience

/-- Lets a number of milliseconds pass. -/
def advance (r : Relay σ) (s : Surroundings) (millis : Nat) : Relay σ :=
  let target := r.clock + millis
  { r.moves s (.time target) patience with clock := target }

/-- Makes a call and lets time pass until it is over. -/
def perform (r : Relay σ) (s : Surroundings) (q : Demand) : Except Error Unit × Relay σ :=
  let r := (r.begin s q).moves s .call patience
  (r.answer, r)

/-! ## Calls that take no time -/

/-- Starts an emitter in place of the one there is. -/
def startSelfMetrics (r : Relay σ) (region : String) (interval : Duration) : Relay σ :=
  let e : Emitter :=
    { number := r.emitters, metrics := ⟨r.normalizer, region⟩, interval := max interval.millisUp 1 }
  { r with emitter := some e, emitters := r.emitters + 1 }.wakeUp (.emitter e.number)

def registerCollector (r : Relay σ) (collector : σ) : Relay σ :=
  { r with registry := r.registry.register collector }

def applyDestination (r : Relay σ) (name : String) (options : DestinationOptions)
    (readUrl : Url.Reader := Url.parse) : Except Error Unit × Relay σ :=
  let (result, writer) := r.writer.register name options readUrl
  (result, { r with writer })

def removeDestination (r : Relay σ) (name : String) : Except Error Unit × Relay σ :=
  let (result, writer) := r.writer.deregister name
  (result, { r with writer })

/-- A relay at its start. -/
def new (settings : WriterSettings) (globals : Labels) : Relay σ where
  writer := { settings }
  normalizer := ⟨globals⟩

def text (r : Relay σ) : String :=
  "Core \x7b registry: " ++ r.registry.text ++ ", scheduler: " ++ r.scheduler.text ++
    ", writers: " ++ r.writer.text ++ ", .. \x7d"

end MetricRelay.Relay
