import MetricRelay.Collector.Registry
import MetricRelay.Config.Basic
import MetricRelay.Schedule.Scheduler
import MetricRelay.SelfMetrics
import MetricRelay.Writer.Drain

/-!
# The relay

A `Relay` joins the registry of collectors, the scheduler of their rounds, and the writer. It lives
in virtual time. Whatever acts in it is an `Agent`: the loops of a task, the drain loop of the
writer, the emitter of self metrics. An agent that can act is `ready`; one that sleeps has an alarm.
The host acts only when no agent can. A model's collector is used by one at a time: the others wait
in line for it.
-/

namespace MetricRelay

open Schedule

inductive Agent where
  /-- The loops of the task of that name. -/
  | lane (name : String)
  | drain
  /-- The emitter of that number. -/
  | emitter (number : Nat)
  deriving DecidableEq, Repr

/-- Who uses a collector or waits for it. -/
inductive User where
  | agent (a : Agent)
  | host
  deriving DecidableEq, Repr

/-- When an agent wakes up, in milliseconds. -/
structure Alarm where
  time : Nat
  agent : Agent
  deriving DecidableEq, Repr

/-- Who uses the collector of a registration, and who waits for it. -/
structure Lock where
  registration : Nat
  holder : User
  line : List User := []
  deriving DecidableEq, Repr

/-- How far one round of a monitor has come. -/
inductive Round where
  | beginning
  /-- In line for the collector. -/
  | inLine (registration : Nat)
  | gathering (registration : Nat) (g : Gathering)
  | sleeping (registration : Nat) (wake : Nat) (g : Gathering)
  deriving DecidableEq

/-- The emitter of self metrics; its next report is due at the alarm. -/
structure Emitter where
  number : Nat
  metrics : SelfMetrics
  /-- In milliseconds, at least one. -/
  interval : Nat
  /-- When the next report is due; unset before the emitter has begun. -/
  due : Option Nat := none

/-- The call of the host that is in progress. -/
inductive HostCall where
  | idle
  /-- In line for the collector, to configure it for a monitor. -/
  | configuring (spec : MonitorSpec) (registration : Nat)
  /-- In line for the collector, to observe. -/
  | awaitingGather (model : String) (registration : Nat)
  | gathering (model : String) (registration : Nat) (wake : Nat) (g : Gathering)
  /-- Waits for the loops of a model to end. -/
  | removing (model : String) (departure : Nat)
  /-- Waits for the loops of a task to end, with more tasks to stop. -/
  | stopping (departure : Nat) (more : List String)
  /-- Waits for the writer to close. -/
  | closing

/-- What is the same for all of the relay's life. -/
structure Surroundings where
  network : Network
  /-- The date of the instants, in milliseconds. -/
  date : Nat → Timestamp
  /-- The health of the process, where it is known. -/
  process : Nat → Option ProcessStats

structure Relay (σ : Type) where
  clock : Nat := 0
  registry : Registry σ := {}
  locks : List Lock := []
  scheduler : Scheduler Labels Round := {}
  writer : Writer
  normalizer : Normalizer := .standard
  /-- When the last round of each model was completed. -/
  lastPush : Table Nat := .empty
  emitter : Option Emitter := none
  /-- How many emitters have been started. -/
  emitters : Nat := 0
  shutDown : Bool := false
  /-- First come, first served. -/
  ready : List Agent := [.drain]
  /-- By time; of one time, in the order they were set. -/
  alarms : List Alarm := []
  call : HostCall := .idle
  /-- How the last call ended. -/
  answer : Except Error Unit := .ok ()

namespace Relay

variable {σ : Type}

/-! ## Agents -/

def wakeUp (r : Relay σ) (a : Agent) : Relay σ := { r with ready := r.ready ++ [a] }

/-- Lets an agent act again before any other. -/
def goOn (r : Relay σ) (a : Agent) : Relay σ := { r with ready := a :: r.ready }

def insertAlarm (a : Alarm) : List Alarm → List Alarm
  | [] => [a]
  | b :: r => if b.time ≤ a.time then b :: insertAlarm a r else a :: b :: r

/-- Sets the alarm of an agent; it has one at most. -/
def setAlarm (r : Relay σ) (a : Agent) (time : Nat) : Relay σ :=
  { r with alarms := insertAlarm ⟨time, a⟩ (r.alarms.filter fun b => b.agent ≠ a) }

/-! ## Locks -/

/-- Takes the collector of a registration, or joins the line for it. -/
def acquire (r : Relay σ) (registration : Nat) (u : User) : Bool × Relay σ :=
  if r.locks.any fun l => l.registration = registration then
    (false, { r with locks := r.locks.map fun l =>
      if l.registration = registration then { l with line := l.line ++ [u] } else l })
  else (true, { r with locks := r.locks ++ [⟨registration, u, []⟩] })

def holds (r : Relay σ) (registration : Nat) (u : User) : Bool :=
  r.locks.any fun l => l.registration = registration ∧ l.holder = u

/-- Who comes next in the line of a registration. -/
def nextInLine (r : Relay σ) (registration : Nat) : Option User :=
  (r.locks.find? fun l => l.registration = registration).bind fun l => l.line.head?

/-- Hands the collector to the next in line. -/
def release (r : Relay σ) (registration : Nat) : Relay σ :=
  match r.nextInLine registration with
  | none => { r with locks := r.locks.filter fun l => l.registration ≠ registration }
  | some u =>
    let r := { r with locks := r.locks.map fun l =>
      if l.registration = registration then { l with holder := u, line := l.line.drop 1 } else l }
    match u with
    | .agent a => r.wakeUp a
    | .host => r

/-! ## Samples -/

def now (r : Relay σ) (s : Surroundings) : Timestamp := s.date r.clock

def connect (r : Relay σ) (s : Surroundings) : Connect := s.network.connect r.clock

/-- Hands what a model has pending to the writer, normalized with the labels of a monitor. -/
def forward (r : Relay σ) (s : Surroundings) (model : String) (labels : Labels) : Relay σ :=
  match r.registry.models.get? model with
  | none => r
  | some m =>
    let (out, pending) := r.normalizer.process (r.now s) labels m.pending
    { r with
      registry := { r.registry with models := r.registry.models.insert model { m with pending } }
      writer := (r.writer.writeSamples (r.now s) out.drain.1).2 }

end Relay

end MetricRelay
