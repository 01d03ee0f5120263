import MetricRelay.Writer.Basic

/-!
# The drain loop

The drain loop pops a batch, sends it to all destinations, and looks again; on an empty queue it
sleeps. Closing lets a delivery under way finish and then flushes the queue within a time limit;
at the limit the batch under way is lost and the rest stays queued. `step?` is one move of the loop
at an instant, `settle` all moves at an instant, `advance` all moves up to a time.
-/

namespace MetricRelay.Writer

/-- Series popped at a time, at least one. -/
def batchLimit (w : Writer) : Nat := max w.settings.batchSize 1

/-- When a sleep that begins now ends. -/
def idleUntil (w : Writer) (now : Nat) : Nat := now + max w.settings.idleInterval.millisUp 1

/-- Pops a batch; a fan-out of it begins unless the queue is empty. -/
def popBatch (w : Writer) (net : Network) : Option FanOut × Writer :=
  let (batch, queue) := w.queue.popMany w.batchLimit
  if batch = [] then (none, w)
  else
    let (f, w) := { w with queue }.beginFanOut net batch
    (some f, w)

def lookAtQueue (w : Writer) (net : Network) (now : Nat) : Writer :=
  match w.popBatch net with
  | (none, w) => { w with drain := .idle (w.idleUntil now) }
  | (some f, w) => { w with drain := .delivering f (now + f.elapsed.millisUp) }

def flushQueue (w : Writer) (net : Network) (now deadline : Nat) : Writer :=
  match w.popBatch net with
  | (none, w) => { w with drain := .stopped }
  | (some f, w) => { w with drain := .flushingBatch deadline f (now + f.elapsed.millisUp) }

/-- The next move at this instant, if there is one. -/
def step? (net : Network) (now : Nat) (w : Writer) : Option Writer :=
  match w.drain with
  | .looking =>
    if w.closing then some { w with drain := .flushing (now + w.settings.flushTimeout.millisUp) }
    else some (w.lookAtQueue net now)
  | .idle wake => if w.closing ∨ wake ≤ now then some { w with drain := .looking } else none
  | .delivering f done => if done ≤ now then some { w.record f with drain := .looking } else none
  | .flushing deadline => some (w.flushQueue net now deadline)
  | .flushingBatch deadline f done =>
    if done ≤ now then some { w.record f with drain := .flushing deadline }
    else if deadline ≤ now then some { w with drain := .stopped }
    else none
  | .stopped => none

/-- When the loop moves on by itself. -/
def wake? (w : Writer) : Option Nat :=
  match w.drain with
  | .idle wake => some wake
  | .delivering _ done => some done
  | .flushingBatch deadline _ done => some (min deadline done)
  | _ => none

/-- At most `limit` moves at one instant. -/
def moves (net : Network) (now : Nat) : Nat → Writer → Writer
  | 0, w => w
  | limit + 1, w =>
    match w.step? net now with
    | some w => moves net now limit w
    | none => w

/-- All moves at one instant: each batch takes three, and a few more begin and end the round. -/
def settle (net : Network) (now : Nat) (w : Writer) : Writer :=
  moves net now (3 * w.queue.size + 6) w

/-- Moves on from instant to instant up to `target`; at most `limit` instants. -/
def instants (net : Network) (target : Nat) : Nat → Writer → Writer
  | 0, w => w
  | limit + 1, w =>
    match w.wake? with
    | some t => if t ≤ target then instants net target limit (w.settle net t) else w
    | none => w

/-- What the loop does after `now` up to `target`. -/
def advance (net : Network) (now target : Nat) (w : Writer) : Writer :=
  instants net target (target - now) w

/-! ## Closing -/

/-- Moves on until the loop has stopped, and says when that is. -/
def finish (net : Network) : Nat → Nat → Writer → Nat × Writer
  | 0, now, w => (now, w)
  | limit + 1, now, w =>
    let w := w.settle net now
    match w.wake? with
    | some t => finish net limit t w
    | none => (now, w)

/-- Stops the loop after a final flush: when it is over, and the writer then. A delivery and every
flushed batch end at an instant of their own at most. -/
def close (net : Network) (now : Nat) (w : Writer) : Nat × Writer :=
  finish net (w.queue.size + 3) now { w with closing := true }

end MetricRelay.Writer
