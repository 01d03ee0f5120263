import MetricRelay.Writer.Drain

/-!
# Sessions of a writer

A `Session` is a writer together with all that its host has made of it so far: `log` holds what could
be seen from outside, oldest first. `Step` is one thing that happens, by the host or by the drain
loop, and `Steps` any number of them, in any order and at any instants. What a move of the drain
loop shows is read off the queue and the phase before and after it (`Session.moved`).

`Move` lists the moves of the drain loop, and `move_of_step?` says that there are no others.
-/

namespace MetricRelay

/-- The fan-out that the drain loop waits for. -/
def DrainPhase.fanOut? : DrainPhase → Option FanOut
  | .delivering f _ => some f
  | .flushingBatch _ f _ => some f
  | _ => none

/-- Whether the final flush has begun. -/
def DrainPhase.InFlush : DrainPhase → Prop
  | .flushing _ | .flushingBatch .. | .stopped => True
  | _ => False

def DrainPhase.isStopped : DrainPhase → Bool
  | .stopped => true
  | _ => false

theorem DrainPhase.isStopped_iff {p : DrainPhase} : p.isStopped = true ↔ p = .stopped := by
  cases p <;> simp [isStopped]

namespace Writer

/-! ## Moves of the drain loop -/

/-- What a move of the drain loop can be. -/
inductive Move (net : Network) (w : Writer) : Writer → Prop where
  /-- It goes to another point, with no batch in hand before or after. -/
  | turn {phase : DrainPhase} : w.drain.fanOut? = none → phase.fanOut? = none →
      (phase.InFlush → w.closing = true) → phase ≠ .stopped → Move net w { w with drain := phase }
  /-- The flush has found the queue empty. -/
  | stop : w.drain.fanOut? = none → w.drain.InFlush → w.queue.toList = [] →
      Move net w { w with drain := .stopped }
  /-- It pops a batch, and a fan-out of it begins. -/
  | take {phase : DrainPhase} : w.drain.fanOut? = none → w.queue.toList ≠ [] →
      phase.fanOut? =
        some (.begin net w.fanOuts w.destinations (w.queue.popMany w.batchLimit).1) →
      (phase.InFlush → w.drain.InFlush) →
      Move net w { w with
        queue := (w.queue.popMany w.batchLimit).2, fanOuts := w.fanOuts + 1, drain := phase }
  | complete {f : FanOut} {phase : DrainPhase} : w.drain.fanOut? = some f → phase.fanOut? = none →
      (phase.InFlush → w.drain.InFlush) → phase ≠ .stopped →
      Move net w { w.record f with drain := phase }
  /-- The flush is over time. -/
  | cut {f : FanOut} : w.drain.fanOut? = some f → w.drain.InFlush →
      Move net w { w with drain := .stopped }

theorem batchLimit_pos (w : Writer) : 0 < w.batchLimit := by
  unfold batchLimit
  omega

/-- A batch is empty on an empty queue only. -/
theorem popMany_batch_eq_nil (w : Writer) :
    (w.queue.popMany w.batchLimit).1 = [] ↔ w.queue.toList = [] := by
  have := w.batchLimit_pos
  rw [BoundedQueue.popMany_fst, List.take_eq_nil_iff]
  exact ⟨fun h => h.resolve_left (by omega), .inr⟩

theorem popBatch_of_empty {w : Writer} (net : Network) (h : w.queue.toList = []) :
    w.popBatch net = (none, w) := by
  unfold popBatch
  simp only [(popMany_batch_eq_nil w).2 h, ↓reduceIte]

theorem popBatch_of_ne {w : Writer} (net : Network) (h : w.queue.toList ≠ []) :
    w.popBatch net =
      (some (.begin net w.fanOuts w.destinations (w.queue.popMany w.batchLimit).1),
        { w with queue := (w.queue.popMany w.batchLimit).2, fanOuts := w.fanOuts + 1 }) := by
  have hb := mt (popMany_batch_eq_nil w).1 h
  unfold popBatch
  simp only [if_neg hb, beginFanOut]

theorem move_lookAtQueue {w : Writer} {net : Network} (now : Nat) (h : w.drain.fanOut? = none) :
    Move net w (w.lookAtQueue net now) := by
  unfold lookAtQueue
  by_cases he : w.queue.toList = []
  · rw [popBatch_of_empty net he]
    exact .turn h rfl (fun hp => hp.elim) (by simp)
  · rw [popBatch_of_ne net he]
    exact .take h he rfl fun hp => hp.elim

theorem move_flushQueue {w : Writer} {net : Network} (now deadline : Nat)
    (h : w.drain.fanOut? = none) (hf : w.drain.InFlush) :
    Move net w (w.flushQueue net now deadline) := by
  unfold flushQueue
  by_cases he : w.queue.toList = []
  · rw [popBatch_of_empty net he]
    exact .stop h hf he
  · rw [popBatch_of_ne net he]
    exact .take h he rfl fun _ => hf

/-- The drain loop makes no other moves. -/
theorem move_of_step? {w w' : Writer} {net : Network} {now : Nat}
    (h : w.step? net now = some w') : Move net w w' := by
  unfold step? at h
  split at h
  case h_1 hd =>
    have hn : w.drain.fanOut? = none := by rw [hd]; rfl
    split at h
    · next hc => cases h; exact .turn hn rfl (fun _ => hc) (by simp)
    · cases h; exact move_lookAtQueue now hn
  case h_2 hd =>
    have hn : w.drain.fanOut? = none := by rw [hd]; rfl
    split at h
    · cases h; exact .turn hn rfl (fun hp => hp.elim) (by simp)
    · cases h
  case h_3 f done hd =>
    have hf : w.drain.fanOut? = some f := by rw [hd]; rfl
    split at h
    · cases h; exact .complete hf rfl (fun hp => hp.elim) (by simp)
    · cases h
  case h_4 deadline hd =>
    cases h
    exact move_flushQueue now deadline (by rw [hd]; rfl) (by rw [hd]; trivial)
  case h_5 deadline f done hd =>
    have hf : w.drain.fanOut? = some f := by rw [hd]; rfl
    have hi : w.drain.InFlush := by rw [hd]; trivial
    split at h
    · cases h; exact .complete hf rfl (fun _ => hi) (by simp)
    · split at h
      · cases h; exact .cut hf hi
      · cases h
  case h_6 => cases h

theorem ne_stopped_of_step? {w w' : Writer} {net : Network} {now : Nat}
    (h : w.step? net now = some w') : w.drain ≠ .stopped := by
  intro hd
  unfold step? at h
  rw [hd] at h
  cases h

/-! ## What the host's calls leave alone -/

/-- Samples that are offered are none, or admitted as a whole, or rejected as a whole. -/
theorem writeSamples_cases (w : Writer) (now : Timestamp) (samples : List Sample) :
    (samples = [] ∧ w.writeSamples now samples = (true, w)) ∨
    (w.queue.size + (Series.ofSamples now samples).length ≤ w.queue.capacity ∧
      ∃ q : BoundedQueue Series, q.toList = w.queue.toList ++ Series.ofSamples now samples ∧
        q.capacity = w.queue.capacity ∧
        w.writeSamples now samples = (true, { w with
          queue := q
          counters := w.counters.offered (Series.ofSamples now samples).length true q.size })) ∨
    (w.queue.capacity < w.queue.size + (Series.ofSamples now samples).length ∧
      w.writeSamples now samples = (false, { w with
        counters := w.counters.offered (Series.ofSamples now samples).length false w.queue.size })) := by
  by_cases hs : samples = []
  · exact .inl ⟨hs, by unfold writeSamples; rw [if_pos hs]⟩
  · right
    unfold writeSamples
    rw [if_neg hs]
    by_cases hc : w.queue.capacity < w.queue.size + (Series.ofSamples now samples).length
    · right
      exact ⟨hc, by simp only [BoundedQueue.pushMany_of_lt hc]⟩
    · left
      have hfits := Nat.not_lt.1 hc
      obtain ⟨q, hpush, hq, hcapacity⟩ := BoundedQueue.pushMany_of_le hfits
      exact ⟨hfits, q, hq, hcapacity, by simp only [hpush]⟩

theorem register_writer (w : Writer) (name : String) (options : DestinationOptions)
    (readUrl : Url.Reader) :
    ∃ t, (w.register name options readUrl).2 = { w with destinations := t } := by
  unfold register
  split
  · exact ⟨_, rfl⟩
  · exact ⟨w.destinations, rfl⟩

theorem deregister_writer (w : Writer) (name : String) :
    ∃ t, (w.deregister name).2 = { w with destinations := t } := by
  unfold deregister
  split
  · exact ⟨_, rfl⟩
  · exact ⟨w.destinations, rfl⟩

/-! ## Sessions -/

/-- A call to deliver a batch, as it began. -/
structure Sending where
  /-- Asked for by the host, not by the drain loop. -/
  direct : Bool
  number : Nat
  /-- The destinations that were registered. -/
  destinations : Table Destination
  batch : List Series

def Sending.fanOut (c : Sending) (net : Network) : FanOut :=
  .begin net c.number c.destinations c.batch

/-- What can be seen of a writer from outside. -/
inductive Event where
  /-- The series of a write, and whether they were admitted. -/
  | offered (series : List Series) (admitted : Bool)
  /-- The drain loop took a batch from the queue. -/
  | popped (batch : List Series)
  | begun (c : Sending)
  | completed (c : Sending)
  /-- The final flush was cut off during a call. -/
  | cut (c : Sending)
  | closed

structure Session where
  writer : Writer
  /-- The call that the drain loop waits for. -/
  loop : Option Sending := none
  /-- The calls that the host has under way. -/
  direct : List Sending := []
  /-- Oldest first. -/
  log : List Event := []

namespace Session

def start (settings : WriterSettings) : Session := { writer := { settings } }

def write (s : Session) (now : Timestamp) (samples : List Sample) : Session :=
  let (admitted, writer) := s.writer.writeSamples now samples
  { s with writer, log := s.log ++ [.offered (Series.ofSamples now samples) admitted] }

def close (s : Session) : Session :=
  { s with writer := { s.writer with closing := true }, log := s.log ++ [.closed] }

/-- The host begins to deliver a batch past the queue. -/
def send (s : Session) (net : Network) (series : List Series) : Session :=
  let c : Sending := ⟨true, s.writer.fanOuts, s.writer.destinations, series⟩
  { s with
    writer := (s.writer.beginFanOut net series).2
    direct := s.direct ++ [c], log := s.log ++ [.begun c] }

/-- The items that have left a queue at its old end. -/
def taken (before after : BoundedQueue Series) : List Series :=
  before.toList.take (before.size - after.size)

/-- The session after a move of the drain loop: a batch was popped when a call has begun, and a call
is over, or cut off, when the loop waits for none any more. -/
def moved (s : Session) (w : Writer) : Session :=
  match s.writer.drain.fanOut?, w.drain.fanOut?, s.loop with
  | none, some _, _ =>
    let c : Sending :=
      ⟨false, s.writer.fanOuts, s.writer.destinations, taken s.writer.queue w.queue⟩
    { s with writer := w, loop := some c, log := s.log ++ [.popped c.batch, .begun c] }
  | some _, none, some c =>
    { s with
      writer := w, loop := none
      log := s.log ++ [if w.drain.isStopped then .cut c else .completed c] }
  | _, _, _ => { s with writer := w }

@[simp] theorem moved_writer (s : Session) (w : Writer) : (s.moved w).writer = w := by
  unfold moved
  split <;> rfl

end Session

/-- One thing that happens. -/
inductive Step (net : Network) : Session → Session → Prop where
  | write (s : Session) (now : Timestamp) (samples : List Sample) : Step net s (s.write now samples)
  | register (s : Session) (name : String) (options : DestinationOptions) :
      Step net s { s with writer := (s.writer.register name options net.readUrl).2 }
  | deregister (s : Session) (name : String) :
      Step net s { s with writer := (s.writer.deregister name).2 }
  | close (s : Session) : Step net s s.close
  | send (s : Session) (series : List Series) : Step net s (s.send net series)
  /-- A direct call is over. -/
  | sent (s : Session) {l r : List Sending} {c : Sending} : s.direct = l ++ c :: r →
      Step net s { s with
        writer := s.writer.record (c.fanOut net), direct := l ++ r
        log := s.log ++ [.completed c] }
  | drain (s : Session) {now : Nat} {w : Writer} : s.writer.step? net now = some w →
      Step net s (s.moved w)

inductive Steps (net : Network) : Session → Session → Prop where
  | refl (s : Session) : Steps net s s
  | tail {s t u : Session} : Steps net s t → Step net t u → Steps net s u

/-- Where a writer with these settings can come to. -/
def Reachable (net : Network) (settings : WriterSettings) (s : Session) : Prop :=
  Steps net (.start settings) s

theorem Steps.trans {net : Network} {s t u : Session} (h : Steps net s t) (h' : Steps net t u) :
    Steps net s u := by
  induction h' with
  | refl => exact h
  | tail _ hs ih => exact .tail ih hs

theorem step_settings {net : Network} {s t : Session} (h : Step net s t) :
    t.writer.settings = s.writer.settings := by
  cases h with
  | write now samples =>
    unfold Session.write
    rcases s.writer.writeSamples_cases now samples with ⟨-, hw⟩ | ⟨-, q, -, -, hw⟩ | ⟨-, hw⟩ <;>
      rw [hw]
  | register name options =>
    obtain ⟨d, hd⟩ := s.writer.register_writer name options net.readUrl
    rw [hd]
  | deregister name =>
    obtain ⟨d, hd⟩ := s.writer.deregister_writer name
    rw [hd]
  | close => rfl
  | send => rfl
  | sent => rfl
  | drain hm =>
    rw [Session.moved_writer]
    cases move_of_step? hm <;> rfl

theorem Steps.settings {net : Network} {s t : Session} (h : Steps net s t) :
    t.writer.settings = s.writer.settings := by
  induction h with
  | refl => rfl
  | tail _ hs ih => rw [step_settings hs, ih]

/-! ## Given runs -/

/-- What may be asked of a session. -/
inductive Action where
  | write (now : Timestamp) (samples : List Sample)
  | register (name : String) (options : DestinationOptions)
  | deregister (name : String)
  | close
  | send (series : List Series)
  /-- The oldest direct call is over. -/
  | sent
  /-- A move of the drain loop at an instant, if there is one. -/
  | drain (now : Nat)

namespace Session

def act (net : Network) (s : Session) : Action → Session
  | .write now samples => s.write now samples
  | .register name options =>
    { s with writer := (s.writer.register name options net.readUrl).2 }
  | .deregister name => { s with writer := (s.writer.deregister name).2 }
  | .close => s.close
  | .send series => s.send net series
  | .sent =>
    match s.direct with
    | [] => s
    | c :: r =>
      { s with
        writer := s.writer.record (c.fanOut net), direct := r, log := s.log ++ [.completed c] }
  | .drain now =>
    match s.writer.step? net now with
    | some w => s.moved w
    | none => s

def run (net : Network) (s : Session) (actions : List Action) : Session :=
  actions.foldl (act net) s

end Session

theorem steps_act (net : Network) (s : Session) (a : Action) : Steps net s (s.act net a) := by
  cases a with
  | write now samples => exact .tail (.refl s) (.write s now samples)
  | register name options => exact .tail (.refl s) (.register s name options)
  | deregister name => exact .tail (.refl s) (.deregister s name)
  | close => exact .tail (.refl s) (.close s)
  | send series => exact .tail (.refl s) (.send s series)
  | sent =>
    simp only [Session.act]
    split
    · exact .refl s
    · next c r hd => exact .tail (.refl s) (.sent s (l := []) hd)
  | drain now =>
    simp only [Session.act]
    split
    · next w hw => exact .tail (.refl s) (.drain s hw)
    · exact .refl s

theorem steps_run (net : Network) (s : Session) (actions : List Action) :
    Steps net s (s.run net actions) := by
  induction actions generalizing s with
  | nil => exact .refl s
  | cons a r ih => exact (steps_act net s a).trans (ih (s.act net a))

theorem run_append (net : Network) (s : Session) (l m : List Action) :
    s.run net (l ++ m) = (s.run net l).run net m :=
  List.foldl_append

theorem run_concat (net : Network) (s : Session) (actions : List Action) (a : Action) :
    s.run net (actions ++ [a]) = (s.run net actions).act net a :=
  run_append ..

/-! ## What a move of the drain loop shows -/

section Moved

variable {s : Session} {w : Writer} {f : FanOut} {c : Sending}

theorem Session.moved_turn (h : s.writer.drain.fanOut? = none) (hw : w.drain.fanOut? = none) :
    s.moved w = { s with writer := w } := by
  unfold Session.moved
  rw [h, hw]

theorem Session.moved_take (h : s.writer.drain.fanOut? = none) (hw : w.drain.fanOut? = some f)
    (hc : c = ⟨false, s.writer.fanOuts, s.writer.destinations,
      taken s.writer.queue w.queue⟩) :
    s.moved w =
      { s with writer := w, loop := some c, log := s.log ++ [.popped c.batch, .begun c] } := by
  subst hc
  unfold Session.moved
  rw [h, hw]

theorem Session.moved_complete (h : s.writer.drain.fanOut? = some f) (hl : s.loop = some c)
    (hw : w.drain.fanOut? = none) (hs : w.drain ≠ .stopped) :
    s.moved w = { s with writer := w, loop := none, log := s.log ++ [.completed c] } := by
  unfold Session.moved
  rw [h, hw, hl]
  simp only [if_neg (mt DrainPhase.isStopped_iff.1 hs)]

theorem Session.moved_cut (h : s.writer.drain.fanOut? = some f) (hl : s.loop = some c)
    (hs : w.drain = .stopped) :
    s.moved w = { s with writer := w, loop := none, log := s.log ++ [.cut c] } := by
  unfold Session.moved
  rw [h, hl, hs]
  rfl

/-- A batch that is popped is what has left the queue. -/
theorem Session.taken_popMany (q : BoundedQueue Series) (n : Nat) :
    taken q (q.popMany n).2 = (q.popMany n).1 := by
  unfold taken
  rw [BoundedQueue.size_popMany, BoundedQueue.popMany_fst]
  by_cases h : n ≤ q.size
  · rw [show q.size - (q.size - n) = n by omega]
  · rw [List.take_of_length_le (by simp; omega), List.take_of_length_le (by simp; omega)]

end Moved

end Writer

end MetricRelay
