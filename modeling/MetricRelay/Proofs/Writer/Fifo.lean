import MetricRelay.Proofs.Writer.Session

/-!
# First in, first out

What the drain loop has popped, followed by what is queued, is all that was admitted, in order. Each
popped batch is passed to one call, and the next one is popped when that call is over. `Orderly`
holds of a session after every step (`orderly_of_steps`): it ties the queue and the phase of the
drain loop to the log.
-/

namespace MetricRelay.Writer

/-! ## Readings of a log -/

namespace Event

@[simp] def popped? : Event → Option (List Series)
  | .popped batch => some batch
  | _ => none

/-- The series that a write has brought into the queue. -/
@[simp] def admitted : Event → List Series
  | .offered series true => series
  | _ => []

@[simp] def begun? : Event → Option Sending
  | .begun c => some c
  | _ => none

/-- Whether the drain loop did it. -/
@[simp] def byLoop : Event → Bool
  | .popped _ => true
  | .begun c | .completed c | .cut c => !c.direct
  | _ => false

def closes : Event → Bool
  | .closed => true
  | _ => false

def cuts : Event → Bool
  | .cut _ => true
  | _ => false

def offers : Event → Bool
  | .offered .. => true
  | _ => false

end Event

/-- The batches that the drain loop has popped, oldest first. -/
def poppedBatches (log : List Event) : List (List Series) := log.filterMap Event.popped?

/-- The series that were admitted, in the order of the writes. -/
def admittedSeries (log : List Event) : List Series := log.flatMap Event.admitted

/-- The calls to deliver a batch that have begun. -/
def begunCalls (log : List Event) : List Sending := log.filterMap Event.begun?

/-- What the drain loop did. -/
def loopEvents (log : List Event) : List Event := log.filter Event.byLoop

section Readings

variable (e : Event) (l m : List Event)

@[simp] theorem poppedBatches_nil : poppedBatches [] = [] := rfl

@[simp] theorem poppedBatches_cons :
    poppedBatches (e :: l) = e.popped?.toList ++ poppedBatches l := by
  unfold poppedBatches
  rw [List.filterMap_cons]
  cases e.popped? <;> rfl

@[simp] theorem poppedBatches_append :
    poppedBatches (l ++ m) = poppedBatches l ++ poppedBatches m := List.filterMap_append

@[simp] theorem admittedSeries_nil : admittedSeries [] = [] := rfl

@[simp] theorem admittedSeries_cons :
    admittedSeries (e :: l) = e.admitted ++ admittedSeries l := List.flatMap_cons

@[simp] theorem admittedSeries_append :
    admittedSeries (l ++ m) = admittedSeries l ++ admittedSeries m := List.flatMap_append

@[simp] theorem begunCalls_nil : begunCalls [] = [] := rfl

@[simp] theorem begunCalls_cons : begunCalls (e :: l) = e.begun?.toList ++ begunCalls l := by
  unfold begunCalls
  rw [List.filterMap_cons]
  cases e.begun? <;> rfl

@[simp] theorem begunCalls_append :
    begunCalls (l ++ m) = begunCalls l ++ begunCalls m := List.filterMap_append

@[simp] theorem loopEvents_nil : loopEvents [] = [] := rfl

@[simp] theorem loopEvents_cons :
    loopEvents (e :: l) = if e.byLoop then e :: loopEvents l else loopEvents l := List.filter_cons

@[simp] theorem loopEvents_append :
    loopEvents (l ++ m) = loopEvents l ++ loopEvents m := List.filter_append ..

end Readings

/-- Nothing is admitted where nothing is offered. -/
theorem admittedSeries_eq_nil {l : List Event}
    (h : ∀ series admitted, .offered series admitted ∉ l) : admittedSeries l = [] := by
  refine List.flatMap_eq_nil_iff.2 fun e he => ?_
  cases e with
  | offered series admitted => exact absurd he (h series admitted)
  | _ => rfl

/-- A batch is popped and passed to a call. -/
def Sending.opening (c : Sending) : List Event := [.popped c.batch, .begun c]

/-- A batch is popped and passed to a call, and the call is completed. -/
def Sending.turn (c : Sending) : List Event := c.opening ++ [.completed c]

/-- The drain loop has taken one batch after the other: all but the last have been delivered, and the
last one has been, or its call is under way, or was cut off. -/
def Session.InTurn (s : Session) : Prop :=
  ∃ (delivered : List Sending) (last : List Event),
    loopEvents s.log = delivered.flatMap Sending.turn ++ last ∧
    (last = [] ∧ s.loop = none ∨
      (∃ c, last = c.opening ∧ s.loop = some c) ∨
      ∃ c, last = c.opening ++ [.cut c] ∧ s.loop = none ∧ s.writer.drain = .stopped)

/-- What happened from the first close on. -/
def sinceClose (log : List Event) : List Event := log.dropWhile fun e => !e.closes

theorem mem_sinceClose {l r : List Event} {e : Event} (hl : .closed ∈ l) (he : e ∈ r) :
    e ∈ sinceClose (l ++ r) := by
  induction l with
  | nil => cases hl
  | cons d m ih =>
    unfold sinceClose
    rw [List.cons_append]
    by_cases hd : d.closes
    · rw [List.dropWhile_cons_of_neg (by simp [hd])]
      exact List.mem_cons_of_mem _ (List.mem_append_right _ he)
    · rw [List.dropWhile_cons_of_pos (by simp [hd])]
      refine ih ((List.mem_cons.1 hl).resolve_left fun h => ?_)
      exact hd (h ▸ rfl)

/-! ## The invariant -/

structure Orderly (net : Network) (s : Session) : Prop where
  order : (poppedBatches s.log).flatten ++ s.writer.queue.toList = admittedSeries s.log
  batches : ∀ b ∈ poppedBatches s.log, b ≠ [] ∧ b.length ≤ s.writer.batchLimit
  inHand : s.writer.drain.fanOut? = s.loop.map fun c => c.fanOut net
  byLoop : ∀ c ∈ s.loop, c.direct = false
  byHost : ∀ c ∈ s.direct, c.direct = true
  inTurn : s.InTurn
  numbered : (begunCalls s.log).map Sending.number = List.range s.writer.fanOuts
  closing : s.writer.closing = true → .closed ∈ s.log
  flush : s.writer.drain.InFlush → .closed ∈ s.log
  /-- Once the loop has stopped of itself, the queue holds what was offered since. -/
  rest : s.writer.drain = .stopped → (∀ c, .cut c ∉ s.log) →
    ∃ l r, s.log = l ++ r ∧ .closed ∈ l ∧ s.writer.queue.toList = admittedSeries r

section Steps

variable {net : Network} {s : Session}

theorem orderly_start (settings : WriterSettings) : Orderly net (.start settings) where
  order := rfl
  batches := by simp [Session.start, poppedBatches]
  inHand := rfl
  byLoop := by simp [Session.start]
  byHost := by simp [Session.start]
  inTurn := ⟨[], [], rfl, .inl ⟨rfl, rfl⟩⟩
  numbered := rfl
  closing := by simp [Session.start]
  flush h := h.elim
  rest h := by simp [Session.start] at h

/-- A step that touches neither the queue nor the drain loop, and shows nothing that a reading of the
log takes up. -/
theorem Orderly.frame (h : Orderly net s) {t : Session} (new : List Event)
    (hlog : t.log = s.log ++ new) (hpopped : poppedBatches new = [])
    (hadmitted : admittedSeries new = []) (hloop : loopEvents new = [])
    (hq : t.writer.queue = s.writer.queue) (hd : t.writer.drain = s.writer.drain)
    (hs : t.writer.settings = s.writer.settings) (hl : t.loop = s.loop)
    (hdirect : ∀ c ∈ t.direct, c.direct = true)
    (hn : (begunCalls s.log ++ begunCalls new).map Sending.number = List.range t.writer.fanOuts)
    (hc : t.writer.closing = true → .closed ∈ s.log ++ new) : Orderly net t where
  order := by simpa [hlog, hpopped, hadmitted, hq] using h.order
  batches := by simpa [hlog, hpopped, batchLimit, hs] using h.batches
  inHand := by rw [hd, hl]; exact h.inHand
  byLoop := by rw [hl]; exact h.byLoop
  byHost := hdirect
  inTurn := by
    unfold Session.InTurn
    rw [hlog, loopEvents_append, hloop, List.append_nil, hl, hd]
    exact h.inTurn
  numbered := by rw [hlog, begunCalls_append]; exact hn
  closing := by rw [hlog]; exact hc
  flush := by
    rw [hd, hlog]
    exact fun hf => List.mem_append_left _ (h.flush hf)
  rest := by
    rw [hd, hlog, hq]
    intro hstop hcut
    obtain ⟨l, r, hlr, hcl, hr⟩ :=
      h.rest hstop fun c hm => hcut c (List.mem_append_left _ hm)
    exact ⟨l, r ++ new, by rw [hlr, List.append_assoc], hcl, by simp [hr, hadmitted]⟩

theorem Orderly.write (h : Orderly net s) (now : Timestamp) (samples : List Sample) :
    Orderly net (s.write now samples) := by
  unfold Session.write
  rcases s.writer.writeSamples_cases now samples with
    ⟨rfl, hw⟩ | ⟨-, q, hq, hcap, hw⟩ | ⟨-, hw⟩
  · rw [hw]
    exact h.frame _ rfl rfl rfl rfl rfl rfl rfl rfl h.byHost (by simpa using h.numbered)
      fun hc => List.mem_append_left _ (h.closing hc)
  · rw [hw]
    exact {
      order := by simp [hq, ← h.order]
      batches := by simpa [batchLimit] using h.batches
      inHand := h.inHand
      byLoop := h.byLoop
      byHost := h.byHost
      inTurn := by simpa [Session.InTurn] using h.inTurn
      numbered := by simpa using h.numbered
      closing := fun hc => List.mem_append_left _ (h.closing hc)
      flush := fun hf => List.mem_append_left _ (h.flush hf)
      rest := by
        intro hstop hcut
        obtain ⟨l, r, hlr, hcl, hr⟩ :=
          h.rest hstop fun c hm => hcut c (List.mem_append_left _ hm)
        refine ⟨l, r ++ [.offered (Series.ofSamples now samples) true], ?_, hcl, ?_⟩
        · simp [hlr]
        · simp [hq, hr] }
  · rw [hw]
    exact h.frame _ rfl rfl rfl rfl rfl rfl rfl rfl h.byHost (by simpa using h.numbered)
      fun hc => List.mem_append_left _ (h.closing hc)

theorem Orderly.loop_eq_none (h : Orderly net s) (hd : s.writer.drain.fanOut? = none) :
    s.loop = none := by
  have := h.inHand
  rw [hd] at this
  exact Option.map_eq_none_iff.1 this.symm

theorem Orderly.loop_eq_some (h : Orderly net s) {f : FanOut}
    (hd : s.writer.drain.fanOut? = some f) : ∃ c, s.loop = some c ∧ c.fanOut net = f := by
  have := h.inHand
  rw [hd] at this
  exact Option.map_eq_some_iff.1 this.symm

/-- A loop that has not been cut off and waits for no call has delivered all that it took. -/
theorem Orderly.delivered (h : Orderly net s) (hl : s.loop = none)
    (hs : s.writer.drain ≠ .stopped) :
    ∃ delivered : List Sending, loopEvents s.log = delivered.flatMap Sending.turn := by
  obtain ⟨delivered, last, hlog, ⟨rfl, -⟩ | ⟨c, -, hc⟩ | ⟨c, -, -, hstop⟩⟩ := h.inTurn
  · exact ⟨delivered, by simpa using hlog⟩
  · rw [hl] at hc
    cases hc
  · exact absurd hstop hs

theorem Orderly.under_way (h : Orderly net s) {c : Sending} (hl : s.loop = some c) :
    ∃ delivered : List Sending,
      loopEvents s.log = delivered.flatMap Sending.turn ++ c.opening := by
  obtain ⟨delivered, last, hlog, ⟨-, hn⟩ | ⟨d, rfl, hd⟩ | ⟨d, -, hn, -⟩⟩ := h.inTurn
  · rw [hl] at hn
    cases hn
  · rw [hl] at hd
    cases hd
    exact ⟨delivered, hlog⟩
  · rw [hl] at hn
    cases hn

/-- The drain loop goes to another point, with no batch in hand before or after. -/
theorem Orderly.turn (h : Orderly net s) {phase : DrainPhase} (hd : s.writer.drain.fanOut? = none)
    (hne : s.writer.drain ≠ .stopped) (hp : phase.fanOut? = none)
    (hf : phase.InFlush → .closed ∈ s.log) (hs : phase = .stopped → s.writer.queue.toList = []) :
    Orderly net { s with writer := { s.writer with drain := phase } } := by
  have hl := h.loop_eq_none hd
  obtain ⟨delivered, hlog⟩ := h.delivered hl hne
  refine { h with inHand := ?_, inTurn := ?_, flush := hf, rest := ?_ }
  · simp [hl, hp]
  · exact ⟨delivered, [], by simpa using hlog, .inl ⟨rfl, hl⟩⟩
  · intro (hstop : phase = .stopped) _
    exact ⟨s.log, [], by simp, hf (by rw [hstop]; trivial), hs hstop⟩

/-- The drain loop pops a batch. -/
theorem Orderly.take (h : Orderly net s) {w : Writer} {c : Sending}
    (hd : s.writer.drain.fanOut? = none) (hne : s.writer.drain ≠ .stopped)
    (hq : s.writer.queue.toList ≠ [])
    (hc : c = ⟨false, s.writer.fanOuts, s.writer.destinations,
      (s.writer.queue.popMany s.writer.batchLimit).1⟩)
    (hw : w = { s.writer with
      queue := (s.writer.queue.popMany s.writer.batchLimit).2
      fanOuts := s.writer.fanOuts + 1, drain := w.drain })
    (hp : w.drain.fanOut? = some (c.fanOut net)) (hf : w.drain.InFlush → .closed ∈ s.log) :
    Orderly net
      { s with writer := w, loop := some c, log := s.log ++ [.popped c.batch, .begun c] } := by
  obtain ⟨delivered, hlog⟩ := h.delivered (h.loop_eq_none hd) hne
  have hb : c.batch = s.writer.queue.toList.take s.writer.batchLimit := by
    rw [hc, BoundedQueue.popMany_fst]
  have hqw : w.queue.toList = s.writer.queue.toList.drop s.writer.batchLimit := by
    rw [hw, BoundedQueue.toList_popMany]
  have hset : w.batchLimit = s.writer.batchLimit := by rw [hw]; rfl
  refine {
    order := ?_, batches := ?_, inHand := hp, byLoop := ?_, byHost := h.byHost, inTurn := ?_
    numbered := ?_, closing := ?_, flush := ?_, rest := ?_ }
  · simp [hb, hqw, ← h.order]
  · intro b hm
    rw [hset]
    simp only [poppedBatches_append, poppedBatches_cons, Event.popped?, Option.toList,
      poppedBatches_nil, List.append_nil, List.mem_append, List.mem_singleton] at hm
    rcases hm with hm | rfl
    · exact h.batches b hm
    · rw [hc]
      refine ⟨mt (popMany_batch_eq_nil _).1 hq, ?_⟩
      rw [BoundedQueue.popMany_fst]
      exact List.length_take_le ..
  · intro d hd
    cases hd
    rw [hc]
  · exact ⟨delivered, c.opening, by simp [hlog, Sending.opening, hc], .inr (.inl ⟨c, rfl, rfl⟩)⟩
  · rw [hw, hc]
    simp [h.numbered, List.range_succ]
  · rw [hw]
    exact fun hcl => List.mem_append_left _ (h.closing hcl)
  · exact fun hpf => List.mem_append_left _ (hf hpf)
  · intro (hstop : w.drain = .stopped)
    rw [hstop] at hp
    cases hp

/-- The call for the batch in hand is over. -/
theorem Orderly.complete (h : Orderly net s) {w : Writer} {c : Sending} (hl : s.loop = some c)
    (hw : w = { s.writer with counters := w.counters, drain := w.drain })
    (hp : w.drain.fanOut? = none) (hne : w.drain ≠ .stopped)
    (hf : w.drain.InFlush → .closed ∈ s.log) :
    Orderly net { s with writer := w, loop := none, log := s.log ++ [.completed c] } := by
  obtain ⟨delivered, hlog⟩ := h.under_way hl
  have hdir := h.byLoop c hl
  rw [hw] at hp hne hf ⊢
  refine {
    order := ?_, batches := ?_, inHand := hp, byLoop := ?_, byHost := h.byHost, inTurn := ?_
    numbered := ?_, closing := ?_, flush := ?_, rest := ?_ }
  · simpa using h.order
  · simpa [batchLimit] using h.batches
  · simp
  · exact ⟨delivered ++ [c], [], by simp [hlog, hdir, Sending.turn], .inl ⟨rfl, rfl⟩⟩
  · simpa using h.numbered
  · exact fun hcl => List.mem_append_left _ (h.closing hcl)
  · exact fun hpf => List.mem_append_left _ (hf hpf)
  · exact fun hstop => absurd hstop hne

/-- The final flush is cut off. -/
theorem Orderly.cut (h : Orderly net s) {c : Sending} (hl : s.loop = some c)
    (hf : s.writer.drain.InFlush) :
    Orderly net
      { s with
        writer := { s.writer with drain := .stopped }, loop := none, log := s.log ++ [.cut c] } := by
  obtain ⟨delivered, hlog⟩ := h.under_way hl
  have hdir := h.byLoop c hl
  refine {
    order := ?_, batches := ?_, inHand := rfl, byLoop := ?_, byHost := h.byHost, inTurn := ?_
    numbered := ?_, closing := ?_, flush := ?_, rest := ?_ }
  · simpa using h.order
  · simpa [batchLimit] using h.batches
  · simp
  · exact ⟨delivered, c.opening ++ [.cut c], by simp [hlog, hdir],
      .inr (.inr ⟨c, rfl, rfl, rfl⟩)⟩
  · simpa using h.numbered
  · exact fun hcl => List.mem_append_left _ (h.closing hcl)
  · exact fun _ => List.mem_append_left _ (h.flush hf)
  · exact fun _ hcut => absurd (by simp) (hcut c)

theorem Orderly.moved (h : Orderly net s) {w : Writer} (hm : Move net s.writer w)
    (hne : s.writer.drain ≠ .stopped) : Orderly net (s.moved w) := by
  cases hm with
  | turn hd hp hf hs =>
    rw [Session.moved_turn hd hp]
    exact h.turn hd hne hp (fun hpf => h.closing (hf hpf)) fun he => absurd he hs
  | stop hd hf he =>
    rw [Session.moved_turn hd rfl]
    exact h.turn hd hne rfl (fun _ => h.flush hf) fun _ => he
  | take hd hq hp hf =>
    rw [Session.moved_take hd hp rfl]
    refine h.take hd hne hq ?_ rfl ?_ fun hpf => h.flush (hf hpf)
    · rw [Session.taken_popMany]
    · rw [Session.taken_popMany]
      exact hp
  | complete hd hp hf hs =>
    obtain ⟨c, hl, -⟩ := h.loop_eq_some hd
    rw [Session.moved_complete hd hl hp hs]
    exact h.complete hl rfl hp hs fun hpf => h.flush (hf hpf)
  | cut hd hf =>
    obtain ⟨c, hl, -⟩ := h.loop_eq_some hd
    rw [Session.moved_cut hd hl rfl]
    exact h.cut hl hf

theorem orderly_step (h : Orderly net s) {t : Session} (hs : Step net s t) : Orderly net t := by
  cases hs with
  | write now samples => exact h.write now samples
  | register name options =>
    obtain ⟨d, hd⟩ := s.writer.register_writer name options net.readUrl
    rw [hd]
    exact { h with }
  | deregister name =>
    obtain ⟨d, hd⟩ := s.writer.deregister_writer name
    rw [hd]
    exact { h with }
  | close =>
    exact h.frame [.closed] rfl rfl rfl rfl rfl rfl rfl rfl h.byHost
      (by simpa [Session.close] using h.numbered) fun _ => by simp
  | send series =>
    refine h.frame [.begun _] rfl rfl rfl rfl rfl rfl rfl rfl ?_ ?_ ?_
    · intro c hc
      rcases List.mem_append.1 hc with hc | hc
      · exact h.byHost c hc
      · rw [List.mem_singleton.1 hc]
    · simp [Session.send, beginFanOut, h.numbered, List.range_succ]
    · exact fun hcl => List.mem_append_left _ (h.closing hcl)
  | @sent l r c hd =>
    have hmem : ∀ d ∈ l ++ c :: r, d.direct = true := hd ▸ h.byHost
    have hc : c.direct = true := hmem c (by simp)
    refine h.frame [.completed c] rfl rfl rfl (by simp [hc]) rfl rfl rfl rfl ?_ ?_ ?_
    · intro d hdm
      refine hmem d ?_
      rcases List.mem_append.1 hdm with hdm | hdm
      · exact List.mem_append_left _ hdm
      · exact List.mem_append_right _ (List.mem_cons_of_mem _ hdm)
    · simpa [record] using h.numbered
    · exact fun hcl => List.mem_append_left _ (h.closing hcl)
  | drain hm => exact h.moved (move_of_step? hm) (ne_stopped_of_step? hm)

theorem orderly_of_steps {t : Session} (h : Orderly net s) (hs : Steps net s t) :
    Orderly net t := by
  induction hs with
  | refl => exact h
  | tail _ hstep ih => exact orderly_step ih hstep

end Steps

/-! ## Exactly once, in order -/

/-- At every point of every run, what was popped and what is queued is what was admitted, in order;
the drain loop passes each batch to one call, of at most its limit, and waits for the call to end; and
a first close that was neither cut off nor followed by writes leaves an empty queue. -/
theorem popped_append_queued_eq_admitted {net : Network} {settings : WriterSettings} {s : Session}
    (h : Reachable net settings s) :
    (poppedBatches s.log).flatten ++ s.writer.queue.toList = admittedSeries s.log ∧
    (∀ batch ∈ poppedBatches s.log, batch ≠ [] ∧ batch.length ≤ max settings.batchSize 1) ∧
    s.InTurn ∧ s.writer.drain.fanOut? = s.loop.map (fun c => c.fanOut net) ∧
    (begunCalls s.log).map Sending.number = List.range s.writer.fanOuts ∧
    (s.writer.drain = .stopped → (∀ c, .cut c ∉ s.log) →
      (∀ series admitted, .offered series admitted ∉ sinceClose s.log) →
      s.writer.queue.toList = []) := by
  have ho : Orderly net s := orderly_of_steps (orderly_start settings) h
  have hset : s.writer.settings = settings := h.settings
  refine ⟨ho.order, fun batch hb => ?_, ho.inTurn, ho.inHand, ho.numbered, fun hstop hcut hoff => ?_⟩
  · have := ho.batches batch hb
    rwa [batchLimit, hset] at this
  · obtain ⟨l, r, hlr, hcl, hr⟩ := ho.rest hstop hcut
    rw [hr]
    refine admittedSeries_eq_nil fun series admitted hm => hoff series admitted ?_
    rw [hlr]
    exact mem_sinceClose hcl hm

def probe (metric : String) : Sample :=
  { source := "probe", metric, value := .int 1, timestamp := some ⟨0, 0⟩ }

/-- A queue of three series and batches of one: the second write does not fit, and the close flushes
what is left. -/
def backlog : Session :=
  (Session.start { queueCapacity := 3, batchSize := 0 }).run .unreachable
    [.write ⟨0, 0⟩ [probe "a", probe "b"], .drain 0, .write ⟨0, 0⟩ [probe "c", probe "d", probe "e"],
      .drain 0, .close, .drain 0, .drain 0, .drain 0, .drain 0]

theorem reachable_backlog :
    Reachable .unreachable { queueCapacity := 3, batchSize := 0 } backlog := steps_run ..

theorem backlog_emptied :
    backlog.writer.drain = .stopped ∧ (poppedBatches backlog.log).length = 2 ∧
      backlog.writer.queue.toList = [] := by
  obtain ⟨-, -, -, -, -, hflushed⟩ := popped_append_queued_eq_admitted reachable_backlog
  have hstop : backlog.writer.drain = .stopped := DrainPhase.isStopped_iff.1 (by decide +kernel)
  have hcut : backlog.log.any Event.cuts = false := by decide +kernel
  have hoff : (sinceClose backlog.log).any Event.offers = false := by decide +kernel
  refine ⟨hstop, by decide +kernel, hflushed hstop (fun c hc => ?_) fun series admitted hm => ?_⟩
  · exact List.any_eq_false.1 hcut _ hc rfl
  · exact List.any_eq_false.1 hoff _ hm rfl

end MetricRelay.Writer
