import Mathlib.Algebra.Order.Ring.Nat
import Mathlib.Data.List.Induction
import MetricRelay.Proofs.Writer.Accounting
import MetricRelay.Proofs.Writer.Closing
import MetricRelay.Proofs.Writer.Flush

/-!
# What a close can lose

Once the drain loop has stopped, all that was admitted has been delivered by completed calls, or was in
the one batch that the flush was cut off in, or is still queued (`Flushed`). A flush is cut off at its
deadline only, so a close that returns before that loses nothing (`uncut_run`), and after it only the
host itself changes the queue and the counters (`frozen_run`).
-/

namespace MetricRelay

/-- A flush, if it has begun, is not cut off before `limit`. -/
def DrainPhase.Spares (limit : Nat) : DrainPhase → Prop
  | .flushing deadline | .flushingBatch deadline _ _ => limit ≤ deadline
  | _ => True

theorem DrainPhase.spares_of_not_inFlush {phase : DrainPhase} (limit : Nat) (h : ¬phase.InFlush) :
    phase.Spares limit := by
  cases phase with
  | flushing | flushingBatch => exact absurd trivial h
  | _ => trivial

namespace Writer

/-! ## Completed and lost batches -/

namespace Event

@[simp] def finished : Event → List Sending
  | .completed c => [c]
  | _ => []

/-- The series that were in hand when the flush was cut off. -/
@[simp] def lost : Event → List Series
  | .cut c => c.batch
  | _ => []

/-- Whether it is about a direct call. -/
@[simp] def ofHost : Event → Bool
  | .begun c | .completed c | .cut c => c.direct
  | _ => false

end Event

/-- The calls that are over, oldest first. -/
def completedCalls (log : List Event) : List Sending := log.flatMap Event.finished

/-- The series that were popped and never delivered. -/
def lostSeries (log : List Event) : List Series := log.flatMap Event.lost

/-- The rest of a log says nothing that only the drain loop can say. -/
theorem flatMap_loopEvents {α : Type} {f : Event → List α} {log : List Event}
    (h : ∀ e ∈ log, e.byLoop = false → f e = []) : (loopEvents log).flatMap f = log.flatMap f := by
  induction log with
  | nil => rfl
  | cons e r ih =>
    have hr := ih fun d hd => h d (List.mem_cons_of_mem _ hd)
    rw [loopEvents_cons, List.flatMap_cons]
    split
    · rw [List.flatMap_cons, hr]
    · next hloop => rw [hr, h e List.mem_cons_self (Bool.eq_false_iff.2 hloop), List.nil_append]

theorem completedCalls_append (l m : List Event) :
    completedCalls (l ++ m) = completedCalls l ++ completedCalls m := List.flatMap_append

theorem lostSeries_append (l m : List Event) :
    lostSeries (l ++ m) = lostSeries l ++ lostSeries m := List.flatMap_append

theorem completedCalls_turns (delivered : List Sending) :
    completedCalls (delivered.flatMap Sending.turn) = delivered := by
  induction delivered with
  | nil => rfl
  | cons c r ih =>
    rw [List.flatMap_cons, completedCalls_append, ih]
    rfl

theorem lostSeries_turns (delivered : List Sending) :
    lostSeries (delivered.flatMap Sending.turn) = [] := by
  induction delivered with
  | nil => rfl
  | cons c r ih =>
    rw [List.flatMap_cons, lostSeries_append, ih]
    rfl

/-- What only completed calls count is a sum over them. -/
theorem tally_completed {count : Event → Nat} (h : ∀ e : Event, e.finished = [] → count e = 0)
    (log : List Event) :
    tally count log = ((completedCalls log).map fun c => count (.completed c)).sum := by
  induction log with
  | nil => rfl
  | cons e r ih =>
    unfold completedCalls at ih ⊢
    rw [tally_cons, ih, List.flatMap_cons, List.map_append, List.sum_append]
    cases e with
    | completed c => simp
    | _ => rw [h _ rfl]; rfl

/-! ## Runs without direct calls -/

variable {net : Network} {settings : WriterSettings} {s : Session} {actions : List Action}

/-- The host delivers nothing itself. -/
structure Indirect (s : Session) : Prop where
  direct : s.direct = []
  log : ∀ e ∈ s.log, e.ofHost = false

theorem Indirect.act (h : Indirect s) (ho : Orderly net s) {a : Action}
    (ha : ∀ series, a ≠ .send series) : Indirect (s.act net a) := by
  have hnew {e : Event} (he : e.ofHost = false) : ∀ d ∈ s.log ++ [e], d.ofHost = false := by
    intro d hd
    rcases List.mem_append.1 hd with hd | hd
    · exact h.log d hd
    · rw [List.mem_singleton.1 hd]
      exact he
  cases a with
  | write now samples => exact ⟨h.direct, hnew rfl⟩
  | register | deregister => exact ⟨h.direct, h.log⟩
  | close => exact ⟨h.direct, hnew rfl⟩
  | send series => exact absurd rfl (ha series)
  | sent =>
    simp only [Session.act]
    rw [h.direct]
    exact h
  | drain now =>
    simp only [Session.act]
    split
    · unfold Session.moved
      split
      · refine ⟨h.direct, fun d hd => ?_⟩
        rcases List.mem_append.1 hd with hd | hd
        · exact h.log d hd
        · simp only [List.mem_cons, List.not_mem_nil, or_false] at hd
          rcases hd with rfl | rfl <;> rfl
      · next c _ _ hc =>
        have hloop : c.direct = false := ho.byLoop c hc
        exact ⟨h.direct, hnew (by split <;> exact hloop)⟩
      · exact ⟨h.direct, h.log⟩
    · exact h

theorem orderly_run (net : Network) (settings : WriterSettings) (actions : List Action) :
    Orderly net ((Session.start settings).run net actions) :=
  orderly_of_steps (orderly_start settings) (steps_run ..)

theorem indirect_run (net : Network) (settings : WriterSettings)
    (h : ∀ series, .send series ∉ actions) :
    Indirect ((Session.start settings).run net actions) := by
  induction actions using List.reverseRecOn with
  | nil => exact ⟨rfl, fun e he => by cases he⟩
  | append_singleton l a ih =>
    rw [run_concat]
    refine (ih fun series hm => h series (List.mem_append_left _ hm)).act (orderly_run ..) ?_
    rintro series rfl
    exact h series (by simp)

theorem Indirect.byLoop (h : Indirect s) {e : Event} (he : e ∈ s.log) (hl : e.byLoop = false) :
    e.finished = [] ∧ e.lost = [] := by
  have hhost := h.log e he
  cases e <;> simp_all

/-! ## Where everything is once the loop has stopped -/

/-- All that was admitted, in order, is what completed calls delivered, then the batch that was lost, if
one was, then the queue. The counters say what was delivered. -/
structure Flushed (net : Network) (s : Session) : Prop where
  split : ((completedCalls s.log).map Sending.batch).flatten ++ lostSeries s.log ++
    s.writer.queue.toList = admittedSeries s.log
  written : s.writer.counters.writeTotal =
    ((completedCalls s.log).map fun c => c.batch.length * c.destinations.size).sum
  unwritten : s.writer.counters.writeFailTotal =
    ((completedCalls s.log).map fun c => c.batch.length * c.failures net).sum
  lost : (lostSeries s.log).length ≤ max s.writer.settings.batchSize 1
  cut : lostSeries s.log = [] ∨ ∃ c, .cut c ∈ s.log ∧ lostSeries s.log = c.batch

theorem lostSeries_of_uncut {log : List Event} (h : ∀ c, .cut c ∉ log) : lostSeries log = [] := by
  refine List.flatMap_eq_nil_iff.2 fun e he => ?_
  cases e with
  | cut c => exact absurd he (h c)
  | _ => rfl

/-- The batches that the loop has popped are those of the completed calls, and the lost one. -/
theorem Orderly.popped_of_stopped (h : Orderly net s) (hi : Indirect s)
    (hs : s.writer.drain = .stopped) :
    (lostSeries s.log = [] ∧
      poppedBatches s.log = (completedCalls s.log).map Sending.batch) ∨
    ∃ c, .cut c ∈ s.log ∧ lostSeries s.log = c.batch ∧
      poppedBatches s.log = (completedCalls s.log).map Sending.batch ++ [c.batch] := by
  have hnone : s.loop = none := h.loop_eq_none (by rw [hs]; rfl)
  have hlost : lostSeries (loopEvents s.log) = lostSeries s.log :=
    flatMap_loopEvents fun e he hl => (hi.byLoop he hl).2
  have hdone : completedCalls (loopEvents s.log) = completedCalls s.log :=
    flatMap_loopEvents fun e he hl => (hi.byLoop he hl).1
  rw [← hlost, ← hdone, ← poppedBatches_loopEvents]
  obtain ⟨delivered, last, hlog, ⟨rfl, -⟩ | ⟨c, -, hc⟩ | ⟨c, rfl, -, -⟩⟩ := h.inTurn
  · left
    rw [hlog, List.append_nil, lostSeries_turns, completedCalls_turns, poppedBatches_turns]
    exact ⟨rfl, rfl⟩
  · rw [hnone] at hc
    cases hc
  · right
    refine ⟨c, (List.mem_filter.1 (show .cut c ∈ loopEvents s.log by simp [hlog])).1, ?_⟩
    rw [hlog, lostSeries_append, lostSeries_turns, completedCalls_append, completedCalls_turns,
      poppedBatches_append, poppedBatches_turns]
    simp [Sending.opening, lostSeries, completedCalls]

theorem flushed_of_stopped (h : Orderly net s) (ha : Accounts net s) (hi : Indirect s)
    (hs : s.writer.drain = .stopped) : Flushed net s := by
  have hwritten := ha.writeTotal
  have hunwritten := ha.writeFailTotal
  rw [tally_completed (by rintro (_ | _ | _) <;> simp)] at hwritten hunwritten
  rcases h.popped_of_stopped hi hs with ⟨hlost, hpopped⟩ | ⟨c, hc, hlost, hpopped⟩
  · refine ⟨?_, hwritten, hunwritten, by simp [hlost], .inl hlost⟩
    rw [hlost, List.append_nil, ← hpopped]
    exact h.order
  · have hbatch := h.batches c.batch (by simp [hpopped])
    refine ⟨?_, hwritten, hunwritten, hlost ▸ hbatch.2, .inr ⟨c, hc, hlost⟩⟩
    rw [← h.order, hpopped, hlost, List.flatten_append, List.flatten_singleton]

theorem flushed_run (hsend : ∀ series, .send series ∉ actions)
    (hs : ((Session.start settings).run net actions).writer.drain = .stopped) :
    Flushed net ((Session.start settings).run net actions) :=
  flushed_of_stopped (orderly_run ..)
    (accounts_of_steps (accounts_start settings) (orderly_start settings) (steps_run ..))
    (indirect_run net settings hsend) hs

/-! ## Flushes that end in time -/

/-- Before the flush nothing is cut off. -/
theorem uncut_of_not_inFlush (h : Reachable net settings s) (hflush : ¬s.writer.drain.InFlush) :
    ∀ c, .cut c ∉ s.log := by
  intro c hc
  refine hflush ?_
  rw [h.uncut (fun d hd => by cases hd) c hc]
  trivial

section Spares

variable {w w' : Writer} {now limit : Nat}

/-- A flush has its whole time from where it begins, and no call is cut off before that is over. -/
theorem spares_step? (h : w.step? net now = some w') (hs : w.drain.Spares limit)
    (hbegun : limit ≤ now + w.settings.flushTimeout.millisUp) (hnow : now < limit) :
    w'.drain.Spares limit ∧
      (w.drain.fanOut?.isSome = true → w'.drain ≠ .stopped) := by
  unfold step? at h
  split at h
  case h_1 hd =>
    refine ⟨?_, by simp [hd, DrainPhase.fanOut?]⟩
    split at h
    · cases h
      exact hbegun
    · cases h
      unfold lookAtQueue
      split <;> trivial
  case h_2 wake hd =>
    split at h
    · cases h
      exact ⟨trivial, by simp⟩
    · cases h
  case h_3 f done hd =>
    split at h
    · cases h
      exact ⟨trivial, by simp⟩
    · cases h
  case h_4 deadline hd =>
    cases h
    rw [hd] at hs
    refine ⟨?_, by simp [hd, DrainPhase.fanOut?]⟩
    unfold flushQueue
    split
    · trivial
    · exact hs
  case h_5 deadline f done hd =>
    rw [hd] at hs
    split at h
    · cases h
      exact ⟨hs, by simp⟩
    · split at h
      · next hover =>
        have hlimit : limit ≤ deadline := hs
        omega
      · cases h
  case h_6 => cases h

/-- Only a move of the drain loop touches its phase, or cuts a call off. -/
theorem act_drain_cases (net : Network) (s : Session) (a : Action) :
    ((s.act net a).writer.drain = s.writer.drain ∧
      ∀ c, .cut c ∈ (s.act net a).log → .cut c ∈ s.log) ∨
    ∃ now w, a = .drain now ∧ s.writer.step? net now = some w ∧ s.act net a = s.moved w := by
  cases a with
  | write now samples =>
    exact .inl ⟨(s.writer.drain_writeSamples now samples).2, by simp [Session.act, Session.write]⟩
  | register name options =>
    obtain ⟨d, hd⟩ := s.writer.register_writer name options net.readUrl
    exact .inl ⟨by simp only [Session.act, hd], fun c hc => hc⟩
  | deregister name =>
    obtain ⟨d, hd⟩ := s.writer.deregister_writer name
    exact .inl ⟨by simp only [Session.act, hd], fun c hc => hc⟩
  | close => exact .inl ⟨rfl, by simp [Session.act, Session.close]⟩
  | send series => exact .inl ⟨rfl, by simp [Session.act, Session.send]⟩
  | sent =>
    simp only [Session.act]
    split
    · exact .inl ⟨rfl, fun c hc => hc⟩
    · exact .inl ⟨rfl, by simp⟩
  | drain now =>
    simp only [Session.act]
    split
    · next w hw => exact .inr ⟨now, w, rfl, hw, rfl⟩
    · exact .inl ⟨rfl, fun c hc => hc⟩

/-- Nothing is cut off as long as all moves come before a limit that the flush has time until. -/
theorem uncut_run {begun : Nat} (hs : s.writer.drain.Spares limit)
    (hbegun : limit ≤ begun + s.writer.settings.flushTimeout.millisUp)
    (hmoves : ∀ now, .drain now ∈ actions → begun ≤ now ∧ now < limit) :
    ∀ c, .cut c ∈ (s.run net actions).log → .cut c ∈ s.log := by
  induction actions generalizing s with
  | nil => exact fun c hc => hc
  | cons a r ih =>
    have hset := (steps_act net s a).settings
    have hact : (s.act net a).writer.drain.Spares limit ∧
        ∀ c, .cut c ∈ (s.act net a).log → .cut c ∈ s.log := by
      rcases act_drain_cases net s a with ⟨hd, hcut⟩ | ⟨now, w, rfl, hw, hmoved⟩
      · exact ⟨hd ▸ hs, hcut⟩
      · obtain ⟨hfrom, hto⟩ := hmoves now List.mem_cons_self
        obtain ⟨hspares, hgoes⟩ := spares_step? hw hs (by omega) hto
        rw [hmoved]
        refine ⟨by rwa [Session.moved_writer], fun c hc => ?_⟩
        rcases (Step.drain s hw).cut_mem hc with hold | ⟨hf, hstop⟩
        · exact hold
        · exact absurd (s.moved_writer w ▸ hstop) (hgoes hf)
    intro c hc
    refine hact.2 c (ih hact.1 (hset ▸ hbegun) (fun now hm => ?_) c hc)
    exact hmoves now (List.mem_cons_of_mem _ hm)

end Spares

/-! ## After the loop has stopped -/

theorem moves_of_none {w : Writer} {now : Nat} (limit : Nat) (h : w.step? net now = none) :
    w.moves net now limit = w := by
  cases limit with
  | zero => rfl
  | succ limit => rw [moves, h]

theorem step?_of_stopped {w : Writer} (now : Nat) (h : w.drain = .stopped) :
    w.step? net now = none := by
  unfold step?
  rw [h]

/-- Another close of a stopped writer is over at once. -/
theorem close_of_stopped {w : Writer} (net : Network) (now : Nat) (h : w.drain = .stopped)
    (hc : w.closing = true) : w.close net now = (now, w) := by
  have hw : { w with closing := true } = w := by rw [← hc]
  unfold close
  rw [hw, finish, settle, moves_of_none _ (step?_of_stopped now h), wake?, h]

/-- A flush begins in a writer that has been told to close. -/
theorem closing_of_inFlush {t : Session} (h : Steps net s t)
    (hs : s.writer.drain.InFlush → s.writer.closing = true) :
    t.writer.drain.InFlush → t.writer.closing = true := by
  induction h with
  | refl => exact hs
  | tail _ hstep ih =>
    cases hstep with
    | write now samples =>
      obtain ⟨hc, hd⟩ := drain_writeSamples _ now samples
      intro hf
      exact hc.trans (ih (hd ▸ hf))
    | register name options =>
      obtain ⟨d, hd⟩ := register_writer _ name options net.readUrl
      rw [hd]
      exact ih
    | deregister name =>
      obtain ⟨d, hd⟩ := deregister_writer _ name
      rw [hd]
      exact ih
    | close => exact fun _ => rfl
    | send => exact ih
    | sent => exact ih
    | drain hm =>
      rw [Session.moved_writer]
      intro hf
      cases move_of_step? hm with
      | turn _ _ hflush _ => exact hflush hf
      | stop _ hflush _ => exact ih hflush
      | take _ _ _ hflush => exact ih (hflush hf)
      | complete _ _ hflush _ => exact ih (hflush hf)
      | cut _ hflush => exact ih hflush

/-- The queue and the counters of a stopped writer wait for the host. -/
theorem frozen_run (hdirect : s.direct = []) (hs : s.writer.drain = .stopped)
    (hsend : ∀ series, .send series ∉ actions)
    (hwrite : ∀ now samples, .write now samples ∉ actions) :
    (s.run net actions).writer.queue = s.writer.queue ∧
      (s.run net actions).writer.counters = s.writer.counters := by
  induction actions generalizing s with
  | nil => exact ⟨rfl, rfl⟩
  | cons a r ih =>
    have hact : (s.act net a).direct = [] ∧ (s.act net a).writer.drain = .stopped ∧
        (s.act net a).writer.queue = s.writer.queue ∧
        (s.act net a).writer.counters = s.writer.counters := by
      cases a with
      | write now samples => exact absurd List.mem_cons_self (hwrite now samples)
      | send series => exact absurd List.mem_cons_self (hsend series)
      | register name options =>
        obtain ⟨d, hd⟩ := s.writer.register_writer name options net.readUrl
        rw [Session.act, hd]
        exact ⟨hdirect, hs, rfl, rfl⟩
      | deregister name =>
        obtain ⟨d, hd⟩ := s.writer.deregister_writer name
        rw [Session.act, hd]
        exact ⟨hdirect, hs, rfl, rfl⟩
      | close => exact ⟨hdirect, hs, rfl, rfl⟩
      | sent =>
        rw [Session.act, hdirect]
        exact ⟨hdirect, hs, rfl, rfl⟩
      | drain now =>
        rw [Session.act, step?_of_stopped now hs]
        exact ⟨hdirect, hs, rfl, rfl⟩
    obtain ⟨hd, hst, hq, hc⟩ := hact
    obtain ⟨hqr, hcr⟩ := ih hd hst (fun series hm => hsend series (List.mem_cons_of_mem _ hm))
      fun now samples hm => hwrite now samples (List.mem_cons_of_mem _ hm)
    exact ⟨hqr.trans hq, hcr.trans hc⟩

/-! ## Closing, instant by instant -/

theorem writer_run_replicate (net : Network) (s : Session) (now limit : Nat) :
    (s.run net (List.replicate limit (.drain now))).writer = s.writer.moves net now limit := by
  induction limit generalizing s with
  | zero => rfl
  | succ limit ih =>
    show ((s.act net (.drain now)).run net (List.replicate limit (.drain now))).writer = _
    rw [ih, moves]
    cases hw : s.writer.step? net now with
    | none => simp only [Session.act, hw, moves_of_none limit hw]
    | some w => simp only [Session.act, hw, Session.moved_writer]

/-- The loop wakes up at an instant that is still to come. -/
theorem lt_of_wake? {w : Writer} {now t : Nat} (h : w.step? net now = none)
    (ht : w.wake? = some t) : now < t := by
  unfold step? at h
  unfold wake? at ht
  cases hd : w.drain with
  | idle wake =>
    simp only [hd] at h ht
    cases ht
    by_contra hle
    rw [if_pos (.inr (by omega))] at h
    cases h
  | delivering f done =>
    simp only [hd] at h ht
    cases ht
    by_contra hle
    rw [if_pos (by omega)] at h
    cases h
  | flushingBatch deadline f done =>
    simp only [hd] at h ht
    cases ht
    by_contra hle
    split at h
    · cases h
    · rw [if_pos (by omega)] at h
      cases h
  | _ => simp [hd] at ht

theorem exists_instants_finish (net : Network) (s : Session) (now limit : Nat) :
    ∃ instants : List Nat,
      (s.run net (instants.map .drain)).writer = (s.writer.finish net limit now).2 ∧
      now ≤ (s.writer.finish net limit now).1 ∧
      ∀ t ∈ instants, now ≤ t ∧ t ≤ (s.writer.finish net limit now).1 := by
  induction limit generalizing s now with
  | zero => exact ⟨[], rfl, Nat.le_refl _, by simp⟩
  | succ limit ih =>
    obtain ⟨k, hk⟩ : ∃ k, (s.run net (List.replicate k (.drain now))).writer =
        s.writer.settle net now := ⟨_, writer_run_replicate ..⟩
    unfold finish
    simp only
    rw [← hk]
    cases hwake : (s.run net (List.replicate k (.drain now))).writer.wake? with
    | none =>
      refine ⟨List.replicate k now, by rw [List.map_replicate], Nat.le_refl _, fun t ht => ?_⟩
      rw [List.eq_of_mem_replicate ht]
      exact ⟨Nat.le_refl _, Nat.le_refl _⟩
    | some later =>
      have hlater : now < later := lt_of_wake? (hk ▸ step?_settle net now s.writer) hwake
      obtain ⟨instants, hw, hle, hin⟩ := ih (s.run net (List.replicate k (.drain now))) later
      have hnow := Nat.le_trans (Nat.le_of_lt hlater) hle
      refine ⟨List.replicate k now ++ instants, ?_, hnow, fun t ht => ?_⟩
      · rw [List.map_append, List.map_replicate, run_append]
        exact hw
      · rcases List.mem_append.1 ht with ht | ht
        · rw [List.eq_of_mem_replicate ht]
          exact ⟨Nat.le_refl _, hnow⟩
        · obtain ⟨hfrom, hto⟩ := hin t ht
          exact ⟨by omega, hto⟩

/-- A close is a run of the drain loop, at instants up to where it returns. -/
theorem exists_instants_close (net : Network) (s : Session) (now : Nat) :
    ∃ instants : List Nat,
      (s.run net (.close :: instants.map .drain)).writer = (s.writer.close net now).2 ∧
      ∀ t ∈ instants, now ≤ t ∧ t ≤ (s.writer.close net now).1 := by
  obtain ⟨instants, hw, -, hin⟩ :=
    exists_instants_finish net s.close now (s.writer.queue.size + 3)
  exact ⟨instants, hw, hin⟩

/-- Without direct calls, once the loop has stopped, all that was admitted is what completed calls
delivered and the counters count, then at most one batch that the flush was cut off in, then the queue.
Nothing was lost if the moves of the loop, from some instant before the flush on, came within its time.
From then on only the host's writes change the queue and the counters, and another close changes
nothing. A first close gets there, and loses nothing if it returns in time. -/
theorem close_loses_at_most_one_batch {net : Network} {settings : WriterSettings}
    {actions : List Action} (hsend : ∀ series, .send series ∉ actions) :
    let s := (Session.start settings).run net actions
    (s.writer.drain = .stopped →
      Flushed net s ∧
      (∀ before after begun, actions = before ++ after →
        ¬((Session.start settings).run net before).writer.drain.InFlush →
        (∀ now, .drain now ∈ after →
          begun ≤ now ∧ now < begun + settings.flushTimeout.millisUp) →
        lostSeries s.log = []) ∧
      (∀ more, (∀ series, .send series ∉ more) → (∀ now samples, .write now samples ∉ more) →
        (s.run net more).writer.queue = s.writer.queue ∧
        (s.run net more).writer.counters = s.writer.counters) ∧
      ∀ now, s.writer.close net now = (now, s.writer)) ∧
    (.closed ∉ s.log → ∀ now, ∃ instants : List Nat,
      let t := s.run net (.close :: instants.map .drain)
      t.writer = (s.writer.close net now).2 ∧ t.writer.drain = .stopped ∧ Flushed net t ∧
      ((s.writer.close net now).1 < now + settings.flushTimeout.millisUp →
        lostSeries t.log = [])) := by
  intro s
  have hsteps : Reachable net settings s := steps_run ..
  refine ⟨fun hstop => ⟨?_, ?_, ?_, ?_⟩, fun hopen now => ?_⟩
  · exact flushed_run hsend hstop
  · intro before after begun hactions hflush hmoves
    refine lostSeries_of_uncut fun c hc => ?_
    have hset : ((Session.start settings).run net before).writer.settings = settings :=
      (steps_run net _ before).settings
    have hs : s = ((Session.start settings).run net before).run net after := by
      rw [← run_append, ← hactions]
    rw [hs] at hc
    have hcut := uncut_run (DrainPhase.spares_of_not_inFlush _ hflush)
      (Nat.le_of_eq (by rw [hset])) hmoves c hc
    exact uncut_of_not_inFlush (steps_run ..) hflush c hcut
  · intro more hsend' hwrite
    exact frozen_run (indirect_run net settings hsend).direct hstop hsend' hwrite
  · intro now
    have hclosing : s.writer.closing = true :=
      closing_of_inFlush hsteps (fun hf => hf.elim) (by rw [hstop]; trivial)
    exact close_of_stopped net now hstop hclosing
  · obtain ⟨instants, hw, hin⟩ := exists_instants_close net s now
    have hstop := hw ▸ close_stops net now s.writer
    have hflush : ¬s.writer.drain.InFlush := mt (orderly_run net settings actions).flush hopen
    have ht : s.run net (.close :: instants.map .drain) =
        (Session.start settings).run net (actions ++ .close :: instants.map .drain) :=
      (run_append ..).symm
    refine ⟨instants, hw, hstop, ?_, fun htill => lostSeries_of_uncut fun c hc => ?_⟩
    · rw [ht] at hstop ⊢
      refine flushed_run (fun series hm => ?_) hstop
      rcases List.mem_append.1 hm with hm | hm
      · exact hsend series hm
      · simp at hm
    · have hmoves : ∀ t, .drain t ∈ (.close :: instants.map Action.drain) →
          now ≤ t ∧ t < now + settings.flushTimeout.millisUp := by
        intro t hm
        have hmem : t ∈ instants := by simpa using hm
        obtain ⟨hfrom, hto⟩ := hin t hmem
        exact ⟨hfrom, by omega⟩
      have hcut := uncut_run (DrainPhase.spares_of_not_inFlush _ hflush)
        (Nat.le_of_eq (by rw [hsteps.settings]; rfl)) hmoves c hc
      exact uncut_of_not_inFlush hsteps hflush c hcut

/-- No destination ever answers. -/
def silent : Network where
  connect _ _ := .never
  exchange _ _ _ := .never

/-- Three series in batches of two, for a destination that does not answer in the second that the flush
has. -/
def hanging : List Action :=
  [.register "a" { url := "http://127.0.0.1/" }, .write ⟨0, 0⟩ [probe "a", probe "b", probe "c"],
    .close, .drain 0, .drain 0, .drain 1000]

def hangingSettings : WriterSettings := { batchSize := 2, flushTimeout := .ofSeconds 1 }

theorem hanging_loses_one_batch :
    let s := (Session.start hangingSettings).run silent hanging
    Flushed silent s ∧ (lostSeries s.log).length = 2 ∧ s.writer.queue.size = 1 ∧
      s.writer.counters.writeTotal = 0 := by
  have hsend : ∀ series, .send series ∉ hanging := by simp [hanging]
  obtain ⟨hstopped, -⟩ :=
    @close_loses_at_most_one_batch silent hangingSettings hanging hsend
  obtain ⟨hflushed, -⟩ := hstopped (DrainPhase.isStopped_iff.1 (by decide +kernel))
  exact ⟨hflushed, by decide +kernel, by decide +kernel, by decide +kernel⟩

end Writer

end MetricRelay
