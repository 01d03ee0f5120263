import MetricRelay.Proofs.Writer.Fifo

/-!
# The final flush

A writer that is `Open` has not been told to close, and its drain loop is not in the flush. A flush that
is not cut off ends on an empty queue, with everything delivered that was taken from it
(`Orderly.delivered_all`).
-/

namespace MetricRelay.Writer

/-! ## Writers that are open -/

/-- Not told to close. -/
structure Open (w : Writer) : Prop where
  closing : w.closing = false
  flush : ¬w.drain.InFlush

theorem Open.step? {w w' : Writer} {net : Network} {now : Nat} (h : w.Open)
    (hs : w.step? net now = some w') : w'.Open := by
  cases move_of_step? hs with
  | turn _ _ hflush _ =>
    refine ⟨h.closing, fun hf => ?_⟩
    have hclosing := hflush hf
    rw [h.closing] at hclosing
    cases hclosing
  | stop _ hflush _ => exact absurd hflush h.flush
  | take _ _ _ hflush => exact ⟨h.closing, fun hf => h.flush (hflush hf)⟩
  | complete _ _ hflush _ => exact ⟨h.closing, fun hf => h.flush (hflush hf)⟩
  | cut _ hflush => exact absurd hflush h.flush

/-- Samples that are offered do not touch the drain loop. -/
theorem drain_writeSamples (w : Writer) (now : Timestamp) (samples : List Sample) :
    (w.writeSamples now samples).2.closing = w.closing ∧
      (w.writeSamples now samples).2.drain = w.drain := by
  rcases w.writeSamples_cases now samples with ⟨-, hw⟩ | ⟨-, q, -, -, hw⟩ | ⟨-, hw⟩ <;> rw [hw] <;>
    exact ⟨rfl, rfl⟩

theorem Open.congr {w w' : Writer} (h : w.Open) (hc : w'.closing = w.closing)
    (hd : w'.drain = w.drain) : w'.Open := ⟨hc.trans h.closing, hd ▸ h.flush⟩

/-! ## Flushes that are not cut off -/

variable {net : Network} {s t : Session}

/-- Only the drain loop itself goes on. -/
theorem Step.drain_cases (h : Step net s t) :
    t.writer.drain = s.writer.drain ∧ (∀ c, .cut c ∈ t.log → .cut c ∈ s.log) ∨
      ∃ now w, s.writer.step? net now = some w ∧ t = s.moved w := by
  cases h with
  | write now samples =>
    refine .inl ⟨(s.writer.drain_writeSamples now samples).2, fun c hc => ?_⟩
    simpa [Session.write] using hc
  | register name options =>
    obtain ⟨d, hd⟩ := s.writer.register_writer name options net.readUrl
    exact .inl ⟨by rw [hd], fun c hc => hc⟩
  | deregister name =>
    obtain ⟨d, hd⟩ := s.writer.deregister_writer name
    exact .inl ⟨by rw [hd], fun c hc => hc⟩
  | close => exact .inl ⟨rfl, fun c hc => by simpa [Session.close] using hc⟩
  | send series => exact .inl ⟨rfl, fun c hc => by simpa [Session.send] using hc⟩
  | sent hd => exact .inl ⟨rfl, fun c hc => by simpa using hc⟩
  | drain hm => exact .inr ⟨_, _, hm, rfl⟩

/-- A call is cut off when the drain loop stops in the middle of it. -/
theorem Step.cut_mem (h : Step net s t) {c : Sending} (hc : .cut c ∈ t.log) :
    .cut c ∈ s.log ∨ s.writer.drain.fanOut?.isSome = true ∧ t.writer.drain = .stopped := by
  rcases h.drain_cases with ⟨-, hlog⟩ | ⟨now, w, -, rfl⟩
  · exact .inl (hlog c hc)
  · unfold Session.moved at hc ⊢
    split at hc
    · exact .inl (by simpa using hc)
    · next hd hw _ =>
      by_cases hs : w.drain.isStopped
      · exact .inr ⟨by simp [hd], DrainPhase.isStopped_iff.1 hs⟩
      · exact .inl (by simpa [hs] using hc)
    · exact .inl hc

theorem Step.stopped (h : Step net s t) (hs : s.writer.drain = .stopped) :
    t.writer.drain = .stopped := by
  rcases h.drain_cases with ⟨hd, -⟩ | ⟨now, w, hm, -⟩
  · exact hd.trans hs
  · exact absurd hs (ne_stopped_of_step? hm)

/-- A loop that has not stopped has not been cut off. -/
theorem Steps.uncut (h : Steps net s t) (hs : ∀ c, .cut c ∈ s.log → s.writer.drain = .stopped) :
    ∀ c, .cut c ∈ t.log → t.writer.drain = .stopped := by
  induction h with
  | refl => exact hs
  | tail _ hstep ih =>
    intro c hc
    rcases hstep.cut_mem hc with hold | ⟨-, hstop⟩
    · exact hstep.stopped (ih c hold)
    · exact hstop

theorem poppedBatches_loopEvents (log : List Event) :
    poppedBatches (loopEvents log) = poppedBatches log := by
  induction log with
  | nil => rfl
  | cons e r ih =>
    rw [loopEvents_cons]
    split
    · rw [poppedBatches_cons, poppedBatches_cons, ih]
    · next hbyLoop =>
      rw [poppedBatches_cons, ih]
      cases e with
      | popped batch => exact absurd rfl hbyLoop
      | _ => rfl

theorem poppedBatches_turns (delivered : List Sending) :
    poppedBatches (delivered.flatMap Sending.turn) = delivered.map Sending.batch := by
  induction delivered with
  | nil => rfl
  | cons c r ih =>
    rw [List.flatMap_cons, poppedBatches_append, ih]
    rfl

/-- A drain loop that has stopped of itself has delivered all that it took, batch by batch. -/
theorem Orderly.delivered_all (h : Orderly net s) (hs : s.writer.drain = .stopped)
    (huncut : ∀ c, .cut c ∉ s.log) :
    ∃ delivered : List Sending, loopEvents s.log = delivered.flatMap Sending.turn ∧
      (delivered.map Sending.batch).flatten ++ s.writer.queue.toList = admittedSeries s.log := by
  have hnone : s.loop = none := h.loop_eq_none (by rw [hs]; rfl)
  obtain ⟨delivered, last, hlog, ⟨rfl, -⟩ | ⟨c, -, hc⟩ | ⟨c, rfl, -, -⟩⟩ := h.inTurn
  · rw [List.append_nil] at hlog
    refine ⟨delivered, hlog, ?_⟩
    rw [← poppedBatches_turns, ← hlog, poppedBatches_loopEvents]
    exact h.order
  · rw [hnone] at hc
    cases hc
  · have hcut : Event.cut c ∈ loopEvents s.log := by simp [hlog]
    exact absurd (List.mem_filter.1 hcut).1 (huncut c)

end MetricRelay.Writer
