import MetricRelay.Proofs.Relay.Tidy

/-!
# Relays that have gone silent

In a `Silent` relay no task, no lane and no emitter is left, and the writer has been told to close: of
the agents only the drain loop does anything (`Silent.acts`). Once it has stopped nothing happens any
more (`Ceased.moves`), and another shutdown returns with nothing done (`Ceased.returns`).
-/

namespace MetricRelay.Relay

open Schedule

variable {σ : Type} {r r' q : Relay σ} {s : Surroundings}

/-- Nobody is left who could offer samples to the writer, and it has been told to close. -/
structure Silent (r : Relay σ) : Prop where
  tasks : r.scheduler.tasks = .empty
  leaving : r.scheduler.leaving = []
  emitter : r.emitter = none
  closing : r.writer.closing = true

/-- No gathering, no report and no request: nothing that is of account has changed. -/
structure Same (r r' : Relay σ) : Prop where
  registry : r'.registry = r.registry
  scheduler : r'.scheduler = r.scheduler
  writer : r'.writer = r.writer
  emitter : r'.emitter = r.emitter

theorem Same.refl (r : Relay σ) : Same r r := ⟨rfl, rfl, rfl, rfl⟩

theorem Same.trans (h : Same r q) (h' : Same q r') : Same r r' :=
  ⟨h'.registry.trans h.registry, h'.scheduler.trans h.scheduler, h'.writer.trans h.writer,
    h'.emitter.trans h.emitter⟩

theorem Rests.same (h : r.Rests r') : Same r r' := by
  obtain ⟨_, _, _, _, rfl⟩ := h
  exact ⟨rfl, rfl, rfl, rfl⟩

theorem Same.silent (h : Same r r') (hr : Silent r) : Silent r' where
  tasks := h.scheduler ▸ hr.tasks
  leaving := h.scheduler ▸ hr.leaving
  emitter := h.emitter ▸ hr.emitter
  closing := h.writer ▸ hr.closing

theorem Silent.lane? (h : Silent r) (name : String) : r.scheduler.lane? name = none := by
  unfold Scheduler.lane?
  rw [h.tasks, h.leaving]
  rfl

theorem Silent.forgetEnded (h : Silent r) : r.scheduler.forgetEnded = r.scheduler := by
  unfold Scheduler.forgetEnded
  rw [h.leaving, List.filter_nil, ← h.leaving]

/-- Of the agents only the drain loop does anything. -/
theorem Silent.acts [Collector σ] (h : Silent r) (ha : Acts s r r') :
    r.Rests r' ∨ ∃ writer, r.writer.step? s.network r.clock = some writer ∧
      { r with writer }.Rests r' := by
  cases ha with
  | rest hr => exact .inl hr
  | lane hl _ _ _ | forward hl _ _ => cases (h.lane? _).symm.trans hl
  | drain hw hr => exact .inr ⟨_, hw, hr⟩
  | emit he _ _ _ => cases h.emitter.symm.trans he

/-! ## After the flush -/

/-- The call to close waits for the drain loop. -/
theorem canResume_closing (h : r.call = .closing) :
    r.canResume = true ↔ r.writer.drain = .stopped := by
  unfold canResume
  rw [h]
  cases r.writer.drain <;> simp

theorem resume_closing [Collector σ] (h : r.call = .closing) : r.resume s = r.finish (.ok ()) := by
  unfold resume
  rw [h]

/-- The drain loop has stopped as well; a shutdown may be about to return. -/
structure Ceased (r : Relay σ) : Prop extends Silent r where
  stopped : r.writer.drain = .stopped
  call : r.call = .idle ∨ r.call = .closing

theorem Ceased.congr (h : Ceased r) (hs : Same r r') (hc : r'.call = .idle ∨ r'.call = .closing) :
    Ceased r' where
  toSilent := hs.silent h.toSilent
  stopped := hs.writer ▸ h.stopped
  call := hc

/-- Another shutdown goes on to the writer at once, and finds it closed. -/
theorem Ceased.closeWriter (h : Ceased r) : Same r r.closeWriter where
  registry := rfl
  scheduler := h.toSilent.forgetEnded
  writer := by
    show { r.writer with closing := true } = r.writer
    rw [← h.closing]
  emitter := h.emitter.symm

section

variable [Collector σ]

theorem Ceased.agentStep (h : Ceased r) (s : Surroundings) (a : Agent) : r.agentStep s a = r := by
  cases a with
  | lane name =>
    unfold Relay.agentStep laneStep
    simp only [h.lane? name]
  | drain =>
    have hstep : r.writer.step? s.network r.clock = none := by
      unfold Writer.step?
      rw [h.stopped]
    have hwake : r.writer.wake? = none := by
      unfold Writer.wake?
      rw [h.stopped]
    unfold Relay.agentStep drainStep
    simp only [hstep, hwake]
  | emitter number =>
    unfold Relay.agentStep emitterStep
    simp only [h.emitter]

theorem Ceased.move (h : Ceased r) (hm : Move s r r') : Ceased r' ∧ Same r r' := by
  rcases hm.cases with hact | ⟨hres, rfl⟩ | ⟨t, -, hr⟩
  · rcases h.toSilent.acts hact with hr | ⟨writer, hw, -⟩
    · exact ⟨h.congr hr.same (by rw [hact.call.1]; exact h.call), hr.same⟩
    · exact absurd h.stopped (Writer.ne_stopped_of_step? hw)
  · have hcall := h.call.resolve_left (ne_idle_of_canResume hres)
    have hsame : Same r (r.finish (.ok ())) := ⟨rfl, rfl, rfl, rfl⟩
    rw [resume_closing hcall]
    exact ⟨h.congr hsame (.inl rfl), hsame⟩
  · have hpassed : Same r { r with clock := t } := ⟨rfl, rfl, rfl, rfl⟩
    have hsame := hpassed.trans hr.same
    obtain ⟨_, _, _, _, rfl⟩ := hr
    exact ⟨h.congr hsame h.call, hsame⟩

theorem Ceased.moves (h : Ceased r) (hm : Moves s r q) : Ceased q ∧ Same r q := by
  induction hm with
  | refl => exact ⟨h, .refl r⟩
  | tail _ hstep ih =>
    obtain ⟨hceased, hsame⟩ := ih.1.move hstep
    exact ⟨hceased, ih.2.trans hsame⟩

/-- It takes one move for each agent that is ready, and one to return. -/
theorem Ceased.returns (s : Surroundings) (ready : List Agent) :
    ∀ r : Relay σ, Ceased r → r.call = .closing → r.ready = ready →
      (r.moves s .call (ready.length + 1)).call = .idle := by
  induction ready with
  | nil =>
    intro r h hcall hready
    have hres : r.canResume = true := (canResume_closing hcall).2 h.stopped
    have hstep : r.step? s .call = some (r.finish (.ok ())) := by
      unfold step?
      rw [hready]
      simp only [hres, if_true, resume_closing hcall]
    unfold Relay.moves
    rw [hstep]
    rfl
  | cons a more ih =>
    intro r h hcall hready
    have hsame : Same r { r with ready := more } := ⟨rfl, rfl, rfl, rfl⟩
    have hceased := h.congr hsame h.call
    have hstep : r.step? s .call = some { r with ready := more } := by
      unfold step?
      rw [hready]
      simp only [hceased.agentStep]
    unfold Relay.moves
    rw [hstep]
    exact ih _ hceased hcall rfl

/-- A shutdown of a relay that has ceased changes nothing, and returns. -/
theorem Ceased.shutDown (h : Ceased r) (s : Surroundings) :
    (∃ limit, ((r.begin s .shutDown).moves s .call limit).call = .idle) ∧
      ∀ q, Moves s (r.begin s .shutDown) q → Same r q := by
  have hbegin : r.begin s .shutDown = r.closeWriter := by
    simp only [Relay.begin, h.tasks]
    rfl
  have hsame := h.closeWriter
  have hceased : Ceased r.closeWriter := h.congr hsame (.inr rfl)
  rw [hbegin]
  exact ⟨⟨_, Ceased.returns s _ r.closeWriter hceased rfl rfl⟩,
    fun q hq => hsame.trans (hceased.moves hq).2⟩

end

end MetricRelay.Relay
