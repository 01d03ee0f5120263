import Mathlib.Logic.Relation
import MetricRelay.Proofs.Relay.Lane
import MetricRelay.Proofs.Schedule.Lane

/-!
# What a relay does by itself

`Acts` lists what an agent can do, and `acts_agentStep` says that it does nothing else: the loops of a
task go on or forward a round, the drain loop makes a move, the emitter reports. Of a lane only
cancelled loops end (`Lane.Sheds`). A `Move` is an act, the host's call going on, or time passing
(`Move.cases`); a relay that is left alone makes moves only (`moves_of_moves`).
-/

namespace MetricRelay

open Schedule

/-! ## Loops that end -/

namespace Schedule.Lane

variable {ω β : Type} {l l' l'' : Lane ω β}

/-- The loops that are not cancelled. -/
def live (l : Lane ω β) : List (Plan ω) := l.plans.filter fun p => !p.cancelled

theorem live_cancel (l : Lane ω β) : l.cancel.live = [] := by
  unfold live
  rw [plans_cancel]
  refine List.filter_eq_nil_iff.2 fun p hp => ?_
  obtain ⟨p, -, rfl⟩ := List.mem_map.1 hp
  simp [Plan.cancel]

theorem live_replace (l : Lane ω β) {p : Plan ω}
    (hp : p.cancelled = false) : (l.replace p).live = [p] := by
  have hold : (l.plans.map Plan.cancel).filter (fun p => !p.cancelled) = [] := by
    rw [← plans_cancel]
    exact l.live_cancel
  unfold live
  rw [plans_replace, List.filter_append, hold]
  simp [hp]

/-- Loops may have ended, the oldest first, but none that was not cancelled. -/
def Sheds (l l' : Lane ω β) : Prop :=
  ∃ ended, l.plans = ended ++ l'.plans ∧ ∀ p ∈ ended, p.cancelled = true

theorem Sheds.live (h : l.Sheds l') : l'.live = l.live := by
  obtain ⟨ended, hplans, hcancelled⟩ := h
  have hnone : ended.filter (fun p => !p.cancelled) = [] :=
    List.filter_eq_nil_iff.2 fun p hp => by simp [hcancelled p hp]
  unfold Lane.live
  rw [hplans, List.filter_append, hnone, List.nil_append]

theorem Sheds.isEmpty (h : l.Sheds l') (he : l.isEmpty = true) : l'.isEmpty = true := by
  obtain ⟨ended, hplans, -⟩ := h
  rw [isEmpty_iff] at he ⊢
  rw [he] at hplans
  exact (List.append_eq_nil_iff.1 hplans.symm).2

/-- The loop that has begun goes from one phase to another. -/
theorem sheds_phase {p : Plan ω} {phase : Phase β} (hc : l.current = some ⟨p, phase⟩)
    (phase' : Phase β) : l.Sheds { l with current := some ⟨p, phase'⟩ } := by
  refine ⟨[], ?_, by simp⟩
  unfold plans
  rw [hc]
  rfl

theorem sheds_endCurrent {p : Plan ω} {phase : Phase β} (hc : l.current = some ⟨p, phase⟩)
    (hp : p.cancelled = true) : l.Sheds l.endCurrent := by
  refine ⟨[p], ?_, by simpa using hp⟩
  unfold plans endCurrent
  rw [hc]
  rfl

theorem sheds_beginNext (hc : l.current = none) (now : Nat) : l.Sheds (l.beginNext now) := by
  obtain ⟨current, queued⟩ := l
  subst hc
  cases queued with
  | nil => exact ⟨[], rfl, by simp⟩
  | cons p more =>
    unfold beginNext
    simp only
    split
    · next hp => exact ⟨[p], rfl, by simpa using hp⟩
    · exact ⟨[], rfl, by simp⟩

end Schedule.Lane

namespace Relay

variable {σ : Type} {r r' q : Relay σ}

/-! ## What is out of sight -/

/-- Nothing changes but who has or awaits a collector, who acts when, and the last pushes. -/
def Rests (r r' : Relay σ) : Prop :=
  ∃ locks ready alarms lastPush, r' = { r with locks, ready, alarms, lastPush }

theorem Rests.refl (r : Relay σ) : r.Rests r := ⟨_, _, _, _, rfl⟩

theorem Rests.trans (h : r.Rests q) (h' : q.Rests r') : r.Rests r' := by
  obtain ⟨_, _, _, _, rfl⟩ := h
  obtain ⟨_, _, _, _, rfl⟩ := h'
  exact ⟨_, _, _, _, rfl⟩

theorem rests_acquire (r : Relay σ) (registration : Nat) (u : User) :
    r.Rests (r.acquire registration u).2 := by
  unfold acquire
  split <;> exact ⟨_, _, _, _, rfl⟩

theorem rests_release (r : Relay σ) (registration : Nat) : r.Rests (r.release registration) := by
  unfold release
  split
  · exact ⟨_, _, _, _, rfl⟩
  · split <;> exact ⟨_, _, _, _, rfl⟩

theorem rests_wakeUp (r : Relay σ) (a : Agent) : r.Rests (r.wakeUp a) := ⟨_, _, _, _, rfl⟩

theorem rests_goOn (r : Relay σ) (a : Agent) : r.Rests (r.goOn a) := ⟨_, _, _, _, rfl⟩

theorem rests_setAlarm (r : Relay σ) (a : Agent) (time : Nat) : r.Rests (r.setAlarm a time) :=
  ⟨_, _, _, _, rfl⟩

/-! ## Acts of an agent -/

/-- Samples may have been offered to a writer. -/
def Offered (w w' : Writer) : Prop := ∃ now samples, w' = (w.writeSamples now samples).2

theorem offered_refl (w : Writer) : Offered w w := ⟨⟨0, 0⟩, [], rfl⟩

theorem offered_forward (r : Relay σ) (s : Surroundings) (name : String) (labels : Labels) :
    Offered r.writer (r.forward s name labels).writer := by
  unfold forward
  split
  · exact offered_refl _
  · exact ⟨_, _, rfl⟩

variable [Collector σ] {s : Surroundings} {name : String}

/-- A model may have observed, or pushed. -/
inductive Worked (name : String) (registry : Registry σ) : Registry σ → Prop where
  | none : Worked name registry registry
  | observed (connect : Connect) : Worked name registry (registry.beginGather connect name).2
  | pushed (registration : Nat) (samples : List Sample) :
      Worked name registry (registry.push name registration samples)

/-- What an agent can do. -/
inductive Acts (s : Surroundings) (r : Relay σ) : Relay σ → Prop where
  | rest {r' : Relay σ} : r.Rests r' → Acts s r r'
  /-- The loops of a task go on. -/
  | lane {name : String} {l l' : Lane Labels Round} {registry : Registry σ} {r' : Relay σ} :
      r.scheduler.lane? name = some l → l.Sheds l' → Worked name r.registry registry →
      ({ r with registry }.setLane name l').Rests r' → Acts s r r'
  /-- A round ends. -/
  | forward {name : String} {l l' : Lane Labels Round} {labels : Labels} {r' : Relay σ} :
      r.scheduler.lane? name = some l → l.Sheds l' →
      ((r.forward s name labels).setLane name l').Rests r' → Acts s r r'
  | drain {writer : Writer} {r' : Relay σ} : r.writer.step? s.network r.clock = some writer →
      { r with writer }.Rests r' → Acts s r r'
  /-- The emitter reports, or sets out to. -/
  | emit {e : Emitter} {writer : Writer} {due : Option Nat} {r' : Relay σ} :
      r.emitter = some e → r.shutDown = false → Offered r.writer writer →
      { r with writer, emitter := some { e with due } }.Rests r' → Acts s r r'

theorem Acts.before (h : Acts s r q) (h' : q.Rests r') : Acts s r r' := by
  cases h with
  | rest hr => exact .rest (hr.trans h')
  | lane hl hs hw hr => exact .lane hl hs hw (hr.trans h')
  | forward hl hs hr => exact .forward hl hs (hr.trans h')
  | drain hw hr => exact .drain hw (hr.trans h')
  | emit he hopen hw hr => exact .emit he hopen hw (hr.trans h')

/-- What is out of sight matters to nobody's act. -/
theorem Acts.after (h : r.Rests q) (h' : Acts s q r') : Acts s r r' := by
  obtain ⟨locks, ready, alarms, lastPush, rfl⟩ := h
  cases h' with
  | rest hr => exact .rest (Rests.trans ⟨_, _, _, _, rfl⟩ hr)
  | lane hl hs hw hr => exact .lane hl hs hw (Rests.trans ⟨_, _, _, _, rfl⟩ hr)
  | @forward name l l' labels _ hl hs hr =>
    have hforward : ((r.forward s name labels).setLane name l').Rests
        ((Relay.forward { r with locks, ready, alarms, lastPush } s name labels).setLane name l') := by
      unfold Relay.forward
      simp only
      split <;> exact ⟨_, _, _, _, rfl⟩
    exact .forward hl hs (hforward.trans hr)
  | drain hw hr => exact .drain hw (Rests.trans ⟨_, _, _, _, rfl⟩ hr)
  | emit he hopen hw hr => exact .emit he hopen hw (Rests.trans ⟨_, _, _, _, rfl⟩ hr)

section

variable {lane : Lane Labels Round} {p : Plan Labels} {next : Nat} {round : Round}

/-- The round in progress comes to another point. -/
theorem acts_setRound (hl : r.scheduler.lane? name = some lane)
    (hc : lane.current = some ⟨p, .busy next round⟩) {registry : Registry σ}
    (hw : Worked name r.registry registry) (next' : Nat) (round' : Round) :
    Acts s r ({ r with registry }.setRound name lane p next' round') :=
  .lane hl (Lane.sheds_phase hc _) hw (.refl _)

theorem acts_completeRound (hl : r.scheduler.lane? name = some lane)
    (hc : lane.current = some ⟨p, .busy next round⟩) :
    Acts s r (r.completeRound s name lane p next) := by
  have hnoted : ((r.forward s name p.work).setLane name
      { lane with current := some ⟨p, .waiting next⟩ }).Rests (r.completeRound s name lane p next) :=
    ⟨_, _, _, _, rfl⟩
  exact .forward hl (Lane.sheds_phase hc _) hnoted

theorem acts_beginObservation (hl : r.scheduler.lane? name = some lane)
    (hc : lane.current = some ⟨p, .busy next round⟩) (registration : Nat) :
    Acts s r (r.beginObservation s name lane p next registration) := by
  have hobserved : Worked name r.registry (r.registry.beginGather (r.connect s) name).2 :=
    .observed _
  unfold beginObservation
  split
  · obtain ⟨_, _, _, _, hrelease⟩ := rests_release r registration
    refine .after ⟨_, _, _, _, hrelease⟩ (acts_completeRound ?_ hc)
    rw [hrelease]
    exact hl
  · next heq =>
    rw [heq] at hobserved
    exact acts_setRound hl hc hobserved ..

theorem acts_roundStep (hl : r.scheduler.lane? name = some lane)
    (hc : lane.current = some ⟨p, .busy next round⟩) :
    Acts s r (r.roundStep s name lane p next round) := by
  cases round with
  | beginning =>
    unfold roundStep
    cases r.registry.models.get? name with
    | none => exact (acts_completeRound hl hc).before (rests_goOn ..)
    | some m =>
      have hacquire := rests_acquire r m.registration (.agent (.lane name))
      simp only
      split
      · next q heq =>
        rw [heq] at hacquire
        refine .after hacquire ((acts_beginObservation ?_ hc _).before (rests_goOn ..))
        obtain ⟨_, _, _, _, rfl⟩ := hacquire
        exact hl
      · next q heq =>
        rw [heq] at hacquire
        refine .after hacquire (acts_setRound ?_ hc .none ..)
        obtain ⟨_, _, _, _, rfl⟩ := hacquire
        exact hl
  | inLine registration =>
    unfold roundStep
    simp only
    split
    · exact (acts_beginObservation hl hc _).before (rests_goOn ..)
    · exact .rest (.refl r)
  | gathering registration g =>
    obtain ⟨actions, outcome⟩ := g
    cases actions with
    | nil =>
      have hrelease := rests_release r registration
      refine .after hrelease ((acts_completeRound ?_ hc).before (rests_goOn ..))
      obtain ⟨_, _, _, _, hq⟩ := hrelease
      rw [hq]
      exact hl
    | cons action more =>
      cases action with
      | push x => exact (acts_setRound hl hc (.pushed registration [x]) ..).before (rests_goOn ..)
      | sleep d =>
        unfold roundStep
        simp only
        split
        · exact (acts_setRound hl hc .none ..).before (rests_goOn ..)
        · exact (acts_setRound hl hc .none ..).before (rests_setAlarm ..)
  | sleeping registration wake g =>
    unfold roundStep
    simp only
    split
    · exact (acts_setRound hl hc .none ..).before (rests_goOn ..)
    · exact .rest (.refl r)

end

theorem acts_laneStep (r : Relay σ) (s : Surroundings) (name : String) :
    Acts s r (r.laneStep s name) := by
  unfold laneStep
  simp only
  cases hl : r.scheduler.lane? name with
  | none => exact .rest (.refl r)
  | some lane =>
    simp only
    cases hc : lane.current with
    | none =>
      simp only
      split
      · exact .rest (.refl r)
      · exact .lane hl (Lane.sheds_beginNext hc _) .none (rests_goOn ..)
    | some c =>
      obtain ⟨p, phase⟩ := c
      cases phase with
      | busy next round => exact acts_roundStep hl hc
      | waiting deadline =>
        simp only
        split
        · next hp =>
          have hended : Acts s r (r.setLane name lane.endCurrent) :=
            .lane hl (Lane.sheds_endCurrent hc hp) .none (.refl _)
          split
          · exact hended
          · exact hended.before (rests_wakeUp ..)
        · split
          · exact .lane hl (Lane.sheds_phase hc _) .none (rests_goOn ..)
          · exact .rest (rests_setAlarm ..)

theorem acts_drainStep (r : Relay σ) (s : Surroundings) : Acts s r (r.drainStep s) := by
  unfold drainStep
  split
  · next hw => exact .drain hw (rests_goOn ..)
  · split
    · exact .rest (rests_setAlarm ..)
    · exact .rest (.refl r)

theorem acts_emitterStep (r : Relay σ) (s : Surroundings) (number : Nat) :
    Acts s r (r.emitterStep s number) := by
  unfold emitterStep
  split
  · exact .rest (.refl r)
  · next e he =>
    split
    · exact .rest (.refl r)
    · next hn =>
      have hopen : r.shutDown = false := Bool.eq_false_iff.2 fun h => hn (.inr h)
      simp only
      split
      · exact .emit he hopen (offered_refl _) (rests_setAlarm ..)
      · split
        · exact .emit he hopen ⟨_, _, rfl⟩ (rests_setAlarm ..)
        · exact .rest (.refl r)

/-- An agent does nothing else. -/
theorem acts_agentStep (r : Relay σ) (s : Surroundings) (a : Agent) :
    Acts s r (r.agentStep s a) := by
  cases a with
  | lane name => exact acts_laneStep r s name
  | drain => exact acts_drainStep r s
  | emitter number => exact acts_emitterStep r s number

/-- The host's call is its own. -/
theorem Acts.call (h : Acts s r r') : r'.call = r.call ∧ r'.answer = r.answer := by
  cases h with
  | rest hr | lane _ _ _ hr | drain _ hr | emit _ _ _ hr =>
    obtain ⟨_, _, _, _, rfl⟩ := hr
    exact ⟨rfl, rfl⟩
  | forward _ _ hr =>
    obtain ⟨_, _, _, _, rfl⟩ := hr
    unfold Relay.forward
    split <;> exact ⟨rfl, rfl⟩

/-! ## The call for a monitor -/

section

variable {spec : MonitorSpec} {registration : Nat} {registry : Registry σ}

theorem configure_of_error {e : Error}
    (h : r.registry.initConfig spec.model.name ⟨spec.model.config⟩ = (.error e, registry)) :
    r.configure spec registration =
      ({ r with registry }.release registration).finish (.error e) := by
  unfold configure
  simp only [h]

theorem configure_of_ok
    (h : r.registry.initConfig spec.model.name ⟨spec.model.config⟩ = (.ok (), registry)) :
    r.configure spec registration =
      ({ { r with registry }.release registration with
        scheduler := (((r.scheduler.add spec.model.name).run spec.model.name spec.period
          spec.labels).2) }.wakeUp (.lane spec.model.name)).finish
        ((r.scheduler.add spec.model.name).run spec.model.name spec.period spec.labels).1 := by
  obtain ⟨_, _, _, _, hrelease⟩ := rests_release { r with registry } registration
  unfold configure
  simp only [h, hrelease]

end

/-! ## Moves -/

omit [Collector σ] in
theorem ne_idle_of_canResume (h : r.canResume = true) : r.call ≠ .idle := by
  intro hcall
  unfold canResume at h
  rw [hcall] at h
  cases h

/-- One thing that happens while the host leaves the relay alone. Time may pass beyond what is due. -/
inductive Move (s : Surroundings) (r : Relay σ) : Relay σ → Prop where
  | step {z : Horizon} {r' : Relay σ} : r.step? s z = some r' → Move s r r'
  | pass {t : Nat} : r.clock ≤ t → Move s r { r with clock := t }

/-- Any number of moves. -/
abbrev Moves (s : Surroundings) : Relay σ → Relay σ → Prop := Relation.ReflTransGen (Move s)

/-- It is the first agent that is ready that moves, else the host's call, else time. -/
theorem Move.first (h : Move s r r') :
    (∃ a more, r.ready = a :: more ∧ r' = { r with ready := more }.agentStep s a) ∨
      (r.canResume = true ∧ r' = r.resume s) ∨
      ∃ t more alarms, r.clock ≤ t ∧ r' = { r with clock := t, ready := r.ready ++ more, alarms } := by
  cases h with
  | pass ht => exact .inr (.inr ⟨_, [], r.alarms, ht, by rw [List.append_nil]⟩)
  | @step z _ hstep =>
    unfold step? at hstep
    split at hstep
    · next a more hready =>
      cases hstep
      exact .inl ⟨a, more, hready, rfl⟩
    · split at hstep
      · next hresume =>
        cases hstep
        exact .inr (.inl ⟨hresume, rfl⟩)
      · split at hstep
        · next t _ =>
          split at hstep
          · cases hstep
            exact .inr (.inr ⟨max r.clock t, _, _, Nat.le_max_left .., rfl⟩)
          · cases hstep
        · cases hstep

theorem Move.cases (h : Move s r r') :
    Acts s r r' ∨ (r.canResume = true ∧ r' = r.resume s) ∨
      ∃ t, r.clock ≤ t ∧ { r with clock := t }.Rests r' := by
  rcases h.first with ⟨a, more, -, rfl⟩ | hresume | ⟨t, _, _, ht, rfl⟩
  · exact .inl (.after ⟨_, _, _, _, rfl⟩ (acts_agentStep _ s a))
  · exact .inr (.inl hresume)
  · exact .inr (.inr ⟨t, ht, ⟨_, _, _, _, rfl⟩⟩)

theorem moves_of_moves (s : Surroundings) (z : Horizon) (limit : Nat) (r : Relay σ) :
    Moves s r (r.moves s z limit) := by
  induction limit generalizing r with
  | zero => exact .refl
  | succ limit ih =>
    unfold moves
    cases hstep : r.step? s z with
    | none => exact .refl
    | some q => exact .head (.step hstep) (ih q)

end Relay

end MetricRelay
