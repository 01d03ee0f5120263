import MetricRelay.Proofs.Relay.Round

/-!
# The course of a task

A `Course` is made of the moves of one task and of what happens beside it, and counts the rounds
that have ended. What agents of other names do, and the passing of time, leaves the model and the
round of the task alone (`Aside`), so that a relay whose host makes no call goes through courses
only (`course_moves`).
-/

namespace MetricRelay.Relay

open Schedule

variable {σ : Type} {r q q' : Relay σ} {name : String}

/-! ## Beside a task -/

/-- Time may pass, and others may act, but neither the model nor its round is touched. -/
structure Aside (name : String) (q q' : Relay σ) : Prop where
  clock : q.clock ≤ q'.clock
  normalizer : q'.normalizer = q.normalizer
  model : q'.registry.models.get? name = q.registry.models.get? name
  serving : q'.serving? name = q.serving? name

/-- Nothing but time passes. -/
def Passes (q q' : Relay σ) : Prop := ∃ t, q.clock ≤ t ∧ q' = q.passTo t

theorem Passes.aside (h : Passes q q') : Aside name q q' := by
  obtain ⟨t, ht, rfl⟩ := h
  exact ⟨ht, rfl, rfl, rfl⟩

theorem Apart.aside (h : Apart q q') : Aside name q q' where
  clock := h.clock ▸ Nat.le_refl _
  normalizer := h.normalizer
  model := by rw [h.registry]
  serving := serving?_congr h.scheduler

/-- The moves of another task are beside this one. -/
theorem Local.aside {other : String} (h : Local other q q') (hne : name ≠ other) :
    Aside name q q' where
  clock := h.clock ▸ Nat.le_refl _
  normalizer := h.normalizer
  model := h.models name hne
  serving := by
    unfold serving?
    rw [h.lanes name hne]

theorem apart_drainStep (q : Relay σ) (s : Surroundings) : Apart q (q.drainStep s) := by
  unfold drainStep
  split
  · exact ⟨rfl, rfl, rfl, rfl, rfl, rfl⟩
  · split <;> exact ⟨rfl, rfl, rfl, rfl, rfl, rfl⟩

theorem apart_emitterStep (q : Relay σ) (s : Surroundings) (number : Nat) :
    Apart q (q.emitterStep s number) := by
  unfold emitterStep
  split
  · exact ⟨rfl, rfl, rfl, rfl, rfl, rfl⟩
  · next e _ =>
    generalize e.metrics.emit (q.now s) (s.process q.clock) q.writer = out
    simp only
    split
    · exact ⟨rfl, rfl, rfl, rfl, rfl, rfl⟩
    · split
      · exact ⟨rfl, rfl, rfl, rfl, rfl, rfl⟩
      · split <;> exact ⟨rfl, rfl, rfl, rfl, rfl, rfl⟩

section

variable [Collector σ] {s : Surroundings}

theorem aside_agentStep (q : Relay σ) (s : Surroundings) {a : Agent} (h : a ≠ .lane name) :
    Aside name q (q.agentStep s a) := by
  cases a with
  | lane other => exact (local_laneStep q s other).aside fun heq => h (heq ▸ rfl)
  | drain => exact (apart_drainStep q s).aside
  | emitter number => exact (apart_emitterStep q s number).aside

theorem call_agentStep (q : Relay σ) (s : Surroundings) (a : Agent) :
    (q.agentStep s a).call = q.call := by
  cases a with
  | lane name => exact (local_laneStep q s name).call
  | drain => exact (apart_drainStep q s).call
  | emitter number => exact (apart_emitterStep q s number).call

/-! ## Courses -/

/-- The next move of the task ends its round. -/
def Ends (s : Surroundings) (name : String) (q : Relay σ) : Prop :=
  q.serving? name ≠ none ∧ (q.laneStep s name).serving? name = none

/-- Moves of a task, and what happens beside it; the number is that of the rounds that have ended. -/
inductive Course (beside : Relay σ → Relay σ → Prop) (s : Surroundings) (name : String)
    (r : Relay σ) : Nat → Relay σ → Prop where
  | refl : Course beside s name r 0 r
  | aside {n : Nat} {q q' : Relay σ} (h : Course beside s name r n q) (ha : beside q q') :
    Course beside s name r n q'
  | own {n : Nat} {q : Relay σ} (h : Course beside s name r n q) (hends : ¬Ends s name q) :
    Course beside s name r n (q.laneStep s name)
  | ends {n : Nat} {q : Relay σ} (h : Course beside s name r n q) (hends : Ends s name q) :
    Course beside s name r (n + 1) (q.laneStep s name)

variable {beside beside' : Relay σ → Relay σ → Prop} {n : Nat}

theorem Course.mono (hb : ∀ q q', beside q q' → beside' q q') (h : Course beside s name r n q) :
    Course beside' s name r n q := by
  induction h with
  | refl => exact .refl
  | aside _ ha ih => exact ih.aside (hb _ _ ha)
  | own _ hends ih => exact ih.own hends
  | ends _ hends ih => exact ih.ends hends

theorem Course.normalizer (h : Course (Aside name) s name r n q) : q.normalizer = r.normalizer := by
  induction h with
  | refl => rfl
  | aside _ ha ih => exact ha.normalizer.trans ih
  | own _ _ ih => exact (local_laneStep ..).normalizer.trans ih
  | ends _ _ ih => exact (local_laneStep ..).normalizer.trans ih

theorem Course.next (h : Course beside s name r n q) :
    ∃ n', Course beside s name r n' (q.laneStep s name) := by
  by_cases hends : Ends s name q
  · exact ⟨n + 1, h.ends hends⟩
  · exact ⟨n, h.own hends⟩

/-- A move of a relay whose host makes no call. -/
theorem Course.step? {z : Horizon} (h : Course (Aside name) s name r n q) (hidle : q.call = .idle)
    (hq : q.step? s z = some q') :
    (∃ n', Course (Aside name) s name r n' q') ∧ q'.call = .idle := by
  unfold Relay.step? at hq
  split at hq
  · next a more hready =>
    cases hq
    have htaken : Course (Aside name) s name r n { q with ready := more } :=
      h.aside (Apart.aside ⟨rfl, rfl, rfl, rfl, rfl, rfl⟩)
    refine ⟨?_, (call_agentStep ..).trans hidle⟩
    by_cases ha : a = .lane name
    · subst ha
      exact htaken.next
    · exact ⟨n, htaken.aside (aside_agentStep _ s ha)⟩
  · have hresume : q.canResume = false := by
      unfold canResume
      rw [hidle]
    simp only [hresume, Bool.false_eq_true, if_false] at hq
    split at hq
    · next t _ =>
      split at hq
      · cases hq
        exact ⟨⟨n, h.aside (Passes.aside ⟨_, Nat.le_max_left _ _, rfl⟩)⟩, hidle⟩
      · cases hq
    · cases hq

/-- What a relay does by itself. -/
theorem course_moves (s : Surroundings) (z : Horizon) (limit : Nat) (hidle : r.call = .idle) :
    ∃ n, Course (Aside name) s name r n (r.moves s z limit) := by
  suffices h : ∀ q n, Course (Aside name) s name r n q → q.call = .idle →
      ∃ n', Course (Aside name) s name r n' (q.moves s z limit) from h r 0 .refl hidle
  induction limit with
  | zero => exact fun q n h _ => ⟨n, h⟩
  | succ limit ih =>
    intro q n h hq
    unfold moves
    split
    · next q' hstep =>
      obtain ⟨⟨n', h'⟩, hq'⟩ := h.step? hq hstep
      exact ih q' n' h' hq'
    · exact ⟨n, h⟩

end

end MetricRelay.Relay
