import MetricRelay.Collector.Script
import MetricRelay.Proofs.Relay.Course

/-!
# Rounds forward everything

Whatever a collector does, a round ends by handing to the writer what was pending and what has been
pushed, and only so (`Stage.course`). Alone it ends after the duration of the observation
(`course_alone`), and later rounds find nothing pending (`Clear`). `round_forwards_everything` puts
this together.
-/

namespace MetricRelay

/-- The time that a step of an observation takes. -/
def Action.duration : Action → Nat
  | .push _ => 0
  | .sleep d => d

def Gathering.duration (g : Gathering) : Nat :=
  g.actions.foldr (fun action total => action.duration + total) 0

namespace Relay

open Schedule

variable {σ : Type} [Collector σ] {r q q' : Relay σ} {s : Surroundings} {name : String}
  {labels : Labels} {next since time n : Nat} {m : Model σ} {round : Round}
  {beside : Relay σ → Relay σ → Prop}

/-! ## Within a round -/

/-- What holds at every point of a round. -/
theorem Course.within {P : Relay σ → Prop} (haside : ∀ q q', P q → beside q q' → P q')
    (hown : ∀ q, P q → ¬Ends s name q → P (q.laneStep s name))
    (h : Course beside s name r 0 q) (hr : P r) : P q := by
  generalize hn : 0 = n at h
  induction h with
  | refl => exact hr
  | aside _ ha ih => exact haside _ _ (ih hn) ha
  | own _ hends ih => exact hown _ (ih hn) hends
  | ends _ _ _ => cases hn

theorem Course.trans {n' : Nat} (h : Course beside s name r n q)
    (h' : Course beside s name q n' q') :
    Course beside s name r (n + n') q' := by
  induction h' with
  | refl => exact h
  | aside _ ha ih => exact ih.aside ha
  | own _ hends ih => exact ih.own hends
  | ends _ hends ih => exact ih.ends hends

theorem Observing.serving_ne {pushed : List Sample} {g : Gathering}
    (h : Observing s name labels next m time pushed g q) : q.serving? name ≠ none := by
  obtain ⟨_, _, hq⟩ := h.serving
  rw [hq]
  exact Option.some_ne_none _

theorem Stage.serving_ne (h : Stage s since name labels next m q) : q.serving? name ≠ none := by
  cases h with
  | awaiting h _ =>
    obtain ⟨_, _, hq⟩ := h.serving
    rw [hq]
    exact Option.some_ne_none _
  | observing h _ _ => exact h.serving_ne

theorem Stage.aside (h : Stage s since name labels next m q) (ha : Aside name q q') :
    Stage s since name labels next m q' := by
  cases h with
  | awaiting h htime => exact .awaiting (h.congr ha.serving ha.model) (Nat.le_trans htime ha.clock)
  | observing h hsince htime =>
    exact .observing (h.congr ha.serving ha.model) hsince (Nat.le_trans htime ha.clock)

theorem Stage.course (h : Stage s since name labels next m r)
    (hc : Course (Aside name) s name r 0 q) : Stage s since name labels next m q := by
  refine hc.within (fun _ _ h ha => h.aside ha) (fun q h hends => ?_) h
  rcases stage_laneStep h with ⟨hgoes, -⟩ | ⟨_, _, _, hforwards⟩
  · exact hgoes
  · exact absurd ⟨h.serving_ne, hforwards.ended⟩ hends

/-- The observation in progress stays the one that has begun. -/
theorem Observing.course {pushed : List Sample} {g : Gathering}
    (h : Observing s name labels next m time pushed g r) (hc : Course (Aside name) s name r 0 q) :
    ∃ pushed' g', Observing s name labels next m time pushed' g' q := by
  refine hc.within (P := fun q => ∃ pushed' g', Observing s name labels next m time pushed' g' q)
    ?_ ?_ ⟨pushed, g, h⟩
  · rintro q q' ⟨pushed, g, h⟩ ha
    exact ⟨pushed, g, h.congr ha.serving ha.model⟩
  · rintro q ⟨pushed, g, h⟩ hends
    rcases observing_laneStep h with ⟨pushed', g', hgoes, -⟩ | hforwards
    · exact ⟨pushed', g', hgoes⟩
    · exact absurd ⟨h.serving_ne, hforwards.ended⟩ hends

/-! ## A round alone -/

/-- Nobody but the task acts, so that the writer stays as it was. -/
theorem Stage.writer_alone (h : Stage s since name labels next m r)
    (hc : Course Passes s name r 0 q) : q.writer = r.writer := by
  refine (hc.within (P := fun q => Stage s since name labels next m q ∧ q.writer = r.writer)
    ?_ ?_ ⟨h, rfl⟩).2
  · rintro q q' ⟨h, hw⟩ hpass
    refine ⟨h.aside hpass.aside, ?_⟩
    obtain ⟨t, -, rfl⟩ := hpass
    exact hw
  · rintro q ⟨h, hw⟩ hends
    rcases stage_laneStep h with ⟨hgoes, hquiet⟩ | ⟨_, _, _, hforwards⟩
    · exact ⟨hgoes, hquiet.writer.trans hw⟩
    · exact absurd ⟨h.serving_ne, hforwards.ended⟩ hends

theorem serving?_laneStep_push {registration : Nat} {x : Sample} {more : List Action}
    {outcome : Outcome}
    (hq : q.serving? name =
      some ⟨labels, next, .gathering registration ⟨.push x :: more, outcome⟩⟩) :
    (q.laneStep s name).serving? name =
      some ⟨labels, next, .gathering registration ⟨more, outcome⟩⟩ := by
  obtain ⟨lane, p, hl, hc, rfl⟩ := serving?_eq_some.1 hq
  rw [laneStep_eq_roundStep hl hc]
  exact serving?_setRound (l := lane) hl ..

theorem serving?_laneStep_sleep {registration d : Nat} {more : List Action} {outcome : Outcome}
    (hq : q.serving? name =
      some ⟨labels, next, .gathering registration ⟨.sleep d :: more, outcome⟩⟩) :
    (q.laneStep s name).serving? name = some ⟨labels, next,
      if d = 0 then .gathering registration ⟨more, outcome⟩
      else .sleeping registration (q.clock + d) ⟨more, outcome⟩⟩ := by
  obtain ⟨lane, p, hl, hc, rfl⟩ := serving?_eq_some.1 hq
  rw [laneStep_eq_roundStep hl hc]
  unfold roundStep
  simp only
  split <;> exact serving?_setRound (l := lane) hl ..

theorem serving?_laneStep_sleeping {registration wake : Nat} {g : Gathering}
    (hq : q.serving? name = some ⟨labels, next, .sleeping registration wake g⟩)
    (hwake : wake ≤ q.clock) :
    (q.laneStep s name).serving? name = some ⟨labels, next, .gathering registration g⟩ := by
  obtain ⟨lane, p, hl, hc, rfl⟩ := serving?_eq_some.1 hq
  rw [laneStep_eq_roundStep hl hc]
  unfold roundStep
  simp only [if_pos hwake]
  exact serving?_setRound (l := lane) hl ..

theorem ends_of_gathering {registration : Nat} {outcome : Outcome}
    (hq : q.serving? name = some ⟨labels, next, .gathering registration ⟨[], outcome⟩⟩) :
    Ends s name q := by
  refine ⟨by simp [hq], ?_⟩
  obtain ⟨lane, p, hl, hc, rfl⟩ := serving?_eq_some.1 hq
  rw [laneStep_eq_roundStep hl hc]
  exact serving?_completeRound (l := lane) ((idle_release q registration).scheduler ▸ hl)

/-- A move after which the round goes on. -/
theorem course_own {sv : Serving} (h : (q.laneStep s name).serving? name = some sv) :
    Course beside s name q 0 (q.laneStep s name) :=
  Course.refl.own fun hends => by simp [hends.2] at h

/-- Step by step through an observation; the induction is on what it has still to do. -/
theorem course_observation {registration : Nat} {outcome : Outcome} (actions : List Action) :
    ∀ q : Relay σ,
      q.serving? name = some ⟨labels, next, .gathering registration ⟨actions, outcome⟩⟩ →
      ∃ q', Course Passes s name q 0 q' ∧
        q'.serving? name = some ⟨labels, next, .gathering registration ⟨[], outcome⟩⟩ ∧
        q'.clock = q.clock + (Gathering.mk actions outcome).duration := by
  induction actions with
  | nil => exact fun q hq => ⟨q, .refl, hq, rfl⟩
  | cons action more ih =>
    intro q hq
    have hclock := (local_laneStep q s name).clock
    cases action with
    | push x =>
      have hstep := serving?_laneStep_push (s := s) hq
      obtain ⟨q', hc, hq', ht⟩ := ih _ hstep
      refine ⟨q', (course_own hstep).trans hc, hq', ?_⟩
      rw [ht, hclock]
      simp [Gathering.duration, Action.duration]
    | sleep d =>
      have hstep := serving?_laneStep_sleep (s := s) hq
      by_cases hd : d = 0
      · rw [if_pos hd] at hstep
        obtain ⟨q', hc, hq', ht⟩ := ih _ hstep
        refine ⟨q', (course_own hstep).trans hc, hq', ?_⟩
        rw [ht, hclock]
        simp [Gathering.duration, Action.duration, hd]
      · rw [if_neg hd] at hstep
        -- Time passes to the end of the sleep, and the collector wakes up.
        have hpass : Passes (q.laneStep s name) ((q.laneStep s name).passTo (q.clock + d)) :=
          ⟨_, by rw [hclock]; exact Nat.le_add_right _ _, rfl⟩
        have hwake := serving?_laneStep_sleeping (s := s)
          (q := (q.laneStep s name).passTo (q.clock + d)) hstep (Nat.le_refl _)
        obtain ⟨q', hc, hq', ht⟩ := ih _ hwake
        refine ⟨q', (((course_own hstep).aside hpass).trans (course_own hwake)).trans hc, hq', ?_⟩
        rw [ht, (local_laneStep ..).clock]
        simp only [passTo, Gathering.duration, List.foldr_cons, Action.duration]
        omega

/-- Nothing but time beside it, a round that has its collector at hand ends after the duration of
the observation that begins at once. -/
theorem course_alone (hround : round.Awaits m.registration)
    (hr : r.serving? name = some ⟨labels, next, round⟩) (hm : r.registry.models.get? name = some m)
    (hat : AtHand name m.registration r round) :
    ∃ q, Course Passes s name r 0 q ∧ Ends s name q ∧
      q.clock = r.clock + (observation s m r.clock).1.duration ∧ q.writer = r.writer ∧
      Forwards s name labels next (observed s m r.clock (observation s m r.clock).1.samples)
        (m.pending.toList ++ (observation s m r.clock).1.samples) q (q.laneStep s name) := by
  have hclock := (local_laneStep r s name).clock
  obtain ⟨-, hbegins, -⟩ := awaiting_laneStep (s := s) hround hr hm
  have hbegun := hbegins hat
  obtain ⟨q, hc, hq, ht⟩ := course_observation (s := s) _ _ hbegun.serving
  have hends : Ends s name q := ends_of_gathering hq
  obtain ⟨pushed, g, hobserving⟩ := hbegun.observing.course (hc.mono fun _ _ h => h.aside)
  have hall : Course Passes s name r 0 q := by
    have hfirst : Course Passes s name r 0 (r.laneStep s name) := course_own hbegun.serving
    simpa using hfirst.trans hc
  have hstage : Stage s r.clock name labels next m r :=
    .awaiting ⟨⟨round, hround, hr⟩, hm⟩ (Nat.le_refl _)
  refine ⟨q, hall, hends, by rw [ht, hclock], hstage.writer_alone hall, ?_⟩
  · rcases observing_laneStep hobserving with ⟨_, _, hgoes, -⟩ | hforwards
    · exact absurd hends.2 hgoes.serving_ne
    · exact hforwards

/-! ## After a round -/

theorem laneStep_between (hq : q.serving? name = none) :
    (q.laneStep s name).registry = q.registry ∧ (q.laneStep s name).locks = q.locks ∧
      ((q.laneStep s name).serving? name = none ∨
        ∃ labels next, (q.laneStep s name).serving? name = some ⟨labels, next, .beginning⟩) := by
  unfold laneStep
  simp only
  cases hl : q.scheduler.lane? name with
  | none => exact ⟨rfl, rfl, .inl hq⟩
  | some lane =>
    simp only
    cases hc : lane.current with
    | none =>
      simp only
      split
      · exact ⟨rfl, rfl, .inl hq⟩
      · exact ⟨rfl, rfl, .inl ((serving?_setLane hl).trans (Lane.serving?_beginNext hc _))⟩
    | some c =>
      obtain ⟨p, phase⟩ := c
      cases phase with
      | busy next round => simp [serving?, hl, Lane.serving?, hc] at hq
      | waiting d =>
        have hended : (q.setLane name lane.endCurrent).serving? name = none := serving?_setLane hl
        simp only
        split
        · split
          · exact ⟨rfl, rfl, .inl hended⟩
          · exact ⟨rfl, rfl, .inl hended⟩
        · split
          · exact ⟨rfl, rfl, .inr ⟨_, _, serving?_setRound (l := lane) hl ..⟩⟩
          · exact ⟨rfl, rfl, .inl hq⟩

/-- When the next tick comes: at the deadline, if the loop is not to end. -/
theorem serving?_laneStep_of_deadline? {deadline : Nat} (hd : q.deadline? name = some deadline) :
    (q.laneStep s name).serving? name ≠ none ↔
      q.isCancelled name = false ∧ wakeTime deadline ≤ q.clock := by
  obtain ⟨lane, hl, hwaits⟩ := Option.bind_eq_some_iff.1 hd
  obtain ⟨p, hc⟩ := Lane.deadline?_eq_some.1 hwaits
  have hcancelled : q.isCancelled name = p.cancelled := by
    simp [isCancelled, hl, Lane.isCancelled, hc]
  have hidle : q.serving? name = none := by simp [serving?, hl, Lane.serving?, hc]
  have hended : (q.setLane name lane.endCurrent).serving? name = none := serving?_setLane hl
  rw [hcancelled]
  unfold laneStep
  simp only [hl, hc]
  cases p.cancelled with
  | true =>
    refine iff_of_false (fun h => h ?_) (by simp)
    rw [if_pos rfl]
    split <;> exact hended
  | false =>
    rw [if_neg (by simp)]
    by_cases hdue : wakeTime deadline ≤ q.clock
    · refine iff_of_true (fun h => ?_) ⟨rfl, hdue⟩
      rw [if_pos hdue] at h
      have hbegins := serving?_setRound hl lane p
        (nextDeadline p.period deadline (instant q.clock)) .beginning
      cases hbegins.symm.trans h
    · rw [if_neg hdue]
      exact iff_of_false (fun h => h hidle) fun h => hdue h.2

/-- Between rounds nothing is pending, and a round under way has found nothing pending. -/
inductive Clear (s : Surroundings) (since : Nat) (name : String) (q : Relay σ) : Prop where
  | between {m : Model σ} (hq : q.serving? name = none)
    (hm : q.registry.models.get? name = some m) (hp : m.pending = .empty) (htime : since ≤ q.clock)
  | within {labels : Labels} {next : Nat} {m : Model σ} (h : Stage s since name labels next m q)
    (hp : m.pending = .empty)

theorem Clear.aside (h : Clear s since name q) (ha : Aside name q q') : Clear s since name q' := by
  cases h with
  | between hq hm hp htime =>
    exact .between (ha.serving.trans hq) (ha.model.trans hm) hp (Nat.le_trans htime ha.clock)
  | within h hp => exact .within (h.aside ha) hp

theorem Clear.laneStep (h : Clear s since name q) : Clear s since name (q.laneStep s name) := by
  have hclock := (local_laneStep q s name).clock
  cases h with
  | between hq hm hp htime =>
    obtain ⟨hregistry, -, hserving | ⟨labels, next, hserving⟩⟩ := laneStep_between (s := s) hq
    · exact .between hserving (hregistry ▸ hm) hp (hclock ▸ htime)
    · exact .within (.awaiting ⟨⟨_, .inl rfl, hserving⟩, hregistry ▸ hm⟩ (hclock ▸ htime)) hp
  | within h hp =>
    rcases stage_laneStep h with ⟨hgoes, -⟩ | ⟨_, hsince, htime, hforwards⟩
    · exact .within hgoes hp
    · exact .between hforwards.ended hforwards.emptied rfl (hclock ▸ Nat.le_trans hsince htime)

theorem Clear.course (h : Clear s since name r) (hc : Course (Aside name) s name r n q) :
    Clear s since name q := by
  induction hc with
  | refl => exact h
  | aside _ ha ih => exact ih.aside ha
  | own _ _ ih => exact ih.laneStep
  | ends _ _ ih => exact ih.laneStep

/-- A round that found nothing pending forwards what it has pushed, and nothing else. -/
theorem Clear.ends (h : Clear s since name q) (hends : Ends s name q) :
    ∃ labels next time, ∃ m : Model σ, since ≤ time ∧ time ≤ q.clock ∧
      Forwards s name labels next (observed s m time (observation s m time).1.samples)
        (observation s m time).1.samples q (q.laneStep s name) := by
  cases h with
  | between hq => exact absurd hq hends.1
  | @within labels next m h hp =>
    rcases stage_laneStep h with ⟨hgoes, -⟩ | ⟨time, hsince, htime, hforwards⟩
    · exact absurd hends.2 hgoes.serving_ne
    · rw [hp] at hforwards
      exact ⟨labels, next, time, m, hsince, htime, hforwards⟩

/-! ## All of it -/

/-- A round of a registered model, at any point before it has its collector, and whatever happens
beside it; what a relay does by itself is such a course. The moves of its task leave the writer
alone up to the one that ends it, which hands over in one call, oldest first, what was pending and
what the observation has pushed. It does end, if it has its collector at hand: alone, after the
duration of the observation. The loop then waits for the deadline that was fixed at the tick, so
that of the observation only its duration matters to the next tick. What a round has handed over, or
lost to a full queue, is not handed over again: a later round forwards what it has pushed itself. -/
theorem round_forwards_everything (s : Surroundings)
    (hserving : r.serving? name = some ⟨labels, next, round⟩)
    (hround : round.Awaits m.registration) (hm : r.registry.models.get? name = some m) :
    (∀ q, Course (Aside name) s name r 0 q → q.normalizer = r.normalizer ∧
      ((¬Ends s name q ∧ Quiet name q (q.laneStep s name)) ∨
      (Ends s name q ∧ ∃ time, r.clock ≤ time ∧ time ≤ q.clock ∧
        Forwards s name labels next (observed s m time (observation s m time).1.samples)
          (m.pending.toList ++ (observation s m time).1.samples) q (q.laneStep s name)))) ∧
    (r.call = .idle → ∀ z limit, ∃ n, Course (Aside name) s name r n (r.moves s z limit)) ∧
    (AtHand name m.registration r round → ∃ q, Course Passes s name r 0 q ∧ Ends s name q ∧
      q.clock = r.clock + (observation s m r.clock).1.duration ∧ q.writer = r.writer ∧
      Forwards s name labels next (observed s m r.clock (observation s m r.clock).1.samples)
        (m.pending.toList ++ (observation s m r.clock).1.samples) q (q.laneStep s name)) ∧
    (∀ e : Relay σ, e.deadline? name = some next → ((e.laneStep s name).serving? name ≠ none ↔
      e.isCancelled name = false ∧ wakeTime next ≤ e.clock)) ∧
    ∀ q e n, Course (Aside name) s name r 0 q → Ends s name q →
      Course (Aside name) s name (q.laneStep s name) n e → Ends s name e →
      ∃ labels' next' time', ∃ m' : Model σ, q.clock ≤ time' ∧ time' ≤ e.clock ∧
        Forwards s name labels' next' (observed s m' time' (observation s m' time').1.samples)
          (observation s m' time').1.samples e (e.laneStep s name) := by
  have hstage : ∀ q, Course (Aside name) s name r 0 q → Stage s r.clock name labels next m q :=
    fun q hc => Stage.course (.awaiting ⟨⟨round, hround, hserving⟩, hm⟩ (Nat.le_refl _)) hc
  refine ⟨fun q hc => ⟨hc.normalizer, ?_⟩, fun hidle z limit => course_moves s z limit hidle,
    course_alone hround hserving hm, fun e he => serving?_laneStep_of_deadline? he, ?_⟩
  · rcases stage_laneStep (hstage q hc) with ⟨hgoes, hquiet⟩ | ⟨time, hsince, htime, hforwards⟩
    · exact .inl ⟨fun hends => hgoes.serving_ne hends.2, hquiet⟩
    · exact .inr ⟨⟨(hstage q hc).serving_ne, hforwards.ended⟩, time, hsince, htime, hforwards⟩
  · intro q e n hc hends hlater hends'
    have hclear : Clear s q.clock name (q.laneStep s name) := by
      rcases stage_laneStep (hstage q hc) with ⟨hgoes, -⟩ | ⟨time, -, -, hforwards⟩
      · exact absurd hends.2 hgoes.serving_ne
      · exact .between hforwards.ended hforwards.emptied rfl (Nat.le_of_eq hforwards.clock.symm)
    exact (hclear.course hlater).ends hends'

/-- A collector that leaves one sample pending, and then breaks down after two more and a sleep. -/
def breakingDown : ScriptedCollector where
  script.name := "m"
  script.rounds :=
    [[.push none "a" (.int 1) .empty],
      [.push none "b" (.int 2) .empty, .sleep 3, .push none "c" (.int 3) .empty,
        .stop (.broken none)]]

def calm : Surroundings := ⟨.unreachable, fun _ => ⟨0, 0⟩, fun _ => some ⟨0, ⟨0⟩, 0⟩⟩

/-- The tick of its monitor, with a queue of two. -/
def breakdown : Relay ScriptedCollector :=
  (((((new { queueCapacity := 2 } .empty).registerCollector breakingDown).begin calm
    (.gather "m")).begin calm
      (.applyMonitor { model := { name := "m" }, period := .ofSeconds 60 })).laneStep calm
        "m").laneStep calm "m"

/-- The model at that tick: its host has made it observe once. -/
def leftPending : Model ScriptedCollector where
  registration := 0
  collector := { breakingDown with gathered := 1 }
  pending := .push .empty { source := "m", metric := "a", value := .int 1 }

/-- The batch is lost to the full queue, and the round is over all the same. -/
theorem breakdown_forwards :
    ∃ e, Course Passes calm "m" breakdown 1 e ∧ e.clock = 3 ∧
      e.writer.counters = ⟨3, 1, 3, 0, 0, 0⟩ ∧ e.writer.queue = breakdown.writer.queue ∧
      (e.registry.models.get? "m").map (fun m => m.pending.toList) = some [] ∧
      e.lastPush.get? "m" = some 3 ∧ e.deadline? "m" = some 60000000000 := by
  have hserving : breakdown.serving? "m" = some ⟨.empty, 60000000000, .beginning⟩ := rfl
  obtain ⟨hwithin, -, halone, -, -⟩ :=
    round_forwards_everything calm (m := leftPending) hserving (.inl rfl) rfl
  obtain ⟨q, hc, hends, hclock, hwriter, hforwards⟩ := halone (by unfold AtHand; decide +kernel)
  have hnormalizer := (hwithin q (hc.mono fun _ _ h => h.aside)).1
  have hnow : q.now calm = ⟨0, 0⟩ := rfl
  have hrejected := hforwards.rejected (by
    rw [batch, hnormalizer, hnow, hwriter]
    decide +kernel)
  have hthree : q.clock = 3 := by
    rw [hclock]
    decide +kernel
  refine ⟨_, .ends hc hends, hforwards.clock.trans hthree, ?_, ?_, ?_, ?_, hforwards.deadline⟩
  · rw [hrejected, batch, hnormalizer, hnow, hwriter]
    decide +kernel
  · rw [hrejected, hwriter]
  · rw [hforwards.emptied]
    rfl
  · rw [hforwards.noted, hthree]

end Relay

end MetricRelay
