import MetricRelay.Proofs.Relay.Lane
import MetricRelay.Proofs.Writer.Session

/-!
# One round

`serving?` is the tick that a task is serving. `Stage` says how far the round of a registered model
has come, and `stage_laneStep` what its next move is: it goes on and hands nothing to the writer, or
it ends, and `Forwards` what it had to forward.
-/

namespace MetricRelay

/-- In line for the collector of a registration, or about to be. -/
def Round.Awaits (registration : Nat) (round : Round) : Prop :=
  round = .beginning ∨ round = .inLine registration

/-- In an observation that has these steps still to do. -/
def Round.Observes (registration : Nat) (g : Gathering) (round : Round) : Prop :=
  round = .gathering registration g ∨ ∃ wake, round = .sleeping registration wake g

/-- The round of a tick: the labels of the monitor, the deadline that follows, and the point it has
come to. -/
structure Serving where
  labels : Labels
  next : Nat
  round : Round

namespace Schedule.Lane

/-- The tick that the loop is serving. -/
def serving? (l : Lane Labels Round) : Option Serving :=
  match l.current with
  | some ⟨p, .busy next round⟩ => some ⟨p.work, next, round⟩
  | _ => none

/-- The deadline that the loop waits for. -/
def deadline? (l : Lane Labels Round) : Option Nat :=
  match l.current with
  | some ⟨_, .waiting deadline⟩ => some deadline
  | _ => none

/-- Whether the loop is to end. -/
def isCancelled (l : Lane Labels Round) : Bool := l.current.any fun c => c.plan.cancelled

theorem serving?_eq_some {l : Lane Labels Round} {sv : Serving} :
    l.serving? = some sv ↔
      ∃ p, l.current = some ⟨p, .busy sv.next sv.round⟩ ∧ p.work = sv.labels := by
  unfold serving?
  constructor
  · intro h
    split at h
    · next p _ _ hcurrent =>
      cases h
      exact ⟨p, hcurrent, rfl⟩
    · cases h
  · rintro ⟨p, hcurrent, hwork⟩
    rw [hcurrent]
    exact congrArg (fun labels => some (Serving.mk labels sv.next sv.round)) hwork

theorem deadline?_eq_some {l : Lane Labels Round} {deadline : Nat} :
    l.deadline? = some deadline ↔ ∃ p, l.current = some ⟨p, .waiting deadline⟩ := by
  unfold deadline?
  constructor
  · intro h
    split at h
    · next p _ hcurrent =>
      cases h
      exact ⟨p, hcurrent⟩
    · cases h
  · rintro ⟨p, hcurrent⟩
    rw [hcurrent]

/-- A loop that begins waits for its first tick. -/
theorem serving?_beginNext {l : Lane Labels Round} (hc : l.current = none) (now : Nat) :
    (l.beginNext now).serving? = none := by
  unfold beginNext
  split
  · simp [serving?, hc]
  · split <;> rfl

end Schedule.Lane

namespace Relay

open Schedule

variable {σ : Type}

/-- The tick that the loop of a task is serving. -/
def serving? (r : Relay σ) (name : String) : Option Serving :=
  (r.scheduler.lane? name).bind Lane.serving?

/-- The deadline that the loop of a task waits for. -/
def deadline? (r : Relay σ) (name : String) : Option Nat :=
  (r.scheduler.lane? name).bind Lane.deadline?

/-- Whether the loop of a task is to end. -/
def isCancelled (r : Relay σ) (name : String) : Bool :=
  (r.scheduler.lane? name).any Lane.isCancelled

variable {r q q' : Relay σ} {name : String} {labels : Labels} {next : Nat} {round : Round}

theorem serving?_eq_some : r.serving? name = some ⟨labels, next, round⟩ ↔
    ∃ lane p, r.scheduler.lane? name = some lane ∧ lane.current = some ⟨p, .busy next round⟩ ∧
      p.work = labels := by
  simp only [serving?, Option.bind_eq_some_iff, Lane.serving?_eq_some, exists_and_left]

theorem serving?_setLane {lane l : Lane Labels Round} (h : r.scheduler.lane? name = some l) :
    (r.setLane name lane).serving? name = lane.serving? := by
  show ((r.scheduler.setLane name lane).lane? name).bind _ = _
  rw [Scheduler.lane?_setLane_self h, Option.bind_some]

theorem deadline?_setLane {lane l : Lane Labels Round} (h : r.scheduler.lane? name = some l) :
    (r.setLane name lane).deadline? name = lane.deadline? := by
  show ((r.scheduler.setLane name lane).lane? name).bind _ = _
  rw [Scheduler.lane?_setLane_self h, Option.bind_some]

theorem serving?_setRound {l : Lane Labels Round} (h : r.scheduler.lane? name = some l)
    (lane : Lane Labels Round) (p : Plan Labels) (next : Nat) (round : Round) :
    (r.setRound name lane p next round).serving? name = some ⟨p.work, next, round⟩ :=
  serving?_setLane h

/-! ## The stages of a round -/

/-- Samples as they are handed to the writer. -/
def batch (q : Relay σ) (s : Surroundings) (labels : Labels) (samples : List Sample) :
    List Sample :=
  samples.map (q.normalizer.stamp (q.now s) labels)

section

variable [Collector σ]

/-- What a model does in an observation that begins at a time. -/
def observation (s : Surroundings) (m : Model σ) (time : Nat) : Gathering × σ :=
  Collector.gather (s.network.connect time) m.collector

/-- The model of that observation when it has pushed some samples. -/
def observed (s : Surroundings) (m : Model σ) (time : Nat) (pushed : List Sample) : Model σ :=
  { m with collector := (observation s m time).2, pending := m.pending.pushMany pushed }

/-- In line for the collector of the model, or about to be. -/
structure Awaiting (name : String) (labels : Labels) (next : Nat) (m : Model σ) (q : Relay σ) :
    Prop where
  serving : ∃ round, round.Awaits m.registration ∧ q.serving? name = some ⟨labels, next, round⟩
  model : q.registry.models.get? name = some m

/-- In the observation that began at a time, some samples of which have been pushed. -/
structure Observing (s : Surroundings) (name : String) (labels : Labels) (next : Nat) (m : Model σ)
    (time : Nat) (pushed : List Sample) (g : Gathering) (q : Relay σ) : Prop where
  serving : ∃ round, round.Observes m.registration g ∧ q.serving? name = some ⟨labels, next, round⟩
  model : q.registry.models.get? name = some (observed s m time pushed)
  pushed : pushed ++ g.samples = (observation s m time).1.samples

/-- How far a round has come that began no earlier than `since`, when the model was `m`. -/
inductive Stage (s : Surroundings) (since : Nat) (name : String) (labels : Labels) (next : Nat)
    (m : Model σ) (q : Relay σ) : Prop where
  | awaiting (h : Awaiting name labels next m q) (htime : since ≤ q.clock)
  | observing {time : Nat} {pushed : List Sample} {g : Gathering}
    (h : Observing s name labels next m time pushed g q) (hsince : since ≤ time)
    (htime : time ≤ q.clock)

end

/-- The end of a round: the samples go to the writer, normalized, nothing stays pending with the
model, and the loop looks to its next deadline. If there is no room for the batch, it is counted and
the queue stays as it was. -/
structure Forwards (s : Surroundings) (name : String) (labels : Labels) (next : Nat) (m : Model σ)
    (samples : List Sample) (q q' : Relay σ) : Prop extends Local name q q' where
  written : q'.writer = (q.writer.writeSamples (q.now s) (q.batch s labels samples)).2
  unwritten : samples = [] → q'.writer = q.writer
  rejected : (q.writer.writeSamples (q.now s) (q.batch s labels samples)).1 = false →
    q'.writer = { q.writer with
      counters := q.writer.counters.offered
        (Series.ofSamples (q.now s) (q.batch s labels samples)).length false q.writer.queue.size }
  emptied : q'.registry.models.get? name = some { m with pending := .empty }
  noted : q'.lastPush.get? name = some q.clock
  ended : q'.serving? name = none
  deadline : q'.deadline? name = some next

variable {s : Surroundings} {lane l : Lane Labels Round} {p : Plan Labels}

theorem serving?_congr (h : q'.scheduler = q.scheduler) : q'.serving? name = q.serving? name := by
  unfold serving?
  rw [h]

theorem deadline?_congr (h : q'.scheduler = q.scheduler) :
    q'.deadline? name = q.deadline? name := by
  unfold deadline?
  rw [h]

theorem laneStep_eq_roundStep [Collector σ] (hl : q.scheduler.lane? name = some lane)
    (hc : lane.current = some ⟨p, .busy next round⟩) :
    q.laneStep s name = q.roundStep s name lane p next round := by
  unfold laneStep
  simp only [hl, hc]

theorem lane?_forward :
    (q.forward s name labels).scheduler.lane? name = q.scheduler.lane? name := by
  unfold forward
  split <;> rfl

theorem serving?_completeRound (hl : q.scheduler.lane? name = some l) :
    (q.completeRound s name lane p next).serving? name = none :=
  serving?_setLane (lane?_forward.trans hl)

theorem forwards_completeRound {m : Model σ} (lane : Lane Labels Round)
    (hl : q.scheduler.lane? name = some l) (hm : q.registry.models.get? name = some m) :
    Forwards s name p.work next m m.pending.toList q (q.completeRound s name lane p next) := by
  have hwriter : (q.completeRound s name lane p next).writer =
      (q.writer.writeSamples (q.now s) (q.batch s p.work m.pending.toList)).2 := by
    unfold completeRound forward batch
    simp only [hm, ← Normalizer.toList_process]
    rfl
  refine { local_completeRound q s name lane p next with
    written := hwriter, unwritten := fun hnone => ?_, rejected := fun hfull => ?_
    emptied := ?_, noted := ?_, ended := serving?_completeRound hl, deadline := ?_ }
  · rw [hwriter, hnone]
    rfl
  · rw [hwriter]
    rcases q.writer.writeSamples_cases (q.now s) (q.batch s p.work m.pending.toList) with
      ⟨-, h⟩ | ⟨-, queue, -, -, h⟩ | ⟨-, h⟩
    · rw [h] at hfull
      cases hfull
    · rw [h] at hfull
      cases hfull
    · rw [h]
  · unfold completeRound forward
    simp only [hm, Normalizer.process_rest]
    exact Table.get?_insert_self ..
  · unfold completeRound forward
    simp only [hm]
    exact Table.get?_insert_self ..
  · exact deadline?_setLane (lane?_forward.trans hl)

theorem Forwards.idle {q₀ q₁ : Relay σ} {m : Model σ} {samples : List Sample}
    (h : Forwards s name labels next m samples q q') (hi : Idle q₀ q) (hi' : Idle q' q₁) :
    Forwards s name labels next m samples q₀ q₁ := by
  have hnow : q.now s = q₀.now s := by rw [now, now, hi.clock]
  have hbatch : q.batch s labels samples = q₀.batch s labels samples := by
    rw [batch, batch, hi.normalizer, hnow]
  refine { (hi.quiet.toLocal.trans h.toLocal).trans hi'.quiet.toLocal with
    written := ?_, unwritten := ?_, rejected := ?_, emptied := hi'.registry ▸ h.emptied, noted := ?_
    ended := (serving?_congr hi'.scheduler).trans h.ended
    deadline := (deadline?_congr hi'.scheduler).trans h.deadline }
  · rw [hi'.writer, h.written, hi.writer, hbatch, hnow]
  · rw [hi'.writer, ← hi.writer]
    exact h.unwritten
  · rw [hi'.writer, ← hi.writer, ← hbatch, ← hnow]
    exact h.rejected
  · rw [hi'.lastPush, h.noted, hi.clock]

/-! ## Moves of a round -/

/-- The collector is free for the round that begins, or has been handed to the one in line. -/
def AtHand (name : String) (registration : Nat) (q : Relay σ) : Round → Prop
  | .beginning => ¬(q.locks.any fun l => l.registration = registration)
  | .inLine _ => q.holds registration (.agent (.lane name))
  | _ => False

section

variable {since time : Nat} {m : Model σ} {pushed : List Sample} {g : Gathering}

theorem Awaiting.congr (h : Awaiting name labels next m q) (hs : q'.serving? name = q.serving? name)
    (hm : q'.registry.models.get? name = q.registry.models.get? name) :
    Awaiting name labels next m q' :=
  ⟨hs ▸ h.serving, hm ▸ h.model⟩

variable [Collector σ]

theorem Observing.congr (h : Observing s name labels next m time pushed g q)
    (hs : q'.serving? name = q.serving? name)
    (hm : q'.registry.models.get? name = q.registry.models.get? name) :
    Observing s name labels next m time pushed g q' :=
  ⟨hs ▸ h.serving, hm ▸ h.model, h.pushed⟩

/-- The observation that begins now, with nothing pushed yet. -/
structure Begun (s : Surroundings) (name : String) (labels : Labels) (next : Nat) (m : Model σ)
    (q q' : Relay σ) : Prop where
  serving : q'.serving? name =
    some ⟨labels, next, .gathering m.registration (observation s m q.clock).1⟩
  model : q'.registry.models.get? name = some (observed s m q.clock [])

theorem Begun.observing (h : Begun s name labels next m q q') :
    Observing s name labels next m q.clock [] (observation s m q.clock).1 q' :=
  ⟨⟨_, .inl rfl, h.serving⟩, h.model, rfl⟩

theorem begun_beginObservation (lane : Lane Labels Round) (p : Plan Labels) (next : Nat)
    (hl : q.scheduler.lane? name = some l) (hm : q.registry.models.get? name = some m) :
    Begun s name p.work next m q (q.beginObservation s name lane p next m.registration) ∧
      Quiet name q (q.beginObservation s name lane p next m.registration) := by
  have hbegin : q.beginObservation s name lane p next m.registration =
      { q with registry := { q.registry with
        models := q.registry.models.insert name (observed s m q.clock []) } }.setRound name lane p
          next (.gathering m.registration (observation s m q.clock).1) := by
    unfold beginObservation Registry.beginGather Registry.withModel
    rw [hm]
    rfl
  rw [hbegin]
  constructor
  · exact ⟨serving?_setRound (l := l) hl .., Table.get?_insert_self ..⟩
  · refine (quiet_registry q fun other hne => ?_).trans (quiet_setLane ..)
    rw [Table.get?_insert, if_neg hne]

theorem awaiting_laneStep (hround : round.Awaits m.registration)
    (hq : q.serving? name = some ⟨labels, next, round⟩)
    (hm : q.registry.models.get? name = some m) :
    Quiet name q (q.laneStep s name) ∧
    (AtHand name m.registration q round → Begun s name labels next m q (q.laneStep s name)) ∧
    (¬AtHand name m.registration q round → Awaiting name labels next m (q.laneStep s name)) := by
  obtain ⟨lane, p, hl, hc, rfl⟩ := serving?_eq_some.1 hq
  rw [laneStep_eq_roundStep hl hc]
  rcases hround with rfl | rfl
  · have hacquire := idle_acquire q m.registration (.agent (.lane name))
    unfold roundStep
    unfold acquire at *
    simp only [hm]
    by_cases hheld : q.locks.any fun l => l.registration = m.registration
    · simp only [if_pos hheld] at hacquire ⊢
      exact ⟨hacquire.quiet.trans (quiet_setLane ..), fun hat => absurd hheld hat,
        fun _ => ⟨⟨_, .inr rfl, serving?_setRound (l := lane) hl ..⟩, hm⟩⟩
    · simp only [if_neg hheld] at hacquire ⊢
      obtain ⟨hbegun, hquiet⟩ := begun_beginObservation (s := s)
        (q := { q with locks := q.locks ++ [⟨m.registration, .agent (.lane name), []⟩] })
        lane p next hl hm
      exact ⟨(hacquire.quiet.trans hquiet).trans (idle_goOn ..).quiet,
        fun _ => ⟨hbegun.serving, hbegun.model⟩, fun hat => absurd hheld hat⟩
  · unfold roundStep
    simp only
    by_cases hholds : q.holds m.registration (.agent (.lane name))
    · rw [if_pos hholds]
      obtain ⟨hbegun, hquiet⟩ := begun_beginObservation (s := s) lane p next hl hm
      exact ⟨hquiet.trans (idle_goOn ..).quiet, fun _ => ⟨hbegun.serving, hbegun.model⟩,
        fun hat => absurd hholds hat⟩
    · rw [if_neg hholds]
      exact ⟨.refl, fun hat => absurd hat hholds, fun _ => ⟨⟨_, .inr rfl, hq⟩, hm⟩⟩

theorem observing_laneStep (h : Observing s name labels next m time pushed g q) :
    (∃ pushed' g', Observing s name labels next m time pushed' g' (q.laneStep s name) ∧
      Quiet name q (q.laneStep s name)) ∨
    Forwards s name labels next (observed s m time (observation s m time).1.samples)
      (m.pending.toList ++ (observation s m time).1.samples) q (q.laneStep s name) := by
  obtain ⟨⟨round, hround, hq⟩, hm, hpushed⟩ := h
  obtain ⟨lane, p, hl, hc, rfl⟩ := serving?_eq_some.1 hq
  rw [laneStep_eq_roundStep hl hc]
  rcases hround with rfl | ⟨wake, rfl⟩
  · obtain ⟨actions, outcome⟩ := g
    cases actions with
    | nil =>
      right
      have hrelease := idle_release q m.registration
      have hall : (observation s m time).1.samples = pushed := by
        rw [← hpushed]
        simp [Gathering.samples]
      have hsamples : (observed s m time pushed).pending.toList = m.pending.toList ++ pushed := by
        simp [observed]
      rw [hall, ← hsamples]
      exact (forwards_completeRound lane (hrelease.scheduler ▸ hl)
        (hrelease.registry ▸ hm)).idle hrelease (idle_goOn ..)
    | cons action more =>
      left
      cases action with
      | push x =>
        refine ⟨pushed ++ [x], ⟨more, outcome⟩,
          ⟨⟨_, .inl rfl, serving?_setRound (l := lane) hl ..⟩, ?_, ?_⟩,
          ((quiet_push ..).trans (quiet_setLane ..)).trans (idle_goOn ..).quiet⟩
        · show (q.registry.models.modify name _).get? name = _
          rw [Table.get?_modify, if_pos rfl, hm]
          simp [observed, SampleList.pushMany]
        · rw [← hpushed]
          simp [Gathering.samples]
      | sleep d =>
        have hmore : pushed ++ (Gathering.mk more outcome).samples =
            (observation s m time).1.samples := by
          rw [← hpushed]
          simp [Gathering.samples]
        unfold roundStep
        simp only
        split
        · exact ⟨pushed, _, ⟨⟨_, .inl rfl, serving?_setRound (l := lane) hl ..⟩, hm, hmore⟩,
            (quiet_setLane ..).trans (idle_goOn ..).quiet⟩
        · exact ⟨pushed, _, ⟨⟨_, .inr ⟨_, rfl⟩, serving?_setRound (l := lane) hl ..⟩, hm, hmore⟩,
            (quiet_setLane ..).trans (idle_setAlarm ..).quiet⟩
  · left
    refine ⟨pushed, g, ?_⟩
    unfold roundStep
    simp only
    split
    · exact ⟨⟨⟨_, .inl rfl, serving?_setRound (l := lane) hl ..⟩, hm, hpushed⟩,
        (quiet_setLane ..).trans (idle_goOn ..).quiet⟩
    · exact ⟨⟨⟨_, .inr ⟨wake, rfl⟩, hq⟩, hm, hpushed⟩, .refl⟩

/-- One move of a round: it goes on and leaves the writer alone, or it ends and forwards what was
pending and what it has pushed. -/
theorem stage_laneStep (h : Stage s since name labels next m q) :
    (Stage s since name labels next m (q.laneStep s name) ∧ Quiet name q (q.laneStep s name)) ∨
      ∃ time, since ≤ time ∧ time ≤ q.clock ∧
        Forwards s name labels next (observed s m time (observation s m time).1.samples)
          (m.pending.toList ++ (observation s m time).1.samples) q (q.laneStep s name) := by
  have hclock : (q.laneStep s name).clock = q.clock := (local_laneStep q s name).clock
  cases h with
  | awaiting h htime =>
    obtain ⟨⟨round, hround, hq⟩, hm⟩ := h
    obtain ⟨hquiet, hbegins, hawaits⟩ := awaiting_laneStep (s := s) hround hq hm
    refine .inl ⟨?_, hquiet⟩
    by_cases hat : AtHand name m.registration q round
    · exact .observing (hbegins hat).observing htime (Nat.le_of_eq hclock.symm)
    · exact .awaiting (hawaits hat) (hclock ▸ htime)
  | @observing time _ _ h hsince htime =>
    rcases observing_laneStep h with ⟨_, _, hgoes, hquiet⟩ | hends
    · exact .inl ⟨.observing hgoes hsince (hclock ▸ htime), hquiet⟩
    · exact .inr ⟨time, hsince, htime, hends⟩

end

end Relay

end MetricRelay
