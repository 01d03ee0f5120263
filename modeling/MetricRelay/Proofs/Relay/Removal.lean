import MetricRelay.Proofs.Relay.Chronicle

/-!
# Removing monitors

A removal waits for the loops of its task to end before it drops what they have left, so that a round
in flight cannot bring anything back (`Removing.move`). What is `Gone` then stays so until the host
asks for the name again (`Gone.happens`). Under all other names the call changes nothing that their own
loops do not change (`untouched_or_acted`).
-/

namespace MetricRelay

open Schedule

namespace Relay

variable {σ : Type} {r r' q q' : Relay σ} {s : Surroundings} {name other model : String}

/-! ## What is left of a monitor -/

/-- Nothing is left of a monitor: it has no task, no round is in progress, no push is noted, and its
model has nothing pending. -/
structure Erased (name : String) (r : Relay σ) : Prop where
  task : r.scheduler.tasks.get? name = none
  round : r.serving? name = none
  push : r.lastPush.get? name = none
  pending : ∀ m, r.registry.models.get? name = some m → m.pending.toList = []

/-- Nor are there loops that could begin a round, or a call that could bring something back. -/
structure Gone (name : String) (r : Relay σ) : Prop extends Erased name r where
  loops : r.scheduler.occupied? name = none
  call : r.call.model? ≠ some name

theorem Gone.untouched (h : Gone name r) (hu : Untouched name r r')
    (hcall : r'.call.model? ≠ some name) : Gone name r' where
  task := hu.task.trans h.task
  round := hu.serving.trans h.round
  push := hu.push.trans h.push
  pending := by rw [hu.model]; exact h.pending
  loops := hu.loops.trans h.loops
  call := hcall

theorem Gone.ended (h : Gone name r) (hu : Untouched name r r') (hcall : r'.call.model? = none) :
    Gone name r' := by
  refine h.untouched hu ?_
  rw [hcall]
  exact (Option.some_ne_none name).symm

/-- The end of a removal: the loops have ended by then. -/
theorem gone_forgetModel (htask : r.scheduler.tasks.get? name = none)
    (hended : ∀ d ∈ r.scheduler.leaving, d.lane.isEmpty = true) : Gone name (r.forgetModel name) := by
  have hloops : (r.forgetModel name).scheduler.occupied? name = none := by
    refine (Scheduler.occupied?_forgetEnded hended name).trans ?_
    exact Scheduler.occupied?_of_ended htask hended
  have hcall : (r.forgetModel name).call.model? ≠ some name := (Option.some_ne_none name).symm
  refine ⟨⟨htask, ?_, Table.get?_erase_self .., fun m hm => ?_⟩, hloops, hcall⟩
  · rw [serving?_eq_bind, hloops, Option.bind_none]
  · have hm : (r.registry.evict name).2.models.get? name = some m := hm
    rw [Registry.get?_evict, Option.map_eq_some_iff] at hm
    obtain ⟨m', -, rfl⟩ := hm
    rfl

theorem Concerns.gone (h : Concerns model r r') (hgone : Gone name r) (hne : name ≠ model) :
    Gone name r' := by
  refine hgone.untouched (h.untouched hne) ?_
  rcases h.call with hnone | hsome
  · rw [hnone]
    exact (Option.some_ne_none name).symm
  · rw [hsome]
    exact fun heq => hne (Option.some.inj heq).symm

theorem Gone.stopNext (h : Gone name r)
    (hended : ∀ d ∈ r.scheduler.leaving, d.lane.isEmpty = true) (names : List String) :
    Gone name (r.stopNext names) := by
  rcases r.stopNext_cases names with ⟨-, heq⟩ | ⟨_, x, _, t, _, _, ht, heq⟩
  · rw [heq]
    exact h.ended (untouched_closeWriter hended name) rfl
  · have hne : name ≠ x := by
      rintro rfl
      cases h.task.symm.trans ht
    rw [heq]
    exact h.ended (untouched_beginStop ht hne) rfl

variable [Collector σ]

/-- What does not ask for a monitor of that name, nor observes its model. -/
def Event.Spares (name : String) : Event σ → Prop
  | .call (.applyMonitor spec) => spec.model.name ≠ name
  | .call (.gather model) => model ≠ name
  | _ => True

theorem Gone.begin (h : Gone name r) (hr : Tidy r) (hidle : r.call = .idle) (d : Demand)
    (hspares : (Event.call d : Event σ).Spares name) : Gone name (r.begin s d) := by
  have hended := hr.ended_of_idle hidle
  cases d with
  | applyMonitor spec => exact (concerns_applyMonitor r s spec).gone h (Ne.symm hspares)
  | gather model => exact (concerns_gather r s model).gone h (Ne.symm hspares)
  | removeMonitor model =>
    rcases r.begin_removeMonitor s model with ⟨hnone, heq⟩ | ⟨t, ht, heq⟩
    · rw [heq]
      by_cases hmodel : name = model
      · subst hmodel
        exact gone_forgetModel hnone hended
      · exact h.ended (untouched_forgetModel hended hmodel) rfl
    · have hne : name ≠ model := by
        rintro rfl
        cases h.task.symm.trans ht
      rw [heq]
      exact h.ended (untouched_beginStop ht hne) rfl
  | shutDown => exact h.stopNext hended _

/-- A collector that is registered has nothing pending. -/
theorem Gone.registerCollector (h : Gone name r) (collector : σ) :
    Gone name (r.registerCollector collector) := by
  refine ⟨⟨h.task, h.round, h.push, fun m hm => ?_⟩, h.loops, h.call⟩
  have hm : (r.registry.models.insert (Collector.name collector) _).get? name = some m := hm
  rw [Table.get?_insert] at hm
  split at hm
  · cases hm
    rfl
  · exact h.pending m hm

/-- The loops of other names go on, and there are none of this one. -/
theorem Gone.agentStep (h : Gone name r) (s : Surroundings) (a : Agent) :
    Gone name (r.agentStep s a) := by
  by_cases ha : a = .lane name
  · subst ha
    have hrests : r.agentStep s (.lane name) = r := laneStep_of_unoccupied s h.loops
    rw [hrests]
    exact h
  · refine h.untouched (untouched_agentStep r s ha) ?_
    rw [call_agentStep]
    exact h.call

theorem Gone.resume (h : Gone name r) (hr : Tidy r) (hres : r.canResume = true) :
    Gone name (r.resume s) := by
  have hended := hr.ended hres
  rcases resume_cases s hres with ⟨model, hmodel⟩ | ⟨model, id, -, heq⟩ | ⟨id, more, -, heq⟩ |
    ⟨-, heq⟩
  · refine (concerns_resume s hmodel).gone h ?_
    rintro rfl
    exact h.call hmodel
  · rw [heq]
    by_cases hname : name = model
    · subst hname
      exact gone_forgetModel h.task hended
    · exact h.ended (untouched_forgetModel hended hname) rfl
  · rw [heq]
    exact h.stopNext hended more
  · rw [heq]
    exact h.ended ⟨rfl, rfl, rfl, rfl⟩ rfl

theorem Gone.move (h : Gone name r) (hr : Tidy r) (hm : Move s r r') : Gone name r' := by
  rcases hm.first with ⟨a, more, -, rfl⟩ | ⟨hres, rfl⟩ | ⟨t, _, _, -, rfl⟩
  · have htaken : Gone name { r with ready := more } := h.untouched ⟨rfl, rfl, rfl, rfl⟩ h.call
    exact htaken.agentStep s a
  · exact h.resume hr hres
  · exact h.untouched ⟨rfl, rfl, rfl, rfl⟩ h.call

/-- What is gone stays so until the host asks for it. -/
theorem Gone.happens {e : Event σ} (h : Gone name r) (hr : Tidy r) (hh : Happens s r e r')
    (hspares : e.Spares name) : Gone name r' := by
  cases hh with
  | call d hidle => exact h.begin hr hidle d hspares
  | register collector => exact h.registerCollector collector
  | selfMetrics region interval => exact h.untouched ⟨rfl, rfl, rfl, rfl⟩ h.call
  | destination x options =>
    obtain ⟨t, ht⟩ := r.applyDestination_relay x options s.network.readUrl
    rw [ht]
    exact h.untouched ⟨rfl, rfl, rfl, rfl⟩ h.call
  | noDestination x =>
    obtain ⟨t, ht⟩ := r.removeDestination_relay x
    rw [ht]
    exact h.untouched ⟨rfl, rfl, rfl, rfl⟩ h.call
  | move hm => exact h.move hr hm

/-- Something happens that spares a name. -/
def Spared (s : Surroundings) (name : String) (r r' : Relay σ) : Prop :=
  ∃ e : Event σ, e.Spares name ∧ Happens s r e r'

theorem Gone.spared (h : Gone name r) (hr : Tidy r)
    (hq : Relation.ReflTransGen (Spared s name) r q) : Gone name q ∧ Tidy q := by
  induction hq with
  | refl => exact ⟨h, hr⟩
  | tail _ hstep ih =>
    obtain ⟨e, hspares, hh⟩ := hstep
    exact ⟨ih.1.happens ih.2 hh hspares, hh.tidy ih.2⟩

/-! ## During a removal -/

/-- A removal, under way or over. -/
inductive Removing (name : String) (r : Relay σ) : Prop where
  | waiting {id : Nat} : r.call = .removing name id → r.scheduler.tasks.get? name = none →
      Removing name r
  | returned : r.call = .idle → Gone name r → Removing name r

theorem removing_begin (hr : Tidy r) (hidle : r.call = .idle) (s : Surroundings) (name : String) :
    Removing name (r.begin s (.removeMonitor name)) := by
  rcases r.begin_removeMonitor s name with ⟨hnone, heq⟩ | ⟨t, ht, heq⟩
  · rw [heq]
    exact .returned rfl (gone_forgetModel hnone (hr.ended_of_idle hidle))
  · rw [heq]
    refine .waiting rfl ?_
    show (r.scheduler.beginStop name).2.tasks.get? name = none
    rw [Scheduler.get?_beginStop ht, if_pos rfl]

/-- No agent adds a task. -/
theorem task_agentStep (s : Surroundings) (a : Agent)
    (h : r.scheduler.tasks.get? name = none) :
    (r.agentStep s a).scheduler.tasks.get? name = none := by
  by_cases ha : a = .lane name
  · subst ha
    show (r.laneStep s name).scheduler.tasks.get? name = none
    cases ticks_laneStep r s name with
    | rests hs _ => rw [hs, h]
    | goes _ hs _ _ | ends _ hs _ _ _ => rw [hs, Scheduler.get?_setLane, if_pos rfl, h, Option.map_none]
  · exact (untouched_agentStep r s ha).task.trans h

theorem Removing.move (h : Removing name r) (hr : Tidy r) (hm : Move s r r') : Removing name r' := by
  cases h with
  | waiting hcall htask =>
    rcases hm.first with ⟨a, more, -, rfl⟩ | ⟨hres, rfl⟩ | ⟨t, _, _, -, rfl⟩
    · exact .waiting ((call_agentStep ..).trans hcall) (task_agentStep s a htask)
    · rw [resume_removing hcall]
      exact .returned rfl (gone_forgetModel htask (hr.ended hres))
    · exact .waiting hcall htask
  | returned hcall hgone =>
    have hmoved := hgone.move hr hm
    rcases hm.first with ⟨a, more, -, rfl⟩ | ⟨hres, -⟩ | ⟨t, _, _, -, rfl⟩
    · exact .returned ((call_agentStep ..).trans hcall) hmoved
    · exact absurd hcall (ne_idle_of_canResume hres)
    · exact .returned hcall hmoved

theorem Removing.moves (h : Removing name r) (hr : Tidy r) (hq : Moves s r q) :
    Removing name q ∧ Tidy q := by
  induction hq with
  | refl => exact ⟨h, hr⟩
  | tail _ hm ih => exact ⟨ih.1.move ih.2 hm, ih.2.move hm⟩

/-- The loops of a name have made a move. -/
def Acted (s : Surroundings) (name : String) (r r' : Relay σ) : Prop :=
  ∃ more, r.ready = .lane name :: more ∧ r' = { r with ready := more }.laneStep s name

theorem untouched_or_acted {id : Nat} (hr : Tidy r) (hcall : r.call = .removing name id)
    (hm : Move s r r') (hne : other ≠ name) : Untouched other r r' ∨ Acted s other r r' := by
  rcases hm.first with ⟨a, more, hready, rfl⟩ | ⟨hres, rfl⟩ | ⟨t, _, _, -, rfl⟩
  · by_cases ha : a = .lane other
    · subst ha
      exact .inr ⟨more, hready, rfl⟩
    · have htaken : Untouched other r { r with ready := more } := ⟨rfl, rfl, rfl, rfl⟩
      exact .inl (htaken.trans (untouched_agentStep _ s ha))
  · rw [resume_removing hcall]
    exact .inl (untouched_forgetModel (hr.ended hres) hne)
  · exact .inl ⟨rfl, rfl, rfl, rfl⟩

theorem untouched_removeMonitor (hr : Tidy r) (hidle : r.call = .idle) (s : Surroundings)
    (hne : other ≠ name) : Untouched other r (r.begin s (.removeMonitor name)) := by
  rcases r.begin_removeMonitor s name with ⟨-, heq⟩ | ⟨t, ht, heq⟩
  · rw [heq]
    exact untouched_forgetModel (hr.ended_of_idle hidle) hne
  · rw [heq]
    exact untouched_beginStop ht hne

/-! ## All of it -/

/-- At every point of every history of a relay, the last push of a name is the time of the latest round
that has been completed since its monitor was last removed. When a removal has returned, nothing is
left of the monitor, and this stays so until the host asks for the name again. Meanwhile nothing under
other names changes but by moves of their own loops. -/
theorem removal_erases {settings : WriterSettings} {globals : Labels} {times : List Nat}
    (h : Chronicle s settings globals name r times) :
    r.lastPush.get? name = times.head? ∧
    (r.call = .idle →
      (∀ other ≠ name, Untouched other r (r.begin s (.removeMonitor name))) ∧
      ∀ q, Moves s (r.begin s (.removeMonitor name)) q →
        (q.call = .idle → ∀ e, Relation.ReflTransGen (Spared s name) q e → Erased name e) ∧
        (q.call ≠ .idle → ∀ q', Move s q q' → ∀ other ≠ name,
          Untouched other q q' ∨ Acted s other q q')) := by
  refine ⟨h.lastPush, fun hidle => ⟨fun other hne => ?_, fun q hq => ?_⟩⟩
  · exact untouched_removeMonitor h.tidy hidle s hne
  · obtain ⟨hremoving, htidy⟩ :=
      (removing_begin h.tidy hidle s name).moves (h.tidy.begin hidle _) hq
    refine ⟨fun hover e he => ?_, fun hunder q' hm other hne => ?_⟩
    · cases hremoving with
      | waiting hcall _ => cases hcall.symm.trans hover
      | returned _ hgone => exact (hgone.spared htidy he).1.toErased
    · cases hremoving with
      | waiting hcall _ => exact untouched_or_acted htidy hcall hm hne
      | returned hcall _ => exact absurd hcall hunder

/-- Of the two monitors the one whose round is in progress is removed. -/
@[irreducible] def midRoundRemoved : Relay ScriptedCollector :=
  (midRound.begin calm (.removeMonitor "a")).moves calm .call 50

theorem chronicle_midRound (name : String) :
    ∃ times, Chronicle calm { batchSize := 2 } .empty name midRound times := by
  have hnew : Chronicle calm { batchSize := 2 } .empty name
      (.new { batchSize := 2 } .empty : Relay ScriptedCollector) [] := .new
  have hregistered := (hnew.next (.register slow)).next (.register quick)
  unfold midRound
  exact (((hregistered.next (.call _ rfl)).next (.call _ rfl)).next (.selfMetrics ..)).moves ..

/-- The removal waits until the round has ended, while the other monitor goes on. -/
theorem midRoundRemoved_erased :
    (midRound.serving? "a").isSome = true ∧ midRoundRemoved.clock = 5 ∧
      Erased "a" midRoundRemoved ∧ (midRoundRemoved.registry.models.get? "a").isSome = true ∧
      midRound.lastPush.get? "b" = some 0 ∧ midRoundRemoved.lastPush.get? "b" = some 4 ∧
      ∃ times, Chronicle calm { batchSize := 2 } .empty "b" midRound times ∧
        times.head? = some 0 := by
  have hidle : midRound.call = .idle := HostCall.eq_idle (by decide +kernel)
  have hover : midRoundRemoved.call = .idle := HostCall.eq_idle (by decide +kernel)
  have hmoves : Moves calm (midRound.begin calm (.removeMonitor "a")) midRoundRemoved := by
    unfold midRoundRemoved
    exact moves_of_moves ..
  have hpush : midRound.lastPush.get? "b" = some 0 := by decide +kernel
  obtain ⟨times, htimes⟩ := chronicle_midRound "a"
  obtain ⟨times', htimes'⟩ := chronicle_midRound "b"
  obtain ⟨-, hremoval⟩ := removal_erases htimes
  obtain ⟨hlast, -⟩ := removal_erases htimes'
  refine ⟨by decide +kernel, by decide +kernel, ?_, by decide +kernel, hpush, by decide +kernel,
    times', htimes', hlast.symm.trans hpush⟩
  exact ((hremoval hidle).2 midRoundRemoved hmoves).1 hover _ .refl

end Relay

end MetricRelay
