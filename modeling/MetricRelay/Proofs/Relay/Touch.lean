import MetricRelay.Proofs.Relay.Course
import MetricRelay.Proofs.Relay.Refusal
import MetricRelay.Proofs.Relay.Tidy
import MetricRelay.Proofs.Schedule.Names

/-!
# What touches a name

`Untouched` says that nothing under a name has changed: the task, its loops, the last push and the
model. A move of the loops of one name touches no other (`untouched_laneStep`), and neither does a call
of the host that is about one model (`Concerns`, `untouched_forgetModel`). What the loops of a name do
to it is `Ticks`: a round comes to its end, and only then the last push is noted.
-/

namespace MetricRelay

open Schedule

/-! ## Loops of a name -/

theorem Schedule.Lane.serving?_cancel (l : Lane Labels Round) : l.cancel.serving? = l.serving? := by
  obtain ⟨_ | ⟨p, _ | _⟩, queued⟩ := l <;> rfl

/-- The loop that has begun finishes its round. -/
theorem Schedule.Lane.serving?_replace (l : Lane Labels Round) (p : Plan Labels) :
    (l.replace p).serving? = l.serving? :=
  l.serving?_cancel

theorem Schedule.Lane.serving?_of_isEmpty {l : Lane Labels Round} (h : l.isEmpty = true) :
    l.serving? = none := by
  obtain ⟨_ | c, queued⟩ := l
  · rfl
  · cases h

theorem Schedule.Lane.serving?_of_busy {l : Lane Labels Round} {p : Plan Labels} {next : Nat}
    {round : Round} (hc : l.current = some ⟨p, .busy next round⟩) : l.serving? ≠ none := by
  unfold Lane.serving?
  rw [hc]
  exact Option.some_ne_none _

theorem Schedule.Lane.serving?_of_waiting {l : Lane Labels Round} {p : Plan Labels}
    {deadline : Nat} (hc : l.current = some ⟨p, .waiting deadline⟩) : l.serving? = none := by
  unfold Lane.serving?
  rw [hc]

namespace Scheduler

variable {ω β : Type} {s s' : Scheduler ω β} {name other : String} {t : Task ω β}

/-- The lane of a name, if it has loops. -/
def occupied? (s : Scheduler ω β) (name : String) : Option (Lane ω β) :=
  (s.lane? name).filter fun l => !l.isEmpty

theorem occupied?_congr (h : s'.lane? name = s.lane? name) :
    s'.occupied? name = s.occupied? name := by
  unfold occupied?
  rw [h]

theorem occupied?_eq_none :
    s.occupied? name = none ↔ ∀ l, s.lane? name = some l → l.isEmpty = true := by
  unfold occupied?
  cases s.lane? name <;> simp [Option.filter]

/-- Where no task is in the table, only the lanes that leave matter. -/
theorem occupied?_of_ended (ht : s.tasks.get? name = none)
    (h : ∀ d ∈ s.leaving, d.lane.isEmpty = true) : s.occupied? name = none := by
  refine occupied?_eq_none.2 fun l hl => ?_
  rw [lane?, ht, Option.map_none, Option.none_or, Option.map_eq_some_iff] at hl
  obtain ⟨d, hd, rfl⟩ := hl
  exact h d (List.mem_of_find?_eq_some hd)

theorem occupied?_forgetEnded (h : ∀ d ∈ s.leaving, d.lane.isEmpty = true) (name : String) :
    s.forgetEnded.occupied? name = s.occupied? name := by
  cases ht : s.tasks.get? name with
  | none =>
    have hleft : ∀ d ∈ s.forgetEnded.leaving, d.lane.isEmpty = true := by
      rw [leaving_forgetEnded h]
      simp
    rw [occupied?_of_ended ht h]
    exact occupied?_of_ended ht hleft
  | some t =>
    refine occupied?_congr ?_
    rw [lane?, lane?, ht, forgetEnded, ht]
    rfl

/-! ### Stopping -/

theorem get?_beginStop (ht : s.tasks.get? name = some t) (other : String) :
    (s.beginStop name).2.tasks.get? other =
      if other = name then none else s.tasks.get? other := by
  rw [beginStop_of_some ht, Table.get?_erase]

theorem lane?_beginStop_of_ne (ht : s.tasks.get? name = some t) (hne : other ≠ name) :
    (s.beginStop name).2.lane? other = s.lane? other := by
  have hlast : decide (name = other) = false := decide_eq_false hne.symm
  rw [beginStop_of_some ht, lane?, lane?, Table.get?_erase, if_neg hne, List.find?_append,
    List.find?_cons, hlast, List.find?_nil, Option.or_none]

/-- The lane of a task leaves with its loops cancelled. -/
theorem lane?_beginStop_self (ht : s.tasks.get? name = some t)
    (hgone : ∀ d ∈ s.leaving, s.tasks.get? d.name = none) :
    (s.beginStop name).2.lane? name = some t.lane.cancel := by
  have hnew : s.leaving.find? (fun d => decide (d.name = name)) = none := by
    refine List.find?_eq_none.2 fun d hd hname => ?_
    have hnone := hgone d hd
    rw [of_decide_eq_true hname, ht] at hnone
    cases hnone
  rw [beginStop_of_some ht, lane?, Table.get?_erase, if_pos rfl, List.find?_append, hnew]
  simp

/-! ### Running -/

theorem get?_add_run_of_ne (hne : other ≠ name) (period : Duration) (work : ω) :
    ((s.add name).run name period work).2.tasks.get? other = s.tasks.get? other := by
  have hadd : (s.add name).tasks.get? other = s.tasks.get? other := by
    rw [add, Table.get?_insertNew, if_neg hne]
  rcases (s.add name).run_cases name period work with ⟨e, hrun⟩ | ⟨t, p, -, -, hrun⟩
  · rw [hrun, hadd]
  · rw [hrun, Table.get?_insert, if_neg hne, hadd]

theorem lane?_add_run_of_ne (hne : other ≠ name) (period : Duration) (work : ω) :
    ((s.add name).run name period work).2.lane? other = s.lane? other := by
  have hleaving : ((s.add name).run name period work).2.leaving = s.leaving := by
    rcases (s.add name).run_cases name period work with ⟨e, hrun⟩ | ⟨t, p, -, -, hrun⟩
    · rw [hrun, add]
    · rw [hrun, add]
  rw [lane?, lane?, get?_add_run_of_ne hne, hleaving]

/-- A loop that is asked for waits for the round of the one before it. -/
theorem serving?_add_run {s : Scheduler Labels Round} (h : s.leaving = []) (name : String)
    (period : Duration) (labels : Labels) :
    (((s.add name).run name period labels).2.lane? name).bind Lane.serving? =
      (s.lane? name).bind Lane.serving? := by
  have hlane : s.lane? name = (s.tasks.get? name).map Task.lane := by
    rw [lane?, h, List.find?_nil, Option.map_none, Option.or_none]
  have hadd : ((s.add name).lane? name).bind Lane.serving? = (s.lane? name).bind Lane.serving? := by
    rw [lane?_add, if_pos rfl, hlane]
    cases s.tasks.get? name <;> rfl
  rcases (s.add name).run_cases name period labels with ⟨e, hrun⟩ | ⟨t, p, ht, -, hrun⟩
  · rw [hrun, hadd]
  · rw [← hadd, hrun, lane?, Table.get?_insert_self, lane?, ht]
    exact t.lane.serving?_replace p

end Scheduler

/-- The model that a call is to configure, or to observe. -/
def HostCall.model? : HostCall → Option String
  | .configuring spec _ => some spec.model.name
  | .awaitingGather model _ | .gathering model .. => some model
  | _ => none

namespace Relay

variable {σ : Type} {r r' q : Relay σ} {s : Surroundings} {name other model : String}

/-! ## Untouched names -/

/-- What there is under a name is as it was. -/
structure Untouched (name : String) (r r' : Relay σ) : Prop where
  task : r'.scheduler.tasks.get? name = r.scheduler.tasks.get? name
  loops : r'.scheduler.occupied? name = r.scheduler.occupied? name
  push : r'.lastPush.get? name = r.lastPush.get? name
  model : r'.registry.models.get? name = r.registry.models.get? name

theorem Untouched.trans (h : Untouched name r q) (h' : Untouched name q r') :
    Untouched name r r' where
  task := h'.task.trans h.task
  loops := h'.loops.trans h.loops
  push := h'.push.trans h.push
  model := h'.model.trans h.model

/-- A lane without loops serves nothing. -/
theorem serving?_eq_bind (r : Relay σ) (name : String) :
    r.serving? name = (r.scheduler.occupied? name).bind Lane.serving? := by
  unfold serving? Scheduler.occupied?
  cases r.scheduler.lane? name with
  | none => rfl
  | some l =>
    cases h : l.isEmpty with
    | true => simp [Option.filter, h, Lane.serving?_of_isEmpty h]
    | false => simp [Option.filter, h]

theorem Untouched.serving (h : Untouched name r r') : r'.serving? name = r.serving? name := by
  rw [serving?_eq_bind, h.loops, ← serving?_eq_bind]

theorem Apart.untouched (h : Apart r r') : Untouched name r r' where
  task := by rw [h.scheduler]
  loops := by rw [h.scheduler]
  push := by rw [h.lastPush]
  model := by rw [h.registry]

/-! ## Moves of the loops of a name -/

/-- What a move of the loops of a name does: it ends a round and notes the time, or neither. -/
inductive Ticks (name : String) (r r' : Relay σ) : Prop where
  | rests : r'.scheduler = r.scheduler → r'.lastPush = r.lastPush → Ticks name r r'
  | goes {l l' : Lane Labels Round} : r.scheduler.lane? name = some l →
      r'.scheduler = r.scheduler.setLane name l' → r'.lastPush = r.lastPush →
      (l.serving? ≠ none → l'.serving? ≠ none) → Ticks name r r'
  | ends {l l' : Lane Labels Round} : r.scheduler.lane? name = some l →
      r'.scheduler = r.scheduler.setLane name l' →
      r'.lastPush = r.lastPush.insert name r.clock →
      l.serving? ≠ none → l'.serving? = none → Ticks name r r'

theorem Ticks.before (h : Ticks name r q) (hi : Idle q r') : Ticks name r r' := by
  cases h with
  | rests hs hp => exact .rests (hi.scheduler.trans hs) (hi.lastPush.trans hp)
  | goes hl hs hp hserving => exact .goes hl (hi.scheduler.trans hs) (hi.lastPush.trans hp) hserving
  | ends hl hs hp hserving hended =>
    exact .ends hl (hi.scheduler.trans hs) (hi.lastPush.trans hp) hserving hended

theorem Ticks.after (hi : Idle r q) (h : Ticks name q r') : Ticks name r r' := by
  cases h with
  | rests hs hp => exact .rests (hs.trans hi.scheduler) (hp.trans hi.lastPush)
  | goes hl hs hp hserving =>
    rw [hi.scheduler] at hl hs
    exact .goes hl hs (hp.trans hi.lastPush) hserving
  | ends hl hs hp hserving hended =>
    rw [hi.scheduler] at hl hs
    rw [hi.lastPush, hi.clock] at hp
    exact .ends hl hs hp hserving hended

section

variable {lane : Lane Labels Round} {p : Plan Labels} {next : Nat} {round : Round}

theorem ticks_setRound (hl : r.scheduler.lane? name = some lane) (next : Nat) (round : Round) :
    Ticks name r (r.setRound name lane p next round) :=
  .goes hl rfl rfl fun _ => Option.some_ne_none _

theorem ticks_completeRound (hl : r.scheduler.lane? name = some lane)
    (hc : lane.serving? ≠ none) : Ticks name r (r.completeRound s name lane p next) := by
  have hkept : (r.forward s name p.work).scheduler = r.scheduler ∧
      (r.forward s name p.work).lastPush = r.lastPush ∧
      (r.forward s name p.work).clock = r.clock := by
    unfold forward
    split <;> exact ⟨rfl, rfl, rfl⟩
  obtain ⟨hscheduler, hpush, hclock⟩ := hkept
  have hlane : (r.completeRound s name lane p next).scheduler =
      r.scheduler.setLane name { lane with current := some ⟨p, .waiting next⟩ } := by
    show (r.forward s name p.work).scheduler.setLane name _ = _
    rw [hscheduler]
  refine .ends hl hlane ?_ hc rfl
  show (r.forward s name p.work).lastPush.insert name (r.forward s name p.work).clock = _
  rw [hpush, hclock]

variable [Collector σ]

theorem ticks_beginObservation (hl : r.scheduler.lane? name = some lane)
    (hc : lane.serving? ≠ none) (registration : Nat) :
    Ticks name r (r.beginObservation s name lane p next registration) := by
  unfold beginObservation
  split
  · have hi := idle_release r registration
    exact .after hi (ticks_completeRound (by rw [hi.scheduler, hl]) hc)
  · exact .goes hl rfl rfl fun _ => Option.some_ne_none _

theorem ticks_roundStep (hl : r.scheduler.lane? name = some lane) (hc : lane.serving? ≠ none) :
    Ticks name r (r.roundStep s name lane p next round) := by
  cases round with
  | beginning =>
    unfold roundStep
    cases r.registry.models.get? name with
    | none => exact (ticks_completeRound hl hc).before (idle_goOn ..)
    | some m =>
      have hacquire := idle_acquire r m.registration (.agent (.lane name))
      simp only
      split
      · next q heq =>
        rw [heq] at hacquire
        have hq : q.scheduler.lane? name = some lane := hacquire.scheduler ▸ hl
        exact .after hacquire ((ticks_beginObservation hq hc _).before (idle_goOn ..))
      · next q heq =>
        rw [heq] at hacquire
        exact .after hacquire (ticks_setRound (hacquire.scheduler ▸ hl) ..)
  | inLine registration =>
    unfold roundStep
    simp only
    split
    · exact (ticks_beginObservation hl hc _).before (idle_goOn ..)
    · exact .rests rfl rfl
  | gathering registration g =>
    obtain ⟨actions, outcome⟩ := g
    cases actions with
    | nil =>
      have hi := idle_release r registration
      have hq : (r.release registration).scheduler.lane? name = some lane := hi.scheduler ▸ hl
      exact .after hi ((ticks_completeRound hq hc).before (idle_goOn ..))
    | cons action more =>
      cases action with
      | push x => exact .goes hl rfl rfl fun _ => Option.some_ne_none _
      | sleep d =>
        unfold roundStep
        simp only
        split
        · exact (ticks_setRound hl ..).before (idle_goOn ..)
        · exact (ticks_setRound hl ..).before (idle_setAlarm ..)
  | sleeping registration wake g =>
    unfold roundStep
    simp only
    split
    · exact (ticks_setRound hl ..).before (idle_goOn ..)
    · exact .rests rfl rfl

theorem ticks_laneStep (r : Relay σ) (s : Surroundings) (name : String) :
    Ticks name r (r.laneStep s name) := by
  unfold laneStep
  simp only
  cases hl : r.scheduler.lane? name with
  | none => exact .rests rfl rfl
  | some lane =>
    simp only
    cases hc : lane.current with
    | none =>
      have hnone : lane.serving? = none := by
        unfold Lane.serving?
        rw [hc]
      simp only
      split
      · exact .rests rfl rfl
      · exact .goes hl rfl rfl fun h => absurd hnone h
    | some c =>
      obtain ⟨p, phase⟩ := c
      cases phase with
      | busy next round => exact ticks_roundStep hl (Lane.serving?_of_busy hc)
      | waiting deadline =>
        have hnone := Lane.serving?_of_waiting hc
        simp only
        split
        · have hended : Ticks name r (r.setLane name lane.endCurrent) :=
            .goes hl rfl rfl fun h => absurd hnone h
          split
          · exact hended
          · exact hended.before (idle_wakeUp ..)
        · split
          · exact (ticks_setRound hl ..).before (idle_goOn ..)
          · exact .rests rfl rfl

end

variable [Collector σ]

/-- The loops of a name touch no other. -/
theorem untouched_laneStep (r : Relay σ) (s : Surroundings) (hne : other ≠ name) :
    Untouched other r (r.laneStep s name) where
  task := by
    cases ticks_laneStep r s name with
    | rests hs _ => rw [hs]
    | goes _ hs _ _ | ends _ hs _ _ _ => rw [hs, Scheduler.get?_setLane, if_neg hne]
  loops := Scheduler.occupied?_congr ((local_laneStep r s name).lanes other hne)
  push := (local_laneStep r s name).pushes other hne
  model := (local_laneStep r s name).models other hne

theorem untouched_agentStep (r : Relay σ) (s : Surroundings) {a : Agent} (h : a ≠ .lane name) :
    Untouched name r (r.agentStep s a) := by
  cases a with
  | lane other => exact untouched_laneStep r s fun heq => h (heq ▸ rfl)
  | drain => exact (apart_drainStep r s).untouched
  | emitter number => exact (apart_emitterStep r s number).untouched

/-- Where there are no loops, a move of the loops of the name does nothing. -/
theorem laneStep_of_unoccupied (s : Surroundings) (h : r.scheduler.occupied? name = none) :
    r.laneStep s name = r := by
  unfold laneStep
  simp only
  cases hl : r.scheduler.lane? name with
  | none => rfl
  | some lane =>
    have hempty := Scheduler.occupied?_eq_none.1 h lane hl
    obtain ⟨_ | c, queued⟩ := lane
    · have hqueued : queued.isEmpty = true := hempty
      simp only [hqueued, if_true]
    · cases hempty

/-! ## Calls about one model -/

/-- A call may have used the collector of a model, and asked for a loop of its task. -/
structure Concerns (model : String) (r r' : Relay σ) : Prop where
  scheduler : r'.scheduler = r.scheduler ∨
    ∃ period labels, r'.scheduler = ((r.scheduler.add model).run model period labels).2
  lastPush : r'.lastPush = r.lastPush
  models : ∀ other ≠ model, r'.registry.models.get? other = r.registry.models.get? other
  call : r'.call.model? = none ∨ r'.call.model? = some model

section

omit [Collector σ]

theorem Concerns.after (hi : Idle r q) (h : Concerns model q r') : Concerns model r r' where
  scheduler := by rw [← hi.scheduler]; exact h.scheduler
  lastPush := h.lastPush.trans hi.lastPush
  models := by rw [← hi.registry]; exact h.models
  call := h.call

theorem Concerns.registry {registry : Registry σ}
    (hr : ∀ other ≠ model, registry.models.get? other = r.registry.models.get? other)
    (h : Concerns model { r with registry } r') : Concerns model r r' where
  scheduler := h.scheduler
  lastPush := h.lastPush
  models other hne := (h.models other hne).trans (hr other hne)
  call := h.call

theorem concerns_finish (model : String) (r : Relay σ) (answer : Except Error Unit) :
    Concerns model r (r.finish answer) :=
  ⟨.inl rfl, rfl, fun _ _ => rfl, .inl rfl⟩

/-- The call waits, for something of that model. -/
theorem concerns_waits (r : Relay σ) {call : HostCall} (h : call.model? = some model) :
    Concerns model r { r with call } :=
  ⟨.inl rfl, rfl, fun _ _ => rfl, .inr h⟩

theorem concerns_hostGather (r : Relay σ) (model : String) (registration : Nat)
    (outcome : Outcome) (actions : List Action) :
    Concerns model r (r.hostGather model registration outcome actions) := by
  induction actions generalizing r with
  | nil => exact .after (idle_release ..) (concerns_finish ..)
  | cons action more ih =>
    cases action with
    | push x => exact .registry (quiet_push r model registration [x]).models (ih _)
    | sleep d =>
      unfold hostGather
      split
      · exact ih r
      · exact concerns_waits r rfl

theorem concerns_hostAcquire (r : Relay σ) {free waiting : Nat → Relay σ → Relay σ}
    (hfree : ∀ n q, Concerns model q (free n q)) (hwaiting : ∀ n q, Concerns model q (waiting n q)) :
    Concerns model r (r.hostAcquire model free waiting) := by
  unfold hostAcquire
  split
  · exact concerns_finish ..
  · next m _ =>
    have hacquire := idle_acquire r m.registration .host
    split
    · next q heq =>
      rw [heq] at hacquire
      exact .after hacquire (hfree _ q)
    · next q heq =>
      rw [heq] at hacquire
      exact .after hacquire (hwaiting _ q)

end

theorem concerns_hostObserve (r : Relay σ) (s : Surroundings) (model : String)
    (registration : Nat) : Concerns model r (r.hostObserve s model registration) := by
  have hmodels : ∀ other ≠ model, (r.registry.beginGather (r.connect s) model).2.models.get? other =
      r.registry.models.get? other := fun _ => Registry.get?_withModel_of_ne
  unfold hostObserve
  split
  · exact .after (idle_release ..) (concerns_finish ..)
  · next heq =>
    rw [heq] at hmodels
    exact .registry hmodels (concerns_hostGather ..)

theorem models_initConfig (registry : Registry σ) (config : ConfigMap) (hne : other ≠ model) :
    (registry.initConfig model config).2.models.get? other = registry.models.get? other := by
  cases hm : registry.models.get? model with
  | none => rw [Registry.initConfig_of_none hm]
  | some m => rw [Registry.initConfig_of_some hm, Registry.get?_replace, if_neg hne]

theorem concerns_configure (r : Relay σ) (spec : MonitorSpec) (registration : Nat) :
    Concerns spec.model.name r (r.configure spec registration) := by
  have hmodels : ∀ other ≠ spec.model.name,
      (r.registry.initConfig spec.model.name ⟨spec.model.config⟩).2.models.get? other =
        r.registry.models.get? other := fun _ hne => models_initConfig _ _ hne
  rcases hout : r.registry.initConfig spec.model.name ⟨spec.model.config⟩ with ⟨⟨e⟩ | ⟨⟩, registry⟩
  · rw [hout] at hmodels
    rw [configure_of_error hout]
    exact .registry hmodels (.after (idle_release ..) (concerns_finish ..))
  · rw [hout] at hmodels
    rw [configure_of_ok hout]
    have hi := idle_release { r with registry } registration
    exact ⟨.inr ⟨spec.period, spec.labels, rfl⟩, hi.lastPush, fun other hne => by
      show ({ r with registry }.release registration).registry.models.get? other = _
      rw [hi.registry]
      exact hmodels other hne, .inl rfl⟩

theorem concerns_applyMonitor (r : Relay σ) (s : Surroundings) (spec : MonitorSpec) :
    Concerns spec.model.name r (r.begin s (.applyMonitor spec)) := by
  simp only [Relay.begin]
  refine concerns_hostAcquire r (fun n q => ?_) fun n q => ?_
  · exact concerns_configure q spec n
  · exact concerns_waits q rfl

theorem concerns_gather (r : Relay σ) (s : Surroundings) (model : String) :
    Concerns model r (r.begin s (.gather model)) := by
  simp only [Relay.begin]
  refine concerns_hostAcquire r (fun n q => ?_) fun n q => ?_
  · exact concerns_hostObserve q s model n
  · exact concerns_waits q rfl

theorem concerns_resume (s : Surroundings) (h : r.call.model? = some model) :
    Concerns model r (r.resume s) := by
  unfold resume
  cases hcall : r.call with
  | configuring spec registration =>
    rw [hcall] at h
    cases h
    exact concerns_configure r spec registration
  | awaitingGather model registration =>
    rw [hcall] at h
    cases h
    exact concerns_hostObserve r s model registration
  | gathering model registration wake g =>
    rw [hcall] at h
    cases h
    exact concerns_hostGather r model registration g.outcome g.actions
  | _ =>
    rw [hcall] at h
    cases h

omit [Collector σ] in
theorem Concerns.untouched (h : Concerns model r r') (hne : name ≠ model) :
    Untouched name r r' where
  task := by
    rcases h.scheduler with hs | ⟨period, labels, hs⟩
    · rw [hs]
    · rw [hs, Scheduler.get?_add_run_of_ne hne]
  loops := by
    rcases h.scheduler with hs | ⟨period, labels, hs⟩
    · rw [hs]
    · rw [hs]
      exact Scheduler.occupied?_congr (Scheduler.lane?_add_run_of_ne hne ..)
  push := by rw [h.lastPush]
  model := h.models name hne

omit [Collector σ] in
/-- No round ends by such a call, and none begins. -/
theorem Concerns.serving (h : Concerns model r r') (hleaving : r.scheduler.leaving = []) :
    r'.serving? name = r.serving? name := by
  by_cases hname : name = model
  · subst hname
    unfold serving?
    rcases h.scheduler with hs | ⟨period, labels, hs⟩
    · rw [hs]
    · rw [hs, Scheduler.serving?_add_run hleaving]
  · exact (h.untouched hname).serving

/-! ## Calls that stop -/

omit [Collector σ] in
theorem untouched_forgetModel (hended : ∀ d ∈ r.scheduler.leaving, d.lane.isEmpty = true)
    (hne : name ≠ model) : Untouched name r (r.forgetModel model) where
  task := rfl
  loops := Scheduler.occupied?_forgetEnded hended name
  push := by
    show (r.lastPush.erase model).get? name = _
    rw [Table.get?_erase, if_neg hne]
  model := Registry.get?_withModel_of_ne hne

omit [Collector σ] in
theorem untouched_beginStop {t : Task Labels Round} {call : HostCall} {a : Agent}
    (ht : r.scheduler.tasks.get? model = some t) (hne : name ≠ model) :
    Untouched name r
      ({ r with scheduler := (r.scheduler.beginStop model).2, call }.wakeUp a) where
  task := by
    show (r.scheduler.beginStop model).2.tasks.get? name = _
    rw [Scheduler.get?_beginStop ht, if_neg hne]
  loops := Scheduler.occupied?_congr (Scheduler.lane?_beginStop_of_ne ht hne)
  push := rfl
  model := rfl

omit [Collector σ] in
/-- A loop that is cancelled finishes its round. -/
theorem serving?_beginStop {t : Task Labels Round} {call : HostCall} {a : Agent}
    (ht : r.scheduler.tasks.get? model = some t)
    (hgone : ∀ d ∈ r.scheduler.leaving, r.scheduler.tasks.get? d.name = none) :
    ({ r with scheduler := (r.scheduler.beginStop model).2, call }.wakeUp a).serving? name =
      r.serving? name := by
  by_cases hname : name = model
  · subst hname
    have hlane : r.scheduler.lane? name = some t.lane := by
      rw [Scheduler.lane?, ht]
      rfl
    show ((r.scheduler.beginStop name).2.lane? name).bind _ = _
    rw [Scheduler.lane?_beginStop_self ht hgone, serving?, hlane]
    exact t.lane.serving?_cancel
  · exact (untouched_beginStop ht hname).serving

end Relay

end MetricRelay
