import MetricRelay.Proofs.Collector.Registry
import MetricRelay.Proofs.Relay.Forwarding
import MetricRelay.Proofs.Relay.Moves

/-!
# Monitors that are refused

The `Setting` of a name is what its rounds depend on: the configuration of the collector, the period
of the task and its loops. A relay that is left alone keeps all settings. So does a call for a monitor
that the collector refuses, whenever it gets to it (`Applying.move`). A period of zero is found out
last, though, after the collector has taken the configuration and the task has been registered:
`LeftIdle`.
-/

namespace MetricRelay

open Schedule

theorem Scheduler.lane?_add {ω β : Type} (s : Scheduler ω β) (name x : String) :
    (s.add name).lane? x =
      if x = name then some (((s.tasks.get? name).map Task.lane).getD .empty) else s.lane? x := by
  unfold lane? add
  rw [Table.get?_insertNew]
  split
  · cases s.tasks.get? name <;> rfl
  · rfl

theorem Scheduler.run_add_of_pos {ω β : Type} (s : Scheduler ω β) (name : String) {period : Duration}
    (hp : 0 < period.nanos) (work : ω) :
    (s.add name).run name period work = (.ok (), { s.add name with
      tasks := (s.add name).tasks.insert name
        { period := some period
          lane := (((s.tasks.get? name).map Task.lane).getD .empty).replace
            { work, period := period.nanos, period_pos := hp } } }) := by
  have hadded : (s.add name).tasks.get? name = some ((s.tasks.get? name).getD {}) := by
    unfold add
    rw [Table.get?_insertNew, if_pos rfl]
  unfold run
  simp only [hadded, dif_pos hp]
  cases s.tasks.get? name <;> rfl

/-! ## Configurations -/

namespace Registry

variable {σ : Type} [Collector σ]

/-- A model has been handed a configuration. -/
def configured (registry : Registry σ) (model : String) (config : ConfigMap) (m : Model σ) :
    Registry σ :=
  { registry with
    models := registry.models.insert model
      { m with collector := (Collector.init config m.collector).2 } }

theorem initConfig_cases (registry : Registry σ) (model : String) (config : ConfigMap) :
    (registry.models.get? model = none ∧
      registry.initConfig model config = (.error (.notRegistered .model model), registry)) ∨
    ∃ m, registry.models.get? model = some m ∧
      ((∃ e, (Collector.init config m.collector).1 = .error e ∧
        registry.initConfig model config =
          (.error (.configInit model e), registry.configured model config m)) ∨
      ((Collector.init config m.collector).1 = .ok () ∧
        registry.initConfig model config = (.ok (), registry.configured model config m))) := by
  cases hm : registry.models.get? model with
  | none => exact .inl ⟨rfl, initConfig_of_none hm⟩
  | some m =>
    refine .inr ⟨m, rfl, ?_⟩
    rw [initConfig_of_some hm]
    cases (Collector.init config m.collector).1 with
    | error e => exact .inl ⟨e, rfl, rfl⟩
    | ok u => exact .inr ⟨rfl, rfl⟩

end Registry

/-- What is set up under a name. -/
structure Setting (κ : Type) where
  /-- Of the collector, if the model is registered. -/
  config : Option κ
  /-- Of the task, if it is registered. -/
  period : Option (Option Duration)
  /-- Those that are not cancelled. -/
  loops : Option (List (Plan Labels))

namespace Relay

variable {σ κ : Type} {r r' q q' : Relay σ} {conf : σ → κ}

def setting (conf : σ → κ) (r : Relay σ) (name : String) : Setting κ where
  config := (r.registry.models.get? name).map fun m => conf m.collector
  period := (r.scheduler.tasks.get? name).map Task.period
  loops := (r.scheduler.lane? name).map Lane.live

theorem setting_congr
    (hc : ∀ x, (r'.registry.models.get? x).map (fun m => conf m.collector) =
      (r.registry.models.get? x).map fun m => conf m.collector)
    (hp : ∀ x, (r'.scheduler.tasks.get? x).map Task.period =
      (r.scheduler.tasks.get? x).map Task.period)
    (hl : ∀ x, (r'.scheduler.lane? x).map Lane.live = (r.scheduler.lane? x).map Lane.live) :
    r'.setting conf = r.setting conf := by
  funext x
  unfold setting
  rw [hc, hp, hl]

theorem setting_rests (h : r.Rests r') : r'.setting conf = r.setting conf := by
  obtain ⟨_, _, _, _, rfl⟩ := h
  rfl

/-- Of a lane only cancelled loops end, and its task keeps its period. -/
theorem setting_setLane {name : String} {l l' : Lane Labels Round}
    (h : r.scheduler.lane? name = some l) (hs : l.Sheds l') :
    (r.setLane name l').setting conf = r.setting conf := by
  refine setting_congr (fun _ => rfl) (fun x => ?_) fun x => ?_
  · show ((r.scheduler.setLane name l').tasks.get? x).map Task.period = _
    rw [Scheduler.get?_setLane]
    split
    · rw [Option.map_map]
      rfl
    · rfl
  · show ((r.scheduler.setLane name l').lane? x).map Lane.live = _
    rw [Scheduler.lane?_setLane h]
    split
    · next hx => rw [hx, h, Option.map_some, Option.map_some, hs.live]
    · rfl

/-- Models may have other samples pending. -/
theorem setting_registry {registry : Registry σ}
    (h : ∀ x, (registry.models.get? x).map (fun m => conf m.collector) =
      (r.registry.models.get? x).map fun m => conf m.collector) :
    { r with registry }.setting conf = r.setting conf :=
  setting_congr h (fun _ => rfl) fun _ => rfl

theorem map_get?_insert {α : Type} {f : Model σ → α} {models : Table (Model σ)} {name : String}
    {m m' : Model σ} (hm : models.get? name = some m) (h : f m' = f m) (x : String) :
    ((models.insert name m').get? x).map f = (models.get? x).map f := by
  rw [Table.get?_insert]
  split
  · next hx => rw [hx, hm, Option.map_some, Option.map_some, h]
  · rfl

variable [Collector σ] {s : Surroundings}

/-- No observation changes what a collector is configured with, and no configuration that it
refuses. -/
structure Steady (conf : σ → κ) : Prop where
  observed (connect : Connect) (c : σ) : conf (Collector.gather connect c).2 = conf c
  refused (config : ConfigMap) (c : σ) (e : CollectorError) :
    (Collector.init config c).1 = .error e → conf (Collector.init config c).2 = conf c

/-- What an observation and samples that are pending leave alone of a model. -/
structure Lasting {α : Type} (f : Model σ → α) : Prop where
  observed (connect : Connect) (m : Model σ) :
    f { m with collector := (Collector.gather connect m.collector).2 } = f m
  pending (m : Model σ) (pending : SampleList) : f { m with pending } = f m

theorem Steady.lasting (h : Steady conf) : Lasting fun m : Model σ => conf m.collector :=
  ⟨fun connect m => h.observed connect m.collector, fun _ _ => rfl⟩

theorem lasting_registration : Lasting (Model.registration : Model σ → Nat) :=
  ⟨fun _ _ => rfl, fun _ _ => rfl⟩

theorem Worked.lasting {α : Type} {f : Model σ → α} {name : String} {registry registry' : Registry σ}
    (h : Lasting f) (hw : Worked name registry registry') (x : String) :
    (registry'.models.get? x).map f = (registry.models.get? x).map f := by
  cases hw with
  | none => rfl
  | observed connect =>
    unfold Registry.beginGather Registry.withModel
    cases hm : registry.models.get? name with
    | none => rfl
    | some m => exact map_get?_insert hm (h.observed connect m) x
  | pushed registration samples =>
    show ((registry.models.modify name _).get? x).map _ = _
    rw [Table.get?_modify]
    split
    · rw [Option.map_map]
      congr 1
      funext m
      simp only [Function.comp]
      split
      · exact h.pending m _
      · rfl
    · rfl

/-- Agents leave alone what lasts of the models. -/
theorem Acts.lasting {α : Type} {f : Model σ → α} (h : Lasting f) (ha : Acts s r r') (x : String) :
    (r'.registry.models.get? x).map f = (r.registry.models.get? x).map f := by
  cases ha with
  | rest hr | drain _ hr | emit _ _ _ hr =>
    obtain ⟨_, _, _, _, rfl⟩ := hr
    rfl
  | @lane name l l' registry _ hl hs hw hr =>
    obtain ⟨_, _, _, _, rfl⟩ := hr
    exact hw.lasting h x
  | @forward name l l' labels _ hl hs hr =>
    obtain ⟨_, _, _, _, rfl⟩ := hr
    show ((r.forward s name labels).registry.models.get? x).map f = _
    unfold Relay.forward
    split
    · rfl
    · next m hm => exact map_get?_insert hm (h.pending m _) x

theorem Acts.setting (h : Steady conf) (ha : Acts s r r') : r'.setting conf = r.setting conf := by
  cases ha with
  | rest hr | drain _ hr | emit _ _ _ hr =>
    obtain ⟨_, _, _, _, rfl⟩ := hr
    rfl
  | @lane name l l' registry _ hl hs hw hr =>
    have hregistry := setting_registry (r := r) (hw.lasting h.lasting)
    exact (setting_rests hr).trans ((setting_setLane (r := { r with registry }) hl hs).trans hregistry)
  | @forward name l l' labels _ hl hs hr =>
    have hforward : (r.forward s name labels).setting conf = r.setting conf := by
      unfold Relay.forward
      split
      · rfl
      · next m hm =>
        exact setting_congr (map_get?_insert hm (h.lasting.pending m _)) (fun _ => rfl) fun _ => rfl
    have hkept : (r.forward s name labels).scheduler.lane? name = some l := lane?_forward.trans hl
    exact (setting_rests hr).trans ((setting_setLane hkept hs).trans hforward)

/-- A round that begins is that of a loop which is not cancelled, and serves the deadline that the loop
has waited for. -/
theorem begins_laneStep {name : String} {sv : Serving} (hq : q.serving? name = none)
    (h : (q.laneStep s name).serving? name = some sv) :
    ∃ lane p deadline, q.scheduler.lane? name = some lane ∧ p ∈ lane.live ∧
      wakeTime deadline ≤ q.clock ∧
      sv = ⟨p.work, nextDeadline p.period deadline (instant q.clock), .beginning⟩ ∧
      (q.laneStep s name).ready = .lane name :: q.ready := by
  unfold laneStep at h ⊢
  simp only at h ⊢
  cases hl : q.scheduler.lane? name with
  | none => simp [hl, hq] at h
  | some lane =>
    simp only [hl] at h ⊢
    cases hc : lane.current with
    | none =>
      simp only [hc] at h
      split at h
      · simp [hq] at h
      · have hbegins : (q.setLane name (lane.beginNext q.clock)).serving? name = none :=
          (serving?_setLane hl).trans (Lane.serving?_beginNext hc _)
        exact absurd (hbegins.symm.trans h) (Option.some_ne_none _).symm
    | some c =>
      obtain ⟨p, phase⟩ := c
      cases phase with
      | busy next round => simp [serving?, hl, Lane.serving?, hc] at hq
      | waiting deadline =>
        have hended : (q.setLane name lane.endCurrent).serving? name = none := serving?_setLane hl
        simp only [hc] at h ⊢
        split at h
        · split at h
          · exact absurd (hended.symm.trans h) (Option.some_ne_none _).symm
          · exact absurd (hended.symm.trans h) (Option.some_ne_none _).symm
        · next hp =>
          split at h
          · next ht =>
            have hbegins := serving?_setRound hl lane p
              (nextDeadline p.period deadline (instant q.clock)) .beginning
            cases hbegins.symm.trans h
            rw [if_neg hp, if_pos ht]
            refine ⟨lane, p, deadline, rfl, ?_, ht, rfl, rfl⟩
            exact List.mem_filter.2 ⟨by simp [Lane.plans, hc], by simpa using hp⟩
          · exact absurd (hq.symm.trans h) (Option.some_ne_none _).symm

/-- A round that begins has the labels of a loop that is not cancelled. -/
theorem labels_of_begins {name : String} {sv : Serving} (hq : q.serving? name = none)
    (h : (q.laneStep s name).serving? name = some sv) :
    ∃ loops p, (q.setting conf name).loops = some loops ∧ p ∈ loops ∧ p.work = sv.labels := by
  obtain ⟨lane, p, deadline, hl, hp, -, rfl, -⟩ := begins_laneStep hq h
  exact ⟨lane.live, p, by simp [Relay.setting, hl], hp, rfl⟩

/-! ## How the call for a monitor ends -/

variable {spec : MonitorSpec} {before : String → Setting κ}

/-- What is left of a monitor with a period of zero: its collector is configured, and its task is
there. -/
structure LeftIdle (conf : σ → κ) (spec : MonitorSpec) (before after : String → Setting κ) :
    Prop where
  others : ∀ x ≠ spec.model.name, after x = before x
  config : ∃ c : σ, (before spec.model.name).config = some (conf c) ∧
    (Collector.init ⟨spec.model.config⟩ c).1 = .ok () ∧
    (after spec.model.name).config = some (conf (Collector.init ⟨spec.model.config⟩ c).2)
  period : (after spec.model.name).period = some ((before spec.model.name).period.getD none)
  loops : (after spec.model.name).loops =
    if (before spec.model.name).period.isSome then (before spec.model.name).loops else some []

/-- How the call ends, from the settings before. -/
inductive Ended (conf : σ → κ) (spec : MonitorSpec) (before : String → Setting κ) (q : Relay σ) :
    Prop where
  | accepted : q.answer = .ok () → Ended conf spec before q
  | refused {e : Error} : q.answer = .error e → q.setting conf = before → Ended conf spec before q
  | leftIdle {e : Error} : spec.period.nanos = 0 → q.answer = .error e →
      LeftIdle conf spec before (q.setting conf) → Ended conf spec before q

theorem Ended.congr (h : Ended conf spec before q) (ha : q'.answer = q.answer)
    (hs : q'.setting conf = q.setting conf) : Ended conf spec before q' := by
  cases h with
  | accepted hok => exact .accepted (ha.trans hok)
  | refused he hb => exact .refused (ha.trans he) (hs.trans hb)
  | leftIdle hz he hb => exact .leftIdle hz (ha.trans he) (hs ▸ hb)

/-- The collector has accepted the configuration, and the period is found to be zero. -/
theorem leftIdle_add {m : Model σ} (hm : r.registry.models.get? spec.model.name = some m)
    (hi : (Collector.init ⟨spec.model.config⟩ m.collector).1 = .ok ())
    (hmodels : q.registry.models = r.registry.models.insert spec.model.name
      { m with collector := (Collector.init ⟨spec.model.config⟩ m.collector).2 })
    (hq : q.scheduler = r.scheduler.add spec.model.name) :
    LeftIdle conf spec (r.setting conf) (q.setting conf) where
  others x hx := by
    have htasks : q.scheduler.tasks.get? x = r.scheduler.tasks.get? x := by
      rw [hq]
      unfold Scheduler.add
      rw [Table.get?_insertNew, if_neg hx]
    unfold setting
    rw [hmodels, Table.get?_insert, if_neg hx, htasks, hq, Scheduler.lane?_add, if_neg hx]
  config := by
    refine ⟨m.collector, ?_, hi, ?_⟩
    · simp [setting, hm]
    · simp [setting, hmodels]
  period := by
    unfold setting
    rw [hq]
    unfold Scheduler.add
    rw [Table.get?_insertNew, if_pos rfl]
    cases r.scheduler.tasks.get? spec.model.name <;> rfl
  loops := by
    unfold setting
    rw [hq, Scheduler.lane?_add, if_pos rfl]
    cases ht : r.scheduler.tasks.get? spec.model.name with
    | none => rfl
    | some t => simp [Scheduler.lane?, ht]

/-- After it has been added, a task can be run if only the period is positive. -/
theorem run_add (scheduler : Scheduler Labels Round) (name : String) (period : Duration)
    (labels : Labels) :
    0 < period.nanos ∧ ((scheduler.add name).run name period labels).1 = .ok () ∨
      period.nanos = 0 ∧ (∃ e, ((scheduler.add name).run name period labels).1 = .error e) ∧
        ((scheduler.add name).run name period labels).2 = scheduler.add name := by
  by_cases hp : 0 < period.nanos
  · exact .inl ⟨hp, by rw [scheduler.run_add_of_pos name hp labels]⟩
  · unfold Scheduler.run
    rw [dif_neg hp]
    exact .inr ⟨Nat.eq_zero_of_not_pos hp, ⟨_, rfl⟩, rfl⟩

theorem ended_configure (h : Steady conf) (r : Relay σ) (spec : MonitorSpec) (registration : Nat) :
    Ended conf spec (r.setting conf) (r.configure spec registration) ∧
      (r.configure spec registration).call = .idle := by
  rcases r.registry.initConfig_cases spec.model.name ⟨spec.model.config⟩ with
    ⟨-, heq⟩ | ⟨m, hm, ⟨e, hi, heq⟩ | ⟨hi, heq⟩⟩
  · have hreleased : (r.release registration).setting conf = r.setting conf :=
      setting_rests (rests_release ..)
    rw [configure_of_error heq]
    exact ⟨.refused rfl hreleased, rfl⟩
  · have hkept : { r with registry := r.registry.configured spec.model.name ⟨spec.model.config⟩ m
        }.setting conf = r.setting conf :=
      setting_registry (map_get?_insert hm (h.refused _ _ _ hi))
    have hreleased := (setting_rests (rests_release _ registration)).trans hkept
    rw [configure_of_error heq]
    exact ⟨.refused rfl hreleased, rfl⟩
  · obtain ⟨_, _, _, _, hrelease⟩ := rests_release
      { r with registry := r.registry.configured spec.model.name ⟨spec.model.config⟩ m } registration
    rw [configure_of_ok heq, hrelease]
    rcases run_add r.scheduler spec.model.name spec.period spec.labels with
      ⟨-, hok⟩ | ⟨hz, ⟨e, herror⟩, hadd⟩
    · exact ⟨.accepted hok, rfl⟩
    · exact ⟨.leftIdle hz herror (leftIdle_add hm hi rfl hadd), rfl⟩

/-- The call for a monitor, under way or over, from the settings before. -/
inductive Applying (conf : σ → κ) (spec : MonitorSpec) (before : String → Setting κ)
    (q : Relay σ) : Prop where
  | waiting {registration : Nat} : q.call = .configuring spec registration →
      q.setting conf = before → Applying conf spec before q
  | returned : q.call = .idle → Ended conf spec before q → Applying conf spec before q

theorem applying_begin (h : Steady conf) (s : Surroundings) (spec : MonitorSpec) (r : Relay σ) :
    Applying conf spec (r.setting conf) (r.begin s (.applyMonitor spec)) := by
  simp only [begin, hostAcquire]
  cases r.registry.models.get? spec.model.name with
  | none => exact .returned rfl (.refused rfl rfl)
  | some m =>
    have hacquire := rests_acquire r m.registration .host
    simp only
    split
    · next q heq =>
      rw [heq] at hacquire
      obtain ⟨hended, hidle⟩ := ended_configure h q spec m.registration
      rw [setting_rests hacquire] at hended
      exact .returned hidle hended
    · next q heq =>
      rw [heq] at hacquire
      have hsame : q.setting conf = r.setting conf := setting_rests hacquire
      exact .waiting rfl hsame

theorem Applying.move (h : Steady conf) (hq : Applying conf spec before q) (hm : Move s q q') :
    Applying conf spec before q' := by
  have hkeeps : q'.call = q.call → q'.answer = q.answer → q'.setting conf = q.setting conf →
      Applying conf spec before q' := by
    intro hc ha hs
    cases hq with
    | waiting hcall hb => exact .waiting (hc.trans hcall) (hs.trans hb)
    | returned hcall hended => exact .returned (hc.trans hcall) (hended.congr ha hs)
  rcases hm.cases with hact | ⟨hresume, rfl⟩ | ⟨t, -, _, _, _, _, rfl⟩
  · exact hkeeps hact.call.1 hact.call.2 (hact.setting h)
  · cases hq with
    | @waiting n hcall hb =>
      obtain ⟨hended, hidle⟩ := ended_configure h q spec n
      rw [hb] at hended
      unfold resume
      rw [hcall]
      exact .returned hidle hended
    | returned hcall _ => exact absurd hcall (ne_idle_of_canResume hresume)
  · exact hkeeps rfl rfl rfl

theorem Applying.moves (h : Steady conf) (hr : Applying conf spec before r) (hq : Moves s r q) :
    Applying conf spec before q := by
  induction hq with
  | refl => exact hr
  | tail _ hm ih => exact ih.move h hm

/-- A relay that is left alone keeps all settings. -/
theorem setting_moves (h : Steady conf) (hidle : r.call = .idle) (hq : Moves s r q) :
    q.setting conf = r.setting conf := by
  suffices hboth : q.setting conf = r.setting conf ∧ q.call = .idle from hboth.1
  induction hq with
  | refl => exact ⟨rfl, hidle⟩
  | @tail q q' _ hm ih =>
    obtain ⟨hs, hcall⟩ := ih
    rcases hm.cases with hact | ⟨hresume, -⟩ | ⟨t, -, _, _, _, _, rfl⟩
    · exact ⟨(hact.setting h).trans hs, hact.call.1.trans hcall⟩
    · exact absurd hcall (ne_idle_of_canResume hresume)
    · exact ⟨hs, hcall⟩

/-! ## A collector that is free -/

omit [Collector σ] in
/-- A collector that was free is free again. -/
theorem release_acquired {registration : Nat} {u : User} {locks : List Lock}
    (hfree : ¬locks.any fun l => l.registration = registration)
    (hr : r.locks = locks ++ [⟨registration, u, []⟩]) :
    r.release registration = { r with locks } := by
  have hnone : ∀ l ∈ locks, l.registration ≠ registration := by
    simpa using hfree
  have hfind : locks.find? (fun l => decide (l.registration = registration)) = none :=
    List.find?_eq_none.2 fun l hl => by simpa using hnone l hl
  have hnext : r.nextInLine registration = none := by
    unfold nextInLine
    rw [hr, List.find?_append, hfind]
    simp
  have hkept : r.locks.filter (fun l => decide (l.registration ≠ registration)) = locks := by
    rw [hr, List.filter_append, List.filter_eq_self.2 fun l hl => by simpa using hnone l hl]
    simp
  unfold release
  rw [hnext]
  simp only [hkept]

/-- A free collector refuses at once, and nothing but its own state may be different then. -/
theorem begin_of_free (s : Surroundings) {m : Model σ} (hidle : r.call = .idle)
    (hm : r.registry.models.get? spec.model.name = some m)
    (hfree : ¬r.locks.any fun l => l.registration = m.registration) {e : CollectorError}
    (hi : (Collector.init ⟨spec.model.config⟩ m.collector).1 = .error e) :
    r.begin s (.applyMonitor spec) = { r with
      registry := r.registry.configured spec.model.name ⟨spec.model.config⟩ m
      answer := .error (.configInit spec.model.name e) } := by
  have heq : r.registry.initConfig spec.model.name ⟨spec.model.config⟩ =
      (.error (.configInit spec.model.name e),
        r.registry.configured spec.model.name ⟨spec.model.config⟩ m) := by
    rcases r.registry.initConfig_cases spec.model.name ⟨spec.model.config⟩ with
      ⟨hn, -⟩ | ⟨m', hm', ⟨e', hi', heq⟩ | ⟨hi', -⟩⟩
    · cases hn.symm.trans hm
    · cases hm'.symm.trans hm
      cases hi'.symm.trans hi
      exact heq
    · cases hm'.symm.trans hm
      cases hi'.symm.trans hi
  unfold begin hostAcquire acquire
  simp only [hm, if_neg hfree]
  unfold configure
  simp only [heq]
  rw [release_acquired (r := { r with
    locks := r.locks ++ [⟨m.registration, .host, []⟩]
    registry := r.registry.configured spec.model.name ⟨spec.model.config⟩ m }) hfree rfl]
  unfold finish
  simp only [← hidle]

/-! ## All of it -/

/-- A call for a monitor that has ended with an error, at any point after that: every model has the
configuration, the task, the period and the loops that it has if the call is not made, and so its
rounds have the same labels. Only a period of zero is found out too late. A collector that is not in
use refuses at once, with everything but its own state as before. -/
theorem refused_monitor_keeps_settings (h : Steady conf) (s : Surroundings) (spec : MonitorSpec)
    (hidle : r.call = .idle) (hq : Moves s (r.begin s (.applyMonitor spec)) q)
    (hover : q.call = .idle) {e : Error} (he : q.answer = .error e) :
    (q.setting conf = r.setting conf ∨
      spec.period.nanos = 0 ∧ LeftIdle conf spec (r.setting conf) (q.setting conf)) ∧
    (∀ q', Moves s r q' → q'.setting conf = r.setting conf) ∧
    (∀ name sv, q.serving? name = none → (q.laneStep s name).serving? name = some sv →
      ∃ loops p, (q.setting conf name).loops = some loops ∧ p ∈ loops ∧ p.work = sv.labels) ∧
    ∀ m, r.registry.models.get? spec.model.name = some m →
      ¬(r.locks.any fun l => l.registration = m.registration) →
      ∀ cause, (Collector.init ⟨spec.model.config⟩ m.collector).1 = .error cause →
        r.begin s (.applyMonitor spec) = { r with
          registry := r.registry.configured spec.model.name ⟨spec.model.config⟩ m
          answer := .error (.configInit spec.model.name cause) } := by
  refine ⟨?_, fun q' hq' => setting_moves h hidle hq', fun name sv => labels_of_begins,
    fun m hm hfree cause hi => begin_of_free s hidle hm hfree hi⟩
  cases (applying_begin h s spec r).moves h hq with
  | waiting hcall _ =>
    rw [hover] at hcall
    cases hcall
  | returned _ hended =>
    cases hended with
    | accepted hok =>
      rw [he] at hok
      cases hok
    | refused _ hkept => exact .inl hkept
    | leftIdle hz _ hleft => exact .inr ⟨hz, hleft⟩

/-- A collector that requires a key, and takes five milliseconds for a round. -/
def demanding : ScriptedCollector where
  script.name := "m"
  script.checks := [.require "k"]
  script.labelKeys := ["k"]
  script.rounds := [[.sleep 5]]

theorem steady_labels : Steady ScriptedCollector.labels where
  observed _ _ := rfl
  refused config c e h := by
    show (c.init config).2.labels = c.labels
    have h : (c.init config).1 = .error e := h
    unfold ScriptedCollector.init at h ⊢
    split at h
    · cases h
    · rfl

/-- It is monitored, and its first round is in progress. -/
def inRound : Relay ScriptedCollector :=
  (((new {} .empty).registerCollector demanding).begin calm (.applyMonitor
    { model := { name := "m", config := Table.empty.insert "k" "v" }, period := .ofSeconds 60
      labels := Table.empty.insert "team" "a" })).moves calm .instant 20

/-- Another monitor for the model, without the key; the call waits for the round to end. -/
def refusedInRound : Relay ScriptedCollector :=
  (inRound.begin calm (.applyMonitor { model := { name := "m" }, period := .ofSeconds 1 })).moves
    calm .call 40

theorem refusedInRound_keeps_settings :
    refusedInRound.clock = 5 ∧
      refusedInRound.answer = .error (.configInit "m" (.missingField "k")) ∧
      (refusedInRound.setting ScriptedCollector.labels "m").config =
        some (Table.empty.insert "k" "v") ∧
      (refusedInRound.setting ScriptedCollector.labels "m").period = some (some (.ofSeconds 60)) := by
  have hanswer : refusedInRound.answer = .error (.configInit "m" (.missingField "k")) := rfl
  obtain ⟨hkept | ⟨hz, -⟩, -⟩ := refused_monitor_keeps_settings steady_labels calm
    { model := { name := "m" }, period := .ofSeconds 1 } (r := inRound) rfl
    (moves_of_moves calm .call 40 _) (q := refusedInRound) rfl hanswer
  · rw [hkept]
    exact ⟨rfl, hanswer, rfl, rfl⟩
  · cases hz

/-- A model without a task, and a monitor whose period is zero. -/
def unmonitored : Relay ScriptedCollector :=
  (new {} .empty).registerCollector { script.name := "m" }

def applyZeroPeriod : Relay ScriptedCollector :=
  unmonitored.begin calm (.applyMonitor { model := { name := "m" }, period := ⟨0⟩ })

theorem zeroPeriod_leaves_task :
    applyZeroPeriod.call = .idle ∧ (∃ e, applyZeroPeriod.answer = .error e) ∧
      unmonitored.scheduler.tasks.keys = [] ∧ applyZeroPeriod.scheduler.tasks.keys = ["m"] ∧
      applyZeroPeriod.setting ScriptedCollector.labels ≠
        unmonitored.setting ScriptedCollector.labels := by
  refine ⟨rfl, ⟨_, rfl⟩, rfl, rfl, fun h => ?_⟩
  have hperiod := congrArg (fun settings => (settings "m").period) h
  cases hperiod

end Relay

end MetricRelay
