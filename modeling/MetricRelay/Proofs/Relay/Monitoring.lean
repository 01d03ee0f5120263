import MetricRelay.Proofs.Relay.Line
import MetricRelay.Proofs.Relay.Removal

/-!
# A host that asks for monitors

`Effect` lists what can happen to a relay whose host applies monitors and removes them, one call at a
time, and says which monitor is accepted by that. At every point each model has its `Turn`, and a round
that begins is the next to move: `Lined`.
-/

namespace MetricRelay

open Schedule

/-- The monitor that a call is in line for. -/
def HostCall.spec? : HostCall → Option MonitorSpec
  | .configuring spec _ => some spec
  | _ => none

/-- A call for a monitor, or none. -/
def HostCall.Monitors : HostCall → Prop
  | .idle | .configuring .. | .removing .. => True
  | _ => False

namespace Relay

variable {σ : Type} {r r' q : Relay σ} {s : Surroundings} {name other : String} {n : Nat}

/-- The registration of a model. -/
def registrationOf (r : Relay σ) (name : String) : Option Nat :=
  (r.registry.models.get? name).map Model.registration

theorem registrationOf_congr (h : r'.registry = r.registry) (name : String) :
    r'.registrationOf name = r.registrationOf name := by
  rw [registrationOf, registrationOf, h]

/-! ## What happens -/

/-- Nothing happens that has to do with models or tasks. -/
structure Still (r r' : Relay σ) : Prop where
  registry : r'.registry = r.registry
  scheduler : r'.scheduler = r.scheduler
  locks : r'.locks = r.locks
  call : r'.call = r.call
  ready : ∃ more, r'.ready = r.ready ++ more

/-- The monitor, if the call for it has returned without an error. -/
def acceptedAs (spec : MonitorSpec) (r : Relay σ) : Option MonitorSpec :=
  match r.call, r.answer with
  | .idle, .ok _ => some spec
  | _, _ => none

namespace Event

/-- The host asks for nothing but monitors, each with a period, and for destinations and self metrics. -/
def Monitors : Event σ → Prop
  | .call (.applyMonitor spec) => 0 < spec.period.nanos
  | .call (.removeMonitor _) | .selfMetrics .. | .destination .. | .noDestination _ | .move => True
  | .call (.gather _) | .call .shutDown | .register _ => False

/-- The monitor that is accepted by that. -/
def accepted (r r' : Relay σ) : Event σ → Option MonitorSpec
  | .call (.applyMonitor spec) => acceptedAs spec r'
  | .move => r.call.spec?.bind fun spec => acceptedAs spec r'
  | _ => none

end Event

variable [Collector σ]

/-- The collector of a model is there for the host: it is free, or it has been handed over. -/
inductive Grants (spec : MonitorSpec) (n : Nat) (r : Relay σ) : Relay σ → Prop where
  | free : r.call = .idle → r.locksOf n = [] → Grants spec n r (r.acquire n .host).2
  | handed : r.call = .configuring spec n → r.holds n .host = true → Grants spec n r r

/-- What can happen while the host asks for monitors, and the monitor that is accepted by that. -/
inductive Effect (s : Surroundings) (r : Relay σ) : Option MonitorSpec → Relay σ → Prop where
  | agent {a : Agent} {more : List Agent} : r.ready = a :: more →
      Effect s r none ({ r with ready := more }.agentStep s a)
  | still {r' : Relay σ} : Still r r' → Effect s r none r'
  | waits {spec : MonitorSpec} {n : Nat} : r.call = .idle → 0 < spec.period.nanos →
      r.registrationOf spec.model.name = some n → r.locksOf n ≠ [] →
      Effect s r none { (r.acquire n .host).2 with call := .configuring spec n }
  | configures {spec : MonitorSpec} {n : Nat} {q : Relay σ} : Grants spec n r q →
      0 < spec.period.nanos → r.registrationOf spec.model.name = some n →
      Effect s r (acceptedAs spec (q.configure spec n)) (q.configure spec n)
  | stops {model : String} {t : Task Labels Round} : r.call = .idle →
      r.scheduler.tasks.get? model = some t →
      Effect s r none ({ r with
        scheduler := (r.scheduler.beginStop model).2
        call := .removing model r.scheduler.stops }.wakeUp (.lane model))
  | forgets {model : String} : (∀ spec n, r.call ≠ .configuring spec n) →
      r.scheduler.tasks.get? model = none → (∀ d ∈ r.scheduler.leaving, d.lane.isEmpty = true) →
      Effect s r none (r.forgetModel model)

/-- Each model has its turn, and a round that begins is the next to move. -/
structure Lined (r : Relay σ) : Prop where
  turn : ∀ name n, r.registrationOf name = some n → Turn name n r
  unknown : ∀ name, r.registrationOf name = none → r.Outside name
  distinct : ∀ x y n, r.registrationOf x = some n → r.registrationOf y = some n → x = y
  prompt : ∀ name, r.round? name = some .beginning → r.ready.head? = some (.lane name)
  configuring : ∀ spec n, r.call = .configuring spec n →
    0 < spec.period.nanos ∧ r.registrationOf spec.model.name = some n
  removing : ∀ name id, r.call = .removing name id → r.scheduler.tasks.get? name = none
  call : r.call.Monitors

/-- A call that is still under way has accepted nothing. -/
theorem Effect.move (h : Effect s r none r') (hcall : r'.call = r.call) :
    Effect s r ((Event.move : Event σ).accepted r r') r' := by
  have hnone : (Event.move : Event σ).accepted r r' = none := by
    unfold Event.accepted acceptedAs
    rw [hcall]
    cases r.call <;> rfl
  rw [hnone]
  exact h

theorem effect_applyMonitor (s : Surroundings) (spec : MonitorSpec) (hp : 0 < spec.period.nanos)
    (hidle : r.call = .idle) :
    Effect s r (acceptedAs spec (r.begin s (.applyMonitor spec))) (r.begin s (.applyMonitor spec)) := by
  simp only [begin, hostAcquire]
  cases hm : r.registry.models.get? spec.model.name with
  | none => exact .still ⟨rfl, rfl, rfl, hidle.symm, [], (List.append_nil _).symm⟩
  | some m =>
    have hn : r.registrationOf spec.model.name = some m.registration := by
      simp [registrationOf, hm]
    by_cases hfree : r.locksOf m.registration = []
    · have hgrants : Grants spec _ r _ := .free hidle hfree
      rw [acquire_of_nil hfree] at hgrants
      simp only [acquire_of_nil hfree]
      exact .configures hgrants hp hn
    · have hwaits := Effect.waits (s := s) hidle hp hn hfree
      rw [acquire_of_ne_nil hfree] at hwaits
      simp only [acquire_of_ne_nil hfree]
      exact hwaits

theorem effect_move (hm : Move s r r') (hr : Lined r) (ht : Tidy r) :
    Effect s r ((Event.move : Event σ).accepted r r') r' := by
  rcases hm.first with ⟨a, more, hready, rfl⟩ | ⟨hres, rfl⟩ | ⟨t, more, _, -, rfl⟩
  · exact (Effect.agent hready).move (call_agentStep ..)
  · have hmonitors := hr.call
    cases hcall : r.call with
    | idle => exact absurd hcall (ne_idle_of_canResume hres)
    | configuring spec n =>
      obtain ⟨hp, hn⟩ := hr.configuring spec n hcall
      unfold canResume at hres
      rw [hcall] at hres
      have hgrants := Grants.handed hcall hres
      unfold Event.accepted resume
      rw [hcall]
      exact .configures hgrants hp hn
    | removing model id =>
      have hnone : (Event.move : Event σ).accepted r (r.resume s) = none := by
        unfold Event.accepted
        rw [hcall]
        rfl
      rw [hnone, resume_removing hcall]
      exact .forgets (by simp [hcall]) (hr.removing model id hcall) (ht.ended hres)
    | _ =>
      rw [hcall] at hmonitors
      exact hmonitors.elim
  · exact Effect.move (.still ⟨rfl, rfl, rfl, rfl, more, rfl⟩) rfl

/-- There is nothing else that can happen. -/
theorem Happens.effect {e : Event σ} (h : Happens s r e r') (he : e.Monitors) (hr : Lined r)
    (ht : Tidy r) : Effect s r (e.accepted r r') r' := by
  cases h with
  | call d hidle =>
    cases d with
    | applyMonitor spec => exact effect_applyMonitor s spec he hidle
    | removeMonitor model =>
      rcases r.begin_removeMonitor s model with ⟨hnone, heq⟩ | ⟨t, htask, heq⟩
      · rw [heq]
        exact .forgets (by simp [hidle]) hnone (ht.ended_of_idle hidle)
      · rw [heq]
        exact .stops hidle htask
    | gather | shutDown => exact he.elim
  | register => exact he.elim
  | selfMetrics region interval => exact .still ⟨rfl, rfl, rfl, rfl, _, rfl⟩
  | destination x options =>
    obtain ⟨t, ht⟩ := r.applyDestination_relay x options s.network.readUrl
    rw [ht]
    exact .still ⟨rfl, rfl, rfl, rfl, [], (List.append_nil _).symm⟩
  | noDestination x =>
    obtain ⟨t, ht⟩ := r.removeDestination_relay x
    rw [ht]
    exact .still ⟨rfl, rfl, rfl, rfl, [], (List.append_nil _).symm⟩
  | move hm => exact effect_move hm hr ht

/-! ## Lines are kept -/

omit [Collector σ] in
theorem locks_release_registry (r : Relay σ) (registry : Registry σ) (n : Nat) :
    ({ r with registry }.release n).locks = (r.release n).locks := by
  have hnext : ({ r with registry } : Relay σ).nextInLine n = r.nextInLine n := rfl
  unfold release
  rw [hnext]
  cases r.nextInLine n with
  | none => rfl
  | some u => cases u <;> rfl

omit [Collector σ] in
theorem exists_ready_release (r : Relay σ) (n : Nat) :
    ∃ more, (r.release n).ready = r.ready ++ more := by
  unfold release
  split
  · exact ⟨[], (List.append_nil _).symm⟩
  · split
    · exact ⟨_, rfl⟩
    · exact ⟨[], (List.append_nil _).symm⟩

theorem registrationOf_initConfig (registry : Registry σ) (model : String) (config : ConfigMap)
    (x : String) : ((registry.initConfig model config).2.models.get? x).map Model.registration =
      (registry.models.get? x).map Model.registration := by
  rcases registry.initConfig_cases model config with ⟨-, heq⟩ | ⟨m, hm, ⟨e, -, heq⟩ | ⟨-, heq⟩⟩
  · rw [heq]
  · rw [heq]
    refine map_get?_insert hm ?_ x
    rfl
  · rw [heq]
    refine map_get?_insert hm ?_ x
    rfl

/-- What the host's call leaves when it has configured the collector. -/
structure Returned (n : Nat) (r r' : Relay σ) : Prop where
  locks : r'.locks = (r.release n).locks
  ready : ∃ more, r'.ready = r.ready ++ more
  registrations : ∀ x, r'.registrationOf x = r.registrationOf x
  call : r'.call = .idle

theorem returned_configure (r : Relay σ) (spec : MonitorSpec) (n : Nat) :
    Returned n r (r.configure spec n) := by
  have hregistrations := registrationOf_initConfig r.registry spec.model.name ⟨spec.model.config⟩
  obtain ⟨more, hready⟩ := exists_ready_release
    { r with registry := (r.registry.initConfig spec.model.name ⟨spec.model.config⟩).2 } n
  rcases hout : r.registry.initConfig spec.model.name ⟨spec.model.config⟩ with ⟨⟨e⟩ | ⟨⟩, registry⟩
  · rw [hout] at hregistrations hready
    rw [configure_of_error hout]
    refine ⟨locks_release_registry r registry n, ⟨more, hready⟩, fun x => ?_, rfl⟩
    show (({ r with registry }.release n).registry.models.get? x).map _ = _
    rw [(idle_release ..).registry]
    exact hregistrations x
  · rw [hout] at hregistrations hready
    rw [configure_of_ok hout]
    refine ⟨locks_release_registry r registry n, ⟨more ++ [.lane spec.model.name], ?_⟩,
      fun x => ?_, rfl⟩
    · show ({ r with registry }.release n).ready ++ _ = _
      rw [hready, List.append_assoc]
    · show (({ r with registry }.release n).registry.models.get? x).map _ = _
      rw [(idle_release ..).registry]
      exact hregistrations x

omit [Collector σ] in
/-- A call of the host touches no round, and lets nobody act first. -/
theorem Lined.called (hr : Lined r) (hregistrations : ∀ x, r'.registrationOf x = r.registrationOf x)
    (hrounds : ∀ x, r'.round? x = r.round? x) (hready : ∃ more, r'.ready = r.ready ++ more)
    (hturn : ∀ x n, r.registrationOf x = some n → Turn x n r')
    (hconfiguring : ∀ spec n, r'.call = .configuring spec n →
      0 < spec.period.nanos ∧ r.registrationOf spec.model.name = some n)
    (hremoving : ∀ x id, r'.call = .removing x id → r'.scheduler.tasks.get? x = none)
    (hcall : r'.call.Monitors) : Lined r' where
  turn x n hn := hturn x n (hregistrations x ▸ hn)
  unknown x hn := (hr.unknown x (hregistrations x ▸ hn)).congr (hrounds x)
  distinct x y n hx hy := hr.distinct x y n (hregistrations x ▸ hx) (hregistrations y ▸ hy)
  prompt x hx := by
    obtain ⟨more, hready⟩ := hready
    rw [hready, List.head?_append, hr.prompt x (hrounds x ▸ hx)]
    rfl
  configuring spec n hconf := by
    rw [hregistrations]
    exact hconfiguring spec n hconf
  removing := hremoving
  call := hcall

omit [Collector σ] in
theorem Still.lined (h : Still r r') (hr : Lined r) : Lined r' := by
  have hrounds : ∀ x, r'.round? x = r.round? x := fun x => round?_congr (serving?_congr h.scheduler)
  refine hr.called (registrationOf_congr h.registry) hrounds h.ready (fun x n hn => ?_)
    (h.call ▸ hr.configuring) (h.call ▸ h.scheduler ▸ hr.removing) (h.call ▸ hr.call)
  exact (hr.turn x n hn).congr (congrArg _ h.locks) (hrounds x) fun spec => by rw [h.call]

omit [Collector σ] in
/-- Whoever waits for a collector that is in use waits behind the round that has it. -/
theorem Turn.waits {spec : MonitorSpec} (h : Turn name n r) (hidle : r.call = .idle)
    (hused : r.locksOf n ≠ []) :
    Turn name n { (r.acquire n .host).2 with call := .configuring spec n } := by
  cases h with
  | free hlocks _ _ => exact absurd hlocks hused
  | taken hlocks hround hn _ =>
    have hrounds : (r.acquire n .host).2.round? name = r.round? name :=
      round?_congr (serving?_congr (idle_acquire r n .host).scheduler)
    exact .awaited (locksOf_acquire_of_cons hlocks .host) (hrounds.trans hround) hn rfl
  | awaited _ _ _ hcall | handed _ _ hcall | contended _ _ hcall => cases hidle.symm.trans hcall

/-- The host passes the collector on to the round in line, if there is one. -/
theorem Turn.goesOn {spec other : MonitorSpec} (h : Turn name n r)
    (hcall : r.call = .configuring spec n) (hholds : r.holds n .host = true)
    (hrounds : (r.configure other n).round? name = r.round? name) :
    Turn name n (r.configure other n) := by
  have hlocks : (r.configure other n).locksOf n = (r.release n).locksOf n :=
    congrArg _ (returned_configure r other n).locks
  have hfree : ∀ spec, (r.configure other n).call ≠ .configuring spec n := by
    simp [(returned_configure r other n).call]
  obtain ⟨l, hl, hholder⟩ := holds_iff.1 hholds
  cases h with
  | free _ _ hnever | taken _ _ _ hnever => exact absurd hcall (hnever spec)
  | awaited hline _ _ _ =>
    rw [hline, List.mem_singleton] at hl
    rw [hl] at hholder
    cases hholder
  | handed hline hround _ =>
    exact .free (hlocks.trans (locksOf_release_last hline)) (hround.congr hrounds) hfree
  | contended hline hround _ =>
    exact .taken (hlocks.trans (locksOf_release_next hline)) (hrounds.trans hround) rfl hfree

omit [Collector σ] in
theorem Lined.waits {spec : MonitorSpec} (hr : Lined r) (hidle : r.call = .idle)
    (hp : 0 < spec.period.nanos) (hn : r.registrationOf spec.model.name = some n)
    (hused : r.locksOf n ≠ []) :
    Lined { (r.acquire n .host).2 with call := .configuring spec n } := by
  have hacquire := idle_acquire r n .host
  have hrounds : ∀ x, (r.acquire n .host).2.round? x = r.round? x :=
    fun x => round?_congr (serving?_congr hacquire.scheduler)
  have hready : (r.acquire n .host).2.ready = r.ready := by
    rw [acquire_of_ne_nil hused]
  refine hr.called (registrationOf_congr hacquire.registry) hrounds
    ⟨[], hready.trans (List.append_nil _).symm⟩ (fun x k hx => ?_) ?_ (by simp) trivial
  · by_cases hk : k = n
    · subst hk
      exact (hr.turn x k hx).waits hidle hused
    · refine (hr.turn x k hx).congr (locksOf_acquire_of_ne (Ne.symm hk) .host) (hrounds x)
        fun other => ?_
      simp [hidle, Ne.symm hk]
  · rintro other k ⟨⟩
    exact ⟨hp, hn⟩

omit [Collector σ] in
theorem Grants.idle {spec : MonitorSpec} (h : Grants spec n r q) : Idle r q := by
  cases h with
  | free => exact idle_acquire r n .host
  | handed => exact idle_ready r r.ready

omit [Collector σ] in
theorem Grants.ready {spec : MonitorSpec} (h : Grants spec n r q) : q.ready = r.ready := by
  cases h with
  | free _ hfree => rw [acquire_of_nil hfree]
  | handed => rfl

theorem Grants.registration {spec : MonitorSpec} (h : Grants spec n r q) (x : String) :
    (q.configure spec n).registrationOf x = r.registrationOf x := by
  rw [(returned_configure q spec n).registrations, registrationOf_congr h.idle.registry]

/-- A call for a monitor leaves the rounds alone. -/
theorem Grants.serving {spec : MonitorSpec} (h : Grants spec n r q) (ht : Tidy r) (x : String) :
    (q.configure spec n).serving? x = r.serving? x := by
  have hleaving : r.scheduler.leaving = [] := by
    refine ht.parting.alone ?_
    cases h with
    | free hidle _ => rw [hidle]; rfl
    | handed hcall _ => rw [hcall]; rfl
  have hkept : (q.configure spec n).serving? x = q.serving? x :=
    (concerns_configure q spec n).serving (h.idle.scheduler ▸ hleaving)
  exact hkept.trans (serving?_congr h.idle.scheduler)

theorem Lined.configures {spec : MonitorSpec} (hr : Lined r) (ht : Tidy r)
    (hgrants : Grants spec n r q) (hn : r.registrationOf spec.model.name = some n) :
    Lined (q.configure spec n) := by
  have hreturned := returned_configure q spec n
  have hrounds : ∀ x, (q.configure spec n).round? x = r.round? x :=
    fun x => round?_congr (hgrants.serving ht x)
  have hready : ∃ more, (q.configure spec n).ready = r.ready ++ more :=
    hgrants.ready ▸ hreturned.ready
  refine hr.called hgrants.registration hrounds hready (fun x k hx => ?_)
    (by simp [hreturned.call]) (by simp [hreturned.call]) (hreturned.call ▸ trivial)
  cases hgrants with
  | free hidle hfree =>
    -- It is taken and given back.
    have hback := release_acquired (locksOf_eq_nil.1 hfree)
      (congrArg locks (congrArg Prod.snd (acquire_of_nil hfree .host)))
    refine (hr.turn x k hx).congr (congrArg _ (hreturned.locks.trans (congrArg locks hback)))
      (hrounds x) fun other => ?_
    simp [hreturned.call, hidle]
  | handed hcall hholds =>
    by_cases hk : k = n
    · subst hk
      exact (hr.turn x k hx).goesOn hcall hholds (hrounds x)
    · have hlocks : (r.configure spec n).locksOf k = r.locksOf k :=
        (congrArg _ hreturned.locks).trans (locksOf_release_of_ne (Ne.symm hk))
      refine (hr.turn x k hx).congr hlocks (hrounds x) fun other => ?_
      simp [hreturned.call, hcall, Ne.symm hk]

omit [Collector σ] in
theorem Lined.stops {model : String} {t : Task Labels Round} (hr : Lined r) (ht : Tidy r)
    (hidle : r.call = .idle) (htask : r.scheduler.tasks.get? model = some t) :
    Lined ({ r with
      scheduler := (r.scheduler.beginStop model).2
      call := .removing model r.scheduler.stops }.wakeUp (.lane model)) := by
  have hrounds : ∀ x, ({ r with
      scheduler := (r.scheduler.beginStop model).2
      call := .removing model r.scheduler.stops }.wakeUp (.lane model)).round? x = r.round? x :=
    fun x => round?_congr (serving?_beginStop htask ht.parting.gone)
  refine hr.called (fun _ => rfl) hrounds ⟨_, rfl⟩ (fun x n hn => ?_) (fun _ _ h => by cases h) ?_
    trivial
  · exact (hr.turn x n hn).congr rfl (hrounds x) fun spec => by simp [wakeUp, hidle]
  · rintro x id ⟨⟩
    show (r.scheduler.beginStop model).2.tasks.get? model = none
    rw [Scheduler.get?_beginStop htask, if_pos rfl]

/-- Only what is pending goes. -/
theorem lasting_evict {α : Type} {f : Model σ → α} (h : Lasting f) (registry : Registry σ)
    (model x : String) :
    ((registry.evict model).2.models.get? x).map f = (registry.models.get? x).map f := by
  by_cases hx : x = model
  · subst hx
    rw [Registry.get?_evict, Option.map_map]
    exact congrArg (fun f => Option.map f _) (funext fun m => h.pending m .empty)
  · exact congrArg _ (Registry.get?_withModel_of_ne hx)

omit [Collector σ] in
theorem serving?_forgetModel (hended : ∀ d ∈ r.scheduler.leaving, d.lane.isEmpty = true)
    (model x : String) : (r.forgetModel model).serving? x = r.serving? x := by
  rw [serving?_eq_bind, serving?_eq_bind]
  exact congrArg (fun l => Option.bind l Lane.serving?) (Scheduler.occupied?_forgetEnded hended x)

theorem Lined.forgets {model : String} (hr : Lined r)
    (hnever : ∀ spec n, r.call ≠ .configuring spec n)
    (hended : ∀ d ∈ r.scheduler.leaving, d.lane.isEmpty = true) : Lined (r.forgetModel model) := by
  have hrounds : ∀ x, (r.forgetModel model).round? x = r.round? x :=
    fun x => round?_congr (serving?_forgetModel hended model x)
  refine hr.called (lasting_evict lasting_registration r.registry model) hrounds
    ⟨[], (List.append_nil r.ready).symm⟩ (fun x n hn => ?_) (fun _ _ h => by cases h)
    (fun _ _ h => by cases h) trivial
  exact (hr.turn x n hn).congr rfl (hrounds x) fun spec => by simp [forgetModel, finish, hnever]

/-! ### Agents -/

omit [Collector σ] in
theorem locks_drainStep (r : Relay σ) (s : Surroundings) : (r.drainStep s).locks = r.locks := by
  unfold drainStep
  split
  · rfl
  · split <;> rfl

omit [Collector σ] in
theorem locks_emitterStep (r : Relay σ) (s : Surroundings) (number : Nat) :
    (r.emitterStep s number).locks = r.locks := by
  unfold emitterStep
  split
  · rfl
  · next e _ =>
    split
    · rfl
    · generalize e.metrics.emit (r.now s) (s.process r.clock) r.writer = out
      simp only
      split
      · rfl
      · split <;> rfl

theorem registrationOf_agentStep (r : Relay σ) (s : Surroundings) (a : Agent) (x : String) :
    (r.agentStep s a).registrationOf x = r.registrationOf x :=
  (acts_agentStep r s a).lasting lasting_registration x

variable {a : Agent} {more : List Agent}

theorem round?_agentStep_of_ne (r : Relay σ) (s : Surroundings) (ha : a ≠ .lane name) :
    (r.agentStep s a).round? name = r.round? name :=
  round?_congr (aside_agentStep r s ha).serving

/-- A round is nothing to other names. -/
theorem Lined.locksOf_agentStep (hr : Lined r) (s : Surroundings) (more : List Agent)
    (hn : r.registrationOf name = some n) (ha : a ≠ .lane name) :
    ({ r with ready := more }.agentStep s a).locksOf n = r.locksOf n := by
  cases a with
  | drain => exact congrArg _ (locks_drainStep _ s)
  | emitter number => exact congrArg _ (locks_emitterStep _ s number)
  | lane other =>
    have hne : ∀ k, r.registrationOf other = some k → k ≠ n := by
      rintro k hk rfl
      exact ha (congrArg Agent.lane (hr.distinct other name k hk hn))
    refine locksOf_laneStep_of_ne (q := { r with ready := more })
      (fun m hm => hne _ (congrArg (Option.map Model.registration) hm)) ?_
    intro round hround hreg
    cases hother : r.registrationOf other with
    | none =>
      cases (hr.unknown other hother).eq_beginning hround
      cases hreg
    | some k =>
      rcases (hr.turn other k hother).registration hround with rfl | hk
      · cases hreg
      · exact hne k hother (Option.some.inj (hk.symm.trans hreg))

/-- Without a model, a round is over at once. -/
theorem round?_laneStep_of_unknown (hm : r.registrationOf name = none)
    (hr : r.Outside name) : (r.laneStep s name).Outside name ∧
      (r.round? name ≠ none → (r.laneStep s name).round? name = none) := by
  rcases hr with hr | hr
  · exact ⟨(between_laneStep (n := 0) hr).2, fun hne => absurd hr hne⟩
  · suffices hnone : (r.laneStep s name).round? name = none from ⟨.inl hnone, fun _ => hnone⟩
    obtain ⟨labels, next, hq⟩ := round?_eq_some hr
    obtain ⟨lane, p, hl, hc, -⟩ := serving?_eq_some.1 hq
    have hmodel : r.registry.models.get? name = none := Option.map_eq_none_iff.1 hm
    rw [laneStep_eq_roundStep hl hc]
    unfold roundStep
    simp only [hmodel]
    exact round?_completeRound (r := r) (l := lane) hl

/-- After its own move, a round is at its beginning only if it has just begun, and then it is the next
to move. -/
theorem prompt_laneStep (hkept : r.round? name ≠ none → (r.laneStep s name).round? name ≠ some .beginning)
    (hbegins : (r.laneStep s name).round? name = some .beginning) :
    (r.laneStep s name).ready.head? = some (.lane name) := by
  have hnone : r.round? name = none := not_not.1 fun hne => hkept hne hbegins
  obtain ⟨labels, next, hq⟩ := round?_eq_some hbegins
  obtain ⟨_, _, _, _, _, _, _, hready⟩ := begins_laneStep (round?_eq_none.1 hnone) hq
  rw [hready]
  rfl

/-- A task keeps to its turn. -/
theorem lined_laneStep (s : Surroundings) (name : String)
    (hturn : ∀ n, q.registrationOf name = some n → Turn name n q)
    (hunknown : q.registrationOf name = none → q.Outside name) :
    (∀ n, q.registrationOf name = some n → Turn name n (q.laneStep s name)) ∧
    (q.registrationOf name = none → (q.laneStep s name).Outside name) ∧
    ((q.laneStep s name).round? name = some .beginning →
      (q.laneStep s name).ready.head? = some (.lane name)) := by
  cases hname : q.registrationOf name with
  | none =>
    obtain ⟨hround, hover⟩ := round?_laneStep_of_unknown (s := s) hname (hunknown hname)
    refine ⟨by simp, fun _ => hround, prompt_laneStep fun hne => ?_⟩
    rw [hover hne]
    exact (Option.some_ne_none _).symm
  | some n =>
    obtain ⟨m, hm, rfl⟩ := Option.map_eq_some_iff.1 hname
    obtain ⟨hnext, hkept⟩ := (hturn m.registration hname).laneStep (s := s) hm
    refine ⟨?_, by simp, prompt_laneStep hkept⟩
    rintro n ⟨⟩
    exact hnext

theorem Lined.agent (hr : Lined r) (hready : r.ready = a :: more) :
    Lined ({ r with ready := more }.agentStep s a) := by
  have hregistrations : ∀ x, ({ r with ready := more }.agentStep s a).registrationOf x =
      r.registrationOf x := fun x => registrationOf_agentStep _ s a x
  have hcall : ({ r with ready := more }.agentStep s a).call = r.call := call_agentStep ..
  have hrounds : ∀ {x}, a ≠ .lane x →
      ({ r with ready := more }.agentStep s a).round? x = r.round? x :=
    fun ha => round?_agentStep_of_ne _ s ha
  have hown := fun x => lined_laneStep (q := { r with ready := more }) s x
    (fun n hn => (hr.turn x n hn).congr rfl rfl fun _ => Iff.rfl) (hr.unknown x)
  refine ⟨fun x n hn => ?_, fun x hn => ?_, fun x y n hx hy => ?_, fun x hx => ?_,
    fun spec n hconf => ?_, fun x id hrem => ?_, ?_⟩
  · rw [hregistrations] at hn
    by_cases ha : a = .lane x
    · subst ha
      exact (hown x).1 n hn
    · exact (hr.turn x n hn).congr (hr.locksOf_agentStep s more hn ha) (hrounds ha)
        fun spec => by rw [hcall]
  · rw [hregistrations] at hn
    by_cases ha : a = .lane x
    · subst ha
      exact (hown x).2.1 hn
    · exact (hr.unknown x hn).congr (hrounds ha)
  · rw [hregistrations] at hx hy
    exact hr.distinct x y n hx hy
  · by_cases ha : a = .lane x
    · subst ha
      exact (hown x).2.2 hx
    · -- The round would have been next, before the agent that has moved.
      rw [hrounds ha] at hx
      have hfirst := hr.prompt x hx
      rw [hready] at hfirst
      exact absurd (Option.some.inj hfirst) ha
  · rw [hregistrations]
    exact hr.configuring spec n (hcall ▸ hconf)
  · exact task_agentStep s a (hr.removing x id (hcall ▸ hrem))
  · rw [hcall]
    exact hr.call

theorem Effect.lined {accepted : Option MonitorSpec} (h : Effect s r accepted r') (hr : Lined r)
    (ht : Tidy r) : Lined r' := by
  cases h with
  | agent hready => exact hr.agent hready
  | still h => exact h.lined hr
  | waits hidle hp hn hused => exact hr.waits hidle hp hn hused
  | configures hgrants _ hn => exact hr.configures ht hgrants hn
  | stops hidle htask => exact hr.stops ht hidle htask
  | forgets hnever _ hended => exact hr.forgets hnever hended

/-! ## What is beside a round -/

/-- A round stays where it is, and its model stays registered; during an observation it is not touched
at all. -/
structure Beside (name : String) (r r' : Relay σ) : Prop where
  serving : r'.serving? name = r.serving? name
  registration : r'.registrationOf name = r.registrationOf name
  model : r.observes name = true → r'.registry.models.get? name = r.registry.models.get? name

omit [Collector σ] in
theorem Turn.not_observes (h : Turn name n r)
    (hline : ∀ line, r.locksOf n ≠ [⟨n, .agent (.lane name), line⟩]) : r.observes name = false := by
  cases h with
  | free _ hround _ | handed _ hround _ => exact hround.not_observes
  | taken hlocks | awaited hlocks => exact absurd hlocks (hline _)
  | contended _ hround _ => rw [observes, hround, Option.any_some, Round.observes]

omit [Collector σ] in
/-- The host configures no collector that is observing. -/
theorem Grants.not_observes {spec : MonitorSpec} (h : Grants spec n r q) (ht : Turn name n r) :
    r.observes name = false := by
  refine ht.not_observes fun line hline => ?_
  cases h with
  | free _ hfree => simp [hfree] at hline
  | handed _ hholds =>
    obtain ⟨l, hl, hholder⟩ := holds_iff.1 hholds
    rw [hline, List.mem_singleton] at hl
    rw [hl] at hholder
    cases hholder

theorem beside_configure {spec : MonitorSpec} (hr : Lined r) (ht : Tidy r)
    (hgrants : Grants spec n r q) (hn : r.registrationOf spec.model.name = some n) (name : String) :
    Beside name r (q.configure spec n) where
  serving := hgrants.serving ht name
  registration := hgrants.registration name
  model hobserves := by
    have hne : name ≠ spec.model.name := by
      rintro rfl
      rw [hgrants.not_observes (hr.turn _ n hn)] at hobserves
      cases hobserves
    rw [(concerns_configure q spec n).models name hne, hgrants.idle.registry]

theorem beside_forgetModel {model : String} (hnone : r.scheduler.tasks.get? model = none)
    (hended : ∀ d ∈ r.scheduler.leaving, d.lane.isEmpty = true) (name : String) :
    Beside name r (r.forgetModel model) where
  serving := serving?_forgetModel hended model name
  registration := lasting_evict lasting_registration r.registry model name
  model hobserves := by
    have hne : name ≠ model := by
      rintro rfl
      have hidle : r.serving? name = none := by
        rw [serving?_eq_bind, Scheduler.occupied?_of_ended hnone hended]
        rfl
      simp [observes, round?, hidle] at hobserves
    exact Registry.get?_withModel_of_ne hne

/-- It is the loops of a name that move, or what happens is beside its round. -/
theorem Effect.at_name {accepted : Option MonitorSpec} (h : Effect s r accepted r') (hr : Lined r)
    (ht : Tidy r) (name : String) :
    (∃ more, r.ready = .lane name :: more ∧ accepted = none ∧
      r' = { r with ready := more }.laneStep s name) ∨ Beside name r r' := by
  cases h with
  | @agent a more hready =>
    by_cases ha : a = .lane name
    · subst ha
      exact .inl ⟨more, hready, rfl, rfl⟩
    · have haside := aside_agentStep { r with ready := more } s ha
      exact .inr ⟨haside.serving, registrationOf_agentStep _ s a name, fun _ => haside.model⟩
  | still h =>
    exact .inr ⟨serving?_congr h.scheduler, registrationOf_congr h.registry name,
      fun _ => by rw [h.registry]⟩
  | @waits spec n _ _ _ _ =>
    have hacquire := idle_acquire r n .host
    exact .inr ⟨serving?_congr hacquire.scheduler, registrationOf_congr hacquire.registry name,
      fun _ => congrArg (fun registry => registry.models.get? name) hacquire.registry⟩
  | configures hgrants _ hn => exact .inr (beside_configure hr ht hgrants hn name)
  | stops _ htask =>
    exact .inr ⟨serving?_beginStop htask ht.parting.gone, rfl, fun _ => rfl⟩
  | forgets _ hnone hended => exact .inr (beside_forgetModel hnone hended name)

/-! ## At the start -/

/-- A relay with its collectors. -/
def start (settings : WriterSettings) (globals : Labels) (collectors : List σ) : Relay σ :=
  collectors.foldl registerCollector (.new settings globals)

/-- Nothing but collectors has been set up. -/
structure Fresh (r : Relay σ) : Prop where
  locks : r.locks = []
  scheduler : r.scheduler = {}
  call : r.call = .idle
  older : ∀ x n, r.registrationOf x = some n → n < r.registry.registrations
  distinct : ∀ x y n, r.registrationOf x = some n → r.registrationOf y = some n → x = y

omit [Collector σ] in
theorem Fresh.serving (h : Fresh r) (name : String) : r.serving? name = none := by
  rw [serving?, h.scheduler]
  rfl

theorem registrationOf_registerCollector (r : Relay σ) (c : σ) (x : String) :
    (r.registerCollector c).registrationOf x =
      if x = Collector.name c then some r.registry.registrations else r.registrationOf x := by
  show ((r.registry.models.insert (Collector.name c) _).get? x).map _ = _
  rw [Table.get?_insert]
  split <;> rfl

theorem Fresh.register (h : Fresh r) (c : σ) : Fresh (r.registerCollector c) where
  locks := h.locks
  scheduler := h.scheduler
  call := h.call
  older x n hn := by
    show n < r.registry.registrations + 1
    rw [registrationOf_registerCollector] at hn
    split at hn
    · cases hn
      exact Nat.lt_succ_self _
    · exact Nat.lt_succ_of_lt (h.older x n hn)
  distinct x y n hx hy := by
    rw [registrationOf_registerCollector] at hx hy
    split at hx
    · next hxname =>
      cases hx
      split at hy
      · next hyname => rw [hxname, hyname]
      · exact absurd (h.older y _ hy) (Nat.lt_irrefl _)
    · split at hy
      · cases hy
        exact absurd (h.older x _ hx) (Nat.lt_irrefl _)
      · exact h.distinct x y n hx hy

theorem fresh_start (settings : WriterSettings) (globals : Labels) (collectors : List σ) :
    Fresh (start settings globals collectors) ∧ Tidy (start settings globals collectors) := by
  have hnew : Fresh (.new settings globals : Relay σ) := by
    refine ⟨rfl, rfl, rfl, fun x n hn => ?_, fun x y n hx => ?_⟩
    · cases hn
    · cases hx
  have hall : ∀ (collectors : List σ) (r : Relay σ), Fresh r ∧ Tidy r →
      Fresh (collectors.foldl registerCollector r) ∧
        Tidy (collectors.foldl registerCollector r) := by
    intro collectors
    induction collectors with
    | nil => exact fun _ h => h
    | cons c more ih =>
      exact fun r h => ih _ ⟨h.1.register c, h.2.parting, h.2.more, h.2.writer⟩
  exact hall collectors _ ⟨hnew, tidy_new settings globals⟩

omit [Collector σ] in
theorem Fresh.lined (h : Fresh r) : Lined r := by
  have hround : ∀ x, r.round? x = none := fun x => round?_eq_none.2 (h.serving x)
  refine ⟨fun x n _ => ?_, fun x _ => .inl (hround x), h.distinct, fun x hx => ?_,
    fun spec n hcall => ?_, fun x id hcall => ?_, h.call ▸ trivial⟩
  · refine .free ?_ (.inl (hround x)) (by simp [h.call])
    rw [locksOf, h.locks]
    rfl
  · cases (hround x).symm.trans hx
  · cases h.call.symm.trans hcall
  · cases h.call.symm.trans hcall

end Relay

end MetricRelay
