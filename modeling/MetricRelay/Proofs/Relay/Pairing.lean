import MetricRelay.Proofs.Relay.Monitoring

/-!
# The monitor of a round

A round has the labels and the period of the monitor that was accepted last when it began, and observes
under the configuration of the one that was accepted last when the observation began. An `Account` keeps
both beside a relay whose host asks for monitors. They are the same unless a monitor is accepted while
the round waits for its collector (`overtaken`), and then they are not.
-/

namespace MetricRelay

open Schedule

namespace Relay

variable {σ κ : Type} {r r' q : Relay σ} {s : Surroundings} {name : String} {conf : σ → κ}

/-! ## Accounts -/

/-- What is noted of the monitors of one name. -/
structure Account where
  /-- The one whose call was the last to return without an error. -/
  accepted : Option MonitorSpec := none
  /-- That was the one when the last round began. -/
  begun : Option MonitorSpec := none
  /-- That was the one when the last observation began. -/
  observed : Option MonitorSpec := none
  /-- A monitor has been accepted while the last round waited for its collector. -/
  overtaken : Bool := false

/-- After something has happened by which a monitor may have been accepted. -/
def Account.next (name : String) (accepted : Option MonitorSpec) (r r' : Relay σ) (a : Account) :
    Account :=
  let mine := accepted.filter fun spec => spec.model.name = name
  { accepted := mine.or a.accepted
    begun := if (r.serving? name).isNone && (r'.serving? name).isSome then a.accepted else a.begun
    observed := if !r.observes name && r'.observes name then a.accepted else a.observed
    overtaken :=
      (r.serving? name).isSome && (a.overtaken || (mine.isSome && !r.observes name)) }

variable [Collector σ]

/-- A relay whose host asks for monitors, with what is noted of those of one name. -/
inductive Monitored (s : Surroundings) (settings : WriterSettings) (globals : Labels) (name : String) :
    Relay σ → Account → Prop where
  | start (collectors : List σ) :
      Monitored s settings globals name (start settings globals collectors) {}
  | next {r r' : Relay σ} {a : Account} {e : Event σ} : Monitored s settings globals name r a →
      Happens s r e r' → e.Monitors →
      Monitored s settings globals name r' (a.next name (e.accepted r r') r r')

/-- A configuration that a collector has when it has accepted that of a monitor. -/
def Under (conf : σ → κ) (spec : MonitorSpec) (k : κ) : Prop :=
  ∃ c : σ, (Collector.init ⟨spec.model.config⟩ c).1 = .ok () ∧
    k = conf (Collector.init ⟨spec.model.config⟩ c).2

/-! ## Settings -/

/-- A name is set up for a monitor. -/
structure Tuned (conf : σ → κ) (accepted : Option MonitorSpec) (g : Setting κ) : Prop where
  config : ∀ spec, accepted = some spec → ∃ k, g.config = some k ∧ Under conf spec k
  loops : ∀ loops, g.loops = some loops → ∀ p ∈ loops, ∃ spec, accepted = some spec ∧
    p.work = spec.labels ∧ p.period = spec.period.nanos

variable {accepted : Option MonitorSpec} {g g' : Setting κ} {spec : MonitorSpec} {n : Nat}

/-- Loops may be gone. -/
theorem Tuned.fewer (h : Tuned conf accepted g) (hconfig : g'.config = g.config)
    (hloops : ∀ loops, g'.loops = some loops → loops = [] ∨ g.loops = some loops) :
    Tuned conf accepted g' where
  config spec hspec := hconfig ▸ h.config spec hspec
  loops loops hl p hp := by
    rcases hloops loops hl with rfl | hsame
    · cases hp
    · exact h.loops loops hsame p hp

/-- What a call for a monitor with a period does to the settings. -/
inductive Tunes (conf : σ → κ) (spec : MonitorSpec) (r r' : Relay σ) : Prop where
  | refuses : acceptedAs spec r' = none → r'.setting conf = r.setting conf → Tunes conf spec r r'
  | accepts {k : κ} {p : Plan Labels} : acceptedAs spec r' = some spec →
      (∀ x ≠ spec.model.name, r'.setting conf x = r.setting conf x) → Under conf spec k →
      (r'.setting conf spec.model.name).config = some k →
      (r'.setting conf spec.model.name).loops = some [p] →
      p.work = spec.labels → p.period = spec.period.nanos → Tunes conf spec r r'

omit [Collector σ] in
theorem acceptedAs_of_error {e : Error} (h : r.answer = .error e) : acceptedAs spec r = none := by
  unfold acceptedAs
  rw [h]
  split <;> first | rfl | contradiction

/-- A monitor that is accepted leaves one loop that is not cancelled, its own. -/
theorem accepts_configure {m : Model σ} (hp : 0 < spec.period.nanos)
    (hi : (Collector.init ⟨spec.model.config⟩ m.collector).1 = .ok ())
    (heq : r.registry.initConfig spec.model.name ⟨spec.model.config⟩ =
      (.ok (), r.registry.configured spec.model.name ⟨spec.model.config⟩ m)) :
    Tunes conf spec r (r.configure spec n) := by
  have hrun := r.scheduler.run_add_of_pos spec.model.name hp spec.labels
  obtain ⟨_, _, _, _, hrelease⟩ := rests_release
    { r with registry := r.registry.configured spec.model.name ⟨spec.model.config⟩ m } n
  rw [configure_of_ok heq, hrelease]
  refine .accepts (k := conf (Collector.init ⟨spec.model.config⟩ m.collector).2)
    (p := { work := spec.labels, period := spec.period.nanos, period_pos := hp }) ?_ (fun x hx => ?_)
    ⟨m.collector, hi, rfl⟩ ?_ ?_ rfl rfl
  · unfold acceptedAs
    simp only [finish, wakeUp, hrun]
  · have htask := Scheduler.get?_add_run_of_ne (s := r.scheduler) hx spec.period spec.labels
    have hlane := Scheduler.lane?_add_run_of_ne (s := r.scheduler) hx spec.period spec.labels
    have hmodel : (r.registry.models.insert spec.model.name { m with
        collector := (Collector.init ⟨spec.model.config⟩ m.collector).2 }).get? x =
          r.registry.models.get? x := by
      rw [Table.get?_insert, if_neg hx]
    simp only [setting, finish, wakeUp, Registry.configured, htask, hlane, hmodel]
  · simp [setting, finish, wakeUp, Registry.configured]
  · simp only [setting, finish, wakeUp, hrun, Scheduler.lane?, Table.get?_insert_self]
    exact congrArg some (Lane.live_replace _ rfl)

theorem tunes_configure (h : Steady conf) (r : Relay σ) (hp : 0 < spec.period.nanos) (n : Nat) :
    Tunes conf spec r (r.configure spec n) := by
  cases (ended_configure h r spec n).1 with
  | refused he hkept => exact .refuses (acceptedAs_of_error he) hkept
  | leftIdle hz _ _ => exact absurd hz (Nat.ne_of_gt hp)
  | accepted hok =>
    rcases r.registry.initConfig_cases spec.model.name ⟨spec.model.config⟩ with
      ⟨-, heq⟩ | ⟨m, -, ⟨e, -, heq⟩ | ⟨hi, heq⟩⟩
    · rw [configure_of_error heq] at hok
      cases hok
    · rw [configure_of_error heq] at hok
      cases hok
    · exact accepts_configure hp hi heq

theorem Tunes.tuned {before : Option MonitorSpec} (h : Tunes conf spec r r')
    (hr : Tuned conf before (r.setting conf name)) :
    Tuned conf (((acceptedAs spec r').filter fun spec => spec.model.name = name).or before)
      (r'.setting conf name) := by
  cases h with
  | refuses hnone hkept =>
    rw [hnone, hkept]
    exact hr
  | @accepts k p hsome hothers hunder hconfig hloops hwork hperiod =>
    rw [hsome]
    by_cases hname : spec.model.name = name
    · subst hname
      simp only [Option.filter_some, decide_true, if_true, Option.some_or]
      refine ⟨?_, fun loops hl q hq => ?_⟩
      · rintro _ ⟨⟩
        exact ⟨k, hconfig, hunder⟩
      · cases hloops.symm.trans hl
        rw [List.mem_singleton.1 hq]
        exact ⟨spec, rfl, hwork, hperiod⟩
    · simp only [Option.filter_some, decide_eq_false hname, Bool.false_eq_true, if_false,
        Option.none_or]
      rw [hothers name (Ne.symm hname)]
      exact hr

/-- Whatever happens, the name stays set up for the monitor that was accepted last. -/
theorem Tuned.effect {before : Option MonitorSpec} (h : Steady conf) (he : Effect s r accepted r')
    (ht : Tidy r) (hr : Tuned conf before (r.setting conf name)) :
    Tuned conf ((accepted.filter fun spec => spec.model.name = name).or before)
      (r'.setting conf name) := by
  cases he with
  | agent hready =>
    rw [(acts_agentStep _ s _).setting h]
    exact hr
  | still hstill =>
    have hkept : r'.setting conf = r.setting conf :=
      setting_congr (fun x => by rw [hstill.registry]) (fun x => by rw [hstill.scheduler])
        fun x => by rw [hstill.scheduler]
    rw [hkept]
    exact hr
  | @waits spec n hidle hp hn hused =>
    have hkept : (r.acquire n .host).2.setting conf = r.setting conf := setting_rests (rests_acquire ..)
    have hsame := congrFun hkept name
    exact hr.fewer (congrArg Setting.config hsame) fun loops hl =>
      .inr ((congrArg Setting.loops hsame).symm.trans hl)
  | @configures spec n q hgrants hp hn =>
    have hkept : q.setting conf = r.setting conf := by
      cases hgrants with
      | free => exact setting_rests (rests_acquire ..)
      | handed => rfl
    exact (tunes_configure h q hp n).tuned (hkept ▸ hr)
  | @stops model t hidle htask =>
    refine hr.fewer rfl fun loops hl => ?_
    have hl : ((r.scheduler.beginStop model).2.lane? name).map Lane.live = some loops := hl
    by_cases hname : name = model
    · subst hname
      rw [Scheduler.lane?_beginStop_self htask ht.parting.gone, Option.map_some,
        Lane.live_cancel] at hl
      exact .inl (Option.some.inj hl).symm
    · rw [Scheduler.lane?_beginStop_of_ne htask hname] at hl
      exact .inr hl
  | @forgets model hnever htask hended =>
    refine hr.fewer ?_ fun loops hl => ?_
    · exact lasting_evict h.lasting r.registry model name
    · have hl : (r.scheduler.forgetEnded.lane? name).map Lane.live = some loops := hl
      rw [Scheduler.lane?_forgetEnded hended] at hl
      obtain ⟨l, hlane, rfl⟩ := Option.map_eq_some_iff.1 hl
      have hkept : r.scheduler.lane? name = some l := by
        rw [Scheduler.lane?, hlane]
        rfl
      exact .inr (congrArg (Option.map Lane.live) hkept)

/-! ## The round under way -/

/-- Which monitors a round goes by. -/
inductive Paired (conf : σ → κ) (s : Surroundings) (name : String) (r : Relay σ) (a : Account) :
    Prop where
  | between : r.serving? name = none → Paired conf s name r a
  | waiting {next : Nat} {m : Model σ} {spec : MonitorSpec} :
      Awaiting name spec.labels next m r → a.begun = some spec → a.accepted ≠ none →
      (a.overtaken = false → a.accepted = some spec) → Paired conf s name r a
  | observing {next time : Nat} {m : Model σ} {pushed : List Sample} {g : Gathering}
      {spec under : MonitorSpec} :
      Observing s name spec.labels next m time pushed g r → a.begun = some spec →
      a.observed = some under → Under conf under (conf m.collector) →
      (a.overtaken = false → under = spec) → Paired conf s name r a

section

variable {labels : Labels} {next time : Nat} {m : Model σ} {pushed : List Sample} {g : Gathering}

omit [Collector σ] in
theorem observes_of_serving {sv : Serving} (h : r.serving? name = some sv) :
    r.observes name = sv.round.observes := by
  rw [observes, round?_of_serving h, Option.any_some]

omit [Collector σ] in
theorem Awaiting.observes (h : Awaiting name labels next m r) : r.observes name = false := by
  obtain ⟨round, rfl | rfl, hserving⟩ := h.serving
  · exact observes_of_serving hserving
  · exact observes_of_serving hserving

theorem Observing.observes (h : Observing s name labels next m time pushed g r) :
    r.observes name = true := by
  obtain ⟨round, rfl | ⟨wake, rfl⟩, hserving⟩ := h.serving
  · exact observes_of_serving hserving
  · exact observes_of_serving hserving

end

/-! ### What is noted -/

section

variable {a : Account}

omit [Collector σ] in
theorem Account.next_begins (accepted : Option MonitorSpec) (h : r.serving? name = none)
    (h' : r'.serving? name ≠ none) : (a.next name accepted r r').begun = a.accepted := by
  obtain ⟨sv, hsv⟩ := Option.ne_none_iff_exists'.1 h'
  simp [Account.next, h, hsv]

omit [Collector σ] in
theorem Account.next_goesOn (accepted : Option MonitorSpec) (r' : Relay σ)
    (h : r.serving? name ≠ none) :
    (a.next name accepted r r').begun = a.begun ∧
      ((a.next name accepted r r').overtaken = false → a.overtaken = false ∧
        (r.observes name = false → (a.next name accepted r r').accepted = a.accepted)) := by
  obtain ⟨sv, hsv⟩ := Option.ne_none_iff_exists'.1 h
  refine ⟨by simp [Account.next, hsv], fun hover => ?_⟩
  simp only [Account.next, hsv, Option.isSome_some, Bool.true_and, Bool.or_eq_false_iff] at hover
  refine ⟨hover.1, fun hwaits => ?_⟩
  obtain ⟨-, hmine⟩ := hover
  rw [hwaits, Bool.not_false, Bool.and_true, Option.isSome_eq_false_iff,
    Option.isNone_iff_eq_none] at hmine
  simp only [Account.next, hmine, Option.none_or]

omit [Collector σ] in
theorem Account.next_observed (accepted : Option MonitorSpec) (h : r'.observes name = true) :
    (a.next name accepted r r').observed =
      if r.observes name then a.observed else a.accepted := by
  cases hobs : r.observes name <;> simp [Account.next, hobs, h]

omit [Collector σ] in
theorem Account.next_accepted_ne (accepted : Option MonitorSpec) (h : a.accepted ≠ none) :
    (a.next name accepted r r').accepted ≠ none := by
  obtain ⟨spec, hspec⟩ := Option.ne_none_iff_exists'.1 h
  simp [Account.next, hspec]

end

variable {a : Account}

theorem Paired.beside (hr : Paired conf s name r a) (hb : Beside name r r')
    (accepted : Option MonitorSpec) : Paired conf s name r' (a.next name accepted r r') := by
  cases hr with
  | between hnone => exact .between (hb.serving.trans hnone)
  | @waiting next m spec hawaits hbegun haccepted hkept =>
    obtain ⟨round, hround, hserving⟩ := hawaits.serving
    have hregistration := hb.registration
    simp only [registrationOf, hawaits.model, Option.map_some] at hregistration
    obtain ⟨m', hm', hsame⟩ := Option.map_eq_some_iff.1 hregistration
    have hgoes := Account.next_goesOn (a := a) accepted r'
      (hserving ▸ Option.some_ne_none _ : r.serving? name ≠ none)
    refine .waiting (m := m') ⟨⟨round, hsame ▸ hround, hb.serving.trans hserving⟩, hm'⟩
      (hgoes.1.trans hbegun) (Account.next_accepted_ne accepted haccepted) fun hover => ?_
    obtain ⟨hbefore, hnothing⟩ := hgoes.2 hover
    rw [hnothing hawaits.observes]
    exact hkept hbefore
  | observing hobs hbegun hobserved hunder hsame =>
    have hobserves := hobs.observes
    have hobs' := hobs.congr hb.serving (hb.model hobserves)
    have hgoes := Account.next_goesOn (a := a) accepted r' hobs.serving_ne
    refine .observing hobs' (hgoes.1.trans hbegun) ?_ hunder fun hover => hsame (hgoes.2 hover).1
    rw [Account.next_observed accepted hobs'.observes, if_pos hobserves]
    exact hobserved

/-- Who acts next is nothing to a round. -/
theorem Paired.taken (hr : Paired conf s name r a) (ready : List Agent) :
    Paired conf s name { r with ready } a := by
  cases hr with
  | between hnone => exact .between hnone
  | waiting hawaits hbegun haccepted hkept =>
    exact .waiting (hawaits.congr rfl rfl) hbegun haccepted hkept
  | observing hobs hbegun hobserved hunder hsame =>
    exact .observing (hobs.congr rfl rfl) hbegun hobserved hunder hsame

theorem Paired.laneStep (hr : Paired conf s name r a)
    (ht : Tuned conf a.accepted (r.setting conf name)) :
    Paired conf s name (r.laneStep s name) (a.next name none r (r.laneStep s name)) := by
  cases hr with
  | between hnone =>
    cases hserving : (r.laneStep s name).serving? name with
    | none => exact .between hserving
    | some sv =>
      obtain ⟨lane, p, deadline, hl, hp, -, rfl, -⟩ := begins_laneStep hnone hserving
      obtain ⟨spec, hspec, hwork, -⟩ := ht.loops lane.live (by simp [Relay.setting, hl]) p hp
      obtain ⟨k, hk, -⟩ := ht.config spec hspec
      obtain ⟨m, hm, -⟩ := Option.map_eq_some_iff.1 hk
      have hbegun := Account.next_begins (a := a) none hnone
        (hserving ▸ Option.some_ne_none _ : (r.laneStep s name).serving? name ≠ none)
      rw [hwork] at hserving
      refine .waiting (m := m) ⟨⟨_, .inl rfl, hserving⟩, ?_⟩ (hbegun.trans hspec)
        (Account.next_accepted_ne none (by simp [hspec])) fun _ => hspec
      rw [(laneStep_between hnone).1]
      exact hm
  | @waiting next m spec hawaits hbegun haccepted hkept =>
    obtain ⟨round, hround, hserving⟩ := hawaits.serving
    obtain ⟨-, hbegins, hstays⟩ := awaiting_laneStep (s := s) hround hserving hawaits.model
    have hgoes := Account.next_goesOn (a := a) none (r.laneStep s name)
      (hserving ▸ Option.some_ne_none _ : r.serving? name ≠ none)
    by_cases hat : AtHand name m.registration r round
    · have hobs := (hbegins hat).observing
      obtain ⟨under, hunder⟩ := Option.ne_none_iff_exists'.1 haccepted
      obtain ⟨k, hk, hconf⟩ := ht.config under hunder
      have hsame : conf m.collector = k := by
        have hk : (r.registry.models.get? name).map (fun m => conf m.collector) = some k := hk
        rw [hawaits.model] at hk
        exact Option.some.inj hk
      refine .observing hobs (hgoes.1.trans hbegun) ?_ (hsame ▸ hconf) fun hover => ?_
      · rw [Account.next_observed none hobs.observes, hawaits.observes]
        exact hunder
      · exact Option.some.inj (hunder.symm.trans (hkept (hgoes.2 hover).1))
    · exact .waiting (hstays hat) (hgoes.1.trans hbegun) (Account.next_accepted_ne none haccepted)
        fun hover => hkept (hgoes.2 hover).1
  | observing hobs hbegun hobserved hunder hsame =>
    have hgoes := Account.next_goesOn (a := a) none (r.laneStep s name) hobs.serving_ne
    rcases observing_laneStep hobs with ⟨pushed', g', hobs', -⟩ | hforwards
    · refine .observing hobs' (hgoes.1.trans hbegun) ?_ hunder fun hover => hsame (hgoes.2 hover).1
      rw [Account.next_observed none hobs'.observes, if_pos hobs.observes]
      exact hobserved
    · exact .between hforwards.ended

/-! ## What is kept -/

/-- What is known at every point. -/
structure Kept (conf : σ → κ) (s : Surroundings) (name : String) (r : Relay σ) (a : Account) :
    Prop where
  tidy : Tidy r
  lined : Lined r
  tuned : Tuned conf a.accepted (r.setting conf name)
  paired : Paired conf s name r a

theorem kept_start (settings : WriterSettings) (globals : Labels) (collectors : List σ) :
    Kept conf s name (start settings globals collectors) {} := by
  obtain ⟨hfresh, htidy⟩ := fresh_start settings globals collectors
  refine ⟨htidy, hfresh.lined, ⟨by simp, fun loops hl => ?_⟩,
    .between (hfresh.serving name)⟩
  have hnone : (start settings globals collectors).scheduler.lane? name = none := by
    rw [hfresh.scheduler]
    rfl
  simp [Relay.setting, hnone] at hl

theorem Kept.effect (h : Steady conf) (hr : Kept conf s name r a) (he : Effect s r accepted r')
    (ht : Tidy r') : Kept conf s name r' (a.next name accepted r r') where
  tidy := ht
  lined := he.lined hr.lined hr.tidy
  tuned := hr.tuned.effect h he hr.tidy
  paired := by
    rcases he.at_name hr.lined hr.tidy name with ⟨more, -, rfl, rfl⟩ | hbeside
    · exact (hr.paired.taken more).laneStep hr.tuned
    · exact hr.paired.beside hbeside accepted

variable {settings : WriterSettings} {globals : Labels}

theorem Monitored.kept (h : Steady conf) (hr : Monitored s settings globals name r a) :
    Kept conf s name r a := by
  induction hr with
  | start collectors => exact kept_start settings globals collectors
  | next _ hh hm ih => exact ih.effect h (hh.effect hm ih.lined ih.tidy) (hh.tidy ih.tidy)

/-! ## All of it -/

/-- A round that begins finds its collector free, if the host is not in line for it. -/
theorem Kept.begun {next : Nat} (hr : Kept conf s name r a) {more : List Agent}
    (hq : r.serving? name = some ⟨spec.labels, next, .beginning⟩) (hready : r.ready = .lane name :: more)
    (haccepted : a.accepted = some spec)
    (hnever : ∀ other n, r.call = .configuring other n → other.model.name ≠ name) {z : Horizon}
    (hstep : r.step? s z = some q) :
    ∃ m, Under conf spec (conf m.collector) ∧ Begun s name spec.labels next m r q := by
  obtain ⟨k, hk, hunder⟩ := hr.tuned.config spec haccepted
  obtain ⟨m, hm, rfl⟩ := Option.map_eq_some_iff.1 hk
  have hn : r.registrationOf name = some m.registration := by simp [registrationOf, hm]
  have hfree : r.locksOf m.registration = [] := by
    have hround := round?_of_serving hq
    cases hr.lined.turn name _ hn with
    | free hlocks _ _ => exact hlocks
    | taken _ hround' hn' _ | awaited _ hround' hn' _ =>
      cases hround'.symm.trans hround
      cases hn'
    | @handed other _ _ hcall =>
      obtain ⟨-, hother⟩ := hr.lined.configuring other _ hcall
      exact absurd (hr.lined.distinct _ _ _ hother hn) (hnever other _ hcall)
    | contended _ hround' _ => cases hround'.symm.trans hround
  unfold step? at hstep
  rw [hready] at hstep
  cases hstep
  obtain ⟨-, hbegins, -⟩ := awaiting_laneStep (q := { r with ready := more }) (s := s) (.inl rfl) hq hm
  have hbegun := hbegins (locksOf_eq_nil.1 hfree)
  exact ⟨m, hunder, hbegun.serving, hbegun.model⟩

theorem Kept.begins (h : Steady conf) (hr : Kept conf s name r a) (hm : Move s r r') {sv : Serving}
    (hq : r.serving? name = none) (hq' : r'.serving? name = some sv) :
    ∃ spec deadline, a.accepted = some spec ∧ wakeTime deadline ≤ r.clock ∧
      sv = ⟨spec.labels, nextDeadline spec.period.nanos deadline (instant r.clock), .beginning⟩ ∧
      ((∀ other n, r.call = .configuring other n → other.model.name ≠ name) →
        ∀ z q, r'.step? s z = some q → ∃ m, Under conf spec (conf m.collector) ∧
          Begun s name spec.labels sv.next m r' q) := by
  have heffect := effect_move hm hr.lined hr.tidy
  have hkept := hr.effect h heffect (hr.tidy.move hm)
  rcases heffect.at_name hr.lined hr.tidy name with ⟨more, -, hnone, rfl⟩ | hbeside
  · rw [hnone] at hkept
    obtain ⟨lane, p, deadline, hl, hp, hdue, rfl, hready⟩ :=
      begins_laneStep (q := { r with ready := more }) hq hq'
    obtain ⟨spec, hspec, hwork, hperiod⟩ :=
      hr.tuned.loops lane.live (congrArg (Option.map Lane.live) hl) p hp
    rw [hwork, hperiod] at hq' ⊢
    refine ⟨spec, deadline, hspec, hdue, rfl, fun hnever z q hstep => ?_⟩
    have hcall := call_laneStep { r with ready := more } s name
    exact hkept.begun hq' hready hspec (fun other n h => hnever other n (hcall.symm.trans h)) hstep
  · rw [hbeside.serving, hq] at hq'
    cases hq'

theorem Kept.ends (hr : Kept conf s name r a) (hm : Move s r r') {sv : Serving}
    (hq : r.serving? name = some sv) (hq' : r'.serving? name = none) :
    ∃ time spec under, ∃ m : Model σ, a.begun = some spec ∧ sv.labels = spec.labels ∧
      a.observed = some under ∧ Under conf under (conf m.collector) ∧
      (a.overtaken = false → under = spec) ∧
      Forwards s name spec.labels sv.next (observed s m time (observation s m time).1.samples)
        (m.pending.toList ++ (observation s m time).1.samples) r r' := by
  rcases (effect_move hm hr.lined hr.tidy).at_name hr.lined hr.tidy name with
    ⟨more, -, -, rfl⟩ | hbeside
  · cases hr.paired.taken more with
    | between hnone => cases hnone.symm.trans hq
    | @waiting next m spec hawaits =>
      obtain ⟨round, hround, hserving⟩ := hawaits.serving
      obtain ⟨-, hbegins, hstays⟩ := awaiting_laneStep (s := s) hround hserving hawaits.model
      by_cases hat : AtHand name m.registration { r with ready := more } round
      · cases (hbegins hat).serving.symm.trans hq'
      · obtain ⟨_, _, hserving'⟩ := (hstays hat).serving
        cases hserving'.symm.trans hq'
    | @observing next time m _ _ spec under hobs hbegun hobserved hunder hsame =>
      obtain ⟨round, -, hserving⟩ := hobs.serving
      cases hserving.symm.trans hq
      rcases observing_laneStep hobs with ⟨_, _, hgoes, -⟩ | hforwards
      · exact absurd hq' hgoes.serving_ne
      · exact ⟨time, spec, under, m, hbegun, rfl, hobserved, hunder, hsame,
          hforwards.idle (idle_ready r more) (idle_ready _ _)⟩
  · rw [hbeside.serving, hq] at hq'
    cases hq'

/-- Whatever monitors the host asks for, and whenever, a round begins at a deadline that has come, with
the labels and the period of the monitor that was accepted last; if the host is not in line for the
collector then, the round observes at once, under the configuration of that monitor. It hands over what
it has pushed with the labels that it began with, and these are of the monitor under whose configuration
it has observed unless another one has been accepted while it waited for the collector. -/
theorem rounds_keep_to_one_monitor (h : Steady conf)
    (hr : Monitored s settings globals name r a) :
    (∀ r' sv, Move s r r' → r.serving? name = none → r'.serving? name = some sv →
      ∃ spec deadline, a.accepted = some spec ∧ wakeTime deadline ≤ r.clock ∧
        sv = ⟨spec.labels, nextDeadline spec.period.nanos deadline (instant r.clock), .beginning⟩ ∧
        ((∀ other n, r.call = .configuring other n → other.model.name ≠ name) →
          ∀ z q, r'.step? s z = some q → ∃ m, Under conf spec (conf m.collector) ∧
            Begun s name spec.labels sv.next m r' q)) ∧
    ∀ r' sv, Move s r r' → r.serving? name = some sv → r'.serving? name = none →
      ∃ time spec under, ∃ m : Model σ, a.begun = some spec ∧ sv.labels = spec.labels ∧
        a.observed = some under ∧ Under conf under (conf m.collector) ∧
        (a.overtaken = false → under = spec) ∧
        Forwards s name spec.labels sv.next (observed s m time (observation s m time).1.samples)
          (m.pending.toList ++ (observation s m time).1.samples) r r' :=
  ⟨fun _ _ hm hq hq' => (hr.kept h).begins h hm hq hq',
    fun _ _ hm hq hq' => (hr.kept h).ends hm hq hq'⟩

/-! ## A round that is overtaken -/

/-- At most `limit` moves, with what is noted. -/
def movesNoting (s : Surroundings) (z : Horizon) (name : String) :
    Nat → Relay σ × Account → Relay σ × Account
  | 0, p => p
  | limit + 1, (r, a) =>
    match r.step? s z with
    | some r' =>
      movesNoting s z name limit (r', a.next name ((Event.move : Event σ).accepted r r') r r')
    | none => (r, a)

/-- The host asks for a monitor, and leaves the relay alone. -/
def applyNoting (s : Surroundings) (z : Horizon) (name : String) (spec : MonitorSpec) (limit : Nat)
    (p : Relay σ × Account) : Relay σ × Account :=
  let r := p.1.begin s (.applyMonitor spec)
  movesNoting s z name limit
    (r, p.2.next name ((Event.call (.applyMonitor spec) : Event σ).accepted p.1 r) p.1 r)

theorem step?_movesNoting (s : Surroundings) (z : Horizon) (name : String) (limit : Nat) :
    ∀ p : Relay σ × Account, ((movesNoting s z name limit p).1.step? s z).isSome = true →
      (movesNoting s z name limit p).1.step? s z =
        some (movesNoting s z name (limit + 1) p).1 := by
  induction limit with
  | zero =>
    intro p hsome
    obtain ⟨r', hstep⟩ := Option.isSome_iff_exists.1 hsome
    have hstep : p.1.step? s z = some r' := hstep
    simp only [movesNoting, hstep]
  | succ limit ih =>
    intro p hsome
    unfold movesNoting at hsome ⊢
    cases hstep : p.1.step? s z with
    | none => simp [hstep] at hsome
    | some r' =>
      rw [hstep] at hsome
      exact ih _ hsome

theorem Monitored.moves (z : Horizon) (limit : Nat) :
    ∀ {r : Relay σ} {a : Account}, Monitored s settings globals name r a →
      Monitored s settings globals name (movesNoting s z name limit (r, a)).1
        (movesNoting s z name limit (r, a)).2 := by
  induction limit with
  | zero => exact fun hr => hr
  | succ limit ih =>
    intro r a hr
    unfold movesNoting
    cases hstep : r.step? s z with
    | none => exact hr
    | some r' => exact ih (hr.next (.move (.step hstep)) trivial)

theorem Monitored.apply {p : Relay σ × Account} (hp : Monitored s settings globals name p.1 p.2)
    (z : Horizon) (spec : MonitorSpec) (limit : Nat) (hidle : p.1.call = .idle)
    (hperiod : 0 < spec.period.nanos) :
    Monitored s settings globals name (applyNoting s z name spec limit p).1
      (applyNoting s z name spec limit p).2 :=
  (hp.next (.call (.applyMonitor spec) hidle) hperiod).moves z limit

end Relay

/-- What a script and its configuration make of a collector. -/
def ScriptedCollector.setUp (c : ScriptedCollector) : Script × Labels := (c.script, c.labels)

theorem ScriptedCollector.setUp_init (config : ConfigMap) (c : ScriptedCollector) :
    (c.init config).2.setUp = (c.script, match (c.init config).1 with
      | .ok _ => configuredLabels config c.script.labelKeys
      | .error _ => c.labels) := by
  unfold init
  split <;> rfl

namespace Relay

theorem steady_setUp : Steady ScriptedCollector.setUp where
  observed _ _ := rfl
  refused config c e h := by
    have h : (c.init config).1 = .error e := h
    show (c.init config).2.setUp = c.setUp
    rw [c.setUp_init config, h]
    rfl

/-- A collector whose first round takes longer than its period. -/
def overrunning : ScriptedCollector where
  script.name := "m"
  script.labelKeys := ["zone"]
  script.rounds := [[.sleep 50], [.push none "up" (.int 1) .empty]]

/-- A monitor that configures the collector for a zone, and labels its samples with a team. -/
def zoneMonitor (zone : String) (period : Duration) : MonitorSpec where
  model := { name := "m", config := Table.empty.insert "zone" zone }
  period := period
  labels := Table.empty.insert "team" zone

/-- It is monitored, up to a point of its first round. -/
def firstRound (limit : Nat) : Relay ScriptedCollector × Account :=
  applyNoting calm .instant "m" (zoneMonitor "a" (.ofMillis 10)) limit
    (start {} .empty [overrunning], {})

/-- Another monitor is asked for in that round. -/
def secondMonitor (limit : Nat) : Relay ScriptedCollector × Account :=
  applyNoting calm .call "m" (zoneMonitor "b" (.ofSeconds 60)) limit (firstRound 10)

theorem monitored_firstRound (limit : Nat) :
    Monitored calm {} .empty "m" (firstRound limit).1 (firstRound limit).2 :=
  Monitored.apply (p := (start {} .empty [overrunning], {})) (.start _) _ _ limit rfl (by decide)

theorem monitored_secondMonitor (limit : Nat) :
    Monitored calm {} .empty "m" (secondMonitor limit).1 (secondMonitor limit).2 :=
  Monitored.apply (monitored_firstRound 10) _ _ limit (HostCall.eq_idle (by decide +kernel))
    (by decide)

theorem step?_firstRound (limit : Nat)
    (h : ((firstRound limit).1.step? calm .instant).isSome = true) :
    (firstRound limit).1.step? calm .instant = some (firstRound (limit + 1)).1 :=
  step?_movesNoting calm .instant "m" limit _ h

theorem step?_secondMonitor (limit : Nat)
    (h : ((secondMonitor limit).1.step? calm .call).isSome = true) :
    (secondMonitor limit).1.step? calm .call = some (secondMonitor (limit + 1)).1 :=
  step?_movesNoting calm .call "m" limit _ h

/-- The first round goes by the first monitor, though its host has asked for another one meanwhile. -/
theorem firstRound_goes_by_first :
    (∃ q m, (firstRound 4).1.step? calm .instant = some q ∧
      Under ScriptedCollector.setUp (zoneMonitor "a" (.ofMillis 10)) (ScriptedCollector.setUp m.collector) ∧
      Begun calm "m" (Table.empty.insert "team" "a") 10000000 m (firstRound 4).1 q) ∧
    ∃ q time, ∃ m : Model ScriptedCollector, (secondMonitor 2).1.step? calm .call = some q ∧
      Under ScriptedCollector.setUp (zoneMonitor "a" (.ofMillis 10)) (ScriptedCollector.setUp m.collector) ∧
      Forwards calm "m" (Table.empty.insert "team" "a") 10000000
        (observed calm m time (observation calm m time).1.samples)
        (m.pending.toList ++ (observation calm m time).1.samples) (secondMonitor 2).1 q := by
  constructor
  · have hbegins := step?_firstRound 3 (by decide +kernel)
    have hobserves := step?_firstRound 4 (by decide +kernel)
    have haccepted : (firstRound 3).2.accepted = some (zoneMonitor "a" (.ofMillis 10)) := by
      decide +kernel
    have hidle : (firstRound 3).1.call = .idle := HostCall.eq_idle (by decide +kernel)
    obtain ⟨spec, _, hspec, -, -, hnext⟩ := (rounds_keep_to_one_monitor steady_setUp
      (monitored_firstRound 3)).1 _
        ⟨Table.empty.insert "team" "a", 10000000, .beginning⟩ (.step hbegins) rfl rfl
    cases haccepted.symm.trans hspec
    obtain ⟨m, hunder, hbegun⟩ := hnext (by simp [hidle]) _ _ hobserves
    exact ⟨_, m, hobserves, hunder, hbegun⟩
  · have hends := step?_secondMonitor 2 (by decide +kernel)
    have hbegun : (secondMonitor 2).2.begun = some (zoneMonitor "a" (.ofMillis 10)) := by
      decide +kernel
    obtain ⟨time, spec, under, m, hspec, -, -, hunder, hsame, hforwards⟩ :=
      (rounds_keep_to_one_monitor steady_setUp (monitored_secondMonitor 2)).2 _
        ⟨Table.empty.insert "team" "a", 10000000, .gathering 0 ⟨[], .done⟩⟩ (.step hends) rfl rfl
    cases hbegun.symm.trans hspec
    cases hsame (by decide +kernel)
    exact ⟨_, time, m, hends, hunder, hforwards⟩

/-- The second monitor is accepted while a round waits that has begun for the first one: what that round
hands over is of neither. -/
theorem overtaken_round_fits_no_monitor :
    Monitored calm {} .empty "m" (secondMonitor 8).1 (secondMonitor 8).2 ∧
    (secondMonitor 8).1.step? calm .call = some (secondMonitor 9).1 ∧
    ((secondMonitor 8).1.registry.models.get? "m").map (fun m => m.collector.setUp) =
      some (overrunning.script, Table.empty.insert "zone" "b") ∧
    (∃ next time, ∃ m : Model ScriptedCollector,
      Under ScriptedCollector.setUp (zoneMonitor "b" (.ofSeconds 60)) m.collector.setUp ∧
      Forwards calm "m" (Table.empty.insert "team" "a") next
        (observed calm m time (observation calm m time).1.samples)
        (m.pending.toList ++ (observation calm m time).1.samples) (secondMonitor 8).1
        (secondMonitor 9).1) ∧
    ∀ spec ∈ [zoneMonitor "a" (.ofMillis 10), zoneMonitor "b" (.ofSeconds 60)],
      ¬(spec.labels = Table.empty.insert "team" "a" ∧
        Under ScriptedCollector.setUp spec (overrunning.script, Table.empty.insert "zone" "b")) := by
  have hends := step?_secondMonitor 8 (by decide +kernel)
  have hkept := (monitored_secondMonitor 8).kept steady_setUp
  have hbegun : (secondMonitor 8).2.begun = some (zoneMonitor "a" (.ofMillis 10)) := by
    decide +kernel
  have hobserved : (secondMonitor 8).2.observed = some (zoneMonitor "b" (.ofSeconds 60)) := by
    decide +kernel
  obtain ⟨sv, hserving⟩ : ∃ sv, (secondMonitor 8).1.serving? "m" = some sv :=
    Option.isSome_iff_exists.1 (by decide +kernel)
  have hover : (secondMonitor 9).1.serving? "m" = none :=
    Option.isNone_iff_eq_none.1 (by decide +kernel)
  refine ⟨monitored_secondMonitor 8, hends, by decide +kernel, ?_, fun spec hspec => ?_⟩
  · obtain ⟨time, spec, under, m, hspec, -, hunder, hconf, -, hforwards⟩ :=
      hkept.ends (.step hends) hserving hover
    cases hbegun.symm.trans hspec
    cases hobserved.symm.trans hunder
    exact ⟨sv.next, time, m, hconf, hforwards⟩
  · rcases List.mem_pair.1 hspec with rfl | rfl
    · rintro ⟨-, c, hok, hunder⟩
      have hok : (c.init ⟨(zoneMonitor "a" (.ofMillis 10)).model.config⟩).1 = .ok () := hok
      have hmade := hunder.trans (c.setUp_init _)
      rw [hok] at hmade
      obtain ⟨hscript, hlabels⟩ := Prod.mk.inj hmade
      have hother : Table.empty.insert "zone" "b" = ScriptedCollector.configuredLabels
          ⟨(zoneMonitor "a" (.ofMillis 10)).model.config⟩ overrunning.script.labelKeys :=
        hscript ▸ hlabels
      exact absurd hother (by decide +kernel)
    · exact fun h => absurd h.1 (by decide +kernel)

end Relay

end MetricRelay
