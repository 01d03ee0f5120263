import Mathlib.Data.List.Nodup
import MetricRelay.Proofs.Relay.Moves
import MetricRelay.Proofs.Writer.Flush

/-!
# Tasks that leave

While the host waits for a task to end, only that task has loops outside the table; whenever it waits
for none, no loops are left outside (`Parting`). A relay is `Tidy` when that holds of it, a shutdown has
all other tasks still to stop, and the writer has been told to close by a shutdown only. It is so
after every act of the host and every move (`Tidy.act`, `Tidy.move`).
-/

namespace MetricRelay

open Schedule

/-! ## Departures -/

namespace Scheduler

variable {ω β : Type} {s : Scheduler ω β} {awaited : Option Nat}

/-- All lanes that leave have ended, but for the one that is waited for. -/
structure Parting (awaited : Option Nat) (s : Scheduler ω β) : Prop where
  names : (s.leaving.map Departure.name).Nodup
  gone : ∀ d ∈ s.leaving, s.tasks.get? d.name = none
  ended : ∀ d ∈ s.leaving, awaited = some d.id ∨ d.lane.isEmpty = true
  alone : awaited = none → s.leaving = []

theorem Parting.of_nil (h : s.leaving = []) : Parting awaited s where
  names := by rw [h]; exact List.nodup_nil
  gone := by simp [h]
  ended := by simp [h]
  alone _ := h

/-- What is waited for has come about. -/
theorem Parting.left (h : Parting awaited s) (hleft : ∀ id, awaited = some id → s.hasLeft id = true) :
    ∀ d ∈ s.leaving, d.lane.isEmpty = true := by
  intro d hd
  rcases h.ended d hd with hid | hempty
  · have hall := List.all_eq_true.1 (hleft d.id hid) d hd
    simpa using hall
  · exact hempty

theorem leaving_forgetEnded (h : ∀ d ∈ s.leaving, d.lane.isEmpty = true) :
    s.forgetEnded.leaving = [] := by
  unfold forgetEnded
  exact List.filter_eq_nil_iff.2 fun d hd => by simp [h d hd]

/-- Lanes that have ended are found no more. -/
theorem lane?_forgetEnded (h : ∀ d ∈ s.leaving, d.lane.isEmpty = true) (name : String) :
    s.forgetEnded.lane? name = (s.tasks.get? name).map Task.lane := by
  rw [lane?, leaving_forgetEnded h]
  simp [forgetEnded]

theorem Parting.setLane {name : String} {l l' : Lane ω β} (h : Parting awaited s)
    (hl : s.lane? name = some l) (hs : l.Sheds l') : Parting awaited (s.setLane name l') := by
  unfold Scheduler.setLane
  split
  · refine ⟨h.names, fun d hd => ?_, h.ended, h.alone⟩
    rw [Table.get?_modify]
    split
    · rw [h.gone d hd]
      rfl
    · exact h.gone d hd
  · next hgone =>
    rw [exists?, Table.contains, Option.not_isSome_iff_eq_none] at hgone
    -- The lane was found by the name, and only one departure has it.
    have hfound : ∀ d ∈ s.leaving, d.name = name → l = d.lane := by
      intro d hd hname
      rw [lane?, hgone, Option.map_none, Option.none_or, Option.map_eq_some_iff] at hl
      obtain ⟨e, he, rfl⟩ := hl
      have hsame : e.name = d.name := by
        rw [hname]
        simpa using List.find?_some he
      rw [List.inj_on_of_nodup_map h.names (List.mem_of_find?_eq_some he) hd hsame]
    refine ⟨?_, ?_, ?_, fun hn => by simp [h.alone hn]⟩
    · have hnames : (s.leaving.map fun d => if d.name = name then { d with lane := l' } else d).map
          Departure.name = s.leaving.map Departure.name := by
        rw [List.map_map]
        refine List.map_congr_left fun d _ => ?_
        simp only [Function.comp]
        split <;> rfl
      rw [hnames]
      exact h.names
    · intro d hd
      obtain ⟨e, he, rfl⟩ := List.mem_map.1 hd
      split <;> exact h.gone e he
    · intro d hd
      obtain ⟨e, he, rfl⟩ := List.mem_map.1 hd
      split
      · next hname =>
        refine (h.ended e he).imp id fun hempty => hs.isEmpty ?_
        rw [hfound e he hname]
        exact hempty
      · exact h.ended e he

theorem beginStop_of_none {name : String} (ht : s.tasks.get? name = none) :
    s.beginStop name = (none, s) := by
  unfold beginStop
  rw [ht]

theorem beginStop_of_some {name : String} {t : Task ω β} (ht : s.tasks.get? name = some t) :
    s.beginStop name = (some s.stops,
      { tasks := s.tasks.erase name
        leaving := s.leaving ++ [⟨s.stops, name, t.lane.cancel⟩]
        stops := s.stops + 1 }) := by
  unfold beginStop
  rw [ht]

/-- A task begins to leave when all that left before it have ended. -/
theorem Parting.beginStop {name : String} {t : Task ω β} (h : Parting awaited s)
    (hended : ∀ d ∈ s.leaving, d.lane.isEmpty = true) (ht : s.tasks.get? name = some t) :
    Parting (some s.stops) (s.beginStop name).2 := by
  have hnew : ∀ d ∈ s.leaving, d.name ≠ name := by
    intro d hd hname
    have hgone := h.gone d hd
    rw [hname, ht] at hgone
    cases hgone
  rw [beginStop_of_some ht]
  refine ⟨?_, fun d hd => ?_, fun d hd => ?_, fun hn => by cases hn⟩
  · rw [List.map_append, List.nodup_append]
    refine ⟨h.names, List.nodup_singleton _, fun x hx y hy => ?_⟩
    obtain ⟨d, hd, rfl⟩ := List.mem_map.1 hx
    rw [List.mem_singleton.1 hy]
    exact hnew d hd
  · rw [Table.get?_erase]
    split
    · rfl
    · next hne =>
      rcases List.mem_append.1 hd with hd | hd
      · exact h.gone d hd
      · exact absurd (List.mem_singleton.1 hd ▸ rfl) hne
  · rcases List.mem_append.1 hd with hd | hd
    · exact .inr (hended d hd)
    · exact .inl (List.mem_singleton.1 hd ▸ rfl)

end Scheduler

/-- The departure that the host's call waits for. -/
def HostCall.departure? : HostCall → Option Nat
  | .removing _ id => some id
  | .stopping id _ => some id
  | _ => none

namespace Relay

variable {σ : Type} {r r' q : Relay σ}

structure Tidy (r : Relay σ) : Prop where
  parting : r.scheduler.Parting r.call.departure?
  /-- A shutdown has all tasks in the table still to stop. -/
  more : ∀ id more, r.call = .stopping id more →
    ∀ x, r.scheduler.tasks.get? x ≠ none → x ∈ more
  writer : r.shutDown = false → r.writer.Open

/-- What a call does that stops nothing. -/
structure StopsNothing (r q : Relay σ) : Prop where
  leaving : q.scheduler.leaving = r.scheduler.leaving
  writer : q.writer = r.writer
  shutDown : q.shutDown = r.shutDown
  departure : q.call.departure? = none

theorem StopsNothing.tidy (h : StopsNothing r q) (hr : Tidy r)
    (hnone : r.call.departure? = none) : Tidy q where
  parting := .of_nil (h.leaving.trans (hr.parting.alone hnone))
  more id more hcall := by
    have hnone := h.departure
    rw [hcall] at hnone
    cases hnone
  writer hopen := h.writer ▸ hr.writer (h.shutDown ▸ hopen)

theorem StopsNothing.rests (h : StopsNothing q r') (hr : r.Rests q) : StopsNothing r r' := by
  obtain ⟨_, _, _, _, rfl⟩ := hr
  exact ⟨h.leaving, h.writer, h.shutDown, h.departure⟩

theorem StopsNothing.registry {registry : Registry σ} (h : StopsNothing { r with registry } r') :
    StopsNothing r r' := ⟨h.leaving, h.writer, h.shutDown, h.departure⟩

theorem stopsNothing_finish (r : Relay σ) (answer : Except Error Unit) :
    StopsNothing r (r.finish answer) := ⟨rfl, rfl, rfl, rfl⟩

/-! ## Stopping in turn -/

/-- When the host's call goes on, the task that it waited for has ended. -/
theorem Tidy.ended (h : Tidy r) (hres : r.canResume = true) :
    ∀ d ∈ r.scheduler.leaving, d.lane.isEmpty = true := by
  refine h.parting.left fun id hid => ?_
  unfold canResume at hres
  cases hcall : r.call with
  | removing | stopping =>
    rw [hcall] at hid hres
    cases hid
    exact hres
  | _ =>
    rw [hcall] at hid
    cases hid

theorem Tidy.ended_of_idle (h : Tidy r) (hidle : r.call = .idle) :
    ∀ d ∈ r.scheduler.leaving, d.lane.isEmpty = true := by
  rw [h.parting.alone (by rw [hidle]; rfl)]
  simp

theorem mem_keys_of_ne_none {x : String} (h : r.scheduler.tasks.get? x ≠ none) :
    x ∈ r.scheduler.tasks.keys := by
  obtain ⟨t, ht⟩ := Option.ne_none_iff_exists'.1 h
  exact Table.mem_keys_of_get? ht

/-- A shutdown goes on with the first of the tasks that is in the table, or with the writer. -/
theorem stopNext_cases (r : Relay σ) (names : List String) :
    ((∀ x ∈ names, r.scheduler.tasks.get? x = none) ∧ r.stopNext names = r.closeWriter) ∨
    ∃ skipped name more t, names = skipped ++ name :: more ∧
      (∀ x ∈ skipped, r.scheduler.tasks.get? x = none) ∧
      r.scheduler.tasks.get? name = some t ∧
      r.stopNext names = ({ r with
        scheduler := (r.scheduler.beginStop name).2
        call := .stopping r.scheduler.stops more }.wakeUp (.lane name)) := by
  induction names with
  | nil => exact .inl ⟨by simp, rfl⟩
  | cons name more ih =>
    unfold stopNext
    cases ht : r.scheduler.tasks.get? name with
    | none =>
      rw [Scheduler.beginStop_of_none ht]
      rcases ih with ⟨hnone, heq⟩ | ⟨skipped, x, rest, t, rfl, hskipped, hx, heq⟩
      · exact .inl ⟨List.forall_mem_cons.2 ⟨ht, hnone⟩, heq⟩
      · exact .inr ⟨name :: skipped, x, rest, t, rfl, List.forall_mem_cons.2 ⟨ht, hskipped⟩, hx, heq⟩
    | some t =>
      have hstop := Scheduler.beginStop_of_some ht
      refine .inr ⟨[], name, more, t, rfl, by simp, ht, ?_⟩
      rw [hstop]

variable {names : List String}

theorem Tidy.stopNext (h : Tidy r)
    (hended : ∀ d ∈ r.scheduler.leaving, d.lane.isEmpty = true)
    (hnames : ∀ x, r.scheduler.tasks.get? x ≠ none → x ∈ names) : Tidy (r.stopNext names) := by
  rcases r.stopNext_cases names with ⟨-, heq⟩ | ⟨skipped, name, more, t, rfl, hskipped, ht, heq⟩
  · rw [heq]
    exact ⟨.of_nil (Scheduler.leaving_forgetEnded hended), (by rintro _ _ ⟨⟩), (by rintro ⟨⟩)⟩
  · rw [heq]
    refine ⟨h.parting.beginStop hended ht, ?_, h.writer⟩
    rintro _ _ ⟨⟩ x hx
    have hx : (r.scheduler.beginStop name).2.tasks.get? x ≠ none := hx
    rw [Scheduler.beginStop_of_some ht, Table.get?_erase] at hx
    split at hx
    · exact absurd rfl hx
    · next hne =>
      rcases List.mem_append.1 (hnames x hx) with hmem | hmem
      · exact absurd (hskipped x hmem) hx
      · exact (List.mem_cons.1 hmem).resolve_left hne

theorem Tidy.forgetModel [Collector σ] (h : Tidy r)
    (hended : ∀ d ∈ r.scheduler.leaving, d.lane.isEmpty = true) (model : String) :
    Tidy (r.forgetModel model) :=
  ⟨.of_nil (Scheduler.leaving_forgetEnded hended), (by rintro _ _ ⟨⟩), h.writer⟩

/-! ## What keeps a relay tidy -/

theorem Tidy.rests (h : Tidy r) (hr : r.Rests q) : Tidy q := by
  obtain ⟨_, _, _, _, rfl⟩ := hr
  exact ⟨h.parting, h.more, h.writer⟩

theorem Tidy.setLane {name : String} {l l' : Lane Labels Round} (h : Tidy r)
    (hl : r.scheduler.lane? name = some l) (hs : l.Sheds l') : Tidy (r.setLane name l') where
  parting := h.parting.setLane hl hs
  more id more hcall x hx := by
    refine h.more id more hcall x fun hnone => hx ?_
    show (r.scheduler.setLane name l').tasks.get? x = none
    rw [Scheduler.get?_setLane, hnone]
    split <;> rfl
  writer := h.writer

theorem Tidy.forward (h : Tidy r) (s : Surroundings) (name : String) (labels : Labels) :
    Tidy (r.forward s name labels) := by
  unfold Relay.forward
  split
  · exact h
  · refine ⟨h.parting, h.more, fun hopen => ?_⟩
    obtain ⟨hc, hd⟩ := r.writer.drain_writeSamples (r.now s) _
    exact (h.writer hopen).congr hc hd

theorem tidy_new (settings : WriterSettings) (globals : Labels) :
    Tidy (new settings globals : Relay σ) :=
  ⟨.of_nil rfl, (by rintro _ _ ⟨⟩), fun _ => ⟨rfl, id⟩⟩

/-! ## Calls that stop nothing -/

theorem leaving_add_run (scheduler : Scheduler Labels Round) (name : String) (period : Duration)
    (labels : Labels) :
    ((scheduler.add name).run name period labels).2.leaving = scheduler.leaving := by
  unfold Scheduler.run
  split
  · split <;> rfl
  · rfl

theorem stopsNothing_hostGather (r : Relay σ) (model : String) (registration : Nat)
    (outcome : Outcome) (actions : List Action) :
    StopsNothing r (r.hostGather model registration outcome actions) := by
  induction actions generalizing r with
  | nil => exact (stopsNothing_finish _ _).rests (rests_release ..)
  | cons action more ih =>
    cases action with
    | push x => exact (ih _).registry
    | sleep d =>
      unfold hostGather
      split
      · exact ih r
      · exact ⟨rfl, rfl, rfl, rfl⟩

theorem stopsNothing_hostAcquire (r : Relay σ) (model : String) {free waiting : Nat → Relay σ → Relay σ}
    (hfree : ∀ n q, StopsNothing q (free n q)) (hwaiting : ∀ n q, StopsNothing q (waiting n q)) :
    StopsNothing r (r.hostAcquire model free waiting) := by
  unfold hostAcquire
  split
  · exact stopsNothing_finish ..
  · next m _ =>
    have hacquire := rests_acquire r m.registration .host
    split
    · next q heq =>
      rw [heq] at hacquire
      exact (hfree _ q).rests hacquire
    · next q heq =>
      rw [heq] at hacquire
      exact (hwaiting _ q).rests hacquire

section

variable [Collector σ] {s : Surroundings}

theorem stopsNothing_configure (r : Relay σ) (spec : MonitorSpec) (registration : Nat) :
    StopsNothing r (r.configure spec registration) := by
  rcases hout : r.registry.initConfig spec.model.name ⟨spec.model.config⟩ with ⟨⟨e⟩ | ⟨⟩, registry⟩
  · rw [configure_of_error hout]
    exact ((stopsNothing_finish _ _).rests (rests_release ..)).registry
  · obtain ⟨_, _, _, _, hrelease⟩ := rests_release { r with registry } registration
    rw [configure_of_ok hout, hrelease]
    refine ⟨?_, rfl, rfl, rfl⟩
    exact leaving_add_run ..

theorem stopsNothing_hostObserve (r : Relay σ) (s : Surroundings) (model : String)
    (registration : Nat) : StopsNothing r (r.hostObserve s model registration) := by
  unfold hostObserve
  split
  · exact (stopsNothing_finish _ _).rests (rests_release ..)
  · exact (stopsNothing_hostGather ..).registry

theorem stopsNothing_applyMonitor (r : Relay σ) (s : Surroundings) (spec : MonitorSpec) :
    StopsNothing r (r.begin s (.applyMonitor spec)) := by
  simp only [Relay.begin]
  refine stopsNothing_hostAcquire r spec.model.name (fun n q => ?_) fun n q => ?_
  · exact stopsNothing_configure q spec n
  · exact ⟨rfl, rfl, rfl, rfl⟩

theorem stopsNothing_gather (r : Relay σ) (s : Surroundings) (model : String) :
    StopsNothing r (r.begin s (.gather model)) := by
  simp only [Relay.begin]
  refine stopsNothing_hostAcquire r model (fun n q => ?_) fun n q => ?_
  · exact stopsNothing_hostObserve q s model n
  · exact ⟨rfl, rfl, rfl, rfl⟩

/-! ## Acts and moves -/

/-- What the host can do. It may use the registry and the writer past the relay, but not close the
writer. -/
inductive HostAct (s : Surroundings) (r : Relay σ) : Relay σ → Prop where
  | begin (q : Demand) : r.call = .idle → HostAct s r (r.begin s q)
  | emitter (region : String) (interval : Duration) :
      HostAct s r (r.startSelfMetrics region interval)
  | registry (registry : Registry σ) : HostAct s r { r with registry }
  | writer {writer : Writer} : writer.closing = r.writer.closing →
      writer.drain = r.writer.drain → HostAct s r { r with writer }

/-- A removal returns at once if there is no task, else it waits for it to end. -/
theorem begin_removeMonitor (r : Relay σ) (s : Surroundings) (model : String) :
    (r.scheduler.tasks.get? model = none ∧
      r.begin s (.removeMonitor model) = r.forgetModel model) ∨
    ∃ t, r.scheduler.tasks.get? model = some t ∧
      r.begin s (.removeMonitor model) = { r with
        scheduler := (r.scheduler.beginStop model).2
        call := .removing model r.scheduler.stops }.wakeUp (.lane model) := by
  cases ht : r.scheduler.tasks.get? model with
  | none =>
    refine .inl ⟨rfl, ?_⟩
    simp only [Relay.begin, Scheduler.beginStop_of_none ht]
  | some t =>
    refine .inr ⟨t, rfl, ?_⟩
    simp only [Relay.begin, Scheduler.beginStop_of_some ht]

theorem Tidy.begin (h : Tidy r) (hidle : r.call = .idle) (d : Demand) : Tidy (r.begin s d) := by
  have hnone : r.call.departure? = none := by rw [hidle]; rfl
  have hended := h.ended_of_idle hidle
  cases d with
  | applyMonitor spec => exact (stopsNothing_applyMonitor r s spec).tidy h hnone
  | gather model => exact (stopsNothing_gather r s model).tidy h hnone
  | removeMonitor model =>
    rcases r.begin_removeMonitor s model with ⟨-, heq⟩ | ⟨t, ht, heq⟩
    · rw [heq]
      exact h.forgetModel hended model
    · rw [heq]
      exact ⟨h.parting.beginStop hended ht, (by rintro _ _ ⟨⟩), h.writer⟩
  | shutDown => exact h.stopNext hended fun _ => mem_keys_of_ne_none

theorem Tidy.act (h : Tidy r) (ha : HostAct s r r') : Tidy r' := by
  cases ha with
  | begin q hidle => exact h.begin hidle q
  | emitter region interval => exact ⟨h.parting, h.more, h.writer⟩
  | registry registry => exact ⟨h.parting, h.more, h.writer⟩
  | writer hc hd => exact ⟨h.parting, h.more, fun hopen => (h.writer hopen).congr hc hd⟩

theorem resume_removing {id : Nat} {model : String} (h : r.call = .removing model id) :
    r.resume s = r.forgetModel model := by
  unfold Relay.resume
  rw [h]

theorem resume_stopping {id : Nat} {more : List String} (h : r.call = .stopping id more) :
    r.resume s = r.stopNext more := by
  unfold Relay.resume
  rw [h]

theorem Tidy.resume (h : Tidy r) (hres : r.canResume = true) : Tidy (r.resume s) := by
  have hended := h.ended hres
  unfold Relay.resume
  cases hcall : r.call with
  | idle => exact h
  | configuring spec registration =>
    exact (stopsNothing_configure r spec registration).tidy h (by rw [hcall]; rfl)
  | awaitingGather model registration =>
    exact (stopsNothing_hostObserve r s model registration).tidy h (by rw [hcall]; rfl)
  | gathering model registration wake g =>
    exact (stopsNothing_hostGather r model registration g.outcome g.actions).tidy h
      (by rw [hcall]; rfl)
  | removing model id => exact h.forgetModel hended model
  | stopping id more => exact h.stopNext hended (h.more id more hcall)
  | closing => exact (stopsNothing_finish r _).tidy h (by rw [hcall]; rfl)

theorem Tidy.acts (h : Tidy r) (ha : Acts s r r') : Tidy r' := by
  cases ha with
  | rest hr => exact h.rests hr
  | @lane name l l' registry _ hl hs _ hr =>
    have hregistry : Tidy { r with registry } := ⟨h.parting, h.more, h.writer⟩
    exact (hregistry.setLane hl hs).rests hr
  | @forward name l l' labels _ hl hs hr =>
    have hkept : (r.forward s name labels).scheduler = r.scheduler := by
      unfold Relay.forward
      split <;> rfl
    exact ((h.forward s name labels).setLane (hkept ▸ hl) hs).rests hr
  | @drain writer _ hw hr =>
    have hdrained : Tidy { r with writer } :=
      ⟨h.parting, h.more, fun hopen => (h.writer hopen).step? hw⟩
    exact hdrained.rests hr
  | @emit e writer due _ _ _ hw hr =>
    obtain ⟨now, samples, rfl⟩ := hw
    obtain ⟨hc, hd⟩ := r.writer.drain_writeSamples now samples
    have hemitted : Tidy { r with
        writer := (r.writer.writeSamples now samples).2, emitter := some { e with due } } :=
      ⟨h.parting, h.more, fun hopen => (h.writer hopen).congr hc hd⟩
    exact hemitted.rests hr

theorem Tidy.move (h : Tidy r) (hm : Move s r r') : Tidy r' := by
  rcases hm.cases with hact | ⟨hres, rfl⟩ | ⟨t, -, _, _, _, _, rfl⟩
  · exact h.acts hact
  · exact h.resume hres
  · exact ⟨h.parting, h.more, h.writer⟩

end

end Relay

end MetricRelay
