import MetricRelay.Proofs.Relay.Shutdown
import MetricRelay.Proofs.Relay.Touch

/-!
# What is recorded of a name

A `Chronicle` follows a relay from its start, through calls of its host and moves of its own, and keeps
for one name the times at which rounds have been completed since its monitor was last removed. A round
that comes to its end is noted by the move that ends it, and nothing else notes anything (`Marks`), so
that the last push is the latest of these times (`Chronicle.lastPush`).
-/

namespace MetricRelay

open Schedule

/-- Whether the monitor of that name is being removed. -/
def HostCall.removes (name : String) : HostCall → Bool
  | .removing model _ => model = name
  | _ => false

theorem HostCall.removes_iff {name : String} {c : HostCall} :
    c.removes name = true ↔ ∃ id, c = .removing name id := by
  cases c <;> simp [removes]

namespace Relay

variable {σ : Type} {r r' q : Relay σ} {s : Surroundings} {name model : String}

/-! ## Rounds and last pushes -/

/-- A round of a name is completed and noted, or neither. -/
inductive Marks (name : String) (r r' : Relay σ) : Prop where
  | keeps : r'.lastPush.get? name = r.lastPush.get? name →
      (r.serving? name ≠ none → r'.serving? name ≠ none) → Marks name r r'
  | completes : r'.lastPush.get? name = some r.clock → r.serving? name ≠ none →
      r'.serving? name = none → Marks name r r'

theorem Untouched.marks (h : Untouched name r r') : Marks name r r' :=
  .keeps h.push fun hserving => by rw [h.serving]; exact hserving

theorem Ticks.marks (h : Ticks name r r') : Marks name r r' := by
  have hlane : ∀ {l l' : Lane Labels Round}, r.scheduler.lane? name = some l →
      r'.scheduler = r.scheduler.setLane name l' →
      r.serving? name = l.serving? ∧ r'.serving? name = l'.serving? := by
    intro l l' hl hs
    unfold serving?
    rw [hs, Scheduler.lane?_setLane_self hl, hl]
    exact ⟨rfl, rfl⟩
  cases h with
  | rests hs hp => exact .keeps (by rw [hp]) fun hserving => by rwa [serving?_congr hs]
  | goes hl hs hp hserving =>
    obtain ⟨hbefore, hafter⟩ := hlane hl hs
    exact .keeps (by rw [hp]) (by rw [hbefore, hafter]; exact hserving)
  | ends hl hs hp hserving hended =>
    obtain ⟨hbefore, hafter⟩ := hlane hl hs
    refine .completes ?_ (hbefore ▸ hserving) (hafter ▸ hended)
    rw [hp, Table.get?_insert_self]

theorem Marks.after (hi : Idle r q) (h : Marks name q r') : Marks name r r' := by
  have hserving : q.serving? name = r.serving? name := serving?_congr hi.scheduler
  cases h with
  | keeps hpush hkept => exact .keeps (by rw [hpush, hi.lastPush]) (hserving ▸ hkept)
  | completes hpush hserved hended =>
    exact .completes (by rw [hpush, hi.clock]) (hserving ▸ hserved) hended

theorem Concerns.marks (h : Concerns model r r') (hr : Tidy r) (hcall : r.call.departure? = none) :
    Marks name r r' := by
  refine .keeps (by rw [h.lastPush]) fun hserving => ?_
  rw [h.serving (hr.parting.alone hcall)]
  exact hserving

theorem untouched_closeWriter (hended : ∀ d ∈ r.scheduler.leaving, d.lane.isEmpty = true)
    (name : String) : Untouched name r r.closeWriter :=
  ⟨rfl, Scheduler.occupied?_forgetEnded hended name, rfl, rfl⟩

theorem marks_stopNext (hr : Tidy r) (hended : ∀ d ∈ r.scheduler.leaving, d.lane.isEmpty = true)
    (names : List String) (name : String) : Marks name r (r.stopNext names) := by
  rcases r.stopNext_cases names with ⟨-, heq⟩ | ⟨_, x, _, t, _, _, ht, heq⟩
  · rw [heq]
    exact (untouched_closeWriter hended name).marks
  · rw [heq]
    exact .keeps rfl fun hserving => by rwa [serving?_beginStop ht hr.parting.gone]

variable [Collector σ]

theorem marks_agentStep (r : Relay σ) (s : Surroundings) (a : Agent) (name : String) :
    Marks name r (r.agentStep s a) := by
  by_cases ha : a = .lane name
  · rw [ha]
    exact (ticks_laneStep r s name).marks
  · exact (untouched_agentStep r s ha).marks

/-! ## Calls -/

theorem resume_cases (s : Surroundings) (hres : r.canResume = true) :
    (∃ model, r.call.model? = some model) ∨
    (∃ model id, r.call = .removing model id ∧ r.resume s = r.forgetModel model) ∨
    (∃ id more, r.call = .stopping id more ∧ r.resume s = r.stopNext more) ∨
    r.call = .closing ∧ r.resume s = r.finish (.ok ()) := by
  cases hcall : r.call with
  | idle => exact absurd hcall (ne_idle_of_canResume hres)
  | configuring spec n => exact .inl ⟨_, rfl⟩
  | awaitingGather model n => exact .inl ⟨_, rfl⟩
  | gathering model n wake g => exact .inl ⟨_, rfl⟩
  | removing model id => exact .inr (.inl ⟨model, id, rfl, resume_removing hcall⟩)
  | stopping id more => exact .inr (.inr (.inl ⟨id, more, rfl, resume_stopping hcall⟩))
  | closing => exact .inr (.inr (.inr ⟨rfl, resume_closing hcall⟩))

/-! ## What happens to a relay -/

/-- What the host does, one call at a time, or a move of the relay by itself. -/
inductive Event (σ : Type) where
  | call (demand : Demand)
  | register (collector : σ)
  | selfMetrics (region : String) (interval : Duration)
  | destination (name : String) (options : DestinationOptions)
  | noDestination (name : String)
  | move

inductive Happens (s : Surroundings) (r : Relay σ) : Event σ → Relay σ → Prop where
  | call (d : Demand) : r.call = .idle → Happens s r (.call d) (r.begin s d)
  | register (collector : σ) : Happens s r (.register collector) (r.registerCollector collector)
  | selfMetrics (region : String) (interval : Duration) :
      Happens s r (.selfMetrics region interval) (r.startSelfMetrics region interval)
  | destination (name : String) (options : DestinationOptions) :
      Happens s r (.destination name options)
        (r.applyDestination name options s.network.readUrl).2
  | noDestination (name : String) :
      Happens s r (.noDestination name) (r.removeDestination name).2
  | move {r' : Relay σ} : Move s r r' → Happens s r .move r'

variable {e : Event σ}

omit [Collector σ] in
/-- A registration changes the destinations of the writer, if anything. -/
theorem applyDestination_relay (r : Relay σ) (name : String) (options : DestinationOptions)
    (readUrl : Url.Reader) :
    ∃ t, (r.applyDestination name options readUrl).2 =
      { r with writer := { r.writer with destinations := t } } := by
  obtain ⟨t, ht⟩ := r.writer.register_writer name options readUrl
  refine ⟨t, ?_⟩
  unfold applyDestination
  rw [← ht]

omit [Collector σ] in
theorem removeDestination_relay (r : Relay σ) (name : String) :
    ∃ t, (r.removeDestination name).2 =
      { r with writer := { r.writer with destinations := t } } := by
  obtain ⟨t, ht⟩ := r.writer.deregister_writer name
  refine ⟨t, ?_⟩
  unfold removeDestination
  rw [← ht]

theorem Happens.tidy (h : Happens s r e r') (hr : Tidy r) : Tidy r' := by
  cases h with
  | call d hidle => exact hr.begin hidle d
  | register collector => exact hr.act (s := s) (.registry _)
  | selfMetrics region interval => exact hr.act (s := s) (.emitter region interval)
  | destination x options =>
    obtain ⟨t, ht⟩ := r.applyDestination_relay x options s.network.readUrl
    rw [ht]
    exact hr.act (s := s) (.writer rfl rfl)
  | noDestination x =>
    obtain ⟨t, ht⟩ := r.removeDestination_relay x
    rw [ht]
    exact hr.act (s := s) (.writer rfl rfl)
  | move hm => exact hr.move hm

/-- Whether the call that removes the monitor of a name returns. -/
def Event.returns (name : String) (r r' : Relay σ) : Event σ → Bool
  | .call (.removeMonitor model) => model = name && (r'.call matches .idle)
  | .move => r.call.removes name && (r'.call matches .idle)
  | _ => false

/-- The times at which rounds of a name have been completed since its monitor was last removed, the
latest first, after something has happened. -/
def recorded (name : String) (e : Event σ) (r r' : Relay σ) (times : List Nat) : List Nat :=
  if e.returns name r r' then []
  else if (r.serving? name).isSome && (r'.serving? name).isNone then r.clock :: times
  else times

/-- A relay from its start on, with what is recorded for a name. -/
inductive Chronicle (s : Surroundings) (settings : WriterSettings) (globals : Labels)
    (name : String) : Relay σ → List Nat → Prop where
  | new : Chronicle s settings globals name (.new settings globals) []
  | next {r r' : Relay σ} {times : List Nat} {e : Event σ} :
      Chronicle s settings globals name r times → Happens s r e r' →
      Chronicle s settings globals name r' (recorded name e r r' times)

/-! ## What is recorded -/

theorem marks_begin (hr : Tidy r) (hidle : r.call = .idle) (d : Demand)
    (hret : (Event.call d : Event σ).returns name r (r.begin s d) = false) :
    Marks name r (r.begin s d) := by
  have hnone : r.call.departure? = none := by rw [hidle]; rfl
  have hended := hr.ended_of_idle hidle
  cases d with
  | applyMonitor spec => exact (concerns_applyMonitor r s spec).marks hr hnone
  | gather model => exact (concerns_gather r s model).marks hr hnone
  | removeMonitor model =>
    rcases r.begin_removeMonitor s model with ⟨-, heq⟩ | ⟨t, ht, heq⟩
    · rw [heq] at hret ⊢
      have hne : name ≠ model := by
        rintro rfl
        simp [Event.returns, forgetModel, finish] at hret
      exact (untouched_forgetModel hended hne).marks
    · rw [heq]
      exact .keeps rfl fun hserving => by rwa [serving?_beginStop ht hr.parting.gone]
  | shutDown => exact marks_stopNext hr hended _ name

theorem marks_resume (hr : Tidy r) (hres : r.canResume = true)
    (hret : (Event.move : Event σ).returns name r (r.resume s) = false) :
    Marks name r (r.resume s) := by
  have hended := hr.ended hres
  rcases resume_cases s hres with ⟨model, hmodel⟩ | ⟨model, id, hcall, heq⟩ |
    ⟨id, more, -, heq⟩ | ⟨-, heq⟩
  · refine (concerns_resume s hmodel).marks hr ?_
    cases hcall : r.call <;> rw [hcall] at hmodel <;> first | rfl | cases hmodel
  · rw [heq] at hret ⊢
    have hne : name ≠ model := by
      rintro rfl
      simp [Event.returns, hcall, HostCall.removes, forgetModel, finish] at hret
    exact (untouched_forgetModel hended hne).marks
  · rw [heq]
    exact marks_stopNext hr hended _ name
  · rw [heq]
    exact .keeps rfl id

theorem Happens.marks (h : Happens s r e r') (hr : Tidy r) (hret : e.returns name r r' = false) :
    Marks name r r' := by
  cases h with
  | call d hidle => exact marks_begin hr hidle d hret
  | register | selfMetrics => exact .keeps rfl id
  | destination x options =>
    obtain ⟨t, ht⟩ := r.applyDestination_relay x options s.network.readUrl
    rw [ht]
    exact .keeps rfl id
  | noDestination x =>
    obtain ⟨t, ht⟩ := r.removeDestination_relay x
    rw [ht]
    exact .keeps rfl id
  | move hm =>
    rcases hm.first with ⟨a, more, -, rfl⟩ | ⟨hres, rfl⟩ | ⟨t, _, _, -, rfl⟩
    · exact .after (idle_ready r more) (marks_agentStep _ s a name)
    · exact marks_resume hr hres hret
    · exact .keeps rfl id

/-- A removal that returns drops the last push. -/
theorem Happens.lastPush_of_returns (h : Happens s r e r') (hret : e.returns name r r' = true) :
    r'.lastPush.get? name = none := by
  have hforget : (r.forgetModel name).lastPush.get? name = none := Table.get?_erase_self ..
  cases h with
  | call d hidle =>
    cases d with
    | removeMonitor model =>
      rw [Event.returns, Bool.and_eq_true, decide_eq_true_iff] at hret
      obtain ⟨rfl, hover⟩ := hret
      have hover := HostCall.eq_idle hover
      rcases r.begin_removeMonitor s model with ⟨-, heq⟩ | ⟨t, -, heq⟩
      · rw [heq]
        exact hforget
      · rw [heq] at hover
        cases hover
    | _ => cases hret
  | move hm =>
    rw [Event.returns, Bool.and_eq_true] at hret
    obtain ⟨id, hcall⟩ := HostCall.removes_iff.1 hret.1
    have hover := HostCall.eq_idle hret.2
    rcases hm.first with ⟨a, more, -, rfl⟩ | ⟨hres, rfl⟩ | ⟨t, _, _, -, rfl⟩
    · rw [call_agentStep] at hover
      cases hcall.symm.trans hover
    · rw [resume_removing hcall]
      exact hforget
    · cases hcall.symm.trans hover
  | _ => cases hret

variable {settings : WriterSettings} {globals : Labels} {times : List Nat}

theorem Chronicle.tidy (h : Chronicle s settings globals name r times) : Tidy r := by
  induction h with
  | new => exact tidy_new settings globals
  | next _ hh ih => exact hh.tidy ih

theorem Chronicle.moves (h : Chronicle s settings globals name r times) (z : Horizon)
    (limit : Nat) : ∃ times', Chronicle s settings globals name (r.moves s z limit) times' := by
  have hmoves : ∀ q, Moves s r q → ∃ times', Chronicle s settings globals name q times' := by
    intro q hq
    induction hq with
    | refl => exact ⟨times, h⟩
    | tail _ hm ih =>
      obtain ⟨times', h'⟩ := ih
      exact ⟨_, h'.next (.move hm)⟩
  exact hmoves _ (moves_of_moves s z limit r)

/-- The last push is the time of the latest round since the last removal. -/
theorem Chronicle.lastPush (h : Chronicle s settings globals name r times) :
    r.lastPush.get? name = times.head? := by
  induction h with
  | new => rfl
  | @next r r' times e hc hh ih =>
    unfold recorded
    cases hret : e.returns name r r' with
    | true =>
      rw [if_pos rfl]
      exact hh.lastPush_of_returns hret
    | false =>
      rw [if_neg Bool.false_ne_true]
      cases hh.marks hc.tidy hret with
      | keeps hpush hserving =>
        -- No round is lost from sight, so that nothing is recorded.
        have hkept : ((r.serving? name).isSome && (r'.serving? name).isNone) = false := by
          cases hs : r.serving? name with
          | none => rfl
          | some sv =>
            rw [hs] at hserving
            obtain ⟨sv', hsv⟩ := Option.ne_none_iff_exists'.1 (hserving (Option.some_ne_none _))
            rw [hsv]
            rfl
        rw [hkept, if_neg Bool.false_ne_true, hpush, ih]
      | completes hpush hserving hended =>
        obtain ⟨sv, hsv⟩ := Option.ne_none_iff_exists'.1 hserving
        rw [hpush, hsv, hended]
        rfl

end Relay

end MetricRelay
