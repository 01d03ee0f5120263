import MetricRelay.Proofs.Relay.Deeds
import MetricRelay.Proofs.Writer.SelfReport

/-!
# Emitters of self metrics

An emitter emits once an interval, counted from its start (`Paced`). An `Emitting` relay goes from its start
through calls of its host and moves of its own, and time passes only when there is nothing to be done
before. All that happens keeps the notes orderly and paced, so that there is one emitter at a time
(`one_emitter_at_a_time`).
-/

namespace MetricRelay

/-- A report offers samples, whether or not they are admitted. -/
theorem SelfMetrics.totalCount_emit_ne (m : SelfMetrics) (now : Timestamp)
    (process : Option ProcessStats) (w : Writer) :
    (m.emit now process w).2.counters.totalCount ≠ w.counters.totalCount := by
  have hr := reports_emit m now process w
  have hpos : 0 < (m.emit now process w).1 := by
    rw [hr.length.2]
    split <;> decide
  have hgrown : (m.emit now process w).2.counters.totalCount =
      w.counters.totalCount + (m.emit now process w).1 := by
    rcases Nat.lt_or_ge w.queue.capacity (w.queue.size + (m.emit now process w).1) with hover | hfits
    · rw [(hr.refused hover).2]
    · rw [(hr.admitted hfits).2]
  rw [hgrown]
  exact Nat.ne_of_gt (Nat.lt_add_of_pos_right hpos)

namespace Relay

variable {σ : Type} {r r' : Relay σ} {s : Surroundings} {log : List Deed} {d : Deed} {m n t : Nat}
  {interval : Duration}

/-! ## Pace -/

/-- An emitter that was started at a time and has emitted `k` times is about to begin, sleeps for the rest
of its interval, or has its turn at the end of it. -/
inductive Due (q : Timing) (e : Emitter) (start k : Nat) : Prop where
  | fresh : e.due = none → k = 0 → q.clock = start → .emitter e.number ∈ q.ready → Due q e start k
  | sleeps (hdue : e.due = some (start + (k + 1) * e.interval))
      (hsince : start + k * e.interval ≤ q.clock) (huntil : q.clock < start + (k + 1) * e.interval)
      (halarm : ⟨start + (k + 1) * e.interval, .emitter e.number⟩ ∈ q.alarms) : Due q e start k
  | turn : e.due = some (start + (k + 1) * e.interval) →
      q.clock = start + (k + 1) * e.interval → .emitter e.number ∈ q.ready → Due q e start k

theorem Due.spares {q q' : Timing} {e : Emitter} {start k : Nat} (h : Due q e start k)
    (hs : Spares q q') : Due q' e start k := by
  cases h with
  | fresh hdue hk hclock hready => exact .fresh hdue hk (hs.clock ▸ hclock) (hs.ready _ hready)
  | sleeps hdue hsince huntil halarm =>
    refine .sleeps hdue ?_ ?_ (hs.alarms _ _ halarm)
    · rwa [hs.clock]
    · rwa [hs.clock]
  | turn hdue hclock hready => exact .turn hdue (hs.clock ▸ hclock) (hs.ready _ hready)

/-- The first `k` ends of intervals after a start. -/
def ticks (start interval k : Nat) : List Nat :=
  (List.range k).map fun j => start + (j + 1) * interval

theorem ticks_succ (start interval k : Nat) :
    ticks start interval (k + 1) = ticks start interval k ++ [start + (k + 1) * interval] := by
  rw [ticks, List.range_succ, List.map_append]
  rfl

/-- Every emitter has emitted at the ends of its first intervals; the one there is goes on so. -/
structure Paced (r : Relay σ) (log : List Deed) : Prop where
  rings : Rings r.alarms
  emissions : ∀ n t i, .started n t i ∈ log → ∃ k,
    emissions n log = ticks t (max i.millisUp 1) k ∧
    (r.shutDown = false → ∀ e, r.emitter = some e → e.number = n →
      e.interval = max i.millisUp 1 ∧ Due r.timing e t k)

theorem paced_new (settings : WriterSettings) (globals : Labels) :
    Paced (Relay.new settings globals : Relay σ) [] :=
  ⟨.nil, fun _ _ _ h => absurd h List.not_mem_nil⟩

theorem Paced.spares (h : Paced r log) (hs : Spares r.timing r'.timing) : Paced r' log where
  rings := hs.rings h.rings
  emissions n t i hmem := by
    obtain ⟨k, htimes, hdue⟩ := h.emissions n t i hmem
    refine ⟨k, htimes, fun hopen e he hn => ?_⟩
    obtain ⟨hinterval, hdue⟩ := hdue (hs.shutDown.symm.trans hopen) e (hs.emitter.symm.trans he) hn
    exact ⟨hinterval, hdue.spares hs⟩

theorem Paced.closeWriter (h : Paced r log) : Paced r.closeWriter log where
  rings := h.rings
  emissions n t i hmem := by
    obtain ⟨k, htimes, -⟩ := h.emissions n t i hmem
    exact ⟨k, htimes, fun hopen => nomatch hopen⟩

/-- A deed that is no emission is noted. -/
theorem Paced.notes (h : Paced r log) (hd : ∀ n, d.emission? n = none)
    (hnone : ∀ n t i, d ≠ .started n t i) : Paced r (log ++ [d]) where
  rings := h.rings
  emissions n t i hmem := by
    have hmem : .started n t i ∈ log := by
      rcases List.mem_append.1 hmem with hmem | hmem
      · exact hmem
      · exact absurd (List.mem_singleton.1 hmem).symm (hnone n t i)
    obtain ⟨k, htimes, hdue⟩ := h.emissions n t i hmem
    refine ⟨k, ?_, hdue⟩
    rw [emissions_append, htimes, show Relay.emissions n [d] = [] by simp [Relay.emissions, hd],
      List.append_nil]

theorem Paced.startSelfMetrics (h : Paced r log) (ho : Orderly r log) (region : String)
    (interval : Duration) :
    Paced (r.startSelfMetrics region interval) (log ++ [.started r.emitters r.clock interval]) where
  rings := h.rings
  emissions n t i hmem := by
    rw [emissions_append, show Relay.emissions n [.started r.emitters r.clock interval] = [] from rfl,
      List.append_nil]
    rcases List.mem_append.1 hmem with hmem | hmem
    · obtain ⟨k, htimes, -⟩ := h.emissions n t i hmem
      refine ⟨k, htimes, fun _ e he hn => ?_⟩
      have hlt := (ho.numbered n).1 ⟨t, i, hmem⟩
      cases he
      exact absurd hn (Nat.ne_of_gt hlt)
    · cases List.mem_singleton.1 hmem
      refine ⟨0, emissions_eq_nil.2 fun t hmem => Nat.lt_irrefl _ (ho.emitted _ t hmem), ?_⟩
      intro _ e he _
      cases he
      exact ⟨rfl, .fresh rfl rfl rfl (List.mem_append_right _ (List.mem_singleton_self _))⟩

/-- Nothing is to be done before the time to which the relay passes. -/
theorem Paced.passes (h : Paced r log) {t : Nat} (hready : r.ready = []) (ht : r.clock ≤ t)
    (hnext : ∀ b ∈ r.alarms, r.clock < b.time → t ≤ b.time) : Paced (r.passTo t) log where
  rings := h.rings.filter _
  emissions n start i hmem := by
    obtain ⟨k, htimes, hdue⟩ := h.emissions n start i hmem
    refine ⟨k, htimes, fun hopen e he hn => ?_⟩
    obtain ⟨hinterval, hdue⟩ := hdue hopen e he hn
    refine ⟨hinterval, ?_⟩
    have hnobody : ∀ a, a ∉ r.timing.ready := fun a => by
      rw [show r.timing.ready = [] from hready]
      exact List.not_mem_nil
    cases hdue with
    | fresh _ _ _ hturn | turn _ _ hturn => exact absurd hturn (hnobody _)
    | sleeps hdue hsince huntil halarm =>
      have hlate : t ≤ start + (k + 1) * e.interval := hnext _ halarm huntil
      rcases Nat.lt_or_eq_of_le hlate with hlt | rfl
      · refine .sleeps hdue (Nat.le_trans hsince ht) hlt (List.mem_filter.2 ⟨halarm, ?_⟩)
        simpa using hlt
      · have hrings : _ ∈ r.alarms.filter fun a => a.time ≤ start + (k + 1) * e.interval :=
          List.mem_filter.2 ⟨halarm, decide_eq_true (Nat.le_refl _)⟩
        exact .turn hdue rfl (List.mem_append_right _ (List.mem_map.2 ⟨_, hrings, rfl⟩))

/-! ## One move of an emitter -/

/-- An emitter that has been replaced or stopped does nothing, nor one that is to wait. The first turn sets
the alarm; at a later one a report is handed to the writer. -/
theorem emitterStep_cases (r : Relay σ) (s : Surroundings) (n : Nat) :
    (r.emitterStep s n = r ∧ ∀ e, r.emitter = some e → e.number = n → r.shutDown = false →
      ∃ due, e.due = some due ∧ r.clock < due) ∨
    ∃ e writer, r.emitter = some e ∧ e.number = n ∧ r.shutDown = false ∧
      r.emitterStep s n = ({ r with
        writer, emitter := some { e with due := some (r.clock + e.interval) } }.setAlarm
          (.emitter n) (r.clock + e.interval)) ∧
      (e.due = none ∧ writer = r.writer ∨ ∃ due, e.due = some due ∧ due ≤ r.clock ∧
        writer.counters.totalCount ≠ r.writer.counters.totalCount) := by
  unfold emitterStep
  cases he : r.emitter with
  | none => exact .inl ⟨rfl, fun _ h => nomatch h⟩
  | some e =>
    by_cases hout : e.number ≠ n ∨ r.shutDown = true
    · refine .inl ⟨if_pos hout, fun x hx hn hopen => ?_⟩
      cases hx
      rcases hout with hne | hdown
      · exact absurd hn hne
      · exact absurd hdown (Bool.eq_false_iff.1 hopen)
    · have hn : e.number = n := not_not.1 fun hne => hout (.inl hne)
      have hopen : r.shutDown = false := Bool.eq_false_iff.2 fun hdown => hout (.inr hdown)
      simp only [if_neg hout]
      cases hdue : e.due with
      | none => exact .inr ⟨e, r.writer, rfl, hn, hopen, rfl, .inl ⟨hdue, rfl⟩⟩
      | some due =>
        by_cases hle : due ≤ r.clock
        · refine .inr ⟨e, _, rfl, hn, hopen, if_pos hle, .inr ⟨due, hdue, hle, ?_⟩⟩
          exact e.metrics.totalCount_emit_ne (r.now s) (s.process r.clock) r.writer
        · refine .inl ⟨if_neg hle, fun x hx _ _ => ?_⟩
          cases hx
          exact ⟨due, hdue, Nat.not_le.1 hle⟩

/-- An emitter has had its turn, and sleeps for its next interval. -/
theorem Paced.sets (h : Paced r log) {log' : List Deed} {e : Emitter} {writer : Writer}
    {ready : List Agent} (he : r.emitter = some e)
    (hothers : ∀ n, n ≠ e.number → Relay.emissions n log' = Relay.emissions n log)
    (hstarts : ∀ n t i, .started n t i ∈ log' → .started n t i ∈ log)
    (hcount : ∀ t k, Due r.timing e t k → Relay.emissions e.number log = ticks t e.interval k →
      ∃ k', Relay.emissions e.number log' = ticks t e.interval k' ∧ r.clock = t + k' * e.interval)
    (hopen : r.shutDown = false) :
    Paced ({ r with
      ready, writer, emitter := some { e with due := some (r.clock + e.interval) } }.setAlarm
        (.emitter e.number) (r.clock + e.interval)) log' where
  rings := rings_insertAlarm _ (h.rings.filter _)
  emissions n t i hmem := by
    obtain ⟨k, htimes, hdue⟩ := h.emissions n t i (hstarts n t i hmem)
    by_cases hn : n = e.number
    · subst hn
      obtain ⟨hinterval, hdue⟩ := hdue hopen e he rfl
      rw [← hinterval] at htimes ⊢
      obtain ⟨k', htimes', hclock⟩ := hcount t k hdue htimes
      refine ⟨k', htimes', fun _ x hx _ => ?_⟩
      cases hx
      have hpos : 0 < e.interval := hinterval ▸ Nat.lt_of_lt_of_le Nat.one_pos (Nat.le_max_right ..)
      have hnext : r.clock + e.interval = t + (k' + 1) * e.interval := by
        rw [hclock, Nat.add_mul, Nat.one_mul, Nat.add_assoc]
      refine ⟨rfl, .sleeps (congrArg some hnext) (Nat.le_of_eq hclock.symm) ?_ ?_⟩
      · exact Nat.lt_of_lt_of_eq (Nat.lt_add_of_pos_right hpos) hnext
      · exact mem_insertAlarm.2 (.inl (by rw [hnext]))
    · refine ⟨k, (hothers n hn).trans htimes, fun _ x hx hxn => ?_⟩
      cases hx
      exact absurd hxn.symm hn

/-- An emitter whose turn is not taken still sleeps, if it is the one there is. -/
theorem Paced.skips {more : List Agent} (h : Paced r log) (hready : r.ready = .emitter n :: more)
    (hwaits : ∀ e, r.emitter = some e → e.number = n → r.shutDown = false →
      ∃ due, e.due = some due ∧ r.clock < due) : Paced { r with ready := more } log where
  rings := h.rings
  emissions m t i hmem := by
    obtain ⟨k, htimes, hdue⟩ := h.emissions m t i hmem
    refine ⟨k, htimes, fun hopen e he hm => ?_⟩
    obtain ⟨hinterval, hdue⟩ := hdue hopen e he hm
    refine ⟨hinterval, ?_⟩
    have hkept : e.number ≠ n → .emitter e.number ∈ r.ready → .emitter e.number ∈ more := by
      intro hn hmem
      rw [hready] at hmem
      rcases List.mem_cons.1 hmem with heq | hmem
      · cases heq
        exact absurd rfl hn
      · exact hmem
    cases hdue with
    | fresh hnone hk hclock hturn =>
      refine .fresh hnone hk hclock (hkept (fun hn => ?_) hturn)
      obtain ⟨due, hsome, -⟩ := hwaits e he hn hopen
      cases hnone.symm.trans hsome
    | sleeps hdue hsince huntil halarm => exact .sleeps hdue hsince huntil halarm
    | turn hdue hclock hturn =>
      refine .turn hdue hclock (hkept (fun hn => ?_) hturn)
      obtain ⟨due, hsome, hlt⟩ := hwaits e he hn hopen
      cases hdue.symm.trans hsome
      exact absurd hclock (Nat.ne_of_lt hlt)

/-- A turn of the emitter of that number. -/
theorem keeps_emitterStep {more : List Agent} (ho : Orderly r log) (hp : Paced r log)
    (hready : r.ready = .emitter n :: more) (s : Surroundings) :
    let r' := { r with ready := more }.emitterStep s n
    Orderly r' (log ++ deeds (.move : Event σ) r r') ∧
      Paced r' (log ++ deeds (.move : Event σ) r r') := by
  intro r'
  rw [deeds_of_emitter hready]
  rcases { r with ready := more }.emitterStep_cases s n with ⟨heq, hwaits⟩ |
    ⟨e, writer, he, rfl, hopen, heq, ⟨hdue, rfl⟩ | ⟨due, hdue, hle, hne⟩⟩
  · have hr' : r' = { r with ready := more } := heq
    rw [if_pos (by rw [hr']), List.append_nil, hr']
    exact ⟨⟨ho.pairwise, ho.numbered, ho.emitted, ho.last, ho.present, ho.closing, ho.returned⟩,
      hp.skips hready hwaits⟩
  · have hr' : r' = _ := heq
    rw [if_pos (by rw [hr']; rfl), List.append_nil, hr']
    refine ⟨⟨ho.pairwise, ho.numbered, ho.emitted, ?_, fun _ _ => Option.some_ne_none _, ho.closing,
      ho.returned⟩, hp.sets he (fun _ _ => rfl) (fun _ _ _ => id) ?_ hopen⟩
    · rintro _ ⟨⟩
      exact ho.last e he
    · intro t k hd htimes
      cases hd with
      | fresh _ hk hclock _ => exact ⟨k, htimes, by rw [hk, Nat.zero_mul]; exact hclock⟩
      | sleeps hsome | turn hsome => cases hdue.symm.trans hsome
  · have hr' : r' = _ := heq
    have hcount : r'.writer.counters.totalCount ≠ r.writer.counters.totalCount := by
      rw [hr']
      exact hne
    rw [if_neg hcount, hr']
    refine ⟨ho.emits he hopen r.clock, hp.sets he (fun m hm => ?_) (fun m t i hmem => ?_) ?_ hopen⟩
    · rw [emissions_append, show Relay.emissions m [.emitted e.number r.clock] = [] from ?_,
        List.append_nil]
      simp [Relay.emissions, Deed.emission?, hm.symm]
    · simpa using hmem
    · intro t k hd htimes
      have hhere : r.clock = t + (k + 1) * e.interval := by
        cases hd with
        | fresh hnone => cases hnone.symm.trans hdue
        | sleeps hsome _ huntil =>
          cases hsome.symm.trans hdue
          exact absurd hle (Nat.not_le.2 huntil)
        | turn _ hclock => exact hclock
      refine ⟨k + 1, ?_, hhere⟩
      rw [emissions_append, htimes, ticks_succ, hhere]
      simp [Relay.emissions, Deed.emission?]

/-! ## Histories -/

section

variable [Collector σ] {settings : WriterSettings} {globals : Labels} {e : Event σ}

/-- Something happens, in time: time passes only when there is nothing to be done before. -/
inductive Timely (s : Surroundings) (r : Relay σ) : Event σ → Relay σ → Prop where
  | act {e : Event σ} {r' : Relay σ} : Happens s r e r' → e ≠ .move → Timely s r e r'
  | step {z : Horizon} {r' : Relay σ} : r.step? s z = some r' → Timely s r .move r'
  | pass {t : Nat} : r.clock ≤ t → r.step? s (.time t) = none → Timely s r .move { r with clock := t }

/-- A relay from its start on, with what is noted of its emitters. -/
inductive Emitting (s : Surroundings) (settings : WriterSettings) (globals : Labels) :
    Relay σ → List Deed → Prop where
  | new : Emitting s settings globals (.new settings globals) []
  | next {r r' : Relay σ} {log : List Deed} {e : Event σ} : Emitting s settings globals r log →
      Timely s r e r' → Emitting s settings globals r' (log ++ deeds e r r')

/-- It is who is ready that moves, else the host's call, else time. -/
theorem step?_cases {z : Horizon} (h : r.step? s z = some r') :
    (∃ a more, r.ready = a :: more ∧ r' = { r with ready := more }.agentStep s a) ∨
    (r.ready = [] ∧ r' = r.resume s) ∨
    r.ready = [] ∧ ∃ t, r.nextTime? = some t ∧ r' = r.passTo (max r.clock t) := by
  unfold step? at h
  split at h
  · next a more hready =>
    cases h
    exact .inl ⟨a, more, hready, rfl⟩
  · next hready =>
    split at h
    · cases h
      exact .inr (.inl ⟨hready, rfl⟩)
    · split at h
      · next t ht =>
        split at h
        · cases h
          exact .inr (.inr ⟨hready, t, ht, rfl⟩)
        · cases h
      · cases h

/-- Nothing is to be done before a time. -/
theorem step?_none {z : Horizon} (h : r.step? s z = none) :
    r.ready = [] ∧ ∀ t, r.nextTime? = some t → r.mayPass z t = false := by
  unfold step? at h
  split at h
  · cases h
  · next hready =>
    refine ⟨hready, fun t ht => ?_⟩
    split at h
    · cases h
    · simp only [ht] at h
      split at h
      · cases h
      · next hpass => exact Bool.eq_false_iff.2 hpass

/-- What an agent does that is no emitter. -/
theorem spares_agentStep {a : Agent} {more : List Agent} (hready : r.ready = a :: more)
    (ha : ∀ n, a ≠ .emitter n) :
    Spares r.timing ({ r with ready := more }.agentStep s a).timing := by
  have htaken : Spares r.timing { r.timing with ready := more } := by
    refine ⟨rfl, rfl, rfl, rfl, fun n hn => ?_, fun _ _ => id, id, id⟩
    have hn : .emitter n ∈ r.ready := hn
    rw [hready] at hn
    rcases List.mem_cons.1 hn with heq | hn
    · exact absurd heq.symm (ha n)
    · exact hn
  refine htaken.trans ?_
  cases a with
  | lane name => exact spares_laneStep { r with ready := more } s name
  | drain => exact spares_drainStep { r with ready := more } s
  | emitter n => exact absurd rfl (ha n)

omit [Collector σ] in
/-- Both are kept when nothing is noted and the emitters are spared. -/
theorem keeps_spared (ho : Orderly r log) (hp : Paced r log) (hs : Spares r.timing r'.timing)
    (hdeeds : deeds e r r' = []) :
    Orderly r' (log ++ deeds e r r') ∧ Paced r' (log ++ deeds e r r') := by
  rw [hdeeds, List.append_nil]
  exact ⟨ho.spares hs, hp.spares hs⟩

omit [Collector σ] in
theorem keeps_closed (ho : Orderly r log) (hp : Paced r log) (hdeeds : deeds e r r.closeWriter = []) :
    Orderly r.closeWriter (log ++ deeds e r r.closeWriter) ∧
      Paced r.closeWriter (log ++ deeds e r r.closeWriter) := by
  rw [hdeeds, List.append_nil]
  exact ⟨ho.closeWriter, hp.closeWriter⟩

theorem Happens.keeps (h : Happens s r e r') (he : e ≠ .move) (ho : Orderly r log)
    (hp : Paced r log) : Orderly r' (log ++ deeds e r r') ∧ Paced r' (log ++ deeds e r r') := by
  cases h with
  | call d _ =>
    rcases spares_begin r s d with hs | heq
    · exact keeps_spared ho hp hs rfl
    · rw [heq]
      exact keeps_closed ho hp rfl
  | register => exact keeps_spared ho hp (.refl r.timing) rfl
  | selfMetrics region interval =>
    exact ⟨ho.startSelfMetrics region interval, hp.startSelfMetrics ho region interval⟩
  | destination name options =>
    obtain ⟨t, ht⟩ := r.applyDestination_relay name options s.network.readUrl
    rw [ht]
    exact keeps_spared ho hp (.refl r.timing) rfl
  | noDestination name =>
    obtain ⟨t, ht⟩ := r.removeDestination_relay name
    rw [ht]
    exact keeps_spared ho hp (.refl r.timing) rfl
  | move => exact absurd rfl he

/-- The host's call goes on. -/
theorem keeps_resume (ho : Orderly r log) (hp : Paced r log) (hready : r.ready = []) :
    Orderly (r.resume s) (log ++ deeds (.move : Event σ) r (r.resume s)) ∧
      Paced (r.resume s) (log ++ deeds (.move : Event σ) r (r.resume s)) := by
  have hdeeds : deeds (.move : Event σ) r (r.resume s) = _ := deeds_of_nobody hready
  by_cases hcall : r.call = .closing
  · rw [resume_closing hcall] at hdeeds ⊢
    have hnoted : deeds (.move : Event σ) r (r.finish (.ok ())) = [.shutDown] := by
      rw [hdeeds, hcall]
      rfl
    rw [hnoted]
    exact ⟨ho.returns hcall _, (hp.spares (spares_finish r _)).notes (fun _ => rfl) (by simp)⟩
  · have hnone : deeds (.move : Event σ) r (r.resume s) = [] := by
      rw [hdeeds]
      cases hc : r.call with
      | closing => exact absurd hc hcall
      | _ => rfl
    rcases spares_resume r s with hs | heq
    · exact keeps_spared ho hp hs hnone
    · rw [heq] at hnone ⊢
      exact keeps_closed ho hp hnone

omit [Collector σ] in
/-- Time passes. -/
theorem keeps_passTo {t : Nat} (ho : Orderly r log) (hp : Paced r log) (hready : r.ready = [])
    (ht : r.clock ≤ t) (hnext : ∀ b ∈ r.alarms, r.clock < b.time → t ≤ b.time) :
    Orderly (r.passTo t) (log ++ deeds (.move : Event σ) r (r.passTo t)) ∧
      Paced (r.passTo t) (log ++ deeds (.move : Event σ) r (r.passTo t)) := by
  have hnone : deeds (.move : Event σ) r (r.passTo t) = [] := deeds_of_same_call hready rfl
  rw [hnone, List.append_nil]
  exact ⟨⟨ho.pairwise, ho.numbered, ho.emitted, ho.last, ho.present, ho.closing, ho.returned⟩,
    hp.passes hready ht hnext⟩

/-- Time that passes without an alarm. -/
theorem pass_eq_passTo {t : Nat} (hp : Rings r.alarms) (h : r.step? s (.time t) = none) :
    { r with clock := t } = r.passTo t := by
  obtain ⟨-, hnext⟩ := step?_none h
  have hlate : ∀ b ∈ r.alarms, ¬b.time ≤ t := by
    intro b hb hle
    obtain ⟨t', ht', hle'⟩ := le_of_nextTime? hp hb
    have hpass := hnext t' ht'
    rw [mayPass, decide_eq_false_iff_not] at hpass
    exact hpass (Nat.le_trans hle' hle)
  have hnobody : (r.alarms.filter fun b => b.time ≤ t) = [] :=
    List.filter_eq_nil_iff.2 fun b hb => by simpa using hlate b hb
  have hall : (r.alarms.filter fun b => ¬b.time ≤ t) = r.alarms :=
    List.filter_eq_self.2 fun b hb => by simpa using hlate b hb
  rw [passTo, hnobody, hall, List.map_nil, List.append_nil]

theorem Timely.keeps (h : Timely s r e r') (ho : Orderly r log) (hp : Paced r log) :
    Orderly r' (log ++ deeds e r r') ∧ Paced r' (log ++ deeds e r r') := by
  cases h with
  | act h he => exact h.keeps he ho hp
  | step h =>
    rcases step?_cases h with ⟨a, more, hready, rfl⟩ | ⟨hready, rfl⟩ | ⟨hready, t, ht, rfl⟩
    · cases a with
      | emitter n => exact keeps_emitterStep ho hp hready s
      | lane | drain =>
        exact keeps_spared ho hp (spares_agentStep hready (by simp))
          (deeds_of_other hready (by simp))
    · exact keeps_resume ho hp hready
    · refine keeps_passTo ho hp hready (Nat.le_max_left ..) fun b hb hlt => ?_
      obtain ⟨t', ht', hle⟩ := le_of_nextTime? hp.rings hb
      cases ht.symm.trans ht'
      exact Nat.max_le.2 ⟨Nat.le_of_lt hlt, hle⟩
  | pass ht h =>
    obtain ⟨hready, hnext⟩ := step?_none h
    rw [pass_eq_passTo hp.rings h]
    refine keeps_passTo ho hp hready ht fun b hb _ => ?_
    obtain ⟨t', ht', hle⟩ := le_of_nextTime? hp.rings hb
    have hpass := hnext t' ht'
    rw [mayPass, decide_eq_false_iff_not, Nat.not_le] at hpass
    exact Nat.le_trans (Nat.le_of_lt hpass) hle

theorem Emitting.keeps (h : Emitting s settings globals r log) : Orderly r log ∧ Paced r log := by
  induction h with
  | new => exact ⟨orderly_new settings globals, paced_new settings globals⟩
  | next _ ht ih => exact ht.keeps ih.1 ih.2

/-! ## One emitter at a time -/

omit [Collector σ] in
/-- An emitter that another one has replaced emits nothing from then on. -/
theorem Orderly.replaced {before after : List Deed} (ho : Orderly r log)
    (hlog : log = before ++ .started n t interval :: after) {start : Nat} {i : Duration}
    (hm : .started m start i ∈ before) : emissions m after = [] := by
  refine emissions_eq_nil.2 fun time hmem => ?_
  obtain ⟨-, hafter, hacross⟩ := List.pairwise_append.1 (hlog ▸ ho.pairwise)
  have hlt : m < n := hacross _ hm _ List.mem_cons_self
  have hle : n ≤ m := (List.pairwise_cons.1 hafter).1 _ hmem
  exact Nat.lt_irrefl _ (Nat.lt_of_lt_of_le hlt hle)

omit [Collector σ] in
/-- Of the emitters started so far one emits later at most. -/
theorem Orderly.alone {before after : List Deed} (ho : Orderly r log) (hlog : log = before ++ after)
    {start start' : Nat} {i i' : Duration} (hm : .started m start i ∈ before)
    (hn : .started n start' i' ∈ before) (hem : emissions m after ≠ [])
    (hen : emissions n after ≠ []) : m = n := by
  obtain ⟨-, -, hacross⟩ := List.pairwise_append.1 (hlog ▸ ho.pairwise)
  obtain ⟨t, ht⟩ := exists_mem_of_emissions hem
  obtain ⟨t', ht'⟩ := exists_mem_of_emissions hen
  exact Nat.le_antisymm (hacross _ hm _ ht') (hacross _ hn _ ht)

omit [Collector σ] in
theorem Orderly.silent {before after : List Deed} (ho : Orderly r log)
    (hlog : log = before ++ .shutDown :: after) (n : Nat) : emissions n after = [] := by
  refine emissions_eq_nil.2 fun time hmem => ?_
  obtain ⟨-, hafter, -⟩ := List.pairwise_append.1 (hlog ▸ ho.pairwise)
  exact (List.pairwise_cons.1 hafter).1 _ hmem

omit [Collector σ] in
/-- Within an interval, the emitter has emitted as often as intervals have gone by since its start. -/
theorem Due.count {q : Timing} {e : Emitter} {start k : Nat} (h : Due q e start k)
    (hready : q.ready = []) : k = (q.clock - start) / e.interval := by
  have hnobody : ∀ a, a ∉ q.ready := fun a => by
    rw [hready]
    exact List.not_mem_nil
  cases h with
  | fresh _ _ _ hturn | turn _ _ hturn => exact absurd hturn (hnobody _)
  | sleeps _ hsince huntil _ =>
    refine (Nat.div_eq_of_lt_le ?_ ?_).symm
    · exact Nat.le_sub_of_add_le' hsince
    · rw [Nat.add_mul] at huntil ⊢
      omega

/-- At any time at most one of the emitters started so far has still something to emit, and one that is
replaced has nothing. An emitter emits at the ends of its intervals since its start, rounded up to whole
milliseconds: the one there is at all that have passed. After a shutdown none emits. -/
theorem one_emitter_at_a_time (h : Emitting s settings globals r log) :
    (∀ before after, log = before ++ after → ∀ m start i n start' i',
      .started m start i ∈ before → .started n start' i' ∈ before →
      emissions m after ≠ [] → emissions n after ≠ [] → m = n) ∧
    (∀ before n t interval after, log = before ++ .started n t interval :: after →
      ∀ m start i, .started m start i ∈ before → emissions m after = []) ∧
    (∀ n t interval, .started n t interval ∈ log → 0 < interval.nanos → ∃ k,
      emissions n log = (List.range k).map (fun j => t + (j + 1) * interval.millisUp) ∧
      (n + 1 = r.emitters → r.shutDown = false → r.step? s .instant = none →
        k = (r.clock - t) / interval.millisUp)) ∧
    (∀ n t, .emitted n t ∈ log → ∃ start interval, .started n start interval ∈ log) ∧
    ∀ before after, log = before ++ .shutDown :: after → ∀ n, emissions n after = [] := by
  obtain ⟨ho, hp⟩ := h.keeps
  refine ⟨fun before after hlog m _ _ n _ _ hm hn => ho.alone hlog hm hn,
    fun before n t interval after hlog m start i hm => ho.replaced hlog hm,
    fun n t interval hmem hpos => ?_,
    fun n t hmem => (ho.numbered n).2 (ho.emitted n t hmem),
    fun before after hlog n => ho.silent hlog n⟩
  obtain ⟨k, htimes, hdue⟩ := hp.emissions n t interval hmem
  have hmax : max interval.millisUp 1 = interval.millisUp := by
    unfold Duration.millisUp Duration.nanosPerMilli
    omega
  rw [hmax] at htimes hdue
  refine ⟨k, htimes, fun hlast hopen hsettled => ?_⟩
  have hsome : 0 < r.emitters := hlast ▸ Nat.succ_pos n
  obtain ⟨e, he⟩ := Option.ne_none_iff_exists'.1 (ho.present hopen hsome)
  have hn : e.number = n := Nat.succ_injective ((ho.last e he).trans hlast.symm)
  obtain ⟨hinterval, hdue⟩ := hdue hopen e he hn
  rw [← hinterval]
  exact hdue.count (step?_none hsettled).1

/-- At most `limit` moves, with what is noted of them. -/
def movesEmitting (s : Surroundings) (z : Horizon) :
    Nat → Relay σ × List Deed → Relay σ × List Deed
  | 0, p => p
  | limit + 1, p =>
    match p.1.step? s z with
    | some r => movesEmitting s z limit (r, p.2 ++ deeds (.move : Event σ) p.1 r)
    | none => p

theorem Emitting.pass (h : Emitting s settings globals r log) {t : Nat} (ht : r.clock ≤ t)
    (hend : r.step? s (.time t) = none) : Emitting s settings globals { r with clock := t } log := by
  have hnone : deeds (.move : Event σ) r { r with clock := t } = [] :=
    deeds_of_same_call (step?_none hend).1 rfl
  have hpassed := h.next (.pass ht hend)
  rwa [hnone, List.append_nil] at hpassed

theorem Emitting.moves {p : Relay σ × List Deed} (h : Emitting s settings globals p.1 p.2)
    (z : Horizon) (limit : Nat) :
    Emitting s settings globals (movesEmitting s z limit p).1 (movesEmitting s z limit p).2 := by
  induction limit generalizing p with
  | zero => exact h
  | succ limit ih =>
    unfold movesEmitting
    split
    · next hstep => exact ih (h.next (.step hstep))
    · exact h

theorem exists_movesEmitting (s : Surroundings) (z : Horizon) (limit : Nat)
    (p : Relay σ × List Deed) : ∃ more, (movesEmitting s z limit p).2 = p.2 ++ more := by
  induction limit generalizing p with
  | zero => exact ⟨[], (List.append_nil _).symm⟩
  | succ limit ih =>
    unfold movesEmitting
    split
    · next r _ =>
      obtain ⟨more, hmore⟩ := ih (r, p.2 ++ deeds (.move : Event σ) p.1 r)
      exact ⟨_, hmore.trans (List.append_assoc ..)⟩
    · exact ⟨[], (List.append_nil _).symm⟩

/-- An emitter is started, and the relay left alone up to a time. -/
def startUntil (s : Surroundings) (interval : Duration) (limit t : Nat) (p : Relay σ × List Deed) :
    Relay σ × List Deed :=
  let q := movesEmitting s (.time t) limit (p.1.startSelfMetrics "eu" interval,
    p.2 ++ [.started p.1.emitters p.1.clock interval])
  ({ q.1 with clock := t }, q.2)

theorem Emitting.startsUntil {p : Relay σ × List Deed} (h : Emitting s settings globals p.1 p.2)
    (interval : Duration) (limit t : Nat)
    (hend : ∀ q, movesEmitting s (.time t) limit (p.1.startSelfMetrics "eu" interval,
      p.2 ++ [.started p.1.emitters p.1.clock interval]) = q →
      q.1.clock ≤ t ∧ (q.1.step? s (.time t)).isNone = true) :
    Emitting s settings globals (startUntil s interval limit t p).1
      (startUntil s interval limit t p).2 := by
  obtain ⟨hclock, hnone⟩ := hend _ rfl
  have hstarted : Emitting s settings globals (p.1.startSelfMetrics "eu" interval)
      (p.2 ++ [.started p.1.emitters p.1.clock interval]) :=
    h.next (.act (.selfMetrics "eu" interval) (by simp))
  exact (Emitting.moves (p := (_, _)) hstarted (.time t) limit).pass hclock
    (Option.isNone_iff_eq_none.1 hnone)

end

def firstEmitter : Relay ScriptedCollector × List Deed :=
  startUntil calm (.ofMillis 10) 50 25 (.new {} .empty, [])

/-- The first emitter is replaced within its third interval. -/
def secondEmitter : Relay ScriptedCollector × List Deed :=
  startUntil calm (.ofMillis 4) 50 34 firstEmitter

theorem emitting_firstEmitter : Emitting calm {} .empty firstEmitter.1 firstEmitter.2 :=
  Emitting.startsUntil (p := (_, _)) .new (.ofMillis 10) 50 25 (by rintro _ rfl; decide +kernel)

theorem emitting_secondEmitter : Emitting calm {} .empty secondEmitter.1 secondEmitter.2 :=
  emitting_firstEmitter.startsUntil (.ofMillis 4) 50 34 (by rintro _ rfl; decide +kernel)

/-- The first emitter emits at 10 and 20, and is replaced at 25; the second one emits at 29 and 33. -/
theorem secondEmitter_replaces_first :
    Emitting calm {} .empty secondEmitter.1 secondEmitter.2 ∧
    emissions 0 secondEmitter.2 = [10, 20] ∧ emissions 1 secondEmitter.2 = [29, 33] := by
  obtain ⟨log, hfirst⟩ : ∃ log, firstEmitter.2 = [.started 0 0 (.ofMillis 10)] ++ log :=
    exists_movesEmitting ..
  obtain ⟨more, hsecond⟩ : ∃ more, secondEmitter.2 =
      firstEmitter.2 ++ [.started 1 25 (.ofMillis 4)] ++ more := by
    have hlast : firstEmitter.1.emitters = 1 := by decide +kernel
    obtain ⟨more, hmore⟩ := exists_movesEmitting calm (.time 34) 50
      (firstEmitter.1.startSelfMetrics "eu" (.ofMillis 4),
        firstEmitter.2 ++ [.started firstEmitter.1.emitters 25 (.ofMillis 4)])
    exact ⟨more, hlast ▸ hmore⟩
  have hstart : .started 0 0 (.ofMillis 10) ∈ firstEmitter.2 := by simp [hfirst]
  obtain ⟨-, -, htimes, -, -⟩ := one_emitter_at_a_time emitting_firstEmitter
  obtain ⟨-, hreplaced, hlater, -, -⟩ := one_emitter_at_a_time emitting_secondEmitter
  refine ⟨emitting_secondEmitter, ?_, ?_⟩
  · obtain ⟨k, hk, hcount⟩ := htimes 0 0 (.ofMillis 10) hstart (by decide)
    have hsettled : firstEmitter.1.step? calm .instant = none :=
      Option.isNone_iff_eq_none.1 (by decide +kernel)
    have hnone := hreplaced _ 1 25 _ more (by rw [hsecond, List.append_assoc]; rfl) 0 0 _ hstart
    rw [hcount (by decide +kernel) (by decide +kernel) hsettled] at hk
    rw [hsecond, emissions_append, hnone, emissions_append, hk]
    decide +kernel
  · obtain ⟨k, hk, hcount⟩ := hlater 1 25 (.ofMillis 4) (by simp [hsecond]) (by decide)
    have hsettled : secondEmitter.1.step? calm .instant = none :=
      Option.isNone_iff_eq_none.1 (by decide +kernel)
    rw [hk, hcount (by decide +kernel) (by decide +kernel) hsettled]
    decide +kernel

end Relay

end MetricRelay
