import MetricRelay.Proofs.Relay.Chronicle

/-!
# Who acts when

The `Timing` of a relay is what its emitters depend on: the time, the emitter there is, who is ready or
sleeps, and whether the writer is being closed. Whatever else acts spares the emitters (`Spares`): it takes
none of them out of the ready ones, leaves their alarms as they are, and does not begin to close the writer.
Alarms are kept in the order in which they ring (`Rings`), so that time never passes beyond one
(`le_of_nextTime?`).
-/

namespace MetricRelay.Relay

variable {σ : Type} {r r' : Relay σ} {a : Agent} {n t : Nat}

structure Timing where
  clock : Nat
  emitter : Option Emitter
  emitters : Nat
  shutDown : Bool
  ready : List Agent
  alarms : List Alarm
  call : HostCall

def timing (r : Relay σ) : Timing :=
  ⟨r.clock, r.emitter, r.emitters, r.shutDown, r.ready, r.alarms, r.call⟩

/-! ## The order of alarms -/

/-- The alarms ring one after the other. -/
abbrev Rings (alarms : List Alarm) : Prop := alarms.Pairwise fun b c => b.time ≤ c.time

theorem mem_insertAlarm {b c : Alarm} {alarms : List Alarm} :
    c ∈ insertAlarm b alarms ↔ c = b ∨ c ∈ alarms := by
  induction alarms with
  | nil => simp [insertAlarm]
  | cons d r ih =>
    unfold insertAlarm
    split
    · rw [List.mem_cons, ih, List.mem_cons, or_left_comm]
    · rw [List.mem_cons]

theorem rings_insertAlarm {alarms : List Alarm} (b : Alarm) (h : Rings alarms) :
    Rings (insertAlarm b alarms) := by
  induction alarms with
  | nil => exact List.pairwise_singleton _ _
  | cons d r ih =>
    obtain ⟨hd, hr⟩ := List.pairwise_cons.1 h
    unfold insertAlarm
    split
    · next hle =>
      refine List.pairwise_cons.2 ⟨fun c hc => ?_, ih hr⟩
      rcases mem_insertAlarm.1 hc with rfl | hc
      · exact hle
      · exact hd c hc
    · next hlt =>
      have hb : b.time ≤ d.time := Nat.le_of_lt (Nat.not_le.1 hlt)
      refine List.pairwise_cons.2 ⟨fun c hc => ?_, h⟩
      rcases List.mem_cons.1 hc with rfl | hc
      · exact hb
      · exact Nat.le_trans hb (hd c hc)

theorem rings_setAlarm (h : Rings r.alarms) (a : Agent) (t : Nat) : Rings (r.setAlarm a t).alarms :=
  rings_insertAlarm _ (h.filter _)

/-- Something happens at the first alarm, if not earlier. -/
theorem le_of_nextTime? (h : Rings r.alarms) {b : Alarm} (hb : b ∈ r.alarms) :
    ∃ t, r.nextTime? = some t ∧ t ≤ b.time := by
  unfold nextTime?
  cases halarms : r.alarms with
  | nil => rw [halarms] at hb; cases hb
  | cons d more =>
    rw [halarms] at h hb
    have hd : d.time ≤ b.time := by
      rcases List.mem_cons.1 hb with rfl | hb
      · exact Nat.le_refl _
      · exact (List.pairwise_cons.1 h).1 b hb
    simp only [List.head?_cons]
    split
    · next hhead _ =>
      cases hhead
      exact ⟨_, rfl, Nat.le_trans (Nat.min_le_left ..) hd⟩
    · next hhead _ =>
      cases hhead
      exact ⟨_, rfl, hd⟩
    · next hhead => cases hhead

/-! ## What spares the emitters -/

/-- The emitters may act as before. -/
structure Spares (q q' : Timing) : Prop where
  clock : q'.clock = q.clock
  emitter : q'.emitter = q.emitter
  emitters : q'.emitters = q.emitters
  shutDown : q'.shutDown = q.shutDown
  ready : ∀ n, .emitter n ∈ q.ready → .emitter n ∈ q'.ready
  alarms : ∀ n t, ⟨t, .emitter n⟩ ∈ q.alarms → ⟨t, .emitter n⟩ ∈ q'.alarms
  rings : Rings q.alarms → Rings q'.alarms
  closing : q'.call = .closing → q.call = .closing

theorem Spares.refl (q : Timing) : Spares q q :=
  ⟨rfl, rfl, rfl, rfl, fun _ => id, fun _ _ => id, id, id⟩

theorem Spares.trans {q q' q'' : Timing} (h : Spares q q') (h' : Spares q' q'') : Spares q q'' where
  clock := h'.clock.trans h.clock
  emitter := h'.emitter.trans h.emitter
  emitters := h'.emitters.trans h.emitters
  shutDown := h'.shutDown.trans h.shutDown
  ready n hn := h'.ready n (h.ready n hn)
  alarms n t hn := h'.alarms n t (h.alarms n t hn)
  rings hq := h'.rings (h.rings hq)
  closing hcall := h.closing (h'.closing hcall)

/-- Who is ready stays so. -/
theorem spares_ready {ready : List Agent} (h : ∀ a ∈ r.ready, a ∈ ready) :
    Spares r.timing { r.timing with ready } :=
  ⟨rfl, rfl, rfl, rfl, fun _ hn => h _ hn, fun _ _ => id, id, id⟩

theorem spares_goOn (r : Relay σ) (a : Agent) : Spares r.timing (r.goOn a).timing :=
  spares_ready fun _ => List.mem_cons_of_mem _

theorem spares_wakeUp (r : Relay σ) (a : Agent) : Spares r.timing (r.wakeUp a).timing :=
  spares_ready fun _ => List.mem_append_left _

theorem spares_setAlarm (r : Relay σ) (ha : ∀ n, a ≠ .emitter n) (t : Nat) :
    Spares r.timing (r.setAlarm a t).timing where
  clock := rfl
  emitter := rfl
  emitters := rfl
  shutDown := rfl
  ready _ := id
  alarms n t' hn := by
    refine mem_insertAlarm.2 (.inr (List.mem_filter.2 ⟨hn, ?_⟩))
    simpa using (ha n).symm
  rings h := rings_setAlarm h a t
  closing := id

theorem spares_call (r : Relay σ) {call : HostCall} (h : (call matches .closing) = false) :
    Spares r.timing { r.timing with call } := by
  refine ⟨rfl, rfl, rfl, rfl, fun _ => id, fun _ _ => id, id, fun hcall => ?_⟩
  have hcall : call = .closing := hcall
  rw [hcall] at h
  cases h

theorem spares_finish (r : Relay σ) (answer : Except Error Unit) :
    Spares r.timing (r.finish answer).timing := spares_call r rfl

theorem spares_release (r : Relay σ) (n : Nat) : Spares r.timing (r.release n).timing := by
  unfold release
  split
  · exact .refl _
  · split
    · exact spares_wakeUp _ _
    · exact .refl _

theorem timing_acquire (r : Relay σ) (n : Nat) (u : User) : (r.acquire n u).2.timing = r.timing := by
  unfold acquire
  split <;> rfl

theorem timing_forward (r : Relay σ) (s : Surroundings) (name : String) (labels : Labels) :
    (r.forward s name labels).timing = r.timing := by
  unfold forward
  split <;> rfl

/-! ## Loops of tasks -/

section

open Schedule

variable (r : Relay σ) (s : Surroundings) (name : String) (lane : Lane Labels Round)
  (p : Plan Labels) (next : Nat)

theorem timing_completeRound : (r.completeRound s name lane p next).timing = r.timing :=
  timing_forward r s name p.work

variable [Collector σ]

theorem spares_beginObservation (registration : Nat) :
    Spares r.timing (r.beginObservation s name lane p next registration).timing := by
  unfold beginObservation
  split
  · rw [timing_completeRound]
    exact spares_release r registration
  · exact .refl _

theorem spares_roundStep (round : Round) :
    Spares r.timing (r.roundStep s name lane p next round).timing := by
  cases round with
  | beginning =>
    unfold roundStep
    cases r.registry.models.get? name with
    | none =>
      refine .trans ?_ (spares_goOn _ _)
      rw [timing_completeRound]
      exact .refl _
    | some m =>
      have hacquire := r.timing_acquire m.registration (.agent (.lane name))
      simp only
      split
      · next q heq =>
        rw [heq] at hacquire
        rw [← hacquire]
        exact (spares_beginObservation q s ..).trans (spares_goOn _ _)
      · next q heq =>
        rw [heq] at hacquire
        rw [← hacquire]
        exact .refl _
  | inLine registration =>
    unfold roundStep
    simp only
    split
    · exact (spares_beginObservation ..).trans (spares_goOn _ _)
    · exact .refl _
  | gathering registration g =>
    obtain ⟨actions, outcome⟩ := g
    cases actions with
    | nil =>
      refine .trans ?_ (spares_goOn _ _)
      rw [timing_completeRound]
      exact spares_release r registration
    | cons action more =>
      cases action with
      | push x => exact spares_ready fun _ => List.mem_cons_of_mem _
      | sleep d =>
        unfold roundStep
        simp only
        split
        · exact spares_ready fun _ => List.mem_cons_of_mem _
        · exact spares_setAlarm _ (by simp) _
  | sleeping registration wake g =>
    unfold roundStep
    simp only
    split
    · exact spares_ready fun _ => List.mem_cons_of_mem _
    · exact .refl _

theorem spares_laneStep : Spares r.timing (r.laneStep s name).timing := by
  unfold laneStep
  simp only
  split
  · exact .refl _
  · split
    · split
      · exact .refl _
      · exact spares_ready fun _ => List.mem_cons_of_mem _
    · split
      · split
        · exact .refl _
        · exact spares_ready fun _ => List.mem_append_left _
      · split
        · exact spares_ready fun _ => List.mem_cons_of_mem _
        · exact spares_setAlarm _ (by simp) _
    · exact spares_roundStep ..

omit [Collector σ] in
theorem spares_drainStep : Spares r.timing (r.drainStep s).timing := by
  unfold drainStep
  split
  · exact spares_ready fun _ => List.mem_cons_of_mem _
  · split
    · exact spares_setAlarm _ (by simp) _
    · exact .refl _

end

/-! ## Calls of the host -/

section

variable (r : Relay σ) (s : Surroundings) (model : String) (registration : Nat)

theorem spares_hostGather (outcome : Outcome) (actions : List Action) :
    Spares r.timing (r.hostGather model registration outcome actions).timing := by
  induction actions generalizing r with
  | nil => exact (spares_release r registration).trans (spares_finish _ _)
  | cons action more ih =>
    cases action with
    | push x => exact ih { r with registry := r.registry.push model registration [x] }
    | sleep d =>
      unfold hostGather
      split
      · exact ih r
      · exact spares_call r rfl

variable {r s model registration}

theorem spares_hostAcquire {free waiting : Nat → Relay σ → Relay σ}
    (hfree : ∀ n q, Spares q.timing (free n q).timing)
    (hwaiting : ∀ n q, Spares q.timing (waiting n q).timing) :
    Spares r.timing (r.hostAcquire model free waiting).timing := by
  unfold hostAcquire
  split
  · exact spares_finish ..
  · next m _ =>
    have hacquire := r.timing_acquire m.registration .host
    split
    · next q heq =>
      rw [heq] at hacquire
      rw [← hacquire]
      exact hfree _ q
    · next q heq =>
      rw [heq] at hacquire
      rw [← hacquire]
      exact hwaiting _ q

variable [Collector σ]

theorem spares_configure (r : Relay σ) (spec : MonitorSpec) (registration : Nat) :
    Spares r.timing (r.configure spec registration).timing := by
  rcases hout : r.registry.initConfig spec.model.name ⟨spec.model.config⟩ with ⟨⟨e⟩ | ⟨⟩, registry⟩
  · rw [configure_of_error hout]
    exact (spares_release { r with registry } registration).trans (spares_finish _ _)
  · rw [configure_of_ok hout]
    refine .trans ?_ (spares_finish _ _)
    exact (spares_release { r with registry } registration).trans
      (spares_wakeUp ({ r with registry }.release registration) (.lane spec.model.name))

theorem spares_hostObserve (r : Relay σ) (s : Surroundings) (model : String) (registration : Nat) :
    Spares r.timing (r.hostObserve s model registration).timing := by
  unfold hostObserve
  split
  · exact (spares_release r registration).trans (spares_finish _ _)
  · next registry _ =>
    exact spares_hostGather { r with registry } ..

omit [Collector σ] in
/-- A shutdown goes on with a task, or with the writer. -/
theorem spares_stopNext (r : Relay σ) (names : List String) :
    Spares r.timing (r.stopNext names).timing ∨ r.stopNext names = r.closeWriter := by
  rcases r.stopNext_cases names with ⟨-, heq⟩ | ⟨_, x, _, _, -, -, -, heq⟩
  · exact .inr heq
  · rw [heq]
    exact .inl ((spares_wakeUp r (.lane x)).trans (spares_call (r.wakeUp (.lane x)) rfl))

/-- What the host asks for spares the emitters, unless it closes the writer. -/
theorem spares_begin (r : Relay σ) (s : Surroundings) (d : Demand) :
    Spares r.timing (r.begin s d).timing ∨ r.begin s d = r.closeWriter := by
  cases d with
  | applyMonitor spec =>
    simp only [Relay.begin]
    exact .inl (spares_hostAcquire (fun n q => spares_configure q spec n) fun _ q =>
      spares_call q rfl)
  | gather model =>
    simp only [Relay.begin]
    exact .inl (spares_hostAcquire (fun n q => spares_hostObserve q s model n) fun _ q =>
      spares_call q rfl)
  | removeMonitor model =>
    rcases r.begin_removeMonitor s model with ⟨-, heq⟩ | ⟨_, -, heq⟩
    · rw [heq]
      exact .inl (spares_call r rfl)
    · rw [heq]
      exact .inl ((spares_wakeUp r (.lane model)).trans (spares_call (r.wakeUp (.lane model)) rfl))
  | shutDown => exact spares_stopNext r _

theorem spares_resume (r : Relay σ) (s : Surroundings) :
    Spares r.timing (r.resume s).timing ∨ r.resume s = r.closeWriter := by
  unfold resume
  split
  · exact .inl (.refl _)
  · exact .inl (spares_configure ..)
  · exact .inl (spares_hostObserve ..)
  · exact .inl (spares_hostGather ..)
  · exact .inl (spares_call r rfl)
  · exact spares_stopNext r _
  · exact .inl (spares_finish ..)

end

end MetricRelay.Relay
