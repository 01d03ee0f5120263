import MetricRelay.Relay.Run

/-!
# What a lane touches

The moves of the loops of a task touch the lane, the model and the last push of that name, and of
what all share the locks, the writer and the agents' order only: `Local`.
-/

namespace MetricRelay

open Schedule

namespace Scheduler

variable {ω β : Type} {s : Scheduler ω β} {name other : String} {lane l : Lane ω β}

/-- A lane is set in place, so that departures are found by their names as before. -/
theorem named_comp_setLane (name other : String) (lane : Lane ω β) :
    ((fun d : Departure ω β => decide (d.name = other)) ∘ fun d =>
      if d.name = name then { d with lane } else d) = fun d => decide (d.name = other) := by
  funext d
  simp only [Function.comp]
  split <;> rfl

theorem lane?_setLane_self (h : s.lane? name = some l) :
    (s.setLane name lane).lane? name = some lane := by
  unfold lane? at h
  cases ht : s.tasks.get? name with
  | some t =>
    have hthere : s.exists? name = true := by rw [exists?, Table.contains, ht, Option.isSome_some]
    rw [setLane, if_pos hthere, lane?, Table.get?_modify, if_pos rfl, ht]
    rfl
  | none =>
    have hgone : ¬s.exists? name = true := by
      rw [exists?, Table.contains, ht]
      exact Bool.false_ne_true
    rw [ht, Option.map_none, Option.none_or, Option.map_eq_some_iff] at h
    obtain ⟨d, hd, -⟩ := h
    have hname : d.name = name := by simpa using List.find?_some hd
    rw [setLane, if_neg hgone, lane?, ht, Option.map_none, Option.none_or, List.find?_map,
      named_comp_setLane, hd, Option.map_some, Option.map_some, if_pos hname]

theorem lane?_setLane_of_ne (hne : other ≠ name) :
    (s.setLane name lane).lane? other = s.lane? other := by
  unfold setLane
  split
  · rw [lane?, Table.get?_modify, if_neg hne]
    rfl
  · rw [lane?, List.find?_map, named_comp_setLane, lane?]
    cases hd : s.leaving.find? fun d => decide (d.name = other) with
    | none => rfl
    | some d =>
      have hname : d.name = other := by simpa using List.find?_some hd
      rw [Option.map_some, Option.map_some, Option.map_some, if_neg (hname ▸ hne)]

theorem lane?_setLane (h : s.lane? name = some l) (lane : Lane ω β) (x : String) :
    (s.setLane name lane).lane? x = if x = name then some lane else s.lane? x := by
  split
  · next hx => rw [hx, lane?_setLane_self h]
  · next hx => exact lane?_setLane_of_ne hx

theorem get?_setLane (s : Scheduler ω β) (name : String) (lane : Lane ω β) (x : String) :
    (s.setLane name lane).tasks.get? x =
      if x = name then (s.tasks.get? x).map fun t => { t with lane } else s.tasks.get? x := by
  unfold setLane
  split
  · exact Table.get?_modify ..
  · next hgone =>
    split
    · next hx =>
      rw [exists?, Table.contains, Option.not_isSome_iff_eq_none] at hgone
      rw [hx, hgone]
      rfl
    · rfl

end Scheduler

namespace Relay

variable {σ : Type} {name : String} {r r' r'' : Relay σ}

/-- What a move of the loops of a task leaves alone. -/
structure Local (name : String) (r r' : Relay σ) : Prop where
  clock : r'.clock = r.clock
  normalizer : r'.normalizer = r.normalizer
  call : r'.call = r.call
  models : ∀ other ≠ name, r'.registry.models.get? other = r.registry.models.get? other
  lanes : ∀ other ≠ name, r'.scheduler.lane? other = r.scheduler.lane? other
  pushes : ∀ other ≠ name, r'.lastPush.get? other = r.lastPush.get? other

theorem Local.refl : Local name r r :=
  ⟨rfl, rfl, rfl, fun _ _ => rfl, fun _ _ => rfl, fun _ _ => rfl⟩

theorem Local.trans (h : Local name r r') (h' : Local name r' r'') : Local name r r'' where
  clock := h'.clock.trans h.clock
  normalizer := h'.normalizer.trans h.normalizer
  call := h'.call.trans h.call
  models other hne := (h'.models other hne).trans (h.models other hne)
  lanes other hne := (h'.lanes other hne).trans (h.lanes other hne)
  pushes other hne := (h'.pushes other hne).trans (h.pushes other hne)

/-- A move that also leaves the writer alone, and all last pushes. -/
structure Quiet (name : String) (r r' : Relay σ) : Prop extends Local name r r' where
  writer : r'.writer = r.writer
  lastPush : r'.lastPush = r.lastPush

theorem Quiet.refl : Quiet name r r := ⟨.refl, rfl, rfl⟩

theorem Quiet.trans (h : Quiet name r r') (h' : Quiet name r' r'') : Quiet name r r'' :=
  ⟨h.toLocal.trans h'.toLocal, h'.writer.trans h.writer, h'.lastPush.trans h.lastPush⟩

/-- A move that has nothing to do with any task. -/
structure Apart (r r' : Relay σ) : Prop where
  clock : r'.clock = r.clock
  normalizer : r'.normalizer = r.normalizer
  call : r'.call = r.call
  registry : r'.registry = r.registry
  scheduler : r'.scheduler = r.scheduler
  lastPush : r'.lastPush = r.lastPush

/-- A move that changes at most who has or awaits a collector, and who acts when. -/
structure Idle (r r' : Relay σ) : Prop extends Apart r r' where
  writer : r'.writer = r.writer

theorem Idle.quiet (h : Idle r r') : Quiet name r r' where
  clock := h.clock
  normalizer := h.normalizer
  call := h.call
  models _ _ := by rw [h.registry]
  lanes _ _ := by rw [h.scheduler]
  pushes _ _ := by rw [h.lastPush]
  writer := h.writer
  lastPush := h.lastPush

theorem idle_acquire (r : Relay σ) (registration : Nat) (u : User) :
    Idle r (r.acquire registration u).2 := by
  unfold acquire
  split <;> exact ⟨⟨rfl, rfl, rfl, rfl, rfl, rfl⟩, rfl⟩

theorem idle_release (r : Relay σ) (registration : Nat) : Idle r (r.release registration) := by
  unfold release
  split
  · exact ⟨⟨rfl, rfl, rfl, rfl, rfl, rfl⟩, rfl⟩
  · split <;> exact ⟨⟨rfl, rfl, rfl, rfl, rfl, rfl⟩, rfl⟩

theorem idle_ready (r : Relay σ) (ready : List Agent) : Idle r { r with ready } :=
  ⟨⟨rfl, rfl, rfl, rfl, rfl, rfl⟩, rfl⟩

theorem idle_goOn (r : Relay σ) (a : Agent) : Idle r (r.goOn a) :=
  ⟨⟨rfl, rfl, rfl, rfl, rfl, rfl⟩, rfl⟩

theorem idle_wakeUp (r : Relay σ) (a : Agent) : Idle r (r.wakeUp a) :=
  ⟨⟨rfl, rfl, rfl, rfl, rfl, rfl⟩, rfl⟩

theorem idle_setAlarm (r : Relay σ) (a : Agent) (time : Nat) : Idle r (r.setAlarm a time) :=
  ⟨⟨rfl, rfl, rfl, rfl, rfl, rfl⟩, rfl⟩

theorem quiet_setLane (r : Relay σ) (name : String) (lane : Lane Labels Round) :
    Quiet name r (r.setLane name lane) where
  clock := rfl
  normalizer := rfl
  call := rfl
  models _ _ := rfl
  lanes _ hne := Scheduler.lane?_setLane_of_ne hne
  pushes _ _ := rfl
  writer := rfl
  lastPush := rfl

/-- A change of the model of that name. -/
theorem quiet_registry (r : Relay σ) {registry : Registry σ}
    (h : ∀ other ≠ name, registry.models.get? other = r.registry.models.get? other) :
    Quiet name r { r with registry } where
  clock := rfl
  normalizer := rfl
  call := rfl
  models := h
  lanes _ _ := rfl
  pushes _ _ := rfl
  writer := rfl
  lastPush := rfl

theorem quiet_push (r : Relay σ) (name : String) (registration : Nat) (samples : List Sample) :
    Quiet name r { r with registry := r.registry.push name registration samples } :=
  quiet_registry r fun _ hne => by rw [Registry.push, Table.get?_modify, if_neg hne]

theorem local_forward (r : Relay σ) (s : Surroundings) (name : String) (labels : Labels) :
    Local name r (r.forward s name labels) := by
  unfold forward
  split
  · exact .refl
  · exact ⟨rfl, rfl, rfl, fun _ hne => by simp only [Table.get?_insert, if_neg hne],
      fun _ _ => rfl, fun _ _ => rfl⟩

section

variable (r : Relay σ) (s : Surroundings) (name : String) (lane : Lane Labels Round)
  (p : Plan Labels) (next : Nat)

theorem local_completeRound : Local name r (r.completeRound s name lane p next) := by
  have hlane := (local_forward r s name p.work).trans (quiet_setLane _ name
    { lane with current := some ⟨p, .waiting next⟩ }).toLocal
  exact ⟨hlane.clock, hlane.normalizer, hlane.call, hlane.models, hlane.lanes, fun other hne => by
    show ((r.forward s name p.work).lastPush.insert name _).get? other = _
    rw [Table.get?_insert, if_neg hne, (local_forward r s name p.work).pushes other hne]⟩

variable [Collector σ]

theorem local_beginObservation (registration : Nat) :
    Local name r (r.beginObservation s name lane p next registration) := by
  unfold beginObservation Registry.beginGather Registry.withModel
  cases r.registry.models.get? name with
  | none => exact (idle_release r registration).quiet.toLocal.trans (local_completeRound ..)
  | some m =>
    refine ((quiet_registry r ?_).trans (quiet_setLane _ name _)).toLocal
    intro other hne
    rw [Table.get?_insert, if_neg hne]

theorem local_roundStep (round : Round) : Local name r (r.roundStep s name lane p next round) := by
  cases round with
  | beginning =>
    unfold roundStep
    cases hm : r.registry.models.get? name with
    | none => exact (local_completeRound r s name lane p next).trans (idle_goOn _ _).quiet.toLocal
    | some m =>
      have hacquire : Quiet name r _ :=
        (idle_acquire r m.registration (.agent (.lane name))).quiet
      simp only
      split
      · next r' heq =>
        rw [heq] at hacquire
        exact (hacquire.toLocal.trans (local_beginObservation ..)).trans
          (idle_goOn _ _).quiet.toLocal
      · next r' heq =>
        rw [heq] at hacquire
        exact (hacquire.trans (quiet_setLane ..)).toLocal
  | inLine registration =>
    unfold roundStep
    simp only
    split
    · exact (local_beginObservation ..).trans (idle_goOn _ _).quiet.toLocal
    · exact .refl
  | gathering registration g =>
    obtain ⟨actions, outcome⟩ := g
    cases actions with
    | nil =>
      exact ((idle_release r registration).quiet.toLocal.trans (local_completeRound ..)).trans
        (idle_goOn _ _).quiet.toLocal
    | cons action more =>
      cases action with
      | push x =>
        exact (((quiet_push r name registration [x]).trans (quiet_setLane ..)).trans
          (idle_goOn _ _).quiet).toLocal
      | sleep d =>
        unfold roundStep
        simp only
        split
        · exact ((quiet_setLane ..).trans (idle_goOn _ _).quiet).toLocal
        · exact ((quiet_setLane ..).trans (idle_setAlarm ..).quiet).toLocal
  | sleeping registration wake g =>
    unfold roundStep
    simp only
    split
    · exact ((quiet_setLane ..).trans (idle_goOn _ _).quiet).toLocal
    · exact .refl

theorem local_laneStep : Local name r (r.laneStep s name) := by
  unfold laneStep
  simp only
  split
  · exact .refl
  · split
    · split
      · exact .refl
      · exact ((quiet_setLane ..).trans (idle_goOn _ _).quiet).toLocal
    · split
      · split
        · exact (quiet_setLane ..).toLocal
        · exact ((quiet_setLane ..).trans (idle_wakeUp _ _).quiet).toLocal
      · split
        · exact ((quiet_setLane ..).trans (idle_goOn _ _).quiet).toLocal
        · exact (idle_setAlarm ..).quiet.toLocal
    · exact local_roundStep ..

end

end Relay

end MetricRelay
