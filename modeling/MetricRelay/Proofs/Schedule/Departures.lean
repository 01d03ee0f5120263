import MetricRelay.Proofs.Schedule.Names

/-!
# Lanes that leave

The loops of a lane that leaves are all cancelled (`Reachable.dismissed`), and while there are any a
call waits for the lane: from the moment its task is stopped until its last loop has ended
(`Step.leaving`, `Reachable.waited`).
-/

namespace MetricRelay.Schedule

/-- The call at that place waits for that departure. -/
def Session.WaitsAt (s : Session) (i id : Nat) : Prop :=
  ∃ p, s.calls[i]? = some p ∧ p.departure? = some id

/-- Every lane that leaves with loops in it is waited for. -/
def Session.Waited (s : Session) : Prop :=
  ∀ d ∈ s.rehearsal.scheduler.leaving, d.lane.isEmpty = false → ∃ i, s.WaitsAt i d.id

namespace Rehearsal

variable {r r' : Rehearsal}

/-- The loops of every lane that leaves are cancelled. -/
def Dismissed (r : Rehearsal) : Prop := ∀ d ∈ r.scheduler.leaving, d.lane.Cancelled

/-- What a move of a lane keeps, all lanes that leave keep. -/
theorem Move.forall_leaving {P : String → TimedLane → Prop} (hm : r.Move r')
    (hP : ∀ name m horizon m', Moment.Move horizon m m' → P name m.lane → P name m'.lane)
    (h : ∀ d ∈ r.scheduler.leaving, P d.name d.lane) :
    ∀ d ∈ r'.scheduler.leaving, P d.name d.lane := by
  intro d hd
  cases hm with
  | task | pass => exact h d hd
  | forget => exact h d (List.mem_filter.1 hd).1
  | @departure before after e now horizon m hl hn hm =>
    have hold : ∀ a ∈ before ++ e :: after, P a.name a.lane := hl ▸ h
    rcases List.mem_append.1 hd with hd | hd
    · exact hold d (List.mem_append_left _ hd)
    · rcases List.mem_cons.1 hd with rfl | hd
      · exact hP e.name _ horizon m (Moment.move_of_step? hm) (hold e (by simp))
      · exact hold d (by simp [hd])

theorem Dismissed.move (h : r.Dismissed) (hm : r.Move r') : r'.Dismissed :=
  hm.forall_leaving (P := fun _ l => l.Cancelled)
    (fun _ _ _ _ hmove hc => (hmove.liveOnly hc.liveOnly).cancelled) h

theorem Dismissed.stopping (h : r.Dismissed) {a : Answer} {names : List String} {p : Progress}
    (hs : Stopping a r names p r') : r'.Dismissed := by
  refine hs.induct (P := Dismissed) (fun r name t _ hr d hd => ?_) h
  rcases List.mem_append.1 hd with hd | hd
  · exact hr d hd
  · rw [List.mem_singleton.1 hd]
    exact t.lane.cancelled_cancel

theorem leaving_run (r : Rehearsal) (name : String) (period : Duration) (efforts : List Effort) :
    (r.begin (.run name period efforts)).2.scheduler.leaving = r.scheduler.leaving := by
  rcases r.begin_run_cases name period efforts with ⟨e, he⟩ | ⟨t, p, -, -, he⟩ <;> rw [he]

theorem Dismissed.begin (h : r.Dismissed) (c : Call) : (r.begin c).2.Dismissed := by
  cases c with
  | add => exact h
  | run name period efforts =>
    intro d hd
    rw [leaving_run] at hd
    exact h d hd
  | stop name => exact h.stopping (stopping_stopInTurn ..)
  | stopAll => exact h.stopping (stopping_stopInTurn ..)

theorem Dismissed.resume (h : r.Dismissed) (p : Progress) : (r.resume p).2.Dismissed := by
  rcases r.resume_cases p with hp | ⟨id, more, a, -, -, hs⟩
  · rw [hp]
    exact h
  · exact h.stopping hs

/-! ## Who waits for them -/

/-- A lane that leaves after a move was leaving before it. -/
theorem Move.mem_leaving (h : r.Move r') {d : Departure Run Job}
    (hd : d ∈ r'.scheduler.leaving) (hne : d.lane.isEmpty = false) :
    ∃ e ∈ r.scheduler.leaving, e.lane.isEmpty = false ∧ e.id = d.id ∧ e.name = d.name := by
  cases h with
  | task | pass => exact ⟨d, hd, hne, rfl, rfl⟩
  | forget => exact ⟨d, (List.mem_filter.1 hd).1, hne, rfl, rfl⟩
  | @departure before after e now horizon m hl hn hm =>
    rw [hl]
    rcases List.mem_append.1 hd with hd | hd
    · exact ⟨d, List.mem_append_left _ hd, hne, rfl, rfl⟩
    · rcases List.mem_cons.1 hd with rfl | hd
      · have hmove := Moment.move_of_step? hm
        exact ⟨e, List.mem_append_right _ List.mem_cons_self, hmove.ne_empty, rfl, rfl⟩
      · exact ⟨d, List.mem_append_right _ (List.mem_cons_of_mem _ hd), hne, rfl, rfl⟩

/-- A lane that leaves after tasks were stopped left before, or is the one that the call waits for. -/
theorem Stopping.mem_leaving {a : Answer} {names : List String} {p : Progress}
    (h : Stopping a r names p r') {d : Departure Run Job} (hd : d ∈ r'.scheduler.leaving)
    (hne : d.lane.isEmpty = false) :
    d ∈ r.scheduler.leaving ∨ (p.departure? = some d.id ∧
      ∃ t, r.scheduler.tasks.get? d.name = some t ∧ t.lane.isEmpty = false) := by
  induction h with
  | done => exact .inl hd
  | absent _ _ ih => exact ih hd
  | @ended r r' name t more p ht hempty _ ih =>
    rcases ih hd with hd | ⟨hp, t', ht', hne'⟩
    · rcases List.mem_append.1 hd with hd | hd
      · exact .inl hd
      · rw [List.mem_singleton.1 hd, Lane.isEmpty_cancel, hempty] at hne
        cases hne
    · rw [depart, Table.get?_erase] at ht'
      split at ht'
      · cases ht'
      · exact .inr ⟨hp, t', ht', hne'⟩
  | @waits r name t more ht =>
    rcases List.mem_append.1 hd with hd | hd
    · exact .inl hd
    · rw [List.mem_singleton.1 hd] at hne ⊢
      rw [Lane.isEmpty_cancel] at hne
      exact .inr ⟨rfl, t, ht, hne⟩

/-- The same of a call. -/
theorem begin_mem_leaving (c : Call) {d : Departure Run Job}
    (hd : d ∈ (r.begin c).2.scheduler.leaving) (hne : d.lane.isEmpty = false) :
    d ∈ r.scheduler.leaving ∨ ((r.begin c).1.departure? = some d.id ∧
      ∃ t, r.scheduler.tasks.get? d.name = some t ∧ t.lane.isEmpty = false) := by
  cases c with
  | add => exact .inl hd
  | run name period efforts =>
    rw [leaving_run] at hd
    exact .inl hd
  | stop name => exact (stopping_stopInTurn ..).mem_leaving hd hne
  | stopAll => exact (stopping_stopInTurn ..).mem_leaving hd hne

end Rehearsal

section

variable {allowed : Session → Call → Prop} {s t : Session} {i id : Nat}

theorem Reachable.dismissed (h : Reachable allowed s) : s.rehearsal.Dismissed := by
  induction h with
  | refl => exact fun d hd => by cases hd
  | tail _ hstep ih =>
    cases hstep with
    | call => exact ih.begin _
    | @resume i p => exact ih.resume p
    | move hm => exact ih.move hm

theorem Session.WaitsAt.call (h : s.WaitsAt i id) (c : Call) : (s.call c).WaitsAt i id := by
  obtain ⟨p, hp, hid⟩ := h
  have hlt : i < s.calls.length := (List.getElem?_eq_some_iff.1 hp).1
  exact ⟨p, by rw [Session.call, List.getElem?_append_left hlt, hp], hid⟩

theorem Session.resume_of_same {p : Progress} (hp : s.calls[i]? = some p)
    (h : s.rehearsal.resume p = (p, s.rehearsal)) : s.resume i p = s := by
  have hset : s.calls.set i p = s.calls := by
    obtain ⟨hlt, rfl⟩ := List.getElem?_eq_some_iff.1 hp
    exact List.set_getElem_self hlt
  unfold Session.resume
  rw [h, hset]

theorem Session.calls_resume {p : Progress} (hp : s.calls[i]? = some p) (j : Nat) :
    (s.resume i p).calls[j]? = if i = j then some (s.rehearsal.resume p).1 else s.calls[j]? := by
  have hlt : i < s.calls.length := (List.getElem?_eq_some_iff.1 hp).1
  unfold Session.resume
  rw [List.getElem?_set, if_pos hlt]

/-- A lane that leaves with loops in it was leaving before, and is still waited for by whoever did;
or its task has just been stopped, by a call that now waits for it. -/
theorem Step.leaving (h : Step allowed s t) {d : Departure Run Job}
    (hd : d ∈ t.rehearsal.scheduler.leaving) (hne : d.lane.isEmpty = false) :
    (∃ e ∈ s.rehearsal.scheduler.leaving, e.lane.isEmpty = false ∧ e.name = d.name ∧
      ∀ i, s.WaitsAt i e.id → t.WaitsAt i d.id) ∨
    ((∃ i, t.WaitsAt i d.id) ∧
      ∃ k, s.rehearsal.scheduler.tasks.get? d.name = some k ∧ k.lane.isEmpty = false) := by
  cases h with
  | @call c =>
    rcases Rehearsal.begin_mem_leaving c hd hne with hd | ⟨hp, hk⟩
    · exact .inl ⟨d, hd, hne, rfl, fun i hi => hi.call c⟩
    · refine .inr ⟨⟨s.calls.length, _, ?_, hp⟩, hk⟩
      rw [Session.call, List.getElem?_concat_length]
  | @resume j p hp =>
    rcases s.rehearsal.resume_cases p with hsame | ⟨id, more, a, rfl, hleft, hs⟩
    · rw [Session.resume_of_same hp hsame] at hd ⊢
      exact .inl ⟨d, hd, hne, rfl, fun i hi => hi⟩
    · rcases hs.mem_leaving hd hne with hold | ⟨hp', hk⟩
      · refine .inl ⟨d, hold, hne, rfl, fun i ⟨q, hq, hid⟩ => ⟨q, ?_, hid⟩⟩
        rw [Session.calls_resume hp, if_neg, hq]
        rintro rfl
        cases hp.symm.trans hq
        cases hid
        rw [Rehearsal.hasLeft_iff.1 hleft d hold rfl] at hne
        cases hne
      · refine .inr ⟨⟨j, _, ?_, hp'⟩, hk⟩
        rw [Session.calls_resume hp, if_pos rfl]
  | move hm =>
    obtain ⟨e, he, hne', hid, hname⟩ := hm.mem_leaving hd hne
    exact .inl ⟨e, he, hne', hname, fun i hi => hid ▸ hi⟩

theorem Step.waited (h : Step allowed s t) (hs : s.Waited) : t.Waited := by
  intro d hd hne
  rcases h.leaving hd hne with ⟨e, he, hne', -, hwaits⟩ | ⟨hwaits, -⟩
  · obtain ⟨i, hi⟩ := hs e he hne'
    exact ⟨i, hwaits i hi⟩
  · exact hwaits

theorem Steps.waited (h : Steps allowed s t) (hs : s.Waited) : t.Waited := by
  induction h with
  | refl => exact hs
  | tail _ hstep ih => exact hstep.waited ih

theorem Reachable.waited (h : Reachable allowed s) : s.Waited := by
  refine Steps.waited h fun d hd => ?_
  cases hd

/-- When every call is over, no lane that leaves has loops in it. -/
theorem Session.Waited.isEmpty (h : s.Waited) (ha : s.Awaited) :
    ∀ d ∈ s.rehearsal.scheduler.leaving, d.lane.isEmpty = true := by
  intro d hd
  cases he : d.lane.isEmpty with
  | true => rfl
  | false =>
    obtain ⟨i, p, hp, hid⟩ := h d hd he
    rw [ha p (List.mem_of_getElem? hp)] at hid
    cases hid

end

end MetricRelay.Schedule
