import MetricRelay.Proofs.Schedule.Replacement
import MetricRelay.Proofs.Schedule.Waiting

/-!
# Stopping is final

Once a task has been stopped, nothing starts under its name until a run of it succeeds again, which
takes a new registration (`Steps.quiet`, `Steps.absent`). Its lane leaves, and only the call that has
stopped it waits for the lane (`Spent`), so when that call is over no invocation is in progress. A call
that stops all tasks is over when the table has none of them left (`Emptying`).

Calls may be made while others are under way, a stop while another one waits included. Such a stop finds
no task and is over at once, beside the invocation that the other one waits for
(`repeated_stop_returns_early`).
-/

namespace MetricRelay.Schedule

/-- The call at that place is over. -/
def Session.Returned (s : Session) (i : Nat) : Prop :=
  ∃ p, s.calls[i]? = some p ∧ p.departure? = none

/-- A stop of that name still waits. -/
def Session.Leaving (s : Session) (name : String) : Prop :=
  ∃ d ∈ s.rehearsal.scheduler.leaving, d.name = name ∧ d.lane.isEmpty = false

/-- A call is under way that has stopped the task of that name and waits for its lane. -/
def Session.StopUnderWay (s : Session) (name : String) : Prop :=
  ∃ d ∈ s.rehearsal.scheduler.leaving, d.name = name ∧ ∃ i, s.WaitsAt i d.id

/-- Any call but such. -/
def Without (P : Rehearsal → Call → Prop) (s : Session) (c : Call) : Prop := ¬P s.rehearsal c

namespace Rehearsal

variable {r r' : Rehearsal} {name : String}

/-! ## What can register a name -/

theorem Stopping.get? {a : Answer} {names : List String} {p : Progress}
    (h : Stopping a r names p r') {k : Task Run Job} (hk : r'.scheduler.tasks.get? name = some k) :
    r.scheduler.tasks.get? name = some k ∧ (name ∈ names → name ∈ p.more) := by
  induction h with
  | done => exact ⟨hk, by simp⟩
  | absent hx _ ih =>
    obtain ⟨hk, hmore⟩ := ih hk
    refine ⟨hk, fun hm => ?_⟩
    rcases List.mem_cons.1 hm with rfl | hm
    · rw [hx] at hk
      cases hk
    · exact hmore hm
  | ended hx _ _ ih =>
    obtain ⟨hk, hmore⟩ := ih hk
    rw [depart, Table.get?_erase] at hk
    split at hk
    · cases hk
    · next hne =>
      exact ⟨hk, fun hm => hmore ((List.mem_cons.1 hm).resolve_left hne)⟩
  | waits hx =>
    rw [depart, Table.get?_erase] at hk
    split at hk
    · cases hk
    · next hne => exact ⟨hk, fun hm => (List.mem_cons.1 hm).resolve_left hne⟩

/-- A stop finds no task and changes nothing, or takes out the task it finds. -/
theorem begin_stop_cases (r : Rehearsal) (name : String) :
    (r.scheduler.tasks.get? name = none ∧
      r.begin (.stop name) = (.finished (.stopped false), r)) ∨
    ∃ t p, r.scheduler.tasks.get? name = some t ∧ p.answer = .stopped true ∧ p.more = [] ∧
      r.begin (.stop name) = (p, r.depart name t) := by
  have hs := stopping_stopInTurn (.stopped (r.scheduler.exists? name)) r [name]
  have hbegin : r.begin (.stop name) =
    r.stopInTurn (.stopped (r.scheduler.exists? name)) [name] := rfl
  rw [hbegin]
  generalize r.stopInTurn (.stopped (r.scheduler.exists? name)) [name] = out at hs
  obtain ⟨p, r'⟩ := out
  unfold Scheduler.exists? Table.contains at hs
  simp only at hs
  cases hs with
  | absent hx hs =>
    cases hs
    exact .inl ⟨hx, by rw [hx]; rfl⟩
  | @ended _ _ _ t _ _ hx _ hs =>
    cases hs
    exact .inr ⟨t, _, hx, by rw [hx]; rfl, rfl, rfl⟩
  | @waits _ _ t _ hx => exact .inr ⟨t, _, hx, by rw [hx]; rfl, rfl, rfl⟩

/-- A task in the table was there before, unless it has just been registered or run. -/
theorem begin_get? (c : Call) {k : Task Run Job}
    (hk : (r.begin c).2.scheduler.tasks.get? name = some k) :
    r.scheduler.tasks.get? name = some k ∨ (c = .add name ∧ k.lane.isEmpty = true) ∨
      (r.Runs name c ∧ ∃ t, r.scheduler.tasks.get? name = some t) := by
  cases c with
  | add x =>
    rw [Rehearsal.begin, Scheduler.add, Table.get?_insertNew] at hk
    split at hk
    · next hx =>
      subst hx
      cases hg : r.scheduler.tasks.get? name with
      | none =>
        rw [hg] at hk
        cases hk
        exact .inr (.inl ⟨rfl, rfl⟩)
      | some t =>
        rw [hg] at hk
        exact .inl hk
    · exact .inl hk
  | run x period efforts =>
    rcases r.begin_run_cases x period efforts with ⟨e, he⟩ | ⟨t, p, ht, -, he⟩
    · rw [he] at hk
      exact .inl hk
    · have hdone : r.Runs x (.run x period efforts) := ⟨period, efforts, rfl, by rw [he]; rfl⟩
      rw [he, Table.get?_insert] at hk
      split at hk
      · next hx => exact .inr (.inr ⟨hx ▸ hdone, t, hx ▸ ht⟩)
      · exact .inl hk
  | stop x => exact .inl ((stopping_stopInTurn ..).get? hk).1
  | stopAll => exact .inl ((stopping_stopInTurn ..).get? hk).1

theorem resume_get? (p : Progress) {k : Task Run Job}
    (hk : (r.resume p).2.scheduler.tasks.get? name = some k) :
    r.scheduler.tasks.get? name = some k := by
  rcases r.resume_cases p with hp | ⟨id, more, a, -, -, hs⟩
  · rwa [hp] at hk
  · exact (hs.get? hk).1

/-- A task in the table was there before a move, with loops if it has some now. -/
theorem Move.get? (h : r.Move r') {k : Task Run Job}
    (hk : r'.scheduler.tasks.get? name = some k) :
    ∃ t, r.scheduler.tasks.get? name = some t ∧ (t.lane.isEmpty = true → k.lane.isEmpty = true) := by
  cases h with
  | @task x t now horizon m ht hn hm =>
    rw [withTask, Table.get?_insert] at hk
    split at hk
    · next hx =>
      have hne := (Moment.move_of_step? hm).ne_empty
      refine ⟨t, hx ▸ ht, fun he => ?_⟩
      rw [he] at hne
      cases hne
    · exact ⟨k, hk, id⟩
  | departure | forget | pass => exact ⟨k, hk, id⟩

end Rehearsal

section

variable {allowed : Session → Call → Prop} {s t u : Session} {name : String} {i : Nat}

/-- A task in the table was there before, unless it has just been registered. -/
theorem Step.get? (h : Step allowed s t) {k : Task Run Job}
    (hk : t.rehearsal.scheduler.tasks.get? name = some k) :
    (∃ k, s.rehearsal.scheduler.tasks.get? name = some k) ∨ allowed s (.add name) := by
  cases h with
  | @call c hc =>
    rcases s.rehearsal.begin_get? c hk with hk | ⟨rfl, -⟩ | ⟨-, hk⟩
    · exact .inl ⟨k, hk⟩
    · exact .inr hc
    · exact .inl hk
  | @resume j p => exact .inl ⟨k, s.rehearsal.resume_get? p hk⟩
  | move hm =>
    obtain ⟨t, ht, -⟩ := hm.get? hk
    exact .inl ⟨t, ht⟩

/-! ## Without runs nothing starts -/

/-- Where no loop under a name is alive and no run of it succeeds, nothing starts, and invocations
only end. -/
theorem Steps.quiet (h : Steps (Without (·.Runs name)) s t)
    (hl : s.rehearsal.LiveOnly name fun _ => False) :
    t.rehearsal.LiveOnly name (fun _ => False) ∧ t.starts name = s.starts name ∧
      ∀ n ∈ t.invocations name, n ∈ s.invocations name := by
  induction h with
  | refl => exact ⟨hl, rfl, fun _ hn => hn⟩
  | @tail t u _ hstep ih =>
    obtain ⟨hlive, hstarts, hinv⟩ := ih
    obtain ⟨hlive', hs, hstarts', hok⟩ := hstep.liveOnly (fun _ hc hrun => hc hrun) hlive
    rw [List.eq_nil_iff_forall_not_mem.2 hok, List.append_nil] at hstarts'
    exact ⟨hlive', hstarts'.trans hstarts, fun n hn => hinv n (hstep.mem_invocations hstarts' hn)⟩

/-- A name stays unregistered as long as it is not added, and its runs fail. -/
theorem Steps.absent (h : Steps (Without fun _ c => c = .add name) s t)
    (ha : s.rehearsal.scheduler.tasks.get? name = none) :
    t.rehearsal.scheduler.tasks.get? name = none ∧ Steps (Without (·.Runs name)) s t := by
  induction h with
  | refl => exact ⟨ha, .refl _⟩
  | @tail t u _ hstep ih =>
    obtain ⟨hnone, hsteps⟩ := ih
    have hnone' : u.rehearsal.scheduler.tasks.get? name = none := by
      refine Option.eq_none_iff_forall_ne_some.2 fun k hk => ?_
      rcases hstep.get? hk with ⟨k, hk⟩ | hadd
      · rw [hnone] at hk
        cases hk
      · exact hadd rfl
    refine ⟨hnone', .tail hsteps ?_⟩
    cases hstep with
    | @call c hc =>
      refine .call fun hrun => ?_
      obtain ⟨period, efforts, rfl, hdone⟩ := hrun
      rcases t.rehearsal.begin_run_cases name period efforts with ⟨e, he⟩ | ⟨k, p, hk, -⟩
      · rw [he] at hdone
        cases hdone
      · rw [hnone] at hk
        cases hk
    | resume hp => exact .resume hp
    | move hm => exact .move hm

theorem get?_stop (s : Session) (name : String) :
    (s.call (.stop name)).rehearsal.scheduler.tasks.get? name = none := by
  unfold Session.call
  rcases s.rehearsal.begin_stop_cases name with ⟨hnone, he⟩ | ⟨t, p, -, -, -, he⟩
  · rw [he, hnone]
  · rw [he, Rehearsal.depart, Table.get?_erase_self]

/-! ## The lane of a stopped task -/

/-- The task of that name has no loops, and lanes that leave under the name are waited for by the call
at that place only. -/
structure Spent (name : String) (i : Nat) (s : Session) : Prop where
  idle : ∀ k, s.rehearsal.scheduler.tasks.get? name = some k → k.lane.isEmpty = true
  leaving : ∀ d ∈ s.rehearsal.scheduler.leaving, d.name = name → d.lane.isEmpty = false →
    s.WaitsAt i d.id

theorem Step.spent (h : Step (Without (·.Runs name)) s t) (hs : Spent name i s) :
    Spent name i t where
  idle := by
    intro k hk
    cases h with
    | @call c hc =>
      rcases s.rehearsal.begin_get? c hk with hk | ⟨-, hk⟩ | ⟨hrun, -⟩
      · exact hs.idle k hk
      · exact hk
      · exact absurd hrun hc
    | @resume j p => exact hs.idle k (s.rehearsal.resume_get? p hk)
    | move hm =>
      obtain ⟨t, ht, hempty⟩ := hm.get? hk
      exact hempty (hs.idle t ht)
  leaving := by
    intro d hd hname hne
    rcases h.leaving hd hne with ⟨e, he, hne', hname', hwaits⟩ | ⟨-, k, hk, hne'⟩
    · exact hwaits i (hs.leaving e he (hname'.trans hname) hne')
    · rw [hs.idle k (hname ▸ hk)] at hne'
      cases hne'

theorem Steps.spent (h : Steps (Without (·.Runs name)) s t) (hs : Spent name i s) :
    Spent name i t := by
  induction h with
  | refl => exact hs
  | tail _ hstep ih => exact hstep.spent ih

theorem spent_stop (h : ¬s.Leaving name) : Spent name s.calls.length (s.call (.stop name)) where
  idle := by
    intro k hk
    rw [get?_stop] at hk
    cases hk
  leaving := by
    intro d hd hname hne
    rcases Rehearsal.begin_mem_leaving _ hd hne with hd | ⟨hp, -⟩
    · exact absurd ⟨d, hd, hname, hne⟩ h
    · exact ⟨_, List.getElem?_concat_length, hp⟩

/-- When the call is over, no loop is left under the name. -/
theorem Spent.invocations (hs : Spent name i s) (hr : s.Returned i) : s.invocations name = [] := by
  refine invocations_eq_nil (occupied_eq_zero.2 fun l hl => ?_)
  rcases Scheduler.mem_lanesOf.1 hl with ⟨k, hk, rfl⟩ | ⟨d, hd, hname, rfl⟩
  · exact hs.idle k hk
  · cases hne : d.lane.isEmpty with
    | true => rfl
    | false =>
      obtain ⟨p, hp, hnone⟩ := hr
      obtain ⟨q, hq, hid⟩ := hs.leaving d hd hname hne
      cases hp.symm.trans hq
      rw [hnone] at hid
      cases hid

/-! ## What a call answers -/

/-- The call at that place has or will have that answer, and no task left to stop. -/
def Session.Answers (s : Session) (i : Nat) (a : Answer) : Prop :=
  ∃ p, s.calls[i]? = some p ∧ p.answer = a ∧ p.more = []

theorem Rehearsal.resume_of_more_nil (r : Rehearsal) {p : Progress} (h : p.more = []) :
    (r.resume p).2 = r ∧ (r.resume p).1.answer = p.answer ∧ (r.resume p).1.more = [] := by
  unfold Rehearsal.resume
  cases p with
  | finished a => exact ⟨rfl, rfl, rfl⟩
  | waiting id more a =>
    obtain rfl : more = [] := h
    simp only
    split <;> exact ⟨rfl, rfl, rfl⟩

theorem Step.answers (h : Step allowed s t) {a : Answer} (hs : s.Answers i a) : t.Answers i a := by
  obtain ⟨p, hp, ha, hmore⟩ := hs
  cases h with
  | @call c =>
    have hlt : i < s.calls.length := (List.getElem?_eq_some_iff.1 hp).1
    exact ⟨p, by rw [Session.call, List.getElem?_append_left hlt, hp], ha, hmore⟩
  | @resume j q hq =>
    by_cases hij : j = i
    · subst hij
      cases hp.symm.trans hq
      obtain ⟨-, hanswer, hmore'⟩ := s.rehearsal.resume_of_more_nil hmore
      exact ⟨_, by rw [Session.calls_resume hq, if_pos rfl], hanswer.trans ha, hmore'⟩
    · exact ⟨p, by rw [Session.calls_resume hq, if_neg hij, hp], ha, hmore⟩
  | move => exact ⟨p, hp, ha, hmore⟩

theorem Steps.answers (h : Steps allowed s t) {a : Answer} (hs : s.Answers i a) :
    t.Answers i a := by
  induction h with
  | refl => exact hs
  | tail _ hstep ih => exact hstep.answers ih

/-! ## Stopping all tasks -/

/-- Every task in the table is still to be stopped by the call at that place. -/
def Emptying (i : Nat) (s : Session) : Prop :=
  ∀ x k, s.rehearsal.scheduler.tasks.get? x = some k →
    ∃ p, s.calls[i]? = some p ∧ x ∈ p.more

theorem emptying_stopAll (s : Session) : Emptying s.calls.length (s.call .stopAll) := by
  intro x k hk
  refine ⟨_, List.getElem?_concat_length, ?_⟩
  obtain ⟨hget, hmore⟩ := (Rehearsal.stopping_stopInTurn ..).get? hk
  exact hmore (Table.mem_keys_of_get? hget)

theorem Step.emptying (h : Step (Without fun _ c => ∃ x, c = .add x) s t) (hs : Emptying i s) :
    Emptying i t := by
  intro x k hk
  have hbefore : ∃ k, s.rehearsal.scheduler.tasks.get? x = some k :=
    (h.get? hk).resolve_right fun hadd => hadd ⟨x, rfl⟩
  obtain ⟨k', hk'⟩ := hbefore
  obtain ⟨p, hp, hx⟩ := hs x k' hk'
  cases h with
  | @call c =>
    have hlt : i < s.calls.length := (List.getElem?_eq_some_iff.1 hp).1
    exact ⟨p, by rw [Session.call, List.getElem?_append_left hlt, hp], hx⟩
  | @resume j q hq =>
    by_cases hij : j = i
    · subst hij
      cases hp.symm.trans hq
      rcases s.rehearsal.resume_cases p with hsame | ⟨id, more, a, rfl, -, hstop⟩
      · rw [Session.resume_of_same hq hsame]
        exact ⟨p, hp, hx⟩
      · exact ⟨_, by rw [Session.calls_resume hq, if_pos rfl], (hstop.get? hk).2 hx⟩
    · exact ⟨p, by rw [Session.calls_resume hq, if_neg hij, hp], hx⟩
  | move => exact ⟨p, hp, hx⟩

theorem Steps.emptying (h : Steps (Without fun _ c => ∃ x, c = .add x) s t) (hs : Emptying i s) :
    Emptying i t := by
  induction h with
  | refl => exact hs
  | tail _ hstep ih => exact hstep.emptying ih

theorem Emptying.eq_empty (hs : Emptying i s) (hr : s.Returned i) :
    s.rehearsal.scheduler.tasks = .empty := by
  refine Table.ext_get? fun x => Option.eq_none_iff_forall_ne_some.2 fun k hk => ?_
  obtain ⟨p, hp, hdone⟩ := hr
  obtain ⟨q, hq, hx⟩ := hs x k hk
  cases hp.symm.trans hq
  cases p with
  | finished a => cases hx
  | waiting id more a => cases hdone

theorem Rehearsal.liveOnly_of_absent {r : Rehearsal} {ok : Nat → Prop} (h : r.Dismissed)
    (hn : r.scheduler.tasks.get? name = none) : r.LiveOnly name ok := by
  intro l hl
  rcases Scheduler.mem_lanesOf.1 hl with ⟨k, hk, -⟩ | ⟨d, hd, -, rfl⟩
  · rw [hn] at hk
    cases hk
  · exact (h d hd).liveOnly

/-! ## Stops that are under way -/

theorem stopUnderWay_of_leaving (h : Reachable allowed s) (hl : s.Leaving name) :
    s.StopUnderWay name := by
  obtain ⟨d, hd, hname, hne⟩ := hl
  exact ⟨d, hd, hname, h.waited d hd hne⟩

/-- When no call is under way, no stop is. -/
theorem not_leaving_of_awaited (h : Reachable allowed s) (ha : s.Awaited) : ¬s.Leaving name := by
  intro hl
  obtain ⟨d, -, -, i, p, hp, hid⟩ := stopUnderWay_of_leaving h hl
  rw [ha p (List.mem_of_getElem? hp)] at hid
  cases hid

theorem occupied_leavingOf_of_not_leaving (h : ¬s.Leaving name) :
    occupied (s.rehearsal.scheduler.leavingOf name) = 0 := by
  refine occupied_eq_zero.2 fun l hl => ?_
  obtain ⟨d, hd, rfl⟩ := List.mem_map.1 hl
  obtain ⟨hd, hname⟩ := List.mem_filter.1 hd
  cases he : d.lane.isEmpty with
  | true => rfl
  | false => exact absurd ⟨d, hd, of_decide_eq_true hname, he⟩ h

/-- Without a task, only lanes that leave can have an invocation in progress. -/
theorem leaving_of_invocations (hn : s.rehearsal.scheduler.tasks.get? name = none)
    (hi : s.invocations name ≠ []) : s.Leaving name := by
  refine Classical.byContradiction fun hl => hi (invocations_eq_nil ?_)
  unfold Scheduler.lanesOf
  rw [hn, occupied_append, occupied_leavingOf_of_not_leaving hl]
  rfl

/-! ## Calls come to their end -/

theorem Step.length_calls_le (h : Step allowed s t) : s.calls.length ≤ t.calls.length := by
  cases h with
  | call => simp [Session.call]
  | resume => simp [Session.resume]
  | move => exact Nat.le_refl _

theorem Steps.length_calls_le (h : Steps allowed s t) : s.calls.length ≤ t.calls.length := by
  induction h with
  | refl => exact Nat.le_refl _
  | tail _ hstep ih => exact Nat.le_trans ih hstep.length_calls_le

/-- A call that has been made is over in the end. -/
theorem Reachable.returns (h : Reachable allowed s) {i : Nat} (hi : i < s.calls.length) :
    ∃ t, Steps NoCalls s t ∧ t.Returned i := by
  obtain ⟨t, ht, ha⟩ := h.comes_to_rest
  have hlt : i < t.calls.length := Nat.lt_of_lt_of_le hi ht.length_calls_le
  exact ⟨t, ht, t.calls[i], List.getElem?_eq_getElem hlt, ha _ (List.getElem_mem hlt)⟩

/-- So is the one that has just been made, whatever calls are made after it. -/
theorem Reachable.call_returns (h : Reachable AnyTime s) (c : Call)
    (hu : Steps AnyTime (s.call c) u) : ∃ v, Steps NoCalls u v ∧ v.Returned s.calls.length := by
  have hall : Reachable AnyTime u := (h.call trivial).trans hu
  have hmade : s.calls.length < (s.call c).calls.length := by simp [Session.call]
  exact hall.returns (Nat.lt_of_lt_of_le hmade hu.length_calls_le)

/-! ## What a stop leaves -/

theorem answers_stop (s : Session) (name : String) :
    (s.call (.stop name)).Answers s.calls.length
      (.stopped (s.rehearsal.scheduler.exists? name)) := by
  refine ⟨_, List.getElem?_concat_length, ?_⟩
  unfold Scheduler.exists? Table.contains
  rcases s.rehearsal.begin_stop_cases name with ⟨hnone, he⟩ | ⟨t, p, ht, hp, hmore, he⟩
  · rw [he, hnone]
    exact ⟨rfl, rfl⟩
  · rw [he, ht]
    exact ⟨hp, hmore⟩

/-- Other tasks keep their entries and their loops. -/
theorem stop_frame (s : Session) {name x : String} (hx : x ≠ name) :
    (s.call (.stop name)).rehearsal.scheduler.tasks.get? x = s.rehearsal.scheduler.tasks.get? x ∧
      (s.call (.stop name)).rehearsal.scheduler.lanesOf x = s.rehearsal.scheduler.lanesOf x := by
  unfold Session.call
  rcases s.rehearsal.begin_stop_cases name with ⟨-, he⟩ | ⟨t, p, -, -, -, he⟩
  · rw [he]
    exact ⟨rfl, rfl⟩
  · unfold Scheduler.lanesOf Scheduler.leavingOf
    rw [he, Rehearsal.depart, Table.get?_erase, if_neg hx]
    simp [Ne.symm hx]

/-- A call that stops all tasks leaves none, and nothing to start. -/
theorem Steps.stopAll (h : Reachable AnyTime s) {u : Session}
    (hu : Steps (Without fun _ c => ∃ x, c = .add x) (s.call .stopAll) u)
    (hreturned : u.Returned s.calls.length) :
    u.rehearsal.scheduler.tasks = .empty ∧
      ∀ name v, Steps (Without (·.Runs name)) u v →
        v.starts name = u.starts name ∧ (v.invocations name ≠ [] → u.StopUnderWay name) := by
  have hall : Reachable AnyTime u := (h.call trivial).trans (hu.mono fun _ _ _ => trivial)
  have hempty := (hu.emptying (emptying_stopAll s)).eq_empty hreturned
  have hnone : ∀ name, u.rehearsal.scheduler.tasks.get? name = none := by
    intro name
    rw [hempty, Table.get?_empty]
  refine ⟨hempty, fun name v hv => ?_⟩
  obtain ⟨-, hstarts, hmem⟩ :=
    hv.quiet (Rehearsal.liveOnly_of_absent hall.dismissed (hnone name))
  refine ⟨hstarts, fun hv => stopUnderWay_of_leaving hall ?_⟩
  obtain ⟨n, hn⟩ := List.exists_mem_of_ne_nil _ hv
  exact leaving_of_invocations (hnone name) (List.ne_nil_of_mem (hmem n hn))

end

/-- A stop answers whether the task was there, touches no other task and is over in the end. Nothing
starts under its name until a run of it succeeds again, which takes a new registration; and when the stop
is over no invocation is in progress, if no earlier stop of the name was still waiting. So is a call over
that stops all tasks. If none has been added since, none is left and none starts before a run succeeds;
and an invocation is in progress only under names of which another stop still waits. -/
theorem stop_is_final {s : Session} (h : Reachable AnyTime s) :
    (∀ name,
      (∀ u, Steps AnyTime (s.call (.stop name)) u →
        u.Answers s.calls.length (.stopped (s.rehearsal.scheduler.exists? name)) ∧
        (∀ p, u.calls[s.calls.length]? = some p → (u.rehearsal.resume p).2 = u.rehearsal) ∧
        ∃ v, Steps NoCalls u v ∧ v.Returned s.calls.length) ∧
      (∀ x, x ≠ name →
        (s.call (.stop name)).rehearsal.scheduler.tasks.get? x =
          s.rehearsal.scheduler.tasks.get? x ∧
        (s.call (.stop name)).rehearsal.scheduler.lanesOf x = s.rehearsal.scheduler.lanesOf x) ∧
      (∀ u, Steps (Without (·.Runs name)) (s.call (.stop name)) u →
        u.starts name = s.starts name ∧
        (¬s.Leaving name → u.Returned s.calls.length → u.invocations name = [])) ∧
      ∀ u, Steps (Without fun _ c => c = .add name) (s.call (.stop name)) u →
        Steps (Without (·.Runs name)) (s.call (.stop name)) u ∧
        u.rehearsal.begin (.stop name) = (.finished (.stopped false), u.rehearsal)) ∧
    (∀ u, Steps AnyTime (s.call .stopAll) u →
      ∃ v, Steps NoCalls u v ∧ v.Returned s.calls.length) ∧
    ∀ u, Steps (Without fun _ c => ∃ x, c = .add x) (s.call .stopAll) u →
      u.Returned s.calls.length →
      u.rehearsal.scheduler.tasks = .empty ∧
      ∀ name v, Steps (Without (·.Runs name)) u v →
        v.starts name = u.starts name ∧ (v.invocations name ≠ [] → u.StopUnderWay name) := by
  refine ⟨fun name => ?_, fun u hu => h.call_returns _ hu, fun u hu hr => hu.stopAll h hr⟩
  have hcall : Reachable AnyTime (s.call (.stop name)) := h.call trivial
  refine ⟨fun u hu => ?_, fun x hx => stop_frame s hx, fun u hu => ?_, fun u hu => ?_⟩
  · have hanswers := hu.answers (answers_stop s name)
    refine ⟨hanswers, fun p hp => ?_, h.call_returns _ hu⟩
    obtain ⟨q, hq, -, hmore⟩ := hanswers
    cases hp.symm.trans hq
    exact (u.rehearsal.resume_of_more_nil hmore).1
  · obtain ⟨-, hquiet, -⟩ :=
      hu.quiet (Rehearsal.liveOnly_of_absent hcall.dismissed (get?_stop s name))
    rw [Session.starts_call] at hquiet
    exact ⟨hquiet, fun hn hr => (hu.spent (spent_stop hn)).invocations hr⟩
  · obtain ⟨hnone, hsteps⟩ := hu.absent (get?_stop s name)
    refine ⟨hsteps, ?_⟩
    rcases u.rehearsal.begin_stop_cases name with ⟨-, he⟩ | ⟨t, p, ht, -⟩
    · exact he
    · rw [hnone] at ht
      cases ht

/-- The task of the long invocation is stopped, which takes until its end. -/
def overrunStopped : Session :=
  ((overrun.call (.stop "x")).advance 60).resume 3 (.waiting 0 [] (.stopped true))

theorem overrunStopped_idle :
    overrunStopped.starts "x" = [⟨0, 0, true⟩] ∧ overrunStopped.invocations "x" = [] := by
  have hreach : Reachable AnyTime overrun := Steps.mono (fun _ _ _ => trivial) reachable_overrun
  have hleaving : ¬overrun.Leaving "x" := not_leaving_of_awaited hreach (by decide +kernel)
  obtain ⟨-, -, hfinal, -⟩ := (stop_is_final hreach).1 "x"
  have hwait : Steps (Without (·.Runs "x")) (overrun.call (.stop "x"))
      ((overrun.call (.stop "x")).advance 60) := (Steps.refl _).advance 60 (by decide +kernel)
  have hsteps : Steps (Without (·.Runs "x")) (overrun.call (.stop "x")) overrunStopped :=
    .tail hwait (.resume (by decide +kernel))
  obtain ⟨hstarts, hidle⟩ := hfinal _ hsteps
  have hreturned : overrunStopped.Returned overrun.calls.length :=
    ⟨.finished (.stopped true), by decide +kernel, rfl⟩
  exact ⟨hstarts.trans (by decide +kernel), hidle hleaving hreturned⟩

/-- A stop waits for the end of the long invocation. -/
def overrunStopping : Session := overrun.call (.stop "x")

/-- That a stop is over, of one task or of all, does not mean that no invocation is in progress: while an
earlier stop waits, both are over at once. -/
theorem repeated_stop_returns_early :
    (¬∀ (s : Session) (name : String) (u : Session), Reachable AnyTime s →
      Steps (Without (·.Runs name)) (s.call (.stop name)) u → u.Returned s.calls.length →
      u.invocations name = []) ∧
    ¬∀ s u : Session, Reachable AnyTime s →
      Steps (Without fun _ c => ∃ x, c = .add x) (s.call .stopAll) u →
      u.Returned s.calls.length → ∀ name, u.invocations name = [] := by
  have hreach : Reachable AnyTime overrunStopping :=
    (reachable_overrun.mono fun _ _ _ => trivial).call trivial
  constructor
  · intro hall
    have hreturned : (overrunStopping.call (.stop "x")).Returned overrunStopping.calls.length :=
      ⟨.finished (.stopped false), by decide +kernel, rfl⟩
    have hbusy : (overrunStopping.call (.stop "x")).invocations "x" = [0] := by decide +kernel
    rw [hall overrunStopping "x" _ hreach (.refl _) hreturned] at hbusy
    cases hbusy
  · intro hall
    have hreturned : (overrunStopping.call .stopAll).Returned overrunStopping.calls.length :=
      ⟨.finished .done, by decide +kernel, rfl⟩
    have hbusy : (overrunStopping.call .stopAll).invocations "x" = [0] := by decide +kernel
    rw [hall overrunStopping _ hreach (.refl _) hreturned "x"] at hbusy
    cases hbusy

end MetricRelay.Schedule
