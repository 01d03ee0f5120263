import MetricRelay.Proofs.Schedule.Session

/-!
# The lanes under a name

A move is a move of one lane, and what happens in it is written down under its name
(`Rehearsal.Move.at_name`). Calls start nothing: they cancel lanes, and a run that succeeds adds one
loop of its number. So invocations are started by loops that are not cancelled, and which these can be
is known after each step (`Steps.liveOnly`).
-/

namespace MetricRelay

open Schedule

namespace Scheduler

variable {ω β : Type} {s : Scheduler ω β} {name : String} {l : Lane ω β}

theorem mem_lanesOf : l ∈ s.lanesOf name ↔
    (∃ t, s.tasks.get? name = some t ∧ t.lane = l) ∨
      ∃ d ∈ s.leaving, d.name = name ∧ d.lane = l := by
  unfold lanesOf leavingOf
  cases s.tasks.get? name <;> simp [eq_comm, and_assoc]

/-! ## What calls make of the lanes -/

theorem mem_lanesOf_add {x : String} (h : l ∈ (s.add x).lanesOf name) :
    l ∈ s.lanesOf name ∨ l.isEmpty = true := by
  rcases mem_lanesOf.1 h with ⟨t, ht, rfl⟩ | hd
  · rw [add, Table.get?_insertNew] at ht
    split at ht
    · next hx =>
      cases hg : s.tasks.get? x with
      | none => rw [hg] at ht; cases ht; exact .inr rfl
      | some t' =>
        rw [hg] at ht
        cases ht
        exact .inl (mem_lanesOf.2 (.inl ⟨_, hx ▸ hg, rfl⟩))
    · exact .inl (mem_lanesOf.2 (.inl ⟨t, ht, rfl⟩))
  · exact .inl (mem_lanesOf.2 (.inr hd))

/-- A run fails and changes nothing, or replaces the loops of its task. -/
theorem run_cases (s : Scheduler ω β) (x : String) (period : Duration) (work : ω) :
    (∃ e, s.run x period work = (.error e, s)) ∨
    ∃ t p, s.tasks.get? x = some t ∧ p.work = work ∧
      s.run x period work = (.ok (), { s with
        tasks := s.tasks.insert x { period := some period, lane := t.lane.replace p } }) := by
  unfold run
  split
  · cases ht : s.tasks.get? x with
    | none => exact .inl ⟨_, rfl⟩
    | some t => exact .inr ⟨t, _, rfl, rfl, rfl⟩
  · exact .inl ⟨_, rfl⟩

theorem mem_lanesOf_insert {x : String} {k : Task ω β}
    (h : l ∈ ({ s with tasks := s.tasks.insert x k } : Scheduler ω β).lanesOf name) :
    l ∈ s.lanesOf name ∨ (x = name ∧ l = k.lane) := by
  rcases mem_lanesOf.1 h with ⟨t, ht, rfl⟩ | hd
  · rw [Table.get?_insert] at ht
    split at ht
    · next hx => cases ht; exact .inr ⟨hx.symm, rfl⟩
    · exact .inl (mem_lanesOf.2 (.inl ⟨t, ht, rfl⟩))
  · exact .inl (mem_lanesOf.2 (.inr hd))

end Scheduler

namespace Schedule

namespace Rehearsal

variable {r r' : Rehearsal} {name : String}

/-! ## What a move is to a name -/

theorem happenings_append (r r' : Rehearsal) (name : String) {x : String} {hs : List Happening}
    (h : r'.events = r.events ++ hs.map (TaskEvent.mk x)) :
    r'.happenings name = r.happenings name ++ if x = name then hs else [] := by
  unfold happenings
  rw [h, List.filter_append, List.map_append]
  congr 1
  split
  · next hx => simp [hx, List.filter_map, Function.comp_def]
  · next hx => simp [hx, List.filter_map, Function.comp_def]

/-- Under a name nothing happens, but that lanes are forgotten; or one lane moves. -/
theorem Move.at_name (h : r.Move r') (name : String) :
    ((r'.scheduler.lanesOf name).Sublist (r.scheduler.lanesOf name) ∧
      r'.happenings name = r.happenings name) ∨
    ∃ before l after now horizon m,
      (Moment.mk now l []).Move horizon m ∧
      r.scheduler.lanesOf name = before ++ l :: after ∧
      r'.scheduler.lanesOf name = before ++ m.lane :: after ∧
      r'.happenings name = r.happenings name ++ m.past.reverse := by
  cases h with
  | @task x t now horizon m ht hn hm =>
    have hh := happenings_append r (r.withTask x t m.lane m.past.reverse) name rfl
    by_cases hx : x = name
    · subst hx
      rw [if_pos rfl] at hh
      refine .inr ⟨[], t.lane, r.scheduler.leavingOf x,
        now, horizon, m, Moment.move_of_step? hm, ?_, ?_, hh⟩
      · unfold Scheduler.lanesOf
        rw [ht]
        rfl
      · unfold Scheduler.lanesOf withTask
        rw [Table.get?_insert_self]
        rfl
    · rw [if_neg hx, List.append_nil] at hh
      refine .inl ⟨?_, hh⟩
      unfold Scheduler.lanesOf withTask
      rw [Table.get?_insert, if_neg (Ne.symm hx)]
      exact List.Sublist.refl _
  | @departure before after d now horizon m hl hn hm =>
    have hh := happenings_append r (r.withDeparture before d after m.lane m.past.reverse) name rfl
    by_cases hx : d.name = name
    · rw [if_pos hx] at hh
      refine .inr ⟨((r.scheduler.tasks.get? name).map Task.lane).toList ++
          (before.filter fun d => d.name = name).map Departure.lane, d.lane,
        (after.filter fun d => d.name = name).map Departure.lane,
        now, horizon, m, Moment.move_of_step? hm, ?_, ?_, hh⟩
      · unfold Scheduler.lanesOf Scheduler.leavingOf
        simp [hl, hx]
      · unfold Scheduler.lanesOf Scheduler.leavingOf withDeparture
        simp [hx]
    · rw [if_neg hx, List.append_nil] at hh
      refine .inl ⟨?_, hh⟩
      unfold Scheduler.lanesOf Scheduler.leavingOf withDeparture
      simp [hl, hx]
  | forget =>
    refine .inl ⟨?_, rfl⟩
    unfold Scheduler.lanesOf Scheduler.leavingOf Scheduler.forgetEnded
    exact (List.Sublist.refl _).append ((List.filter_sublist.filter _).map _)
  | pass => exact .inl ⟨List.Sublist.refl _, rfl⟩

/-! ## What a call is to a name -/

/-- That a call is a run of that name which succeeds. -/
def Runs (r : Rehearsal) (name : String) (c : Call) : Prop :=
  ∃ period efforts, c = .run name period efforts ∧ (r.begin c).1.answer = .done

/-- The part of a rehearsal that stopping leaves alone. -/
def SameTrace (r r' : Rehearsal) : Prop :=
  r'.events = r.events ∧ r'.now = r.now ∧ r'.runs = r.runs

theorem Stopping.sameTrace {a : Answer} {names : List String} {p : Progress}
    (h : Stopping a r names p r') : r.SameTrace r' :=
  h.induct (fun _ _ _ _ h => h) ⟨rfl, rfl, rfl⟩

theorem sameTrace_resume (r : Rehearsal) (p : Progress) : r.SameTrace (r.resume p).2 := by
  rcases r.resume_cases p with h | ⟨id, more, a, -, -, h⟩
  · rw [h]
    exact ⟨rfl, rfl, rfl⟩
  · exact h.sameTrace

theorem events_begin (r : Rehearsal) (c : Call) : (r.begin c).2.events = r.events := by
  cases c with
  | add => rfl
  | run => rfl
  | stop name => exact (stopping_stopInTurn ..).sameTrace.1
  | stopAll => exact (stopping_stopInTurn ..).sameTrace.1

/-- A run fails and only counts, or replaces the loops of its task by one of its number. -/
theorem begin_run_cases (r : Rehearsal) (x : String) (period : Duration) (efforts : List Effort) :
    (∃ e, r.begin (.run x period efforts) =
      (.finished (.failed e), { r with runs := r.runs + 1 })) ∨
    ∃ t p, r.scheduler.tasks.get? x = some t ∧ p.work.number = r.runs ∧
      r.begin (.run x period efforts) = (.finished .done, { r with
        scheduler := { r.scheduler with
          tasks := r.scheduler.tasks.insert x
            { period := some period, lane := t.lane.replace p } }
        runs := r.runs + 1 }) := by
  rcases r.scheduler.run_cases x period ⟨r.runs, efforts, 0⟩ with ⟨e, he⟩ | ⟨t, p, ht, hp, he⟩
  · exact .inl ⟨e, by simp only [Rehearsal.begin, he]⟩
  · exact .inr ⟨t, p, ht, by rw [hp], by simp only [Rehearsal.begin, he]⟩

theorem runs_le_begin (r : Rehearsal) (c : Call) : r.runs ≤ (r.begin c).2.runs := by
  cases c with
  | add => exact Nat.le_refl _
  | run => exact Nat.le_succ _
  | stop name => exact Nat.le_of_eq (stopping_stopInTurn ..).sameTrace.2.2.symm
  | stopAll => exact Nat.le_of_eq (stopping_stopInTurn ..).sameTrace.2.2.symm

/-! ## Which loops are not cancelled -/

/-- Under that name, only loops of such numbers are not cancelled. -/
def LiveOnly (r : Rehearsal) (name : String) (ok : Nat → Prop) : Prop :=
  ∀ l ∈ r.scheduler.lanesOf name, l.LiveOnly ok

variable {ok : Nat → Prop}

theorem mem_lanesOf_depart {x : String} {t : Task Run Job} {l : TimedLane}
    (h : l ∈ (r.depart x t).scheduler.lanesOf name) :
    l ∈ r.scheduler.lanesOf name ∨ (x = name ∧ l = t.lane.cancel) := by
  rcases Scheduler.mem_lanesOf.1 h with ⟨t', ht', rfl⟩ | ⟨d, hd, hn, rfl⟩
  · rw [depart, Table.get?_erase] at ht'
    split at ht'
    · cases ht'
    · exact .inl (Scheduler.mem_lanesOf.2 (.inl ⟨t', ht', rfl⟩))
  · rcases List.mem_append.1 hd with hd | hd
    · exact .inl (Scheduler.mem_lanesOf.2 (.inr ⟨d, hd, hn, rfl⟩))
    · rw [List.mem_singleton.1 hd] at hn ⊢
      exact .inr ⟨hn, rfl⟩

/-- What cancelling keeps of all lanes under a name, stopping keeps. -/
theorem Stopping.forall_lanesOf {P : TimedLane → Prop} {a : Answer} {names : List String}
    {p : Progress} (hs : Stopping a r names p r') (hP : ∀ l, P l → P l.cancel)
    (h : ∀ l ∈ r.scheduler.lanesOf name, P l) : ∀ l ∈ r'.scheduler.lanesOf name, P l := by
  refine hs.induct (P := fun q => ∀ l ∈ q.scheduler.lanesOf name, P l)
    (fun q x t ht hq l hl => ?_) h
  rcases mem_lanesOf_depart hl with hl | ⟨rfl, rfl⟩
  · exact hq l hl
  · exact hP t.lane (hq t.lane (Scheduler.mem_lanesOf.2 (.inl ⟨t, ht, rfl⟩)))

theorem LiveOnly.stopping (h : r.LiveOnly name ok) {a : Answer} {names : List String} {p : Progress}
    (hs : Stopping a r names p r') : r'.LiveOnly name ok :=
  hs.forall_lanesOf (fun l _ => l.cancelled_cancel.liveOnly) h

theorem LiveOnly.resume (h : r.LiveOnly name ok) (p : Progress) :
    (r.resume p).2.LiveOnly name ok := by
  rcases r.resume_cases p with hp | ⟨id, more, a, -, -, hs⟩
  · rw [hp]
    exact h
  · exact h.stopping hs

theorem LiveOnly.begin (h : r.LiveOnly name ok) {c : Call} (hrun : r.Runs name c → ok r.runs) :
    (r.begin c).2.LiveOnly name ok := by
  cases c with
  | add x =>
    intro l hl
    rcases Scheduler.mem_lanesOf_add hl with hl | hl
    · exact h l hl
    · exact (Lane.cancelled_of_isEmpty hl).liveOnly
  | run x period efforts =>
    rcases r.begin_run_cases x period efforts with ⟨e, he⟩ | ⟨t, p, -, hp, he⟩
    · rw [he]
      exact h
    · have hdone : x = name → r.Runs name (.run x period efforts) := by
        rintro rfl
        exact ⟨period, efforts, rfl, by rw [he]; rfl⟩
      rw [he]
      intro l hl
      rcases Scheduler.mem_lanesOf_insert hl with hl | ⟨hx, rfl⟩
      · exact h l hl
      · exact Lane.liveOnly_replace (hp ▸ hrun (hdone hx))
  | stop x => exact h.stopping (stopping_stopInTurn ..)
  | stopAll => exact h.stopping (stopping_stopInTurn ..)

/-- What a move of a lane keeps, all lanes under a name keep. -/
theorem Move.forall_lanesOf {P : TimedLane → Prop} (hm : r.Move r')
    (hP : ∀ m horizon m', Moment.Move horizon m m' → P m.lane → P m'.lane)
    (h : ∀ l ∈ r.scheduler.lanesOf name, P l) : ∀ l ∈ r'.scheduler.lanesOf name, P l := by
  rcases hm.at_name name with ⟨hsub, -⟩ | ⟨before, l, after, now, horizon, m, hmove, hl, hl', -⟩
  · exact fun k hk => h k (hsub.subset hk)
  · have hmoved : P m.lane := hP _ horizon m hmove (h l (by simp [hl]))
    intro k hk
    rw [hl'] at hk
    rcases List.mem_append.1 hk with hk | hk
    · exact h k (by simp [hl, hk])
    · rcases List.mem_cons.1 hk with rfl | hk
      · exact hmoved
      · exact h k (by simp [hl, hk])

theorem LiveOnly.move (h : r.LiveOnly name ok) (hm : r.Move r') : r'.LiveOnly name ok :=
  hm.forall_lanesOf (fun _ _ _ hmove hl => hmove.liveOnly hl) h

/-- What is started is started by loops that are not cancelled. -/
theorem LiveOnly.starts (h : r.LiveOnly name ok) (hm : r.Move r') :
    ∃ hs, (r'.happenings name).filter Happening.isStart =
      (r.happenings name).filter Happening.isStart ++ hs ∧ ∀ e ∈ hs, ok e.run := by
  rcases hm.at_name name with ⟨-, hh⟩ | ⟨before, l, after, now, horizon, m, hm, hl, -, hh⟩
  · exact ⟨[], by rw [hh, List.append_nil], by simp⟩
  · refine ⟨m.past.reverse.filter Happening.isStart, by rw [hh, List.filter_append], ?_⟩
    intro e he
    obtain ⟨he, hs⟩ := List.mem_filter.1 he
    exact (hm.of_start rfl (List.mem_reverse.1 he) hs).2.2.2 ok (h l (by simp [hl]))

theorem Move.runs (hm : r.Move r') : r'.runs = r.runs := by
  cases hm <;> rfl

/-! ## Which invocations are in progress -/

/-- A loop of that number has an invocation in progress under that name. -/
def Engaged (r : Rehearsal) (name : String) (n : Nat) : Prop :=
  ∃ l ∈ r.scheduler.lanesOf name, l.invocation? = some n

variable {n : Nat}

theorem Engaged.of_stopping {a : Answer} {names : List String} {p : Progress}
    (hs : Stopping a r names p r') (h : r'.Engaged name n) : r.Engaged name n := by
  refine hs.induct (P := fun q => q.Engaged name n → r.Engaged name n)
    (fun q x t ht hq ⟨l, hl, hn⟩ => hq ?_) id h
  rcases mem_lanesOf_depart hl with hl | ⟨rfl, rfl⟩
  · exact ⟨l, hl, hn⟩
  · rw [Lane.invocation?_cancel] at hn
    exact ⟨t.lane, Scheduler.mem_lanesOf.2 (.inl ⟨t, ht, rfl⟩), hn⟩

theorem Engaged.of_resume (p : Progress) (h : (r.resume p).2.Engaged name n) :
    r.Engaged name n := by
  rcases r.resume_cases p with hp | ⟨id, more, a, -, -, hs⟩
  · rwa [hp] at h
  · exact h.of_stopping hs

theorem Engaged.of_begin (c : Call) (h : (r.begin c).2.Engaged name n) : r.Engaged name n := by
  cases c with
  | add x =>
    obtain ⟨l, hl, hn⟩ := h
    rcases Scheduler.mem_lanesOf_add hl with hl | hl
    · exact ⟨l, hl, hn⟩
    · rw [Lane.invocation?_eq_none_of_isEmpty hl] at hn
      cases hn
  | run x period efforts =>
    rcases r.begin_run_cases x period efforts with ⟨e, he⟩ | ⟨t, p, ht, -, he⟩
    · rwa [he] at h
    · rw [he] at h
      obtain ⟨l, hl, hn⟩ := h
      rcases Scheduler.mem_lanesOf_insert hl with hl | ⟨rfl, rfl⟩
      · exact ⟨l, hl, hn⟩
      · rw [Lane.invocation?_replace] at hn
        exact ⟨t.lane, Scheduler.mem_lanesOf.2 (.inl ⟨t, ht, rfl⟩), hn⟩
  | stop x => exact h.of_stopping (stopping_stopInTurn ..)
  | stopAll => exact h.of_stopping (stopping_stopInTurn ..)

/-- An invocation in progress was in progress before, unless one has just been started. -/
theorem Engaged.of_move (hm : r.Move r') (h : r'.Engaged name n)
    (hs : (r'.happenings name).filter Happening.isStart =
      (r.happenings name).filter Happening.isStart) : r.Engaged name n := by
  obtain ⟨k, hk, hn⟩ := h
  rcases hm.at_name name with ⟨hsub, -⟩ | ⟨before, l, after, now, horizon, m, hm, hl, hl', hh⟩
  · exact ⟨k, hsub.subset hk, hn⟩
  · rw [hl'] at hk
    rcases List.mem_append.1 hk with hk | hk
    · exact ⟨k, by simp [hl, hk], hn⟩
    · rcases List.mem_cons.1 hk with rfl | hk
      · rw [hh, List.filter_append, List.append_right_eq_self, List.filter_eq_nil_iff] at hs
        have hnone := hm.invocation?_eq_none fun e he =>
          Bool.eq_false_iff.2 (hs e (List.mem_reverse.2 he))
        rw [hnone] at hn
        cases hn
      · exact ⟨k, by simp [hl, hk], hn⟩

end Rehearsal

section

variable {allowed : Session → Call → Prop} {s t : Session} {name : String} {ok : Nat → Prop}

@[simp] theorem Session.starts_call (s : Session) (c : Call) (name : String) :
    (s.call c).starts name = s.starts name := by
  unfold Session.starts Rehearsal.happenings Session.call
  rw [Rehearsal.events_begin]

@[simp] theorem Session.starts_resume (s : Session) (i : Nat) (p : Progress) (name : String) :
    (s.resume i p).starts name = s.starts name := by
  unfold Session.starts Rehearsal.happenings Session.resume
  rw [(s.rehearsal.sameTrace_resume p).1]

theorem Step.runs_le (h : Step allowed s t) : s.rehearsal.runs ≤ t.rehearsal.runs := by
  cases h with
  | call => exact s.rehearsal.runs_le_begin _
  | @resume i p => exact Nat.le_of_eq (s.rehearsal.sameTrace_resume p).2.2.symm
  | move hm => exact Nat.le_of_eq hm.runs.symm

theorem Steps.runs_le (h : Steps allowed s t) : s.rehearsal.runs ≤ t.rehearsal.runs := by
  induction h with
  | refl => exact Nat.le_refl _
  | tail _ hs ih => exact Nat.le_trans ih hs.runs_le

theorem Step.liveOnly (h : Step allowed s t)
    (hrun : ∀ c, allowed s c → s.rehearsal.Runs name c → ok s.rehearsal.runs)
    (hl : s.rehearsal.LiveOnly name ok) :
    t.rehearsal.LiveOnly name ok ∧
      ∃ hs, t.starts name = s.starts name ++ hs ∧ ∀ e ∈ hs, ok e.run := by
  cases h with
  | @call c hc =>
    exact ⟨hl.begin (hrun c hc), [], by rw [Session.starts_call, List.append_nil], by simp⟩
  | @resume i p =>
    exact ⟨hl.resume p, [], by rw [Session.starts_resume, List.append_nil], by simp⟩
  | move hm => exact ⟨hl.move hm, hl.starts hm⟩

/-- An invocation in progress was in progress before, unless one has just been started. -/
theorem Step.mem_invocations (h : Step allowed s t) (hs : t.starts name = s.starts name) {n : Nat}
    (hn : n ∈ t.invocations name) : n ∈ s.invocations name := by
  have hn : t.rehearsal.Engaged name n := List.mem_filterMap.1 hn
  refine List.mem_filterMap.2 ?_
  cases h with
  | call => exact hn.of_begin _
  | @resume i p => exact hn.of_resume p
  | move hm => exact Rehearsal.Engaged.of_move hm hn hs

/-- Where only such loops are not cancelled, and only such are run, only such start invocations. -/
theorem Steps.liveOnly (h : Steps allowed s t)
    (hrun : ∀ u c, s.rehearsal.runs ≤ u.rehearsal.runs → allowed u c → u.rehearsal.Runs name c →
      ok u.rehearsal.runs)
    (hl : s.rehearsal.LiveOnly name ok) :
    t.rehearsal.LiveOnly name ok ∧
      ∃ hs, t.starts name = s.starts name ++ hs ∧ ∀ e ∈ hs, ok e.run := by
  induction h with
  | refl => exact ⟨hl, [], (List.append_nil _).symm, by simp⟩
  | @tail t u hst hstep ih =>
    obtain ⟨hlive, hs, hstarts, hok⟩ := ih
    obtain ⟨hlive', hs', hstarts', hok'⟩ := hstep.liveOnly (fun c => hrun t c hst.runs_le) hlive
    refine ⟨hlive', hs ++ hs', by rw [hstarts', hstarts, List.append_assoc], fun e he => ?_⟩
    rcases List.mem_append.1 he with he | he
    · exact hok e he
    · exact hok' e he

end

end Schedule

end MetricRelay
