import Mathlib.Order.Bounds.Defs
import MetricRelay.Proofs.Schedule.Composition
import MetricRelay.Proofs.Schedule.Ticks

/-!
# After an overrun

A `Course` may be as late as it likes. A `Punctual` one makes each move as soon as it can: time passes
only where nothing is due, which is how a lane moves by itself. There an invocation starts at its
deadline or at the end of the one before, whichever comes later (`Punctual.onTime`).

Of the deadlines that pass during an invocation the first one is not skipped: it is served as soon as
the invocation has ended. `Follows` says what becomes of the others.
-/

namespace MetricRelay.Schedule

/-! ## Deadlines passed over -/

section

variable {period deadline now start t : Nat}

theorem OnGrid.add_period_le (hd : OnGrid period start deadline) (ht : OnGrid period start t)
    (h : deadline < t) : deadline + period ≤ t := by
  obtain ⟨k, rfl⟩ := hd
  obtain ⟨j, rfl⟩ := ht
  have hkj : k + 1 ≤ j := by
    refine Nat.succ_le_of_lt (Nat.lt_of_not_le fun hjk => ?_)
    have hmul := Nat.mul_le_mul_right period hjk
    omega
  have hmul := Nat.mul_le_mul_right period hkj
  rw [Nat.add_one_mul] at hmul
  omega

/-- No deadline that is still to come is passed over, be the tick late or not. -/
theorem nextDeadline_le_of_lt (hd : OnGrid period start deadline) (ht : OnGrid period start t)
    (hdue : deadline ≤ now) (h : now < t) : nextDeadline period deadline now ≤ t := by
  by_cases hlate : deadline + tolerance < now
  · exact nextDeadline_le_of_onGrid hd hlate ht h
  · rw [nextDeadline_of_le (Nat.not_lt.1 hlate)]
    exact hd.add_period_le ht (Nat.lt_of_le_of_lt hdue h)

/-- Only with a period within the tolerance can the next deadline have passed already. -/
theorem lt_nextDeadline_of_tolerance (hp : 0 < period)
    (h : tolerance < period ∨ deadline + tolerance < now) :
    now < nextDeadline period deadline now := by
  by_cases hlate : deadline + tolerance < now
  · exact lt_nextDeadline_of_lt hp hlate
  · rw [nextDeadline_of_le (Nat.not_lt.1 hlate)]
    omega

end

namespace Timetable

variable {period start : Nat} {vs : List Invocation}

theorem next_le_upcoming (h : Timetable period start vs) : ∀ v ∈ vs, v.next ≤ upcoming start vs := by
  induction h with
  | nil => simp
  | cons _ hd _ hn _ ih =>
    intro w hw
    rcases List.mem_cons.1 hw with rfl | hw
    · exact Nat.le_refl _
    · rw [upcoming, hn]
      refine Nat.le_trans ?_ add_period_le_nextDeadline
      exact Nat.le_add_right_of_le (hd ▸ ih w hw)

/-- What lies between a deadline and the next one is never served. -/
theorem deadline_le_or_next_le (hp : 0 < period) (h : Timetable period start vs) :
    ∀ w ∈ vs, ∀ u ∈ vs, u.deadline ≤ w.deadline ∨ w.next ≤ u.deadline := by
  induction h with
  | nil => simp
  | cons hvs hd _ _ _ ih =>
    intro w hw u hu
    rcases List.mem_cons.1 hw with rfl | hw'
    · rcases List.mem_cons.1 hu with rfl | hu'
      · exact .inl (Nat.le_refl _)
      · exact .inl (Nat.le_of_lt (hd ▸ hvs.lt_upcoming hp u hu'))
    · rcases List.mem_cons.1 hu with rfl | hu'
      · exact .inr (hd ▸ hvs.next_le_upcoming w hw')
      · exact ih w hw' u hu'

end Timetable

/-! ## Punctual courses -/

namespace Moment

/-- A `Course` on which time passes only where the lane makes no move by then. -/
inductive Punctual (m : Moment) : List Invocation → Moment → Prop where
  | refl : Punctual m [] m
  | move {vs : List Invocation} {q q' : Moment} {horizon : Nat} : Punctual m vs q →
      q.lane.current.isSome = true → q.step? horizon = some q' → Punctual m (q.noted q' vs) q'
  | pass {vs : List Invocation} {q : Moment} {now : Nat} : Punctual m vs q → q.now ≤ now →
      q.step? now = none → Punctual m vs { q with now }
  | cancel {vs : List Invocation} {q : Moment} : Punctual m vs q →
      Punctual m vs { q with lane := q.lane.cancel }
  | replace {vs : List Invocation} {q : Moment} (p : Plan Run) : Punctual m vs q →
      Punctual m vs { q with lane := q.lane.replace p }

variable {m q q' : Moment} {vs : List Invocation}

theorem Punctual.course (h : Punctual m vs q) : Course m vs q := by
  induction h with
  | refl => exact .refl
  | move _ hc hs ih => exact ih.move hc hs
  | pass _ hn _ ih => exact ih.pass hn
  | cancel _ ih => exact ih.cancel
  | replace p _ ih => exact ih.replace p

/-- What a lane does by itself is punctual, until the loop has ended. -/
theorem Punctual.advance (h : Punctual m vs q) {target : Nat} (hn : q.now ≤ target) :
    ∃ us r, Punctual m us r ∧ (r.lane.current = none ∨
      r.now = target ∧ r.lane = (q.lane.advance q.now target).1 ∧
        r.past = (q.lane.advance q.now target).2.reverse ++ q.past) := by
  obtain ⟨n, -, us, hus, hend⟩ := exists_moves .move h target (q.rank target)
  rcases hend with hnone | hall
  · exact ⟨us, _, hus, .inl hnone⟩
  · have hrest : (q.moves target (q.rank target)).step? target = none :=
      step?_moves_eq_none (Nat.le_refl _)
    have hmoves := moves_past target (q.rank target) q.now q.lane q.past
    have hlane : (q.moves target (q.rank target)).lane = (q.lane.advance q.now target).1 := by
      have h := congrArg Moment.lane hmoves
      exact h
    have hpast : (q.moves target (q.rank target)).past =
        (q.lane.advance q.now target).2.reverse ++ q.past := by
      have h := congrArg Moment.past hmoves
      rw [Lane.advance, List.reverse_reverse]
      exact h
    rw [hall] at hus
    exact ⟨us, _, hus.pass (now_le_moves hn _) hrest, .inr ⟨rfl, hlane, hpast⟩⟩

/-! ## On time -/

/-- Each invocation starts at its deadline or at the end of the one before, whichever comes later. -/
def Prompt (vs : List Invocation) : Prop :=
  vs.IsChain fun w v => ∃ e, v.stop = some e ∧ w.start = max e (wakeTime w.deadline)

/-- When an invocation ends nothing changes for those before it. -/
theorem Prompt.ended {v : Invocation} (h : Prompt (v :: vs)) (stop : Option Nat) :
    Prompt ({ v with stop } :: vs) := by
  cases vs with
  | nil => exact .singleton _
  | cons u vs =>
    obtain ⟨hu, hvs⟩ := List.isChain_cons_cons.1 h
    exact .cons_cons hu hvs

/-- A loop that has been moved on in time: it is not past what it waits for. -/
structure OnTime (vs : List Invocation) (q : Moment) : Prop where
  prompt : Prompt vs
  waiting : ∀ p deadline, q.lane.current = some ⟨p, .waiting deadline⟩ →
    ∀ v ∈ vs.head?, ∀ e, v.stop = some e → q.now ≤ max e (wakeTime deadline)
  busy : ∀ p next job, q.lane.current = some ⟨p, .busy next job⟩ → q.now ≤ job.done

variable {horizon : Nat}

/-- Where a waiting loop makes no move it is not due. -/
theorem lt_of_rest_waiting {p : Plan Run} {deadline : Nat}
    (hc : q.lane.current = some ⟨p, .waiting deadline⟩) (h : q.step? horizon = none) :
    horizon < max q.now (wakeTime deadline) := by
  unfold step? at h
  rw [hc] at h
  simp only at h
  split at h
  · cases h
  · split at h
    · cases h
    · next ht => exact Nat.not_le.1 ht

theorem lt_of_rest_busy {p : Plan Run} {next : Nat} {job : Job}
    (hc : q.lane.current = some ⟨p, .busy next job⟩) (h : q.step? horizon = none) :
    horizon < max q.now job.done := by
  unfold step? at h
  rw [hc] at h
  simp only at h
  split at h
  · split at h <;> cases h
  · next ht => exact Nat.not_le.1 ht

theorem OnTime.pass (h : OnTime vs q) {now : Nat} (hrest : q.step? now = none) :
    OnTime vs { q with now } where
  prompt := h.prompt
  waiting p deadline hc v hv e he := by
    have hdue := lt_of_rest_waiting (q := q) hc hrest
    have hnow := h.waiting p deadline hc v hv e he
    show now ≤ max e (wakeTime deadline)
    omega
  busy p next job hc := by
    have hdone := lt_of_rest_busy (q := q) hc hrest
    have hnow := h.busy p next job hc
    show now ≤ job.done
    omega

theorem OnTime.frame (h : OnTime vs q) {l : TimedLane}
    (hl : l.current = q.lane.current.map fun c => { c with plan := c.plan.cancel }) :
    OnTime vs { q with lane := l } where
  prompt := h.prompt
  waiting _ deadline hc := by
    obtain ⟨p, hold⟩ := exists_of_frame hl hc
    exact h.waiting p deadline hold
  busy _ next job hc := by
    obtain ⟨p, hold⟩ := exists_of_frame hl hc
    exact h.busy p next job hold

variable {period start : Nat}

theorem le_done_job (effort : Effort) (now : Nat) : now ≤ (effort.job now).done := by
  cases effort <;> exact Nat.le_add_right ..

theorem OnTime.move (h : OnTime vs q) (hstep : InStep period start vs q)
    (hc : q.lane.current.isSome = true) (hm : Move horizon q q') : OnTime (q.noted q' vs) q' := by
  cases hm with
  | drop hl | begin hl =>
    rw [hl] at hc
    cases hc
  | quit hl =>
    simp only [noted, hl]
    exact ⟨h.prompt, by simp, by simp⟩
  | @start p deadline t queued hl hp ht hh =>
    obtain ⟨-, hends⟩ := hstep.waiting p deadline (by rw [hl])
    have hnow := h.waiting p deadline (by rw [hl])
    simp only [noted, hl]
    refine ⟨List.IsChain.cons h.prompt fun v hv => ?_, by simp, ?_⟩
    · -- between the end and the deadline the clock has not gone too far
      obtain ⟨e, he, -, hen⟩ := hends v hv
      have hbound := hnow v hv e he
      refine ⟨e, he, ?_⟩
      show t = max e (wakeTime deadline)
      omega
    · rintro p' next job ⟨⟩
      exact le_done_job ..
  | @finish p next t job queued hl hb ht hh =>
    obtain ⟨v, us, rfl, -, -⟩ := hstep.busy p next job (by rw [hl])
    simp only [noted, hl]
    refine ⟨h.prompt.ended _, ?_, by simp⟩
    rintro p' deadline - w ⟨⟩ e ⟨⟩
    exact Nat.le_max_left ..
  | @fail p next t job queued hl hb ht hh =>
    obtain ⟨v, us, rfl, -, -⟩ := hstep.busy p next job (by rw [hl])
    simp only [noted, hl]
    exact ⟨h.prompt.ended _, by simp, by simp⟩

theorem Punctual.onTime {p : Plan Run} {queued : List (Plan Run)}
    (hm : m.lane = ⟨some ⟨p, .waiting (instant m.now)⟩, queued⟩) (h : Punctual m vs q) :
    OnTime vs q := by
  induction h with
  | refl =>
    refine ⟨.nil, by simp, ?_⟩
    rw [hm]
    rintro p' next job ⟨⟩
  | move hlog hc hs ih => exact ih.move (hlog.course.inStep hm) hc (move_of_step? hs)
  | pass _ _ hrest ih => exact ih.pass hrest
  | cancel _ ih => exact ih.frame rfl
  | replace p _ ih => exact ih.frame rfl

/-! ## The invocation after -/

theorem finish_of_busy {p : Plan Run} {next : Nat} {job : Job} {queued : List (Plan Run)}
    (hl : q.lane = ⟨some ⟨p, .busy next job⟩, queued⟩) (hb : job.breaks = false)
    (hn : q.now ≤ job.done) (hh : job.done ≤ horizon) :
    ∃ r, q.step? horizon = some r ∧ r.now = job.done ∧
      r.lane = ⟨some ⟨p, .waiting next⟩, queued⟩ ∧
      ∀ v vs, q.noted r (v :: vs) = { v with stop := some job.done } :: vs := by
  refine ⟨⟨job.done, ⟨some ⟨p, .waiting next⟩, queued⟩, ⟨job.done, p.work.number, false⟩ :: q.past⟩,
    ?_, rfl, rfl, fun v vs => ?_⟩
  · simp [step?, hl, hb, Nat.max_eq_right hn, hh, note, Lane.setPhase]
  · simp only [noted, hl]

theorem start_of_waiting {p : Plan Run} {deadline : Nat} {queued : List (Plan Run)}
    (hl : q.lane = ⟨some ⟨p, .waiting deadline⟩, queued⟩) (hp : p.cancelled = false)
    (hh : max q.now (wakeTime deadline) ≤ horizon) :
    ∃ r, ∃ w : Invocation, q.step? horizon = some r ∧ w.deadline = deadline ∧
      ∀ vs, q.noted r vs = w :: vs := by
  let begun := max q.now (wakeTime deadline)
  let w : Invocation :=
    { deadline, start := begun, next := nextDeadline p.period deadline (instant begun) }
  refine ⟨{ q with now := begun }.tick p deadline, w, ?_, rfl, fun vs => ?_⟩
  · simp only [step?, hl, hp, if_pos hh]
    rfl
  · simp only [noted, hl, tick, note]
    rfl

/-- When an invocation has ended its loop goes on, unless it has broken down or been cancelled. -/
theorem Punctual.followed (h : Punctual m vs q) {p p' : Plan Run} {queued queued' : List (Plan Run)}
    (hm : m.lane = ⟨some ⟨p', .waiting (instant m.now)⟩, queued'⟩) {next : Nat} {job : Job}
    (hl : q.lane = ⟨some ⟨p, .busy next job⟩, queued⟩) (hb : job.breaks = false)
    (hp : p.cancelled = false) (hdone : job.done ≤ horizon) (hnext : wakeTime next ≤ horizon) :
    ∃ v us w, vs = v :: us ∧ w.deadline = next ∧
      Punctual m (w :: { v with stop := some job.done } :: us) (q.moves horizon 2) := by
  obtain ⟨v, us, rfl, -, -⟩ := (h.course.inStep hm).busy p next job (by rw [hl])
  have hnow : q.now ≤ job.done := (h.onTime hm).busy p next job (by rw [hl])
  obtain ⟨r, hfinish, hr, hrl, hended⟩ := finish_of_busy hl hb hnow hdone
  obtain ⟨s, w, hstart, hw, hstarted⟩ :=
    start_of_waiting hrl hp (hr.symm ▸ Nat.max_le.2 ⟨hdone, hnext⟩)
  have hlog := (h.move (by rw [hl]; rfl) hfinish).move (by rw [hrl]; rfl) hstart
  have hmoves : q.moves horizon 2 = s := by
    simp only [moves, hfinish, hstart]
  rw [hended, hstarted] at hlog
  exact ⟨v, us, w, rfl, hw, hmoves ▸ hlog⟩

end Moment

/-! ## Following an overrun -/

/-- How the invocation `w` follows `v`, which has ended at `e`, in the log of a loop. -/
structure Follows (period start : Nat) (vs : List Invocation) (v w : Invocation) (e : Nat) : Prop where
  ended : v.stop = some e
  /-- No deadline after the start of `v` is passed over, even if it has passed when `v` ends. -/
  first : ∀ t, OnGrid period start t → instant v.start < t → w.deadline ≤ t
  start_eq : w.start = max e (wakeTime w.deadline)
  /-- If a deadline has passed in the meantime there is nothing to wait for. -/
  backToBack : ∀ t, OnGrid period start t → instant v.start < t → t ≤ instant e → w.start = e
  /-- All that has passed but the first is skipped, and then the deadlines are kept again; with a
  period within the tolerance only if `w` is late beyond it. -/
  skips : tolerance < period ∨ w.deadline + tolerance < instant w.start →
    (∀ t, w.deadline < t → t ≤ instant w.start → ∀ u ∈ vs, u.deadline ≠ t) ∧
    IsLeast {t | OnGrid period start t ∧ instant w.start < t} w.next

theorem Moment.Punctual.follows {m q : Moment} {p : Plan Run} {queued : List (Plan Run)}
    {vs : List Invocation} (hm : m.lane = ⟨some ⟨p, .waiting (instant m.now)⟩, queued⟩)
    (h : m.Punctual vs q) {v w : Invocation} (hvw : [w, v] <:+: vs) :
    ∃ e, Follows p.period (instant m.now) vs v w e := by
  have htable := (h.course.inStep hm).timetable
  have hgrid := htable.deadline_onGrid
  have hv : v ∈ vs := hvw.subset (by simp)
  have hw : w ∈ vs := hvw.subset (by simp)
  have hserved := List.IsChain.infix htable.isChain hvw
  have hprompt := List.IsChain.infix (h.onTime hm).prompt hvw
  have hnext : w.deadline = v.next := (List.isChain_cons_cons.1 hserved).1
  obtain ⟨e, he, hstart⟩ := List.isChain_pair.1 hprompt
  have hfirst : ∀ t, OnGrid p.period (instant m.now) t → instant v.start < t → w.deadline ≤ t := by
    intro t ht hlt
    rw [hnext, htable.next_eq v hv]
    exact nextDeadline_le_of_lt (hgrid v hv) ht (htable.deadline_le_start v hv) hlt
  refine ⟨e, he, hfirst, hstart, fun t ht hlt hle => ?_, fun hlate => ?_⟩
  · have hdue : wakeTime w.deadline ≤ e := wakeTime_le_iff.2 (Nat.le_trans (hfirst t ht hlt) hle)
    rw [hstart, Nat.max_eq_left hdue]
  · have hlater : instant w.start < w.next := by
      rw [htable.next_eq w hw]
      exact lt_nextDeadline_of_tolerance p.period_pos hlate
    refine ⟨fun t hlt hle u hu hut => ?_, ⟨?_, hlater⟩, fun t ht => ?_⟩
    · subst hut
      rcases htable.deadline_le_or_next_le p.period_pos w hw u hu with hbefore | hafter
      · exact Nat.not_lt.2 hbefore hlt
      · exact Nat.not_lt.2 (Nat.le_trans hafter hle) hlater
    · rw [htable.next_eq w hw]
      exact (hgrid w hw).nextDeadline
    · rw [htable.next_eq w hw]
      exact nextDeadline_le_of_lt (hgrid w hw) ht.1 (htable.deadline_le_start w hw) ht.2

/-- Of the deadlines that pass during an invocation the first is served late, as soon as it has ended,
and the others are skipped. Where nothing breaks down and no one cancels the loop there is such an
invocation after each one, and what a lane does by itself is covered until its loop has ended. -/
theorem overrun_followed_at_once {m q : Moment} {p : Plan Run} {queued : List (Plan Run)}
    {vs : List Invocation} (hm : m.lane = ⟨some ⟨p, .waiting (instant m.now)⟩, queued⟩)
    (h : m.Punctual vs q) :
    (∀ v w, [w, v] <:+: vs → ∃ e, Follows p.period (instant m.now) vs v w e) ∧
    (∀ c next job rest horizon, q.lane = ⟨some ⟨c, .busy next job⟩, rest⟩ →
      job.breaks = false → c.cancelled = false → job.done ≤ horizon → wakeTime next ≤ horizon →
      ∃ v us w, vs = v :: us ∧ w.deadline = next ∧
        m.Punctual (w :: { v with stop := some job.done } :: us) (q.moves horizon 2)) ∧
    ∀ target, q.now ≤ target → ∃ us r, m.Punctual us r ∧ (r.lane.current = none ∨
      r.now = target ∧ r.lane = (q.lane.advance q.now target).1 ∧
        r.past = (q.lane.advance q.now target).2.reverse ++ q.past) := by
  refine ⟨fun v w hvw => h.follows hm hvw, ?_, fun target hn => h.advance hn⟩
  intro c next job rest horizon hl hb hc hdone hnext
  exact h.followed hm hl hb hc hdone hnext

/-- The log of five moves that are made as soon as they can be. -/
theorem overrunning_punctual :
    overrunning.Punctual [⟨instant 33, 33, instant 43, none⟩, ⟨instant 13, 28, instant 33, some 30⟩,
      ⟨instant 3, 3, instant 13, some 28⟩] (overrunning.moves 40 5) := by
  have hmove {vs us : List Invocation} {q q' : Moment} (h : overrunning.Punctual vs q)
      (hc : q.lane.current.isSome = true) (hs : q.step? 40 = some q') (hu : q.noted q' vs = us) :
      overrunning.Punctual us q' := hu ▸ .move h hc hs
  have first : overrunning.Punctual [⟨instant 3, 3, instant 13, none⟩] (overrunning.moves 40 1) :=
    hmove .refl rfl rfl rfl
  have second : overrunning.Punctual
      [⟨instant 13, 28, instant 33, none⟩, ⟨instant 3, 3, instant 13, some 28⟩]
      (overrunning.moves 40 3) := hmove (hmove first rfl rfl rfl) rfl rfl rfl
  exact hmove (hmove second rfl rfl rfl) rfl rfl rfl

/-- Of the deadlines at 13 and 23, which pass during the first invocation, the one at 13 is served at its
end, and the one at 23 is skipped. -/
theorem overrunning_followed_at_once :
    ∃ u v w, overrunning.Punctual [w, v, u] (overrunning.moves 40 5) ∧
      u.start = 3 ∧ v.deadline = instant 13 ∧ u.stop = some v.start ∧
      (∀ t, instant 13 < t → t ≤ instant v.start → ∀ x ∈ [w, v, u], x.deadline ≠ t) ∧
      w.deadline = instant 33 := by
  obtain ⟨hfollows, -⟩ := overrun_followed_at_once rfl overrunning_punctual
  obtain ⟨e, he⟩ := hfollows ⟨instant 3, 3, instant 13, some 28⟩ ⟨instant 13, 28, instant 33, some 30⟩
    ⟨[⟨instant 33, 33, instant 43, none⟩], [], rfl⟩
  exact ⟨_, _, _, overrunning_punctual, rfl, rfl, rfl, (he.skips (.inl (by decide))).1, rfl⟩

/-- The deadline at 13 passes during the invocation that ends at 28. It is served there and then,
although 28 is no deadline and the first one from there on is 33. -/
theorem missed_deadline_served_late :
    ∃ u v w e, overrunning.Punctual [w, v, u] (overrunning.moves 40 5) ∧ u.stop = some e ∧
      (∃ t, OnGrid 10000000 (instant overrunning.now) t ∧ instant u.start < t ∧ t < instant e ∧
        v.deadline = t) ∧
      v.start = e ∧ ¬ OnGrid 10000000 (instant overrunning.now) (instant e) ∧
      ∃ t, IsLeast {t | OnGrid 10000000 (instant overrunning.now) t ∧ instant e ≤ t} t ∧
        v.start < wakeTime t := by
  have hmissed : OnGrid 10000000 (instant 3) (instant 13) := ⟨1, rfl⟩
  have hend : ¬ OnGrid 10000000 (instant 3) (instant 28) := by
    rintro ⟨k, hk⟩
    simp only [instant, Duration.nanosPerMilli] at hk
    omega
  have hfirst : IsLeast {t | OnGrid 10000000 (instant 3) t ∧ instant 28 ≤ t} (instant 33) := by
    refine ⟨⟨⟨3, rfl⟩, by decide⟩, ?_⟩
    rintro t ⟨⟨k, rfl⟩, hle⟩
    simp only [instant, Duration.nanosPerMilli] at hle ⊢
    omega
  exact ⟨_, _, _, 28, overrunning_punctual, rfl, ⟨_, hmissed, by decide, by decide, rfl⟩, rfl, hend,
    _, hfirst, by decide⟩

end MetricRelay.Schedule
