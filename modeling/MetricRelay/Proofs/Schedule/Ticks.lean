import Mathlib.Data.List.Chain
import MetricRelay.Proofs.Schedule.Lane

/-!
# The ticks of a loop

A `Course` follows one loop of a lane from the point where it has begun: the loop moves, as late as it
likes, and the host may cancel or replace it. Its log holds the invocations so far, each with the
deadline it serves. `Timetable` says how these follow each other, whatever they take
(`Course.inStep`): the deadlines are multiples of the period away from the beginning, one after the
other, and none that has passed is made up for.
-/

namespace MetricRelay.Schedule

/-! ## From one deadline to the next -/

section

variable {period deadline now start : Nat}

theorem nextDeadline_of_le (h : now ≤ deadline + tolerance) :
    nextDeadline period deadline now = deadline + period := if_pos h

/-- After a late tick the next deadline is a whole number of periods on. -/
theorem nextDeadline_of_lt (h : deadline + tolerance < now) :
    nextDeadline period deadline now = deadline + ((now - deadline) / period + 1) * period := by
  have hdiv := Nat.div_add_mod' (now - deadline) period
  unfold nextDeadline
  rw [if_neg (Nat.not_le.2 h), Nat.add_one_mul]
  omega

theorem add_period_le_nextDeadline :
    deadline + period ≤ nextDeadline period deadline now := by
  by_cases h : now ≤ deadline + tolerance
  · exact Nat.le_of_eq (nextDeadline_of_le h).symm
  · rw [nextDeadline_of_lt (Nat.not_le.1 h), Nat.add_one_mul]
    omega

theorem lt_nextDeadline_of_lt (hp : 0 < period) (h : deadline + tolerance < now) :
    now < nextDeadline period deadline now := by
  have hmod := Nat.mod_lt (now - deadline) hp
  have hdiv := Nat.div_add_mod' (now - deadline) period
  rw [nextDeadline_of_lt h, Nat.add_one_mul]
  omega

/-- A whole number of periods after a start. -/
def OnGrid (period start t : Nat) : Prop := ∃ k, t = start + k * period

theorem OnGrid.nextDeadline (h : OnGrid period start deadline) :
    OnGrid period start (nextDeadline period deadline now) := by
  obtain ⟨k, rfl⟩ := h
  by_cases hnow : now ≤ start + k * period + tolerance
  · exact ⟨k + 1, by rw [nextDeadline_of_le hnow, Nat.add_one_mul, Nat.add_assoc]⟩
  · refine ⟨k + ((now - (start + k * period)) / period + 1), ?_⟩
    rw [nextDeadline_of_lt (Nat.not_le.1 hnow), Nat.add_mul k, Nat.add_assoc]

/-- After a late tick no deadline that is still to come is passed over. -/
theorem nextDeadline_le_of_onGrid (hd : OnGrid period start deadline)
    (h : deadline + tolerance < now) {t : Nat} (ht : OnGrid period start t) (hlt : now < t) :
    nextDeadline period deadline now ≤ t := by
  obtain ⟨k, rfl⟩ := hd
  obtain ⟨j, rfl⟩ := ht
  have hkj : k ≤ j := by
    refine Nat.le_of_not_lt fun hjk => ?_
    have hmul := Nat.mul_le_mul_right period (Nat.le_of_lt hjk)
    omega
  obtain ⟨i, rfl⟩ := Nat.exists_eq_add_of_le hkj
  rw [Nat.add_mul, ← Nat.add_assoc] at hlt ⊢
  have hlate : now - (start + k * period) < period * i := by
    rw [Nat.mul_comm period]
    omega
  rw [nextDeadline_of_lt h]
  exact Nat.add_le_add_left (Nat.mul_le_mul_right period (Nat.div_lt_of_lt_mul hlate)) _

end

/-! ## Timetables -/

/-- One invocation of a loop; the deadlines are in nanoseconds, the other times in milliseconds. -/
structure Invocation where
  /-- The one it serves. -/
  deadline : Nat
  start : Nat
  /-- The deadline that follows. -/
  next : Nat
  /-- Unset while it is in progress. -/
  stop : Option Nat := none

/-- The deadline that is served next, after these invocations, the latest first. -/
def upcoming (start : Nat) : List Invocation → Nat
  | [] => start
  | v :: _ => v.next

/-- One invocation has ended when the other starts. -/
def Invocation.Before (v w : Invocation) : Prop := ∃ e, v.stop = some e ∧ v.start ≤ e ∧ e ≤ w.start

/-- The invocations of a loop that has begun at `start`, the latest first. -/
inductive Timetable (period start : Nat) : List Invocation → Prop where
  | nil : Timetable period start []
  | cons {v : Invocation} {vs : List Invocation} : Timetable period start vs →
      v.deadline = upcoming start vs → v.deadline ≤ instant v.start →
      v.next = nextDeadline period v.deadline (instant v.start) →
      (∀ w ∈ vs.head?, w.Before v) → Timetable period start (v :: vs)

namespace Timetable

variable {period start : Nat} {v : Invocation} {vs : List Invocation}

/-- When an invocation ends nothing changes for what comes. -/
theorem ended (h : Timetable period start (v :: vs)) (stop : Option Nat) :
    Timetable period start ({ v with stop } :: vs) := by
  cases h with
  | cons hvs hd hs hn hb => exact .cons hvs hd hs hn hb

theorem upcoming_onGrid (h : Timetable period start vs) :
    OnGrid period start (upcoming start vs) := by
  induction h with
  | nil => exact ⟨0, by rw [upcoming, Nat.zero_mul, Nat.add_zero]⟩
  | cons _ hd _ hn _ ih =>
    rw [upcoming, hn]
    rw [← hd] at ih
    exact ih.nextDeadline

theorem deadline_onGrid (h : Timetable period start vs) :
    ∀ v ∈ vs, OnGrid period start v.deadline := by
  induction h with
  | nil => simp
  | cons hvs hd _ _ _ ih =>
    intro w hw
    rcases List.mem_cons.1 hw with rfl | hw
    · exact hd ▸ hvs.upcoming_onGrid
    · exact ih w hw

theorem next_eq (h : Timetable period start vs) :
    ∀ v ∈ vs, v.next = nextDeadline period v.deadline (instant v.start) := by
  induction h with
  | nil => simp
  | cons _ _ _ hn _ ih =>
    intro w hw
    rcases List.mem_cons.1 hw with rfl | hw
    · exact hn
    · exact ih w hw

theorem deadline_le_start (h : Timetable period start vs) :
    ∀ v ∈ vs, v.deadline ≤ instant v.start := by
  induction h with
  | nil => simp
  | cons _ _ hs _ _ ih =>
    intro w hw
    rcases List.mem_cons.1 hw with rfl | hw
    · exact hs
    · exact ih w hw

theorem first_deadline (h : Timetable period start vs) :
    ∀ v ∈ vs.getLast?, v.deadline = start := by
  induction h with
  | nil => simp
  | @cons v vs hvs hd _ _ _ ih =>
    cases vs with
    | nil => simpa [upcoming] using hd
    | cons w vs =>
      rw [List.getLast?_cons_cons]
      exact ih

/-- What is served next is later than all that has been served. -/
theorem lt_upcoming (hp : 0 < period) (h : Timetable period start vs) :
    ∀ v ∈ vs, v.deadline < upcoming start vs := by
  induction h with
  | nil => simp
  | cons _ hd _ hn _ ih =>
    intro w hw
    rw [upcoming, hn]
    rcases List.mem_cons.1 hw with rfl | hw
    · exact lt_nextDeadline hp
    · exact Nat.lt_trans (hd ▸ ih w hw) (lt_nextDeadline hp)

theorem isChain (h : Timetable period start vs) : vs.IsChain fun w v => w.deadline = v.next := by
  induction h with
  | nil => exact .nil
  | @cons w vs _ hd _ _ _ ih =>
    cases vs with
    | nil => exact .singleton w
    | cons v vs => exact .cons_cons hd ih

theorem deadlines_decreasing (hp : 0 < period) (h : Timetable period start vs) :
    (vs.map Invocation.deadline).Pairwise (· > ·) := by
  induction h with
  | nil => exact .nil
  | cons hvs hd _ _ _ ih =>
    refine List.pairwise_cons.2 ⟨fun t ht => ?_, ih⟩
    obtain ⟨w, hw, rfl⟩ := List.mem_map.1 ht
    exact hd ▸ hvs.lt_upcoming hp w hw

theorem stopped_before (h : Timetable period start vs) : vs.Pairwise fun w v => v.Before w := by
  induction h with
  | nil => exact .nil
  | @cons w vs hvs _ _ _ hb ih =>
    refine List.pairwise_cons.2 ⟨fun v hv => ?_, ih⟩
    cases hvs with
    | nil => cases hv
    | @cons u us =>
      have hlast : u.Before w := hb u rfl
      rcases List.mem_cons.1 hv with rfl | hv
      · exact hlast
      · obtain ⟨e, he, hle, hu⟩ := (List.pairwise_cons.1 ih).1 v hv
        obtain ⟨_, -, hstop, hw⟩ := hlast
        exact ⟨e, he, hle, Nat.le_trans hu (Nat.le_trans hstop hw)⟩

theorem length_mul_le_upcoming (h : Timetable period start vs) :
    start + vs.length * period ≤ upcoming start vs := by
  induction h with
  | nil => simp [upcoming]
  | cons _ hd _ hn _ ih =>
    rw [upcoming, hn, List.length_cons, Nat.add_one_mul, ← Nat.add_assoc]
    refine Nat.le_trans (Nat.add_le_add_right ?_ period) add_period_le_nextDeadline
    rw [hd]
    exact ih

/-- By any time no more invocations have started than periods have begun. -/
theorem length_started_le (hp : 0 < period) (h : Timetable period start vs) (t : Nat) :
    (vs.filter fun v => instant v.start ≤ t).length ≤ (t - start) / period + 1 := by
  induction h with
  | nil => simp
  | @cons v vs hvs hd hs _ _ ih =>
    by_cases hv : instant v.start ≤ t
    · have hcount := hvs.length_mul_le_upcoming
      have hle : vs.length ≤ (t - start) / period := by
        rw [Nat.le_div_iff_mul_le hp]
        omega
      rw [List.filter_cons_of_pos (by simpa using hv), List.length_cons]
      exact Nat.succ_le_succ (Nat.le_trans (List.length_filter_le ..) hle)
    · rw [List.filter_cons_of_neg (by simpa using hv)]
      exact ih

end Timetable

/-! ## Courses -/

namespace Moment

/-- The log after a move: an invocation has started, or the one in progress has ended. -/
def noted (q q' : Moment) (vs : List Invocation) : List Invocation :=
  match q.lane.current, q'.lane.current, vs with
  | some ⟨_, .waiting deadline⟩, some ⟨_, .busy next _⟩, vs =>
    { deadline, start := q'.now, next } :: vs
  | some ⟨_, .busy ..⟩, _, v :: vs => { v with stop := some q'.now } :: vs
  | _, _, vs => vs

/-- What becomes of the loop that is the current one of a lane, with the log of its invocations, the
latest first. -/
inductive Course (m : Moment) : List Invocation → Moment → Prop where
  | refl : Course m [] m
  | move {vs : List Invocation} {q q' : Moment} {horizon : Nat} : Course m vs q →
      q.lane.current.isSome = true → q.step? horizon = some q' → Course m (q.noted q' vs) q'
  /-- Time passes without a move. -/
  | pass {vs : List Invocation} {q : Moment} {now : Nat} : Course m vs q → q.now ≤ now →
      Course m vs { q with now }
  | cancel {vs : List Invocation} {q : Moment} : Course m vs q →
      Course m vs { q with lane := q.lane.cancel }
  /-- The host asks for another loop. -/
  | replace {vs : List Invocation} {q : Moment} (p : Plan Run) : Course m vs q →
      Course m vs { q with lane := q.lane.replace p }

variable {m q : Moment} {vs : List Invocation}

/-- How a loop of that period stands to its log: it waits for the deadline that comes next, or is in
the latest invocation. -/
structure InStep (period start : Nat) (vs : List Invocation) (q : Moment) : Prop where
  timetable : Timetable period start vs
  period_eq : ∀ c ∈ q.lane.current, c.plan.period = period
  /-- What has ended has done so by now. -/
  waiting : ∀ p deadline, q.lane.current = some ⟨p, .waiting deadline⟩ →
    deadline = upcoming start vs ∧ ∀ v ∈ vs.head?, ∃ e, v.stop = some e ∧ v.start ≤ e ∧ e ≤ q.now
  busy : ∀ p next job, q.lane.current = some ⟨p, .busy next job⟩ →
    ∃ v us, vs = v :: us ∧ v.next = next ∧ v.start ≤ q.now

variable {period start : Nat}

theorem InStep.pass (h : InStep period start vs q) {now : Nat} (hn : q.now ≤ now) :
    InStep period start vs { q with now } where
  timetable := h.timetable
  period_eq := h.period_eq
  waiting p deadline hc := by
    obtain ⟨hd, hv⟩ := h.waiting p deadline hc
    refine ⟨hd, fun v hmem => ?_⟩
    obtain ⟨e, he, hle, hen⟩ := hv v hmem
    exact ⟨e, he, hle, Nat.le_trans hen hn⟩
  busy p next job hc := by
    obtain ⟨v, us, hvs, hnext, hs⟩ := h.busy p next job hc
    exact ⟨v, us, hvs, hnext, Nat.le_trans hs hn⟩

/-- The host cancels loops and queues others, but touches no phase. -/
theorem exists_of_frame {l : TimedLane} {p : Plan Run} {phase : Phase Job}
    (hl : l.current = q.lane.current.map fun c => { c with plan := c.plan.cancel })
    (hc : l.current = some ⟨p, phase⟩) : ∃ p', q.lane.current = some ⟨p', phase⟩ := by
  obtain ⟨⟨p', phase'⟩, hold, hphase⟩ := Option.map_eq_some_iff.1 (hl.symm.trans hc)
  cases hphase
  exact ⟨p', hold⟩

theorem InStep.frame (h : InStep period start vs q) {l : TimedLane}
    (hl : l.current = q.lane.current.map fun c => { c with plan := c.plan.cancel }) :
    InStep period start vs { q with lane := l } where
  timetable := h.timetable
  period_eq c hc := by
    obtain ⟨c, hold, rfl⟩ := Option.map_eq_some_iff.1 (hl.symm.trans hc)
    exact h.period_eq c hold
  waiting _ deadline hc := by
    obtain ⟨p, hold⟩ := exists_of_frame hl hc
    exact h.waiting p deadline hold
  busy _ next job hc := by
    obtain ⟨p, hold⟩ := exists_of_frame hl hc
    exact h.busy p next job hold

theorem InStep.move (h : InStep period start vs q) (hc : q.lane.current.isSome = true) {q' : Moment}
    {horizon : Nat} (hm : Move horizon q q') : InStep period start (q.noted q' vs) q' := by
  cases hm with
  | drop hl | begin hl =>
    rw [hl] at hc
    cases hc
  | quit hl hp =>
    simp only [noted, hl]
    exact ⟨h.timetable, by simp, by simp, by simp⟩
  | @start p deadline t queued hl hp ht hh =>
    obtain ⟨hd, hv⟩ := h.waiting p deadline (by rw [hl])
    have hperiod : p.period = period := h.period_eq ⟨p, .waiting deadline⟩ (by rw [hl]; rfl)
    have hdue : deadline ≤ instant t := wakeTime_le_iff.1 (ht ▸ Nat.le_max_right ..)
    have hnow : q.now ≤ t := ht ▸ Nat.le_max_left ..
    simp only [noted, hl]
    refine ⟨.cons h.timetable hd hdue (by rw [hperiod]) fun v hmem => ?_, ?_, by simp, ?_⟩
    · obtain ⟨e, he, hle, hen⟩ := hv v hmem
      exact ⟨e, he, hle, Nat.le_trans hen hnow⟩
    · rintro c ⟨⟩
      exact hperiod
    · rintro p' next job ⟨⟩
      exact ⟨_, vs, rfl, rfl, Nat.le_refl t⟩
  | @finish p next t job queued hl hb ht hh =>
    obtain ⟨v, us, rfl, rfl, hs⟩ := h.busy p next job (by rw [hl])
    have hperiod : p.period = period := h.period_eq ⟨p, .busy v.next job⟩ (by rw [hl]; rfl)
    have hnow : q.now ≤ t := ht ▸ Nat.le_max_left ..
    simp only [noted, hl]
    refine ⟨h.timetable.ended _, ?_, ?_, by simp⟩
    · rintro c ⟨⟩
      exact hperiod
    · rintro p' deadline ⟨⟩
      refine ⟨rfl, ?_⟩
      rintro w ⟨⟩
      exact ⟨t, rfl, Nat.le_trans hs hnow, Nat.le_refl t⟩
  | @fail p next t job queued hl hb ht hh =>
    obtain ⟨v, us, rfl, rfl, hs⟩ := h.busy p next job (by rw [hl])
    simp only [noted, hl]
    exact ⟨h.timetable.ended _, by simp, by simp, by simp⟩

theorem Course.inStep {p : Plan Run} {queued : List (Plan Run)}
    (hm : m.lane = ⟨some ⟨p, .waiting (instant m.now)⟩, queued⟩) (h : Course m vs q) :
    InStep p.period (instant m.now) vs q := by
  induction h with
  | refl =>
    refine ⟨.nil, ?_, ?_, ?_⟩
    · rw [hm]
      rintro c ⟨⟩
      rfl
    · rw [hm]
      rintro p' deadline ⟨⟩
      exact ⟨rfl, by simp⟩
    · rw [hm]
      rintro p' next job ⟨⟩
  | move _ hc hs ih => exact ih.move hc (move_of_step? hs)
  | pass _ hn ih => exact ih.pass hn
  | cancel _ ih => exact ih.frame rfl
  | replace p _ ih => exact ih.frame rfl

/-- A log that is kept move by move can be kept for as long as the loop lasts. -/
theorem exists_moves {R : List Invocation → Moment → Prop}
    (hR : ∀ {vs q q' horizon}, R vs q → q.lane.current.isSome = true →
      q.step? horizon = some q' → R (q.noted q' vs) q')
    (h : R vs q) (horizon limit : Nat) :
    ∃ n ≤ limit, ∃ us, R us (q.moves horizon n) ∧
      ((q.moves horizon n).lane.current = none ∨
        q.moves horizon n = q.moves horizon limit) := by
  induction limit generalizing q vs with
  | zero => exact ⟨0, Nat.le_refl 0, vs, h, .inr rfl⟩
  | succ limit ih =>
    cases hc : q.lane.current with
    | none => exact ⟨0, Nat.zero_le _, vs, h, .inl hc⟩
    | some c =>
      cases hs : q.step? horizon with
      | none =>
        refine ⟨0, Nat.zero_le _, vs, h, .inr ?_⟩
        simp only [Moment.moves, hs]
      | some q' =>
        obtain ⟨n, hn, us, hlog, hend⟩ := ih (hR h (by rw [hc]; rfl) hs)
        refine ⟨n + 1, Nat.succ_le_succ hn, us, ?_, ?_⟩
        · simpa only [Moment.moves, hs] using hlog
        · simpa only [Moment.moves, hs] using hend

/-- What a lane does by itself is such a course, for as long as the loop lasts. -/
theorem Course.moves (h : Course m vs q) (horizon limit : Nat) :
    ∃ n ≤ limit, ∃ us, Course m us (q.moves horizon n) ∧
      ((q.moves horizon n).lane.current = none ∨
        q.moves horizon n = q.moves horizon limit) :=
  exists_moves .move h horizon limit

end Moment

/-- A loop that begins at a time serves that time first and then deadlines a whole number of periods
after it, each later than the one before. No invocation starts before its deadline, or before the one
before it has ended; so by any time no more have started than periods have begun. After a tick that was
late beyond the tolerance, the next deadline is the first one that is still to come. What a lane does by
itself is such a course, until the loop has ended. -/
theorem ticks_of_loop {m q : Moment} {p : Plan Run} {queued : List (Plan Run)}
    {vs : List Invocation} (hm : m.lane = ⟨some ⟨p, .waiting (instant m.now)⟩, queued⟩)
    (h : m.Course vs q) :
    (∀ v ∈ vs.getLast?, v.deadline = instant m.now) ∧
    (vs.map Invocation.deadline).Pairwise (· > ·) ∧
    (vs.IsChain fun w v => w.deadline = v.next) ∧
    (∀ v ∈ vs, OnGrid p.period (instant m.now) v.deadline ∧ v.deadline ≤ instant v.start) ∧
    (vs.Pairwise fun w v => v.Before w) ∧
    (∀ t, (vs.filter fun v => instant v.start ≤ t).length ≤ (t - instant m.now) / p.period + 1) ∧
    (∀ v ∈ vs,
      (instant v.start ≤ v.deadline + tolerance → v.next = v.deadline + p.period) ∧
      (v.deadline + tolerance < instant v.start →
        OnGrid p.period (instant m.now) v.next ∧ instant v.start < v.next ∧
        ∀ t, OnGrid p.period (instant m.now) t → instant v.start < t → v.next ≤ t)) ∧
    (∀ c deadline, q.lane.current = some ⟨c, .waiting deadline⟩ →
      deadline = upcoming (instant m.now) vs) ∧
    ∀ horizon limit, ∃ n ≤ limit, ∃ us, m.Course us (q.moves horizon n) ∧
      ((q.moves horizon n).lane.current = none ∨
        q.moves horizon n = q.moves horizon limit) := by
  have hstep := h.inStep hm
  have htable := hstep.timetable
  have hgrid := htable.deadline_onGrid
  refine ⟨htable.first_deadline, htable.deadlines_decreasing p.period_pos, htable.isChain,
    fun v hv => ⟨hgrid v hv, htable.deadline_le_start v hv⟩, htable.stopped_before,
    fun t => htable.length_started_le p.period_pos t, fun v hv => ⟨fun hle => ?_, fun hlate => ?_⟩,
    fun c deadline hc => (hstep.waiting c deadline hc).1, fun horizon limit => h.moves horizon limit⟩
  · rw [htable.next_eq v hv, nextDeadline_of_le hle]
  · rw [htable.next_eq v hv]
    exact ⟨(hgrid v hv).nextDeadline, lt_nextDeadline_of_lt p.period_pos hlate,
      fun t ht hlt => nextDeadline_le_of_onGrid (hgrid v hv) hlate ht hlt⟩

/-- A loop of ten milliseconds that begins at the third, and whose first invocation takes 25. -/
def overrunning : Moment where
  now := 3
  lane := ⟨some ⟨{ work := ⟨0, [.lasts 25, .lasts 2], 0⟩, period := 10000000, period_pos := by decide },
    .waiting (instant 3)⟩, []⟩

/-- The deadline at 13 is served at 28, and the one at 23 is skipped. -/
theorem overrunning_skips :
    ∃ u v w, overrunning.Course [w, v, u] (overrunning.moves 40 5) ∧
      u.deadline = instant 3 ∧ v.deadline = instant 13 ∧ v.start = 28 ∧ w.deadline = instant 33 ∧
      (∀ t, OnGrid 10000000 (instant 3) t → instant 28 < t → w.deadline ≤ t) ∧ v.Before w := by
  have hmove {vs us : List Invocation} {q q' : Moment} (h : overrunning.Course vs q)
      (hc : q.lane.current.isSome = true) (hs : q.step? 40 = some q') (hu : q.noted q' vs = us) :
      overrunning.Course us q' := hu ▸ .move h hc hs
  have first : overrunning.Course [⟨instant 3, 3, instant 13, none⟩] (overrunning.moves 40 1) :=
    hmove .refl rfl rfl rfl
  have second : overrunning.Course
      [⟨instant 13, 28, instant 33, none⟩, ⟨instant 3, 3, instant 13, some 28⟩]
      (overrunning.moves 40 3) := hmove (hmove first rfl rfl rfl) rfl rfl rfl
  have third : overrunning.Course
      [⟨instant 33, 33, instant 43, none⟩, ⟨instant 13, 28, instant 33, some 30⟩,
        ⟨instant 3, 3, instant 13, some 28⟩] (overrunning.moves 40 5) :=
    hmove (hmove second rfl rfl rfl) rfl rfl rfl
  obtain ⟨-, -, -, -, hbefore, -, hnext, -⟩ := ticks_of_loop rfl third
  obtain ⟨-, hlate⟩ := hnext ⟨instant 13, 28, instant 33, some 30⟩ (by simp)
  exact ⟨_, _, _, third, rfl, rfl, rfl, rfl, (hlate (by decide)).2.2,
    (List.pairwise_cons.1 hbefore).1 _ List.mem_cons_self⟩

end MetricRelay.Schedule
