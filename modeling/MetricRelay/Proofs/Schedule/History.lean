import MetricRelay.Proofs.Schedule.Independence

/-!
# Histories of a task

A `History` is what has befallen one task, written down as a session goes on: that it was added, that a
run of it succeeded, that it was stopped, that a loop under its name broke down. The scheduler keeps none
of this, and yet what it answers can be read off there: whether the name exists, which period it has, and
whether it is running. `Standing` names the four states a task can be in and says what its lane holds in
each; every step keeps it (`Standing.move`, `Standing.begin`, `Standing.resume`).
-/

namespace MetricRelay.Schedule

/-! ## Histories -/

/-- What befalls a task. -/
inductive Deed where
  | added
  /-- A run succeeds, and its loop has that number. -/
  | ran (number : Nat) (period : Duration)
  | stopped
  /-- The loop of that number breaks down. -/
  | broke (number : Nat)
  deriving DecidableEq

def Deed.run? : Deed → Option (Nat × Duration)
  | .ran number period => some (number, period)
  | _ => none

/-- Of a history, the latest first, what came after the last stop. -/
def sinceStop (log : List Deed) : List Deed := log.takeWhile (· ≠ .stopped)

/-- The last run that has succeeded since the last stop: the number of its loop, and its period. -/
def lastRun? (log : List Deed) : Option (Nat × Duration) := (sinceStop log).findSome? Deed.run?

/-- The number of a loop whose invocation in progress is to break down. -/
def Lane.breaking? (l : TimedLane) : Option Nat :=
  match l.current with
  | some ⟨p, .busy _ job⟩ => if job.breaks then some p.work.number else none
  | _ => none

/-- The stop of a task, if it is among the names that a call has got to. -/
def stops (x : String) (p : Progress) (names : List String) : List Deed :=
  if x ∈ p.stopped names then [.stopped] else []

namespace Rehearsal

def breaking (r : Rehearsal) (x : String) : List Nat :=
  (r.scheduler.lanesOf x).filterMap Lane.breaking?

/-- The loops under a name that break down in a move: they were about to, and are gone. -/
def broken (r r' : Rehearsal) (x : String) : List Nat :=
  (r.breaking x).filter (· ∉ r'.breaking x)

/-- What beginning a call is to a task. -/
def deeds (r : Rehearsal) (x : String) : Call → List Deed
  | .add y => if y = x then [.added] else []
  | .run y period efforts =>
    if y = x ∧ (r.begin (.run y period efforts)).1.answer = .done then [.ran r.runs period] else []
  | .stop y => if y = x then [.stopped] else []
  | .stopAll => stops x (r.begin .stopAll).1 r.scheduler.tasks.keys

end Rehearsal

/-- What has befallen a task by the time a new scheduler has come to a session, the latest first. -/
inductive History (x : String) : List Deed → Session → Prop where
  | new : History x [] {}
  | call {log : List Deed} {s : Session} (c : Call) : History x log s →
      History x (s.rehearsal.deeds x c ++ log) (s.call c)
  | resume {log : List Deed} {s : Session} {i : Nat} {p : Progress} : History x log s →
      s.calls[i]? = some p →
      History x (stops x (s.rehearsal.resume p).1 p.more ++ log) (s.resume i p)
  | move {log : List Deed} {s : Session} {r : Rehearsal} : History x log s → s.rehearsal.Move r →
      History x ((s.rehearsal.broken r x).map .broke ++ log) { s with rehearsal := r }

section

variable {s : Session}

/-- Just the sessions that a new scheduler can come to have a history of the task. -/
theorem reachable_iff_history (x : String) : Reachable AnyTime s ↔ ∃ log, History x log s := by
  constructor
  · intro h
    induction h with
    | refl => exact ⟨[], .new⟩
    | tail _ hstep ih =>
      obtain ⟨log, hlog⟩ := ih
      cases hstep with
      | call => exact ⟨_, hlog.call _⟩
      | resume hp => exact ⟨_, hlog.resume hp⟩
      | move hm => exact ⟨_, hlog.move hm⟩
  · rintro ⟨log, h⟩
    induction h with
    | new => exact .refl _
    | call c _ ih => exact ih.call trivial
    | resume _ hp ih => exact .tail ih (.resume hp)
    | move _ hm ih => exact .tail ih (.move hm)

end

/-! ### Reading a history -/

section

variable {log : List Deed}

@[simp] theorem sinceStop_stopped : sinceStop (.stopped :: log) = [] := rfl

theorem sinceStop_cons {d : Deed} (h : d ≠ .stopped) : sinceStop (d :: log) = d :: sinceStop log :=
  List.takeWhile_cons_of_pos (decide_eq_true h)

@[simp] theorem lastRun?_stopped : lastRun? (.stopped :: log) = none := rfl

@[simp] theorem lastRun?_added : lastRun? (.added :: log) = lastRun? log := rfl

@[simp] theorem lastRun?_ran (number : Nat) (period : Duration) :
    lastRun? (.ran number period :: log) = some (number, period) := rfl

theorem added_mem_sinceStop_cons {d : Deed} (h : d ≠ .stopped) (h' : d ≠ .added) :
    .added ∈ sinceStop (d :: log) ↔ .added ∈ sinceStop log := by
  rw [sinceStop_cons h, List.mem_cons]
  exact or_iff_right (Ne.symm h')

theorem added_mem_sinceStop_broke (ended : List Nat) (log : List Deed) :
    .added ∈ sinceStop (ended.map .broke ++ log) ↔ .added ∈ sinceStop log := by
  induction ended with
  | nil => rfl
  | cons n ended ih => exact (added_mem_sinceStop_cons (by simp) (by simp)).trans ih

@[simp] theorem lastRun?_broke (ended : List Nat) (log : List Deed) :
    lastRun? (ended.map .broke ++ log) = lastRun? log := by
  induction ended with
  | nil => rfl
  | cons n ended ih => exact ih

end

/-! ## The loop of the last run -/

namespace Lane

/-- The number of each loop that has not ended, and whether it is cancelled, oldest first. -/
def marks (l : TimedLane) : List (Nat × Bool) := l.plans.map fun p => (p.work.number, p.cancelled)

def numbers (l : TimedLane) : List Nat := l.plans.map fun p => p.work.number

/-- The last loop is the only one of that number, and it is not cancelled. -/
def LedBy (n : Nat) (l : TimedLane) : Prop :=
  ∃ front, l.marks = front ++ [(n, false)] ∧ ∀ e ∈ front, e.1 ≠ n

variable {l : TimedLane} {n : Nat}

theorem numbers_replace (l : TimedLane) (p : Plan Run) :
    (l.replace p).numbers = l.numbers ++ [p.work.number] := by
  unfold numbers
  rw [plans_replace, List.map_append, List.map_map]
  rfl

theorem numbers_cancel (l : TimedLane) : l.cancel.numbers = l.numbers := by
  unfold numbers
  rw [plans_cancel, List.map_map]
  rfl

theorem ledBy_replace {p : Plan Run} (hp : p.cancelled = false) (h : p.work.number ∉ l.numbers) :
    (l.replace p).LedBy p.work.number := by
  refine ⟨l.plans.map fun q => (q.work.number, true), ?_, fun e he heq => h ?_⟩
  · unfold marks
    rw [plans_replace, List.map_append, List.map_map, List.map_singleton, hp]
    rfl
  · obtain ⟨q, hq, rfl⟩ := List.mem_map.1 he
    exact List.mem_map.2 ⟨q, hq, heq⟩

theorem LedBy.isEmpty (h : l.LedBy n) : l.isEmpty = false := by
  obtain ⟨front, hl, -⟩ := h
  refine Bool.eq_false_iff.2 fun he => ?_
  unfold marks at hl
  rw [isEmpty_iff.1 he] at hl
  simp at hl

/-- The first loop is the one, alone in the lane, or it is another one before it. -/
theorem LedBy.first (h : l.LedBy n) {p : Plan Run} {q : List (Plan Run)} (hl : l.plans = p :: q) :
    (p.work.number = n ∧ p.cancelled = false ∧ q = []) ∨
      (p.work.number ≠ n ∧ ∀ l' : TimedLane, l'.plans = q → l'.LedBy n) := by
  obtain ⟨front, hmarks, hfront⟩ := h
  unfold marks at hmarks
  rw [hl, List.map_cons] at hmarks
  cases front with
  | nil =>
    simp only [List.nil_append, List.cons.injEq, Prod.mk.injEq, List.map_eq_nil_iff] at hmarks
    exact .inl ⟨hmarks.1.1, hmarks.1.2, hmarks.2⟩
  | cons e front =>
    obtain ⟨rfl, hrest⟩ := List.cons.inj hmarks
    refine .inr ⟨hfront _ List.mem_cons_self, fun l' hl' => ⟨front, ?_, fun e he => ?_⟩⟩
    · unfold marks
      rw [hl']
      exact hrest
    · exact hfront e (List.mem_cons_of_mem _ he)

theorem mem_numbers_of_breaking? (h : l.breaking? = some n) : n ∈ l.numbers := by
  obtain ⟨current, queued⟩ := l
  unfold breaking? at h
  rcases current with _ | ⟨p, deadline | ⟨next, job⟩⟩ <;> simp only at h
  · cases h
  · cases h
  · split at h
    · cases h
      exact List.mem_cons_self
    · cases h

end Lane

namespace Moment

variable {horizon n : Nat} {m m' : Moment}

theorem Move.numbers_sublist (h : Move horizon m m') : m'.lane.numbers.Sublist m.lane.numbers := by
  cases h with
  | drop hl | quit hl | fail hl =>
    rw [hl]
    exact List.sublist_cons_self ..
  | begin hl | start hl | finish hl =>
    rw [hl]
    exact List.Sublist.refl _

/-- The loop of the last run stays the last, and is as near to breaking down as before; or it breaks
down and leaves the lane empty. -/
theorem Move.ledBy (h : Move horizon m m') (hl : m.lane.LedBy n) :
    (m'.lane.LedBy n ∧ (m.lane.breaking? = some n → m'.lane.breaking? = some n)) ∨
      (m.lane.breaking? = some n ∧ m'.lane.plans = []) := by
  cases h with
  | @drop p q hm hp | @quit p _ q hm hp =>
    rcases hl.first (p := p) (q := q) (by rw [hm]; rfl) with ⟨-, hlive, -⟩ | ⟨-, hrest⟩
    · rw [hp] at hlive
      cases hlive
    · exact .inl ⟨hrest _ rfl, by simp [hm, Lane.breaking?]⟩
  | begin hm | start hm | finish hm hb =>
    rw [hm] at hl ⊢
    exact .inl ⟨hl, by simp [Lane.breaking?, *]⟩
  | @fail p next t job q hm hb =>
    have hnumber : m.lane.breaking? = some p.work.number := by simp [hm, Lane.breaking?, hb]
    rcases hl.first (p := p) (q := q) (by rw [hm]; rfl) with ⟨hn, -, hq⟩ | ⟨hn, hrest⟩
    · exact .inr ⟨hn ▸ hnumber, hq⟩
    · refine .inl ⟨hrest _ rfl, fun h => ?_⟩
      rw [hnumber] at h
      exact absurd (Option.some.inj h) hn

end Moment

/-! ## What is known of the loops -/

namespace Rehearsal

/-- No lane that leaves under that name has a loop of that number. -/
def NotLeaving (r : Rehearsal) (x : String) (n : Nat) : Prop :=
  ∀ l ∈ r.scheduler.leavingOf x, n ∉ l.numbers

/-- The numbers of all loops under a name have been given out. -/
def Counted (r : Rehearsal) (x : String) : Prop :=
  ∀ l ∈ r.scheduler.lanesOf x, ∀ n ∈ l.numbers, n < r.runs

variable {r r' : Rehearsal} {x : String} {log : List Deed} {n : Nat}

theorem Counted.notLeaving (h : r.Counted x) : r.NotLeaving x r.runs := fun l hl hn =>
  Nat.lt_irrefl _ (h l (List.mem_append_right _ hl) _ hn)

theorem Counted.move (h : r.Counted x) (hm : r.Move r') : r'.Counted x := by
  unfold Counted
  rw [hm.runs]
  exact hm.forall_lanesOf
    (fun _ _ _ hmove hl n hn => hl n (hmove.numbers_sublist.subset hn)) h

theorem Counted.stopping (h : r.Counted x) {a : Answer} {names : List String} {p : Progress}
    (hs : Stopping a r names p r') : r'.Counted x := by
  unfold Counted
  rw [hs.sameTrace.2.2]
  refine hs.forall_lanesOf (fun l hl n hn => ?_) h
  rw [Lane.numbers_cancel] at hn
  exact hl n hn

theorem Counted.resume (h : r.Counted x) (p : Progress) : (r.resume p).2.Counted x := by
  rcases r.resume_cases p with hp | ⟨id, more, a, -, -, hs⟩
  · rwa [hp]
  · exact h.stopping hs

theorem Counted.begin (h : r.Counted x) (c : Call) : (r.begin c).2.Counted x := by
  cases c with
  | add y =>
    intro l hl n hn
    rcases Scheduler.mem_lanesOf_add hl with hl | hl
    · exact h l hl n hn
    · unfold Lane.numbers at hn
      rw [Lane.isEmpty_iff.1 hl] at hn
      cases hn
  | run y period efforts =>
    rcases r.begin_run_cases y period efforts with ⟨e, he⟩ | ⟨t, p, ht, hp, he⟩
    · rw [he]
      exact fun l hl n hn => Nat.lt_succ_of_lt (h l hl n hn)
    · rw [he]
      intro l hl n hn
      rcases Scheduler.mem_lanesOf_insert hl with hl | ⟨rfl, rfl⟩
      · exact Nat.lt_succ_of_lt (h l hl n hn)
      · rw [Lane.numbers_replace] at hn
        rcases List.mem_append.1 hn with hn | hn
        · exact Nat.lt_succ_of_lt (h t.lane (Scheduler.mem_lanesOf.2 (.inl ⟨t, ht, rfl⟩)) n hn)
        · rw [List.mem_singleton.1 hn, hp]
          exact Nat.lt_succ_self _
  | stop y => exact h.stopping (stopping_stopInTurn ..)
  | stopAll => exact h.stopping (stopping_stopInTurn ..)

/-! ### Moves -/

theorem mem_broken : n ∈ r.broken r' x ↔ n ∈ r.breaking x ∧ n ∉ r'.breaking x := by
  unfold broken
  rw [List.mem_filter, decide_eq_true_iff]

theorem broke_mem_append {ended : List Nat} :
    .broke n ∈ ended.map .broke ++ log ↔ n ∈ ended ∨ .broke n ∈ log := by
  simp

theorem mem_breaking (h : r.NotLeaving x n) : n ∈ r.breaking x ↔
    ∃ t, r.scheduler.tasks.get? x = some t ∧ t.lane.breaking? = some n := by
  unfold breaking
  rw [List.mem_filterMap]
  refine ⟨fun ⟨l, hl, hn⟩ => ?_, fun ⟨t, ht, hn⟩ =>
    ⟨t.lane, Scheduler.mem_lanesOf.2 (.inl ⟨t, ht, rfl⟩), hn⟩⟩
  unfold Scheduler.lanesOf at hl
  rcases List.mem_append.1 hl with hl | hl
  · rw [Option.mem_toList, Option.map_eq_some_iff] at hl
    obtain ⟨t, ht, rfl⟩ := hl
    exact ⟨t, ht, hn⟩
  · exact absurd (Lane.mem_numbers_of_breaking? hn) (h l hl)

/-- A move is one of the lane of the task, or it leaves the task alone. -/
theorem Move.task_cases (h : r.Move r') (x : String) :
    r'.scheduler.tasks.get? x = r.scheduler.tasks.get? x ∨
      ∃ t now horizon m, r.scheduler.tasks.get? x = some t ∧
        (Moment.mk now t.lane []).Move horizon m ∧
        r'.scheduler.tasks.get? x = some { t with lane := m.lane } := by
  cases h with
  | @task y t now horizon m ht hn hm =>
    by_cases hy : y = x
    · subst hy
      exact .inr ⟨t, now, horizon, m, ht, Moment.move_of_step? hm, Table.get?_insert_self ..⟩
    · refine .inl ?_
      rw [withTask, Table.get?_insert, if_neg (Ne.symm hy)]
  | departure | forget | pass => exact .inl rfl

theorem notLeaving_iff : r.NotLeaving x n ↔
    ∀ d ∈ r.scheduler.leaving, d.name = x → n ∉ d.lane.numbers := by
  unfold NotLeaving Scheduler.leavingOf
  simp only [List.forall_mem_map, List.mem_filter, decide_eq_true_eq, and_imp]

theorem NotLeaving.move (h : r.NotLeaving x n) (hm : r.Move r') : r'.NotLeaving x n := by
  rw [notLeaving_iff] at h ⊢
  exact hm.forall_leaving (P := fun name l => name = x → n ∉ l.numbers)
    (fun _ _ _ _ hmove hl hx hmem => hl hx (hmove.numbers_sublist.subset hmem)) h

/-- Whether a loop that is not of a lane that leaves breaks down in a move. -/
theorem mem_broken_iff (hn : r.NotLeaving x n) (hm : r.Move r') : n ∈ r.broken r' x ↔
    (∃ t, r.scheduler.tasks.get? x = some t ∧ t.lane.breaking? = some n) ∧
      ¬∃ t, r'.scheduler.tasks.get? x = some t ∧ t.lane.breaking? = some n := by
  rw [mem_broken, mem_breaking hn, mem_breaking (hn.move hm)]

/-! ### Calls -/

theorem Stopping.get?_eq {a : Answer} {names : List String} {p : Progress}
    (h : Stopping a r names p r') (x : String) : r'.scheduler.tasks.get? x =
      if x ∈ p.stopped names then none else r.scheduler.tasks.get? x := by
  induction h with
  | done => simp [Progress.stopped]
  | @absent r r' name more p ht hrest ih =>
    rw [stopped_cons hrest.length_more_le, ih]
    by_cases hx : x = name
    · simp [hx, ht]
    · simp [hx]
  | @ended r r' name t more p ht _ hrest ih =>
    rw [stopped_cons hrest.length_more_le, ih, depart, Table.get?_erase]
    by_cases hx : x = name
    · simp [hx]
    · simp [hx]
  | @waits r name t more ht =>
    rw [depart, Table.get?_erase]
    simp [Progress.stopped, Progress.more]

theorem Stopping.leavingOf_eq {a : Answer} {names : List String} {p : Progress}
    (h : Stopping a r names p r') (hx : x ∉ p.stopped names) :
    r'.scheduler.leavingOf x = r.scheduler.leavingOf x := by
  induction h with
  | done => rfl
  | @absent r r' name more p _ hrest ih =>
    rw [stopped_cons hrest.length_more_le] at hx
    exact ih fun hmem => hx (List.mem_cons_of_mem _ hmem)
  | @ended r r' name t more p _ _ hrest ih =>
    rw [stopped_cons hrest.length_more_le, List.mem_cons, not_or] at hx
    rw [ih hx.2, leavingOf_depart, if_neg (Ne.symm hx.1), List.append_nil]
  | @waits r name t more =>
    have hne : x ≠ name := by
      rintro rfl
      exact hx (by simp [Progress.stopped, Progress.more])
    rw [leavingOf_depart, if_neg (Ne.symm hne), List.append_nil]

theorem begin_run_of_zero (r : Rehearsal) (x : String) {period : Duration} (h : period.nanos = 0)
    (efforts : List Effort) : r.begin (.run x period efforts) =
      (.finished (.failed (.config s!"task `{x}`: period must be > 0")),
        { r with runs := r.runs + 1 }) := by
  unfold Rehearsal.begin Scheduler.run
  simp only [h, Nat.lt_irrefl, ↓reduceDIte]

theorem begin_run_of_none (h : r.scheduler.tasks.get? x = none) {period : Duration}
    (hp : 0 < period.nanos) (efforts : List Effort) : r.begin (.run x period efforts) =
      (.finished (.failed (.notRegistered .task x)), { r with runs := r.runs + 1 }) := by
  unfold Rehearsal.begin Scheduler.run
  simp only [h, hp, ↓reduceDIte]

/-- The loop that a run asks for, before it has begun. -/
def newPlan (r : Rehearsal) {period : Duration} (hp : 0 < period.nanos) (efforts : List Effort) :
    Plan Run := { work := ⟨r.runs, efforts, 0⟩, period := period.nanos, period_pos := hp }

theorem begin_run_of_some {t : Task Run Job} (h : r.scheduler.tasks.get? x = some t)
    {period : Duration} (hp : 0 < period.nanos) (efforts : List Effort) :
    r.begin (.run x period efforts) = (.finished .done, { r with
      scheduler := { r.scheduler with
        tasks := r.scheduler.tasks.insert x
          { period := some period, lane := t.lane.replace (r.newPlan hp efforts) } }
      runs := r.runs + 1 }) := by
  unfold Rehearsal.begin Scheduler.run
  simp only [h, hp, ↓reduceDIte]
  rfl

end Rehearsal

/-! ## The four states of a task -/

/-- How a task stands after such a history. -/
inductive Standing (x : String) (log : List Deed) (r : Rehearsal) : Prop where
  | absent : r.scheduler.tasks.get? x = none → .added ∉ sinceStop log → lastRun? log = none →
      Standing x log r
  | idle {t : Task Run Job} : r.scheduler.tasks.get? x = some t → .added ∈ sinceStop log →
      lastRun? log = none → t.period = none → t.lane.isEmpty = true → Standing x log r
  /-- The loop of the last run may wait for those before it. -/
  | running {t : Task Run Job} {n : Nat} {period : Duration} :
      r.scheduler.tasks.get? x = some t → .added ∈ sinceStop log →
      lastRun? log = some (n, period) → .broke n ∉ log → t.period = some period →
      t.lane.LedBy n → r.NotLeaving x n → Standing x log r
  | dead {t : Task Run Job} {n : Nat} {period : Duration} :
      r.scheduler.tasks.get? x = some t → .added ∈ sinceStop log →
      lastRun? log = some (n, period) → .broke n ∈ log → t.period = some period →
      t.lane.isEmpty = true → Standing x log r

section

open Rehearsal

variable {r r' : Rehearsal} {x : String} {log : List Deed} {n : Nat}

/-- A move of another lane. -/
theorem Standing.move_aside (h : Standing x log r) (hm : r.Move r')
    (hsame : r'.scheduler.tasks.get? x = r.scheduler.tasks.get? x) :
    Standing x ((r.broken r' x).map .broke ++ log) r' := by
  have hadded := added_mem_sinceStop_broke (r.broken r' x) log
  have hlast := lastRun?_broke (r.broken r' x) log
  cases h with
  | absent ht ha hr => exact .absent (hsame.trans ht) (mt hadded.1 ha) (hlast.trans hr)
  | idle ht ha hr hp he => exact .idle (hsame.trans ht) (hadded.2 ha) (hlast.trans hr) hp he
  | @running t n period ht ha hr hb hp hl hn =>
    have hkept : n ∉ r.broken r' x := by
      rw [mem_broken_iff hn hm, hsame]
      exact fun hboth => hboth.2 hboth.1
    exact .running (hsame.trans ht) (hadded.2 ha) (hlast.trans hr)
      (fun hmem => (broke_mem_append.1 hmem).elim hkept hb) hp hl (hn.move hm)
  | dead ht ha hr hb hp he =>
    exact .dead (hsame.trans ht) (hadded.2 ha) (hlast.trans hr) (broke_mem_append.2 (.inr hb)) hp he

/-- A move of the lane of the task, which has loops then. -/
theorem Standing.move_lane (h : Standing x log r) (hm : r.Move r') {t : Task Run Job}
    {now horizon : Nat} {m : Moment} (ht : r.scheduler.tasks.get? x = some t)
    (hmove : (Moment.mk now t.lane []).Move horizon m)
    (ht' : r'.scheduler.tasks.get? x = some { t with lane := m.lane }) :
    Standing x ((r.broken r' x).map .broke ++ log) r' := by
  have hne : t.lane.isEmpty = false := hmove.ne_empty
  cases h with
  | absent hget =>
    rw [hget] at ht
    cases ht
  | idle hget _ _ _ he | dead hget _ _ _ _ he =>
    cases hget.symm.trans ht
    rw [hne] at he
    cases he
  | @running _ n period hget ha hr hb hp hl hn =>
    cases hget.symm.trans ht
    have hadded := (added_mem_sinceStop_broke (r.broken r' x) log).2 ha
    have hlast := (lastRun?_broke (r.broken r' x) log).trans hr
    have hbroken := mem_broken_iff hn hm
    -- loops of that number are in the lane of the task only, so none but this move tells what
    -- becomes of the loop of the last run
    rcases hmove.ledBy hl with ⟨hl', hkeep⟩ | ⟨hbreaks, hended⟩
    · have hkept : n ∉ r.broken r' x := fun hmem => by
        obtain ⟨⟨k, hk, hbreaks⟩, hgone⟩ := hbroken.1 hmem
        cases hk.symm.trans ht
        exact hgone ⟨_, ht', hkeep hbreaks⟩
      exact .running ht' hadded hlast (fun hmem => (broke_mem_append.1 hmem).elim hkept hb) hp hl'
        (hn.move hm)
    · have hgone : ¬∃ k, r'.scheduler.tasks.get? x = some k ∧ k.lane.breaking? = some n := by
        rintro ⟨k, hk, hbreaking⟩
        cases ht'.symm.trans hk
        have hmem := Lane.mem_numbers_of_breaking? hbreaking
        unfold Lane.numbers at hmem
        rw [hended] at hmem
        cases hmem
      exact .dead ht' hadded hlast
        (broke_mem_append.2 (.inl (hbroken.2 ⟨⟨t, ht, hbreaks⟩, hgone⟩))) hp
        (Lane.isEmpty_iff.2 hended)

/-- A loop that breaks down is written down, so the task is dead by its history when its lane is. -/
theorem Standing.move (h : Standing x log r) (hm : r.Move r') :
    Standing x ((r.broken r' x).map .broke ++ log) r' := by
  rcases hm.task_cases x with hsame | ⟨t, now, horizon, m, ht, hmove, ht'⟩
  · exact h.move_aside hm hsame
  · exact h.move_lane hm ht hmove ht'

/-- How a task stands is a matter of its entry and of the lanes that leave under its name. -/
theorem Standing.congr (h : Standing x log r)
    (ht : r'.scheduler.tasks.get? x = r.scheduler.tasks.get? x)
    (hl : r'.scheduler.leavingOf x = r.scheduler.leavingOf x) : Standing x log r' := by
  cases h with
  | absent h ha hr => exact .absent (ht.trans h) ha hr
  | idle h ha hr hp he => exact .idle (ht.trans h) ha hr hp he
  | running h ha hr hb hp hled hn =>
    refine .running (ht.trans h) ha hr hb hp hled ?_
    unfold NotLeaving
    rw [hl]
    exact hn
  | dead h ha hr hb hp he => exact .dead (ht.trans h) ha hr hb hp he

theorem Standing.stopping (h : Standing x log r) {a : Answer} {names : List String} {p : Progress}
    (hs : Stopping a r names p r') : Standing x (stops x p names ++ log) r' := by
  have hget := hs.get?_eq x
  unfold stops
  split
  · next hx =>
    rw [if_pos hx] at hget
    exact .absent hget (by simp) rfl
  · next hx =>
    rw [if_neg hx] at hget
    exact h.congr hget (hs.leavingOf_eq hx)

theorem Standing.resume (h : Standing x log r) (p : Progress) :
    Standing x (stops x (r.resume p).1 p.more ++ log) (r.resume p).2 := by
  rcases r.resume_cases p with hp | ⟨id, more, a, rfl, -, hs⟩
  · rw [hp]
    simpa [stops, Progress.stopped] using h
  · exact h.stopping hs

theorem Standing.add (h : Standing x log r) : Standing x (.added :: log) (r.begin (.add x)).2 := by
  have hget : (r.begin (.add x)).2.scheduler.tasks.get? x =
      some ((r.scheduler.tasks.get? x).getD {}) := by
    rw [Rehearsal.begin, Scheduler.add, Table.get?_insertNew, if_pos rfl]
  have hadded : .added ∈ sinceStop (.added :: log) := by simp [sinceStop_cons]
  cases h with
  | absent ht _ hr =>
    rw [ht] at hget
    exact .idle hget hadded hr rfl rfl
  | idle ht _ hr hp he =>
    rw [ht] at hget
    exact .idle hget hadded hr hp he
  | running ht _ hr hb hp hl hn =>
    rw [ht] at hget
    exact .running hget hadded hr (by simpa using hb) hp hl hn
  | dead ht _ hr hb hp he =>
    rw [ht] at hget
    exact .dead hget hadded hr (by simpa using hb) hp he

theorem Standing.added_mem (h : Standing x log r) {t : Task Run Job}
    (ht : r.scheduler.tasks.get? x = some t) : .added ∈ sinceStop log := by
  cases h with
  | absent hn =>
    rw [hn] at ht
    cases ht
  | idle _ ha | running _ ha | dead _ ha => exact ha

theorem Standing.run (h : Standing x log r) (hc : r.Counted x) (hb : .broke r.runs ∉ log)
    {t : Task Run Job} (ht : r.scheduler.tasks.get? x = some t) {period : Duration}
    (hp : 0 < period.nanos) (efforts : List Effort) :
    Standing x (.ran r.runs period :: log) (r.begin (.run x period efforts)).2 := by
  have hfresh : r.runs ∉ t.lane.numbers := fun hmem =>
    Nat.lt_irrefl _ (hc t.lane (Scheduler.mem_lanesOf.2 (.inl ⟨t, ht, rfl⟩)) _ hmem)
  have hadded : .added ∈ sinceStop (.ran r.runs period :: log) :=
    (added_mem_sinceStop_cons (by simp) (by simp)).2 (h.added_mem ht)
  rw [begin_run_of_some ht hp efforts]
  exact .running (Table.get?_insert_self ..) hadded rfl (by simpa using hb) rfl
    (Lane.ledBy_replace rfl hfresh) hc.notLeaving

theorem Standing.begin (h : Standing x log r) (hc : r.Counted x) (hb : .broke r.runs ∉ log)
    (c : Call) : Standing x (r.deeds x c ++ log) (r.begin c).2 := by
  cases c with
  | add y =>
    rw [deeds]
    split
    · next hy =>
      subst hy
      exact h.add
    · next hy =>
      refine h.congr ?_ rfl
      rw [Rehearsal.begin, Scheduler.add, Table.get?_insertNew, if_neg (Ne.symm hy)]
  | run y period efforts =>
    rw [deeds]
    rcases Nat.eq_zero_or_pos period.nanos with hzero | hp
    · rw [begin_run_of_zero r y hzero, if_neg (by simp [Progress.answer])]
      exact h.congr rfl rfl
    cases ht : r.scheduler.tasks.get? y with
    | none =>
      rw [begin_run_of_none ht hp, if_neg (by simp [Progress.answer])]
      exact h.congr rfl rfl
    | some t =>
      have hdone : (r.begin (.run y period efforts)).1.answer = .done := by
        rw [begin_run_of_some ht hp]
        rfl
      by_cases hy : y = x
      · subst hy
        rw [if_pos ⟨rfl, hdone⟩]
        exact h.run hc hb ht hp efforts
      · rw [if_neg fun hboth => hy hboth.1, begin_run_of_some ht hp]
        refine h.congr ?_ rfl
        rw [Table.get?_insert, if_neg (Ne.symm hy)]
  | stop y =>
    rw [deeds]
    split
    · next hy =>
      subst hy
      exact .absent (get?_stop ⟨r, []⟩ y) (by simp) rfl
    · next hy =>
      have hstop : Stopping (.stopped (r.scheduler.exists? y)) r [y] (r.begin (.stop y)).1
          (r.begin (.stop y)).2 := stopping_stopInTurn ..
      have hx : x ∉ (r.begin (.stop y)).1.stopped [y] := fun hmem =>
        hy (List.mem_singleton.1 (List.mem_of_mem_take hmem)).symm
      refine h.congr ?_ (hstop.leavingOf_eq hx)
      rw [hstop.get?_eq, if_neg hx]
  | stopAll => exact h.stopping (stopping_stopInTurn ..)

end

/-! ### All steps -/

section

variable {x : String} {n : Nat}

theorem broke_notMem_stops {p : Progress} {names : List String} : .broke n ∉ stops x p names := by
  unfold stops
  split <;> simp

theorem Rehearsal.broke_notMem_deeds {r : Rehearsal} (c : Call) : .broke n ∉ r.deeds x c := by
  cases c with
  | add | run | stop =>
    rw [deeds]
    split <;> simp
  | stopAll => exact broke_notMem_stops

end

/-- What a history says of the task is so. -/
structure Faithful (x : String) (log : List Deed) (r : Rehearsal) : Prop where
  standing : Standing x log r
  counted : r.Counted x
  /-- Only loops that have been asked for break down. -/
  asked : ∀ n, .broke n ∈ log → n < r.runs

section

variable {x : String} {log : List Deed} {r r' : Rehearsal}

theorem Faithful.begin (h : Faithful x log r) (c : Call) : Faithful x (r.deeds x c ++ log) (r.begin c).2 where
  standing := h.standing.begin h.counted (fun hmem => Nat.lt_irrefl _ (h.asked _ hmem)) c
  counted := h.counted.begin c
  asked n hn := by
    rcases List.mem_append.1 hn with hn | hn
    · exact absurd hn (Rehearsal.broke_notMem_deeds c)
    · exact Nat.lt_of_lt_of_le (h.asked n hn) (r.runs_le_begin c)

theorem Faithful.resume (h : Faithful x log r) (p : Progress) :
    Faithful x (stops x (r.resume p).1 p.more ++ log) (r.resume p).2 where
  standing := h.standing.resume p
  counted := h.counted.resume p
  asked n hn := by
    rw [(r.sameTrace_resume p).2.2]
    rcases List.mem_append.1 hn with hn | hn
    · exact absurd hn broke_notMem_stops
    · exact h.asked n hn

theorem Faithful.move (h : Faithful x log r) (hm : r.Move r') :
    Faithful x ((r.broken r' x).map .broke ++ log) r' where
  standing := h.standing.move hm
  counted := h.counted.move hm
  asked n hn := by
    rw [hm.runs]
    rcases Rehearsal.broke_mem_append.1 hn with hn | hn
    · obtain ⟨hn, -⟩ := Rehearsal.mem_broken.1 hn
      obtain ⟨l, hl, hn⟩ := List.mem_filterMap.1 hn
      exact h.counted l hl n (Lane.mem_numbers_of_breaking? hn)
    · exact h.asked n hn

theorem History.faithful {s : Session} (h : History x log s) : Faithful x log s.rehearsal := by
  induction h with
  | new =>
    have hcounted : Rehearsal.Counted {} x := by
      simp [Rehearsal.Counted, Scheduler.lanesOf, Scheduler.leavingOf]
    exact ⟨.absent rfl (by simp [sinceStop]) rfl, hcounted, by simp⟩
  | call c _ ih => exact ih.begin c
  | resume _ _ ih => exact ih.resume _
  | move _ hm ih => exact ih.move hm

end

/-! ## What a history says -/

section

variable {x : String} {log : List Deed} {r : Rehearsal}

theorem Standing.exists_iff (h : Standing x log r) :
    r.scheduler.exists? x = true ↔ .added ∈ sinceStop log := by
  unfold Scheduler.exists? Table.contains
  cases h with
  | absent ht ha => simp [ht, ha]
  | idle ht ha | running ht ha | dead ht ha => simp [ht, ha]

theorem Standing.period_eq (h : Standing x log r) :
    r.scheduler.period x = (lastRun? log).map Prod.snd := by
  unfold Scheduler.period
  cases h with
  | absent ht _ hr => simp [ht, hr]
  | idle ht _ hr hp | running ht _ hr _ hp | dead ht _ hr _ hp => simp [ht, hr, hp]

theorem Standing.isRunning_iff (h : Standing x log r) : r.scheduler.isRunning x = true ↔
    ∃ n period, lastRun? log = some (n, period) ∧ .broke n ∉ log := by
  unfold Scheduler.isRunning
  cases h with
  | absent ht _ hr => simp [ht, hr]
  | idle ht _ hr _ he => simp [ht, hr, he]
  | running ht _ hr hb _ hl => simp [ht, hr, hb, hl.isEmpty]
  | dead ht _ hr hb _ he => simp [ht, hr, hb, he]

/-- A task whose last loop has broken down has none. -/
theorem Standing.exists_isEmpty (h : Standing x log r) {n : Nat} {period : Duration}
    (hr : lastRun? log = some (n, period)) (hb : .broke n ∈ log) :
    ∃ t, r.scheduler.tasks.get? x = some t ∧ t.lane.isEmpty = true := by
  cases h with
  | absent _ _ hnone | idle _ _ hnone =>
    rw [hnone] at hr
    cases hr
  | running _ _ hlast hlive =>
    cases hlast.symm.trans hr
    exact absurd hb hlive
  | @dead t _ _ ht _ _ _ _ he => exact ⟨t, ht, he⟩

end

end MetricRelay.Schedule
