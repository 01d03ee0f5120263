import MetricRelay.Proofs.Schedule.History
import MetricRelay.Proofs.Schedule.Overlap
import MetricRelay.Proofs.Schedule.Overrun

/-!
# The life of a task

A task is absent, idle, running or dead, and its `History` tells which (`task_lifecycle`). A loop that has
broken down leaves the lane of its task empty, so the next run has it to itself, like the first one: its
loop is `Alone`, and it is `UpToDate` whenever one looks.
-/

namespace MetricRelay.Schedule

/-! ## A loop alone in its lane -/

namespace Plan

/-- The same loop after so many invocations. -/
def after (p : Plan Run) (started : Nat) : Plan Run := { p with work := { p.work with started } }

/-- Some of its invocations break down. -/
def MayBreak (p : Plan Run) : Prop := ∃ millis, .breaksAfter millis ∈ p.work.efforts

theorem mayBreak_of_breaks {p : Plan Run} {started now : Nat}
    (h : ((p.after started).work.effort.job now).breaks = true) : p.MayBreak := by
  unfold Run.effort at h
  cases he : (p.work.efforts[started]?.or p.work.efforts.getLast?) with
  | none =>
    rw [after, he] at h
    cases h
  | some e =>
    rw [after, he, Option.getD_some] at h
    cases e with
    | lasts => cases h
    | breaksAfter millis =>
      refine ⟨millis, ?_⟩
      rcases Option.or_eq_some_iff.1 he with he | ⟨-, he⟩
      · exact List.mem_of_getElem? he
      · exact List.mem_of_getLast? he

end Plan

/-- What becomes of a loop that has its lane to itself. -/
inductive Lane.Alone (p : Plan Run) : TimedLane → Prop where
  | queued : Alone p ⟨none, [p]⟩
  | waiting {started deadline : Nat} : Alone p ⟨some ⟨p.after started, .waiting deadline⟩, []⟩
  | busy {started next : Nat} {job : Job} : (job.breaks = true → p.MayBreak) →
      Alone p ⟨some ⟨p.after started, .busy next job⟩, []⟩
  | broken : p.MayBreak → Alone p ⟨none, []⟩

/-- The same where it has made all moves up to an instant: it has broken down, is in an invocation or
has served all deadlines by then. -/
inductive Lane.UpToDate (p : Plan Run) (target : Nat) : TimedLane → Prop where
  | waiting {started deadline : Nat} : instant target < deadline →
      UpToDate p target ⟨some ⟨p.after started, .waiting deadline⟩, []⟩
  | busy {started next : Nat} {job : Job} : target < job.done →
      UpToDate p target ⟨some ⟨p.after started, .busy next job⟩, []⟩
  | broken : p.MayBreak → UpToDate p target ⟨none, []⟩

namespace Moment

variable {horizon : Nat} {m m' : Moment} {p : Plan Run}

theorem Move.alone (h : Move horizon m m') (hp : p.cancelled = false) (hl : m.lane.Alone p)
    (hpast : ∀ e ∈ m.past, e.run = p.work.number) :
    m'.lane.Alone p ∧ ∀ e ∈ m'.past, e.run = p.work.number := by
  cases h with
  | drop hm hc =>
    rw [hm] at hl
    cases hl
    rw [hp] at hc
    cases hc
  | quit hm hc =>
    rw [hm] at hl
    cases hl
    rw [Plan.after, hp] at hc
    cases hc
  | begin hm =>
    rw [hm] at hl
    cases hl
    exact ⟨@Lane.Alone.waiting p p.work.started _, hpast⟩
  | start hm hc =>
    rw [hm] at hl
    cases hl with
    | @waiting started =>
      exact ⟨@Lane.Alone.busy p (started + 1) _ _ Plan.mayBreak_of_breaks,
        List.forall_mem_cons.2 ⟨rfl, hpast⟩⟩
  | finish hm hb =>
    rw [hm] at hl
    cases hl
    exact ⟨.waiting, List.forall_mem_cons.2 ⟨rfl, hpast⟩⟩
  | fail hm hb =>
    rw [hm] at hl
    cases hl with
    | busy hbreaks => exact ⟨.broken (hbreaks hb), hpast⟩

theorem alone_moves (hp : p.cancelled = false) (hl : m.lane.Alone p)
    (hpast : ∀ e ∈ m.past, e.run = p.work.number) (limit : Nat) :
    (m.moves horizon limit).lane.Alone p ∧
      ∀ e ∈ (m.moves horizon limit).past, e.run = p.work.number :=
  moves_induction (P := fun m => m.lane.Alone p ∧ ∀ e ∈ m.past, e.run = p.work.number)
    (fun _ _ ⟨hl, hpast⟩ hm => hm.alone hp hl hpast) limit ⟨hl, hpast⟩

/-- At rest such a lane is up to date. -/
theorem upToDate_of_rest (hl : m.lane.Alone p) (hn : m.now ≤ horizon)
    (hrest : m.step? horizon = none) : m.lane.UpToDate p horizon := by
  obtain ⟨now, lane, past⟩ := m
  have hnow : now ≤ horizon := hn
  cases hl with
  | queued => cases hrest
  | @waiting started deadline =>
    have hdue : horizon < max now (wakeTime deadline) := lt_of_rest_waiting rfl hrest
    refine .waiting (Nat.lt_of_not_le fun hle => ?_)
    have hwake := wakeTime_le_iff.2 hle
    omega
  | @busy started next job =>
    have hdone : horizon < max now job.done := lt_of_rest_busy rfl hrest
    exact .busy (by omega)
  | broken hb => exact .broken hb

/-- A loop that is alone in its lane begins and serves its first tick, both at once. -/
theorem moves_alone {now : Nat} (hp : p.cancelled = false) (hn : now ≤ horizon) (limit : Nat) :
    (Moment.mk now ⟨none, [p]⟩ []).moves horizon (limit + 2) =
      ((Moment.mk now ⟨some ⟨p, .waiting (instant now)⟩, []⟩ []).tick p (instant now)).moves
        horizon limit := by
  simp only [moves, step?_queued hp, step?_begun hp hn]

end Moment

namespace Lane

variable {now target : Nat} {p : Plan Run} {l : TimedLane}

/-- A loop that is alone in its lane starts at once, and is up to date whenever one looks. -/
theorem advance_alone (hp : p.cancelled = false) (hn : now ≤ target) :
    (Lane.advance ⟨none, [p]⟩ now target).1.UpToDate p target ∧
      ∃ later, (Lane.advance ⟨none, [p]⟩ now target).2 = ⟨now, p.work.number, true⟩ :: later ∧
        ∀ e ∈ later, e.run = p.work.number := by
  let start : Moment := ⟨now, ⟨none, [p]⟩, []⟩
  let ticked : Moment := (Moment.mk now ⟨some ⟨p, .waiting (instant now)⟩, []⟩ []).tick p (instant now)
  let rest : Moment := (Moment.mk now ticked.lane []).moves target (2 * instant target + 2)
  have hstart : (start.moves target (start.rank target)).lane.Alone p :=
    (Moment.alone_moves hp .queued (fun e he => by cases he) _).1
  have hrest : (start.moves target (start.rank target)).step? target = none :=
    Moment.step?_moves_eq_none (Nat.le_refl _)
  have hticked : ticked.lane.Alone p :=
    @Lane.Alone.busy p (p.work.started + 1) _ _ Plan.mayBreak_of_breaks
  have hlater : ∀ e ∈ rest.past, e.run = p.work.number :=
    (Moment.alone_moves (m := ⟨now, ticked.lane, []⟩) hp hticked (by simp) _).2
  have hrank : start.rank target = 2 * instant target + 2 + 2 := by simp [start, Moment.rank]
  have hpast : (start.moves target (start.rank target)).past =
      rest.past ++ [⟨now, p.work.number, true⟩] := by
    rw [hrank, Moment.moves_alone hp hn]
    exact congrArg Moment.past (Moment.moves_past ..)
  refine ⟨Moment.upToDate_of_rest hstart (Moment.now_le_moves hn _) hrest, rest.past.reverse, ?_,
    fun e he => hlater e (List.mem_reverse.1 he)⟩
  show (start.moves target (start.rank target)).past.reverse = _
  rw [hpast, List.reverse_append]
  rfl

theorem starts_advance_of_cancelled (h : l.Cancelled) (now target : Nat) :
    (l.advance now target).2.filter Happening.isStart = [] := by
  have hall : ((Moment.mk now l []).moves target ((Moment.mk now l []).rank target)).lane.Cancelled ∧
      ∀ e ∈ ((Moment.mk now l []).moves target ((Moment.mk now l []).rank target)).past,
        e.isStart = false := by
    refine Moment.moves_induction (P := fun m => m.lane.Cancelled ∧ ∀ e ∈ m.past, e.isStart = false)
      (fun m m' ⟨hc, hpast⟩ hm => ⟨(hm.liveOnly hc.liveOnly).cancelled, ?_⟩) _ ⟨h, by simp⟩
    cases hm with
    | drop | begin | quit | fail => exact hpast
    | finish => exact List.forall_mem_cons.2 ⟨rfl, hpast⟩
    | start hl hlive =>
      have hcancelled := hc _ (by rw [hl]; exact List.mem_cons_self)
      rw [hlive] at hcancelled
      cases hcancelled
  unfold advance
  rw [List.filter_eq_nil_iff]
  intro e he
  rw [hall.2 e (List.mem_reverse.1 he)]
  exact Bool.false_ne_true

end Lane

section

variable {s : Session} {x : String} {period : Duration}

theorem Lane.replace_of_isEmpty {l : TimedLane} (h : l.isEmpty = true) (p : Plan Run) :
    l.replace p = ⟨none, [p]⟩ := by
  obtain ⟨current, queued⟩ := l
  unfold Lane.isEmpty at h
  rw [Bool.and_eq_true, Option.isNone_iff_eq_none, List.isEmpty_iff] at h
  obtain ⟨rfl, rfl⟩ := h
  rfl

/-- Lanes that leave start nothing. -/
theorem Rehearsal.starts_leavingOf {r : Rehearsal} (h : r.Dismissed) (x : String) (target : Nat) :
    ((r.scheduler.leavingOf x).flatMap fun l => (l.advance r.now target).2).filter
      Happening.isStart = [] := by
  rw [List.filter_flatMap, List.flatMap_eq_nil_iff]
  intro l hl
  obtain ⟨d, hd, rfl⟩ := List.mem_map.1 hl
  exact Lane.starts_advance_of_cancelled (h d (List.mem_filter.1 hd).1) _ _

/-- A new task starts at once and goes on until one of its invocations breaks down. -/
theorem Session.starts_newTask {p : Plan Run} (hd : s.rehearsal.Dismissed)
    (ht : s.rehearsal.scheduler.tasks.get? x = some (Rehearsal.newTask period p))
    (hp : p.cancelled = false) {target : Nat} (hn : s.rehearsal.now ≤ target) :
    (∃ later, (s.advance target).starts x =
        s.starts x ++ ⟨s.rehearsal.now, p.work.number, true⟩ :: later ∧
      ∀ e ∈ later, e.run = p.work.number) ∧
    ∃ l, (s.advance target).rehearsal.scheduler.tasks.get? x = some ⟨some period, l⟩ ∧
      l.UpToDate p target := by
  obtain ⟨hdate, later, hlater, hruns⟩ := Lane.advance_alone hp hn
  refine ⟨⟨later.filter Happening.isStart, ?_, fun e he => hruns e (List.mem_filter.1 he).1⟩,
    _, ?_, hdate⟩
  · have hcoming : s.rehearsal.coming target x =
        ((s.rehearsal.scheduler.leavingOf x).flatMap fun l =>
          (l.advance s.rehearsal.now target).2) ++ ⟨s.rehearsal.now, p.work.number, true⟩ :: later := by
      rw [← hlater]
      unfold Rehearsal.coming
      rw [ht]
      rfl
    unfold Session.starts Session.advance
    rw [Rehearsal.happenings_advance, List.filter_append, hcoming, List.filter_append,
      Rehearsal.starts_leavingOf hd, List.nil_append, List.filter_cons_of_pos rfl]
  · unfold Session.advance
    rw [Rehearsal.get?_advance, ht]
    rfl

end

/-! ## Calls on the task -/

section

variable {x : String} {r : Rehearsal}

theorem Rehearsal.begin_add_of_exists (h : r.scheduler.exists? x = true) :
    (r.begin (.add x)).2 = r := by
  have hsame : r.scheduler.tasks.insertNew x {} = r.scheduler.tasks := if_pos h
  rw [Rehearsal.begin, Scheduler.add, hsame]

/-- A run fails for a period of zero or a name that is not there, and changes nothing then. -/
theorem Rehearsal.begin_run_eq (r : Rehearsal) (x : String) (period : Duration)
    (efforts : List Effort) :
    (r.begin (.run x period efforts)).1 = .finished
      (if period.nanos = 0 then .failed (.config s!"task `{x}`: period must be > 0")
      else if r.scheduler.exists? x then .done
      else .failed (.notRegistered .task x)) ∧
    ((r.begin (.run x period efforts)).1 ≠ .finished .done →
      (r.begin (.run x period efforts)).2 = { r with runs := r.runs + 1 }) := by
  rcases Nat.eq_zero_or_pos period.nanos with hzero | hp
  · rw [begin_run_of_zero r x hzero, if_pos hzero]
    exact ⟨rfl, fun _ => rfl⟩
  · rw [if_neg (Nat.ne_of_gt hp)]
    unfold Scheduler.exists? Table.contains
    cases ht : r.scheduler.tasks.get? x with
    | none =>
      rw [begin_run_of_none ht hp]
      exact ⟨rfl, fun _ => rfl⟩
    | some t =>
      rw [begin_run_of_some ht hp]
      exact ⟨rfl, fun hne => absurd rfl hne⟩

end

/-- The four states of a task, read off its history, which every session has. The name exists if
it was added after its last stop; it has the period of the last run that has succeeded since then, and
is running unless there is no such run or its loop has broken down. Adding a name that exists changes
nothing, and neither does a run that fails: for a period of zero, or a name that is not there. When the
last loop has broken down, a run that succeeds makes of the task what the first run of a new one does: the
loop starts at once, and whenever one looks it has served all that is due or is in an invocation, until
one of its own invocations breaks down. -/
theorem task_lifecycle {s : Session} (h : Reachable AnyTime s) (x : String) :
    (∃ log, History x log s) ∧
    ∀ log, History x log s →
      (s.rehearsal.scheduler.exists? x = true ↔ .added ∈ sinceStop log) ∧
      s.rehearsal.scheduler.period x = (lastRun? log).map Prod.snd ∧
      (s.rehearsal.scheduler.isRunning x = true ↔
        ∃ n period, lastRun? log = some (n, period) ∧ .broke n ∉ log) ∧
      (s.rehearsal.scheduler.exists? x = true → (s.rehearsal.begin (.add x)).2 = s.rehearsal) ∧
      (∀ (period : Duration) efforts,
        (s.rehearsal.begin (.run x period efforts)).1 = .finished
          (if period.nanos = 0 then .failed (.config s!"task `{x}`: period must be > 0")
          else if s.rehearsal.scheduler.exists? x then .done
          else .failed (.notRegistered .task x)) ∧
        ((s.rehearsal.begin (.run x period efforts)).1 ≠ .finished .done →
          (s.rehearsal.begin (.run x period efforts)).2 =
            { s.rehearsal with runs := s.rehearsal.runs + 1 })) ∧
      ∀ n last, lastRun? log = some (n, last) → .broke n ∈ log →
        ∀ (period : Duration) (hp : 0 < period.nanos) efforts,
          let p := s.rehearsal.newPlan hp efforts
          let u := s.call (.run x period efforts)
          u.rehearsal.scheduler.tasks.get? x = some (Rehearsal.newTask period p) ∧
          ∀ target, s.rehearsal.now ≤ target →
            (∃ later, (u.advance target).starts x =
                s.starts x ++ ⟨s.rehearsal.now, s.rehearsal.runs, true⟩ :: later ∧
              ∀ e ∈ later, e.run = s.rehearsal.runs) ∧
            ∃ l, (u.advance target).rehearsal.scheduler.tasks.get? x = some ⟨some period, l⟩ ∧
              l.UpToDate p target := by
  refine ⟨(reachable_iff_history x).1 h, fun log hlog => ?_⟩
  have hs : Standing x log s.rehearsal := hlog.faithful.standing
  refine ⟨hs.exists_iff, hs.period_eq, hs.isRunning_iff, Rehearsal.begin_add_of_exists,
    fun period efforts => Rehearsal.begin_run_eq _ _ _ _, fun n last hr hb period hp efforts => ?_⟩
  obtain ⟨t, ht, he⟩ := hs.exists_isEmpty hr hb
  have hget : (s.call (.run x period efforts)).rehearsal.scheduler.tasks.get? x =
      some (Rehearsal.newTask period (s.rehearsal.newPlan hp efforts)) := by
    unfold Session.call
    rw [Rehearsal.begin_run_of_some ht hp, Table.get?_insert_self, Lane.replace_of_isEmpty he]
    rfl
  refine ⟨hget, fun target hn => ?_⟩
  have hdismissed : (s.call (.run x period efforts)).rehearsal.Dismissed :=
    Reachable.dismissed (h.call trivial)
  have hstarts := Session.starts_newTask hdismissed hget rfl hn
  rwa [Session.starts_call] at hstarts

/-- The second invocation of a task has broken down, ten milliseconds ago. -/
def brokenDown : Session :=
  ((Session.call {} (.add "x")).call (.run "x" (.ofMillis 10) [.lasts 3, .breaks])).advance 20

theorem brokenDown_runs_again :
    ∃ log n, History "x" log brokenDown ∧ lastRun? log = some (n, .ofMillis 10) ∧
      .broke n ∈ log ∧ brokenDown.rehearsal.scheduler.isRunning "x" = false ∧
      ∃ later, ((brokenDown.call (.run "x" (.ofMillis 50) [.lasts 5])).advance 30).starts "x" =
        brokenDown.starts "x" ++ ⟨20, 1, true⟩ :: later := by
  have hreach : Reachable AnyTime brokenDown :=
    (((Steps.refl _).call trivial).call trivial).advance 20 (by decide +kernel)
  obtain ⟨⟨log, hlog⟩, hall⟩ := task_lifecycle hreach "x"
  obtain ⟨-, hperiod, hrunning, -, -, hagain⟩ := hall log hlog
  have hstopped : brokenDown.rehearsal.scheduler.isRunning "x" = false := by decide +kernel
  have hten : brokenDown.rehearsal.scheduler.period "x" = some (.ofMillis 10) := by decide +kernel
  obtain ⟨⟨n, period⟩, hlast, rfl⟩ := Option.map_eq_some_iff.1 (hperiod.symm.trans hten)
  have hbroke : .broke n ∈ log := Decidable.byContradiction fun hlive => by
    rw [hrunning.2 ⟨n, _, hlast, hlive⟩] at hstopped
    cases hstopped
  obtain ⟨-, hstarts⟩ := hagain n _ hlast hbroke (.ofMillis 50) (by decide) [.lasts 5]
  obtain ⟨⟨later, hlater, -⟩, -⟩ := hstarts 30 (by decide +kernel)
  exact ⟨log, n, hlog, hlast, hbroke, hstopped, later, hlater⟩

end MetricRelay.Schedule
