import MetricRelay.Proofs.Schedule.Finality

/-!
# Runs beside a stop

A stop takes the task out of the table, and its lane with it, before it waits. A task that is
registered meanwhile under the name has a lane of its own, so that a run of it starts at once, beside
the invocation that the stop waits for (`starts_beside`). As long as no run of a name succeeds while a
stop of it waits, at most one lane under the name has loops in it, and at most one invocation is in
progress.
-/

namespace MetricRelay.Schedule

/-- No run of that name succeeds while a stop of it still waits. -/
def Heeding (name : String) (s : Session) (c : Call) : Prop :=
  s.rehearsal.Runs name c → ¬s.Leaving name

variable {s t : Session} {name : String}

/-! ## Heeding the stop -/

theorem occupied_lanesOf_le (r : Rehearsal) (name : String) :
    occupied (r.scheduler.lanesOf name) ≤ 1 + occupied (r.scheduler.leavingOf name) := by
  unfold Scheduler.lanesOf
  rw [occupied_append]
  cases r.scheduler.tasks.get? name with
  | none => simp
  | some k =>
    simp only [Option.map_some, Option.toList_some, occupied_cons, occupied_nil]
    split <;> omega

/-- Only a run that succeeds brings loops into a lane under a name. -/
theorem Rehearsal.occupied_begin_le (r : Rehearsal) {c : Call} (h : ¬r.Runs name c) :
    occupied ((r.begin c).2.scheduler.lanesOf name) ≤ occupied (r.scheduler.lanesOf name) := by
  cases c with
  | add x =>
    show occupied ((r.scheduler.add x).lanesOf name) ≤ _
    unfold Scheduler.lanesOf Scheduler.leavingOf Scheduler.add
    rw [Table.get?_insertNew]
    split
    · next hx =>
      subst hx
      cases r.scheduler.tasks.get? name with
      | none => exact Nat.le_refl _
      | some k => exact Nat.le_refl _
    · exact Nat.le_refl _
  | run x period efforts =>
    rcases r.begin_run_cases x period efforts with ⟨e, he⟩ | ⟨k, p, -, -, he⟩
    · exact Nat.le_of_eq (by rw [he])
    · have hx : name ≠ x := by
        rintro rfl
        exact h ⟨period, efforts, rfl, by rw [he]; rfl⟩
      rw [he]
      refine Nat.le_of_eq ?_
      unfold Scheduler.lanesOf Scheduler.leavingOf
      rw [Table.get?_insert, if_neg hx]
  | stop x => exact (stopping_stopInTurn ..).occupied_le name
  | stopAll => exact (stopping_stopInTurn ..).occupied_le name

theorem Step.occupied_le (h : Step (Heeding name) s t)
    (hs : occupied (s.rehearsal.scheduler.lanesOf name) ≤ 1) :
    occupied (t.rehearsal.scheduler.lanesOf name) ≤ 1 := by
  cases h with
  | @call c hc =>
    by_cases hrun : s.rehearsal.Runs name c
    · have hclear := occupied_leavingOf_of_not_leaving (hc hrun)
      obtain ⟨period, efforts, rfl, -⟩ := hrun
      have hle := occupied_lanesOf_le (s.rehearsal.begin (.run name period efforts)).2 name
      have hkept := s.rehearsal.leaving_run name period efforts
      unfold Scheduler.leavingOf at hle hclear
      rw [hkept, hclear] at hle
      exact hle
    · exact Nat.le_trans (s.rehearsal.occupied_begin_le hrun) hs
  | @resume i p =>
    rcases s.rehearsal.resume_cases p with hp | ⟨id, more, a, -, -, hstop⟩
    · unfold Session.resume
      rwa [hp]
    · exact Nat.le_trans (hstop.occupied_le name) hs
  | move hm => exact Nat.le_trans (hm.occupied_le name) hs

theorem Reachable.occupied_le (h : Reachable (Heeding name) s) :
    occupied (s.rehearsal.scheduler.lanesOf name) ≤ 1 := by
  induction h with
  | refl => exact Nat.zero_le 1
  | tail _ hstep ih => exact hstep.occupied_le ih

/-! ## Not heeding it -/

/-- A new loop alone in the lane of its task. -/
def Rehearsal.newTask (period : Duration) (p : Plan Run) : Task Run Job where
  period := some period
  lane := ⟨none, [p]⟩

/-- What a new registration and a run of it make of a name that is not in the table. -/
theorem get?_add_run (hn : s.rehearsal.scheduler.tasks.get? name = none) {period : Duration}
    (hp : 0 < period.nanos) (efforts : List Effort) :
    ((s.call (.add name)).call (.run name period efforts)).rehearsal.scheduler.tasks.get? name =
      some (Rehearsal.newTask period
        { work := ⟨s.rehearsal.runs, efforts, 0⟩, period := period.nanos, period_pos := hp }) ∧
    ((s.call (.add name)).call (.run name period efforts)).rehearsal.scheduler.leaving =
      s.rehearsal.scheduler.leaving := by
  have hadd : (s.rehearsal.scheduler.tasks.insertNew name {}).get? name = some {} := by
    rw [Table.get?_insertNew, if_pos rfl, hn]
    rfl
  unfold Session.call Rehearsal.begin Scheduler.add Scheduler.run
  simp only [dif_pos hp, hadd]
  exact ⟨Table.get?_insert_self .., trivial⟩

/-- A loop with none before it begins. -/
theorem Moment.step?_queued {p : Plan Run} (hp : p.cancelled = false) (now horizon : Nat) :
    (Moment.mk now ⟨none, [p]⟩ []).step? horizon =
      some ⟨now, ⟨some ⟨p, .waiting (instant now)⟩, []⟩, []⟩ := by
  simp [step?, Lane.beginNext, hp]

/-- Its first tick is due at once. -/
theorem Moment.step?_begun {p : Plan Run} (hp : p.cancelled = false) {now horizon : Nat}
    (hn : now ≤ horizon) : (Moment.mk now ⟨some ⟨p, .waiting (instant now)⟩, []⟩ []).step? horizon =
      some ((Moment.mk now ⟨some ⟨p, .waiting (instant now)⟩, []⟩ []).tick p (instant now)) := by
  have hwake : max now (wakeTime (instant now)) = now :=
    Nat.max_eq_left (wakeTime_le_iff.2 (Nat.le_refl _))
  simp [step?, hp, hwake, hn]

/-- A loop that is alone in the lane of its task begins and serves its first tick at once. -/
theorem Rehearsal.moves_first_tick {r : Rehearsal} {period : Duration} {p : Plan Run}
    (ht : r.scheduler.tasks.get? name = some (newTask period p)) (hp : p.cancelled = false) :
    ∃ r', r.Moves r' ∧ r'.now = r.now ∧
      r'.scheduler.lanesOf name =
        ⟨some ⟨{ p with work := p.work.next },
          .busy (nextDeadline p.period (instant r.now) (instant r.now)) (p.work.effort.job r.now)⟩,
          []⟩ :: r.scheduler.leavingOf name := by
  have hfirst := Move.task ht (Nat.le_refl r.now) (Moment.step?_queued hp r.now r.now)
  have hget : (r.withTask name (newTask period p) ⟨some ⟨p, .waiting (instant r.now)⟩, []⟩
      []).scheduler.tasks.get? name =
        some ⟨some period, ⟨some ⟨p, .waiting (instant r.now)⟩, []⟩⟩ := Table.get?_insert_self ..
  have hsecond := Move.task hget (Nat.le_refl r.now) (Moment.step?_begun hp (Nat.le_refl r.now))
  refine ⟨_, .tail (.tail (.refl r) hfirst) hsecond, rfl, ?_⟩
  unfold Scheduler.lanesOf
  simp only [withTask, Table.get?_insert_self]
  rfl

/-- The name is not registered: its tasks have been stopped, and their invocations may be in progress
still. The run of a new registration starts beside them. -/
theorem starts_beside (hn : s.rehearsal.scheduler.tasks.get? name = none) {period : Duration}
    (hp : 0 < period.nanos) (efforts : List Effort) :
    ∃ t, Steps AnyTime ((s.call (.add name)).call (.run name period efforts)) t ∧
      t.rehearsal.now = s.rehearsal.now ∧
      t.invocations name = s.rehearsal.runs :: s.invocations name := by
  obtain ⟨hget, hleaving⟩ := get?_add_run hn hp efforts
  obtain ⟨r', hmoves, hnow, hlanes⟩ := Rehearsal.moves_first_tick hget rfl
  refine ⟨_, (Steps.refl _).moves hmoves, hnow.trans ?_, ?_⟩
  · unfold Session.call Rehearsal.begin
    rfl
  · have hsame : s.rehearsal.scheduler.lanesOf name = s.rehearsal.scheduler.leavingOf name := by
      unfold Scheduler.lanesOf
      rw [hn]
      rfl
    unfold Session.invocations
    rw [hlanes, hsame]
    unfold Scheduler.leavingOf
    rw [hleaving]
    rfl

/-- Calls on a name may be under way side by side, a stop that waits among them. If no run of the name
succeeds while a stop of it waits, at most one invocation under it is in progress, and one starts only
where none is. In any case there is at most one beside those of lanes that leave; and while a name is
out of the table, adding and running it starts an invocation at once, whatever is still in progress. -/
theorem one_invocation_if_stops_are_heeded (name : String) :
    (∀ s, Reachable (Heeding name) s → (s.invocations name).length ≤ 1 ∧
      ∀ t, Step (Heeding name) s t → t.starts name = s.starts name ∨
        ∃ e, t.starts name = s.starts name ++ [e] ∧ s.invocations name = [] ∧
          t.invocations name = [e.run]) ∧
    (∀ s : Session, (s.invocations name).length ≤
      1 + occupied (s.rehearsal.scheduler.leavingOf name)) ∧
    ∀ s : Session, s.rehearsal.scheduler.tasks.get? name = none →
      ∀ period : Duration, 0 < period.nanos → ∀ efforts,
        ∃ t, Steps AnyTime ((s.call (.add name)).call (.run name period efforts)) t ∧
          t.rehearsal.now = s.rehearsal.now ∧
          t.invocations name = s.rehearsal.runs :: s.invocations name := by
  refine ⟨fun s hs => ?_, fun s => ?_, fun s hn period hp efforts => starts_beside hn hp efforts⟩
  · have hone := hs.occupied_le
    exact ⟨Nat.le_trans (length_invocations_le _) hone, fun t ht => ht.starts_alone_of_le hone⟩
  · exact Nat.le_trans (length_invocations_le _) (occupied_lanesOf_le ..)

/-- A stop waits for a long invocation of the task, and the name is not registered any more. -/
def overrunLeaving : Session :=
  (((Session.call {} (.add "x")).call (.run "x" (.ofMillis 10) [.lasts 50])).advance 0).call
    (.stop "x")

theorem reachable_overrunLeaving : Reachable AnyTime overrunLeaving := by
  have hrun : Reachable AnyTime
      ((Session.call {} (.add "x")).call (.run "x" (.ofMillis 10) [.lasts 50])) :=
    ((Steps.refl _).call trivial).call trivial
  exact (hrun.advance 0 (by decide +kernel)).call trivial

theorem overrunLeaving_overlaps :
    overrunLeaving.rehearsal.scheduler.tasks.get? "x" = none ∧ overrunLeaving.invocations "x" = [0] ∧
      ∃ t, Steps AnyTime overrunLeaving t ∧ t.rehearsal.now = 0 ∧ t.invocations "x" = [1, 0] := by
  have hgone : overrunLeaving.rehearsal.scheduler.tasks.get? "x" = none := by rfl
  obtain ⟨t, ht, hnow, hinv⟩ :=
    (one_invocation_if_stops_are_heeded "x").2.2 overrunLeaving hgone (.ofMillis 100) (by decide)
      [.lasts 5]
  have hcalls : Steps AnyTime overrunLeaving
      ((overrunLeaving.call (.add "x")).call (.run "x" (.ofMillis 100) [.lasts 5])) :=
    ((Steps.refl _).call trivial).call trivial
  exact ⟨hgone, by decide +kernel, t, hcalls.trans ht, hnow.trans (by decide +kernel),
    hinv.trans (by decide +kernel)⟩

/-- Stopped, added and run again at one instant, a task has two invocations in progress. -/
def rerunWhileStopping : Session :=
  ((overrunLeaving.call (.add "x")).call (.run "x" (.ofMillis 100) [.lasts 5])).advance 0

theorem rerunWhileStopping_not_exclusive :
    Reachable AnyTime rerunWhileStopping ∧ ¬(rerunWhileStopping.invocations "x").length ≤ 1 := by
  have hcalls : Reachable AnyTime
      ((overrunLeaving.call (.add "x")).call (.run "x" (.ofMillis 100) [.lasts 5])) :=
    (reachable_overrunLeaving.call trivial).call trivial
  exact ⟨hcalls.advance 0 (by decide +kernel), by decide +kernel⟩

end MetricRelay.Schedule
