import MetricRelay.Proofs.Schedule.Departures

/-!
# One loop per name

When each call is awaited before the next one, at most one lane under a name has loops (`Single`), so
at most one invocation is in progress. A run that succeeds leaves one loop that is not cancelled, the
new one; it begins when those before it have ended.
-/

namespace MetricRelay.Schedule

/-- Lanes with loops in them. -/
def occupied (ls : List TimedLane) : Nat := ls.countP fun l => !l.isEmpty

@[simp] theorem occupied_nil : occupied [] = 0 := rfl

@[simp] theorem occupied_cons (l : TimedLane) (ls : List TimedLane) :
    occupied (l :: ls) = occupied ls + if l.isEmpty then 0 else 1 := by
  unfold occupied
  rw [List.countP_cons]
  cases l.isEmpty <;> rfl

@[simp] theorem occupied_append (ls ks : List TimedLane) :
    occupied (ls ++ ks) = occupied ls + occupied ks := by
  unfold occupied
  exact List.countP_append

theorem occupied_eq_zero {ls : List TimedLane} :
    occupied ls = 0 ↔ ∀ l ∈ ls, l.isEmpty = true := by
  unfold occupied
  simp

/-- Who is in an invocation has a loop. -/
theorem length_invocations_le (ls : List TimedLane) :
    (ls.filterMap Lane.invocation?).length ≤ occupied ls := by
  unfold occupied
  rw [List.length_filterMap_eq_countP]
  refine List.countP_mono_left fun l _ hl => ?_
  cases he : l.isEmpty with
  | true =>
    rw [Lane.invocation?_eq_none_of_isEmpty he] at hl
    cases hl
  | false => rfl

theorem invocations_eq_nil {ls : List TimedLane} (h : occupied ls = 0) :
    ls.filterMap Lane.invocation? = [] :=
  List.eq_nil_of_length_eq_zero (Nat.le_zero.1 (h ▸ length_invocations_le ls))

namespace Rehearsal

variable {r r' : Rehearsal} {name : String}

/-- Under every name at most one lane has loops in it. -/
def Single (r : Rehearsal) : Prop := ∀ name, occupied (r.scheduler.lanesOf name) ≤ 1

theorem occupied_leavingOf (h : ∀ d ∈ r.scheduler.leaving, d.lane.isEmpty = true) (name : String) :
    occupied (r.scheduler.leavingOf name) = 0 := by
  refine occupied_eq_zero.2 fun l hl => ?_
  obtain ⟨d, hd, rfl⟩ := List.mem_map.1 hl
  exact h d (List.mem_filter.1 hd).1

theorem Single.of_clear (h : ∀ d ∈ r.scheduler.leaving, d.lane.isEmpty = true) : r.Single := by
  intro name
  unfold Scheduler.lanesOf
  rw [occupied_append, occupied_leavingOf h]
  cases r.scheduler.tasks.get? name with
  | none => simp
  | some t =>
    simp only [Option.map_some, Option.toList_some, occupied_cons, occupied_nil]
    split <;> omega

/-- A move fills no lane. -/
theorem Move.occupied_le (h : r.Move r') (name : String) :
    occupied (r'.scheduler.lanesOf name) ≤ occupied (r.scheduler.lanesOf name) := by
  rcases h.at_name name with ⟨hsub, -⟩ | ⟨before, l, after, now, horizon, m, hmove, hl, hl', -⟩
  · exact hsub.countP_le
  · have hne : l.isEmpty = false := hmove.ne_empty
    rw [hl, hl', occupied_append, occupied_append, occupied_cons, occupied_cons, hne]
    simp only [Bool.false_eq_true, ↓reduceIte]
    split <;> omega

theorem Single.move (h : r.Single) (hm : r.Move r') : r'.Single :=
  fun name => Nat.le_trans (hm.occupied_le name) (h name)

/-- A task that is stopped takes its lane along. -/
theorem Stopping.occupied_le {a : Answer} {names : List String} {p : Progress}
    (h : Stopping a r names p r') (name : String) :
    occupied (r'.scheduler.lanesOf name) ≤ occupied (r.scheduler.lanesOf name) := by
  refine h.induct (P := fun q => occupied (q.scheduler.lanesOf name) ≤
    occupied (r.scheduler.lanesOf name)) (fun q x t ht hq => Nat.le_trans ?_ hq) (Nat.le_refl _)
  unfold Scheduler.lanesOf Scheduler.leavingOf depart
  by_cases hx : x = name
  · subst hx
    rw [ht]
    simp only [Table.get?_erase_self, Option.map_none, Option.toList_none, List.nil_append,
      List.filter_append, List.map_append, occupied_append, List.filter_cons, decide_true,
      ↓reduceIte, List.filter_nil, List.map_cons, List.map_nil, occupied_cons, occupied_nil,
      Lane.isEmpty_cancel, Option.map_some, Option.toList_some]
    omega
  · rw [Table.get?_erase, if_neg (Ne.symm hx)]
    simp [hx]

theorem Single.stopping (h : r.Single) {a : Answer} {names : List String} {p : Progress}
    (hs : Stopping a r names p r') : r'.Single :=
  fun name => Nat.le_trans (hs.occupied_le name) (h name)

theorem Single.resume (h : r.Single) (p : Progress) : (r.resume p).2.Single := by
  rcases r.resume_cases p with hp | ⟨id, more, a, -, -, hs⟩
  · rw [hp]
    exact h
  · exact h.stopping hs

/-- A call on a scheduler that no lane leaves. -/
theorem Single.begin (h : ∀ d ∈ r.scheduler.leaving, d.lane.isEmpty = true) (c : Call) :
    (r.begin c).2.Single := by
  cases c with
  | add x => exact .of_clear h
  | run x period efforts =>
    refine .of_clear fun d hd => ?_
    rw [leaving_run] at hd
    exact h d hd
  | stop x => exact (Single.of_clear h).stopping (stopping_stopInTurn ..)
  | stopAll => exact (Single.of_clear h).stopping (stopping_stopInTurn ..)

/-- After a run that succeeds only the new loop under the name is not cancelled. -/
theorem liveOnly_run (h : r.Dismissed) {c : Call} (hrun : r.Runs name c) :
    (r.begin c).2.LiveOnly name (· = r.runs) := by
  obtain ⟨period, efforts, rfl, hdone⟩ := hrun
  rcases r.begin_run_cases name period efforts with ⟨e, he⟩ | ⟨t, p, -, hp, he⟩
  · rw [he] at hdone
    cases hdone
  · intro l hl
    rw [he] at hl
    rcases List.mem_append.1 hl with hl | hl
    · rw [Table.get?_insert_self] at hl
      rw [List.mem_singleton.1 hl]
      exact Lane.liveOnly_replace hp
    · obtain ⟨d, hd, rfl⟩ := List.mem_map.1 hl
      exact (h d (List.mem_filter.1 hd).1).liveOnly

end Rehearsal

section

variable {s t : Session} {name : String}

theorem Step.single (h : Step Patient s t) (hw : s.Waited) (hs : s.rehearsal.Single) :
    t.rehearsal.Single := by
  cases h with
  | call hc => exact .begin (hw.isEmpty hc) _
  | @resume i p => exact hs.resume p
  | move hm => exact hs.move hm

theorem Reachable.single (h : Reachable Patient s) : s.rehearsal.Single := by
  induction h with
  | refl => exact .of_clear fun d hd => by cases hd
  | tail hst hstep ih => exact hstep.single (Reachable.waited hst) ih

/-- An invocation starts where none is in progress. -/
theorem Step.starts_alone_of_le {allowed : Session → Call → Prop} (h : Step allowed s t)
    (hone : occupied (s.rehearsal.scheduler.lanesOf name) ≤ 1) :
    t.starts name = s.starts name ∨ ∃ e, t.starts name = s.starts name ++ [e] ∧
      s.invocations name = [] ∧ t.invocations name = [e.run] := by
  cases h with
  | @call c => exact .inl (s.starts_call c name)
  | @resume i p => exact .inl (s.starts_resume i p name)
  | @move r hm =>
    unfold Session.starts Session.invocations
    rcases hm.at_name name with ⟨-, hh⟩ | ⟨before, l, after, now, horizon, m, hmove, hl, hl', hh⟩
    · rw [hh]
      exact .inl rfl
    · by_cases hex : ∃ e ∈ m.past, e.isStart = true
      · obtain ⟨e, he, hstart⟩ := hex
        obtain ⟨hpast, hbefore, hafter, -⟩ := hmove.of_start rfl he hstart
        have hne := hmove.ne_empty
        rw [hl, occupied_append, occupied_cons, if_neg (by simp [hne])] at hone
        refine .inr ⟨e, ?_, ?_, ?_⟩
        · rw [hh, hpast, List.filter_append]
          simp [hstart]
        · rw [hl, List.filterMap_append, List.filterMap_cons, hbefore,
            invocations_eq_nil (by omega), invocations_eq_nil (by omega)]
          rfl
        · rw [hl', List.filterMap_append, List.filterMap_cons, hafter,
            invocations_eq_nil (by omega), invocations_eq_nil (by omega)]
          rfl
      · refine .inl ?_
        have hnone : m.past.reverse.filter Happening.isStart = [] :=
          List.filter_eq_nil_iff.2 fun e he hstart => hex ⟨e, List.mem_reverse.1 he, hstart⟩
        rw [hh, List.filter_append, hnone, List.append_nil]

theorem Step.starts_alone {allowed : Session → Call → Prop} (h : Step allowed s t)
    (hs : s.rehearsal.Single) :
    t.starts name = s.starts name ∨ ∃ e, t.starts name = s.starts name ++ [e] ∧
      s.invocations name = [] ∧ t.invocations name = [e.run] := h.starts_alone_of_le (hs name)

end

/-- When each call is awaited before the next, at most one invocation under a name is in progress; an
invocation starts where none is; and after a run that succeeds only loops asked for since then start
invocations, so that a loop replaced before its first start never starts one. -/
theorem one_loop_per_name {s : Session} (h : Reachable Patient s) (name : String) :
    (s.invocations name).length ≤ 1 ∧
    (∀ t, Step Patient s t → t.starts name = s.starts name ∨
      ∃ e, t.starts name = s.starts name ++ [e] ∧ s.invocations name = [] ∧
        t.invocations name = [e.run]) ∧
    ∀ c, s.rehearsal.Runs name c → ∀ u, Steps Patient (s.call c) u →
      (∃ later, u.starts name = s.starts name ++ later ∧ ∀ e ∈ later, s.rehearsal.runs ≤ e.run) ∧
      ∀ n, n < s.rehearsal.runs → (∀ e ∈ s.starts name, e.run ≠ n) →
        ∀ e ∈ u.starts name, e.run ≠ n := by
  have hs : s.rehearsal.Single := h.single
  refine ⟨?_, fun t ht => ht.starts_alone hs, fun c hc u hu => ?_⟩
  · exact Nat.le_trans (length_invocations_le _) (hs name)
  · have hlive : (s.call c).rehearsal.LiveOnly name (s.rehearsal.runs ≤ ·) := by
      intro l hl p hp hcancelled
      exact Nat.le_of_eq (Rehearsal.liveOnly_run h.dismissed hc l hl p hp hcancelled).symm
    have hruns : ∀ u c', (s.call c).rehearsal.runs ≤ u.rehearsal.runs → Patient u c' →
        u.rehearsal.Runs name c' → s.rehearsal.runs ≤ u.rehearsal.runs :=
      fun _ _ hle _ _ => Nat.le_trans (s.rehearsal.runs_le_begin c) hle
    obtain ⟨-, later, hlater, hok⟩ := hu.liveOnly hruns hlive
    rw [Session.starts_call] at hlater
    refine ⟨⟨later, hlater, hok⟩, fun n hn hnever e he => ?_⟩
    rw [hlater] at he
    rcases List.mem_append.1 he with he | he
    · exact hnever e he
    · have := hok e he
      omega

def rerun : Call := .run "x" (.ofMillis 10) [.lasts 5]

/-- A task in a long invocation, and another run asked for. -/
def overrun : Session :=
  (((Session.call {} (.add "x")).call (.run "x" (.ofMillis 10) [.lasts 50])).advance 0).call rerun

theorem reachable_overrun : Reachable Patient overrun := by
  have hadd : Reachable Patient (Session.call {} (.add "x")) := (Steps.refl _).call (by decide)
  have hrun := hadd.call (c := .run "x" (.ofMillis 10) [.lasts 50]) (by decide +kernel)
  exact (hrun.advance 0 (by decide +kernel)).call (by decide +kernel)

theorem overrun_skips_loop :
    overrun.invocations "x" = [0] ∧
      (((overrun.call rerun).advance 60).starts "x").map Happening.run = [0, 2, 2] ∧
      ∀ e ∈ ((overrun.call rerun).advance 60).starts "x", e.run ≠ 1 := by
  obtain ⟨-, -, hlater⟩ := one_loop_per_name reachable_overrun "x"
  have hruns : overrun.rehearsal.Runs "x" rerun := ⟨.ofMillis 10, [.lasts 5], rfl, by decide +kernel⟩
  have hsteps : Steps Patient (overrun.call rerun) ((overrun.call rerun).advance 60) :=
    (Steps.refl _).advance 60 (by decide +kernel)
  exact ⟨by decide +kernel, by decide +kernel,
    (hlater rerun hruns _ hsteps).2 1 (by decide +kernel) (by decide +kernel)⟩

end MetricRelay.Schedule
