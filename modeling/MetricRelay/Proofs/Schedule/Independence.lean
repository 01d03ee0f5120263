import Mathlib.Data.List.Perm.Basic
import MetricRelay.Proofs.Schedule.Composition
import MetricRelay.Proofs.Schedule.Finality

/-!
# Tasks do not touch each other

A run is what a host does with a new scheduler, as the clock goes on (`Act`). The `timeline` of a task
holds the operations on it alone. To the task, the run is as if nothing but these had been done
(`alike_alone`): what is done with other tasks changes nothing of it, and the clock may be moved on in
any steps. So two runs with the same timeline cannot be told apart by the task (`same_for_task`).

The timeline says when an operation follows another one without the loops having had a turn between;
when a call waits for another task, the loops have one at that instant, and a new loop that would
otherwise be replaced at once begins (`stop_beside_starts_first_loop`).
-/

namespace MetricRelay

open Schedule

namespace Table

variable {α β : Type}

theorem flatMap_value? {l : List (String × α)} (hl : Ascending l) (k : String) (f : α → List β) :
    l.flatMap (fun e => if e.1 = k then f e.2 else []) = ((value? k l).map f).getD [] := by
  induction l with
  | nil => rfl
  | cons a r ih =>
    have ⟨ha, hr⟩ := List.pairwise_cons.1 hl
    rw [List.flatMap_cons, ih hr, value?]
    by_cases h : a.1 = k
    · rw [if_pos h, if_pos h.symm, value?_eq_none_of_lt fun e he => h ▸ ha e he]
      exact List.append_nil _
    · rw [if_neg h, if_neg (Ne.symm h), List.nil_append]

/-- Of all entries, those of one name. -/
theorem flatMap_entries (t : Table α) (k : String) (f : α → List β) :
    t.entries.flatMap (fun e => if e.1 = k then f e.2 else []) = ((t.get? k).map f).getD [] :=
  flatMap_value? t.ascending k f

end Table

namespace Schedule

def Task.unnumbered (t : Task Run Job) : Task Run Job := { t with lane := t.lane.unnumbered }

/-- The task that a call is about. -/
def Call.task? : Call → Option String
  | .add name => some name
  | .run name _ _ => some name
  | .stop name => some name
  | .stopAll => none

/-- Of tasks that a call stops in turn, those that it has got to. -/
def Progress.stopped (p : Progress) (names : List String) : List String :=
  names.take (names.length - p.more.length)

namespace Rehearsal

variable {r r' r'' : Rehearsal} {x : String}

/-! ## What advancing is to a task -/

@[simp] theorem now_advance (r : Rehearsal) (target : Nat) : (r.advance target).now = target := rfl

theorem get?_advance (r : Rehearsal) (target : Nat) (x : String) :
    (r.advance target).scheduler.tasks.get? x =
      (r.scheduler.tasks.get? x).map fun t => (moveTask r.now target t).1 := by
  show ((r.scheduler.tasks.map (moveTask r.now target)).map Prod.fst).get? x = _
  rw [Table.get?_map, Table.get?_map, Option.map_map]
  rfl

theorem leavingOf_advance (r : Rehearsal) (target : Nat) (x : String) :
    (r.advance target).scheduler.leavingOf x =
      ((r.scheduler.leavingOf x).map fun l => (l.advance r.now target).1).filter
        fun l => !l.isEmpty := by
  show ((((r.scheduler.leaving.map (moveDeparture r.now target)).map Prod.fst).filter _).filter
    _).map _ = _
  unfold Scheduler.leavingOf
  simp only [List.filter_filter, List.filter_map, List.map_map, Function.comp_def, moveDeparture]
  congr 1
  refine List.filter_congr fun d _ => ?_
  rw [Bool.and_comm]

theorem happenings_map_mk (hs : List Happening) (y x : String) :
    ((hs.map (TaskEvent.mk y)).filter fun e => e.task = x).map TaskEvent.happening =
      if y = x then hs else [] := by
  by_cases h : y = x
  · simp [h, List.filter_map, Function.comp_def]
  · simp [h, List.filter_map, Function.comp_def]

/-- What happens under a name until then. -/
def coming (r : Rehearsal) (target : Nat) (x : String) : List Happening :=
  (r.scheduler.leavingOf x).flatMap (fun l => (l.advance r.now target).2) ++
    ((r.scheduler.tasks.get? x).map fun t => (moveTask r.now target t).2).getD []

theorem happenings_advance (r : Rehearsal) (target : Nat) (x : String) :
    (r.advance target).happenings x = r.happenings x ++ r.coming target x := by
  have hdepartures :
      (((r.scheduler.leaving.map (moveDeparture r.now target)).flatMap Prod.snd).filter
        fun e => e.task = x).map TaskEvent.happening =
      (r.scheduler.leavingOf x).flatMap fun l => (l.advance r.now target).2 := by
    unfold Scheduler.leavingOf
    induction r.scheduler.leaving with
    | nil => rfl
    | cons d rest ih =>
      have hd := happenings_map_mk (d.lane.advance r.now target).2 d.name x
      rw [List.map_cons, List.flatMap_cons, List.filter_append, List.map_append, ih]
      by_cases hx : d.name = x
      · rw [if_pos hx] at hd
        rw [List.filter_cons, if_pos (decide_eq_true hx), List.map_cons, List.flatMap_cons]
        exact congrArg (· ++ _) hd
      · rw [if_neg hx] at hd
        rw [List.filter_cons, if_neg (mt of_decide_eq_true hx)]
        exact congrArg (· ++ _) hd
  have htasks :
      (((r.scheduler.tasks.map (moveTask r.now target)).entries.flatMap
        fun e => e.2.2.map (TaskEvent.mk e.1)).filter fun e => e.task = x).map TaskEvent.happening =
      ((r.scheduler.tasks.get? x).map fun t => (moveTask r.now target t).2).getD [] := by
    rw [List.filter_flatMap, List.map_flatMap]
    simp only [happenings_map_mk]
    rw [Table.flatMap_entries, Table.get?_map, Option.map_map]
    rfl
  unfold happenings coming
  show ((r.events ++ (_ ++ _)).filter _).map _ = _
  rw [List.filter_append, List.filter_append, List.map_append, List.map_append, hdepartures, htasks]

/-! ## The same to a task -/

/-- Seen from a task, two rehearsals are the same: what has happened to it up to the order, and all of
it up to the numbers of its loops. -/
structure Alike (x : String) (r r' : Rehearsal) : Prop where
  now : r.now = r'.now
  task : (r.scheduler.tasks.get? x).map Task.unnumbered =
    (r'.scheduler.tasks.get? x).map Task.unnumbered
  leaving : (r.scheduler.leavingOf x).map Lane.unnumbered =
    (r'.scheduler.leavingOf x).map Lane.unnumbered
  happenings : ((r.happenings x).map Happening.unnumbered).Perm
    ((r'.happenings x).map Happening.unnumbered)

@[refl] theorem Alike.refl (x : String) (r : Rehearsal) : Alike x r r := ⟨rfl, rfl, rfl, .rfl⟩

@[symm] theorem Alike.symm (h : Alike x r r') : Alike x r' r :=
  ⟨h.now.symm, h.task.symm, h.leaving.symm, h.happenings.symm⟩

theorem Alike.trans (h : Alike x r r') (h' : Alike x r' r'') : Alike x r r'' :=
  ⟨h.now.trans h'.now, h.task.trans h'.task, h.leaving.trans h'.leaving,
    h.happenings.trans h'.happenings⟩

/-- What is not there for one is not there for the other. -/
theorem Alike.get?_eq_none (h : Alike x r r') (hn : r.scheduler.tasks.get? x = none) :
    r'.scheduler.tasks.get? x = none := by
  have ht := h.task
  rw [hn, Option.map_none] at ht
  exact Option.map_eq_none_iff.1 ht.symm

theorem Alike.get?_eq_some (h : Alike x r r') {t : Task Run Job}
    (ht : r.scheduler.tasks.get? x = some t) :
    ∃ t', r'.scheduler.tasks.get? x = some t' ∧ t'.unnumbered = t.unnumbered := by
  have hboth := h.task
  rw [ht, Option.map_some] at hboth
  exact Option.map_eq_some_iff.1 hboth.symm

/-! ### Time passes -/

theorem moveTask_unnumbered (now target : Nat) (t : Task Run Job) :
    moveTask now target t.unnumbered =
      ((moveTask now target t).1.unnumbered,
        (moveTask now target t).2.map Happening.unnumbered) := by
  unfold moveTask Task.unnumbered
  simp only [Lane.advance_unnumbered]

theorem Alike.advance (h : Alike x r r') (target : Nat) :
    Alike x (r.advance target) (r'.advance target) where
  now := rfl
  task := by
    have hmove : ∀ q : Rehearsal, ((q.advance target).scheduler.tasks.get? x).map Task.unnumbered =
        ((q.scheduler.tasks.get? x).map Task.unnumbered).map
          fun t => (moveTask q.now target t).1 := by
      intro q
      rw [get?_advance, Option.map_map, Option.map_map]
      refine congrArg (fun f => Option.map f _) (funext fun t => ?_)
      exact (congrArg Prod.fst (moveTask_unnumbered q.now target t)).symm
    rw [hmove, hmove, h.task, h.now]
  leaving := by
    have hmove : ∀ q : Rehearsal, ((q.advance target).scheduler.leavingOf x).map Lane.unnumbered =
        (((q.scheduler.leavingOf x).map Lane.unnumbered).map
          fun l => (l.advance q.now target).1).filter fun l => !l.isEmpty := by
      intro q
      rw [leavingOf_advance]
      simp only [List.map_map, List.filter_map, Function.comp_def, Lane.advance_unnumbered,
        Lane.isEmpty_unnumbered]
    rw [hmove, hmove, h.leaving, h.now]
  happenings := by
    have hcoming : ∀ q : Rehearsal, (q.coming target x).map Happening.unnumbered =
        ((q.scheduler.leavingOf x).map Lane.unnumbered).flatMap
            (fun l => (l.advance q.now target).2) ++
          (((q.scheduler.tasks.get? x).map Task.unnumbered).map
            fun t => (moveTask q.now target t).2).getD [] := by
      intro q
      unfold coming
      simp only [List.map_append, List.map_flatMap, List.flatMap_map, Lane.advance_unnumbered]
      cases q.scheduler.tasks.get? x with
      | none => rfl
      | some t => simp only [Option.map_some, Option.getD_some, moveTask_unnumbered]
    rw [happenings_advance, happenings_advance, List.map_append, List.map_append, hcoming, hcoming,
      h.leaving, h.task, h.now]
    exact h.happenings.append_right _

theorem moveTask_moveTask (t : Task Run Job) {now middle target : Nat} (h : now ≤ middle)
    (h' : middle ≤ target) :
    moveTask now target t =
      ((moveTask middle target (moveTask now middle t).1).1,
        (moveTask now middle t).2 ++ (moveTask middle target (moveTask now middle t).1).2) := by
  unfold moveTask
  simp only [Lane.advance_advance t.lane h h']

/-- Lanes that have ended have nothing coming. -/
theorem coming_coming (r : Rehearsal) (x : String) {middle target : Nat} (h : r.now ≤ middle)
    (h' : middle ≤ target) :
    (r.coming middle x ++ (r.advance middle).coming target x).Perm (r.coming target x) := by
  have htask : ((r.scheduler.tasks.get? x).map fun t => (moveTask r.now target t).2).getD [] =
      ((r.scheduler.tasks.get? x).map fun t => (moveTask r.now middle t).2).getD [] ++
        (((r.advance middle).scheduler.tasks.get? x).map
          fun t => (moveTask middle target t).2).getD [] := by
    rw [get?_advance]
    cases r.scheduler.tasks.get? x with
    | none => rfl
    | some t => simp only [Option.map_some, Option.getD_some, moveTask_moveTask t h h']
  have hended : ((r.advance middle).scheduler.leavingOf x).flatMap
        (fun l => (l.advance middle target).2) =
      (r.scheduler.leavingOf x).flatMap
        fun l => ((l.advance r.now middle).1.advance middle target).2 := by
    rw [leavingOf_advance]
    induction r.scheduler.leavingOf x with
    | nil => rfl
    | cons l rest ih =>
      cases hempty : (l.advance r.now middle).1.isEmpty with
      | true =>
        rw [List.map_cons, List.filter_cons_of_neg (by simp [hempty]), ih, List.flatMap_cons,
          Lane.advance_of_isEmpty hempty, List.nil_append]
      | false =>
        rw [List.map_cons, List.filter_cons_of_pos (by simp [hempty]), List.flatMap_cons, ih,
          List.flatMap_cons]
  have hleaving : ((r.scheduler.leavingOf x).flatMap (fun l => (l.advance r.now middle).2) ++
      ((r.advance middle).scheduler.leavingOf x).flatMap
        (fun l => (l.advance middle target).2)).Perm
      ((r.scheduler.leavingOf x).flatMap fun l => (l.advance r.now target).2) := by
    rw [hended]
    refine (List.flatMap_append_perm ..).trans (List.Perm.of_eq ?_)
    refine congrArg (fun f => List.flatMap f _) (funext fun l => ?_)
    rw [l.advance_advance h h']
  unfold coming
  rw [htask, now_advance]
  refine List.Perm.trans ?_ (hleaving.append_right _)
  rw [List.append_assoc, List.append_assoc]
  refine List.Perm.append_left _ ?_
  rw [← List.append_assoc, ← List.append_assoc]
  exact List.perm_append_comm.append_right _

/-- The clock may be moved on in two steps. -/
theorem alike_advance_advance (r : Rehearsal) (x : String) {middle target : Nat}
    (h : r.now ≤ middle) (h' : middle ≤ target) :
    Alike x ((r.advance middle).advance target) (r.advance target) where
  now := rfl
  task := by
    rw [get?_advance, get?_advance, get?_advance, now_advance]
    cases r.scheduler.tasks.get? x with
    | none => rfl
    | some t => simp only [Option.map_some, moveTask_moveTask t h h']
  leaving := by
    refine congrArg (List.map Lane.unnumbered) ?_
    rw [leavingOf_advance, leavingOf_advance, leavingOf_advance, now_advance]
    induction r.scheduler.leavingOf x with
    | nil => rfl
    | cons l rest ih =>
      have hsplit := congrArg Prod.fst (l.advance_advance h h')
      simp only at hsplit
      cases hempty : (l.advance r.now middle).1.isEmpty with
      | true =>
        have hended : (l.advance r.now target).1.isEmpty = true := by
          rw [hsplit, Lane.advance_of_isEmpty hempty]
          exact hempty
        simpa [hempty, hended] using ih
      | false =>
        rw [List.map_cons, List.filter_cons_of_pos (by simp [hempty]), List.map_cons, List.map_cons,
          List.filter_cons, List.filter_cons, ← hsplit, ih]
  happenings := by
    rw [happenings_advance, happenings_advance, happenings_advance, List.append_assoc]
    exact ((coming_coming r x h h').append_left _).map _

/-! ### Calls -/

theorem leavingOf_depart (r : Rehearsal) (y : String) (t : Task Run Job) (x : String) :
    (r.depart y t).scheduler.leavingOf x =
      r.scheduler.leavingOf x ++ if y = x then [t.lane.cancel] else [] := by
  unfold depart Scheduler.leavingOf
  rw [List.filter_append, List.map_append]
  by_cases h : y = x
  · rw [if_pos h, List.filter_cons, if_pos (decide_eq_true h)]
    rfl
  · rw [if_neg h, List.filter_cons, if_neg (mt of_decide_eq_true h)]
    rfl

/-- A stop takes out the task if it is there. -/
theorem begin_stop_of_none (h : r.scheduler.tasks.get? x = none) : (r.begin (.stop x)).2 = r := by
  rcases r.begin_stop_cases x with ⟨-, he⟩ | ⟨t, p, ht, -⟩
  · rw [he]
  · rw [h] at ht
    cases ht

theorem begin_stop_of_some {t : Task Run Job} (h : r.scheduler.tasks.get? x = some t) :
    (r.begin (.stop x)).2 = r.depart x t := by
  rcases r.begin_stop_cases x with ⟨hnone, -⟩ | ⟨t', p, ht, -, -, he⟩
  · rw [h] at hnone
    cases hnone
  · rw [h] at ht
    cases ht
    rw [he]

theorem now_begin (r : Rehearsal) (c : Call) : (r.begin c).2.now = r.now := by
  cases c with
  | add => rfl
  | run => rfl
  | stop name => exact (stopping_stopInTurn ..).sameTrace.2.1
  | stopAll => exact (stopping_stopInTurn ..).sameTrace.2.1

theorem happenings_begin (r : Rehearsal) (c : Call) (x : String) :
    (r.begin c).2.happenings x = r.happenings x := by
  unfold happenings
  rw [events_begin]

/-- A call on the task does the same to both. -/
theorem Alike.begin (h : Alike x r r') {c : Call} (hc : c.task? = some x) :
    Alike x (r.begin c).2 (r'.begin c).2 := by
  have hrest : (r.begin c).2.now = (r'.begin c).2.now ∧
      (((r.begin c).2.happenings x).map Happening.unnumbered).Perm
        (((r'.begin c).2.happenings x).map Happening.unnumbered) := by
    rw [now_begin, now_begin, happenings_begin, happenings_begin]
    exact ⟨h.now, h.happenings⟩
  suffices ((r.begin c).2.scheduler.tasks.get? x).map Task.unnumbered =
        ((r'.begin c).2.scheduler.tasks.get? x).map Task.unnumbered ∧
      ((r.begin c).2.scheduler.leavingOf x).map Lane.unnumbered =
        ((r'.begin c).2.scheduler.leavingOf x).map Lane.unnumbered from
    ⟨hrest.1, this.1, this.2, hrest.2⟩
  cases c with
  | stopAll => cases hc
  | add y =>
    obtain rfl : y = x := Option.some.inj hc
    refine ⟨?_, h.leaving⟩
    unfold Rehearsal.begin Scheduler.add
    simp only [Table.get?_insertNew, ↓reduceIte, Option.map_some]
    cases hr : r.scheduler.tasks.get? y with
    | none => rw [h.get?_eq_none hr]
    | some t =>
      obtain ⟨t', ht', hsame⟩ := h.get?_eq_some hr
      rw [ht']
      exact congrArg some hsame.symm
  | run y period efforts =>
    obtain rfl : y = x := Option.some.inj hc
    unfold Rehearsal.begin Scheduler.run
    by_cases hp : 0 < period.nanos
    · simp only [dif_pos hp]
      cases hr : r.scheduler.tasks.get? y with
      | none =>
        rw [h.get?_eq_none hr]
        exact ⟨h.task, h.leaving⟩
      | some t =>
        obtain ⟨t', ht', hsame⟩ := h.get?_eq_some hr
        rw [ht']
        refine ⟨?_, h.leaving⟩
        have hlane : t'.lane.unnumbered = t.lane.unnumbered := congrArg Task.lane hsame
        simp only [Table.get?_insert_self, Option.map_some, Task.unnumbered,
          Lane.unnumbered_replace, hlane]
        rfl
    · simp only [dif_neg hp]
      exact ⟨h.task, h.leaving⟩
  | stop y =>
    obtain rfl : y = x := Option.some.inj hc
    cases hr : r.scheduler.tasks.get? y with
    | none =>
      rw [begin_stop_of_none hr, begin_stop_of_none (h.get?_eq_none hr)]
      exact ⟨h.task, h.leaving⟩
    | some t =>
      obtain ⟨t', ht', hsame⟩ := h.get?_eq_some hr
      have hlane : t'.lane.unnumbered = t.lane.unnumbered := congrArg Task.lane hsame
      rw [begin_stop_of_some hr, begin_stop_of_some ht', leavingOf_depart, leavingOf_depart,
        List.map_append, List.map_append, h.leaving]
      simp only [depart, Table.get?_erase_self, ↓reduceIte, List.map_cons, List.map_nil,
        Lane.unnumbered_cancel, hlane, true_and]

theorem alike_depart (r : Rehearsal) {y : String} (t : Task Run Job) (h : y ≠ x) :
    Alike x (r.depart y t) r where
  now := rfl
  task := by rw [depart, Table.get?_erase, if_neg (Ne.symm h)]
  leaving := by rw [leavingOf_depart, if_neg h, List.append_nil]
  happenings := .rfl

/-- A call on another task. -/
theorem alike_begin (r : Rehearsal) {c : Call} {y : String} (hc : c.task? = some y) (h : y ≠ x) :
    Alike x (r.begin c).2 r := by
  cases c with
  | stopAll => cases hc
  | add z =>
    obtain rfl : z = y := Option.some.inj hc
    refine ⟨rfl, ?_, rfl, .rfl⟩
    unfold Rehearsal.begin Scheduler.add
    rw [Table.get?_insertNew, if_neg (Ne.symm h)]
  | run z period efforts =>
    obtain rfl : z = y := Option.some.inj hc
    rcases r.begin_run_cases z period efforts with ⟨e, he⟩ | ⟨t, p, -, -, he⟩
    · rw [he]
      exact ⟨rfl, rfl, rfl, .rfl⟩
    · rw [he]
      refine ⟨rfl, ?_, rfl, .rfl⟩
      rw [Table.get?_insert, if_neg (Ne.symm h)]
  | stop z =>
    obtain rfl : z = y := Option.some.inj hc
    cases hr : r.scheduler.tasks.get? z with
    | none => rw [begin_stop_of_none hr]
    | some t =>
      rw [begin_stop_of_some hr]
      exact alike_depart r t h

/-- What one operation makes of a rehearsal, if there is one. -/
def after (r : Rehearsal) : Option Call → Rehearsal
  | none => r
  | some c => (r.begin c).2

theorem Stopping.length_more_le {a : Answer} {names : List String} {p : Progress}
    (h : Stopping a r names p r') : p.more.length ≤ names.length := by
  induction h with
  | done => exact Nat.zero_le _
  | absent _ _ ih => exact Nat.le_succ_of_le ih
  | ended _ _ _ ih => exact Nat.le_succ_of_le ih
  | waits => exact Nat.le_succ _

theorem stopped_cons {p : Progress} {names : List String} (h : p.more.length ≤ names.length)
    (name : String) : p.stopped (name :: names) = name :: p.stopped names := by
  unfold Progress.stopped
  rw [List.length_cons, Nat.succ_sub h, List.take_succ_cons]

/-- The stop of a task in a row, as an operation on the task. -/
def stop? (x : String) (p : Progress) (names : List String) : Option Call :=
  if x ∈ p.stopped names then some (.stop x) else none

theorem stop?_cons {p : Progress} {names : List String} (h : p.more.length ≤ names.length)
    (x name : String) :
    stop? x p (name :: names) = if x = name then some (.stop x) else stop? x p names := by
  unfold stop?
  rw [stopped_cons h]
  by_cases hx : x = name <;> simp [hx]

/-- A stop of a task that is not there is nothing. -/
theorem after_stop?_of_none (h : r.scheduler.tasks.get? x = none) (p : Progress)
    (names : List String) : r.after (stop? x p names) = r := by
  unfold stop?
  split
  · exact begin_stop_of_none h
  · rfl

theorem Alike.after (h : Alike x r r') {c : Option Call} (hc : ∀ c' ∈ c, c'.task? = some x) :
    Alike x (r.after c) (r'.after c) := by
  cases c with
  | none => exact h
  | some c => exact h.begin (hc c rfl)

theorem task?_of_mem_stop? {p : Progress} {names : List String} :
    ∀ c ∈ stop? x p names, c.task? = some x := by
  intro c hc
  unfold stop? at hc
  split at hc
  · cases hc
    rfl
  · cases hc

/-- To a task, the stops in turn are its own stop, if they have got to it. -/
theorem Stopping.alike {a : Answer} {names : List String} {p : Progress}
    (h : Stopping a r names p r') (x : String) : Alike x r' (r.after (stop? x p names)) := by
  induction h with
  | done => exact .refl x _
  | @absent r r' name more p ht hrest ih =>
    rw [stop?_cons hrest.length_more_le]
    by_cases hx : x = name
    · subst hx
      rw [after_stop?_of_none ht] at ih
      rw [if_pos rfl, after, begin_stop_of_none ht]
      exact ih
    · rw [if_neg hx]
      exact ih
  | @ended r r' name t more p ht _ hrest ih =>
    rw [stop?_cons hrest.length_more_le]
    by_cases hx : x = name
    · subst hx
      have hgone : (r.depart x t).scheduler.tasks.get? x = none := Table.get?_erase_self ..
      rw [after_stop?_of_none hgone] at ih
      rw [if_pos rfl, after, begin_stop_of_some ht]
      exact ih
    · rw [if_neg hx]
      exact ih.trans ((alike_depart r t (Ne.symm hx)).after task?_of_mem_stop?)
  | @waits r name t more ht =>
    have hlength : (Progress.waiting r.scheduler.stops more a).more.length ≤ more.length :=
      Nat.le_refl _
    rw [stop?_cons hlength]
    by_cases hx : x = name
    · subst hx
      rw [if_pos rfl, after, begin_stop_of_some ht]
    · have hnone : stop? x (.waiting r.scheduler.stops more a) more = none := by
        simp [stop?, Progress.stopped, Progress.more]
      rw [if_neg hx, hnone]
      exact alike_depart r t (Ne.symm hx)

end Rehearsal

/-! ## Runs on the virtual clock -/

/-- What a host does with a scheduler. -/
inductive Act where
  | call (c : Call)
  /-- The call at that place goes on, if what it waits for has come about. -/
  | resume (place : Nat)
  /-- So many milliseconds pass. If none do, the loops still have their turn. -/
  | advance (millis : Nat)

/-- Whether the loops have their turn. -/
def Act.passes : Act → Bool
  | .advance _ => true
  | _ => false

/-- An operation on one task. -/
structure Operation where
  /-- In milliseconds. -/
  time : Nat
  /-- The loops have had no turn since the operation before. -/
  rushed : Bool
  call : Call

def Rehearsal.follow (r : Rehearsal) (o : Operation) : Rehearsal :=
  ((if o.rushed then r else r.advance o.time).begin o.call).2

/-- How a new scheduler stands at an instant if nothing but these operations is done with it. -/
def Rehearsal.alone (os : List Operation) (target : Nat) : Rehearsal :=
  ((os.filter fun o => o.time ≤ target).foldl follow {}).advance target

namespace Session

def act (s : Session) : Act → Session
  | .call c => s.call c
  | .resume i =>
    match s.calls[i]? with
    | some p => s.resume i p
    | none => s
  | .advance millis => s.advance (s.rehearsal.now + millis)

/-- What an act is to a task. A call that stops all tasks is a stop of each, at the instant at which it
gets to it. -/
def operation? (s : Session) (x : String) : Act → Option Call
  | .call .stopAll =>
    Rehearsal.stop? x (s.rehearsal.begin .stopAll).1 s.rehearsal.scheduler.tasks.keys
  | .call c => if c.task? = some x then some c else none
  | .resume i => s.calls[i]?.bind fun p => Rehearsal.stop? x (s.rehearsal.resume p).1 p.more
  | .advance _ => none

/-- The operations on a task, in order; `rushed` says whether the loops have had no turn since the
last. -/
def timeline (x : String) (s : Session) (rushed : Bool) : List Act → List Operation
  | [] => []
  | a :: acts =>
    match s.operation? x a with
    | some c => ⟨s.rehearsal.now, rushed, c⟩ :: timeline x (s.act a) true acts
    | none => timeline x (s.act a) (rushed && !a.passes) acts

/-- How a run stands at an instant, when all that can happen by then has happened. -/
def asOf (target : Nat) (s : Session) : List Act → Session
  | [] => s.advance target
  | a :: acts =>
    if (s.act a).rehearsal.now ≤ target then asOf target (s.act a) acts else s.advance target

variable {s : Session} {x : String}

theorem task?_of_mem_operation? {a : Act} : ∀ c ∈ s.operation? x a, c.task? = some x := by
  intro c hc
  unfold operation? at hc
  split at hc
  · exact Rehearsal.task?_of_mem_stop? c hc
  · split at hc
    · next ht =>
      cases hc
      exact ht
    · cases hc
  · obtain ⟨p, -, hp⟩ := Option.bind_eq_some_iff.1 hc
    exact Rehearsal.task?_of_mem_stop? c hp
  · cases hc

/-- Time aside, an act is to a task what the operation on it is. -/
theorem alike_act (s : Session) (x : String) {a : Act} (ha : a.passes = false) :
    Rehearsal.Alike x (s.act a).rehearsal (s.rehearsal.after (s.operation? x a)) := by
  cases a with
  | advance d => cases ha
  | resume i =>
    simp only [act, operation?]
    cases hp : s.calls[i]? with
    | none => exact .refl x _
    | some p =>
      simp only [Option.bind_some]
      show Rehearsal.Alike x (s.rehearsal.resume p).2 _
      rcases s.rehearsal.resume_cases p with hsame | ⟨id, more, a, rfl, -, hstop⟩
      · have hnone : Rehearsal.stop? x p p.more = none := by
          simp [Rehearsal.stop?, Progress.stopped]
        rw [hsame, hnone]
        exact .refl x _
      · exact hstop.alike x
  | call c =>
    cases c with
    | stopAll => exact (Rehearsal.stopping_stopInTurn ..).alike x
    | add y | run y _ _ | stop y =>
      simp only [operation?, Call.task?, Option.some.injEq]
      by_cases hx : y = x
      · rw [if_pos hx]
        exact .refl x _
      · rw [if_neg hx]
        exact Rehearsal.alike_begin _ rfl hx

theorem now_act (s : Session) {a : Act} (ha : a.passes = false) :
    (s.act a).rehearsal.now = s.rehearsal.now := by
  cases a with
  | advance d => cases ha
  | call c => exact s.rehearsal.now_begin c
  | resume i =>
    simp only [act]
    cases s.calls[i]? with
    | none => rfl
    | some p => exact (s.rehearsal.sameTrace_resume p).2.1

theorem now_le_act (s : Session) (a : Act) : s.rehearsal.now ≤ (s.act a).rehearsal.now := by
  cases a with
  | advance d => exact Nat.le_add_right ..
  | call c => exact Nat.le_of_eq (s.now_act rfl).symm
  | resume i => exact Nat.le_of_eq (s.now_act rfl).symm

/-- No operation is before the clock. -/
theorem le_time_of_mem_timeline {acts : List Act} {rushed : Bool} :
    ∀ o ∈ s.timeline x rushed acts, s.rehearsal.now ≤ o.time := by
  induction acts generalizing s rushed with
  | nil =>
    intro o ho
    cases ho
  | cons a acts ih =>
    intro o ho
    have hle := s.now_le_act a
    unfold timeline at ho
    split at ho
    · rcases List.mem_cons.1 ho with rfl | ho
      · exact Nat.le_refl _
      · exact Nat.le_trans hle (ih o ho)
    · exact Nat.le_trans hle (ih o ho)

/-! ### A task alone -/

/-- To a task, a run stands as a rehearsal with the operations on it does, or will when its loops have
had the turn that those of the run have had since. -/
structure Abreast (x : String) (rushed : Bool) (s : Session) (r : Rehearsal) : Prop where
  alike : Rehearsal.Alike x s.rehearsal (if rushed then r else r.advance s.rehearsal.now)
  now_le : r.now ≤ s.rehearsal.now

variable {r : Rehearsal} {rushed : Bool} {target : Nat}

theorem Abreast.alike_advance (h : Abreast x rushed s r) (ht : s.rehearsal.now ≤ target) :
    Rehearsal.Alike x (s.rehearsal.advance target) (r.advance target) := by
  refine (h.alike.advance target).trans ?_
  cases rushed with
  | true => exact .refl x _
  | false => exact r.alike_advance_advance x h.now_le ht

theorem Abreast.advance (h : Abreast x rushed s r) (millis : Nat) :
    Abreast x false (s.act (.advance millis)) r where
  alike := h.alike_advance (Nat.le_add_right ..)
  now_le := Nat.le_trans h.now_le (Nat.le_add_right ..)

/-- Nothing is done with the task. -/
theorem Abreast.aside (h : Abreast x rushed s r) {a : Act} (ha : a.passes = false)
    (hc : s.operation? x a = none) : Abreast x rushed (s.act a) r := by
  have hact := s.alike_act x ha
  rw [hc] at hact
  refine ⟨?_, (s.now_act ha).symm ▸ h.now_le⟩
  rw [s.now_act ha]
  exact hact.trans h.alike

theorem Abreast.operation (h : Abreast x rushed s r) {a : Act} (ha : a.passes = false) {c : Call}
    (hc : s.operation? x a = some c) :
    Abreast x true (s.act a) (r.follow ⟨s.rehearsal.now, rushed, c⟩) := by
  have hact := s.alike_act x ha
  rw [hc] at hact
  have hfollow := hact.trans (h.alike.begin (task?_of_mem_operation? c hc))
  exact ⟨hfollow, Nat.le_of_eq hfollow.now.symm⟩

/-- To a task, a run goes on as if nothing but the operations on it were done. -/
theorem Abreast.alike_asOf (h : Abreast x rushed s r) (acts : List Act)
    (hs : s.rehearsal.now ≤ target) :
    Rehearsal.Alike x (s.asOf target acts).rehearsal
      ((((s.timeline x rushed acts).filter fun o => o.time ≤ target).foldl
        Rehearsal.follow r).advance target) := by
  induction acts generalizing s r rushed with
  | nil => exact h.alike_advance hs
  | cons a acts ih =>
    unfold asOf timeline
    cases ha : a.passes with
    | false =>
      have hs' : (s.act a).rehearsal.now ≤ target := (s.now_act ha).symm ▸ hs
      rw [if_pos hs']
      cases hc : s.operation? x a with
      | none =>
        simp only [Bool.not_false, Bool.and_true]
        exact ih (h.aside ha hc) hs'
      | some c =>
        have hkept := ih (h.operation ha hc) hs'
        simp only [List.filter_cons, hs, decide_true, ↓reduceIte, List.foldl_cons]
        exact hkept
    | true =>
      have hc : s.operation? x a = none := by
        cases a with
        | advance => rfl
        | call | resume => cases ha
      simp only [hc, Bool.not_true, Bool.and_false]
      by_cases ht : (s.act a).rehearsal.now ≤ target
      · rw [if_pos ht]
        cases a with
        | advance d => exact ih (h.advance d) ht
        | call | resume => cases ha
      · have hlater : ((s.act a).timeline x false acts).filter (fun o => o.time ≤ target) = [] := by
          refine List.filter_eq_nil_iff.2 fun o ho => ?_
          have hle := le_time_of_mem_timeline o ho
          rw [decide_eq_true_eq]
          omega
        rw [if_neg ht, hlater]
        exact h.alike_advance hs

end Session

/-- A run from the beginning. -/
def Session.ran (target : Nat) (acts : List Act) : Rehearsal :=
  (Session.asOf target {} acts).rehearsal

/-- The operations of a run on a task. -/
def operationsOn (x : String) (acts : List Act) : List Operation :=
  Session.timeline x {} false acts

/-- To a task, a run is the run of the operations on it alone. -/
theorem alike_alone (x : String) (acts : List Act) (target : Nat) :
    Rehearsal.Alike x (Session.ran target acts) (.alone (operationsOn x acts) target) := by
  have hstart : Session.Abreast x false {} {} := ⟨.refl x _, Nat.le_refl _⟩
  exact hstart.alike_asOf acts (Nat.zero_le _)

namespace Rehearsal

variable {r r' : Rehearsal} {x : String}

theorem Alike.exists_eq (h : Alike x r r') : r.scheduler.exists? x = r'.scheduler.exists? x := by
  unfold Scheduler.exists? Table.contains
  have ht := congrArg Option.isSome h.task
  rwa [Option.isSome_map, Option.isSome_map] at ht

theorem Alike.period_eq (h : Alike x r r') : r.scheduler.period x = r'.scheduler.period x := by
  have hperiod : ∀ q : Rehearsal, q.scheduler.period x =
      ((q.scheduler.tasks.get? x).map Task.unnumbered).bind Task.period := by
    intro q
    rw [Option.bind_map]
    rfl
  rw [hperiod, hperiod, h.task]

theorem Alike.isRunning_eq (h : Alike x r r') :
    r.scheduler.isRunning x = r'.scheduler.isRunning x := by
  have hrunning : ∀ q : Rehearsal, q.scheduler.isRunning x =
      ((q.scheduler.tasks.get? x).map Task.unnumbered).any fun t => !t.lane.isEmpty := by
    intro q
    unfold Scheduler.isRunning
    cases q.scheduler.tasks.get? x with
    | none => rfl
    | some t => simp [Task.unnumbered]
  rw [hrunning, hrunning, h.task]

/-- The invocations under a name that are in progress, each with its end. -/
def inProgress (r : Rehearsal) (x : String) : List Job :=
  (r.scheduler.lanesOf x).filterMap Lane.job?

theorem Alike.inProgress_eq (h : Alike x r r') : r.inProgress x = r'.inProgress x := by
  have hlanes : ∀ q : Rehearsal, q.inProgress x =
      ((((q.scheduler.tasks.get? x).map Task.unnumbered).map Task.lane).toList ++
        (q.scheduler.leavingOf x).map Lane.unnumbered).filterMap Lane.job? := by
    intro q
    unfold inProgress Scheduler.lanesOf
    rw [List.filterMap_append, List.filterMap_append, List.filterMap_map]
    simp only [Function.comp_def, Lane.job?_unnumbered]
    cases q.scheduler.tasks.get? x with
    | none => rfl
    | some t => simp [Task.unnumbered, List.filterMap_cons]
  rw [hlanes, hlanes, h.task, h.leaving]

/-- The starts of invocations under a name, or their ends. -/
def times (r : Rehearsal) (x : String) (isStart : Bool) : List Nat :=
  ((r.happenings x).filter fun e => e.isStart = isStart).map Happening.time

theorem Alike.times_perm (h : Alike x r r') (isStart : Bool) :
    (r.times x isStart).Perm (r'.times x isStart) := by
  have htimes : ∀ q : Rehearsal, q.times x isStart =
      (((q.happenings x).map Happening.unnumbered).filter fun e => e.isStart = isStart).map
        Happening.time := by
    intro q
    rw [List.filter_map, List.map_map]
    rfl
  rw [htimes, htimes]
  exact (h.happenings.filter _).map _

end Rehearsal

/-- An operation without its circumstances. -/
def Operation.timed (o : Operation) : Nat × Call := (o.time, o.call)

/-- Tasks do not interfere. Two runs with the same operations on a task at the same instants, and with
turns for the loops between the same of these, whatever else is done in them: at every instant the task
exists in both or in neither, has the same period, is running in both or in neither and has the same
invocations in progress; and its invocations have started and ended at the same times. -/
theorem same_for_task {x : String} {acts acts' : List Act}
    (hops : (operationsOn x acts).map Operation.timed = (operationsOn x acts').map Operation.timed)
    (hturns : (operationsOn x acts).map Operation.rushed =
      (operationsOn x acts').map Operation.rushed) (target : Nat) :
    (Session.ran target acts).scheduler.exists? x =
        (Session.ran target acts').scheduler.exists? x ∧
      (Session.ran target acts).scheduler.period x =
        (Session.ran target acts').scheduler.period x ∧
      (Session.ran target acts).scheduler.isRunning x =
        (Session.ran target acts').scheduler.isRunning x ∧
      (Session.ran target acts).inProgress x = (Session.ran target acts').inProgress x ∧
      ∀ isStart, ((Session.ran target acts).times x isStart).Perm
        ((Session.ran target acts').times x isStart) := by
  have hsame : operationsOn x acts = operationsOn x acts' := by
    have hpair : Function.Injective fun o : Operation => (o.timed, o.rushed) := by
      rintro ⟨t, b, c⟩ ⟨t', b', c'⟩ h
      cases h
      rfl
    have hzip : ∀ os : List Operation, os.map (fun o => (o.timed, o.rushed)) =
        (os.map Operation.timed).zip (os.map Operation.rushed) := fun os => List.zip_map'.symm
    refine hpair.list_map ?_
    simp only [hzip, hops, hturns]
  have halike : Rehearsal.Alike x (Session.ran target acts) (Session.ran target acts') := by
    refine (alike_alone x acts target).trans ?_
    rw [hsame]
    exact (alike_alone x acts' target).symm
  exact ⟨halike.exists_eq, halike.period_eq, halike.isRunning_eq, halike.inProgress_eq,
    halike.times_perm⟩

/-- A task that overruns, beside one that breaks down, is run again and stopped. -/
def crowded : List Act :=
  [.call (.add "y"), .call (.add "x"), .call (.run "y" (.ofMillis 5) [.breaksAfter 3]),
    .call (.run "x" (.ofMillis 10) [.lasts 25]), .advance 12,
    .call (.run "y" (.ofMillis 7) [.lasts 40]), .advance 18, .call (.stop "y"),
    .call (.stop "x"), .advance 60, .resume 5, .resume 6]

/-- Only the task that overruns. -/
def uncrowded : List Act :=
  [.call (.add "x"), .call (.run "x" (.ofMillis 10) [.lasts 25]), .advance 30, .call (.stop "x")]

theorem crowded_like_uncrowded :
    ((Session.ran 100 crowded).times "x" true).Perm ((Session.ran 100 uncrowded).times "x" true) ∧
      (Session.ran 100 uncrowded).times "x" true = [0, 25] := by
  obtain ⟨-, -, -, -, htimes⟩ :=
    @same_for_task "x" crowded uncrowded (by rfl) (by rfl) 100
  exact ⟨htimes true, by decide +kernel⟩

/-- A loop is replaced at the instant at which it has been asked for; in between another task is
stopped, which takes no time. -/
def stopBetween : List Act :=
  [.call (.add "x"), .call (.add "y"), .call (.run "y" (.ofMillis 1000) [.lasts 0]), .advance 0,
    .call (.run "x" (.ofMillis 100) [.lasts 30]), .call (.stop "y"), .advance 0, .resume 4,
    .call (.run "x" (.ofMillis 100) [.lasts 5]), .advance 50]

/-- The same without the stop. -/
def nothingBetween : List Act :=
  [.call (.add "x"), .call (.add "y"), .call (.run "y" (.ofMillis 1000) [.lasts 0]), .advance 0,
    .call (.run "x" (.ofMillis 100) [.lasts 30]), .call (.run "x" (.ofMillis 100) [.lasts 5]),
    .advance 50]

/-- The same operations on a task at the same instants do not determine when its invocations start: a
stop of another task lets its first loop begin before that is replaced. -/
theorem stop_beside_starts_first_loop :
    (operationsOn "x" stopBetween).map Operation.timed =
        (operationsOn "x" nothingBetween).map Operation.timed ∧
      ¬((Session.ran 50 stopBetween).times "x" true).Perm
        ((Session.ran 50 nothingBetween).times "x" true) := by
  have hwith : (Session.ran 50 stopBetween).times "x" true = [0, 30] := by decide +kernel
  have hwithout : (Session.ran 50 nothingBetween).times "x" true = [0] := by decide +kernel
  refine ⟨by rfl, ?_⟩
  rw [hwith, hwithout]
  intro h
  have hlength := h.length_eq
  cases hlength

end Schedule
end MetricRelay
