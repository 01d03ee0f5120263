import MetricRelay.Proofs.Schedule.Departures

/-!
# Calls that wait are over in the end

`Rehearsal.wait` lets time pass until the calls under way are over. What it does are steps
(`steps_wait`): a lane that a call waits for ends with the invocation in progress, and each time one has
ended, the call has fewer tasks left to stop. So a session that is left alone comes to rest
(`Reachable.comes_to_rest`).
-/

namespace MetricRelay.Schedule

/-- Tasks that the calls are still to stop. -/
def leftOver : List Progress → Nat
  | [] => 0
  | p :: ps => p.left + leftOver ps

namespace Rehearsal

variable {r r' : Rehearsal}

/-! ## Numbers of departures -/

/-- Departures have numbers of their own, given out in order. -/
structure Numbered (r : Rehearsal) : Prop where
  distinct : r.scheduler.leaving.Pairwise fun d e => d.id ≠ e.id
  lt_stops : ∀ d ∈ r.scheduler.leaving, d.id < r.scheduler.stops

theorem Numbered.move (h : r.Numbered) (hm : r.Move r') : r'.Numbered := by
  obtain ⟨hd, hlt⟩ := h
  cases hm with
  | task | pass => exact ⟨hd, hlt⟩
  | forget => exact ⟨hd.filter _, fun d hd => hlt d (List.mem_filter.1 hd).1⟩
  | @departure before after d now horizon m hl =>
    rw [hl] at hd hlt
    refine ⟨?_, fun e he => ?_⟩
    · have hids : ∀ l : List (Departure Run Job),
          (l.Pairwise fun d e => d.id ≠ e.id) ↔ (l.map Departure.id).Pairwise (· ≠ ·) :=
        fun l => List.pairwise_map.symm
      rw [hids] at hd
      rw [withDeparture, hids]
      simpa using hd
    · rcases List.mem_append.1 he with he | he
      · exact hlt e (List.mem_append_left _ he)
      · rcases List.mem_cons.1 he with rfl | he
        · exact hlt d (by simp)
        · exact hlt e (by simp [he])

theorem Numbered.stopping (h : r.Numbered) {a : Answer} {names : List String} {p : Progress}
    (hs : Stopping a r names p r') : r'.Numbered := by
  refine hs.induct (P := Numbered) (fun r name t _ ⟨hd, hlt⟩ => ⟨?_, fun d hd => ?_⟩) h
  · refine List.pairwise_append.2 ⟨hd, List.pairwise_singleton _ _, fun d hmem e he => ?_⟩
    rw [List.mem_singleton.1 he]
    exact Nat.ne_of_lt (hlt d hmem)
  · rcases List.mem_append.1 hd with hd | hd
    · exact Nat.lt_succ_of_lt (hlt d hd)
    · rw [List.mem_singleton.1 hd]
      exact Nat.lt_succ_self _

theorem Stopping.stops_le {a : Answer} {names : List String} {p : Progress}
    (hs : Stopping a r names p r') : r.scheduler.stops ≤ r'.scheduler.stops :=
  hs.induct (P := fun q => r.scheduler.stops ≤ q.scheduler.stops)
    (fun _ _ _ _ hq => Nat.le_succ_of_le hq) (Nat.le_refl _)

theorem Stopping.departure?_lt {a : Answer} {names : List String} {p : Progress}
    (hs : Stopping a r names p r') {id : Nat} (hid : p.departure? = some id) :
    id < r'.scheduler.stops := by
  induction hs with
  | done => cases hid
  | absent _ _ ih => exact ih hid
  | ended _ _ _ ih => exact ih hid
  | waits =>
    cases hid
    exact Nat.lt_succ_self _

/-- Stopping tasks leaves no more of them to be stopped than there are. -/
theorem Stopping.left_le {a : Answer} {names : List String} {p : Progress}
    (hs : Stopping a r names p r') : p.left ≤ names.length := by
  induction hs with
  | done => exact Nat.le_refl _
  | absent _ _ ih => exact Nat.le_succ_of_le ih
  | ended _ _ _ ih => exact Nat.le_succ_of_le ih
  | waits => exact Nat.le_refl _

/-- A lane that has ended stays so. -/
theorem Stopping.hasLeft {a : Answer} {names : List String} {p : Progress}
    (hs : Stopping a r names p r') {id : Nat} (hid : id < r.scheduler.stops)
    (h : r.scheduler.hasLeft id = true) : r'.scheduler.hasLeft id = true := by
  refine (hs.induct (P := fun q => id < q.scheduler.stops ∧ q.scheduler.hasLeft id = true)
    (fun q name t _ ⟨hlt, hq⟩ => ⟨Nat.lt_succ_of_lt hlt, hasLeft_iff.2 fun d hd he => ?_⟩) ⟨hid, h⟩).2
  rcases List.mem_append.1 hd with hd | hd
  · exact hasLeft_iff.1 hq d hd he
  · rw [List.mem_singleton.1 hd] at he
    exact absurd he (Nat.ne_of_gt hlt)

/-! ## Letting the awaited time pass -/

theorem find?_of_mem (h : r.Numbered) {d : Departure Run Job} (hd : d ∈ r.scheduler.leaving) :
    r.scheduler.leaving.find? (fun e => e.id = d.id) = some d := by
  have hdistinct := h.distinct
  revert hd hdistinct
  generalize r.scheduler.leaving = l
  intro hd hdistinct
  induction l with
  | nil => cases hd
  | cons e l ih =>
    obtain ⟨he, hl⟩ := List.pairwise_cons.1 hdistinct
    rcases List.mem_cons.1 hd with rfl | hd
    · rw [List.find?_cons_of_pos (by simp)]
    · rw [List.find?_cons_of_neg (by simpa using he d hd)]
      exact ih hd hl

/-- After the awaited time the lane has ended. -/
theorem hasLeft_advance (hd : r.Dismissed) (hn : r.Numbered) {p : Progress} {id t : Nat}
    (hid : p.departure? = some id) (ht : r.awaited? p = some t) :
    (r.advance (max r.now t)).scheduler.hasLeft id = true := by
  cases p with
  | finished a => cases hid
  | waiting id' more a =>
    cases hid
    refine hasLeft_iff.2 fun d' hd' he => ?_
    obtain ⟨hd', -⟩ := List.mem_filter.1 hd'
    simp only [List.map_map, List.mem_map] at hd'
    obtain ⟨d, hmem, rfl⟩ := hd'
    refine Lane.isEmpty_advance (hd d hmem) (Nat.le_max_left ..) fun job hj => ?_
    have he : d.id = id := he
    have hfind := find?_of_mem hn hmem
    rw [he] at hfind
    simp only [awaited?, hfind, Option.bind_some, hj, Option.map_some, Option.getD_some,
      Option.some.injEq] at ht
    exact ht ▸ Nat.le_max_right ..

/-! ## Going on -/

theorem resume_left_le (r : Rehearsal) (p : Progress) : (r.resume p).1.left ≤ p.left := by
  rcases r.resume_cases p with hp | ⟨id, more, a, rfl, -, hs⟩
  · exact Nat.le_of_eq (by rw [hp])
  · exact Nat.le_succ_of_le hs.left_le

theorem resume_left_lt {p : Progress} {id : Nat} (hid : p.departure? = some id)
    (h : r.scheduler.hasLeft id = true) : (r.resume p).1.left < p.left := by
  cases p with
  | finished a => cases hid
  | waiting id' more a =>
    cases hid
    have hs := stopping_stopInTurn a r more
    unfold resume
    simp only [if_pos h]
    exact Nat.lt_succ_of_le hs.left_le

theorem resume_stops_le (r : Rehearsal) (p : Progress) :
    r.scheduler.stops ≤ (r.resume p).2.scheduler.stops := by
  rcases r.resume_cases p with hp | ⟨id, more, a, rfl, -, hs⟩
  · exact Nat.le_of_eq (by rw [hp])
  · exact hs.stops_le

theorem resume_hasLeft (p : Progress) {id : Nat} (hid : id < r.scheduler.stops)
    (h : r.scheduler.hasLeft id = true) : (r.resume p).2.scheduler.hasLeft id = true := by
  rcases r.resume_cases p with hp | ⟨_, more, a, rfl, -, hs⟩
  · rwa [hp]
  · exact hs.hasLeft hid h

/-- The departures that calls wait for have been. -/
structure Ready (r : Rehearsal) (ps : List Progress) : Prop where
  dismissed : r.Dismissed
  numbered : r.Numbered
  asked : ∀ p ∈ ps, ∀ id, p.departure? = some id → id < r.scheduler.stops

theorem Ready.resume {p : Progress} {ps : List Progress} (h : r.Ready (p :: ps)) :
    (r.resume p).2.Ready ((r.resume p).1 :: ps) := by
  obtain ⟨hd, hn, ha⟩ := h
  rcases r.resume_cases p with hp | ⟨id, more, a, rfl, -, hs⟩
  · rw [hp]
    exact ⟨hd, hn, ha⟩
  · refine ⟨hd.stopping hs, hn.stopping hs, fun q hq id hid => ?_⟩
    rcases List.mem_cons.1 hq with rfl | hq
    · exact hs.departure?_lt hid
    · exact Nat.lt_of_lt_of_le (ha q (List.mem_cons_of_mem _ hq) id hid) hs.stops_le

theorem resumeAll_stops_le (r : Rehearsal) (ps : List Progress) :
    r.scheduler.stops ≤ (r.resumeAll ps).2.scheduler.stops := by
  induction ps generalizing r with
  | nil => exact Nat.le_refl _
  | cons p ps ih => exact Nat.le_trans (r.resume_stops_le p) (ih _)

theorem Ready.resumeAll {ps : List Progress} (h : r.Ready ps) :
    (r.resumeAll ps).2.Ready (r.resumeAll ps).1 := by
  induction ps generalizing r with
  | nil => exact h
  | cons p ps ih =>
    obtain ⟨hd, hn, ha⟩ := h.resume
    have hrest := ih ⟨hd, hn, fun q hq => ha q (List.mem_cons_of_mem _ hq)⟩
    refine ⟨hrest.dismissed, hrest.numbered, fun q hq id hid => ?_⟩
    rcases List.mem_cons.1 hq with rfl | hq
    · exact Nat.lt_of_lt_of_le (ha _ List.mem_cons_self id hid) (resumeAll_stops_le ..)
    · exact hrest.asked q hq id hid

theorem Ready.advance {ps : List Progress} (h : r.Ready ps) {target : Nat} (ht : r.now ≤ target) :
    (r.advance target).Ready ps where
  dismissed := (moves_advance ht).induct (fun _ _ hq hm => Dismissed.move hq hm) h.dismissed
  numbered := (moves_advance ht).induct (fun _ _ hq hm => hq.move hm) h.numbered
  asked := h.asked

theorem leftOver_resumeAll_le (r : Rehearsal) (ps : List Progress) :
    leftOver (r.resumeAll ps).1 ≤ leftOver ps := by
  induction ps generalizing r with
  | nil => exact Nat.le_refl _
  | cons p ps ih => exact Nat.add_le_add (r.resume_left_le p) (ih _)

/-- When a lane that is waited for has ended, fewer tasks are left to stop. -/
theorem leftOver_resumeAll_lt {ps : List Progress} (h : r.Ready ps) {p : Progress} {id : Nat}
    (hp : p ∈ ps) (hid : p.departure? = some id) (hleft : r.scheduler.hasLeft id = true) :
    leftOver (r.resumeAll ps).1 < leftOver ps := by
  induction ps generalizing r with
  | nil => cases hp
  | cons q ps ih =>
    have hq : (r.resume q).1.left ≤ q.left := r.resume_left_le q
    have hps := leftOver_resumeAll_le (r.resume q).2 ps
    rcases List.mem_cons.1 hp with rfl | hp
    · have hlt := resume_left_lt hid hleft
      simp only [Rehearsal.resumeAll, leftOver]
      omega
    · obtain ⟨hd, hn, ha⟩ := h.resume
      have hlt := ih ⟨hd, hn, fun q hq => ha q (List.mem_cons_of_mem _ hq)⟩ hp
        (resume_hasLeft q (h.asked p (List.mem_cons_of_mem _ hp) id hid) hleft)
      simp only [Rehearsal.resumeAll, leftOver]
      omega

/-- With enough turns every call is over. -/
theorem Ready.wait_finishes {limit : Nat} {ps : List Progress} (h : r.Ready ps)
    (hl : leftOver ps < limit) : ∀ p ∈ (wait limit r ps).1, p.departure? = none := by
  induction limit generalizing r ps with
  | zero => omega
  | succ limit ih =>
    unfold wait
    cases hm : (ps.filterMap r.awaited?).min? with
    | none =>
      simp only
      intro p hp
      have hnone := List.filterMap_eq_nil_iff.1 (List.min?_eq_none_iff.1 hm) p hp
      cases p with
      | finished a => rfl
      | waiting id more a => cases hnone
    | some t =>
      obtain ⟨p, hp, ht⟩ := List.mem_filterMap.1 (List.min?_mem hm)
      have hadv : (r.advance (max r.now t)).Ready ps := h.advance (Nat.le_max_left ..)
      obtain ⟨id, hid⟩ : ∃ id, p.departure? = some id := by
        cases p with
        | finished a => cases ht
        | waiting id more a => exact ⟨id, rfl⟩
      have hleft := hasLeft_advance h.dismissed h.numbered hid ht
      have hlt := leftOver_resumeAll_lt hadv hp hid hleft
      exact ih hadv.resumeAll (by omega)

theorem Ready.begin {ps : List Progress} (h : r.Ready ps) (c : Call) :
    (r.begin c).2.Ready (ps ++ [(r.begin c).1]) := by
  obtain ⟨hd, hn, ha⟩ := h
  have hstopping {a : Answer} {names : List String} :
      (r.stopInTurn a names).2.Ready (ps ++ [(r.stopInTurn a names).1]) := by
    have hs := stopping_stopInTurn a r names
    refine ⟨hd.stopping hs, hn.stopping hs, fun p hp id hid => ?_⟩
    rcases List.mem_append.1 hp with hp | hp
    · exact Nat.lt_of_lt_of_le (ha p hp id hid) hs.stops_le
    · rw [List.mem_singleton.1 hp] at hid
      exact hs.departure?_lt hid
  have hfinished {a : Answer} : ∀ p ∈ ps ++ [.finished a], ∀ id, p.departure? = some id →
      id < r.scheduler.stops := by
    intro p hp id hid
    rcases List.mem_append.1 hp with hp | hp
    · exact ha p hp id hid
    · rw [List.mem_singleton.1 hp] at hid
      cases hid
  cases c with
  | add x => exact ⟨hd, ⟨hn.distinct, hn.lt_stops⟩, hfinished⟩
  | run x period efforts =>
    rcases r.begin_run_cases x period efforts with ⟨e, he⟩ | ⟨t, p, -, -, he⟩ <;>
      exact he ▸ ⟨hd, ⟨hn.distinct, hn.lt_stops⟩, hfinished⟩
  | stop x => exact hstopping
  | stopAll => exact hstopping

theorem ready_start : Rehearsal.Ready {} [] where
  dismissed := by
    intro d hd
    cases hd
  numbered := ⟨.nil, by
    intro d hd
    cases hd⟩
  asked := by
    intro p hp
    cases hp

end Rehearsal

section

variable {allowed : Session → Call → Prop} {s : Session}

theorem Reachable.ready (h : Reachable allowed s) : s.rehearsal.Ready s.calls := by
  induction h with
  | refl => exact Rehearsal.ready_start
  | @tail t u _ hstep ih =>
    cases hstep with
    | @call c => exact ih.begin c
    | @resume i p hp =>
      have hmem : p ∈ t.calls := List.mem_of_getElem? hp
      have hready : t.rehearsal.Ready (p :: t.calls) := by
        refine ⟨ih.dismissed, ih.numbered, fun q hq => ?_⟩
        rcases List.mem_cons.1 hq with rfl | hq
        · exact ih.asked q hmem
        · exact ih.asked q hq
      obtain ⟨hd, hn, ha⟩ := hready.resume
      refine ⟨hd, hn, fun q hq => ?_⟩
      rcases List.mem_or_eq_of_mem_set hq with hq | rfl
      · exact ha q (List.mem_cons_of_mem _ hq)
      · exact ha _ List.mem_cons_self
    | move hm =>
      refine ⟨ih.dismissed.move hm, ih.numbered.move hm, fun p hp id hid => ?_⟩
      have hlt := ih.asked p hp id hid
      cases hm <;> exact hlt

/-! ## Steps -/

theorem steps_resumeAll (r : Rehearsal) (before ps : List Progress) :
    Steps allowed ⟨r, before ++ ps⟩ ⟨(r.resumeAll ps).2, before ++ (r.resumeAll ps).1⟩ := by
  induction ps generalizing r before with
  | nil => exact .refl _
  | cons p ps ih =>
    have hp : (before ++ p :: ps)[before.length]? = some p := by simp
    have hfirst : Steps allowed ⟨r, before ++ p :: ps⟩
        (Session.resume ⟨r, before ++ p :: ps⟩ before.length p) := .tail (.refl _) (.resume hp)
    have hrest := ih (r.resume p).2 (before ++ [(r.resume p).1])
    have h := hfirst.trans (by simpa [Session.resume] using hrest)
    simpa [Rehearsal.resumeAll] using h

theorem steps_wait (limit : Nat) (r : Rehearsal) (ps : List Progress) :
    Steps allowed ⟨r, ps⟩ ⟨(Rehearsal.wait limit r ps).2, (Rehearsal.wait limit r ps).1⟩ := by
  induction limit generalizing r ps with
  | zero => exact .refl _
  | succ limit ih =>
    unfold Rehearsal.wait
    cases (ps.filterMap r.awaited?).min? with
    | none => exact .refl _
    | some t =>
      have hpass : Steps allowed ⟨r, ps⟩ ⟨r.advance (max r.now t), ps⟩ :=
        (Steps.refl _).advance _ (Nat.le_max_left ..)
      exact (hpass.trans (steps_resumeAll _ [] ps)).trans (ih ..)

/-- No more calls are made. -/
def NoCalls (_ : Session) (_ : Call) : Prop := False

/-- Left alone, a session comes to where every call is over. -/
theorem Reachable.comes_to_rest (h : Reachable allowed s) :
    ∃ t, Steps NoCalls s t ∧ t.Awaited :=
  ⟨_, steps_wait (leftOver s.calls + 1) s.rehearsal s.calls,
    h.ready.wait_finishes (Nat.lt_succ_self _)⟩

end

end MetricRelay.Schedule
