import MetricRelay.Proofs.Schedule.Lane

/-!
# Cutting time

How a lane moves on does not depend on where the time is cut: advancing it in two parts is advancing
it at once (`Lane.advance_advance`), since a lane that has come to rest moves next when it is woken or
its invocation ends, and not before. Neither does it depend on the numbers of its loops
(`Lane.advance_unnumbered`): these only tell in the log who has started an invocation.
-/

namespace MetricRelay.Schedule

/-! ## Without numbers -/

def Run.unnumbered (r : Run) : Run := { r with number := 0 }

def Plan.unnumbered (p : Plan Run) : Plan Run := { p with work := p.work.unnumbered }

def Loop.unnumbered (c : Loop Run Job) : Loop Run Job := { c with plan := c.plan.unnumbered }

def Lane.unnumbered (l : TimedLane) : TimedLane where
  current := l.current.map Loop.unnumbered
  queued := l.queued.map Plan.unnumbered

def Happening.unnumbered (h : Happening) : Happening := { h with run := 0 }

def Moment.unnumbered (m : Moment) : Moment where
  now := m.now
  lane := m.lane.unnumbered
  past := m.past.map Happening.unnumbered

namespace Lane

@[simp] theorem isEmpty_unnumbered (l : TimedLane) : l.unnumbered.isEmpty = l.isEmpty := by
  unfold isEmpty unnumbered
  rw [Option.isNone_map, List.isEmpty_map]

@[simp] theorem job?_unnumbered (l : TimedLane) : l.unnumbered.job? = l.job? := by
  obtain ⟨current, queued⟩ := l
  rcases current with _ | ⟨p, _ | _⟩ <;> rfl

theorem unnumbered_cancel (l : TimedLane) : l.cancel.unnumbered = l.unnumbered.cancel := by
  unfold cancel unnumbered
  simp only [Option.map_map, List.map_map]
  rfl

theorem unnumbered_replace (l : TimedLane) (p : Plan Run) :
    (l.replace p).unnumbered = l.unnumbered.replace p.unnumbered := by
  unfold replace
  rw [← unnumbered_cancel]
  unfold unnumbered
  rw [List.map_append, List.map_singleton]

end Lane

namespace Moment

theorem step?_unnumbered (horizon : Nat) (m : Moment) :
    m.unnumbered.step? horizon = (m.step? horizon).map unnumbered := by
  obtain ⟨now, ⟨current, queued⟩, past⟩ := m
  rcases current with _ | ⟨p, deadline | ⟨next, job⟩⟩
  · rcases queued with _ | ⟨p, q⟩
    · rfl
    · cases hc : p.cancelled <;>
        simp [step?, unnumbered, Lane.unnumbered, Lane.beginNext, Plan.unnumbered, hc,
          Loop.unnumbered]
  · have hm : (Moment.mk now ⟨some ⟨p, .waiting deadline⟩, queued⟩ past).unnumbered =
        ⟨now, ⟨some ⟨p.unnumbered, .waiting deadline⟩, queued.map Plan.unnumbered⟩,
          past.map Happening.unnumbered⟩ := rfl
    rw [hm]
    have hcancelled : p.unnumbered.cancelled = p.cancelled := rfl
    simp only [step?, hcancelled]
    split
    · rfl
    · split <;> rfl
  · have hm : (Moment.mk now ⟨some ⟨p, .busy next job⟩, queued⟩ past).unnumbered =
        ⟨now, ⟨some ⟨p.unnumbered, .busy next job⟩, queued.map Plan.unnumbered⟩,
          past.map Happening.unnumbered⟩ := rfl
    rw [hm]
    simp only [step?]
    split
    · split <;> rfl
    · rfl

theorem moves_unnumbered (horizon limit : Nat) (m : Moment) :
    m.unnumbered.moves horizon limit = (m.moves horizon limit).unnumbered := by
  induction limit generalizing m with
  | zero => rfl
  | succ limit ih =>
    unfold moves
    rw [step?_unnumbered]
    cases m.step? horizon with
    | none => rfl
    | some m' => exact ih m'

theorem rank_unnumbered (horizon : Nat) (m : Moment) :
    m.unnumbered.rank horizon = m.rank horizon := by
  unfold rank unnumbered Lane.unnumbered
  rw [Option.map_map, List.length_map]
  rfl

end Moment

/-- The numbers of the loops show in the log only. -/
theorem Lane.advance_unnumbered (l : TimedLane) (now target : Nat) :
    l.unnumbered.advance now target =
      ((l.advance now target).1.unnumbered,
        (l.advance now target).2.map Happening.unnumbered) := by
  have hmoment : (⟨now, l.unnumbered, []⟩ : Moment) = (Moment.mk now l []).unnumbered := rfl
  unfold Lane.advance
  simp only
  rw [hmoment, Moment.rank_unnumbered, Moment.moves_unnumbered]
  simp only [Moment.unnumbered, List.map_reverse]

/-! ## In two parts -/

namespace Moment

variable {horizon later limit : Nat} {m m' : Moment}

theorem moves_of_rest (h : m.step? horizon = none) (limit : Nat) : m.moves horizon limit = m := by
  cases limit with
  | zero => rfl
  | succ limit =>
    unfold moves
    rw [h]

theorem moves_add (horizon i j : Nat) (m : Moment) :
    m.moves horizon (i + j) = (m.moves horizon i).moves horizon j := by
  induction i generalizing m with
  | zero => rw [Nat.zero_add, moves]
  | succ i ih =>
    rw [Nat.succ_add, moves, moves]
    cases hs : m.step? horizon with
    | none => exact (moves_of_rest hs j).symm
    | some m' => exact ih m'

/-- More moves than there can be change nothing. -/
theorem moves_eq_of_rank_le (h : m.rank horizon ≤ limit) :
    m.moves horizon limit = m.moves horizon (m.rank horizon) := by
  obtain ⟨extra, rfl⟩ := Nat.exists_eq_add_of_le h
  rw [moves_add]
  exact moves_of_rest (step?_moves_eq_none (Nat.le_refl _)) extra

/-- A move up to a horizon is one up to any later horizon. -/
theorem step?_of_le (h : m.step? horizon = some m') (hle : horizon ≤ later) :
    m.step? later = some m' := by
  obtain ⟨now, ⟨current, queued⟩, past⟩ := m
  unfold step? at h ⊢
  rcases current with _ | ⟨p, deadline | ⟨next, job⟩⟩ <;> simp only at h ⊢
  · exact h
  · split at h
    · next hc => rw [if_pos hc, h]
    · next hc =>
      rw [if_neg hc]
      split at h
      · next ht => rw [if_pos (Nat.le_trans ht hle), h]
      · cases h
  · split at h
    · next ht => rw [if_pos (Nat.le_trans ht hle), h]
    · cases h

/-- The moves up to a horizon are the first of those up to any later horizon. -/
theorem exists_moves_add (hle : horizon ≤ later) (limit : Nat) (m : Moment) :
    ∃ i, ∀ j, m.moves later (i + j) = (m.moves horizon limit).moves later j := by
  induction limit generalizing m with
  | zero => exact ⟨0, fun j => by rw [Nat.zero_add]; rfl⟩
  | succ limit ih =>
    cases hs : m.step? horizon with
    | none => exact ⟨0, fun j => by rw [moves_of_rest hs, Nat.zero_add]⟩
    | some m' =>
      obtain ⟨i, hi⟩ := ih m'
      refine ⟨i + 1, fun j => ?_⟩
      rw [Nat.add_right_comm]
      simp only [moves, hs, step?_of_le hs hle]
      exact hi j

theorem now_le_moves (hn : m.now ≤ horizon) (limit : Nat) :
    (m.moves horizon limit).now ≤ horizon := by
  refine moves_induction (P := fun m => m.now ≤ horizon) (fun m m' h hm => ?_) limit hn
  cases hm with
  | drop | begin | quit => exact h
  | start _ _ _ hh | finish _ _ _ hh | fail _ _ _ hh => exact hh

/-- Where a lane has come to rest, its next move does not look at the clock. -/
theorem step?_at_rest (hrest : m.step? horizon = none) (hn : m.now ≤ horizon) :
    { m with now := horizon }.step? later = m.step? later := by
  obtain ⟨now, ⟨current, queued⟩, past⟩ := m
  unfold step? at hrest ⊢
  rcases current with _ | ⟨p, deadline | ⟨next, job⟩⟩ <;> simp only at hn hrest ⊢
  · rcases queued with _ | ⟨p, q⟩
    · rfl
    · cases hrest
  · split at hrest
    · cases hrest
    · next hc =>
      rw [if_neg hc]
      split at hrest
      · cases hrest
      · next ht =>
        have hwake : max now (wakeTime deadline) = max horizon (wakeTime deadline) := by omega
        rw [if_neg hc, hwake]
  · split at hrest
    · split at hrest <;> cases hrest
    · next ht =>
      have hdone : max now job.done = max horizon job.done := by omega
      rw [hdone]

theorem moves_at_rest (hrest : m.step? horizon = none) (hn : m.now ≤ horizon)
    (later limit : Nat) :
    ({ m with now := horizon }.moves later limit).lane = (m.moves later limit).lane ∧
      ({ m with now := horizon }.moves later limit).past = (m.moves later limit).past := by
  cases limit with
  | zero => exact ⟨rfl, rfl⟩
  | succ limit =>
    unfold moves
    rw [step?_at_rest hrest hn]
    cases m.step? later <;> exact ⟨rfl, rfl⟩

end Moment

/-- Moving a lane on in two parts is moving it on at once. -/
theorem Lane.advance_advance (l : TimedLane) {now middle target : Nat} (h : now ≤ middle)
    (h' : middle ≤ target) :
    l.advance now target =
      (((l.advance now middle).1.advance middle target).1,
        (l.advance now middle).2 ++ ((l.advance now middle).1.advance middle target).2) := by
  let start : Moment := ⟨now, l, []⟩
  let rest : Moment := start.moves middle (start.rank middle)
  let again : Moment := ⟨middle, rest.lane, []⟩
  have hrest : rest.step? middle = none := Moment.step?_moves_eq_none (Nat.le_refl _)
  have hnow : rest.now ≤ middle := Moment.now_le_moves h _
  obtain ⟨i, hi⟩ := Moment.exists_moves_add h' (start.rank middle) start
  -- enough moves for the second part, and for the whole
  have hwhole := hi (start.rank target + again.rank target)
  rw [Moment.moves_eq_of_rank_le (by omega)] at hwhole
  obtain ⟨hlane, hpast⟩ := Moment.moves_at_rest hrest hnow target
    (start.rank target + again.rank target)
  have hpasts := Moment.moves_past target (start.rank target + again.rank target) middle rest.lane
    rest.past
  have hsecond : again.moves target (start.rank target + again.rank target) =
      again.moves target (again.rank target) := Moment.moves_eq_of_rank_le (by omega)
  have hlane' : (start.moves target (start.rank target)).lane =
      (again.moves target (again.rank target)).lane := by
    rw [hwhole, ← hsecond, ← hlane, hpasts]
  have hpast' : (start.moves target (start.rank target)).past =
      (again.moves target (again.rank target)).past ++ rest.past := by
    rw [hwhole, ← hsecond, ← hpast, hpasts]
  show ((start.moves target (start.rank target)).lane,
      (start.moves target (start.rank target)).past.reverse) =
    ((again.moves target (again.rank target)).lane,
      rest.past.reverse ++ (again.moves target (again.rank target)).past.reverse)
  rw [hlane', hpast', List.reverse_append]

theorem Lane.advance_of_isEmpty {l : TimedLane} (h : l.isEmpty = true) (now target : Nat) :
    l.advance now target = (l, []) := by
  have hstep : (Moment.mk now l []).step? target = none := by
    unfold Lane.isEmpty at h
    rw [Bool.and_eq_true, Option.isNone_iff_eq_none] at h
    unfold Moment.step?
    simp only [h.1, h.2, ↓reduceIte]
  unfold Lane.advance
  simp only [Moment.moves_of_rest hstep, List.reverse_nil]

end MetricRelay.Schedule
