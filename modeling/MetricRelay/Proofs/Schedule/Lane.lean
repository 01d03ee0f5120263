import MetricRelay.Schedule.Timeline

/-!
# Moves of a lane

`Moment.Move` lists what a lane can do next, and `move_of_step?` says that it does nothing else. Only
a loop that is not cancelled starts invocations, and a cancelled loop stays so (`LiveOnly`). Every move
leaves less of the time up to the horizon, so `Lane.advance` makes all moves there are; a lane whose
loops are all cancelled ends as soon as its invocation has ended.
-/

namespace MetricRelay.Schedule

namespace Lane

section Plans

variable {ω β : Type}

/-- The loops that have not ended, oldest first. -/
def plans (l : Lane ω β) : List (Plan ω) := (l.current.map Loop.plan).toList ++ l.queued

def Cancelled (l : Lane ω β) : Prop := ∀ p ∈ l.plans, p.cancelled = true

theorem isEmpty_iff {l : Lane ω β} : l.isEmpty = true ↔ l.plans = [] := by
  unfold isEmpty plans
  cases l.current <;> simp

theorem plans_cancel (l : Lane ω β) : l.cancel.plans = l.plans.map Plan.cancel := by
  unfold cancel plans
  cases l.current <;> simp

theorem plans_replace (l : Lane ω β) (p : Plan ω) :
    (l.replace p).plans = l.plans.map Plan.cancel ++ [p] := by
  rw [← plans_cancel]
  unfold replace plans
  rw [List.append_assoc]

theorem cancelled_cancel (l : Lane ω β) : l.cancel.Cancelled := by
  intro p hp
  rw [plans_cancel] at hp
  obtain ⟨q, -, rfl⟩ := List.mem_map.1 hp
  rfl

theorem isEmpty_cancel (l : Lane ω β) : l.cancel.isEmpty = l.isEmpty := by
  rw [Bool.eq_iff_iff, isEmpty_iff, isEmpty_iff, plans_cancel, List.map_eq_nil_iff]

theorem cancelled_of_isEmpty {l : Lane ω β} (h : l.isEmpty = true) : l.Cancelled := by
  intro p hp
  rw [isEmpty_iff.1 h] at hp
  cases hp

end Plans

/-! ## Loops by number -/

/-- The number of the loop whose invocation is in progress. -/
def invocation? (l : TimedLane) : Option Nat :=
  match l.current with
  | some ⟨p, .busy _ _⟩ => some p.work.number
  | _ => none

/-- Only loops of such numbers are not cancelled. -/
def LiveOnly (ok : Nat → Prop) (l : TimedLane) : Prop :=
  ∀ p ∈ l.plans, p.cancelled = false → ok p.work.number

variable {l : TimedLane} {ok : Nat → Prop}

theorem Cancelled.liveOnly (h : l.Cancelled) : l.LiveOnly ok := by
  intro p hp hc
  rw [h p hp] at hc
  cases hc

theorem LiveOnly.cancelled (h : l.LiveOnly fun _ => False) : l.Cancelled := by
  intro p hp
  cases hc : p.cancelled with
  | true => rfl
  | false => exact (h p hp hc).elim

/-- Of a lane with a new loop, only that one is not cancelled. -/
theorem liveOnly_replace {p : Plan Run} (hp : ok p.work.number) : (l.replace p).LiveOnly ok := by
  intro q hq hc
  rw [plans_replace] at hq
  rcases List.mem_append.1 hq with hq | hq
  · obtain ⟨r, -, rfl⟩ := List.mem_map.1 hq
    cases hc
  · rw [List.mem_singleton.1 hq]
    exact hp

theorem invocation?_cancel (l : TimedLane) : l.cancel.invocation? = l.invocation? := by
  obtain ⟨current, queued⟩ := l
  rcases current with _ | ⟨p, _ | _⟩ <;> rfl

theorem invocation?_replace (l : TimedLane) (p : Plan Run) :
    (l.replace p).invocation? = l.invocation? := l.invocation?_cancel

theorem invocation?_eq_none_of_isEmpty (h : l.isEmpty = true) : l.invocation? = none := by
  unfold isEmpty at h
  unfold invocation?
  cases hc : l.current with
  | none => rfl
  | some c =>
    rw [hc] at h
    cases h

end Lane

namespace Moment

/-! ## Moves -/

/-- What a move of a lane can be. -/
inductive Move (horizon : Nat) (m : Moment) : Moment → Prop where
  /-- A queued loop ends before it has begun. -/
  | drop {p : Plan Run} {q : List (Plan Run)} : m.lane = ⟨none, p :: q⟩ → p.cancelled = true →
      Move horizon m { m with lane := ⟨none, q⟩ }
  | begin {p : Plan Run} {q : List (Plan Run)} : m.lane = ⟨none, p :: q⟩ → p.cancelled = false →
      Move horizon m { m with lane := ⟨some ⟨p, .waiting (instant m.now)⟩, q⟩ }
  /-- A cancelled loop ends between two invocations. -/
  | quit {p : Plan Run} {deadline : Nat} {q : List (Plan Run)} :
      m.lane = ⟨some ⟨p, .waiting deadline⟩, q⟩ → p.cancelled = true →
      Move horizon m { m with lane := ⟨none, q⟩ }
  | start {p : Plan Run} {deadline t : Nat} {q : List (Plan Run)} :
      m.lane = ⟨some ⟨p, .waiting deadline⟩, q⟩ → p.cancelled = false →
      t = max m.now (wakeTime deadline) → t ≤ horizon →
      Move horizon m ⟨t,
        ⟨some ⟨{ p with work := p.work.next },
          .busy (nextDeadline p.period deadline (instant t)) (p.work.effort.job t)⟩, q⟩,
        ⟨t, p.work.number, true⟩ :: m.past⟩
  | finish {p : Plan Run} {next t : Nat} {job : Job} {q : List (Plan Run)} :
      m.lane = ⟨some ⟨p, .busy next job⟩, q⟩ → job.breaks = false →
      t = max m.now job.done → t ≤ horizon →
      Move horizon m ⟨t, ⟨some ⟨p, .waiting next⟩, q⟩, ⟨t, p.work.number, false⟩ :: m.past⟩
  /-- An invocation breaks down, and its loop with it. -/
  | fail {p : Plan Run} {next t : Nat} {job : Job} {q : List (Plan Run)} :
      m.lane = ⟨some ⟨p, .busy next job⟩, q⟩ → job.breaks = true →
      t = max m.now job.done → t ≤ horizon →
      Move horizon m { m with now := t, lane := ⟨none, q⟩ }

variable {horizon : Nat} {m m' : Moment}

/-- A lane makes no other moves. -/
theorem move_of_step? (h : m.step? horizon = some m') : Move horizon m m' := by
  obtain ⟨now, ⟨current, queued⟩, past⟩ := m
  unfold step? at h
  rcases current with _ | ⟨p, deadline | ⟨next, job⟩⟩ <;> simp only at h
  · rcases queued with _ | ⟨p, q⟩
    · cases h
    · cases h
      unfold Lane.beginNext
      simp only
      cases hp : p.cancelled with
      | true => exact .drop rfl hp
      | false => exact .begin rfl hp
  · split at h
    · next hp => cases h; exact .quit rfl hp
    · next hp =>
      split at h
      · next ht => cases h; exact .start rfl (Bool.eq_false_iff.2 hp) rfl ht
      · cases h
  · split at h
    · next ht =>
      split at h
      · next hb => cases h; exact .fail rfl hb rfl ht
      · next hb => cases h; exact .finish rfl (Bool.eq_false_iff.2 hb) rfl ht
    · cases h

theorem Move.ne_empty (h : Move horizon m m') : m.lane.isEmpty = false := by
  cases h with
  | drop hl | begin hl | quit hl | start hl | finish hl | fail hl => rw [hl]; rfl

theorem Move.le_now (h : Move horizon m m') : m.now ≤ m'.now := by
  cases h with
  | drop | begin | quit => exact Nat.le_refl _
  | start hl hp ht | finish hl hb ht | fail hl hb ht => exact ht ▸ Nat.le_max_left ..

/-- No loop comes to life. -/
theorem Move.liveOnly {ok : Nat → Prop} (h : Move horizon m m') (hl : m.lane.LiveOnly ok) :
    m'.lane.LiveOnly ok := by
  cases h with
  | drop hm hp | begin hm hp | quit hm hp | finish hm hb ht hh | fail hm hb ht hh =>
    rw [hm] at hl
    intro q hq
    exact hl q (by simp_all [Lane.plans])
  | @start p _ _ _ hm hp =>
    rw [hm] at hl
    intro q hq hc
    rcases List.mem_cons.1 hq with rfl | hq
    · exact hl p List.mem_cons_self hp
    · exact hl q (List.mem_cons_of_mem _ hq) hc

/-- Who starts an invocation is not cancelled and was in none. -/
theorem Move.of_start (h : Move horizon m m') (hm : m.past = []) {e : Happening}
    (he : e ∈ m'.past) (hs : e.isStart = true) :
    m'.past = [e] ∧ m.lane.invocation? = none ∧ m'.lane.invocation? = some e.run ∧
      ∀ ok, m.lane.LiveOnly ok → ok e.run := by
  cases h with
  | drop | begin | quit | fail => rw [hm] at he; cases he
  | finish =>
    rw [hm] at he
    rw [List.mem_singleton.1 he] at hs
    cases hs
  | @start p _ _ q hl hp =>
    rw [hm] at he
    rw [List.mem_singleton.1 he, hl, hm]
    exact ⟨rfl, rfl, rfl, fun ok hok => hok p List.mem_cons_self hp⟩

/-- A move that starts no invocation leaves none in progress. -/
theorem Move.invocation?_eq_none (h : Move horizon m m')
    (hs : ∀ e ∈ m'.past, e.isStart = false) : m'.lane.invocation? = none := by
  cases h with
  | start => cases hs _ List.mem_cons_self
  | drop | begin | quit | finish | fail => rfl

/-! ## All moves up to the horizon -/

theorem rank_lt_of_move (h : Move horizon m m') : m'.rank horizon < m.rank horizon := by
  unfold rank
  cases h with
  | drop hl | begin hl | quit hl | fail hl =>
    rw [hl]
    simp only [Option.map, Option.getD, List.length_cons, phaseRank, Nat.add_mul]
    omega
  | @start p deadline t q hl hp ht hh =>
    have hnext : deadline < nextDeadline p.period deadline (instant t) := lt_nextDeadline p.period_pos
    have hdue : deadline ≤ instant horizon := by
      refine Nat.le_trans (le_instant_wakeTime deadline) (instant_mono ?_)
      omega
    rw [hl]
    simp only [Option.map, Option.getD, phaseRank]
    omega
  | finish hl =>
    rw [hl]
    simp only [Option.map, Option.getD, phaseRank]
    omega

theorem step?_moves_eq_none {limit : Nat} (h : m.rank horizon ≤ limit) :
    (m.moves horizon limit).step? horizon = none := by
  induction limit generalizing m with
  | zero =>
    cases hs : m.step? horizon with
    | none => exact hs
    | some m' =>
      have := rank_lt_of_move (move_of_step? hs)
      omega
  | succ limit ih =>
    unfold moves
    cases hs : m.step? horizon with
    | none => exact hs
    | some m' =>
      have := rank_lt_of_move (move_of_step? hs)
      exact ih (by omega)

/-- What holds at the beginning and after each move holds after all of them. -/
theorem moves_induction {P : Moment → Prop} (hP : ∀ m m', P m → Move horizon m m' → P m')
    (limit : Nat) (h : P m) : P (m.moves horizon limit) := by
  induction limit generalizing m with
  | zero => exact h
  | succ limit ih =>
    unfold moves
    cases hs : m.step? horizon with
    | none => exact h
    | some m' => exact ih (hP m m' h (move_of_step? hs))

/-- All loops are cancelled, and an invocation in progress ends by then. -/
structure Closing (horizon : Nat) (m : Moment) : Prop where
  cancelled : m.lane.Cancelled
  now_le : m.now ≤ horizon
  done_le : ∀ job, m.lane.job? = some job → job.done ≤ horizon

theorem Closing.move (h : Closing horizon m) (hm : Move horizon m m') : Closing horizon m' where
  cancelled := (hm.liveOnly h.cancelled.liveOnly).cancelled
  now_le := by
    cases hm with
    | drop | begin | quit => exact h.now_le
    | start hl hp ht hh => exact hh
    | finish hl hb ht hh | fail hl hb ht hh => exact hh
  done_le := by
    intro job hj
    cases hm with
    | start hl hp =>
      have hc := h.cancelled _ (by rw [hl]; exact List.mem_cons_self)
      rw [hp] at hc
      cases hc
    | drop | begin | quit | finish | fail => cases hj

/-- Such a lane can move on until it is empty. -/
theorem Closing.isEmpty (h : Closing horizon m) (hs : m.step? horizon = none) :
    m.lane.isEmpty = true := by
  obtain ⟨hc, hn, hd⟩ := h
  obtain ⟨now, ⟨current, queued⟩, past⟩ := m
  unfold step? at hs
  rcases current with _ | ⟨p, deadline | ⟨next, job⟩⟩ <;> simp only at hs
  · rcases queued with _ | ⟨p, q⟩
    · rfl
    · cases hs
  · rw [if_pos (hc p List.mem_cons_self)] at hs
    cases hs
  · have hj := hd job rfl
    rw [if_pos (Nat.max_le.2 ⟨hn, hj⟩)] at hs
    split at hs <;> cases hs

theorem Closing.isEmpty_moves (h : Closing horizon m) :
    (m.moves horizon (m.rank horizon)).lane.isEmpty = true := by
  have hall : Closing horizon (m.moves horizon (m.rank horizon)) :=
    moves_induction (fun _ _ hm hs => hm.move hs) _ h
  exact hall.isEmpty (step?_moves_eq_none (Nat.le_refl _))

/-! ## The past only grows -/

/-- What has happened does not matter for what comes. -/
theorem step?_past (horizon now : Nat) (l : TimedLane) (past : List Happening) :
    (Moment.mk now l past).step? horizon =
      ((Moment.mk now l []).step? horizon).map fun m => { m with past := m.past ++ past } := by
  obtain ⟨current, queued⟩ := l
  rcases current with _ | ⟨p, deadline | ⟨next, job⟩⟩
  · rcases queued with _ | ⟨p, q⟩ <;> rfl
  · unfold step?
    simp only
    split
    · rfl
    · split <;> rfl
  · unfold step?
    simp only
    split
    · split <;> rfl
    · rfl

theorem moves_past (horizon limit now : Nat) (l : TimedLane) (past : List Happening) :
    (Moment.mk now l past).moves horizon limit =
      { (Moment.mk now l []).moves horizon limit with
        past := ((Moment.mk now l []).moves horizon limit).past ++ past } := by
  induction limit generalizing now l past with
  | zero => rfl
  | succ limit ih =>
    unfold moves
    rw [step?_past]
    cases (Moment.mk now l []).step? horizon with
    | none => rfl
    | some m =>
      simp only [Option.map_some]
      rw [ih m.now m.lane (m.past ++ past), ih m.now m.lane m.past, List.append_assoc]

end Moment

/-- A lane whose loops are all cancelled ends once its invocation has. -/
theorem Lane.isEmpty_advance {l : TimedLane} {now target : Nat} (hc : l.Cancelled)
    (hn : now ≤ target) (hd : ∀ job, l.job? = some job → job.done ≤ target) :
    (l.advance now target).1.isEmpty = true := by
  have h : (Moment.mk now l []).Closing target := ⟨hc, hn, hd⟩
  unfold Lane.advance
  exact h.isEmpty_moves

end MetricRelay.Schedule
