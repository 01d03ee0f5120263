import MetricRelay.Proofs.Writer.Session

/-!
# Closing ends

At an instant every move of the drain loop lowers its `rank`, so `settle` makes all moves there are;
once the loop is told to close, no move raises what it has `ahead`, and each instant it wakes at lowers
it. So `close` always comes to its end, with the loop stopped (`close_stops`).
-/

namespace MetricRelay.Writer

variable {net : Network} {now : Nat} {w w' : Writer}

theorem size_popMany_lt (h : w.queue.toList ≠ []) :
    (w.queue.popMany w.batchLimit).2.size < w.queue.size := by
  have hpos := w.batchLimit_pos
  have hlen : 0 < w.queue.size := by
    rw [← BoundedQueue.length_toList]
    exact List.length_pos_iff.2 h
  rw [BoundedQueue.size_popMany]
  omega

theorem lt_idleUntil (w : Writer) (now : Nat) : now < w.idleUntil now := by
  unfold idleUntil
  omega

/-! ## Moves at an instant -/

/-- How many moves the loop can make at an instant: two for a batch, and some for where it is. -/
def rank (now : Nat) (w : Writer) : Nat :=
  2 * w.queue.size + match w.drain with
  | .stopped => 0
  | .flushing _ => 1
  | .flushingBatch .. => 2
  | .looking => 3
  | .delivering .. => 4
  | .idle wake => if w.closing ∨ wake ≤ now then 4 else 0

theorem rank_lookAtQueue (h : w.drain = .looking) (hc : w.closing = false) :
    (w.lookAtQueue net now).rank now < w.rank now := by
  unfold lookAtQueue
  by_cases he : w.queue.toList = []
  · have hwake := w.lt_idleUntil now
    rw [popBatch_of_empty net he]
    unfold rank
    simp only [h, hc, Bool.false_eq_true, false_or, Nat.not_le.2 hwake, ↓reduceIte]
    omega
  · have hlt := size_popMany_lt he
    rw [popBatch_of_ne net he]
    unfold rank
    simp only [h]
    omega

theorem rank_flushQueue {deadline : Nat} (h : w.drain = .flushing deadline) :
    (w.flushQueue net now deadline).rank now < w.rank now := by
  unfold flushQueue
  by_cases he : w.queue.toList = []
  · rw [popBatch_of_empty net he]
    unfold rank
    simp only [h]
    omega
  · have hlt := size_popMany_lt he
    rw [popBatch_of_ne net he]
    unfold rank
    simp only [h]
    omega

theorem rank_lt_of_step? (h : w.step? net now = some w') : w'.rank now < w.rank now := by
  unfold step? at h
  split at h
  case h_1 hd =>
    split at h
    · cases h
      unfold rank
      simp only [hd]
      omega
    · next hc =>
      cases h
      exact rank_lookAtQueue hd (Bool.eq_false_iff.2 hc)
  case h_2 wake hd =>
    split at h
    · next hwake =>
      cases h
      unfold rank
      simp only [hd, if_pos hwake]
      omega
    · cases h
  case h_3 f done hd =>
    split at h
    · cases h
      unfold rank record
      simp only [hd]
      omega
    · cases h
  case h_4 deadline hd =>
    cases h
    exact rank_flushQueue hd
  case h_5 deadline f done hd =>
    split at h
    · cases h
      unfold rank record
      simp only [hd]
      omega
    · split at h
      · cases h
        unfold rank
        simp only [hd]
        omega
      · cases h
  case h_6 => cases h

theorem step?_moves_eq_none {limit : Nat} (h : w.rank now ≤ limit) :
    (w.moves net now limit).step? net now = none := by
  induction limit generalizing w with
  | zero =>
    cases hs : w.step? net now with
    | none => exact hs
    | some w' =>
      have hlt := rank_lt_of_step? hs
      omega
  | succ limit ih =>
    unfold moves
    cases hs : w.step? net now with
    | none => exact hs
    | some w' =>
      have hlt := rank_lt_of_step? hs
      exact ih (by omega)

theorem rank_le (w : Writer) (now : Nat) : w.rank now ≤ 2 * w.queue.size + 4 := by
  unfold rank
  cases w.drain with
  | idle wake =>
    simp only
    split <;> omega
  | _ => simp only; omega

/-- Nothing is left to do at the instant. -/
theorem step?_settle (net : Network) (now : Nat) (w : Writer) :
    (w.settle net now).step? net now = none := by
  have hle := w.rank_le now
  exact step?_moves_eq_none (by omega)

/-! ## Instants on the way to the end -/

/-- How many instants can lie ahead of a loop that is told to close: one for each batch, and one for a
batch in hand. -/
def ahead (w : Writer) : Nat :=
  match w.drain with
  | .stopped => 0
  | .flushing _ => w.queue.size
  | .looking | .flushingBatch .. => w.queue.size + 1
  | .idle _ | .delivering .. => w.queue.size + 2

theorem ahead_le (w : Writer) : w.ahead ≤ w.queue.size + 2 := by
  unfold ahead
  cases w.drain <;> simp only <;> omega

/-- No move raises it, and one that ends a delivery lowers it. -/
theorem ahead_of_step? (hc : w.closing = true) (h : w.step? net now = some w') :
    w'.closing = true ∧ w'.ahead ≤ w.ahead ∧ (w.drain.fanOut?.isSome → w'.ahead < w.ahead) := by
  unfold step? at h
  split at h
  case h_1 hd =>
    rw [if_pos hc] at h
    cases h
    refine ⟨hc, ?_, by simp [hd, DrainPhase.fanOut?]⟩
    unfold ahead
    simp only [hd]
    omega
  case h_2 wake hd =>
    rw [if_pos (.inl hc)] at h
    cases h
    refine ⟨hc, ?_, by simp [hd, DrainPhase.fanOut?]⟩
    unfold ahead
    simp only [hd]
    omega
  case h_3 f done hd =>
    split at h
    · cases h
      have hlt : { w.record f with drain := .looking }.ahead < w.ahead := by
        unfold ahead record
        simp only [hd]
        omega
      exact ⟨hc, Nat.le_of_lt hlt, fun _ => hlt⟩
    · cases h
  case h_4 deadline hd =>
    cases h
    unfold flushQueue
    by_cases he : w.queue.toList = []
    · rw [popBatch_of_empty net he]
      refine ⟨hc, ?_, by simp [hd, DrainPhase.fanOut?]⟩
      unfold ahead
      exact Nat.zero_le _
    · have hlt := size_popMany_lt he
      rw [popBatch_of_ne net he]
      refine ⟨hc, ?_, by simp [hd, DrainPhase.fanOut?]⟩
      unfold ahead
      simp only [hd]
      omega
  case h_5 deadline f done hd =>
    split at h
    · cases h
      have hlt : { w.record f with drain := .flushing deadline }.ahead < w.ahead := by
        unfold ahead record
        simp only [hd]
        omega
      exact ⟨hc, Nat.le_of_lt hlt, fun _ => hlt⟩
    · split at h
      · cases h
        have hlt : { w with drain := .stopped }.ahead < w.ahead := by
          unfold ahead
          simp only [hd]
          omega
        exact ⟨hc, Nat.le_of_lt hlt, fun _ => hlt⟩
      · cases h
  case h_6 => cases h

theorem ahead_moves (hc : w.closing = true) (limit : Nat) :
    (w.moves net now limit).closing = true ∧ (w.moves net now limit).ahead ≤ w.ahead := by
  induction limit generalizing w with
  | zero => exact ⟨hc, Nat.le_refl _⟩
  | succ limit ih =>
    unfold moves
    cases hs : w.step? net now with
    | none => exact ⟨hc, Nat.le_refl _⟩
    | some w' =>
      obtain ⟨hc', hle, -⟩ := ahead_of_step? hc hs
      obtain ⟨hcm, hlem⟩ := ih hc'
      exact ⟨hcm, Nat.le_trans hlem hle⟩

/-- What is left to wait for, once nothing is left to do at the instant. -/
theorem stopped_or_wakes (hc : w.closing = true) (h : w.step? net now = none) :
    w.drain = .stopped ∨ w.drain.fanOut?.isSome ∧ ∃ t, w.wake? = some t ∧
      ∃ w', w.step? net t = some w' := by
  unfold step? at h
  split at h
  case h_1 =>
    rw [if_pos hc] at h
    cases h
  case h_2 =>
    rw [if_pos (.inl hc)] at h
    cases h
  case h_3 f done hd =>
    refine .inr ⟨by rw [hd]; rfl, done, by rw [wake?, hd], ?_⟩
    unfold step?
    rw [hd]
    exact ⟨_, if_pos (Nat.le_refl _)⟩
  case h_4 => cases h
  case h_5 deadline f done hd =>
    refine .inr ⟨by rw [hd]; rfl, min deadline done, by rw [wake?, hd], ?_⟩
    unfold step?
    rw [hd]
    by_cases hle : done ≤ deadline
    · rw [Nat.min_eq_right hle]
      exact ⟨_, if_pos (Nat.le_refl _)⟩
    · refine ⟨{ w with drain := .stopped }, ?_⟩
      simp only
      rw [if_neg (by omega), if_pos (by omega)]
  case h_6 hd => exact .inl hd

/-- An instant the loop wakes at brings it nearer to the end. -/
theorem ahead_settle_lt (hc : w.closing = true) (hf : w.drain.fanOut?.isSome) {t : Nat}
    (ht : ∃ w', w.step? net t = some w') : (w.settle net t).ahead < w.ahead := by
  obtain ⟨w', hs⟩ := ht
  obtain ⟨hc', -, hlt⟩ := ahead_of_step? hc hs
  unfold settle
  rw [show 3 * w.queue.size + 6 = (3 * w.queue.size + 5) + 1 from rfl, moves, hs]
  exact Nat.lt_of_le_of_lt (ahead_moves hc' _).2 (hlt hf)

theorem finish_stops {limit : Nat} (hc : w.closing = true)
    (hl : (w.settle net now).ahead < limit) : (w.finish net limit now).2.drain = .stopped := by
  induction limit generalizing w now with
  | zero => omega
  | succ limit ih =>
    have hcs : (w.settle net now).closing = true := (ahead_moves hc _).1
    unfold finish
    simp only
    rcases stopped_or_wakes hcs (step?_settle net now w) with hs | ⟨hf, t, ht, hstep⟩
    · rw [wake?, hs]
      exact hs
    · rw [ht]
      exact ih hcs (Nat.lt_of_lt_of_le (ahead_settle_lt hcs hf hstep) (Nat.le_of_lt_succ hl))

/-- Closing comes to its end. -/
theorem close_stops (net : Network) (now : Nat) (w : Writer) :
    (w.close net now).2.drain = .stopped := by
  have hc : { w with closing := true }.closing = true := rfl
  have hle := ahead_le { w with closing := true }
  unfold close
  refine finish_stops hc ?_
  unfold settle
  exact Nat.lt_succ_of_le (Nat.le_trans (ahead_moves hc _).2 hle)

end MetricRelay.Writer
