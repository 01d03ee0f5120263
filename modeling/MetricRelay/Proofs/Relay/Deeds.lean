import MetricRelay.Proofs.Relay.Timing

/-!
# What is noted of emitters

Of all that happens to a relay it is noted when an emitter is started, when one emits, and when a shutdown
returns (`deeds`). Only the emitter started last emits, and none after a shutdown: the notes are `Orderly`,
and stay so with whatever is added to them.
-/

namespace MetricRelay

namespace Relay

variable {σ : Type} {r r' : Relay σ}

/-! ## What is noted -/

inductive Deed where
  /-- The emitter of that number is started. -/
  | started (number time : Nat) (interval : Duration)
  /-- The emitter of that number hands a report to the writer. -/
  | emitted (number time : Nat)
  /-- A shutdown returns. -/
  | shutDown
  deriving DecidableEq, Repr

namespace Deed

/-- When a deed is an emission of that emitter: its time. -/
def emission? (n : Nat) : Deed → Option Nat
  | emitted m t => if m = n then some t else none
  | _ => none

/-- Emitters are numbered in the order of their starts. Once one is started those before it emit no more,
and none does after a shutdown. -/
def Allows : Deed → Deed → Prop
  | started m _ _, started n _ _ => m < n
  | started m _ _, emitted n _ => m ≤ n
  | shutDown, emitted _ _ => False
  | _, _ => True

end Deed

/-- The times at which an emitter emits, in order. -/
def emissions (n : Nat) (log : List Deed) : List Nat := log.filterMap (Deed.emission? n)

variable {log : List Deed} {d : Deed} {m n t : Nat} {interval : Duration}

theorem emissions_append (n : Nat) (log log' : List Deed) :
    emissions n (log ++ log') = emissions n log ++ emissions n log' :=
  List.filterMap_append

theorem mem_emissions : t ∈ emissions n log ↔ .emitted n t ∈ log := by
  rw [emissions, List.mem_filterMap]
  constructor
  · rintro ⟨d, hd, ht⟩
    cases d with
    | emitted m t' =>
      obtain ⟨rfl, heq⟩ := Option.ite_none_right_eq_some.1 ht
      cases heq
      exact hd
    | _ => cases ht
  · exact fun h => ⟨_, h, if_pos rfl⟩

theorem emissions_eq_nil : emissions n log = [] ↔ ∀ t, .emitted n t ∉ log := by
  simp only [List.eq_nil_iff_forall_not_mem, mem_emissions]

theorem exists_mem_of_emissions (h : emissions n log ≠ []) : ∃ t, .emitted n t ∈ log := by
  obtain ⟨t, ht⟩ := List.exists_mem_of_ne_nil _ h
  exact ⟨t, mem_emissions.1 ht⟩

/-- What happens is noted: who acts first tells whose emission it is, and an emission is seen by the samples
it offers. -/
def deeds (e : Event σ) (r r' : Relay σ) : List Deed :=
  match e, r.ready with
  | .selfMetrics _ interval, _ => [.started r.emitters r.clock interval]
  | .move, .emitter n :: _ =>
    if r'.writer.counters.totalCount = r.writer.counters.totalCount then [] else [.emitted n r.clock]
  | .move, [] => if (r.call matches .closing) && (r'.call matches .idle) then [.shutDown] else []
  | _, _ => []

theorem deeds_of_emitter {more : List Agent} (hready : r.ready = .emitter n :: more) :
    deeds .move r r' = if r'.writer.counters.totalCount = r.writer.counters.totalCount then []
      else [.emitted n r.clock] := by
  unfold deeds
  rw [hready]

theorem deeds_of_nobody (hready : r.ready = []) :
    deeds .move r r' =
      if (r.call matches .closing) && (r'.call matches .idle) then [.shutDown] else [] := by
  unfold deeds
  rw [hready]

theorem deeds_of_other {a : Agent} {more : List Agent} (hready : r.ready = a :: more)
    (ha : ∀ n, a ≠ .emitter n) : deeds .move r r' = [] := by
  unfold deeds
  rw [hready]
  cases a with
  | emitter n => exact absurd rfl (ha n)
  | _ => rfl

theorem deeds_of_same_call (hready : r.ready = []) (hcall : r'.call = r.call) :
    deeds .move r r' = [] := by
  rw [deeds_of_nobody hready, hcall]
  cases r.call <;> rfl

/-! ## Order -/

/-- The order of what is noted, and what it says about the relay. -/
structure Orderly (r : Relay σ) (log : List Deed) : Prop where
  pairwise : log.Pairwise Deed.Allows
  numbered : ∀ n, (∃ t interval, .started n t interval ∈ log) ↔ n < r.emitters
  emitted : ∀ n t, .emitted n t ∈ log → n < r.emitters
  last : ∀ e, r.emitter = some e → e.number + 1 = r.emitters
  present : r.shutDown = false → 0 < r.emitters → r.emitter ≠ none
  closing : r.call = .closing → r.shutDown = true
  returned : .shutDown ∈ log → r.shutDown = true

theorem orderly_new (settings : WriterSettings) (globals : Labels) :
    Orderly (Relay.new settings globals : Relay σ) [] where
  pairwise := .nil
  numbered n := by simp [new]
  emitted _ _ h := absurd h List.not_mem_nil
  last _ h := nomatch h
  present _ h := absurd h (Nat.lt_irrefl 0)
  closing h := nomatch h
  returned h := absurd h List.not_mem_nil

theorem Orderly.spares (h : Orderly r log) (hs : Spares r.timing r'.timing) : Orderly r' log where
  pairwise := h.pairwise
  numbered n := (h.numbered n).trans (by rw [show r'.emitters = r.emitters from hs.emitters])
  emitted n t hn := by
    rw [show r'.emitters = r.emitters from hs.emitters]
    exact h.emitted n t hn
  last e he := by
    rw [show r'.emitters = r.emitters from hs.emitters]
    exact h.last e (hs.emitter.symm.trans he)
  present hopen hpos := by
    rw [show r'.emitter = r.emitter from hs.emitter]
    have hpos : 0 < r.emitters := Nat.lt_of_lt_of_eq hpos hs.emitters
    exact h.present (hs.shutDown.symm.trans hopen) hpos
  closing hcall := hs.shutDown.trans (h.closing (hs.closing hcall))
  returned hmem := hs.shutDown.trans (h.returned hmem)

theorem Orderly.startSelfMetrics (h : Orderly r log) (region : String) (interval : Duration) :
    Orderly (r.startSelfMetrics region interval) (log ++ [.started r.emitters r.clock interval]) where
  pairwise := by
    refine List.pairwise_append.2 ⟨h.pairwise, List.pairwise_singleton _ _, fun d hd d' hd' => ?_⟩
    rw [List.mem_singleton.1 hd']
    cases d with
    | started n t i => exact (h.numbered n).1 ⟨t, i, hd⟩
    | _ => exact trivial
  numbered n := by
    show _ ↔ n < r.emitters + 1
    rw [Nat.lt_succ_iff_lt_or_eq, ← h.numbered n]
    constructor
    · rintro ⟨t, i, hmem⟩
      rcases List.mem_append.1 hmem with hmem | hmem
      · exact .inl ⟨t, i, hmem⟩
      · cases List.mem_singleton.1 hmem
        exact .inr rfl
    · rintro (⟨t, i, hmem⟩ | rfl)
      · exact ⟨t, i, List.mem_append_left _ hmem⟩
      · exact ⟨_, _, List.mem_append_right _ (List.mem_singleton_self _)⟩
  emitted n t hmem := by
    rcases List.mem_append.1 hmem with hmem | hmem
    · exact Nat.lt_succ_of_lt (h.emitted n t hmem)
    · cases List.mem_singleton.1 hmem
  last e he := by
    cases he
    rfl
  present _ _ := Option.some_ne_none _
  closing := h.closing
  returned hmem := by
    rcases List.mem_append.1 hmem with hmem | hmem
    · exact h.returned hmem
    · cases List.mem_singleton.1 hmem

theorem Orderly.closeWriter (h : Orderly r log) : Orderly r.closeWriter log where
  pairwise := h.pairwise
  numbered := h.numbered
  emitted := h.emitted
  last _ he := nomatch he
  present hopen := nomatch hopen
  closing _ := rfl
  returned _ := rfl

/-- A shutdown that has closed the writer returns. -/
theorem Orderly.returns (h : Orderly r log) (hcall : r.call = .closing) (answer : Except Error Unit) :
    Orderly (r.finish answer) (log ++ [.shutDown]) where
  pairwise := by
    refine List.pairwise_append.2 ⟨h.pairwise, List.pairwise_singleton _ _, fun d _ d' hd' => ?_⟩
    rw [List.mem_singleton.1 hd']
    cases d <;> exact trivial
  numbered n := by
    show _ ↔ n < r.emitters
    rw [← h.numbered n]
    simp
  emitted n t hmem := h.emitted n t (by simpa using hmem)
  last := h.last
  present := h.present
  closing hidle := nomatch hidle
  returned _ := h.closing hcall

/-- The emitter there is emits. -/
theorem Orderly.emits (h : Orderly r log) {e : Emitter} {due : Option Nat} {writer : Writer}
    {alarms : List Alarm} {ready : List Agent} (he : r.emitter = some e) (hopen : r.shutDown = false)
    (time : Nat) :
    Orderly { r with writer, emitter := some { e with due }, alarms, ready }
      (log ++ [.emitted e.number time]) where
  pairwise := by
    refine List.pairwise_append.2 ⟨h.pairwise, List.pairwise_singleton _ _, fun d hd d' hd' => ?_⟩
    rw [List.mem_singleton.1 hd']
    cases d with
    | started n t i =>
      have hlt := (h.numbered n).1 ⟨t, i, hd⟩
      rw [← h.last e he] at hlt
      exact Nat.le_of_lt_succ hlt
    | emitted => exact trivial
    | shutDown => exact absurd (h.returned hd) (Bool.eq_false_iff.1 hopen)
  numbered n := by
    show _ ↔ n < r.emitters
    rw [← h.numbered n]
    simp
  emitted n t hmem := by
    rcases List.mem_append.1 hmem with hmem | hmem
    · exact h.emitted n t hmem
    · cases List.mem_singleton.1 hmem
      exact Nat.lt_of_succ_le (Nat.le_of_eq (h.last e he))
  last x hx := by
    cases hx
    exact h.last e he
  present _ _ := Option.some_ne_none _
  closing := h.closing
  returned hmem := h.returned (by simpa using hmem)

end Relay

end MetricRelay
