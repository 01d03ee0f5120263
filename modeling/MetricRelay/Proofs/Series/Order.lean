/-!
# Stable order

`StableOrder` says that a list is another one put in order of its keys, items of one key as they
stood. Merge sort makes it (`stableOrder_mergeSort`), and whoever looks for the first item of a key
finds the same before and after (`StableOrder.find?`).
-/

namespace MetricRelay

variable {α κ : Type} [DecidableEq κ]

/-- `sorted` has the items of `items`, each as often, in order of their keys; items of one key stand
as they stood. -/
structure StableOrder (le : κ → κ → Prop) (key : α → κ) (items sorted : List α) : Prop where
  perm : sorted.Perm items
  ordered : sorted.Pairwise fun a b => le (key a) (key b)
  stable : ∀ k, sorted.filter (fun a => key a = k) = items.filter fun a => key a = k

theorem stableOrder_mergeSort (le : κ → κ → Prop) [DecidableRel le]
    (htrans : ∀ a b c, le a b → le b c → le a c) (htotal : ∀ a b, le a b ∨ le b a) (key : α → κ)
    (items : List α) :
    StableOrder le key items (items.mergeSort fun a b => decide (le (key a) (key b))) := by
  have htrans' : ∀ a b c : α, decide (le (key a) (key b)) = true →
      decide (le (key b) (key c)) = true → decide (le (key a) (key c)) = true := by
    simpa using fun a b c => htrans (key a) (key b) (key c)
  have htotal' : ∀ a b : α,
      (decide (le (key a) (key b)) || decide (le (key b) (key a))) = true := by
    simpa using fun a b => htotal (key a) (key b)
  have hperm := List.mergeSort_perm items fun a b => decide (le (key a) (key b))
  refine ⟨hperm, ?_, fun k => ?_⟩
  · exact (List.pairwise_mergeSort htrans' htotal' items).imp of_decide_eq_true
  · -- The items of one key are in order already, so sorting keeps them as a sublist.
    have hequal : (items.filter fun a => key a = k).Pairwise
        fun a b => decide (le (key a) (key b)) = true := by
      refine List.pairwise_of_forall_mem_list fun a ha b hb => decide_eq_true ?_
      rw [of_decide_eq_true (List.mem_filter.1 ha).2, of_decide_eq_true (List.mem_filter.1 hb).2]
      exact (htotal k k).elim id id
    have hsub := (List.sublist_mergeSort htrans' htotal' hequal List.filter_sublist).filter
      fun a => key a = k
    rw [List.filter_filter] at hsub
    simp only [Bool.and_self] at hsub
    exact (hsub.eq_of_length (hperm.filter _).length_eq.symm).symm

theorem StableOrder.find? {le : κ → κ → Prop} {key : α → κ} {items sorted : List α}
    (h : StableOrder le key items sorted) (k : κ) :
    sorted.find? (fun a => key a = k) = items.find? fun a => key a = k := by
  rw [← List.head?_filter, h.stable, List.head?_filter]

end MetricRelay
