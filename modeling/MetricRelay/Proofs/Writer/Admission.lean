import Mathlib.Data.Finset.Card
import Mathlib.Data.Finset.Dedup
import MetricRelay.Proofs.Series.Grouping
import MetricRelay.Proofs.Writer.Accounting

/-!
# Admission by label sets

What is queued are series, so a write is admitted or not by the number of different label sets that
its samples have (`variety`), not by the number of samples. `Admission` says what a write does to the
queue and to the counters; samples without a label set take no room.
-/

namespace MetricRelay

namespace Series

/-- How many different label sets the samples have; the empty one does not count. -/
def variety (samples : List Sample) : Nat := ((samples.map wireLabels).toFinset.erase []).card

theorem length_ofSamples (now : Timestamp) (samples : List Sample) :
    (ofSamples now samples).length = variety samples := by
  have hsets : (labelSets samples).toFinset = (samples.map wireLabels).toFinset.erase [] := by
    ext labels
    rw [List.mem_toFinset, mem_labelSets, Finset.mem_erase, List.mem_toFinset, List.mem_map]
  have hcard := List.toFinset_card_of_nodup (nodup_labelSets samples)
  rw [variety, ← hsets, hcard, ← labels_ofSamples now, List.length_map]

/-- Samples that cannot be put on the wire make no series. -/
theorem variety_eq_zero {samples : List Sample} (h : ∀ s ∈ samples, wireLabels s = []) :
    variety samples = 0 := by
  rw [variety, Finset.card_eq_zero, Finset.eq_empty_iff_forall_notMem]
  intro labels hmem
  obtain ⟨hne, hmem⟩ := Finset.mem_erase.1 hmem
  obtain ⟨s, hs, rfl⟩ := List.mem_map.1 (List.mem_toFinset.1 hmem)
  exact hne (h s hs)

end Series

namespace Writer

/-- What a write of the samples answers, and what it makes of the writer. -/
structure Admission (w : Writer) (now : Timestamp) (samples : List Sample) (admitted : Bool)
    (w' : Writer) : Prop where
  admitted_iff : admitted = true ↔
    samples = [] ∨ w.queue.size + Series.variety samples ≤ w.queue.capacity
  queued : admitted = true → w'.queue.toList = w.queue.toList ++ Series.ofSamples now samples
  refused : admitted = false → w'.queue = w.queue
  nothing : samples = [] → w' = w
  counted : samples ≠ [] → w'.counters = { w.counters with
    totalCount := w.counters.totalCount + Series.variety samples
    queueSize := w'.queue.size
    failCount := w.counters.failCount + if admitted then 0 else 1
    failTotal := w.counters.failTotal + if admitted then 0 else Series.variety samples }
  capacity : w'.queue.capacity = w.queue.capacity
  frame : w' = { w with queue := w'.queue, counters := w'.counters }

theorem admission_writeSamples (w : Writer) (now : Timestamp) (samples : List Sample) :
    Admission w now samples (w.writeSamples now samples).1 (w.writeSamples now samples).2 := by
  have hlength := Series.length_ofSamples now samples
  unfold writeSamples
  by_cases hs : samples = []
  · rw [if_pos hs]
    subst hs
    constructor <;> simp [Series.ofSamples]
  · rw [if_neg hs]
    by_cases hfits : w.queue.size + (Series.ofSamples now samples).length ≤ w.queue.capacity
    · obtain ⟨q, hpush, hq, hcapacity⟩ := BoundedQueue.pushMany_of_le hfits
      rw [hlength] at hfits
      constructor <;> simp [hpush, hs, hfits, hq, hcapacity, hlength, Counters.offered]
    · have hpush := BoundedQueue.pushMany_of_lt (Nat.not_le.1 hfits)
      rw [hlength] at hfits
      constructor <;> simp [hpush, hs, hfits, hlength, Counters.offered]

/-- A write is admitted if it is empty, or if the queue has room for one series for each label set of its
samples; the series then come behind all that is queued. If not, the queue stays as it is. Either way
the counters grow by that number of series. Samples that cannot be put on the wire take no room: by
themselves they are admitted even if the queue is full. -/
theorem admitted_by_label_sets {net : Network} {settings : WriterSettings} {s : Session}
    (h : Reachable net settings s) (now : Timestamp) (samples : List Sample) :
    Admission s.writer now samples (s.writer.writeSamples now samples).1
      (s.writer.writeSamples now samples).2 ∧
    s.writer.queue.capacity = settings.queueCapacity ∧
    ((∀ x ∈ samples, wireLabels x = []) → (s.writer.writeSamples now samples).1 = true) := by
  have ha : Accounts net s := accounts_of_steps (accounts_start settings) (orderly_start settings) h
  have hadmission := admission_writeSamples s.writer now samples
  refine ⟨hadmission, by rw [ha.capacity, h.settings]; rfl, fun hnone => ?_⟩
  refine hadmission.admitted_iff.2 (.inr ?_)
  rw [Series.variety_eq_zero hnone]
  exact ha.size

/-- As many series as the queue can have. -/
def stuffed : Session :=
  (Session.start { queueCapacity := 2 }).run .unreachable [.write ⟨0, 0⟩ [probe "a", probe "b"]]

/-- Two samples of one label set do not fit any more; one that cannot be put on the wire does. -/
theorem stuffed_admits_unsampleable :
    (stuffed.writer.writeSamples ⟨0, 0⟩ [probe "a", probe "a"]).2.counters =
        ⟨3, 1, 1, 2, 0, 0⟩ ∧
      (stuffed.writer.writeSamples ⟨0, 0⟩ [probe "a", probe "a"]).1 = false ∧
      (stuffed.writer.writeSamples ⟨0, 0⟩ [probe ""]).1 = true := by
  have hreach : Reachable .unreachable { queueCapacity := 2 } stuffed := steps_run ..
  obtain ⟨hrefused, hcapacity, -⟩ :=
    admitted_by_label_sets hreach ⟨0, 0⟩ [probe "a", probe "a"]
  obtain ⟨-, -, hfree⟩ := admitted_by_label_sets hreach ⟨0, 0⟩ [probe ""]
  have hno : (stuffed.writer.writeSamples ⟨0, 0⟩ [probe "a", probe "a"]).1 = false := by
    decide +kernel
  refine ⟨?_, hno, hfree (by decide +kernel)⟩
  rw [hrefused.counted (by simp), hno]
  decide +kernel

end Writer

end MetricRelay
