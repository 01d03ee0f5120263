import Mathlib.Data.List.Basic
import Mathlib.Data.List.Induction
import MetricRelay.Proofs.Series.Order
import MetricRelay.Series

/-!
# Grouping of samples

`Series.ofSamples` is the list of the label sets that occur (`labelSets`), each with the points of
its samples in order of time (`ofSamples_eq`), where points of one time stand as they came.
-/

namespace MetricRelay

/-! ## Distinct items in order of appearance -/

section

variable {α : Type} [BEq α] [LawfulBEq α] {l : List α} {a : α}

theorem eraseDups_snoc_of_mem (h : a ∈ l) : (l ++ [a]).eraseDups = l.eraseDups := by
  rw [List.eraseDups_append]
  simp [List.removeAll, h]

theorem eraseDups_snoc_of_not_mem (h : a ∉ l) : (l ++ [a]).eraseDups = l.eraseDups ++ [a] := by
  rw [List.eraseDups_append]
  simp [List.removeAll, h, List.eraseDups_cons]

theorem nodup_eraseDups (l : List α) : l.eraseDups.Nodup := by
  induction l using List.reverseRecOn with
  | nil => exact List.nodup_nil
  | append_singleton l a ih =>
    by_cases h : a ∈ l
    · rw [eraseDups_snoc_of_mem h]
      exact ih
    · rw [eraseDups_snoc_of_not_mem h]
      refine List.nodup_append.2 ⟨ih, by simp, fun b hb c hc hbc => h ?_⟩
      rw [← List.mem_singleton.1 hc, ← hbc]
      exact List.mem_eraseDups.1 hb

end

/-- Items are counted by their keys. -/
theorem length_flatMap_eq_countP {α β κ : Type} [DecidableEq κ] {f : α → κ} {group : κ → List β}
    {l : List α} (hgroup : ∀ k, (group k).length = l.countP fun a => f a = k) {keys : List κ}
    (h : keys.Nodup) : (keys.flatMap group).length = l.countP fun a => f a ∈ keys := by
  induction keys with
  | nil => simp
  | cons k rest ih =>
    have ⟨hk, hrest⟩ := List.nodup_cons.1 h
    rw [List.flatMap_cons, List.length_append, ih hrest, hgroup]
    clear ih hgroup
    induction l with
    | nil => rfl
    | cons a l ih =>
      simp only [List.countP_cons, List.mem_cons, decide_eq_true_eq] at ih ⊢
      by_cases ha : f a = k
      · have hnot : f a ∉ rest := fun hmem => hk (ha ▸ hmem)
        rw [if_pos ha, if_neg hnot, if_pos (.inl ha)]
        omega
      · simp only [ha, if_false, false_or]
        omega

/-- The point of a sample that has a time. -/
def Sample.point? (s : Sample) : Option Point :=
  s.timestamp.map fun t => ⟨s.value.toBinary64, t.millis⟩

namespace Series

/-! ## Series by label set -/

/-- The label sets of the samples that have one, in order of first appearance. -/
def labelSets (samples : List Sample) : List (List Label) :=
  ((samples.map wireLabels).filter (· ≠ [])).eraseDups

/-- The point of a sample; one without a time is taken as observed now. -/
def pointAt (now : Timestamp) (s : Sample) : Point :=
  ⟨s.value.toBinary64, (s.timestamp.getD now).millis⟩

/-- The points of the samples of one label set, as they came. -/
def pointsAt (now : Timestamp) (samples : List Sample) (labels : List Label) : List Point :=
  (samples.filter fun s => wireLabels s = labels).map (pointAt now)

/-- The series of the samples, before their points are put in order. -/
def grouped (now : Timestamp) (samples : List Sample) : List Series :=
  (labelSets samples).map fun labels => ⟨labels, pointsAt now samples labels⟩

theorem mem_labelSets {samples : List Sample} {labels : List Label} :
    labels ∈ labelSets samples ↔ labels ≠ [] ∧ ∃ s ∈ samples, wireLabels s = labels := by
  unfold labelSets
  rw [List.mem_eraseDups, List.mem_filter, List.mem_map]
  simp [and_comm]

theorem nodup_labelSets (samples : List Sample) : (labelSets samples).Nodup := nodup_eraseDups _

theorem labelSets_snoc_of_mem {samples : List Sample} {s : Sample}
    (h : wireLabels s = [] ∨ wireLabels s ∈ labelSets samples) :
    labelSets (samples ++ [s]) = labelSets samples := by
  unfold labelSets at h ⊢
  rw [List.map_append, List.filter_append]
  rcases h with h | h
  · simp [h]
  · have hmem := List.mem_eraseDups.1 h
    have hs : ([s].map wireLabels).filter (· ≠ []) = [wireLabels s] := by
      simpa using (List.mem_filter.1 hmem).2
    rw [hs, eraseDups_snoc_of_mem hmem]

theorem labelSets_snoc_of_not_mem {samples : List Sample} {s : Sample} (hne : wireLabels s ≠ [])
    (h : wireLabels s ∉ labelSets samples) :
    labelSets (samples ++ [s]) = labelSets samples ++ [wireLabels s] := by
  unfold labelSets at h ⊢
  have hs : ([s].map wireLabels).filter (· ≠ []) = [wireLabels s] := by simp [hne]
  rw [List.map_append, List.filter_append, hs]
  exact eraseDups_snoc_of_not_mem (mt List.mem_eraseDups.2 h)

theorem pointsAt_snoc (now : Timestamp) (samples : List Sample) (s : Sample) (labels : List Label) :
    pointsAt now (samples ++ [s]) labels =
      pointsAt now samples labels ++ if wireLabels s = labels then [pointAt now s] else [] := by
  unfold pointsAt
  rw [List.filter_append, List.map_append]
  by_cases h : wireLabels s = labels <;> simp [h]

theorem addPoint_of_not_mem {series : List Series} {labels : List Label}
    (h : labels ∉ series.map Series.labels) (p : Point) :
    addPoint series labels p = series ++ [⟨labels, [p]⟩] := by
  induction series with
  | nil => rfl
  | cons s r ih =>
    have hne : s.labels ≠ labels := fun hs => h (hs ▸ List.mem_cons_self)
    rw [addPoint, if_neg hne, ih fun hr => h (List.mem_cons_of_mem _ hr), List.cons_append]

/-- A point goes to the series of its label set, which is the last one if it is new. -/
theorem addPoint_map {sets : List (List Label)} (points : List Label → List Point)
    (hsets : sets.Nodup) (labels : List Label) (p : Point) :
    addPoint (sets.map fun l => ⟨l, points l⟩) labels p =
      if labels ∈ sets then
        sets.map fun l => ⟨l, points l ++ if labels = l then [p] else []⟩
      else (sets.map fun l => ⟨l, points l⟩) ++ [⟨labels, [p]⟩] := by
  induction sets with
  | nil => rfl
  | cons l rest ih =>
    have ⟨hl, hrest⟩ := List.nodup_cons.1 hsets
    rw [List.map_cons, addPoint]
    by_cases h : l = labels
    · subst h
      have hkeep : ∀ k ∈ rest, (⟨k, points k⟩ : Series) =
          ⟨k, points k ++ if l = k then [p] else []⟩ := by
        intro k hk
        have hlk : l ≠ k := fun h => hl (h ▸ hk)
        rw [if_neg hlk, List.append_nil]
      simp [List.map_congr_left hkeep]
    · have hne : labels ≠ l := Ne.symm h
      rw [if_neg h, ih hrest]
      by_cases hmem : labels ∈ rest <;> simp [hmem, hne]

theorem addSample_grouped (now : Timestamp) (samples : List Sample) (s : Sample) :
    addSample now (grouped now samples) s = grouped now (samples ++ [s]) := by
  unfold addSample grouped
  simp only [pointsAt_snoc]
  by_cases hnil : wireLabels s = []
  · rw [if_pos hnil, labelSets_snoc_of_mem (.inl hnil)]
    refine List.map_congr_left fun l hl => ?_
    have hne : wireLabels s ≠ l := fun h => (mem_labelSets.1 hl).1 (h ▸ hnil)
    rw [if_neg hne, List.append_nil]
  · rw [if_neg hnil, addPoint_map _ (nodup_labelSets samples)]
    by_cases hmem : wireLabels s ∈ labelSets samples
    · rw [if_pos hmem, labelSets_snoc_of_mem (.inr hmem)]
      rfl
    · have hempty : pointsAt now samples (wireLabels s) = [] := by
        unfold pointsAt
        rw [List.map_eq_nil_iff, List.filter_eq_nil_iff]
        intro t ht hw
        exact hmem (mem_labelSets.2 ⟨hnil, t, ht, of_decide_eq_true hw⟩)
      have hkeep : ∀ l ∈ labelSets samples, (⟨l, pointsAt now samples l⟩ : Series) =
          ⟨l, pointsAt now samples l ++ if wireLabels s = l then [pointAt now s] else []⟩ := by
        intro l hl
        have hne : wireLabels s ≠ l := fun h => hmem (h ▸ hl)
        rw [if_neg hne, List.append_nil]
      rw [if_neg hmem, labelSets_snoc_of_not_mem hnil hmem, List.map_append,
        List.map_congr_left hkeep]
      simp [hempty, pointAt]

theorem foldl_addSample (now : Timestamp) (samples : List Sample) :
    samples.foldl (addSample now) [] = grouped now samples := by
  induction samples using List.reverseRecOn with
  | nil => rfl
  | append_singleton samples s ih =>
    rw [List.foldl_append, ih]
    exact addSample_grouped now samples s

/-- One series a label set, with the points of its samples in order of time. -/
theorem ofSamples_eq (now : Timestamp) (samples : List Sample) :
    ofSamples now samples =
      (labelSets samples).map fun labels => sortPoints ⟨labels, pointsAt now samples labels⟩ := by
  unfold ofSamples
  rw [foldl_addSample, grouped, List.map_map]
  rfl

theorem labels_ofSamples (now : Timestamp) (samples : List Sample) :
    (ofSamples now samples).map Series.labels = labelSets samples := by
  rw [ofSamples_eq, List.map_map]
  exact List.map_id _

theorem stableOrder_sortPoints (s : Series) :
    StableOrder (· ≤ ·) Point.time s.points s.sortPoints.points :=
  stableOrder_mergeSort (· ≤ ·) (fun _ _ _ => Int64.le_trans) Int64.le_total Point.time s.points

/-- Samples that have a time have the points they say. -/
theorem pointsAt_of_stamped {samples : List Sample}
    (h : ∀ s ∈ samples, s.timestamp.isSome = true) (now : Timestamp) (labels : List Label) :
    pointsAt now samples labels =
      (samples.filter fun s => wireLabels s = labels).filterMap Sample.point? := by
  unfold pointsAt
  rw [← List.filterMap_eq_map]
  refine List.filterMap_congr fun s hs => ?_
  obtain ⟨t, ht⟩ := Option.isSome_iff_exists.1 (h s (List.mem_filter.1 hs).1)
  simp [Sample.point?, pointAt, ht]

/-! ## How many points there are -/

theorem length_points (now : Timestamp) (samples : List Sample) :
    ((ofSamples now samples).flatMap Series.points).length =
      samples.countP fun s => wireLabels s ≠ [] := by
  have hlength : ∀ labels, (sortPoints ⟨labels, pointsAt now samples labels⟩).points.length =
      samples.countP fun s => wireLabels s = labels := by
    intro labels
    rw [(stableOrder_sortPoints _).perm.length_eq, pointsAt, List.length_map,
      List.countP_eq_length_filter]
  rw [ofSamples_eq, List.flatMap_map]
  rw [length_flatMap_eq_countP hlength (nodup_labelSets samples)]
  refine List.countP_congr fun s hs => ?_
  simp only [decide_eq_true_eq, mem_labelSets]
  exact ⟨fun h => h.1, fun h => ⟨h, s, hs, rfl⟩⟩

/-- Samples without a label set leave no trace. -/
theorem ofSamples_filter (now : Timestamp) (samples : List Sample) :
    ofSamples now (samples.filter fun s => wireLabels s ≠ []) = ofSamples now samples := by
  have hstep : ∀ (series : List Series) (s : Sample),
      (if decide (wireLabels s ≠ []) = true then addSample now series s else series) =
        addSample now series s := by
    intro series s
    by_cases h : wireLabels s = [] <;> simp [addSample, h]
  unfold ofSamples
  rw [List.foldl_filter]
  simp only [hstep]

/-- Samples that have a time become one series a label set, in order of first appearance; each has
exactly the points of its samples, by time, and those of one time as they came. -/
theorem ofSamples_by_labels {samples : List Sample}
    (h : ∀ s ∈ samples, s.timestamp.isSome = true) (now : Timestamp) :
    (ofSamples now samples).map Series.labels = labelSets samples ∧
    ((ofSamples now samples).map Series.labels).Nodup ∧
    (∀ series ∈ ofSamples now samples, StableOrder (· ≤ ·) Point.time
      ((samples.filter fun s => wireLabels s = series.labels).filterMap Sample.point?)
      series.points) ∧
    ofSamples now (samples.filter fun s => wireLabels s ≠ []) = ofSamples now samples ∧
    ((ofSamples now samples).flatMap Series.points).length =
      samples.countP fun s => wireLabels s ≠ [] := by
  refine ⟨labels_ofSamples now samples, ?_, fun series hseries => ?_, ofSamples_filter now samples,
    length_points now samples⟩
  · rw [labels_ofSamples]
    exact nodup_labelSets samples
  · rw [ofSamples_eq] at hseries
    obtain ⟨labels, -, rfl⟩ := List.mem_map.1 hseries
    rw [← pointsAt_of_stamped h now]
    exact stableOrder_sortPoints ⟨labels, pointsAt now samples labels⟩

/-- Two label sets in turn, late points before early ones, and a sample without labels. -/
def mixed : List Sample :=
  [{ source := "m", metric := "up", value := .int 1, timestamp := some ⟨2, 0⟩ },
    { source := "m", metric := "x", value := .uint 2, timestamp := some ⟨1, 0⟩ },
    { source := "", metric := "", value := .int 3, timestamp := some ⟨1, 0⟩ },
    { source := "m", metric := "up", value := .int 4, timestamp := some ⟨1, 0⟩ },
    { source := "m", metric := "up", value := .int 5, timestamp := some ⟨2, 999⟩ }]

theorem ofSamples_mixed :
    (∀ s ∈ mixed, s.timestamp.isSome = true) ∧
    (ofSamples ⟨0, 0⟩ mixed).map Series.labels = labelSets mixed ∧
    labelSets mixed = [[⟨metricNameLabel, "m_up"⟩], [⟨metricNameLabel, "m_x"⟩]] ∧
    (∀ series ∈ ofSamples ⟨0, 0⟩ mixed, StableOrder (· ≤ ·) Point.time
      ((mixed.filter fun s => wireLabels s = series.labels).filterMap Sample.point?)
      series.points) ∧
    ((ofSamples ⟨0, 0⟩ mixed).flatMap Series.points).length = 4 := by
  have h : ∀ s ∈ mixed, s.timestamp.isSome = true := by decide
  obtain ⟨hlabels, -, hpoints, -, hcount⟩ := ofSamples_by_labels h ⟨0, 0⟩
  exact ⟨h, hlabels, by decide +kernel, hpoints, hcount.trans (by decide +kernel)⟩

end Series

end MetricRelay
