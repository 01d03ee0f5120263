import MetricRelay.Proofs.Series.Grouping
import MetricRelay.Proofs.Series.Precedence
import MetricRelay.Proofs.Writer.Session

/-!
# Series and the names of their metrics

A sample is dropped only if it has neither the name of a metric nor a label that goes out
(`wireLabels_eq_nil_iff`). One that is `Nameless`, without the first but with the second, becomes a
series that no metric is named in. It is the only source of such series: `Series.forall_named_iff` for
a list of samples, `Writer.queued_named_or_nameless` for the queue over any run of a writer.
-/

namespace MetricRelay

namespace WireName

theorem sanitize_eq_empty_iff {raw : String} : sanitize raw = "" ↔ raw = "" :=
  ⟨fun h => by_contra fun hne => sanitize_ne_empty hne h, by rintro rfl; rfl⟩

/-- The source does not stand in for the metric. -/
theorem metric_eq_empty_iff {source m : String} : metric source m = "" ↔ m = "" := by
  unfold metric
  split
  · exact sanitize_eq_empty_iff
  · split
    · next hm => exact iff_of_true rfl hm
    · next hs hm =>
      refine iff_of_false (sanitize_ne_empty fun hjoined => hs ?_) hm
      have hchars := congrArg String.toList hjoined
      simp at hchars

end WireName

/-! ## Labels beside the name -/

/-- The label goes out: it has a key and a value, and does not take the place of the metric's name. -/
def GoesOut (k v : String) : Prop := k ≠ "" ∧ v ≠ "" ∧ WireName.sanitize k ≠ metricNameLabel

/-- A sample that no metric is named in, but that has a label that goes out. -/
structure Sample.Nameless (s : Sample) : Prop where
  metric : s.metric = ""
  labelled : ∃ k v, s.labels.get? k = some v ∧ GoesOut k v

theorem ownLabel?_of_goesOut {k v : String} (h : GoesOut k v) :
    ownLabel? k v = some ⟨WireName.sanitize k, v⟩ := by
  obtain ⟨hk, hv, hname⟩ := h
  unfold ownLabel?
  exact if_neg (by simp [WireName.sanitize_eq_empty_iff, hk, hv, hname])

theorem goesOut_of_ownLabel? {k v : String} {a : Label} (h : ownLabel? k v = some a) :
    GoesOut k v ∧ a.name ≠ metricNameLabel := by
  unfold ownLabel? at h
  simp only at h
  split at h
  · cases h
  · next hok =>
    cases h
    simp only [not_or, WireName.sanitize_eq_empty_iff] at hok
    exact ⟨hok, hok.2.2⟩

theorem ownLabels_eq_nil_iff {s : Sample} :
    ownLabels s = [] ↔ ¬∃ k v, s.labels.get? k = some v ∧ GoesOut k v := by
  unfold ownLabels
  rw [List.filterMap_eq_nil_iff]
  constructor
  · rintro hnone ⟨k, v, hget, hgoes⟩
    have hskipped := hnone (k, v) (Table.mem_of_value? hget)
    rw [ownLabel?_of_goesOut hgoes] at hskipped
    cases hskipped
  · intro hnone e he
    cases ho : ownLabel? e.1 e.2 with
    | none => rfl
    | some a =>
      exact absurd ⟨e.1, e.2, Table.get?_of_mem he, (goesOut_of_ownLabel? ho).1⟩ hnone

theorem nameLabels_eq_nil_iff {s : Sample} : nameLabels s = [] ↔ s.metric = "" := by
  unfold nameLabels
  simp only
  split
  · next h => exact iff_of_true rfl (WireName.metric_eq_empty_iff.1 h)
  · next h => exact iff_of_false (by simp) fun hm => h (WireName.metric_eq_empty_iff.2 hm)

theorem wireLabels_eq_nil {s : Sample} : wireLabels s = [] ↔ nameLabels s ++ ownLabels s = [] := by
  constructor
  · intro h
    refine List.eq_nil_iff_forall_not_mem.2 fun a ha => ?_
    have hnone := find?_wireLabels s a.name
    rw [h, List.find?_nil] at hnone
    simpa using List.find?_eq_none.1 hnone.symm a ha
  · intro h
    unfold wireLabels
    rw [h, List.mergeSort_nil, firstOfName]
    simp

/-- What is dropped: samples that have neither a name nor a label. -/
theorem wireLabels_eq_nil_iff {s : Sample} :
    wireLabels s = [] ↔ s.metric = "" ∧ ¬∃ k v, s.labels.get? k = some v ∧ GoesOut k v := by
  rw [wireLabels_eq_nil, List.append_eq_nil_iff, nameLabels_eq_nil_iff, ownLabels_eq_nil_iff]

/-- The name of the metric goes out as it is, if there is one; no label takes its place. -/
theorem find?_wireLabels_metricName (s : Sample) :
    (wireLabels s).find? (fun a => a.name = metricNameLabel) = (nameLabels s).head? := by
  have hown : (ownLabels s).find? (fun a => a.name = metricNameLabel) = none := by
    refine List.find?_eq_none.2 fun a ha => ?_
    obtain ⟨e, -, he⟩ := List.mem_filterMap.1 ha
    simpa using (goesOut_of_ownLabel? he).2
  rw [find?_wireLabels, List.find?_append, hown, Option.or_none]
  unfold nameLabels
  simp only
  split <;> simp

/-! ## Series that name a metric -/

namespace Series

/-- The series says which metric it is of. -/
def Named (series : Series) : Prop :=
  ∃ name, name ≠ "" ∧ series.label? metricNameLabel = some name

theorem label?_metricName {series : Series} {s : Sample} (h : wireLabels s = series.labels) :
    series.label? metricNameLabel = (nameLabels s).head?.map Label.value := by
  rw [label?, ← h, find?_wireLabels_metricName]

theorem named_iff {series : Series} {s : Sample} (h : wireLabels s = series.labels) :
    series.Named ↔ s.metric ≠ "" := by
  unfold Named
  rw [label?_metricName h]
  unfold nameLabels
  simp only
  split
  · next hm => simp [WireName.metric_eq_empty_iff.1 hm]
  · next hm => simp [mt WireName.metric_eq_empty_iff.2 hm, hm]

theorem exists_sample {now : Timestamp} {samples : List Sample} {series : Series}
    (h : series ∈ ofSamples now samples) :
    series.labels ≠ [] ∧ ∃ s ∈ samples, wireLabels s = series.labels := by
  have hlabels : series.labels ∈ labelSets samples := by
    rw [← labels_ofSamples now]
    exact List.mem_map_of_mem h
  exact mem_labelSets.1 hlabels

/-- A series without a name comes from nameless samples. -/
theorem named_or_nameless {now : Timestamp} {samples : List Sample} {series : Series}
    (h : series ∈ ofSamples now samples) :
    series.Named ∨ ¬series.Named ∧ ∃ s ∈ samples, s.Nameless ∧ wireLabels s = series.labels := by
  obtain ⟨hne, s, hs, hlabels⟩ := exists_sample h
  by_cases hm : s.metric = ""
  · refine .inr ⟨fun hnamed => (named_iff hlabels).1 hnamed hm, s, hs, ⟨hm, ?_⟩, hlabels⟩
    by_contra hnone
    exact hne (hlabels ▸ wireLabels_eq_nil_iff.2 ⟨hm, hnone⟩)
  · exact .inl ((named_iff hlabels).2 hm)

/-- All series of a list of samples have names exactly if none of the samples is nameless. -/
theorem forall_named_iff (now : Timestamp) (samples : List Sample) :
    (∀ series ∈ ofSamples now samples, series.Named) ↔ ∀ s ∈ samples, ¬s.Nameless := by
  constructor
  · intro hall s hs hnameless
    have hne : wireLabels s ≠ [] := fun h => (wireLabels_eq_nil_iff.1 h).2 hnameless.labelled
    have hset : wireLabels s ∈ (ofSamples now samples).map Series.labels := by
      rw [labels_ofSamples]
      exact mem_labelSets.2 ⟨hne, s, hs, rfl⟩
    obtain ⟨series, hseries, hlabels⟩ := List.mem_map.1 hset
    exact (named_iff hlabels.symm).1 (hall series hseries) hnameless.metric
  · intro hnone series hseries
    rcases named_or_nameless hseries with hnamed | ⟨-, s, hs, hnameless, -⟩
    · exact hnamed
    · exact absurd hnameless (hnone s hs)

end Series

/-! ## In the queue -/

namespace Writer

/-- The samples that the host writes in a run. -/
def written (actions : List Action) : List Sample :=
  actions.flatMap fun
    | .write _ samples => samples
    | _ => []

variable {net : Network} {settings : WriterSettings} {s : Session}

theorem mem_queue_writeSamples {w : Writer} {now : Timestamp} {samples : List Sample}
    {series : Series} (h : series ∈ (w.writeSamples now samples).2.queue.toList) :
    series ∈ w.queue.toList ∨ series ∈ Series.ofSamples now samples := by
  rcases w.writeSamples_cases now samples with ⟨-, hw⟩ | ⟨-, q, hq, -, hw⟩ | ⟨-, hw⟩
  · rw [hw] at h
    exact .inl h
  · rw [hw, hq] at h
    exact List.mem_append.1 h
  · rw [hw] at h
    exact .inl h

/-- The drain loop queues nothing. -/
theorem Move.mem_queue {w w' : Writer} (h : Move net w w') {series : Series}
    (hs : series ∈ w'.queue.toList) : series ∈ w.queue.toList := by
  cases h with
  | take =>
    rw [BoundedQueue.toList_popMany] at hs
    exact List.mem_of_mem_drop hs
  | turn | stop | complete | cut => exact hs

/-- Only a write puts series in the queue. -/
theorem mem_queue_act {a : Action} {series : Series}
    (h : series ∈ (s.act net a).writer.queue.toList) :
    series ∈ s.writer.queue.toList ∨
      ∃ now samples, a = .write now samples ∧ series ∈ Series.ofSamples now samples := by
  cases a with
  | write now samples =>
    exact (mem_queue_writeSamples h).imp_right fun hnew => ⟨now, samples, rfl, hnew⟩
  | register name options =>
    obtain ⟨d, hd⟩ := s.writer.register_writer name options net.readUrl
    simp only [Session.act, hd] at h
    exact .inl h
  | deregister name =>
    obtain ⟨d, hd⟩ := s.writer.deregister_writer name
    simp only [Session.act, hd] at h
    exact .inl h
  | close | send => exact .inl h
  | sent =>
    simp only [Session.act] at h
    split at h <;> exact .inl h
  | drain now =>
    simp only [Session.act] at h
    split at h
    · next w hw =>
      rw [Session.moved_writer] at h
      exact .inl ((move_of_step? hw).mem_queue h)
    · exact .inl h

theorem mem_queue_run {actions : List Action} {series : Series}
    (h : series ∈ (s.run net actions).writer.queue.toList) :
    series ∈ s.writer.queue.toList ∨
      ∃ now samples, .write now samples ∈ actions ∧ series ∈ Series.ofSamples now samples := by
  induction actions generalizing s with
  | nil => exact .inl h
  | cons a more ih =>
    rcases ih h with hbefore | ⟨now, samples, hmem, hseries⟩
    · refine (mem_queue_act hbefore).imp_right ?_
      rintro ⟨now, samples, rfl, hseries⟩
      exact ⟨now, samples, List.mem_cons_self, hseries⟩
    · exact .inr ⟨now, samples, List.mem_cons_of_mem a hmem, hseries⟩

/-- The series of a list of samples all have names exactly if no sample is nameless, and at every point
of every run of a writer a queued series has a name, or was made of a nameless sample. -/
theorem queued_named_or_nameless (net : Network) (settings : WriterSettings)
    (actions : List Action) :
    (∀ now samples, (∀ series ∈ Series.ofSamples now samples, series.Named) ↔
      ∀ x ∈ samples, ¬x.Nameless) ∧
    ∀ series ∈ ((Session.start settings).run net actions).writer.queue.toList,
      series.Named ∨
        ¬series.Named ∧ ∃ x ∈ written actions, x.Nameless ∧ wireLabels x = series.labels := by
  refine ⟨Series.forall_named_iff, fun series hseries => ?_⟩
  rcases mem_queue_run hseries with hempty | ⟨now, samples, hwrite, hmade⟩
  · cases hempty
  · refine (Series.named_or_nameless hmade).imp_right ?_
    rintro ⟨hnot, x, hx, hnameless, hlabels⟩
    exact ⟨hnot, x, List.mem_flatMap.2 ⟨_, hwrite, hx⟩, hnameless, hlabels⟩

/-- A sample without a metric that has a label all the same. -/
def unnamed : Sample :=
  { source := "m", metric := "", value := .int 1, labels := Table.ofList [("zone", "a")] }

/-- A sample without the name of a metric need not be dropped: its series is queued without one. -/
theorem nameless_series_queued :
    ¬∀ (settings : WriterSettings) (actions : List Action),
      ∀ series ∈ ((Session.start settings).run .unreachable actions).writer.queue.toList,
        series.Named := by
  intro h
  obtain ⟨name, -, hname⟩ := h { queueCapacity := 1 } [.write ⟨0, 0⟩ [unnamed]]
    ⟨[⟨"zone", "a"⟩], [⟨(Value.int 1).toBinary64, 0⟩]⟩ (by decide +kernel)
  cases hname

end Writer

end MetricRelay
