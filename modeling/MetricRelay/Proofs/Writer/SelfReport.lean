import MetricRelay.Proofs.Binary64.Order
import MetricRelay.Proofs.Series.Naming
import MetricRelay.Proofs.Writer.Admission
import MetricRelay.SelfMetrics

/-!
# Reports of a writer about itself

A report passes through the queue whose counters it shows. Its samples are of different metrics, so
whatever labels the normalizer adds, each becomes a series of its own (`report_eq`); the writer counts
them like any others, once the counters have been read (`reports_emit`). `Reporting` is a run of a
writer with reports in between: each shows counters that have only grown since (`Reporting.shows`), and
a greater counter does not become a smaller double, so no report shows less than an earlier one.
-/

namespace MetricRelay

/-- An item is found by a key that it shares with no other. -/
theorem find?_of_nodup_keys {α κ : Type} [DecidableEq κ] {f : α → κ} {l : List α} {a : α}
    (h : (l.map f).Nodup) (ha : a ∈ l) : l.find? (fun b => f b = f a) = some a := by
  cases hfind : l.find? fun b => f b = f a with
  | none => simpa using List.find?_eq_none.1 hfind a ha
  | some b =>
    have hb : f b = f a := by simpa using List.find?_some hfind
    rw [List.inj_on_of_nodup_map h (List.mem_of_find?_eq_some hfind) ha hb]

/-! ## Samples of different metrics -/

theorem wireLabels_ne_nil {s : Sample} (h : s.metric ≠ "") : wireLabels s ≠ [] :=
  fun hnil => h (wireLabels_eq_nil_iff.1 hnil).1

namespace Series

/-- The series of a sample that is the only one of its label set. -/
def single (now : Timestamp) (s : Sample) : Series := ⟨wireLabels s, [pointAt now s]⟩

theorem label?_single {s : Sample} (h : s.metric ≠ "") (now : Timestamp) :
    (single now s).label? metricNameLabel = some (WireName.metric s.source s.metric) := by
  have hname : WireName.metric s.source s.metric ≠ "" := mt WireName.metric_eq_empty_iff.1 h
  rw [label?_metricName (s := s) rfl, nameLabels]
  simp [hname]

/-- Samples of different label sets become a series each. -/
theorem ofSamples_of_nodup {samples : List Sample} (hne : ∀ s ∈ samples, wireLabels s ≠ [])
    (hnodup : (samples.map wireLabels).Nodup) (now : Timestamp) :
    ofSamples now samples = samples.map (single now) := by
  have hfold : samples.foldl (addSample now) [] = samples.map (single now) := by
    -- By the last sample: no series so far has its labels, so it begins one.
    induction samples using List.reverseRecOn with
    | nil => rfl
    | append_singleton l s ih =>
      rw [List.map_append, List.nodup_append] at hnodup
      obtain ⟨hl, -, hapart⟩ := hnodup
      have hnew : wireLabels s ∉ (l.map (single now)).map Series.labels := by
        rw [List.map_map]
        exact fun hmem => hapart _ hmem _ List.mem_cons_self rfl
      rw [List.foldl_append, ih (fun t ht => hne t (List.mem_append_left _ ht)) hl,
        List.foldl_cons, List.foldl_nil, addSample, if_neg (hne s (by simp)),
        addPoint_of_not_mem hnew, List.map_append]
      rfl
  rw [ofSamples, hfold, List.map_map]
  refine List.map_congr_left fun s _ => ?_
  simp [sortPoints, single]

/-- Samples that are named differently have different label sets. -/
theorem nodup_wireLabels {samples : List Sample} (hne : ∀ s ∈ samples, s.metric ≠ "")
    (hnames : (samples.map fun s => WireName.metric s.source s.metric).Nodup) :
    (samples.map wireLabels).Nodup := by
  refine List.Nodup.of_map (fun labels => label? ⟨labels, []⟩ metricNameLabel) ?_
  have hlabels : (samples.map wireLabels).map (fun labels => label? ⟨labels, []⟩ metricNameLabel) =
      (samples.map fun s => WireName.metric s.source s.metric).map some := by
    rw [List.map_map, List.map_map]
    exact List.map_congr_left fun s hs => label?_single (hne s hs) default
  rw [hlabels]
  exact hnames.map (Option.some_injective _)

end Series

namespace SelfMetrics

variable {m : SelfMetrics} {now : Timestamp} {process : Option ProcessStats} {w : Writer}

/-! ## What a report consists of -/

/-- The metrics of the counters. -/
def reported : List (String × (Counters → Nat)) :=
  [("metrics_enqueue_sum", Counters.totalCount), ("metrics_enqueue_failed_sum", Counters.failTotal),
    ("metrics_enqueue_failed_count", Counters.failCount), ("current_queue_size", Counters.queueSize),
    ("write_total", Counters.writeTotal), ("write_fail_total", Counters.writeFailTotal)]

/-- All of them but the length of the queue. -/
def cumulative : List (String × (Counters → Nat)) :=
  [("metrics_enqueue_sum", Counters.totalCount), ("metrics_enqueue_failed_sum", Counters.failTotal),
    ("metrics_enqueue_failed_count", Counters.failCount), ("write_total", Counters.writeTotal),
    ("write_fail_total", Counters.writeFailTotal)]

/-- The metrics of a report; those of the process are there if its health is known. -/
def metrics (known : Bool) : List String :=
  reported.map Prod.fst ++ ["up"] ++
    if known then
      ["process_resident_memory_bytes", "process_cpu_usage_percent", "process_uptime_seconds"]
    else []

theorem counterSamples_eq (c : Counters) :
    counterSamples c = reported.map fun e => sample e.1 (.uint (UInt64.ofNat (e.2 c))) := rfl

theorem metrics_samples (c : Counters) (process : Option ProcessStats) :
    (samples c process).map Sample.metric = metrics process.isSome := by
  cases process <;> rfl

theorem eq_sample {c : Counters} {s : Sample} (h : s ∈ samples c process) :
    s = sample s.metric s.value := by
  have hall : samples c process = (samples c process).map fun s => sample s.metric s.value := by
    cases process <;> rfl
  rw [hall] at h
  obtain ⟨t, -, rfl⟩ := List.mem_map.1 h
  rfl

theorem metric_mem {c : Counters} {s : Sample} (h : s ∈ samples c process) :
    s.metric ∈ metrics process.isSome :=
  metrics_samples c process ▸ List.mem_map_of_mem h

theorem mem_samples {c : Counters} {metric : String} {field : Counters → Nat}
    (h : (metric, field) ∈ reported) :
    sample metric (.uint (UInt64.ofNat (field c))) ∈ samples c process := by
  refine List.mem_append_left _ (List.mem_append_left _ ?_)
  rw [counterSamples_eq]
  exact List.mem_map_of_mem (f := fun e => sample e.1 (.uint (UInt64.ofNat (e.2 c)))) h

/-- The names are in the alphabet of the wire. -/
theorem metric_eq {known : Bool} {metric : String} (h : metric ∈ metrics known) :
    metric ≠ "" ∧ WireName.metric source metric = source ++ "_" ++ metric := by
  have hall : ∀ metric ∈ metrics true,
      metric ≠ "" ∧ WireName.metric source metric = source ++ "_" ++ metric := by decide +kernel
  cases known with
  | true => exact hall metric h
  | false => exact hall metric (List.mem_append_left _ (by simpa [metrics] using h))

theorem nodup_metrics (known : Bool) : (metrics known).Nodup := by
  cases known <;> decide

/-- The samples that are written. -/
def outgoing (m : SelfMetrics) (now : Timestamp) (process : Option ProcessStats) (w : Writer) :
    List Sample :=
  (samples w.counters process).map (m.normalizer.stamp now m.labels)

/-- The series that are offered. -/
def report (m : SelfMetrics) (now : Timestamp) (process : Option ProcessStats) (w : Writer) :
    List Series :=
  Series.ofSamples now (m.outgoing now process w)

theorem emit_eq (m : SelfMetrics) (now : Timestamp) (process : Option ProcessStats) (w : Writer) :
    m.emit now process w =
      ((m.outgoing now process w).length, (w.writeSamples now (m.outgoing now process w)).2) := by
  have hdrained : (m.normalizer.process now m.labels
      (SampleList.empty.pushMany (samples w.counters process))).1.drain.1 =
      m.outgoing now process w := by
    refine (m.normalizer.toList_process now m.labels _).trans ?_
    rw [SampleList.toList_pushMany, SampleList.toList_empty, List.nil_append, outgoing]
  unfold emit
  simp only [hdrained]

/-! ## One series a sample -/

theorem name_eq {c : Counters} {s : Sample} (h : s ∈ samples c process) :
    WireName.metric s.source s.metric = source ++ "_" ++ s.metric := by
  rw [congrArg Sample.source (eq_sample h)]
  exact (metric_eq (metric_mem h)).2

theorem nodup_names (c : Counters) (process : Option ProcessStats) :
    ((samples c process).map fun s => source ++ "_" ++ s.metric).Nodup := by
  have hmetrics := nodup_metrics process.isSome
  have hnames : (samples c process).map (fun s => source ++ "_" ++ s.metric) =
      (metrics process.isSome).map fun metric => source ++ "_" ++ metric := by
    rw [← metrics_samples c, List.map_map]
    rfl
  rw [hnames]
  exact hmetrics.map fun _ _ h => (String.append_right_inj _).1 h

theorem report_eq (m : SelfMetrics) (now : Timestamp) (process : Option ProcessStats)
    (w : Writer) :
    m.report now process w =
      (samples w.counters process).map fun s =>
        Series.single now (m.normalizer.stamp now m.labels s) := by
  have hne : ∀ s ∈ m.outgoing now process w, s.metric ≠ "" := by
    intro s hs
    obtain ⟨t, ht, rfl⟩ := List.mem_map.1 hs
    exact (metric_eq (metric_mem ht)).1
  have hnames : ((m.outgoing now process w).map fun s => WireName.metric s.source s.metric).Nodup := by
    have hsame : (m.outgoing now process w).map (fun s => WireName.metric s.source s.metric) =
        (samples w.counters process).map fun s => source ++ "_" ++ s.metric := by
      rw [outgoing, List.map_map]
      refine List.map_congr_left fun s hs => ?_
      -- Normalizing changes neither the source nor the metric.
      show WireName.metric s.source s.metric = source ++ "_" ++ s.metric
      exact name_eq hs
    rw [hsame]
    exact nodup_names w.counters process
  rw [report, Series.ofSamples_of_nodup (fun s hs => wireLabels_ne_nil (hne s hs))
    (Series.nodup_wireLabels hne hnames), outgoing, List.map_map]
  rfl

/-- A series of a metric with the value at the instant of the report, and no other point. -/
structure Carries (now : Timestamp) (s : Sample) (series : Series) : Prop where
  name : series.label? metricNameLabel = some (source ++ "_" ++ s.metric)
  points : series.points = [⟨s.value.toBinary64, now.millis⟩]

theorem carries_single {c : Counters} {s : Sample} (h : s ∈ samples c process)
    (m : SelfMetrics) (now : Timestamp) :
    Carries now s (Series.single now (m.normalizer.stamp now m.labels s)) where
  name := by
    rw [Series.label?_single (s := m.normalizer.stamp now m.labels s)
      (metric_eq (metric_mem h)).1, ← name_eq h]
    rfl
  points := by
    rw [eq_sample h]
    rfl

theorem forall₂_carries (m : SelfMetrics) (now : Timestamp) (process : Option ProcessStats)
    (w : Writer) :
    List.Forall₂ (Carries now) (samples w.counters process) (m.report now process w) := by
  rw [report_eq, List.forall₂_map_right_iff, List.forall₂_same]
  exact fun s hs => carries_single hs m now

theorem length_report (m : SelfMetrics) (now : Timestamp) (process : Option ProcessStats)
    (w : Writer) : (m.report now process w).length = (metrics process.isSome).length := by
  rw [report_eq, List.length_map, ← metrics_samples w.counters, List.length_map]

/-! ## What a report shows -/

/-- The value that a report has of a metric. -/
def reading? (series : List Series) (metric : String) : Option Binary64 :=
  (series.find? fun s => s.label? metricNameLabel = some (source ++ "_" ++ metric)).bind
    fun s => s.points.head?.map Point.value

theorem nodup_labels_report (m : SelfMetrics) (now : Timestamp) (process : Option ProcessStats)
    (w : Writer) :
    ((m.report now process w).map fun s => s.label? metricNameLabel).Nodup := by
  have hlabels : (m.report now process w).map (fun s => s.label? metricNameLabel) =
      ((samples w.counters process).map fun s => source ++ "_" ++ s.metric).map some := by
    rw [report_eq, List.map_map, List.map_map]
    exact List.map_congr_left fun s hs => (carries_single hs m now).name
  rw [hlabels]
  exact (nodup_names w.counters process).map (Option.some_injective _)

theorem reading?_report {s : Sample} (h : s ∈ samples w.counters process) (m : SelfMetrics)
    (now : Timestamp) :
    reading? (m.report now process w) s.metric = some s.value.toBinary64 := by
  have hcarries := carries_single h m now
  have hmem : Series.single now (m.normalizer.stamp now m.labels s) ∈ m.report now process w := by
    rw [report_eq]
    exact List.mem_map_of_mem h
  have hfind := find?_of_nodup_keys (nodup_labels_report m now process w) hmem
  rw [hcarries.name] at hfind
  rw [reading?, hfind, Option.bind_some, hcarries.points]
  rfl

/-- The report has the value of each counter. -/
def Shows (c : Counters) (report : List Series) : Prop :=
  ∀ metric field, (metric, field) ∈ reported → field c < 2 ^ 64 →
    reading? report metric = some (Binary64.ofNat (field c))

theorem shows_report (m : SelfMetrics) (now : Timestamp) (process : Option ProcessStats)
    (w : Writer) : Shows w.counters (m.report now process w) := by
  intro metric field h hfits
  have hmem : sample metric (.uint (UInt64.ofNat (field w.counters))) ∈
      samples w.counters process := mem_samples h
  have hread := reading?_report hmem m now
  rw [sample, Value.toBinary64, UInt64.toNat_ofNat', Nat.mod_eq_of_lt hfits] at hread
  exact hread

/-! ## One report -/

/-- What a report of `n` samples is, and what it makes of the writer. -/
structure Reports (m : SelfMetrics) (now : Timestamp) (process : Option ProcessStats)
    (w : Writer) (n : Nat) (w' : Writer) : Prop where
  written : w' = (w.writeSamples now (m.outgoing now process w)).2
  length : (m.report now process w).length = n ∧ n = if process.isSome then 10 else 7
  series : List.Forall₂ (Carries now) (samples w.counters process) (m.report now process w)
  distinct : ((m.report now process w).map Series.labels).Nodup
  /-- The counters are those before the report. -/
  shows : Shows w.counters (m.report now process w)
  admitted : w.queue.size + n ≤ w.queue.capacity →
    w'.queue.toList = w.queue.toList ++ m.report now process w ∧
    w'.counters = { w.counters with
      totalCount := w.counters.totalCount + n
      queueSize := w.queue.size + n }
  refused : w.queue.capacity < w.queue.size + n →
    w'.queue = w.queue ∧
    w'.counters = { w.counters with
      totalCount := w.counters.totalCount + n
      queueSize := w.queue.size
      failCount := w.counters.failCount + 1
      failTotal := w.counters.failTotal + n }
  capacity : w'.queue.capacity = w.queue.capacity
  frame : w' = { w with queue := w'.queue, counters := w'.counters }

theorem reports_emit (m : SelfMetrics) (now : Timestamp) (process : Option ProcessStats)
    (w : Writer) :
    Reports m now process w (m.emit now process w).1 (m.emit now process w).2 := by
  have hmetrics : (metrics process.isSome).length = if process.isSome then 10 else 7 := by
    cases process <;> rfl
  have hlength : (m.report now process w).length = (m.outgoing now process w).length := by
    rw [report_eq, outgoing, List.length_map, List.length_map]
  have hsome : m.outgoing now process w ≠ [] := by
    rw [← List.length_pos_iff, ← hlength, length_report, hmetrics]
    split <;> omega
  have hvariety : Series.variety (m.outgoing now process w) = (m.outgoing now process w).length := by
    rw [← Series.length_ofSamples now, ← hlength, report]
  have hadmission := Writer.admission_writeSamples w now (m.outgoing now process w)
  have hcounted := hadmission.counted hsome
  rw [hvariety] at hcounted
  rw [emit_eq]
  show Reports m now process w (m.outgoing now process w).length
    (w.writeSamples now (m.outgoing now process w)).2
  refine ⟨rfl, ⟨hlength, ?_⟩, forall₂_carries m now process w, ?_, shows_report m now process w,
    fun hfits => ?_, fun hover => ?_, hadmission.capacity, hadmission.frame⟩
  · rw [← hlength, length_report, hmetrics]
  · rw [report, Series.labels_ofSamples]
    exact Series.nodup_labelSets _
  · have hyes := hadmission.admitted_iff.2 (.inr (hvariety ▸ hfits))
    have hqueue := hadmission.queued hyes
    have hsize := congrArg List.length hqueue
    rw [List.length_append, BoundedQueue.length_toList, BoundedQueue.length_toList,
      Series.length_ofSamples, hvariety] at hsize
    rw [hyes, hsize] at hcounted
    exact ⟨hqueue, hcounted⟩
  · have hno : (w.writeSamples now (m.outgoing now process w)).1 = false := by
      refine Bool.eq_false_iff.2 fun hyes => ?_
      rcases hadmission.admitted_iff.1 hyes with hnone | hfits
      · exact hsome hnone
      · rw [hvariety] at hfits
        exact absurd hover (Nat.not_lt.2 hfits)
    have hqueue := hadmission.refused hno
    rw [hno, hqueue] at hcounted
    exact ⟨hqueue, hcounted⟩

/-! ## Any run -/

/-- The report as a write of the host. -/
def emitting (m : SelfMetrics) (now : Timestamp) (process : Option ProcessStats)
    (s : Writer.Session) : Writer.Session :=
  s.write now (m.outgoing now process s.writer)

theorem writer_emitting (m : SelfMetrics) (now : Timestamp) (process : Option ProcessStats)
    (s : Writer.Session) :
    (m.emitting now process s).writer = (m.emit now process s.writer).2 := by
  rw [emit_eq]
  rfl

/-- A run of a writer with reports in between, oldest first. -/
inductive Reporting (net : Network) (settings : WriterSettings) :
    List (List Series) → Writer.Session → Prop where
  | start : Reporting net settings [] (.start settings)
  | step {reports : List (List Series)} {s t : Writer.Session} :
      Reporting net settings reports s → Writer.Step net s t → Reporting net settings reports t
  | emit {reports : List (List Series)} {s : Writer.Session} (m : SelfMetrics) (now : Timestamp)
      (process : Option ProcessStats) : Reporting net settings reports s →
      Reporting net settings (reports ++ [m.report now process s.writer])
        (m.emitting now process s)

/-- The second report has no smaller value of the metric than the first. -/
def NeverLess (metric : String) (r r' : List Series) : Prop :=
  ∃ x y, reading? r metric = some x ∧ reading? r' metric = some y ∧ x.AtMost y

section

variable {net : Network} {settings : WriterSettings} {reports : List (List Series)}
  {s t : Writer.Session} {c d : Counters} {metric : String} {field : Counters → Nat}

theorem Reporting.reachable (h : Reporting net settings reports s) :
    Writer.Reachable net settings s := by
  induction h with
  | start => exact .refl _
  | step _ hs ih => exact .tail ih hs
  | emit m now process _ ih => exact .tail ih (.write ..)

theorem grown_of_step (h : Writer.Reachable net settings s) (hs : Writer.Step net s t) :
    s.writer.counters.Grown t.writer.counters := by
  have ho : Writer.Orderly net (.start settings) := Writer.orderly_start settings
  have ha := Writer.accounts_of_steps (Writer.accounts_start settings) ho h
  have ha' := Writer.accounts_step ha (Writer.orderly_of_steps ho h) hs
  exact ha.grown ha' (Writer.log_step hs)

theorem mem_reported (h : (metric, field) ∈ cumulative) : (metric, field) ∈ reported := by
  simp only [cumulative, reported, List.mem_cons] at h ⊢
  tauto

theorem field_le (h : (metric, field) ∈ cumulative) (hgrown : c.Grown d) : field c ≤ field d := by
  simp only [cumulative, List.mem_cons, Prod.mk.injEq, List.not_mem_nil, or_false] at h
  rcases h with ⟨-, rfl⟩ | ⟨-, rfl⟩ | ⟨-, rfl⟩ | ⟨-, rfl⟩ | ⟨-, rfl⟩
  · exact hgrown.totalCount
  · exact hgrown.failTotal
  · exact hgrown.failCount
  · exact hgrown.writeTotal
  · exact hgrown.writeFailTotal

theorem neverLess_of_shows {r r' : List Series} (hmem : (metric, field) ∈ cumulative)
    (hr : Shows c r) (hr' : Shows d r') (hgrown : c.Grown d) (hfits : field d < 2 ^ 64) :
    NeverLess metric r r' := by
  have hle := field_le hmem hgrown
  have hlog : (field d).log2 < 1023 :=
    Nat.lt_trans (Binary64.log2_lt_of_lt (by omega) hfits) (by omega)
  exact ⟨_, _, hr metric field (mem_reported hmem) (Nat.lt_of_le_of_lt hle hfits),
    hr' metric field (mem_reported hmem) hfits, Binary64.atMost_ofNat hle hlog⟩

/-- Every report so far shows counters that have only grown since. -/
theorem Reporting.shows (h : Reporting net settings reports s) :
    ∀ r ∈ reports, ∃ c : Counters, Shows c r ∧ c.Grown s.writer.counters := by
  induction h with
  | start => exact fun r hr => absurd hr List.not_mem_nil
  | step hrun hs ih =>
    intro r hr
    obtain ⟨c, hshows, hgrown⟩ := ih r hr
    exact ⟨c, hshows, hgrown.trans (grown_of_step hrun.reachable hs)⟩
  | @emit reports s m now process hrun ih =>
    have hgrown : s.writer.counters.Grown (m.emitting now process s).writer.counters :=
      grown_of_step hrun.reachable (.write ..)
    intro r hr
    rcases List.mem_append.1 hr with hold | hnew
    · obtain ⟨c, hshows, hc⟩ := ih r hold
      exact ⟨c, hshows, hc.trans hgrown⟩
    · rw [List.mem_singleton.1 hnew]
      exact ⟨_, shows_report m now process s.writer, hgrown⟩

theorem Reporting.pairwise (h : Reporting net settings reports s)
    (hmem : (metric, field) ∈ cumulative) (hfits : field s.writer.counters < 2 ^ 64) :
    reports.Pairwise (NeverLess metric) := by
  induction h with
  | start => exact .nil
  | step hrun hs ih =>
    exact ih (Nat.lt_of_le_of_lt (field_le hmem (grown_of_step hrun.reachable hs)) hfits)
  | @emit reports s m now process hrun ih =>
    have hle : field s.writer.counters ≤ field (m.emitting now process s).writer.counters :=
      field_le hmem (grown_of_step hrun.reachable (.write ..))
    have hbefore := Nat.lt_of_le_of_lt hle hfits
    -- Only the pairs with the new report are new, and it shows the counters as they are now.
    refine List.pairwise_append.2 ⟨ih hbefore, List.pairwise_singleton .., ?_⟩
    intro r hr r' hr'
    rw [List.mem_singleton.1 hr']
    obtain ⟨c, hshows, hgrown⟩ := hrun.shows r hr
    exact neverLess_of_shows hmem hshows (shows_report m now process s.writer) hgrown hbefore

end

/-- A report of a writer in any state has a series for each of its samples, of different label sets,
named by its metric whatever the labels of the normalizer are. The series show the counters as they
were before the report, and are counted after it, whether they are all admitted or all rejected. Over
any run, no later report shows less of a counter that only grows, as long as the counter fits in the 64
bits it is shown as. -/
theorem reports_show_counters (net : Network) (settings : WriterSettings) :
    (∀ (m : SelfMetrics) (now : Timestamp) (process : Option ProcessStats) (w : Writer),
      Reports m now process w (m.emit now process w).1 (m.emit now process w).2) ∧
    ∀ reports s, Reporting net settings reports s → ∀ metric field, (metric, field) ∈ cumulative →
      field s.writer.counters < 2 ^ 64 → reports.Pairwise (NeverLess metric) :=
  ⟨reports_emit, fun _ _ h _ _ => h.pairwise⟩

/-- Its labels contend for the name of the metric and for one another's. -/
def contended : SelfMetrics :=
  ⟨⟨Table.ofList [("__name__", "up"), ("_ _name__", "up"), ("re.gion", "a"), ("re-gion", "b"),
    ("", "c")]⟩, ""⟩

/-- Reports one after the other to a queue that has room for one. -/
def crowded : Nat → Writer.Session
  | 0 => .start { queueCapacity := 8 }
  | n + 1 => contended.emitting ⟨n, 0⟩ none (crowded n)

/-- The report of the state. -/
def crowdedReport (n : Nat) : List Series := contended.report ⟨n, 0⟩ none (crowded n).writer

theorem crowded_shows_refusal :
    Reporting .unreachable { queueCapacity := 8 }
      [crowdedReport 0, crowdedReport 1, crowdedReport 2] (crowded 3) ∧
    (crowded 2).writer.counters = ⟨14, 1, 7, 7, 0, 0⟩ ∧
    reading? (crowdedReport 2) "metrics_enqueue_failed_sum" = some (Binary64.ofNat 7) ∧
    (crowded 3).writer.counters = ⟨21, 2, 14, 7, 0, 0⟩ ∧
    [crowdedReport 0, crowdedReport 1, crowdedReport 2].Pairwise
      (NeverLess "metrics_enqueue_failed_sum") := by
  obtain ⟨hone, hrun⟩ := reports_show_counters .unreachable { queueCapacity := 8 }
  have hreport : ∀ n : Nat,
      Reports contended ⟨n, 0⟩ none (crowded n).writer 7 (crowded (n + 1)).writer := by
    intro n
    have h := hone contended ⟨n, 0⟩ none (crowded n).writer
    have hseven : (contended.emit ⟨n, 0⟩ none (crowded n).writer).1 = 7 := h.length.2
    rw [hseven, ← writer_emitting] at h
    exact h
  have hfirst := (hreport 0).admitted (by decide)
  have hsize : (crowded 1).writer.queue.size = 7 := by
    rw [← BoundedQueue.length_toList, hfirst.1, List.length_append, (hreport 0).length.1]
    rfl
  have hcapacity : (crowded 1).writer.queue.capacity = 8 := (hreport 0).capacity
  have hsecond := (hreport 1).refused (by omega)
  have hcounters : (crowded 2).writer.counters = ⟨14, 1, 7, 7, 0, 0⟩ := by
    rw [hsecond.2, hfirst.2, hsize]
    rfl
  have hthird := (hreport 2).refused (by rw [hsecond.1]; omega)
  have hlast : (crowded 3).writer.counters = ⟨21, 2, 14, 7, 0, 0⟩ := by
    rw [hthird.2, hcounters, hsecond.1, hsize]
  have hreports : Reporting .unreachable { queueCapacity := 8 }
      [crowdedReport 0, crowdedReport 1, crowdedReport 2] (crowded 3) :=
    ((Reporting.start.emit contended ⟨0, 0⟩ none).emit contended ⟨1, 0⟩ none).emit contended
      ⟨2, 0⟩ none
  have hread := (hreport 2).shows "metrics_enqueue_failed_sum" Counters.failTotal
    (by simp [reported]) (by rw [hcounters]; decide)
  rw [hcounters] at hread
  exact ⟨hreports, hcounters, hread, hlast, hrun _ _ hreports _ Counters.failTotal
    (by simp [cumulative]) (by rw [hlast]; decide)⟩

end SelfMetrics

end MetricRelay
