import MetricRelay.Proofs.Series.LabelSet

/-!
# Labels read back from the wire

`readBack` makes a sample of what stands on the wire: its metric is what the label of the name says,
and its labels are all others. Its own label set is what it was made of (`wireLabels_readBack`), so
that `IsNormal` describes exactly the lists that are label sets. Whole series, read back point by
point, come out as they were (`Series.ofSamples_readBack`).
-/

namespace MetricRelay

theorem Table.get?_ofList {α : Type} {l : List (String × α)} (h : Ascending l) (k : String) :
    (ofList l).get? k = value? k l := by
  have hfold := get?_foldl_insert id h empty k
  rw [Option.map_id, get?_empty, Option.or_none] at hfold
  exact hfold

namespace WireName

/-- A valid name goes out as it is. -/
theorem sanitize_of_isValid {name : String} (h : IsValid name) : sanitize name = name := by
  obtain ⟨c, r, hname, hc, hdigit, hr⟩ := h
  have hself : ∀ d ∈ c :: r, replace d = id d := by
    intro d hd
    rcases List.mem_cons.1 hd with rfl | hd
    · exact if_pos hc
    · exact if_pos (List.all_eq_true.1 hr d hd)
  apply String.toList_injective
  rw [sanitize, String.toList_ofList, hname, sanitizeChars, if_neg hdigit,
    List.map_congr_left hself, List.map_id]

theorem isValid_metric {source m : String} (h : metric source m ≠ "") :
    IsValid (metric source m) := by
  have hsanitize {raw : String} (hraw : sanitize raw ≠ "") : IsValid (sanitize raw) :=
    isValid_sanitize fun hempty => hraw (sanitize_eq_empty_iff.2 hempty)
  unfold metric at h ⊢
  split
  · next hs => rw [if_pos hs] at h; exact hsanitize h
  · next hs =>
    rw [if_neg hs] at h
    split
    · next hm => rw [if_pos hm] at h; exact absurd rfl h
    · next hm => rw [if_neg hm] at h; exact hsanitize h

end WireName

/-! ## Label sets -/

/-- What the labels of a series can be: valid names in ascending order, each with a value, and the
value of the metric's name a valid name itself. -/
structure IsNormal (wire : List Label) : Prop where
  ascending : wire.Pairwise fun a b => a.name < b.name
  valid : ∀ a ∈ wire, WireName.IsValid a.name ∧ a.value ≠ ""
  metric : ∀ value, ⟨metricNameLabel, value⟩ ∈ wire → WireName.IsValid value

theorem isNormal_wireLabels (s : Sample) : IsNormal (wireLabels s) where
  ascending := ascending_wireLabels s
  valid _ := valid_of_mem_wireLabels
  metric value h := by
    obtain ⟨rfl, hne⟩ := metricName_mem_wireLabels_iff.1 h
    exact WireName.isValid_metric hne

/-- The name of the metric on the wire, empty if there is none. -/
def metricOn (wire : List Label) : String :=
  ((wire.find? fun a => a.name = metricNameLabel).map Label.value).getD ""

/-- All other labels on the wire. -/
def labelsOn (wire : List Label) : Labels :=
  Table.ofList ((wire.filter fun a => a.name ≠ metricNameLabel).map fun a => (a.name, a.value))

def readBack (value : Value) (timestamp : Option Timestamp) (wire : List Label) : Sample where
  source := ""
  metric := metricOn wire
  value
  labels := labelsOn wire
  timestamp

section

variable {wire : List Label}

theorem mem_metricName_iff (h : IsNormal wire) {value : String} :
    ⟨metricNameLabel, value⟩ ∈ wire ↔ value = metricOn wire ∧ value ≠ "" := by
  rw [mem_iff_find?_of_ascending h.ascending, metricOn]
  simp only
  cases hfind : wire.find? fun a => a.name = metricNameLabel with
  | none => simp
  | some a =>
    have hname : a.name = metricNameLabel := by simpa using List.find?_some hfind
    have hvalue := (h.valid a (List.mem_of_find?_eq_some hfind)).2
    obtain ⟨name, v⟩ := a
    subst hname
    simp only [Option.some.injEq, Label.mk.injEq, true_and, Option.map_some, Option.getD_some]
    exact ⟨fun hv => ⟨hv.symm, hv ▸ hvalue⟩, fun hv => hv.1.symm⟩

/-- The name of the metric needs no source and no sanitizing any more. -/
theorem metric_metricOn (h : IsNormal wire) : WireName.metric "" (metricOn wire) = metricOn wire := by
  rw [WireName.metric, if_pos rfl]
  by_cases hempty : metricOn wire = ""
  · rw [hempty]
    rfl
  · exact WireName.sanitize_of_isValid (h.metric _ ((mem_metricName_iff h).2 ⟨rfl, hempty⟩))

theorem get?_labelsOn (h : IsNormal wire) {k v : String} :
    (labelsOn wire).get? k = some v ↔ k ≠ metricNameLabel ∧ ⟨k, v⟩ ∈ wire := by
  have hascending : Ascending
      ((wire.filter fun a => a.name ≠ metricNameLabel).map fun a => (a.name, a.value)) :=
    List.pairwise_map.2 (h.ascending.filter _)
  have hmem : (k, v) ∈ ((wire.filter fun a => a.name ≠ metricNameLabel).map
      fun a => (a.name, a.value)) ↔ k ≠ metricNameLabel ∧ ⟨k, v⟩ ∈ wire := by
    simp only [List.mem_map, List.mem_filter, decide_eq_true_eq, Prod.mk.injEq]
    constructor
    · rintro ⟨a, ⟨ha, hname⟩, rfl, rfl⟩
      exact ⟨hname, ha⟩
    · rintro ⟨hname, ha⟩
      exact ⟨⟨k, v⟩, ⟨ha, hname⟩, rfl, rfl⟩
  rw [labelsOn, Table.get?_ofList hascending, ← hmem]
  exact ⟨Table.mem_of_value?, Table.value?_of_mem hascending⟩

/-- A label that has been read back goes by the name that it had, and no other one does. -/
theorem carries_labelsOn_iff (h : IsNormal wire) {name key : String} :
    Carries (labelsOn wire) name key ↔
      key = name ∧ name ≠ metricNameLabel ∧ ∃ value, ⟨name, value⟩ ∈ wire := by
  simp only [Carries, get?_labelsOn h]
  constructor
  · rintro ⟨value, ⟨hkey, hmem⟩, -, hname⟩
    obtain rfl : key = name := (WireName.sanitize_of_isValid (h.valid _ hmem).1).symm.trans hname
    exact ⟨rfl, hkey, value, hmem⟩
  · rintro ⟨rfl, hname, value, hmem⟩
    have hvalid := h.valid _ hmem
    exact ⟨value, ⟨hname, hmem⟩, hvalid.2, WireName.sanitize_of_isValid hvalid.1⟩

theorem ne_empty_of_mem (h : IsNormal wire) {name value : String} (hmem : ⟨name, value⟩ ∈ wire) :
    name ≠ "" := by
  obtain ⟨c, r, hchars, -⟩ := (h.valid _ hmem).1
  rintro rfl
  simp at hchars

theorem isLabelSet_readBack (h : IsNormal wire) (value : Value) (timestamp : Option Timestamp) :
    IsLabelSet (readBack value timestamp wire) wire where
  ascending := h.ascending.imp Text.encode_lt_encode
  valid := h.valid
  metric v := by
    show _ ↔ v = WireName.metric "" (metricOn wire) ∧ v ≠ ""
    rw [metric_metricOn h, mem_metricName_iff h]
  present name hname := by
    show _ ↔ name ≠ "" ∧ ∃ key, Carries (labelsOn wire) name key
    simp only [carries_labelsOn_iff h, exists_eq_left]
    constructor
    · rintro ⟨v, hmem⟩
      exact ⟨ne_empty_of_mem h hmem, hname, v, hmem⟩
    · rintro ⟨-, -, hmem⟩
      exact hmem
  supplied name v hname := by
    show _ ↔ name ≠ "" ∧ ∃ key, Carries (labelsOn wire) name key ∧
      (labelsOn wire).get? key = some v ∧
        ∀ k, Carries (labelsOn wire) name k → Text.encode key ≤ Text.encode k
    simp only [carries_labelsOn_iff h, get?_labelsOn h]
    constructor
    · intro hmem
      refine ⟨ne_empty_of_mem h hmem, name, ⟨rfl, hname, v, hmem⟩, ⟨hname, hmem⟩, ?_⟩
      rintro k ⟨rfl, -⟩
      exact List.le_refl _
    · rintro ⟨-, key, ⟨rfl, -⟩, ⟨-, hmem⟩, -⟩
      exact hmem

theorem wireLabels_readBack (h : IsNormal wire) (value : Value) (timestamp : Option Timestamp) :
    wireLabels (readBack value timestamp wire) = wire :=
  (isLabelSet_wireLabels _).eq (isLabelSet_readBack h value timestamp)

end

/-! ## Series -/

/-- The time of a number of milliseconds since the epoch. -/
def Timestamp.ofMillis (t : Int64) : Timestamp :=
  ⟨t.toInt / 1000, (t.toInt % 1000).toNat * 1000000⟩

@[simp] theorem Timestamp.millis_ofMillis (t : Int64) : (ofMillis t).millis = t := by
  have hsum : t.toInt / 1000 * 1000 +
      (((t.toInt % 1000).toNat * 1000000 / 1000000 : Nat) : Int) = t.toInt := by omega
  rw [millis, ofMillis]
  exact (congrArg Int64.ofInt hsum).trans (Int64.ofInt_toInt t)

namespace Series

/-- A sample for each point of the series. -/
def samples (s : Series) : List Sample :=
  s.points.map fun p => readBack (.float p.value) (some (.ofMillis p.time)) s.labels

variable {now : Timestamp} {labels : List Label}

theorem addPoint_last {series : List Series} (h : labels ∉ series.map Series.labels)
    (points : List Point) (p : Point) :
    addPoint (series ++ [⟨labels, points⟩]) labels p = series ++ [⟨labels, points ++ [p]⟩] := by
  induction series with
  | nil => rw [List.nil_append, addPoint, if_pos rfl, List.nil_append]
  | cons s r ih =>
    have hne : s.labels ≠ labels := fun hs => h (hs ▸ List.mem_cons_self)
    rw [List.cons_append, addPoint, if_neg hne, ih fun hr => h (List.mem_cons_of_mem _ hr),
      List.cons_append]

theorem addSample_readBack (h : IsNormal labels) (hne : labels ≠ []) (series : List Series)
    (p : Point) :
    addSample now series (readBack (.float p.value) (some (.ofMillis p.time)) labels) =
      addPoint series labels p := by
  have hpoint : (⟨(readBack (.float p.value) (some (.ofMillis p.time)) labels).value.toBinary64,
      ((readBack (.float p.value) (some (.ofMillis p.time)) labels).timestamp.getD now).millis⟩ :
        Point) = p := by
    rw [readBack, Option.getD_some, Timestamp.millis_ofMillis]
    rfl
  simp only [addSample, wireLabels_readBack h, if_neg hne, hpoint]

/-- Further samples of the last series go behind its points. -/
theorem foldl_samples_last {series : List Series} (h : IsNormal labels) (hne : labels ≠ [])
    (hnew : labels ∉ series.map Series.labels) (before more : List Point) :
    (samples ⟨labels, more⟩).foldl (addSample now) (series ++ [⟨labels, before⟩]) =
      series ++ [⟨labels, before ++ more⟩] := by
  induction more generalizing before with
  | nil => rw [List.append_nil]; rfl
  | cons p more ih =>
    rw [samples, List.map_cons, List.foldl_cons, addSample_readBack h hne, addPoint_last hnew,
      List.append_cons before p more]
    exact ih (before ++ [p])

/-- The samples of a series add it as it is, behind all series of other labels. -/
theorem foldl_samples {series : List Series} {s : Series} (h : IsNormal s.labels)
    (hne : s.labels ≠ []) (hpoints : s.points ≠ [])
    (hnew : s.labels ∉ series.map Series.labels) :
    s.samples.foldl (addSample now) series = series ++ [s] := by
  obtain ⟨labels, points⟩ := s
  simp only at h hne hpoints hnew
  cases points with
  | nil => exact absurd rfl hpoints
  | cons p more =>
    rw [samples, List.map_cons, List.foldl_cons, addSample_readBack h hne,
      addPoint_of_not_mem hnew]
    exact foldl_samples_last h hne hnew [p] more

theorem foldl_flatMap_samples {before more : List Series}
    (h : ∀ s ∈ more, IsNormal s.labels ∧ s.labels ≠ [] ∧ s.points ≠ [])
    (hdistinct : ((before ++ more).map Series.labels).Nodup) :
    (more.flatMap samples).foldl (addSample now) before = before ++ more := by
  induction more generalizing before with
  | nil => rw [List.append_nil]; rfl
  | cons s more ih =>
    obtain ⟨hnormal, hne, hpoints⟩ := h s List.mem_cons_self
    have hnew : s.labels ∉ before.map Series.labels := by
      intro hmem
      rw [List.map_append, List.map_cons] at hdistinct
      exact (List.nodup_append.1 hdistinct).2.2 _ hmem _ List.mem_cons_self rfl
    rw [List.append_cons] at hdistinct ⊢
    rw [List.flatMap_cons, List.foldl_append, foldl_samples hnormal hne hpoints hnew]
    exact ih (fun t ht => h t (List.mem_cons_of_mem _ ht)) hdistinct

/-- Points that are in order stay as they are. -/
theorem sortPoints_of_ordered {s : Series} (h : s.points.Pairwise fun p q => p.time ≤ q.time) :
    s.sortPoints = s := by
  rw [sortPoints, List.mergeSort_of_pairwise (h.imp decide_eq_true)]

theorem points_ne_nil {now : Timestamp} {samples : List Sample} {s : Series}
    (h : s ∈ ofSamples now samples) : s.points ≠ [] := by
  obtain ⟨-, x, hx, hlabels⟩ := exists_sample h
  rw [ofSamples_eq] at h
  obtain ⟨labels, -, rfl⟩ := List.mem_map.1 h
  have hpoint : pointAt now x ∈ pointsAt now samples labels :=
    List.mem_map_of_mem (List.mem_filter.2 ⟨hx, decide_eq_true hlabels⟩)
  exact List.ne_nil_of_mem ((stableOrder_sortPoints _).perm.mem_iff.2 hpoint)

theorem ofSamples_readBack (now later : Timestamp) (samples : List Sample) :
    ofSamples later ((ofSamples now samples).flatMap Series.samples) = ofSamples now samples := by
  have hseries : ∀ s ∈ ofSamples now samples,
      IsNormal s.labels ∧ s.labels ≠ [] ∧ s.points ≠ [] := by
    intro s hs
    obtain ⟨hne, x, -, hlabels⟩ := exists_sample hs
    exact ⟨hlabels ▸ isNormal_wireLabels x, hne, points_ne_nil hs⟩
  have hdistinct : (([] ++ ofSamples now samples).map Series.labels).Nodup := by
    rw [List.nil_append, labels_ofSamples]
    exact nodup_labelSets samples
  have hordered : ∀ s ∈ ofSamples now samples, s.sortPoints = id s := by
    intro s hs
    rw [ofSamples_eq] at hs
    obtain ⟨labels, -, rfl⟩ := List.mem_map.1 hs
    exact sortPoints_of_ordered (stableOrder_sortPoints _).ordered
  rw [ofSamples, foldl_flatMap_samples hseries hdistinct, List.nil_append,
    List.map_congr_left hordered, List.map_id]

end Series

/-- The label set of a sample is a normal form: read back as a sample, it is the label set of that
sample again. The lists in normal form are those that `IsNormal` describes, and series that are read
back come out as they were, the points included. -/
theorem wire_is_normal_form :
    (∀ s value timestamp,
      wireLabels (readBack value timestamp (wireLabels s)) = wireLabels s) ∧
    (∀ wire, (∃ s, wireLabels s = wire) ↔ IsNormal wire) ∧
    ∀ now later samples,
      Series.ofSamples later ((Series.ofSamples now samples).flatMap Series.samples) =
        Series.ofSamples now samples := by
  refine ⟨fun s => wireLabels_readBack (isNormal_wireLabels s), fun wire => ⟨?_, fun h => ?_⟩,
    Series.ofSamples_readBack⟩
  · rintro ⟨s, rfl⟩
    exact isNormal_wireLabels s
  · exact ⟨readBack (.int 0) none wire, wireLabels_readBack h _ _⟩

end MetricRelay
