import Mathlib.Data.List.Sort
import MetricRelay.Proofs.Series.Naming
import MetricRelay.Proofs.Text.ByteOrder

/-!
# The label set of a sample, label by label

`IsLabelSet` says of a list of labels what it has under the name of the metric and under any other
name. It leaves one list only, and `wireLabels` is that list (`wireLabels_exact`).
-/

namespace MetricRelay

/-! ## Valid names -/

namespace WireName

theorem isNameChar_replace (c : Char) : isNameChar (replace c) = true := by
  unfold replace
  split
  · next h => exact h
  · decide

theorem not_isDigit_replace {c : Char} (h : ¬c.isDigit) : ¬(replace c).isDigit := by
  unfold replace
  split
  · exact h
  · decide

theorem all_isNameChar_replace (l : List Char) : (l.map replace).all isNameChar = true := by
  rw [List.all_map, List.all_eq_true]
  exact fun c _ => isNameChar_replace c

/-- Only the empty text has no valid name. -/
theorem isValid_sanitize {raw : String} (h : raw ≠ "") : IsValid (sanitize raw) := by
  unfold IsValid sanitize
  rw [String.toList_ofList]
  cases hraw : raw.toList with
  | nil => exact absurd (String.toList_eq_nil_iff.1 hraw) h
  | cons c r =>
    rw [sanitizeChars]
    split
    · exact ⟨'_', (c :: r).map replace, rfl, by decide, by decide, all_isNameChar_replace _⟩
    · next hdigit =>
      exact ⟨replace c, r.map replace, rfl, isNameChar_replace c, not_isDigit_replace hdigit,
        all_isNameChar_replace r⟩

theorem isValid_metricNameLabel : IsValid metricNameLabel :=
  ⟨'_', ['_', 'n', 'a', 'm', 'e', '_', '_'], by decide, by decide, by decide, by decide⟩

end WireName

/-! ## What a label set has -/

/-- The key has a value and goes by that name on the wire. -/
def Carries (labels : Labels) (name key : String) : Prop :=
  ∃ value, labels.get? key = some value ∧ value ≠ "" ∧ WireName.sanitize key = name

/-- The labels of a sample on the wire: the name of the metric under a name of its own, and under any
other name the value of the key that comes first in the order of bytes. -/
structure IsLabelSet (s : Sample) (wire : List Label) : Prop where
  ascending : wire.Pairwise fun a b => Text.encode a.name < Text.encode b.name
  valid : ∀ a ∈ wire, WireName.IsValid a.name ∧ a.value ≠ ""
  metric : ∀ value, ⟨metricNameLabel, value⟩ ∈ wire ↔
    value = WireName.metric s.source s.metric ∧ value ≠ ""
  present : ∀ name, name ≠ metricNameLabel →
    ((∃ value, ⟨name, value⟩ ∈ wire) ↔ name ≠ "" ∧ ∃ key, Carries s.labels name key)
  supplied : ∀ name value, name ≠ metricNameLabel →
    (⟨name, value⟩ ∈ wire ↔ name ≠ "" ∧ ∃ key, Carries s.labels name key ∧
      s.labels.get? key = some value ∧
      ∀ k, Carries s.labels name k → Text.encode key ≤ Text.encode k)

theorem supplies_iff {labels : Labels} {name key value : String} :
    Supplies labels name key value ↔ Carries labels name key ∧ labels.get? key = some value ∧
      ∀ k, Carries labels name k → Text.encode key ≤ Text.encode k := by
  constructor
  · intro h
    refine ⟨⟨value, h.get?, h.value_ne, h.named⟩, h.get?, ?_⟩
    rintro k ⟨v, hk, hv, hname⟩
    exact Text.encode_le_encode_iff.2 (h.least k v hk hv hname)
  · rintro ⟨⟨v, hkey, hv, hname⟩, hget, hleast⟩
    obtain rfl : v = value := by simpa [hkey] using hget
    exact ⟨hget, hv, hname, fun k u hk hu hnamed =>
      Text.encode_le_encode_iff.1 (hleast k ⟨u, hk, hu, hnamed⟩)⟩

theorem valid_of_mem_wireLabels {s : Sample} {a : Label} (h : a ∈ wireLabels s) :
    WireName.IsValid a.name ∧ a.value ≠ "" := by
  have hmem := List.mem_of_find?_eq_some (mem_wireLabels_iff_find?.1 h)
  rcases List.mem_append.1 hmem with hname | hown
  · obtain ⟨hmetric, -, hvalue⟩ := mem_nameLabels_iff.1 hname
    exact ⟨hmetric ▸ WireName.isValid_metricNameLabel, hvalue⟩
  · obtain ⟨e, -, he⟩ := List.mem_filterMap.1 hown
    have hgoes := (goesOut_of_ownLabel? he).1
    rw [ownLabel?_of_goesOut hgoes] at he
    cases he
    exact ⟨WireName.isValid_sanitize hgoes.1, hgoes.2.1⟩

theorem head?_nameLabels_iff {s : Sample} {a : Label} :
    (nameLabels s).head? = some a ↔ a ∈ nameLabels s := by
  unfold nameLabels
  simp only
  split <;> simp [eq_comm]

theorem metricName_mem_wireLabels_iff {s : Sample} {value : String} :
    ⟨metricNameLabel, value⟩ ∈ wireLabels s ↔
      value = WireName.metric s.source s.metric ∧ value ≠ "" := by
  rw [mem_iff_find?_of_ascending (ascending_wireLabels s), find?_wireLabels_metricName,
    head?_nameLabels_iff, mem_nameLabels_iff]
  exact and_iff_right rfl

/-- No label stands under the empty name. -/
theorem mem_wireLabels_iff_carries {s : Sample} {name value : String}
    (hname : name ≠ metricNameLabel) :
    ⟨name, value⟩ ∈ wireLabels s ↔ name ≠ "" ∧ ∃ key, Carries s.labels name key ∧
      s.labels.get? key = some value ∧
      ∀ k, Carries s.labels name k → Text.encode key ≤ Text.encode k := by
  simp only [← supplies_iff]
  by_cases hne : name = ""
  · refine iff_of_false (fun h => ?_) fun h => h.1 hne
    obtain ⟨c, r, hchars, -⟩ := (valid_of_mem_wireLabels h).1
    simp [hne] at hchars
  · rw [mem_wireLabels_iff hne hname]
    exact (and_iff_right hne).symm

theorem exists_mem_wireLabels_iff {s : Sample} {name : String} (hname : name ≠ metricNameLabel) :
    (∃ value, ⟨name, value⟩ ∈ wireLabels s) ↔ name ≠ "" ∧ ∃ key, Carries s.labels name key := by
  constructor
  · rintro ⟨value, h⟩
    obtain ⟨hne, key, hcarries, -⟩ := (mem_wireLabels_iff_carries hname).1 h
    exact ⟨hne, key, hcarries⟩
  · rintro ⟨hne, key, value, hget, hvalue, rfl⟩
    obtain ⟨k, v, hsupplies⟩ := exists_supplies hget hvalue
    exact ⟨v, (mem_wireLabels_iff hne hname).2 ⟨k, hsupplies⟩⟩

theorem isLabelSet_wireLabels (s : Sample) : IsLabelSet s (wireLabels s) where
  ascending := (ascending_wireLabels s).imp Text.encode_lt_encode
  valid _ := valid_of_mem_wireLabels
  metric _ := metricName_mem_wireLabels_iff
  present _ := exists_mem_wireLabels_iff
  supplied _ _ := mem_wireLabels_iff_carries

/-- There is no other list of this kind. -/
theorem IsLabelSet.eq {s : Sample} {l m : List Label} (hl : IsLabelSet s l) (hm : IsLabelSet s m) :
    l = m := by
  have : Std.Irrefl fun a b : Label => Text.encode a.name < Text.encode b.name :=
    ⟨fun _ => List.lt_irrefl _⟩
  have : Std.Antisymm fun a b : Label => Text.encode a.name < Text.encode b.name :=
    ⟨fun _ _ hab hba => absurd hba (List.lt_asymm hab)⟩
  refine hl.ascending.eq_of_mem_iff hm.ascending fun ⟨name, value⟩ => ?_
  by_cases hname : name = metricNameLabel
  · rw [hname, hl.metric, hm.metric]
  · rw [hl.supplied name value hname, hm.supplied name value hname]

theorem wireLabels_eq_nil_iff_unnamed {s : Sample} :
    wireLabels s = [] ↔ WireName.metric s.source s.metric = "" ∧
      ¬∃ k v, s.labels.get? k = some v ∧ WireName.sanitize k ≠ "" ∧
        WireName.sanitize k ≠ metricNameLabel ∧ v ≠ "" := by
  rw [wireLabels_eq_nil_iff, WireName.metric_eq_empty_iff]
  refine and_congr_right fun _ => not_congr (exists_congr fun k => exists_congr fun v => ?_)
  refine and_congr_right fun _ => ?_
  rw [GoesOut, and_comm (a := v ≠ "")]
  exact and_congr_left' (not_congr WireName.sanitize_eq_empty_iff).symm

/-- The labels of a sample on the wire are the one list that `IsLabelSet` describes. No label of the
sample supplies or changes the name of its metric, and the list is empty if neither the metric nor
any label has a name and a value to go out with. -/
theorem wireLabels_exact (s : Sample) :
    IsLabelSet s (wireLabels s) ∧
    (∀ wire, IsLabelSet s wire → wire = wireLabels s) ∧
    (∀ labels value, ⟨metricNameLabel, value⟩ ∈ wireLabels { s with labels } ↔
      ⟨metricNameLabel, value⟩ ∈ wireLabels s) ∧
    (wireLabels s = [] ↔ WireName.metric s.source s.metric = "" ∧
      ¬∃ k v, s.labels.get? k = some v ∧ WireName.sanitize k ≠ "" ∧
        WireName.sanitize k ≠ metricNameLabel ∧ v ≠ "") := by
  have hexact := isLabelSet_wireLabels s
  refine ⟨hexact, fun wire hwire => hwire.eq hexact, fun labels value => ?_,
    wireLabels_eq_nil_iff_unnamed⟩
  rw [metricName_mem_wireLabels_iff, metricName_mem_wireLabels_iff]

/-- Two keys become `a_b`, one becomes the name of the metric, and one has no value. -/
example : wireLabels ⟨"m", "up", .int 1,
      Table.ofList [("a.b", "x"), ("a-b", "y"), ("--name--", "z"), ("9", "")], none⟩ =
    [⟨"__name__", "m_up"⟩, ⟨"a_b", "y"⟩] := by cbv

end MetricRelay
