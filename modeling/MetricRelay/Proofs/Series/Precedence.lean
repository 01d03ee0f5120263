import MetricRelay.Normalizer
import MetricRelay.Proofs.Series.Labels

/-!
# Layers of labels on the wire

Layers are merged by raw key, but of the keys with one name only the least goes out. `StaysAhead`
says when the labels above a layer come before it under a name, and `wire_value_of_layers` that
exactly then the wire has a value of theirs. Otherwise the layer displaces them:
`precedence_lost_on_wire`.
-/

namespace MetricRelay

namespace WireName

theorem replace_eq_self {c : Char} (h : replace c ≠ '_') : replace c = c := by
  unfold replace at h ⊢
  split
  · rfl
  · next hc => exact absurd (if_neg hc) h

theorem map_replace_eq_self {l : List Char} (h : '_' ∉ l.map replace) : l.map replace = l := by
  have hself : ∀ c ∈ l, replace c = id c := fun c hc =>
    replace_eq_self fun hrep => h (hrep ▸ List.mem_map_of_mem hc)
  rw [List.map_congr_left hself, List.map_id]

/-- A name without `_` is the name of itself alone. -/
theorem eq_of_sanitize_eq {raw name : String} (h : sanitize raw = name)
    (hname : '_' ∉ name.toList) : raw = name := by
  have hchars : sanitizeChars raw.toList = name.toList := by
    rw [← h, sanitize, String.toList_ofList]
  rw [← hchars] at hname
  apply String.toList_injective
  rw [← hchars]
  cases hraw : raw.toList with
  | nil => rfl
  | cons c r =>
    rw [hraw, sanitizeChars] at hname
    rw [sanitizeChars]
    split at hname
    · exact absurd List.mem_cons_self hname
    · next hdigit =>
      rw [if_neg hdigit]
      exact (map_replace_eq_self hname).symm

theorem sanitize_ne_empty {raw : String} (h : raw ≠ "") : sanitize raw ≠ "" := by
  intro hempty
  exact h (eq_of_sanitize_eq hempty (by simp))

end WireName

namespace Normalizer

theorem get?_followAddress (labels : Labels) {k : String} (h : k ≠ instanceLabel) :
    (followAddress labels).get? k = labels.get? k := by
  unfold followAddress
  split
  · rw [Table.get?_insert, if_neg h]
  · rfl

/-- The own label of a key, else the global one, else the extra one. -/
theorem get?_label (n : Normalizer) (extra own : Labels) {k : String} (h : k ≠ instanceLabel) :
    (n.label extra own).get? k = ((own.get? k).or (n.globals.get? k)).or (extra.get? k) := by
  rw [label, get?_followAddress _ h, Table.get?_fill, Table.get?_fill]

/-! ## Layers under one name -/

/-- The value is one that the labels have under some key of that name. -/
def SetUnder (labels : Labels) (name value : String) : Prop :=
  ∃ k, labels.get? k = some value ∧ value ≠ "" ∧ WireName.sanitize k = name

/-- Each key that only the layer sets comes after one that the upper labels set. -/
def StaysAhead (upper layer : Labels) (name : String) : Prop :=
  ∀ k v, upper.get? k = none → layer.get? k = some v → v ≠ "" → WireName.sanitize k = name →
    ∃ j w, upper.get? j = some w ∧ w ≠ "" ∧ WireName.sanitize j = name ∧ j < k

/-- The wire has one value under the name: one of the upper labels if these stay ahead, else one of
a key that only the layer sets. -/
structure Resolved (upper layer : Labels) (wire : List Label) (name value : String) : Prop where
  only : ∀ u, ⟨name, u⟩ ∈ wire ↔ u = value
  kept : StaysAhead upper layer name → SetUnder upper name value
  displaced : ¬StaysAhead upper layer name →
    ∃ k, upper.get? k = none ∧ layer.get? k = some value ∧ WireName.sanitize k = name

section

variable {upper layer merged : Labels} {name : String}

/-- The least key of the merged labels is one of the upper labels if these stay ahead. -/
theorem get?_upper_of_staysAhead
    (hmerged : ∀ k, WireName.sanitize k = name → merged.get? k = (upper.get? k).or (layer.get? k))
    (hahead : StaysAhead upper layer name) {k v : String} (h : Supplies merged name k v) :
    upper.get? k = some v := by
  have hget := h.get?
  rw [hmerged k h.named] at hget
  cases hu : upper.get? k with
  | some w => simpa [hu] using hget
  | none =>
    rw [hu, Option.none_or] at hget
    obtain ⟨j, w, hj, hw, hname, hlt⟩ := hahead k v hu hget h.value_ne h.named
    have hle := h.least j w (by rw [hmerged j hname, hj]; rfl) hw hname
    exact absurd (Std.lt_of_lt_of_le hlt hle) (String.lt_irrefl j)

/-- If the upper labels do not stay ahead, the least key of the merged labels is not theirs. -/
theorem get?_upper_of_not_staysAhead
    (hmerged : ∀ k, WireName.sanitize k = name → merged.get? k = (upper.get? k).or (layer.get? k))
    (hbehind : ¬StaysAhead upper layer name) {k v : String} (h : Supplies merged name k v) :
    upper.get? k = none ∧ layer.get? k = some v := by
  have hget := h.get?
  rw [hmerged k h.named] at hget
  cases hu : upper.get? k with
  | none => exact ⟨rfl, by simpa [hu] using hget⟩
  | some w =>
    refine absurd (fun j u hj hlayer hne hname => ?_) hbehind
    have hle := h.least j u (by rw [hmerged j hname, hj]; exact hlayer) hne hname
    have hkj : k ≠ j := by
      rintro rfl
      rw [hu] at hj
      cases hj
    have hw : w = v := by simpa [hu] using hget
    exact ⟨k, w, hu, hw ▸ h.value_ne, h.named, Std.lt_of_le_of_ne hle hkj⟩

theorem exists_resolved {s : Sample}
    (hmerged : ∀ k, WireName.sanitize k = name → s.labels.get? k = (upper.get? k).or (layer.get? k))
    {k v : String} (hname : WireName.sanitize k = name) (hget : upper.get? k = some v)
    (hne : k ≠ "") (hv : v ≠ "") (hm : name ≠ metricNameLabel) :
    ∃ value, Resolved upper layer (wireLabels s) name value := by
  have hset : s.labels.get? k = some v := by
    rw [hmerged k hname, hget]
    rfl
  obtain ⟨j, w, hsupplies⟩ := exists_supplies hset hv
  rw [hname] at hsupplies
  refine ⟨w, fun u => ?_, fun hahead => ?_, fun hbehind => ?_⟩
  · rw [mem_wireLabels_iff (hname ▸ WireName.sanitize_ne_empty hne) hm]
    constructor
    · rintro ⟨i, hi⟩
      exact (hi.unique hsupplies).2
    · rintro rfl
      exact ⟨j, hsupplies⟩
  · exact ⟨j, get?_upper_of_staysAhead hmerged hahead hsupplies, hsupplies.value_ne,
      hsupplies.named⟩
  · have ⟨hupper, hlayer⟩ := get?_upper_of_not_staysAhead hmerged hbehind hsupplies
    exact ⟨j, hupper, hlayer, hsupplies.named⟩

end

/-! ## Normalized samples -/

/-- Only `instance` has the name `instance`, so that the address displaces no other key. -/
theorem ne_instanceLabel_of_sanitize {j k : String} (hk : k ≠ instanceLabel)
    (h : WireName.sanitize j = WireName.sanitize k) : j ≠ instanceLabel := by
  rintro rfl
  have hname : WireName.sanitize instanceLabel = instanceLabel := by decide
  exact hk (WireName.eq_of_sanitize_eq (h.symm.trans hname) (by decide))

/-- Under the name of a label that the collector set, the wire has one value: one of the collector's
own if these stay ahead of what the global and the extra labels add, else one of the added. The same
holds of a global label that the collector did not set, and the extra labels. -/
theorem wire_value_of_layers (n : Normalizer) (now : Timestamp) (extra : Labels)
    (pending : SampleList) {i : Nat} {s : Sample} {k v : String} (hs : pending.toList[i]? = some s)
    (hk : k ≠ "") (hv : v ≠ "") (hinstance : k ≠ instanceLabel)
    (hmetric : WireName.sanitize k ≠ metricNameLabel) :
    ∃ out, (n.process now extra pending).1.toList[i]? = some out ∧
      (s.labels.get? k = some v → ∃ value,
        Resolved s.labels (n.globals.fill extra) (wireLabels out) (WireName.sanitize k) value) ∧
      (s.labels.get? k = none → n.globals.get? k = some v → ∃ value,
        Resolved (s.labels.fill n.globals) extra (wireLabels out) (WireName.sanitize k) value) := by
  refine ⟨n.stamp now extra s, by rw [toList_process, List.getElem?_map, hs]; rfl, ?_, ?_⟩
  · intro hown
    refine exists_resolved (fun j hj => ?_) rfl hown hk hv hmetric
    rw [stamp, get?_label n extra _ (ne_instanceLabel_of_sanitize hinstance hj), Table.get?_fill,
      Option.or_assoc]
  · intro hown hglobal
    have hfilled : (s.labels.fill n.globals).get? k = some v := by
      rw [Table.get?_fill, hown, hglobal]
      rfl
    refine exists_resolved (fun j hj => ?_) rfl hfilled hk hv hmetric
    rw [stamp, get?_label n extra _ (ne_instanceLabel_of_sanitize hinstance hj), Table.get?_fill]

theorem get?_singleton {k v j w : String} :
    (Table.ofList [(k, v)]).get? j = some w ↔ j = k ∧ w = v := by
  rw [Table.ofList, List.foldl_cons, List.foldl_nil, Table.get?_insert, Table.get?_empty]
  split <;> simp_all [eq_comm]

/-- The global `a-b` comes before the collector's `a.b`, and both are `a_b` on the wire. -/
theorem global_displaces_own : ∃ out,
    ((⟨Table.ofList [("a-b", "g")]⟩ : Normalizer).process ⟨0, 0⟩ .empty
      (.push .empty ⟨"m", "up", .int 1, Table.ofList [("a.b", "x")], none⟩)).1.toList[0]? =
        some out ∧
    ∀ u, ⟨"a_b", u⟩ ∈ wireLabels out ↔ u = "g" := by
  obtain ⟨out, hout, hown, -⟩ := wire_value_of_layers ⟨Table.ofList [("a-b", "g")]⟩ ⟨0, 0⟩ .empty
    (.push .empty ⟨"m", "up", .int 1, Table.ofList [("a.b", "x")], none⟩) (i := 0) rfl
    (k := "a.b") (v := "x") (by decide) (by decide) (by decide) (by decide)
  obtain ⟨value, h⟩ := hown rfl
  rw [show WireName.sanitize "a.b" = "a_b" by decide] at h
  have hbehind : ¬StaysAhead (Table.ofList [("a.b", "x")])
      ((Table.ofList [("a-b", "g")]).fill .empty) "a_b" := by
    intro hahead
    obtain ⟨j, w, hj, -, -, hlt⟩ := hahead "a-b" "g" rfl rfl (by decide) (by decide)
    rw [(get?_singleton.1 hj).1] at hlt
    exact absurd hlt (by decide)
  obtain ⟨j, -, hj, -⟩ := h.displaced hbehind
  rw [Table.get?_fill, Table.get?_empty, Option.or_none] at hj
  exact ⟨out, hout, (get?_singleton.1 hj).2 ▸ h.only⟩

/-- On the wire neither do the collector's own labels take precedence over the global ones nor these
over the extra ones. -/
theorem precedence_lost_on_wire :
    (¬∀ (n : Normalizer) (now : Timestamp) (extra : Labels) (s : Sample) (k v : String),
      k ≠ "" → v ≠ "" → k ≠ instanceLabel → WireName.sanitize k ≠ metricNameLabel →
      s.labels.get? k = some v →
      ∃ w, ⟨WireName.sanitize k, w⟩ ∈ wireLabels (n.stamp now extra s) ∧
        SetUnder s.labels (WireName.sanitize k) w) ∧
    ¬∀ (n : Normalizer) (now : Timestamp) (extra : Labels) (s : Sample) (k v w : String),
      k ≠ "" → v ≠ "" → k ≠ instanceLabel → WireName.sanitize k ≠ metricNameLabel →
      s.labels.get? k = none → n.globals.get? k = some v →
      ⟨WireName.sanitize k, w⟩ ∈ wireLabels (n.stamp now extra s) →
      SetUnder (s.labels.fill n.globals) (WireName.sanitize k) w := by
  constructor
  · intro h
    obtain ⟨w, hwire, j, hj, -⟩ := h ⟨Table.ofList [("a-b", "g")]⟩ ⟨0, 0⟩ .empty
      ⟨"m", "up", .int 1, Table.ofList [("a.b", "x")], none⟩ "a.b" "x" (by decide) (by decide)
      (by decide) (by decide) rfl
    rw [(get?_singleton.1 hj).2] at hwire
    exact absurd (mem_wireLabels_iff_find?.1 hwire) (by decide +kernel)
  · intro h
    obtain ⟨j, hj, -⟩ := h ⟨Table.ofList [("a.b", "x")]⟩ ⟨0, 0⟩ (Table.ofList [("a-b", "g")])
      ⟨"m", "up", .int 1, .empty, none⟩ "a.b" "x" "g" (by decide) (by decide) (by decide)
      (by decide) rfl rfl (mem_wireLabels_iff_find?.2 (by decide +kernel))
    rw [Table.get?_fill, Table.get?_empty, Option.none_or] at hj
    exact absurd (get?_singleton.1 hj).2 (by decide)

end Normalizer

end MetricRelay
