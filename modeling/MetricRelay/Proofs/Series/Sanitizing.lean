import MetricRelay.Proofs.Series.ReadBack

/-!
# Names from any text

`sanitize` takes every text to a name, character by character, and leaves names as they are. What is put
behind a text is only replaced (`sanitizeChars_append`): so the name of a metric is that of its source,
an underscore, and its own characters (`sanitize_projects_onto_names`).
-/

namespace MetricRelay.WireName

/-- A digit comes first. -/
def startsWithDigit (raw : String) : Bool := raw.toList.head?.any Char.isDigit

theorem toList_sanitize (raw : String) :
    (sanitize raw).toList =
      (if startsWithDigit raw then ['_'] else []) ++ raw.toList.map replace := by
  rw [sanitize, String.toList_ofList, startsWithDigit]
  cases raw.toList with
  | nil => rfl
  | cons c r =>
    rw [sanitizeChars, List.head?_cons, Option.any_some]
    split <;> rfl

/-- Only the first character decides whether something is put in front. -/
theorem sanitizeChars_append {l : List Char} (h : l ≠ []) (t : List Char) :
    sanitizeChars (l ++ t) = sanitizeChars l ++ t.map replace := by
  cases l with
  | nil => exact absurd rfl h
  | cons c r =>
    rw [List.cons_append, sanitizeChars, sanitizeChars]
    split <;> simp

theorem isValid_sanitize_iff {raw : String} : IsValid (sanitize raw) ↔ raw ≠ "" := by
  refine ⟨?_, isValid_sanitize⟩
  rintro ⟨c, r, hchars, -⟩ rfl
  cases hchars

/-- Names are left as they are, and nothing else is but the empty text. -/
theorem sanitize_eq_self_iff {raw : String} : sanitize raw = raw ↔ raw = "" ∨ IsValid raw := by
  constructor
  · intro hself
    by_cases hraw : raw = ""
    · exact .inl hraw
    · exact .inr (hself ▸ isValid_sanitize hraw)
  · rintro (rfl | hvalid)
    · rfl
    · exact sanitize_of_isValid hvalid

theorem sanitize_sanitize (raw : String) : sanitize (sanitize raw) = sanitize raw := by
  rw [sanitize_eq_self_iff, sanitize_eq_empty_iff, isValid_sanitize_iff]
  exact Decidable.em _

/-- A digit at the start of a metric is not at the start of the name. -/
theorem metric_joined {source m : String} (hs : source ≠ "") (hm : m ≠ "") :
    metric source m = sanitize source ++ "_" ++ m.map replace := by
  apply String.toList_injective
  have hsource : source.toList ≠ [] := mt String.toList_eq_nil_iff.1 hs
  have hunderscore : "_".toList.map replace = "_".toList := by decide
  rw [metric, if_neg hs, if_neg hm]
  simp only [sanitize, String.toList_ofList, String.toList_append, String.toList_map,
    List.append_assoc]
  rw [sanitizeChars_append hsource, List.map_append, hunderscore]

/-- `name` is what becomes of `raw`: a valid name unless there is nothing to name, with one character for
each of `raw`, behind an underscore if `raw` begins with a digit. -/
structure NameOf (raw name : String) : Prop where
  eq_empty_iff : name = "" ↔ raw = ""
  isValid_iff : IsValid name ↔ raw ≠ ""
  chars : name.toList = (if startsWithDigit raw then ['_'] else []) ++
    raw.toList.map fun c => if isNameChar c then c else '_'
  length : name.length = raw.length + if startsWithDigit raw then 1 else 0
  eq_raw_iff : name = raw ↔ raw = "" ∨ IsValid raw
  again : sanitize name = name

theorem nameOf_sanitize (raw : String) : NameOf raw (sanitize raw) where
  eq_empty_iff := sanitize_eq_empty_iff
  isValid_iff := isValid_sanitize_iff
  chars := toList_sanitize raw
  length := by
    rw [← String.length_toList, toList_sanitize, List.length_append, List.length_map,
      String.length_toList]
    split <;> simp [Nat.add_comm]
  eq_raw_iff := sanitize_eq_self_iff
  again := sanitize_sanitize raw

/-- Any text but the empty one becomes a valid name, and valid names stay as they are. A metric has a
name unless it is empty: that of its source and its own characters, with an underscore between them. -/
theorem sanitize_projects_onto_names (raw source m : String) :
    NameOf raw (sanitize raw) ∧ (metric source m = "" ↔ m = "") ∧
    metric source m =
      if m = "" then "" else if source = "" then sanitize m
      else sanitize source ++ "_" ++ m.map fun c => if isNameChar c then c else '_' := by
  refine ⟨nameOf_sanitize raw, metric_eq_empty_iff, ?_⟩
  split
  · next hm => exact metric_eq_empty_iff.2 hm
  · next hm =>
    split
    · next hs => exact if_pos hs
    · next hs => exact metric_joined hs hm

/-- A digit is moved behind an underscore only where it would come first. -/
example : sanitize "9 lives" = "_9_lives" ∧ metric "9p" "9 lives" = "_9p_9_lives" := by
  decide +kernel

end MetricRelay.WireName
