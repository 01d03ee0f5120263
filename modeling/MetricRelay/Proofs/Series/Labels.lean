import MetricRelay.Proofs.Series.Order
import MetricRelay.Series

/-!
# The label set of a sample

`wireLabels` has its labels in ascending order of names, one a name (`ascending_wireLabels`).
Several keys may have one name on the wire; `Supplies` says which of them the value is taken from,
and `mem_wireLabels_iff` that a sample's own labels go out with these values.
-/

namespace MetricRelay

/-! ## Keeping the first of a name -/

theorem mem_of_mem_firstOfName {l : List Label} {a : Label} (h : a ∈ firstOfName l) : a ∈ l := by
  fun_induction firstOfName l with
  | case1 b c r _ ih =>
    rcases List.mem_cons.1 (ih h) with hb | hr
    · exact hb ▸ List.mem_cons_self
    · exact List.mem_cons_of_mem _ (List.mem_cons_of_mem _ hr)
  | case2 b c r _ ih =>
    rcases List.mem_cons.1 h with hb | hr
    · exact hb ▸ List.mem_cons_self
    · exact List.mem_cons_of_mem _ (ih hr)
  | case3 => exact h

theorem find?_firstOfName (l : List Label) (name : String) :
    (firstOfName l).find? (fun a => a.name = name) = l.find? fun a => a.name = name := by
  fun_induction firstOfName l with
  | case1 b c r hbc ih =>
    rw [ih, List.find?_cons, List.find?_cons, List.find?_cons]
    by_cases hb : b.name = name
    · simp [hb]
    · simp [hb, ← hbc]
  | case2 b c r _ ih => rw [List.find?_cons, List.find?_cons, ih]
  | case3 => rfl

theorem ascending_firstOfName {l : List Label} (h : l.Pairwise fun a b => a.name ≤ b.name) :
    (firstOfName l).Pairwise fun a b => a.name < b.name := by
  fun_induction firstOfName l with
  | case1 b c r _ ih =>
    have ⟨hb, hr⟩ := List.pairwise_cons.1 h
    exact ih (List.pairwise_cons.2
      ⟨fun a ha => hb a (List.mem_cons_of_mem _ ha), (List.pairwise_cons.1 hr).2⟩)
  | case2 b c r hne ih =>
    have ⟨hb, hr⟩ := List.pairwise_cons.1 h
    have hbc : b.name < c.name := Std.lt_of_le_of_ne (hb c List.mem_cons_self) hne
    refine List.pairwise_cons.2 ⟨fun a ha => ?_, ih hr⟩
    rcases List.mem_cons.1 (mem_of_mem_firstOfName ha) with rfl | ha
    · exact hbc
    · exact Std.lt_of_lt_of_le hbc ((List.pairwise_cons.1 hr).1 a ha)
  | case3 l hl =>
    match l, hl with
    | [], _ => exact .nil
    | [a], _ => exact List.pairwise_singleton _ a
    | a :: b :: r, hl => exact (hl a b r rfl).elim

/-! ## One label a name -/

theorem stableOrder_labels (l : List Label) :
    StableOrder (· ≤ ·) Label.name l (l.mergeSort fun a b => decide (a.name ≤ b.name)) :=
  stableOrder_mergeSort (· ≤ ·) (fun _ _ _ => String.le_trans) String.le_total Label.name l

theorem ascending_wireLabels (s : Sample) :
    (wireLabels s).Pairwise fun a b => a.name < b.name :=
  ascending_firstOfName (stableOrder_labels _).ordered

theorem find?_wireLabels (s : Sample) (name : String) :
    (wireLabels s).find? (fun a => a.name = name) =
      (nameLabels s ++ ownLabels s).find? fun a => a.name = name := by
  unfold wireLabels
  rw [find?_firstOfName, (stableOrder_labels _).find?]

theorem mem_iff_find?_of_ascending {l : List Label} (h : l.Pairwise fun a b => a.name < b.name)
    {a : Label} : a ∈ l ↔ l.find? (fun b => b.name = a.name) = some a := by
  refine ⟨fun ha => ?_, List.mem_of_find?_eq_some⟩
  induction l with
  | nil => cases ha
  | cons b r ih =>
    have ⟨hb, hr⟩ := List.pairwise_cons.1 h
    rw [List.find?_cons]
    rcases List.mem_cons.1 ha with rfl | ha
    · simp
    · have hne : b.name ≠ a.name := fun hba => String.lt_irrefl a.name (hba ▸ hb a ha)
      simp only [hne, decide_false]
      exact ih hr ha

theorem mem_wireLabels_iff_find? {s : Sample} {a : Label} :
    a ∈ wireLabels s ↔ (nameLabels s ++ ownLabels s).find? (fun b => b.name = a.name) = some a := by
  rw [mem_iff_find?_of_ascending (ascending_wireLabels s), find?_wireLabels]

/-! ## The key a value is taken from -/

/-- Of the keys that have the name on the wire and a value, `key` is the least, and `value` its
value. -/
structure Supplies (labels : Labels) (name key value : String) : Prop where
  get? : labels.get? key = some value
  value_ne : value ≠ ""
  named : WireName.sanitize key = name
  least : ∀ k v, labels.get? k = some v → v ≠ "" → WireName.sanitize k = name → key ≤ k

section

variable {name : String}

/-- An entry that goes out under the name. -/
def carries (name : String) (e : String × String) : Bool :=
  e.2 ≠ "" && WireName.sanitize e.1 = name

theorem ownLabel?_of_carries (hne : name ≠ "") (hname : name ≠ metricNameLabel)
    {e : String × String} (h : carries name e = true) : ownLabel? e.1 e.2 = some ⟨name, e.2⟩ := by
  simp only [carries, Bool.and_eq_true, decide_eq_true_eq] at h
  unfold ownLabel?
  simp only [h.2]
  rw [if_neg (by simp [hne, h.1, hname])]

theorem ownLabel?_of_not_carries {e : String × String} (h : carries name e = false) :
    ∀ a, ownLabel? e.1 e.2 = some a → a.name ≠ name := by
  intro a ha hname
  unfold ownLabel? at ha
  simp only at ha
  split at ha
  · cases ha
  · next hok =>
    cases ha
    simp_all [carries]

theorem find?_ownLabels (hne : name ≠ "") (hname : name ≠ metricNameLabel)
    (l : List (String × String)) :
    (l.filterMap fun e => ownLabel? e.1 e.2).find? (fun a => a.name = name) =
      (l.find? (carries name)).map fun e => ⟨name, e.2⟩ := by
  induction l with
  | nil => rfl
  | cons e r ih =>
    rw [List.filterMap_cons, List.find?_cons]
    cases hc : carries name e with
    | true =>
      simp only [ownLabel?_of_carries hne hname hc]
      simp
    | false =>
      have hskip := ownLabel?_of_not_carries hc
      cases ho : ownLabel? e.1 e.2 with
      | none => exact ih
      | some a =>
        simp only
        rw [List.find?_cons_of_neg (by simp [hskip a ho]), ih]

/-- In ascending order the first entry of a kind is the one of the least key. -/
theorem find?_eq_some_of_least {l : List (String × String)} (hl : Ascending l)
    {p : String × String → Bool} {e : String × String} (he : e ∈ l) (hp : p e = true)
    (hleast : ∀ f ∈ l, p f = true → e.1 ≤ f.1) : l.find? p = some e := by
  induction l with
  | nil => cases he
  | cons f r ih =>
    have ⟨hf, hr⟩ := List.pairwise_cons.1 hl
    rw [List.find?_cons]
    rcases List.mem_cons.1 he with rfl | he
    · rw [hp]
    · have hpf : p f = false := by
        refine Bool.eq_false_iff.2 fun hpf => ?_
        have hlt := Std.lt_of_lt_of_le (hf e he) (hleast f List.mem_cons_self hpf)
        exact String.lt_irrefl _ hlt
      rw [hpf]
      exact ih hr he fun g hg => hleast g (List.mem_cons_of_mem _ hg)

theorem least_of_find?_eq_some {l : List (String × String)} (hl : Ascending l)
    {p : String × String → Bool} {e : String × String} (h : l.find? p = some e) :
    ∀ f ∈ l, p f = true → e.1 ≤ f.1 := by
  induction l with
  | nil => cases h
  | cons f r ih =>
    have ⟨hf, hr⟩ := List.pairwise_cons.1 hl
    rw [List.find?_cons] at h
    intro g hg hp
    cases hpf : p f with
    | true =>
      rw [hpf] at h
      cases h
      rcases List.mem_cons.1 hg with rfl | hg
      · exact Std.le_refl _
      · exact Std.le_of_lt (hf g hg)
    | false =>
      rw [hpf] at h
      rcases List.mem_cons.1 hg with rfl | hg
      · rw [hp] at hpf
        cases hpf
      · exact ih hr h g hg hp

theorem supplies_iff_find? {labels : Labels} {key value : String} :
    Supplies labels name key value ↔ labels.entries.find? (carries name) = some (key, value) := by
  constructor
  · intro h
    refine find?_eq_some_of_least labels.ascending (Table.mem_of_value? h.get?)
      (by simp [carries, h.value_ne, h.named]) fun f hf hp => ?_
    simp only [carries, Bool.and_eq_true, decide_eq_true_eq] at hp
    exact h.least f.1 f.2 (Table.get?_of_mem hf) hp.1 hp.2
  · intro h
    have hcarries := List.find?_some h
    simp only [carries, Bool.and_eq_true, decide_eq_true_eq] at hcarries
    refine ⟨Table.get?_of_mem (List.mem_of_find?_eq_some h), hcarries.1, hcarries.2, ?_⟩
    intro k v hk hv hname
    exact least_of_find?_eq_some labels.ascending h (k, v) (Table.mem_of_value? hk)
      (by simp [carries, hv, hname])

theorem exists_supplies {labels : Labels} {key value : String} (hget : labels.get? key = some value)
    (hvalue : value ≠ "") : ∃ k v, Supplies labels (WireName.sanitize key) k v := by
  have hsome : (labels.entries.find? (carries (WireName.sanitize key))).isSome = true :=
    List.find?_isSome.2 ⟨(key, value), Table.mem_of_value? hget, by simp [carries, hvalue]⟩
  obtain ⟨e, he⟩ := Option.isSome_iff_exists.1 hsome
  exact ⟨e.1, e.2, supplies_iff_find?.2 he⟩

/-- A key and a value are at most one. -/
theorem Supplies.unique {labels : Labels} {k v k' v' : String} (h : Supplies labels name k v)
    (h' : Supplies labels name k' v') : k = k' ∧ v = v' := by
  have heq := (supplies_iff_find?.1 h).symm.trans (supplies_iff_find?.1 h')
  simpa using heq

theorem mem_nameLabels_iff {s : Sample} {a : Label} :
    a ∈ nameLabels s ↔ a.name = metricNameLabel ∧
      a.value = WireName.metric s.source s.metric ∧ a.value ≠ "" := by
  obtain ⟨n, v⟩ := a
  unfold nameLabels
  simp only
  split
  · next h => simp [h]
  · next h =>
    rw [List.mem_singleton, Label.mk.injEq]
    constructor
    · rintro ⟨rfl, rfl⟩
      exact ⟨rfl, rfl, h⟩
    · rintro ⟨rfl, rfl, -⟩
      exact ⟨rfl, rfl⟩

/-- Under a name that is not the metric's, a sample has the value that its labels supply. -/
theorem mem_wireLabels_iff {s : Sample} {value : String} (hne : name ≠ "")
    (hname : name ≠ metricNameLabel) :
    ⟨name, value⟩ ∈ wireLabels s ↔ ∃ key, Supplies s.labels name key value := by
  have hskip : (nameLabels s).find? (fun a => a.name = name) = none := by
    refine List.find?_eq_none.2 fun a ha => ?_
    rw [(mem_nameLabels_iff.1 ha).1]
    simp [Ne.symm hname]
  rw [mem_wireLabels_iff_find?, List.find?_append]
  simp only
  rw [hskip, Option.none_or, ownLabels, find?_ownLabels hne hname, Option.map_eq_some_iff]
  constructor
  · rintro ⟨e, he, heq⟩
    cases heq
    exact ⟨e.1, supplies_iff_find?.2 he⟩
  · rintro ⟨key, h⟩
    exact ⟨(key, value), supplies_iff_find?.1 h, rfl⟩

end

end MetricRelay
