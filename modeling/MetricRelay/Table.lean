/-!
# Tables

A `Table α` maps names to values and keeps its entries in ascending order of the names, so that
equal tables have equal entries. `get?_insert`, `get?_erase` and `get?_fill` say what each
operation does to the view `get?`; `ext_get?` says that the view determines the table.
-/

namespace MetricRelay

/-- Entries in strictly ascending order of their names. -/
def Ascending {α : Type} (l : List (String × α)) : Prop := l.Pairwise fun a b => a.1 < b.1

structure Table (α : Type) where
  entries : List (String × α)
  ascending : Ascending entries

namespace Table

variable {α : Type}

instance [DecidableEq α] : DecidableEq (Table α) := fun s t =>
  if h : s.entries = t.entries then
    isTrue (by cases s; cases t; simp_all)
  else isFalse fun e => h (by rw [e])

def empty : Table α := ⟨[], .nil⟩

instance : Inhabited (Table α) := ⟨empty⟩

/-! ## Operations on entries -/

/-- The value of the first entry under a name. -/
def value? (k : String) : List (String × α) → Option α
  | [] => none
  | (j, v) :: r => if k = j then some v else value? k r

def put (k : String) (v : α) : List (String × α) → List (String × α)
  | [] => [(k, v)]
  | (j, w) :: r =>
    if k < j then (k, v) :: (j, w) :: r
    else if k = j then (k, v) :: r
    else (j, w) :: put k v r

theorem mem_put {k : String} {v : α} {l : List (String × α)} {e : String × α}
    (h : e ∈ put k v l) : e = (k, v) ∨ e ∈ l := by
  induction l with
  | nil => simpa [put] using h
  | cons a r ih =>
    obtain ⟨j, w⟩ := a
    rw [put] at h
    split at h
    · simpa using h
    · split at h
      · rcases List.mem_cons.1 h with h | h
        · exact .inl h
        · exact .inr (List.mem_cons_of_mem _ h)
      · rcases List.mem_cons.1 h with h | h
        · exact .inr (h ▸ List.mem_cons_self)
        · exact (ih h).imp_right (List.mem_cons_of_mem _)

theorem lt_of_not_lt_of_ne {a b : String} (h : ¬a < b) (hne : a ≠ b) : b < a :=
  Decidable.byContradiction fun h' => hne (String.le_antisymm (String.not_lt.1 h') (String.not_lt.1 h))

theorem ascending_put {k : String} {v : α} {l : List (String × α)} (h : Ascending l) :
    Ascending (put k v l) := by
  induction l with
  | nil => exact List.pairwise_singleton _ _
  | cons a r ih =>
    obtain ⟨j, w⟩ := a
    have ⟨hj, hr⟩ := List.pairwise_cons.1 h
    rw [put]
    split
    · next hk =>
      refine List.pairwise_cons.2 ⟨fun e he => ?_, h⟩
      rcases List.mem_cons.1 he with rfl | he
      · exact hk
      · exact String.lt_trans hk (hj e he)
    · next hk =>
      split
      · next he => subst he; exact List.pairwise_cons.2 ⟨hj, hr⟩
      · next hne =>
        refine List.pairwise_cons.2 ⟨fun e he => ?_, ih hr⟩
        rcases mem_put he with rfl | he
        · exact lt_of_not_lt_of_ne hk hne
        · exact hj e he

theorem value?_put (k j : String) (v : α) (l : List (String × α)) :
    value? j (put k v l) = if j = k then some v else value? j l := by
  induction l with
  | nil => rfl
  | cons a r ih =>
    obtain ⟨i, w⟩ := a
    rw [put]
    split
    · rfl
    · split
      · next he => subst he; by_cases h : j = k <;> simp [value?, h]
      · next hne =>
        rw [value?, ih, value?]
        by_cases hi : j = i
        · subst hi; simp [Ne.symm hne]
        · simp [hi]

theorem value?_filter_ne (k j : String) (l : List (String × α)) :
    value? j (l.filter fun e => e.1 ≠ k) = if j = k then none else value? j l := by
  induction l with
  | nil => simp [value?]
  | cons a r ih =>
    obtain ⟨i, w⟩ := a
    by_cases hi : i = k
    · subst hi
      rw [List.filter_cons_of_neg (by simp), ih]
      by_cases hj : j = i <;> simp [value?, hj]
    · rw [List.filter_cons_of_pos (by simpa using hi), value?, ih, value?]
      by_cases hj : j = i
      · subst hj; simp [hi]
      · simp [hj]

/-! ## The table -/

def get? (t : Table α) (k : String) : Option α := value? k t.entries

def contains (t : Table α) (k : String) : Bool := (t.get? k).isSome

/-- The names, ascending. -/
def keys (t : Table α) : List String := t.entries.map Prod.fst

def size (t : Table α) : Nat := t.entries.length

/-- Adds an entry or replaces the one of that name. -/
def insert (t : Table α) (k : String) (v : α) : Table α :=
  ⟨put k v t.entries, ascending_put t.ascending⟩

def erase (t : Table α) (k : String) : Table α :=
  ⟨t.entries.filter fun e => e.1 ≠ k, t.ascending.filter _⟩

/-- A later entry replaces an earlier one of its name. -/
def ofList (l : List (String × α)) : Table α := l.foldl (fun t e => t.insert e.1 e.2) empty

/-- Adds the entry unless the name has one. -/
def insertNew (t : Table α) (k : String) (v : α) : Table α :=
  if t.contains k then t else t.insert k v

/-- Adds what `layer` has under names that `t` lacks. -/
def fill (t layer : Table α) : Table α := layer.entries.foldl (fun t e => t.insertNew e.1 e.2) t

/-- Changes the value of a name, if it has one. -/
def modify (t : Table α) (k : String) (f : α → α) : Table α :=
  match t.get? k with
  | some v => t.insert k (f v)
  | none => t

theorem ascending_map {β : Type} (f : α → β) {l : List (String × α)} (h : Ascending l) :
    Ascending (l.map fun e => (e.1, f e.2)) :=
  List.pairwise_map.2 (h.imp fun h => h)

/-- Changes every value. -/
def map {β : Type} (t : Table α) (f : α → β) : Table β :=
  ⟨t.entries.map fun e => (e.1, f e.2), ascending_map f t.ascending⟩

@[simp] theorem get?_empty (k : String) : (empty : Table α).get? k = none := rfl

theorem get?_insert (t : Table α) (k j : String) (v : α) :
    (t.insert k v).get? j = if j = k then some v else t.get? j :=
  value?_put k j v t.entries

@[simp] theorem get?_insert_self (t : Table α) (k : String) (v : α) :
    (t.insert k v).get? k = some v := by simp [get?_insert]

theorem get?_erase (t : Table α) (k j : String) :
    (t.erase k).get? j = if j = k then none else t.get? j :=
  value?_filter_ne k j t.entries

@[simp] theorem get?_erase_self (t : Table α) (k : String) : (t.erase k).get? k = none := by
  simp [get?_erase]

theorem get?_modify (t : Table α) (k j : String) (f : α → α) :
    (t.modify k f).get? j = if j = k then (t.get? j).map f else t.get? j := by
  unfold modify
  by_cases hj : j = k
  · subst hj
    cases h : t.get? j with
    | some v => simp
    | none => simp [h]
  · rw [if_neg hj]
    split
    · rw [get?_insert, if_neg hj]
    · rfl

theorem get?_insertNew (t : Table α) (k j : String) (v : α) :
    (t.insertNew k v).get? j = if j = k then some ((t.get? k).getD v) else t.get? j := by
  unfold insertNew contains
  cases h : t.get? k with
  | none => simp [get?_insert]
  | some w => by_cases hj : j = k <;> simp_all

theorem value?_map {β : Type} (f : α → β) (l : List (String × α)) (k : String) :
    value? k (l.map fun e => (e.1, f e.2)) = (value? k l).map f := by
  induction l with
  | nil => rfl
  | cons a r ih =>
    rw [List.map_cons, value?, value?]
    split <;> simp [ih]

@[simp] theorem get?_map {β : Type} (t : Table α) (f : α → β) (k : String) :
    (t.map f).get? k = (t.get? k).map f :=
  value?_map f t.entries k

/-! ## The view determines the table -/

theorem value?_eq_none_of_lt {l : List (String × α)} {k : String} (h : ∀ e ∈ l, k < e.1) :
    value? k l = none := by
  induction l with
  | nil => rfl
  | cons a r ih =>
    have hne : k ≠ a.1 := fun hk => String.lt_irrefl a.1 (hk ▸ h a List.mem_cons_self)
    rw [value?, if_neg hne]
    exact ih fun e he => h e (List.mem_cons_of_mem _ he)

theorem entries_eq {l m : List (String × α)} (hl : Ascending l) (hm : Ascending m)
    (h : ∀ k, value? k l = value? k m) : l = m := by
  induction l generalizing m with
  | nil =>
    cases m with
    | nil => rfl
    | cons b s => simpa [value?] using h b.1
  | cons a r ih =>
    cases m with
    | nil => simpa [value?] using h a.1
    | cons b s =>
      obtain ⟨k, v⟩ := a
      obtain ⟨j, w⟩ := b
      have ⟨hk, hr⟩ := List.pairwise_cons.1 hl
      have ⟨hj, hs⟩ := List.pairwise_cons.1 hm
      have hkj : k = j := by
        refine Decidable.byContradiction fun hne => ?_
        by_cases hlt : k < j
        · have := h k
          simp [value?, hne, value?_eq_none_of_lt fun e he => String.lt_trans hlt (hj e he)] at this
        · have hlt := lt_of_not_lt_of_ne hlt hne
          have := h j
          simp [value?, Ne.symm hne,
            value?_eq_none_of_lt fun e he => String.lt_trans hlt (hk e he)] at this
      subst hkj
      have hv : v = w := by simpa [value?] using h k
      subst hv
      congr 1
      refine ih hr hs fun i => ?_
      by_cases hi : i = k
      · subst hi; rw [value?_eq_none_of_lt hk, value?_eq_none_of_lt hj]
      · simpa [value?, hi] using h i

theorem ext_get? {s t : Table α} (h : ∀ k, s.get? k = t.get? k) : s = t := by
  obtain ⟨l, hl⟩ := s
  obtain ⟨m, hm⟩ := t
  have := entries_eq hl hm h
  subst this
  rfl

theorem insert_of_get? {t : Table α} {k : String} {v : α} (h : t.get? k = some v) :
    t.insert k v = t := by
  refine ext_get? fun j => ?_
  rw [get?_insert]
  split
  · next hj => rw [hj, h]
  · rfl

@[simp] theorem insert_insert (t : Table α) (k : String) (v w : α) :
    (t.insert k v).insert k w = t.insert k w := by
  refine ext_get? fun j => ?_
  rw [get?_insert, get?_insert, get?_insert]
  split <;> rfl

/-! ## Entry by entry -/

theorem value?_of_mem {l : List (String × α)} (hl : Ascending l) {e : String × α} (he : e ∈ l) :
    value? e.1 l = some e.2 := by
  induction l with
  | nil => cases he
  | cons a r ih =>
    have ⟨ha, hr⟩ := List.pairwise_cons.1 hl
    rcases List.mem_cons.1 he with rfl | he
    · rw [value?, if_pos rfl]
    · have hne : e.1 ≠ a.1 := fun h => String.lt_irrefl a.1 (h ▸ ha e he)
      rw [value?, if_neg hne]
      exact ih hr he

theorem get?_of_mem {t : Table α} {e : String × α} (h : e ∈ t.entries) : t.get? e.1 = some e.2 :=
  value?_of_mem t.ascending h

theorem mem_of_value? {l : List (String × α)} {k : String} {v : α} (h : value? k l = some v) :
    (k, v) ∈ l := by
  induction l with
  | nil => cases h
  | cons a r ih =>
    rw [value?] at h
    split at h
    · next hk => cases h; exact hk ▸ List.mem_cons_self
    · exact List.mem_cons_of_mem _ (ih h)

theorem mem_keys_of_get? {t : Table α} {k : String} {v : α} (h : t.get? k = some v) : k ∈ t.keys :=
  List.mem_map.2 ⟨(k, v), mem_of_value? h, rfl⟩

theorem nodup_keys (t : Table α) : t.keys.Nodup := by
  refine List.pairwise_map.2 (t.ascending.imp ?_)
  intro a b h heq
  exact String.lt_irrefl b.1 (heq ▸ h)

theorem get?_foldl_insert (f : α → α) {l : List (String × α)} (hl : Ascending l) (t : Table α)
    (k : String) :
    (l.foldl (fun t e => t.insert e.1 (f e.2)) t).get? k =
      ((value? k l).map f).or (t.get? k) := by
  induction l generalizing t with
  | nil => rfl
  | cons a r ih =>
    have ⟨ha, hr⟩ := List.pairwise_cons.1 hl
    rw [List.foldl_cons, ih hr, get?_insert, value?]
    by_cases h : k = a.1
    · subst h
      rw [value?_eq_none_of_lt ha, if_pos rfl, if_pos rfl]
      rfl
    · rw [if_neg h, if_neg h]

/-- Changing every value is changing one after the other. -/
theorem foldl_insert_entries (t : Table α) (f : α → α) :
    t.entries.foldl (fun s e => s.insert e.1 (f e.2)) t = t.map f := by
  refine ext_get? fun k => ?_
  rw [get?_foldl_insert f t.ascending, get?_map]
  unfold get?
  cases value? k t.entries <;> rfl

/-! ## Filling -/

theorem get?_foldl_insertNew {l : List (String × α)} (t : Table α) (k : String) :
    (l.foldl (fun t e => t.insertNew e.1 e.2) t).get? k = (t.get? k).or (value? k l) := by
  induction l generalizing t with
  | nil => simp [value?]
  | cons a r ih =>
    rw [List.foldl_cons, ih, get?_insertNew, value?]
    by_cases h : k = a.1
    · subst h; cases t.get? a.1 <;> simp
    · simp [h]

/-- A filled table has its own value where it had one, else the layer's. -/
theorem get?_fill (t layer : Table α) (k : String) :
    (t.fill layer).get? k = (t.get? k).or (layer.get? k) :=
  get?_foldl_insertNew t k

end Table

end MetricRelay
