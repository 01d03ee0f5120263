import MetricRelay.Collector.Config
import MetricRelay.Text.Blank

/-!
# Lists in a configuration

The text of a list is cut at its commas, and each piece loses the blanks around it. `Padded` says how a
list of entries may be written: with blanks around an entry, and with blank pieces anywhere. However it
is written, the same entries are read (`splitEntries_joined`), and what is read of any text is made of
entries only (`isEntry_of_mem`), so that reading undoes joining (`list_inverts_joining`).
-/

namespace MetricRelay

/-! ## Cutting and trimming -/

namespace Text

theorem splitOn_eq (sep : Char) (s : List Char) : splitOn sep s = s.splitOn sep := by
  induction s with
  | nil => rfl
  | cons c r ih =>
    rw [splitOn, ih, List.splitOn_cons_eq_if_modifyHead]
    by_cases h : c = sep
    · simp [h]
    · simp only [h, if_false, beq_iff_eq]
      cases hr : r.splitOn sep with
      | nil => exact absurd hr (List.splitOn_ne_nil sep r)
      | cons piece more => rfl

theorem notMem_of_mem_splitOn {sep : Char} {s piece : List Char} (h : piece ∈ splitOn sep s) :
    sep ∉ piece := by
  induction s generalizing piece with
  | nil => simp_all [splitOn]
  | cons c r ih =>
    rw [splitOn] at h
    by_cases hc : c = sep
    · rw [if_pos hc] at h
      rcases List.mem_cons.1 h with rfl | h
      · exact List.not_mem_nil
      · exact ih h
    · rw [if_neg hc] at h
      cases hr : splitOn sep r with
      | nil =>
        rw [hr] at h
        rw [List.mem_singleton.1 h, List.mem_singleton]
        exact Ne.symm hc
      | cons first more =>
        rw [hr] at h ih
        rcases List.mem_cons.1 h with rfl | h
        · rw [List.mem_cons, not_or]
          exact ⟨Ne.symm hc, ih List.mem_cons_self⟩
        · exact ih (List.mem_cons_of_mem _ h)

/-- There is no blank at either end. -/
structure Trimmed (s : List Char) : Prop where
  first : ∀ c ∈ s.head?, isBlank c = false
  last : ∀ c ∈ s.getLast?, isBlank c = false

theorem trimmed_iff (s : List Char) :
    ((s.head?.all fun c => !isBlank c) = true ∧ (s.getLast?.all fun c => !isBlank c) = true) ↔
      Trimmed s := by
  simp only [Option.all_eq_true, Bool.not_eq_true']
  exact ⟨fun h => ⟨h.1, h.2⟩, fun h => ⟨h.first, h.last⟩⟩

instance (s : List Char) : Decidable (Trimmed s) := decidable_of_iff _ (trimmed_iff s)

theorem trimLeft_of_first {s : List Char} (h : ∀ c ∈ s.head?, isBlank c = false) :
    trimLeft s = s := by
  cases s with
  | nil => rfl
  | cons c r => exact List.dropWhile_cons_of_neg (by simpa using h c rfl)

/-- Blanks around a text that has none at its ends are taken off, and nothing else is. -/
theorem trim_padded {left s right : List Char} (hleft : ∀ c ∈ left, isBlank c = true)
    (hs : Trimmed s) (hright : ∀ c ∈ right, isBlank c = true) :
    trim (left ++ s ++ right) = s := by
  have hmid : trimLeft (s ++ right) = if s = [] then [] else s ++ right := by
    split
    · next hnil =>
      rw [hnil, List.nil_append]
      have hall : (right ++ []).dropWhile isBlank = [] := List.dropWhile_append_of_pos hright
      rwa [List.append_nil] at hall
    · next hne =>
      obtain ⟨c, r, rfl⟩ := List.exists_cons_of_ne_nil hne
      exact trimLeft_of_first hs.first
  rw [trim, List.append_assoc, trimLeft, List.dropWhile_append_of_pos hleft, ← trimLeft, hmid]
  split
  · next hnil => rw [hnil]; rfl
  · rw [trimRight, List.reverse_append,
      List.dropWhile_append_of_pos (fun c hc => hright c (List.mem_reverse.1 hc)), ← trimLeft,
      trimLeft_of_first (by rw [List.head?_reverse]; exact hs.last), List.reverse_reverse]

theorem first_trimLeft (s : List Char) : ∀ c ∈ (trimLeft s).head?, isBlank c = false := by
  intro c hc
  have hnot := List.head?_dropWhile_not isBlank s
  rw [← trimLeft, Option.mem_def.1 hc] at hnot
  exact hnot

theorem trimRight_isPrefix (s : List Char) : trimRight s <+: s := by
  rw [← List.reverse_suffix, trimRight, List.reverse_reverse]
  exact List.dropWhile_suffix _

theorem trimmed_trim (s : List Char) : Trimmed (trim s) where
  first c hc := by
    obtain ⟨rest, hrest⟩ := trimRight_isPrefix (trimLeft s)
    refine first_trimLeft s c ?_
    have hc : (trimRight (trimLeft s)).head? = some c := hc
    rw [← hrest, List.head?_append, hc]
    rfl
  last := by
    rw [trim, trimRight, List.getLast?_reverse]
    exact first_trimLeft _

theorem mem_of_mem_trim {c : Char} {s : List Char} (h : c ∈ trim s) : c ∈ s :=
  (List.dropWhile_sublist _).mem ((trimRight_isPrefix _).subset h)

end Text

namespace ConfigMap

/-! ## Entries and how they are written -/

/-- What a list may contain. -/
structure IsEntry (s : String) : Prop where
  nonempty : s ≠ ""
  noComma : ',' ∉ s.toList
  trimmed : Text.Trimmed s.toList

instance (s : String) : Decidable (IsEntry s) :=
  decidable_of_iff (s ≠ "" ∧ ',' ∉ s.toList ∧ Text.Trimmed s.toList)
    ⟨fun h => ⟨h.1, h.2.1, h.2.2⟩, fun h => ⟨h.nonempty, h.noComma, h.trimmed⟩⟩

def IsBlank (s : String) : Prop := ∀ c ∈ s.toList, Text.isBlank c = true

instance (s : String) : Decidable (IsBlank s) :=
  decidable_of_iff (s.toList.all Text.isBlank = true) List.all_eq_true

/-- The pieces between commas that stand for a list of entries. -/
inductive Padded : List String → List String → Prop where
  | nil : Padded [] []
  | blank {piece : String} {pieces entries : List String} :
      IsBlank piece → Padded pieces entries → Padded (piece :: pieces) entries
  | entry (left entry right : String) {pieces entries : List String} :
      IsBlank left → IsEntry entry → IsBlank right → Padded pieces entries →
      Padded ((left ++ entry ++ right) :: pieces) (entry :: entries)

variable {pieces entries : List String} {v : String}

theorem padded_self (h : ∀ e ∈ entries, IsEntry e) : Padded entries entries := by
  induction entries with
  | nil => exact .nil
  | cons e r ih =>
    have hnone : IsBlank "" := by decide +kernel
    obtain ⟨he, hr⟩ := List.forall_mem_cons.1 h
    simpa using Padded.entry "" e "" hnone he hnone (ih hr)

theorem IsBlank.noComma (h : IsBlank v) : ',' ∉ v.toList :=
  fun hmem => absurd (h _ hmem) (by decide +kernel)

theorem Padded.noComma (h : Padded pieces entries) : ∀ l ∈ pieces.map String.toList, ',' ∉ l := by
  induction h with
  | nil => simp
  | blank hb _ ih => exact List.forall_mem_cons.2 ⟨hb.noComma, ih⟩
  | entry left e right hl he hr _ ih =>
    refine List.forall_mem_cons.2 ⟨?_, ih⟩
    simp [hl.noComma, he.noComma, hr.noComma]

/-- Each piece is an entry with blanks around it, or is dropped. -/
theorem Padded.trimmed (h : Padded pieces entries) :
    (((pieces.map String.toList).map Text.trim).filter (· ≠ [])).map String.ofList = entries := by
  induction h with
  | nil => rfl
  | @blank piece _ _ hb _ ih =>
    have hnone : Text.trim piece.toList = [] := by
      have hpadded : Text.trim (piece.toList ++ [] ++ []) = [] :=
        Text.trim_padded hb (by decide +kernel) (List.forall_mem_nil _)
      rwa [List.append_nil, List.append_nil] at hpadded
    simpa [hnone] using ih
  | entry left e right hl he hr _ ih =>
    have hsome : Text.trim (left ++ e ++ right).toList = e.toList := by
      rw [String.toList_append, String.toList_append, Text.trim_padded hl he.trimmed hr]
    have hne : e.toList ≠ [] := by simpa using he.nonempty
    rw [List.map_cons, List.map_cons, hsome, List.filter_cons_of_pos (by simpa using hne),
      List.map_cons, ih, String.ofList_toList]

/-- However the entries are written, they are read as they are. -/
theorem splitEntries_joined (h : Padded pieces entries) :
    splitEntries (String.intercalate "," pieces) = entries := by
  rw [splitEntries, Text.splitOn_eq, String.toList_intercalate]
  cases pieces with
  | nil =>
    cases h
    rfl
  | cons piece more =>
    rw [show ",".toList = [','] from rfl, List.splitOn_intercalate ',' h.noComma (by simp)]
    exact h.trimmed

theorem isEntry_of_mem {e : String} (h : e ∈ splitEntries v) : IsEntry e := by
  rw [splitEntries, List.mem_map] at h
  obtain ⟨_, h, rfl⟩ := h
  rw [List.mem_filter, List.mem_map] at h
  obtain ⟨⟨piece, hpiece, rfl⟩, hne⟩ := h
  refine ⟨by simpa using hne, fun hmem => ?_, ?_⟩
  · rw [String.toList_ofList] at hmem
    exact Text.notMem_of_mem_splitOn hpiece (Text.mem_of_mem_trim hmem)
  · rw [String.toList_ofList]
    exact Text.trimmed_trim piece

theorem list_of_text {c : ConfigMap} {key : String} (h : c.texts.get? key = some v) :
    c.list key = splitEntries v := by
  rw [list, get?, h]
  by_cases hv : v = ""
  · rw [hv]
    rfl
  · rw [Option.filter_some_pos (by simpa using hv)]

/-- A list of entries is read from its text however it is written. What is read for a key is a list of
entries, and it is read again from these joined by commas. -/
theorem list_inverts_joining (c : ConfigMap) (key : String) :
    (∀ pieces entries, Padded pieces entries →
      c.texts.get? key = some (String.intercalate "," pieces) → c.list key = entries) ∧
    (∀ e ∈ c.list key, IsEntry e) ∧
    ∀ d : ConfigMap, d.texts.get? key = some (String.intercalate "," (c.list key)) →
      d.list key = c.list key := by
  have hentries : ∀ e ∈ c.list key, IsEntry e := by
    intro e he
    rw [list] at he
    split at he
    · exact isEntry_of_mem he
    · cases he
  refine ⟨fun pieces entries hp htext => ?_, hentries, fun d hd => ?_⟩
  · rw [list_of_text htext, splitEntries_joined hp]
  · rw [list_of_text hd, splitEntries_joined (padded_self hentries)]

/-- The pieces of a text with blanks of several kinds, also within an entry and in pieces of their own. -/
def spacedHosts : List String := ["\u3000a", "", " b c\t", "\u00a0\u2009", "d"]

theorem padded_spacedHosts : Padded spacedHosts ["a", "b c", "d"] := by
  have hblank : IsBlank "" ∧ IsBlank " " ∧ IsBlank "\t" ∧ IsBlank "\u3000" ∧ IsBlank "\u00a0\u2009" := by
    decide +kernel
  obtain ⟨hnone, hspace, htab, hwide, hpiece⟩ := hblank
  have hentry : IsEntry "a" ∧ IsEntry "b c" ∧ IsEntry "d" := by decide +kernel
  have hlast : Padded ["\u00a0\u2009", "d"] ["d"] :=
    .blank hpiece (.entry "" "d" "" hnone hentry.2.2 hnone .nil)
  have hmore : Padded ["", " b c\t", "\u00a0\u2009", "d"] ["b c", "d"] :=
    .blank hnone (.entry " " "b c" "\t" hspace hentry.2.1 htab hlast)
  exact .entry "\u3000" "a" "" hwide hentry.1 hnone hmore

theorem spacedHosts_listed :
    Padded spacedHosts ["a", "b c", "d"] ∧
    (⟨Table.empty.insert "hosts" "\u3000a,, b c\t,\u00a0\u2009,d"⟩ : ConfigMap).list "hosts" =
      ["a", "b c", "d"] ∧
    (⟨Table.empty.insert "hosts" "a,b c,d"⟩ : ConfigMap).list "hosts" = ["a", "b c", "d"] := by
  obtain ⟨hread, -, hagain⟩ := list_inverts_joining
    ⟨Table.empty.insert "hosts" "\u3000a,, b c\t,\u00a0\u2009,d"⟩ "hosts"
  have hlist := hread _ _ padded_spacedHosts (by decide +kernel)
  refine ⟨padded_spacedHosts, hlist, ?_⟩
  rw [hagain _ (by rw [hlist]; decide +kernel), hlist]

end ConfigMap

end MetricRelay
