import MetricRelay.Proofs.Text.ByteOrder

/-!
# Texts cut to a number of bytes

`LongestStart` says which start of a text is kept if it may have no more than some number of bytes.
A text has one such start, and `truncate?` cuts there (`truncate?_eq_some_iff`): the start of the text
is a boundary, so that the way back ends at one (`exists_boundary?`), and up to a boundary the bytes are
whole characters (`firstBytes?_append`).
-/

namespace MetricRelay.Text

theorem length_encode (s : String) : (encode s).length = s.utf8ByteSize := by
  rw [encode, Array.length_toList]
  exact s.size_toByteArray

theorem encode_append (s t : String) : encode (s ++ t) = encode s ++ encode t := by
  rw [encode_eq_flatMap, encode_eq_flatMap, encode_eq_flatMap, String.toList_append,
    List.flatMap_append]

/-! ## Boundaries -/

/-- A text can be cut just where it is two texts, one behind the other. -/
theorem isBoundary_iff {s : String} {cut : Nat} :
    isBoundary s cut = true ↔ ∃ t rest, s = t ++ rest ∧ t.utf8ByteSize = cut := by
  rw [isBoundary, String.Pos.Raw.isValid_eq_true_iff, String.Pos.Raw.isValid_iff_exists_append]
  refine exists_congr fun t => exists_congr fun rest => and_congr_right fun _ => ?_
  rw [String.Pos.Raw.ext_iff, String.byteIdx_rawEndPos, eq_comm]

theorem isBoundary_zero (s : String) : isBoundary s 0 = true :=
  isBoundary_iff.2 ⟨"", s, by simp, rfl⟩

/-- The way back ends at the last boundary, at the latest at the start. -/
theorem exists_boundary? (s : String) (max : Nat) :
    ∃ cut, boundary? s max = some cut ∧ isBoundary s cut = true ∧ cut ≤ max ∧
      ∀ n ≤ max, isBoundary s n = true → n ≤ cut := by
  induction max with
  | zero =>
    -- the test at the start cannot fail, so that there is no step before it
    exact ⟨0, if_pos (isBoundary_zero s), isBoundary_zero s, Nat.le_refl 0, fun n hn _ => hn⟩
  | succ max ih =>
    rw [boundary?]
    split
    · next h => exact ⟨max + 1, rfl, h, Nat.le_refl _, fun n hn _ => hn⟩
    · next h =>
      obtain ⟨cut, hcut, hboundary, hle, hlast⟩ := ih
      refine ⟨cut, hcut, hboundary, Nat.le_succ_of_le hle, fun n hn hn' => hlast n ?_ hn'⟩
      have hne : n ≠ max + 1 := by
        rintro rfl
        exact h hn'
      omega

/-- Up to a boundary there are whole characters. -/
theorem firstBytes?_append (t rest : String) : firstBytes? (t ++ rest) t.utf8ByteSize = some t := by
  rw [firstBytes?, encode_append, ← length_encode t, List.take_left, decode?_encode]

/-! ## The longest start -/

/-- `t` is the longest start of `s` that has at most `max` bytes. -/
structure LongestStart (s : String) (max : Nat) (t : String) : Prop where
  start : ∃ rest, s = t ++ rest
  size_le : t.utf8ByteSize ≤ max
  longest : ∀ u rest, s = u ++ rest → u.utf8ByteSize ≤ max → u.utf8ByteSize ≤ t.utf8ByteSize

variable {s t u : String} {max : Nat}

theorem LongestStart.unique (h : LongestStart s max t) (h' : LongestStart s max u) : t = u := by
  obtain ⟨rest, hrest⟩ := h.start
  obtain ⟨rest', hrest'⟩ := h'.start
  have hsize : t.utf8ByteSize = u.utf8ByteSize :=
    Nat.le_antisymm (h'.longest t rest hrest h.size_le) (h.longest u rest' hrest' h'.size_le)
  apply Option.some.inj
  rw [← firstBytes?_append t rest, ← firstBytes?_append u rest', ← hrest, ← hrest', hsize]

/-- A text that fits is kept as a whole. -/
theorem longestStart_self (h : s.utf8ByteSize ≤ max) : LongestStart s max s where
  start := ⟨"", by simp⟩
  size_le := h
  longest u rest hu _ := by
    rw [hu, String.utf8ByteSize_append]
    exact Nat.le_add_right _ _

theorem exists_truncate? (s : String) (max : Nat) :
    ∃ t, truncate? s max = some t ∧ LongestStart s max t := by
  unfold truncate?
  split
  · obtain ⟨cut, hcut, hboundary, hle, hlast⟩ := exists_boundary? s max
    obtain ⟨t, rest, rfl, rfl⟩ := isBoundary_iff.1 hboundary
    refine ⟨t, ?_, ⟨rest, rfl⟩, hle, fun u rest' hu hsize => ?_⟩
    · rw [hcut, Option.bind_some, firstBytes?_append]
    · exact hlast _ hsize (isBoundary_iff.2 ⟨u, rest', hu, rfl⟩)
  · next hfits => exact ⟨s, rfl, longestStart_self (Nat.not_lt.1 hfits)⟩

theorem truncate?_eq_some_iff : truncate? s max = some t ↔ LongestStart s max t := by
  obtain ⟨u, hu, hlongest⟩ := exists_truncate? s max
  rw [hu, Option.some_inj]
  constructor
  · rintro rfl
    exact hlongest
  · exact hlongest.unique

theorem truncate?_eq_some (s : String) (max : Nat) : truncate? s max = some (truncate s max) := by
  obtain ⟨t, ht, -⟩ := exists_truncate? s max
  rw [truncate, ht, Option.getD_some]

theorem longestStart_truncate (s : String) (max : Nat) : LongestStart s max (truncate s max) :=
  truncate?_eq_some_iff.1 (truncate?_eq_some s max)

/-- The third byte is in the middle of a character. -/
example : truncate "ééé" 3 = "é" := by decide +kernel

end MetricRelay.Text
