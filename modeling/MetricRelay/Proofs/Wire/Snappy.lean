import MetricRelay.Proofs.Wire.Varint
import MetricRelay.Wire.Snappy

/-!
# Blocks read back

There is a block for every content that `fits`. It decompresses to its content if that is so for the way
in which contents are packed (`Undone`), as it is for literals (`undone_literalBlock`).
-/

namespace MetricRelay.Wire.Snappy

/-- One literal, and what follows it. -/
theorem readElement?_literal {b : Bytes} (hne : b ≠ []) (hlimit : b.length ≤ literalLimit)
    (rest : Bytes) :
    ∃ tag r, literal b ++ rest = tag :: r ∧
      readElement? tag.toNat r = some (.literal b, rest) := by
  have hpos : 0 < b.length := List.length_pos_iff.2 hne
  have hlength : b.length - 1 + 1 = b.length := by omega
  have hread : readLiteral? (b.length - 1 + 1) (b ++ rest) = some (.literal b, rest) := by
    have hall : b.length ≤ (b ++ rest).length := by simp
    rw [hlength, readLiteral?, if_pos hall, List.take_left, List.drop_left]
  unfold literal
  simp only
  split
  · next hshort =>
    have hbyte := toNat_byte (n := (b.length - 1) * 4) (by omega)
    have hkind : (b.length - 1) * 4 % 4 = 0 := by omega
    have hupper : (b.length - 1) * 4 / 4 = b.length - 1 := by omega
    refine ⟨_, b ++ rest, rfl, ?_⟩
    unfold readElement?
    simp only [hbyte, hkind, hupper, if_pos hshort, hread]
  · next hlong =>
    have hsize : b.length - 1 < 256 ^ 2 := by
      unfold literalLimit at hlimit
      omega
    have hword := readLittleEndian?_littleEndian hsize (b ++ rest)
    refine ⟨244, littleEndian 2 (b.length - 1) ++ (b ++ rest), by simp, ?_⟩
    unfold readElement?
    simp [hword, hread]

/-- The content of literals is their bytes; the induction is on the literals that are left. -/
theorem readElements?_literals (b : Bytes) :
    ∀ limit out, (literals b).length ≤ limit →
      readElements? limit out (literals b) = some (b.reverse ++ out) := by
  fun_induction literals b with
  | case1 =>
    intro limit out _
    simp [readElements?]
  | case2 b hne ih =>
    intro limit out hlimit
    have hfirst : b.take literalLimit ≠ [] := by
      simp [literalLimit, hne]
    have hshort : (b.take literalLimit).length ≤ literalLimit := List.length_take_le ..
    obtain ⟨tag, r, heq, hread⟩ :=
      readElement?_literal hfirst hshort (literals (b.drop literalLimit))
    have hrest : (literals (b.drop literalLimit)).length + 1 ≤ limit := by
      have hpos : 0 < (literal (b.take literalLimit)).length := by
        unfold literal
        simp only
        split <;> simp
      rw [List.length_append] at hlimit
      omega
    obtain ⟨limit, rfl⟩ := Nat.exists_eq_add_of_le' (Nat.le_of_add_left_le hrest)
    rw [heq, readElements?, hread]
    simp only [Option.bind_eq_bind, Option.bind_some, emit?]
    rw [ih limit _ (by omega), ← List.append_assoc, ← List.reverse_append, List.take_append_drop]

theorem lt_of_fits {size : Nat} (h : fits size = true) : size < UInt32.size := by
  unfold fits at h
  have := of_decide_eq_true h
  omega

variable {pack : Bytes → Bytes} {b block : Bytes}

theorem compress_of_fits (h : fits b.length = true) : compress pack b = .ok (pack b) := if_pos h

theorem fits_of_compress (h : compress pack b = .ok block) : fits b.length = true := by
  unfold compress at h
  split at h
  · next hfits => exact hfits
  · cases h

/-- Decompressing undoes this way to pack contents, if they fit. -/
def Undone (pack : Bytes → Bytes) : Prop :=
  ∀ b, fits b.length = true → decompress? (pack b) = some b

theorem Undone.decompress?_of_compress (hpack : Undone pack) (h : compress pack b = .ok block) :
    decompress? block = some b := by
  have hfits := fits_of_compress h
  rw [compress_of_fits hfits] at h
  cases h
  exact hpack b hfits

theorem undone_literalBlock : Undone literalBlock := by
  intro b hfits
  have hsize : b.length < 128 ^ 5 := Nat.lt_trans (lt_of_fits hfits) (by decide)
  unfold decompress? literalBlock
  rw [readVarint?_varint hsize]
  simp only [Option.bind_eq_bind, Option.bind_some, readElements?_literals b _ _ (Nat.le_refl _)]
  simp

end MetricRelay.Wire.Snappy
