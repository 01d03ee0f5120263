import Mathlib.Tactic.SplitIfs
import MetricRelay.Text.Utf8

/-!
# The order of texts by bytes

Texts are ordered by their characters. That is also the order of their bytes
(`encode_lt_encode_iff`): a character of more bytes has the greater first byte, and of two that have
as many the first byte that differs decides (`utf8EncodeChar_append_lt`).
-/

namespace MetricRelay.Text

theorem val_lt (c : Char) : c.val.toNat < 0x110000 := by
  have h := c.valid
  simp only [UInt32.isValidChar, Nat.isValidChar] at h
  omega

/-- The greater character has the greater bytes, whatever follows the two. -/
theorem utf8EncodeChar_append_lt {c d : Char} (h : c < d) (r t : Bytes) :
    String.utf8EncodeChar c ++ r < String.utf8EncodeChar d ++ t := by
  have hlt : c.val.toNat < d.val.toNat := UInt32.lt_iff_toNat_lt.1 (Char.lt_def.1 h)
  have hmax := val_lt d
  have hquot (k : Nat) : k / 4096 = k / 64 / 64 ∧ k / 262144 = k / 64 / 64 / 64 := by omega
  unfold String.utf8EncodeChar
  simp only [(hquot _).1, (hquot _).2]
  -- One case for each pair of lengths. Each byte has six bits more than the quotient before it.
  split_ifs
  all_goals
    simp only [List.cons_append, List.nil_append, List.cons_lt_cons_iff, UInt8.lt_iff_toNat_lt,
      ← UInt8.toNat_inj, UInt8.toNat_ofNat']
    omega

theorem flatMap_utf8EncodeChar_lt {l m : List Char} (h : l < m) :
    l.flatMap String.utf8EncodeChar < m.flatMap String.utf8EncodeChar := by
  induction l generalizing m with
  | nil =>
    cases m with
    | nil => exact absurd h (List.lt_irrefl [])
    | cons d m =>
      obtain ⟨b, r, hd⟩ := List.exists_cons_of_ne_nil (String.utf8EncodeChar_ne_nil (c := d))
      rw [List.flatMap_nil, List.flatMap_cons, hd, List.cons_append]
      exact List.nil_lt_cons b _
  | cons c l ih =>
    cases m with
    | nil => cases h
    | cons d m =>
      rw [List.flatMap_cons, List.flatMap_cons]
      rcases List.cons_lt_cons_iff.1 h with hcd | ⟨rfl, hlm⟩
      · exact utf8EncodeChar_append_lt hcd _ _
      · exact List.append_left_lt (ih hlm)

theorem encode_eq_flatMap (s : String) : encode s = s.toList.flatMap String.utf8EncodeChar := by
  rw [encode, ← String.utf8Encode_toList, List.utf8Encode, List.toList_data_toByteArray]

theorem encode_lt_encode {a b : String} (h : a < b) : encode a < encode b := by
  rw [encode_eq_flatMap, encode_eq_flatMap]
  exact flatMap_utf8EncodeChar_lt (String.lt_iff.1 h)

/-- Texts are in the order of their bytes. -/
theorem encode_lt_encode_iff {a b : String} : encode a < encode b ↔ a < b := by
  refine ⟨fun h => ?_, encode_lt_encode⟩
  refine Decidable.byContradiction fun hab => ?_
  by_cases hba : b < a
  · exact List.lt_asymm h (encode_lt_encode hba)
  · have heq : a = b := String.le_antisymm (String.not_lt.1 hba) (String.not_lt.1 hab)
    exact List.lt_irrefl _ (heq ▸ h)

theorem encode_le_encode_iff {a b : String} : encode a ≤ encode b ↔ a ≤ b := by
  rw [← List.not_lt, ← String.not_lt, encode_lt_encode_iff]

end MetricRelay.Text
