import MetricRelay.Json.Document

/-!
# Whole numbers in JSON

The decimal digits of a number below 2^64 are read as that number (`scanNumber_toDigits`), whatever
follows that does not go on with it (`Stops`).
-/

namespace MetricRelay.Json

open Nat

/-! ## Digits -/

/-- What follows a whole number without going on with it. -/
def Stops (r : List Char) : Prop :=
  ∀ c ∈ r.head?, c.isDigit = false ∧ c ≠ '.' ∧ c ≠ 'e' ∧ c ≠ 'E'

variable {n : Nat} {c : Char} {digits r : List Char}

theorem Stops.notDigit (h : Stops r) : r.head?.any Char.isDigit = false := by
  cases r with
  | nil => rfl
  | cons c r => exact (h c rfl).1

theorem dropWhile_digits (hd : ∀ c ∈ digits, c.isDigit = true) (h : Stops r) :
    (digits ++ r).dropWhile Char.isDigit = r := by
  rw [List.dropWhile_append_of_pos hd]
  cases r with
  | nil => rfl
  | cons c r => exact List.dropWhile_cons_of_neg (by rw [(h c rfl).1]; exact Bool.false_ne_true)

theorem skipAfterDigits_of_stops (h : Stops r) : skipAfterDigits r = .ok r := by
  unfold skipAfterDigits
  split
  · exact absurd rfl (h _ rfl).2.2.1
  · exact absurd rfl (h _ rfl).2.2.2
  · rfl

theorem head_toDigits_ne (h : 0 < n) : (toDigits 10 n).head? ≠ some '0' := by
  induction n using Nat.strongRecOn with
  | ind n ih =>
    rw [toDigits_eq_if (by decide)]
    split
    · simpa using Nat.ne_of_gt h
    · have hhead := ih (n / 10) (by omega) (by omega)
      obtain ⟨c, more, hmore⟩ := List.exists_cons_of_ne_nil (toDigits_ne_nil (b := 10) (n := n / 10))
      rw [hmore] at hhead ⊢
      exact hhead

/-- A number is written in digits, without zeros in front of it. -/
theorem exists_toDigits (n : Nat) : ∃ c digits, toDigits 10 n = c :: digits ∧
    c.isDigit = true ∧ (∀ d ∈ digits, d.isDigit = true) ∧ (c = '0' → digits = []) := by
  obtain ⟨c, digits, hn⟩ := List.exists_cons_of_ne_nil (toDigits_ne_nil (b := 10) (n := n))
  have hdigits : ∀ d ∈ c :: digits, d.isDigit = true := fun d hd =>
    isDigit_of_mem_toDigits (by decide) (by decide) (hn ▸ hd)
  obtain ⟨hc, hmore⟩ := List.forall_mem_cons.1 hdigits
  refine ⟨c, digits, hn, hc, hmore, ?_⟩
  rintro rfl
  rcases Nat.eq_zero_or_pos n with rfl | hpos
  · rw [toDigits_zero] at hn
    exact (List.cons.inj hn).2.symm
  · exact absurd (by rw [hn]; rfl) (head_toDigits_ne hpos)

theorem le_ofDigitChars (digits : List Char) (n : Nat) : n ≤ ofDigitChars 10 digits n := by
  induction digits generalizing n with
  | nil => exact Nat.le_of_eq ofDigitChars_nil.symm
  | cons c digits ih =>
    rw [ofDigitChars_cons]
    exact Nat.le_trans (by omega) (ih _)

/-- One more digit, as `ofDigitChars` counts it. -/
theorem ten_mul_add_digit (n : Nat) (c : Char) :
    10 * n + (c.toNat - '0'.toNat) = n * 10 + Text.digitValue c := by
  rw [Nat.mul_comm]
  rfl

/-- Digits are read up to what is no digit, as long as the number fits. -/
theorem wholeDigits_append (hd : ∀ d ∈ digits, d.isDigit = true) (h : Stops r)
    (hfits : ofDigitChars 10 digits n < UInt64.size) :
    wholeDigits n (digits ++ r) = ⟨ofDigitChars 10 digits n, 0, r⟩ := by
  induction digits generalizing n with
  | nil =>
    rw [ofDigitChars_nil]
    cases r with
    | nil => rfl
    | cons c r => rw [List.nil_append, wholeDigits, (h c rfl).1, if_neg Bool.false_ne_true]
  | cons c digits ih =>
    obtain ⟨hc, hmore⟩ := List.forall_mem_cons.1 hd
    rw [ofDigitChars_cons, ten_mul_add_digit] at hfits ⊢
    have hle : n * 10 + Text.digitValue c < UInt64.size :=
      Nat.lt_of_le_of_lt (le_ofDigitChars ..) hfits
    rw [List.cons_append, wholeDigits, if_pos hc]
    simp only [if_pos hle]
    exact ih hmore hfits

/-! ## Numbers -/

theorem ofDigitChars_cons_zero (h : toDigits 10 n = c :: digits) :
    ofDigitChars 10 digits (Text.digitValue c) = n := by
  have hn := ofDigitChars_ten_toDigits (n := n)
  rwa [h, ofDigitChars_cons, Nat.mul_zero, Nat.zero_add] at hn

/-- Such digits are not refused at their front. -/
theorem not_refused (hc : c.isDigit = true) (hzero : c = '0' → digits = []) (h : Stops r) :
    ¬(¬c.isDigit = true ∨ c = '0' ∧ (digits ++ r).head?.any Char.isDigit = true) := by
  rintro (hnot | ⟨rfl, hany⟩)
  · exact hnot hc
  · rw [hzero rfl, List.nil_append, h.notDigit] at hany
    cases hany

theorem skipNumber_toDigits (n : Nat) (h : Stops r) : skipNumber (toDigits 10 n ++ r) = .ok r := by
  obtain ⟨c, digits, hn, hc, hdigits, hzero⟩ := exists_toDigits n
  rw [hn, List.cons_append, skipNumber, if_neg (not_refused hc hzero h), dropWhile_digits hdigits h]
  split
  · exact absurd rfl (h _ rfl).2.1
  · exact skipAfterDigits_of_stops h

theorem readNumber_toDigits (hn : n < UInt64.size) (h : Stops r) :
    readNumber false (toDigits 10 n ++ r) = .ok (.natural n) := by
  obtain ⟨c, digits, heq, hc, hdigits, hzero⟩ := exists_toDigits n
  have hvalue := ofDigitChars_cons_zero heq
  have hread := wholeDigits_append (n := Text.digitValue c) hdigits h (by rwa [hvalue])
  rw [hvalue] at hread
  rw [heq, List.cons_append, readNumber, if_neg (not_refused hc hzero h)]
  simp only [hread]
  split
  · exact absurd rfl (h _ rfl).2.1
  · exact absurd rfl (h _ rfl).2.2.1
  · exact absurd rfl (h _ rfl).2.2.2
  · rfl

/-- A whole number is read up to where it stops. -/
theorem scanNumber_toDigits (hn : n < UInt64.size) (h : Stops r) :
    scanNumber false (toDigits 10 n ++ r) = (.number (.ok (.natural n)) (.ok ()), some r) := by
  rw [scanNumber, skipNumber_toDigits n h, readNumber_toDigits hn h]

end MetricRelay.Json
