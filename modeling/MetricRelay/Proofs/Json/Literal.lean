import Mathlib.Data.String.Basic
import MetricRelay.Json.Document

/-!
# Texts and how they are spelled

`Spelled` says how the characters of a text may stand between quotes: as they are, after a backslash,
or by their code points in hexadecimal. However a text is spelled, it is read as it is
(`scanLiteral_spelled`); `textLiteral` is one way to spell it (`spelled_flatMap_escapeChar`).
-/

namespace MetricRelay.Json

/-! ## Hexadecimal digits -/

/-- Four hexadecimal digits of a number. -/
inductive IsHex : Nat → List Char → Prop where
  | digits {w x y z : Char} {a b c d : Nat} :
      Text.hexValue? w = some a → Text.hexValue? x = some b →
      Text.hexValue? y = some c → Text.hexValue? z = some d →
      IsHex (((a * 16 + b) * 16 + c) * 16 + d) [w, x, y, z]

variable {n : Nat} {digits r s t : List Char}

theorem hexEscape_append (h : IsHex n digits) (r : List Char) :
    hexEscape (digits ++ r) = .ok (n, r) := by
  cases h with
  | @digits w x y z a b c d hw hx hy hz =>
    have hsize : ¬(String.ofList [w, x, y, z]).utf8ByteSize < 4 := by
      rw [String.utf8ByteSize_ofList]
      have := w.utf8Size_pos
      have := x.utf8Size_pos
      have := y.utf8Size_pos
      have := z.utf8Size_pos
      simp only [String.utf8Len_cons, String.utf8Len_nil]
      omega
    have hvalues : [w, x, y, z].mapM Text.hexValue? = some [a, b, c, d] := by
      simp [hw, hx, hy, hz]
    unfold hexEscape
    rw [show ([w, x, y, z] ++ r).take 4 = [w, x, y, z] from rfl, if_neg hsize, hvalues]
    rfl

/-! ## Spellings -/

/-- The characters of a text, and what stands for them between quotes. -/
inductive Spelled : List Char → List Char → Prop where
  | nil : Spelled [] []
  | plain {c : Char} {s t : List Char} : c ≠ '"' → c ≠ '\\' → 0x20 ≤ c.toNat → Spelled s t →
      Spelled (c :: s) (c :: t)
  | short {e c : Char} {s t : List Char} : shortEscape? e = some c → Spelled s t →
      Spelled (c :: s) ('\\' :: e :: t)
  | unicode {c : Char} {digits s t : List Char} : IsHex c.toNat digits → Spelled s t →
      Spelled (c :: s) ('\\' :: 'u' :: (digits ++ t))
  /-- A character beyond those of four digits, by its two surrogates. -/
  | surrogates {c : Char} {high low : Nat} {digits digits' s t : List Char} :
      IsHex high digits → 0xd800 ≤ high ∧ high ≤ 0xdbff →
      IsHex low digits' → 0xdc00 ≤ low ∧ low ≤ 0xdfff →
      c.toNat = 0x10000 + (high - 0xd800) * 0x400 + (low - 0xdc00) → Spelled s t →
      Spelled (c :: s) ('\\' :: 'u' :: (digits ++ '\\' :: 'u' :: (digits' ++ t)))

/-- A character that stands for itself is not a surrogate. -/
theorem not_surrogate (c : Char) : ¬(0xd800 ≤ c.toNat ∧ c.toNat ≤ 0xdfff) := by
  intro h
  have hvalid := c.valid
  simp only [UInt32.isValidChar, Nat.isValidChar] at hvalid
  have : c.val.toNat = c.toNat := rfl
  omega

theorem readUnicodeEscape_append {c : Char} (h : IsHex c.toNat digits) (r : List Char) :
    readUnicodeEscape (digits ++ r) = .ok (c, r) := by
  have hnot := not_surrogate c
  unfold readUnicodeEscape
  rw [hexEscape_append h r]
  simp only [bind, Except.bind, pure, Except.pure]
  rw [if_neg (by omega), if_neg (by omega), Char.ofNat_toNat]

theorem readUnicodeEscape_surrogates {c : Char} {high low : Nat} {digits digits' : List Char}
    (hh : IsHex high digits) (hhigh : 0xd800 ≤ high ∧ high ≤ 0xdbff) (hl : IsHex low digits')
    (hlow : 0xdc00 ≤ low ∧ low ≤ 0xdfff)
    (hc : c.toNat = 0x10000 + (high - 0xd800) * 0x400 + (low - 0xdc00)) (r : List Char) :
    readUnicodeEscape (digits ++ '\\' :: 'u' :: (digits' ++ r)) = .ok (c, r) := by
  unfold readUnicodeEscape
  rw [hexEscape_append hh]
  simp only [bind, Except.bind, pure, Except.pure]
  rw [if_neg (by omega), if_pos hhigh]
  simp only [readPartner, hexEscape_append hl, bind, Except.bind, pure, Except.pure]
  rw [if_pos hlow, ← hc, Char.ofNat_toNat]

/-! ## Reading -/

theorem shortEscape?_ne_u {e c : Char} (h : shortEscape? e = some c) : e ≠ 'u' := by
  rintro rfl
  cases h

theorem readChars_spelled (h : Spelled s t) (r : List Char) :
    ∀ limit, t.length < limit → readChars limit (t ++ '"' :: r) = .ok s := by
  induction h with
  | nil =>
    intro limit hlimit
    obtain ⟨limit, rfl⟩ := Nat.exists_eq_add_one.2 hlimit
    rfl
  | plain hquote hslash hcontrol _ ih =>
    intro limit hlimit
    obtain ⟨limit, rfl⟩ := Nat.exists_eq_add_one.2 (Nat.zero_lt_of_lt hlimit)
    unfold readChars
    simp only [List.cons_append]
    rw [if_neg hquote, if_neg hslash, if_neg (Nat.not_lt.2 hcontrol), ih limit (by simpa using hlimit)]
    rfl
  | @short e c s t he _ ih =>
    intro limit hlimit
    obtain ⟨limit, rfl⟩ := Nat.exists_eq_add_one.2 (Nat.zero_lt_of_lt hlimit)
    have hlen : t.length < limit := by
      simp only [List.length_cons] at hlimit
      omega
    simp [readChars, shortEscape?_ne_u he, he, ih limit hlen]
  | @unicode c digits s t hd _ ih =>
    intro limit hlimit
    obtain ⟨limit, rfl⟩ := Nat.exists_eq_add_one.2 (Nat.zero_lt_of_lt hlimit)
    have hlen : t.length < limit := by
      simp only [List.length_cons, List.length_append] at hlimit
      omega
    simp only [List.cons_append, List.append_assoc]
    rw [readChars]
    simp [readUnicodeEscape_append hd, ih limit hlen, bind, Except.bind, pure, Except.pure]
  | @surrogates c high low digits digits' s t hh hhigh hl hlow hc _ ih =>
    intro limit hlimit
    obtain ⟨limit, rfl⟩ := Nat.exists_eq_add_one.2 (Nat.zero_lt_of_lt hlimit)
    have hlen : t.length < limit := by
      simp only [List.length_cons, List.length_append] at hlimit
      omega
    simp only [List.cons_append, List.append_assoc]
    rw [readChars]
    simp [readUnicodeEscape_surrogates hh hhigh hl hlow hc, ih limit hlen, bind, Except.bind, pure,
      Except.pure]

theorem skipText_spelled (h : Spelled s t) (r : List Char) :
    ∀ limit, t.length < limit → skipText limit (t ++ '"' :: r) = .ok r := by
  induction h with
  | nil =>
    intro limit hlimit
    obtain ⟨limit, rfl⟩ := Nat.exists_eq_add_one.2 hlimit
    rfl
  | plain hquote hslash hcontrol _ ih =>
    intro limit hlimit
    obtain ⟨limit, rfl⟩ := Nat.exists_eq_add_one.2 (Nat.zero_lt_of_lt hlimit)
    unfold skipText
    simp only [List.cons_append]
    rw [if_neg hquote, if_neg hslash, if_neg (Nat.not_lt.2 hcontrol), ih limit (by simpa using hlimit)]
  | @short e c s t he _ ih =>
    intro limit hlimit
    obtain ⟨limit, rfl⟩ := Nat.exists_eq_add_one.2 (Nat.zero_lt_of_lt hlimit)
    have hlen : t.length < limit := by
      simp only [List.length_cons] at hlimit
      omega
    simp [skipText, shortEscape?_ne_u he, he, ih limit hlen]
  | @unicode c digits s t hd _ ih =>
    intro limit hlimit
    obtain ⟨limit, rfl⟩ := Nat.exists_eq_add_one.2 (Nat.zero_lt_of_lt hlimit)
    have hlen : t.length < limit := by
      simp only [List.length_cons, List.length_append] at hlimit
      omega
    simp only [List.cons_append, List.append_assoc]
    rw [skipText]
    simp [hexEscape_append hd, ih limit hlen, bind, Except.bind]
  | @surrogates c high low digits digits' s t hh hhigh hl hlow hc _ ih =>
    intro limit hlimit
    -- The form takes each surrogate for an escape of its own.
    obtain ⟨limit, rfl⟩ : ∃ n, limit = n + 2 :=
      Nat.exists_eq_add_of_le' (by simp only [List.length_cons] at hlimit; omega)
    have hlen : t.length < limit := by
      simp only [List.length_cons, List.length_append] at hlimit
      omega
    simp only [List.cons_append, List.append_assoc]
    rw [skipText]
    simp [skipText, hexEscape_append hh, hexEscape_append hl, ih limit hlen, bind, Except.bind]

/-- However a text is spelled between quotes, it is read as it is. -/
theorem scanLiteral_spelled (h : Spelled s t) {limit : Nat} (hlimit : t.length < limit)
    (r : List Char) :
    scanLiteral limit (t ++ '"' :: r) = (⟨.ok (String.ofList s), .ok ()⟩, some r) := by
  have hread : readText limit (t ++ '"' :: r) = .ok (String.ofList s) := by
    rw [readText, readChars_spelled h r limit hlimit]
    rfl
  rw [scanLiteral, skipText_spelled h r limit hlimit, hread]

/-! ## Writing -/

theorem hexValue?_digitChar {n : Nat} (h : n < 16) : Text.hexValue? (Nat.digitChar n) = some n := by
  have hall : ∀ n < 16, Text.hexValue? (Nat.digitChar n) = some n := by decide
  exact hall n h

theorem isHex_hexDigits4 {n : Nat} (h : n < 65536) : IsHex n (hexDigits4 n) := by
  have hvalue : ((n / 4096 * 16 + n / 256 % 16) * 16 + n / 16 % 16) * 16 + n % 16 = n := by omega
  have hdigits := IsHex.digits (hexValue?_digitChar (n := n / 4096) (by omega))
    (hexValue?_digitChar (n := n / 256 % 16) (by omega))
    (hexValue?_digitChar (n := n / 16 % 16) (by omega)) (hexValue?_digitChar (n := n % 16) (by omega))
  rwa [hvalue] at hdigits

theorem spelled_escapeChar (c : Char) (h : Spelled s t) :
    Spelled (c :: s) (escapeChar c ++ t) := by
  unfold escapeChar
  split
  · next hc => exact .short (by rw [hc]; rfl) h
  · next hquote =>
    split
    · next hc => exact .short (by rw [hc]; rfl) h
    · next hslash =>
      split
      · next hc => exact .short (by rw [hc]; rfl) h
      · split
        · next hc => exact .short (by rw [hc]; rfl) h
        · split
          · next hc => exact .short (by rw [hc]; rfl) h
          · split
            · exact .unicode (isHex_hexDigits4 (by omega)) h
            · next hcontrol => exact .plain hquote hslash (Nat.not_lt.1 hcontrol) h

theorem spelled_flatMap_escapeChar (s : List Char) : Spelled s (s.flatMap escapeChar) := by
  induction s with
  | nil => exact .nil
  | cons c s ih => exact spelled_escapeChar c ih

end MetricRelay.Json
