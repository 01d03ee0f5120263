import Mathlib.Algebra.Order.Field.Basic
import Mathlib.Algebra.Order.Ring.Rat
import Mathlib.Data.Nat.Log
import Mathlib.Tactic.FieldSimp
import Mathlib.Tactic.Linarith
import Mathlib.Tactic.NormNum
import Mathlib.Tactic.Positivity
import Mathlib.Tactic.Ring
import MetricRelay.Binary64

/-!
# Natural numbers as doubles

A natural number becomes a significand of 53 bits at the scale of its highest bit (`ofNat_spec`).
Rounding may carry a significand to the next power of two but not past it, so greater numbers never
become smaller doubles (`atMost_ofNat`).
-/

namespace MetricRelay

/-! ## Rounding -/

section

variable {num num' den q : Nat}

theorem le_roundToEven (h : q * den ≤ num) (hden : 0 < den) : q ≤ roundToEven num den := by
  have hquotient : q ≤ num / den := (Nat.le_div_iff_mul_le hden).2 h
  unfold roundToEven
  grind

theorem roundToEven_le (h : num ≤ q * den) (hden : 0 < den) : roundToEven num den ≤ q := by
  have hparts := Nat.div_add_mod num den
  have hrem := Nat.mod_lt num hden
  by_cases hexact : num / den = q
  · have hzero : num % den = 0 := by
      rw [hexact, Nat.mul_comm] at hparts
      omega
    unfold roundToEven
    simp [hzero, hden, hexact]
  · have hbelow : num / den < q :=
      lt_of_le_of_ne (Nat.div_le_of_le_mul (by rwa [Nat.mul_comm])) hexact
    unfold roundToEven
    grind

theorem roundToEven_mono (h : num ≤ num') (hden : 0 < den) :
    roundToEven num den ≤ roundToEven num' den := by
  have hquotients : num / den ≤ num' / den := Nat.div_le_div_right h
  rcases Nat.lt_or_eq_of_le hquotients with hlt | heq
  · -- the next multiple of the divisor lies between them
    have hparts := Nat.div_add_mod num den
    have hparts' := Nat.div_add_mod num' den
    have hrem := Nat.mod_lt num hden
    have hstep : (num / den + 1) * den ≤ num' / den * den := Nat.mul_le_mul_right den hlt
    rw [Nat.mul_comm den] at hparts hparts'
    rw [Nat.add_mul, Nat.one_mul] at hstep
    calc roundToEven num den ≤ num / den + 1 :=
          roundToEven_le (by rw [Nat.add_mul, Nat.one_mul]; omega) hden
      _ ≤ roundToEven num' den := le_roundToEven (by rw [Nat.add_mul, Nat.one_mul]; omega) hden
  · have hparts := Nat.div_add_mod num den
    have hparts' := Nat.div_add_mod num' den
    rw [heq] at hparts
    have hrems : num % den ≤ num' % den := by omega
    unfold roundToEven
    rw [heq]
    grind

end

namespace Binary64

/-! ## Values -/

def IsFinite (x : Binary64) : Prop := x.exponentField ≠ 2047

/-- The value of a finite number. -/
def toRat (x : Binary64) : ℚ :=
  (if x.isNegative then -1 else 1) * (x.magnitude.1 / x.magnitude.2)

/-- Both are numbers, and the first is not the greater one. -/
structure AtMost (x y : Binary64) : Prop where
  left : x.IsFinite
  right : y.IsFinite
  le : x.toRat ≤ y.toRat

theorem toRat_eq {x : Binary64} (h : x.isNegative = false) :
    x.toRat = x.significand * 2 ^ x.scale / 2 ^ 1074 := by
  unfold toRat magnitude
  simp only [h, Bool.false_eq_true, if_false, one_mul, Nat.shiftLeft_eq, Nat.cast_mul, Nat.cast_pow,
    Nat.cast_ofNat]
  rcases Nat.le_total x.scale 1074 with hle | hle
  · obtain ⟨d, hd⟩ := Nat.exists_eq_add_of_le hle
    rw [Nat.sub_eq_zero_of_le hle, hd, Nat.add_sub_cancel_left, pow_add]
    field_simp
  · obtain ⟨d, hd⟩ := Nat.exists_eq_add_of_le hle
    rw [hd, Nat.add_sub_cancel_left, Nat.sub_eq_zero_of_le (Nat.le_add_right ..), pow_add]
    field_simp

section

variable {e f m s : Nat}

theorem toNat_ofParts (he : e < 2047) (hf : f < 2 ^ 52) :
    (ofParts false (e * 2 ^ 52 + f)).bits.toNat = e * 2 ^ 52 + f := by
  unfold ofParts
  simp only [Bool.false_eq_true, if_false, Nat.zero_add, UInt64.toNat_ofNat']
  exact Nat.mod_eq_of_lt (by omega)

theorem isNegative_ofParts (he : e < 2047) (hf : f < 2 ^ 52) :
    (ofParts false (e * 2 ^ 52 + f)).isNegative = false := by
  unfold isNegative
  rw [toNat_ofParts he hf, Nat.shiftLeft_eq]
  exact decide_eq_false (by omega)

theorem exponentField_ofParts (he : e < 2047) (hf : f < 2 ^ 52) :
    (ofParts false (e * 2 ^ 52 + f)).exponentField = e := by
  unfold exponentField
  rw [toNat_ofParts he hf, Nat.shiftLeft_eq, Nat.shiftRight_eq_div_pow]
  omega

theorem fraction_ofParts (he : e < 2047) (hf : f < 2 ^ 52) :
    (ofParts false (e * 2 ^ 52 + f)).fraction = f := by
  unfold fraction
  rw [toNat_ofParts he hf, Nat.shiftLeft_eq]
  omega

theorem isFinite_ofParts (he : e < 2047) (hf : f < 2 ^ 52) :
    (ofParts false (e * 2 ^ 52 + f)).IsFinite := by
  unfold IsFinite
  rw [exponentField_ofParts he hf]
  omega

theorem toRat_ofParts (hpos : 0 < e) (he : e < 2047) (hf : f < 2 ^ 52) :
    (ofParts false (e * 2 ^ 52 + f)).toRat = (2 ^ 52 + f : Nat) * 2 ^ (e - 1) / 2 ^ 1074 := by
  rw [toRat_eq (isNegative_ofParts he hf), significand, scale, exponentField_ofParts he hf,
    if_neg (Nat.ne_of_gt hpos), fraction_ofParts he hf, Nat.shiftLeft_eq, Nat.one_mul]

/-- A significand of 53 bits at a scale that is not too high; the carry into the exponent gives the same
value. -/
theorem assemble_spec (hlow : 2 ^ 52 ≤ m) (hhigh : m ≤ 2 ^ 53) (hs : s < 2045) :
    (assemble false m s).IsFinite ∧ (assemble false m s).toRat = m * 2 ^ s / 2 ^ 1074 := by
  have hparts : assemble false m s = ofParts false ((s + 1) * 2 ^ 52 + (m - 2 ^ 52)) := by
    unfold assemble
    simp only [Nat.shiftLeft_eq, Nat.one_mul]
    rw [if_neg (by omega), if_pos (by omega)]
  rw [hparts]
  rcases Nat.lt_or_eq_of_le hhigh with hlt | rfl
  · refine ⟨isFinite_ofParts (by omega) (by omega), ?_⟩
    rw [toRat_ofParts (by omega) (by omega) (by omega), Nat.add_sub_cancel' hlow,
      Nat.add_sub_cancel]
  · have hcarry : (s + 1) * 2 ^ 52 + (2 ^ 53 - 2 ^ 52) = (s + 2) * 2 ^ 52 + 0 := by omega
    rw [hcarry]
    refine ⟨isFinite_ofParts (by omega) (by omega), ?_⟩
    rw [toRat_ofParts (by omega) (by omega) (by omega)]
    norm_num
    ring

end

/-! ## Natural numbers -/

/-- The 53 highest bits of a natural number, rounded. -/
def leading (n : Nat) : Nat := roundToEven (n <<< (52 - n.log2)) (1 <<< (n.log2 - 52))

variable {n a b : Nat}

theorem log2_lt_of_lt {k : Nat} (hk : 0 < k) (h : n < 2 ^ k) : n.log2 < k := by
  by_cases hn : n = 0
  · rw [hn]
    exact hk
  · exact (Nat.log2_lt hn).2 h

theorem pow_log2_shift (k : Nat) : 2 ^ k * 2 ^ (52 - k) = 2 ^ 52 * 2 ^ (k - 52) := by
  rw [← pow_add, ← pow_add]
  congr 1
  omega

theorem scaleFor_one (h : n ≠ 0) : scaleFor n 1 = n.log2 + 1022 := by
  have hlow : 2 ^ n.log2 * 2 ^ (52 - n.log2) ≤ n * 2 ^ (52 - n.log2) :=
    Nat.mul_le_mul_right _ (Nat.log2_self_le h)
  have hone : Nat.log2 1 = 0 := rfl
  have hshift : 1074 - (n.log2 + 1021 + 1) = 52 - n.log2 := by omega
  have hshift' : n.log2 + 1021 + 1 - 1074 = n.log2 - 52 := Nat.add_sub_add_right n.log2 1022 52
  unfold scaleFor
  simp only [hone, Nat.sub_zero, hshift, hshift', Nat.shiftLeft_eq, Nat.one_mul]
  rw [← pow_log2_shift, if_neg (Nat.not_lt.2 hlow)]

theorem le_leading (h : n ≠ 0) : 2 ^ 52 ≤ leading n := by
  refine le_roundToEven ?_ (by simp [Nat.shiftLeft_eq])
  rw [Nat.shiftLeft_eq, Nat.shiftLeft_eq, Nat.one_mul, ← pow_log2_shift]
  exact Nat.mul_le_mul_right _ (Nat.log2_self_le h)

theorem leading_le (n : Nat) : leading n ≤ 2 ^ 53 := by
  refine roundToEven_le ?_ (by simp [Nat.shiftLeft_eq])
  rw [Nat.shiftLeft_eq, Nat.shiftLeft_eq, Nat.one_mul]
  calc n * 2 ^ (52 - n.log2) ≤ 2 ^ (n.log2 + 1) * 2 ^ (52 - n.log2) :=
        Nat.mul_le_mul_right _ (Nat.le_of_lt Nat.lt_log2_self)
    _ = 2 ^ 53 * 2 ^ (n.log2 - 52) := by rw [pow_succ', Nat.mul_assoc, pow_log2_shift]; ring

theorem log2_mono (h : a ≤ b) : a.log2 ≤ b.log2 := by
  by_cases ha : a = 0
  · simp [ha]
  · exact (Nat.le_log2 (by omega)).2 (Nat.le_trans (Nat.log2_self_le ha) h)

theorem ofNat_zero : (ofNat 0).IsFinite ∧ (ofNat 0).toRat = 0 := by
  have hbits : ofNat 0 = ofParts false (0 * 2 ^ 52 + 0) := rfl
  rw [hbits]
  refine ⟨isFinite_ofParts (by omega) (by omega), ?_⟩
  rw [toRat_eq (isNegative_ofParts (by omega) (by omega)), significand,
    exponentField_ofParts (by omega) (by omega), if_pos rfl, fraction_ofParts (by omega) (by omega)]
  simp

theorem ofNat_spec (hn : n ≠ 0) (h : n.log2 < 1023) :
    (ofNat n).IsFinite ∧ (ofNat n).toRat = leading n * 2 ^ n.log2 / 2 ^ 52 := by
  have hassembled : ofNat n = assemble false (leading n) (n.log2 + 1022) := by
    have hshift : 1074 - (n.log2 + 1022) = 52 - n.log2 := by omega
    have hshift' : n.log2 + 1022 - 1074 = n.log2 - 52 := Nat.add_sub_add_right n.log2 1022 52
    unfold ofNat ofRatio
    simp only [hn, if_false, scaleFor_one hn, hshift, hshift', leading]
  obtain ⟨hfinite, hvalue⟩ := assemble_spec (s := n.log2 + 1022) (le_leading hn) (leading_le n)
    (by omega)
  rw [hassembled]
  refine ⟨hfinite, hvalue.trans ?_⟩
  rw [show (1074 : Nat) = 52 + 1022 from rfl, pow_add, pow_add, ← mul_assoc]
  exact mul_div_mul_right _ _ (by positivity)

theorem isFinite_ofNat (h : n.log2 < 1023) : (ofNat n).IsFinite := by
  by_cases hn : n = 0
  · rw [hn]
    exact ofNat_zero.1
  · exact (ofNat_spec hn h).1

/-- Numbers of the same length are rounded alike; of two lengths, the power of two between them is not
crossed. -/
theorem leading_scaled_mono (ha : a ≠ 0) (h : a ≤ b) :
    leading a * 2 ^ a.log2 ≤ leading b * 2 ^ b.log2 := by
  rcases Nat.lt_or_eq_of_le (log2_mono h) with hlt | heq
  · calc leading a * 2 ^ a.log2 ≤ 2 ^ 53 * 2 ^ a.log2 := Nat.mul_le_mul_right _ (leading_le a)
      _ = 2 ^ 52 * 2 ^ (a.log2 + 1) := by ring
      _ ≤ 2 ^ 52 * 2 ^ b.log2 := Nat.mul_le_mul_left _ (Nat.pow_le_pow_right (by omega) hlt)
      _ ≤ leading b * 2 ^ b.log2 := Nat.mul_le_mul_right _ (le_leading (by omega))
  · rw [heq]
    refine Nat.mul_le_mul_right _ ?_
    unfold leading
    rw [heq]
    refine roundToEven_mono ?_ (by simp [Nat.shiftLeft_eq])
    rw [Nat.shiftLeft_eq, Nat.shiftLeft_eq]
    exact Nat.mul_le_mul_right _ h

/-- Greater numbers do not become smaller doubles. -/
theorem atMost_ofNat (h : a ≤ b) (hb : b.log2 < 1023) : AtMost (ofNat a) (ofNat b) := by
  have ha : a.log2 < 1023 := Nat.lt_of_le_of_lt (log2_mono h) hb
  refine ⟨isFinite_ofNat ha, isFinite_ofNat hb, ?_⟩
  by_cases hb0 : b = 0
  · have ha0 : a = 0 := by omega
    rw [ha0, hb0]
  rw [(ofNat_spec hb0 hb).2]
  by_cases ha0 : a = 0
  · rw [ha0, ofNat_zero.2]
    positivity
  · rw [(ofNat_spec ha0 ha).2]
    exact div_le_div_of_nonneg_right (mod_cast leading_scaled_mono ha0 h) (by positivity)

end Binary64

end MetricRelay
