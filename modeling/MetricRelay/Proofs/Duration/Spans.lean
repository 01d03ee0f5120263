import MetricRelay.Duration.Parser
import MetricRelay.Proofs.Json.Number

/-!
# Spans of seconds and nanoseconds

A duration written as its whole seconds and the nanoseconds beside them is read as that duration, if
its seconds fit 64 bits (`parse_seconds_nanos`).
-/

namespace MetricRelay.Duration

open Text Nat

variable {n o total : Nat} {c : Char} {digits r : List Char}

/-! ## One span -/

/-- Digits are read up to a unit, as long as the number fits. -/
theorem scanNumber_digits (hd : ∀ d ∈ digits, d.isDigit = true)
    (hfits : ofDigitChars 10 digits n < UInt64.size) (hdigit : c.isDigit = false)
    (hblank : isBlank c = false) (hunit : isUnitChar c = true) :
    scanNumber n o (digits ++ c :: r) =
      .ok (ofDigitChars 10 digits n, none, ⟨o + digits.length, c :: r⟩) := by
  induction digits generalizing n o with
  | nil =>
    rw [List.nil_append, scanNumber, hdigit, hblank, hunit, if_neg Bool.false_ne_true,
      if_neg Bool.false_ne_true, if_pos rfl]
    rfl
  | cons d digits ih =>
    obtain ⟨hd, hmore⟩ := List.forall_mem_cons.1 hd
    rw [ofDigitChars_cons, Json.ten_mul_add_digit] at hfits ⊢
    have hword : word (n * 10 + digitValue d) = .ok (n * 10 + digitValue d) :=
      if_pos (Nat.lt_of_le_of_lt (Json.le_ofDigitChars ..) hfits)
    have hrest := ih (o := o + 1) hmore hfits
    rw [List.cons_append, scanNumber, if_pos hd, hword]
    simp only [bind, Except.bind, hrest, List.length_cons, Nat.add_assoc, Nat.add_comm 1]

theorem isBlank_of_isDigit (h : c.isDigit = true) : isBlank c = false := by
  have hrange : 48 ≤ c.toNat ∧ c.toNat ≤ 57 := by
    simp only [Char.isDigit, Bool.and_eq_true, decide_eq_true_eq, ge_iff_le,
      UInt32.le_iff_toNat_le] at h
    exact h
  have hranges : ∀ r ∈ blankRanges, r.2 < 48 ∨ 57 < r.1 := by decide
  refine List.any_eq_false.2 fun r hr => ?_
  have hr := hranges r hr
  rw [decide_eq_true_eq]
  omega

/-- A span that is a number below 2^64 and a unit. -/
theorem parseSpans_span (hn : n < UInt64.size) (hdigit : c.isDigit = false)
    (hblank : isBlank c = false) (hunit : isUnitChar c = true) (fuel : Nat) :
    parseSpans total ⟨o, toDigits 10 n ++ c :: r⟩ (fuel + 1) = (do
      let (unit, q) ← scanUnit (o + (toDigits 10 n).length) (c :: r)
      let total ← addSpan total n none (String.ofList unit)
      return some ((← parseSpans total q fuel).getD total)) := by
  obtain ⟨d, digits, hdigits, hd, hmore, -⟩ := Json.exists_toDigits n
  have hvalue := Json.ofDigitChars_cons_zero hdigits
  have hnot : ¬isBlank d = true := Bool.eq_false_iff.1 (isBlank_of_isDigit hd)
  have hsize : (String.ofList ([] : List Char)).utf8ByteSize = 0 := rfl
  have hscan := scanNumber_digits (n := digitValue d) (o := o + 1) (r := r) hmore (by rwa [hvalue])
    hdigit hblank hunit
  rw [hvalue] at hscan
  rw [hdigits, List.cons_append, parseSpans, List.dropWhile_cons_of_neg hnot,
    List.takeWhile_cons_of_neg hnot]
  simp only [if_pos hd, hsize, Nat.add_zero, hscan, bind, Except.bind, List.length_cons]
  rw [Nat.add_assoc, Nat.add_comm 1]

/-! ## Seconds and nanoseconds -/

theorem word_of_lt (h : n < UInt64.size) : word n = .ok n := if_pos h

theorem addSpan_seconds (hn : n < UInt64.size) :
    addSpan 0 n none "s" = .ok (n * nanosPerSecond) := by
  have hunit : TimeUnit.ofText? "s" = some (.ofSeconds 1) := by decide
  have hnanos : word 0 = .ok 0 := word_of_lt (by decide)
  simp only [addSpan, hunit, addWhole, add, Nat.mul_one, Nat.zero_mod, Nat.zero_div, Nat.add_zero,
    Nat.zero_add, word_of_lt hn, hnanos, bind, Except.bind, pure, Except.pure]

/-- The sums of `add` for nanoseconds short of a second. A second has any number of them here, since
with the number itself every quotient would be computed. -/
theorem sums_nanos {secs s : Nat} (hsecs : secs < UInt64.size) (hn : n < s) (hfits : n < UInt64.size) :
    (do
      let nanos ← word (secs * s % s + n)
      let seconds ← word (0 + nanos / s)
      let seconds ← word (secs * s / s + seconds)
      return seconds * s + nanos % s) = Except.ok (secs * s + n) := by
  have hzero : word 0 = .ok 0 := word_of_lt (by decide)
  simp only [Nat.mul_mod_left, Nat.zero_add, word_of_lt hfits, Nat.div_eq_of_lt hn, hzero, Nat.add_zero,
    Nat.mul_div_cancel secs (Nat.zero_lt_of_lt hn), word_of_lt hsecs, Nat.mod_eq_of_lt hn, bind,
    Except.bind]
  rfl

theorem addSpan_nanos {secs : Nat} (hsecs : secs < UInt64.size) (hn : n < nanosPerSecond) :
    addSpan (secs * nanosPerSecond) n none "ns" = .ok (secs * nanosPerSecond + n) := by
  have hunit : TimeUnit.ofText? "ns" = some (.ofNanos 1) := by decide
  have hfits : n < UInt64.size := Nat.lt_trans hn (by decide)
  have hadd : add (secs * nanosPerSecond) 0 n = .ok (secs * nanosPerSecond + n) := by
    rw [add]
    exact sums_nanos hsecs hn hfits
  simp only [addSpan, hunit, addWhole, Nat.mul_one, word_of_lt hfits, hadd, bind, Except.bind, pure,
    Except.pure]

theorem parseSpans_seconds_nanos {secs nanos : Nat} (hsecs : secs < UInt64.size)
    (hnanos : nanos < nanosPerSecond) (fuel : Nat) :
    parseSpans 0 ⟨0, toDigits 10 secs ++ 's' :: ' ' :: (toDigits 10 nanos ++ ['n', 's'])⟩ (fuel + 2) =
      .ok (some (secs * nanosPerSecond + nanos)) := by
  have hrest : ∀ p : Nat, parseSpans (secs * nanosPerSecond + nanos) ⟨p, []⟩ fuel =
      .ok (if fuel = 0 then some (secs * nanosPerSecond + nanos) else none) := by
    intro p
    cases fuel <;> rfl
  have hsmall : nanos < UInt64.size := Nat.lt_trans hnanos (by decide)
  have hunit : ∀ p r, scanUnit p ('s' :: ' ' :: r) = .ok (['s'], ⟨p + 1 + 1, r⟩) := fun _ _ => rfl
  have hunit' : ∀ p, scanUnit p ['n', 's'] = .ok (['n', 's'], ⟨p + 1 + 1, []⟩) := fun _ => rfl
  have hs : String.ofList ['s'] = "s" := rfl
  have hns : String.ofList ['n', 's'] = "ns" := rfl
  rw [parseSpans_span hsecs (by decide) (by decide) (by decide)]
  simp only [hunit, hs, addSpan_seconds hsecs, bind, Except.bind]
  rw [parseSpans_span hsmall (by decide) (by decide) (by decide)]
  simp only [hunit', hns, addSpan_nanos hsecs hnanos, hrest, bind, Except.bind]
  cases fuel <;> rfl

/-- Whole seconds and the nanoseconds beside them are read as the duration that they make up. -/
theorem parse_seconds_nanos {d : Duration} (h : d.nanos / nanosPerSecond < UInt64.size) :
    parse s!"{d.nanos / nanosPerSecond}s {d.nanos % nanosPerSecond}ns" = .ok d := by
  have hchars : (s!"{d.nanos / nanosPerSecond}s {d.nanos % nanosPerSecond}ns").toList =
      toDigits 10 (d.nanos / nanosPerSecond) ++
        's' :: ' ' :: (toDigits 10 (d.nanos % nanosPerSecond) ++ ['n', 's']) := by
    simp [toString, Nat.toList_repr]
  have hfuel : ∃ fuel, (s!"{d.nanos / nanosPerSecond}s {d.nanos % nanosPerSecond}ns").length + 1 =
      fuel + 2 := by
    refine Nat.exists_eq_add_of_le' ?_
    rw [← String.length_toList, hchars]
    simp
    omega
  obtain ⟨fuel, hfuel⟩ := hfuel
  have hnanos : d.nanos % nanosPerSecond < nanosPerSecond := Nat.mod_lt _ (by decide)
  rw [parse, hchars, hfuel, parseSpans_seconds_nanos h hnanos, Nat.div_add_mod']
  rfl

end MetricRelay.Duration
