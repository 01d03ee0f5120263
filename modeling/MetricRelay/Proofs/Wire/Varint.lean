import Mathlib.Algebra.Order.Ring.Nat
import MetricRelay.Wire.Field

/-!
# Numbers read back

What `varint` and `littleEndian` write, followed by anything, is read back with what follows it: by as
many bytes as the number needs at most.
-/

namespace MetricRelay.Wire

theorem toNat_byte {n : Nat} (h : n < 256) : (UInt8.ofNat n).toNat = n :=
  UInt8.toNat_ofNat_of_lt' h

theorem varint_of_lt {n : Nat} (h : n < 128) : varint n = [UInt8.ofNat n] := by
  rw [varint, if_pos h]

theorem varint_of_le {n : Nat} (h : 128 ≤ n) :
    varint n = UInt8.ofNat (n % 128 + 128) :: varint (n / 128) := by
  rw [varint, if_neg (by omega)]

theorem length_varint_pos (n : Nat) : 0 < (varint n).length := by
  rcases Nat.lt_or_ge n 128 with h | h
  · simp [varint_of_lt h]
  · simp [varint_of_le h]

theorem readVarint?_last {b : UInt8} (h : b.toNat < 128) (limit : Nat) (rest : Bytes) :
    readVarint? (limit + 1) (b :: rest) = some (b.toNat, rest) := by
  have hb : b < 128 := UInt8.lt_iff_toNat_lt.2 h
  rw [readVarint?, if_pos hb]

theorem readVarint?_varint_of_lt {n : Nat} (h : n < 128) (limit : Nat) (rest : Bytes) :
    readVarint? (limit + 1) (varint n ++ rest) = some (n, rest) := by
  have hbyte := toNat_byte (n := n) (by omega)
  rw [varint_of_lt h, List.singleton_append, readVarint?_last (by omega), hbyte]

theorem readVarint?_more {b : UInt8} (h : 128 ≤ b.toNat) (limit : Nat) (rest : Bytes) :
    readVarint? (limit + 1) (b :: rest) =
      (readVarint? limit rest).map fun p => (b.toNat - 128 + 128 * p.1, p.2) := by
  have hb : ¬b < 128 := fun hlt => absurd (UInt8.lt_iff_toNat_lt.1 hlt) (Nat.not_lt.2 h)
  rw [readVarint?, if_neg hb]
  cases readVarint? limit rest <;> rfl

theorem readVarint?_varint {limit n : Nat} (h : n < 128 ^ (limit + 1)) (rest : Bytes) :
    readVarint? (limit + 1) (varint n ++ rest) = some (n, rest) := by
  induction limit generalizing n with
  | zero => exact readVarint?_varint_of_lt (by simpa using h) 0 rest
  | succ limit ih =>
    rcases Nat.lt_or_ge n 128 with hn | hn
    · exact readVarint?_varint_of_lt hn (limit + 1) rest
    · have hbyte := toNat_byte (n := n % 128 + 128) (by omega)
      have hupper : n / 128 < 128 ^ (limit + 1) := by
        rw [Nat.pow_succ] at h
        exact Nat.div_lt_of_lt_mul (by omega)
      rw [varint_of_le hn, List.cons_append, readVarint?_more (by omega), ih hupper, hbyte]
      simp only [Option.map_some, Option.some.injEq, Prod.mk.injEq, and_true]
      omega

theorem readWord?_varint {n : Nat} (h : n < UInt64.size) (rest : Bytes) :
    readWord? (varint n ++ rest) = some (n, rest) := by
  have hten : n < 128 ^ 10 := Nat.lt_trans h (by decide)
  unfold readWord?
  rw [readVarint?_varint hten]
  simp [h]

theorem readLittleEndian?_littleEndian {count n : Nat} (h : n < 256 ^ count) (rest : Bytes) :
    readLittleEndian? count (littleEndian count n ++ rest) = some (n, rest) := by
  induction count generalizing n with
  | zero =>
    have hn : n = 0 := by simpa using h
    rw [hn]
    rfl
  | succ count ih =>
    have hbyte := toNat_byte (n := n % 256) (by omega)
    have hupper : n / 256 < 256 ^ count := by
      rw [Nat.pow_succ] at h
      exact Nat.div_lt_of_lt_mul (by omega)
    rw [littleEndian, List.cons_append, readLittleEndian?, ih hupper]
    simp only [Option.bind_eq_bind, Option.bind_some, hbyte]
    have hn : n % 256 + 256 * (n / 256) = n := Nat.mod_add_div n 256
    rw [hn]
    rfl

end MetricRelay.Wire
