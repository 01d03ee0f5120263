/-!
# UTF-8

`encode` and `decode?` go between a text and its bytes. `truncate` cuts a text to a number of bytes
without cutting a character: it looks back from there for a place to cut.
-/

namespace MetricRelay

abbrev Bytes := List UInt8

namespace Text

def encode (s : String) : Bytes := s.toByteArray.data.toList

/-- The text of well-formed bytes. -/
def decode? (b : Bytes) : Option String := String.fromUTF8? ⟨b.toArray⟩

@[simp] theorem decode?_encode (s : String) : decode? (encode s) = some s := by
  have h : (⟨s.toByteArray.data.toList.toArray⟩ : ByteArray) = s.toByteArray := by
    simp
  rw [decode?, encode, h, String.fromUTF8?, dif_pos s.isValidUTF8]
  rfl

/-! ## Cutting -/

/-- Whether a text can be cut after that many bytes: at its ends, or between two characters. -/
def isBoundary (s : String) (cut : Nat) : Bool := String.Pos.Raw.isValid s ⟨cut⟩

/-- The first boundary on the way back from a cut. There is nothing before the start. -/
def boundary? (s : String) : Nat → Option Nat
  | 0 => if isBoundary s 0 then some 0 else none
  | cut + 1 => if isBoundary s (cut + 1) then some (cut + 1) else boundary? s cut

/-- The first `n` bytes, if they are a text. -/
def firstBytes? (s : String) (n : Nat) : Option String := decode? ((encode s).take n)

/-- Cuts a text that has more than `max` bytes at the last boundary up to there. -/
def truncate? (s : String) (max : Nat) : Option String :=
  if max < s.utf8ByteSize then (boundary? s max).bind (firstBytes? s) else some s

/-- There always is a boundary to cut at, so that the default is never taken. -/
def truncate (s : String) (max : Nat) : String := (truncate? s max).getD ""

end Text

end MetricRelay
