import MetricRelay.Proofs.Wire.Varint

/-!
# Fields read back

A message of fields that fit (`Field.Fits`) is read as these fields (`fields?_message`). A payload is no
longer than the message that it is part of (`length_le_message`), so that of a message of less than
`2 ^ 64` bytes all fields fit whose numbers do.
-/

namespace MetricRelay.Wire

/-- The payload is of a size that its wire type can hold. -/
def Payload.Fits : Payload → Prop
  | .varint n => n < UInt64.size
  | .fixed64 n => n < UInt64.size
  | .bytes b => b.length < UInt64.size
  | .fixed32 n => n < UInt32.size

/-- The tag is one of 64 bits. -/
structure Field.Fits (f : Field) : Prop where
  number_pos : 0 < f.number
  number_lt : f.number < 2 ^ 61
  payload : f.payload.Fits

theorem Payload.wireType_lt (p : Payload) : p.wireType < 8 := by
  unfold Payload.wireType
  split <;> omega

theorem readPayload?_encode {p : Payload} (h : p.Fits) (rest : Bytes) :
    readPayload? p.wireType (p.encode ++ rest) = some (p, rest) := by
  cases p with
  | varint n =>
    have hread := readWord?_varint h rest
    simp only [Payload.wireType, Payload.encode, readPayload?, hread]
    rfl
  | fixed64 n =>
    have hn : n < 256 ^ 8 := h
    have hread := readLittleEndian?_littleEndian hn rest
    simp only [Payload.wireType, Payload.encode, readPayload?, hread]
    rfl
  | bytes b =>
    have hread := readWord?_varint h (b ++ rest)
    have hlength : b.length ≤ (b ++ rest).length := by simp
    simp only [Payload.wireType, Payload.encode, readPayload?, List.append_assoc, hread,
      Option.bind_eq_bind, Option.bind_some, if_pos hlength, List.take_left, List.drop_left]
    rfl
  | fixed32 n =>
    have hn : n < 256 ^ 4 := h
    have hread := readLittleEndian?_littleEndian hn rest
    simp only [Payload.wireType, Payload.encode, readPayload?, hread]
    rfl

theorem readField?_encode {f : Field} (h : f.Fits) (rest : Bytes) :
    readField? (f.encode ++ rest) = some (f, rest) := by
  obtain ⟨number, payload⟩ := f
  have hpos : 0 < number := h.number_pos
  have hlt : number < 2 ^ 61 := h.number_lt
  have htype := payload.wireType_lt
  have htag : number * 8 + payload.wireType < UInt64.size := by
    unfold UInt64.size
    omega
  have hlow : (number * 8 + payload.wireType) % 8 = payload.wireType := by omega
  have hhigh : (number * 8 + payload.wireType) / 8 = number := by omega
  unfold readField? Field.encode
  rw [List.append_assoc, readWord?_varint htag]
  simp only [Option.bind_eq_bind, Option.bind_some, hlow, hhigh, readPayload?_encode h.payload,
    if_neg (Nat.ne_of_gt hpos)]
  rfl

theorem length_encode_pos (f : Field) : 0 < f.encode.length := by
  have := length_varint_pos (f.number * 8 + f.payload.wireType)
  unfold Field.encode
  rw [List.length_append]
  omega

theorem length_le_length_message (fields : List Field) :
    fields.length ≤ (message fields).length := by
  induction fields with
  | nil => exact Nat.zero_le _
  | cons f r ih =>
    have := length_encode_pos f
    simp only [message, List.flatMap_cons, List.length_append, List.length_cons] at ih ⊢
    omega

theorem readFields?_message {limit : Nat} {fields : List Field} (h : ∀ f ∈ fields, f.Fits)
    (hlimit : fields.length ≤ limit) : readFields? limit (message fields) = some fields := by
  induction fields generalizing limit with
  | nil =>
    rw [show message [] = [] from rfl, readFields?]
  | cons f r ih =>
    obtain ⟨hf, hr⟩ := List.forall_mem_cons.1 h
    obtain ⟨limit, rfl⟩ := Nat.exists_eq_succ_of_ne_zero (n := limit) (by
      rintro rfl
      simp at hlimit)
    have hmessage : message (f :: r) = f.encode ++ message r := rfl
    have hne : f.encode ++ message r ≠ [] := by
      have := length_encode_pos f
      exact List.append_ne_nil_of_left_ne_nil (List.ne_nil_of_length_pos this) _
    rw [hmessage, readFields?.eq_3 _ _ hne, readField?_encode hf]
    simp only [Option.bind_eq_bind, Option.bind_some, ih hr (by simpa using hlimit)]
    rfl

theorem fields?_message {fields : List Field} (h : ∀ f ∈ fields, f.Fits) :
    fields? (message fields) = some fields :=
  readFields?_message h (length_le_length_message fields)

/-! ## Sizes -/

theorem length_encode_le_message {fields : List Field} {f : Field} (h : f ∈ fields) :
    f.encode.length ≤ (message fields).length :=
  (List.sublist_flatten_of_mem (List.mem_map_of_mem h)).length_le

/-- Bytes inside a message are no more than the message has. -/
theorem length_le_message {fields : List Field} {number : Nat} {b : Bytes}
    (h : ⟨number, .bytes b⟩ ∈ fields) : b.length ≤ (message fields).length := by
  have hencoded := length_encode_le_message h
  simp only [Field.encode, Payload.encode, List.length_append] at hencoded
  omega

end MetricRelay.Wire
