import MetricRelay.Proofs.Wire.Message
import MetricRelay.Proofs.Wire.Snappy
import MetricRelay.Wire.WriteRequest

/-!
# Requests read back

Labels, points, series and requests are read back level by level. Nothing is lost but the sign of a
zero (`Point.received`): a value that is left out is read as the positive one. `request_survives_wire`
is about the compressed form, however it has been packed.
-/

namespace MetricRelay

/-! ## What is received -/

def Binary64.negativeZero : Binary64 := ⟨0x8000000000000000⟩

theorem Binary64.isZero_iff {x : Binary64} : x.isZero = true ↔ x = ⟨0⟩ ∨ x = negativeZero := by
  obtain ⟨bits⟩ := x
  have hlt := bits.toNat_lt
  simp only [isZero, exponentField, fraction, negativeZero, Binary64.mk.injEq, ← UInt64.toNat_inj,
    Nat.shiftRight_eq_div_pow, Nat.shiftLeft_eq, decide_eq_true_eq, UInt64.reduceToNat]
  omega

/-- A point as it is received: a zero has lost its sign. -/
def Point.received (p : Point) : Point :=
  if p.value = .negativeZero then { p with value := ⟨0⟩ } else p

def Series.received (s : Series) : Series := { s with points := s.points.map Point.received }

namespace Wire

/-! ## Fields that fit -/

/-- All numbers are small. -/
theorem fits_of_number {f : Field} (h : f.number = 1 ∨ f.number = 2) (hf : f.payload.Fits) :
    f.Fits :=
  ⟨by omega, by omega, hf⟩

/-- Bytes fit if the whole message does. -/
theorem forall_fits_of_bytes {fields : List Field} (hsize : (message fields).length < UInt64.size)
    (h : ∀ f ∈ fields, (f.number = 1 ∨ f.number = 2) ∧ ∃ b, f.payload = .bytes b) :
    ∀ f ∈ fields, f.Fits := by
  intro f hf
  obtain ⟨hnumber, b, hb⟩ := h f hf
  obtain ⟨number, payload⟩ := f
  cases hb
  exact fits_of_number hnumber (Nat.lt_of_le_of_lt (length_le_message hf) hsize)

theorem of_mem_textField {number : Nat} {s : String} {f : Field} (h : f ∈ textField number s) :
    f = ⟨number, .bytes (Text.encode s)⟩ := by
  unfold textField at h
  split at h
  · cases h
  · exact List.mem_singleton.1 h

theorem fits_labelFields {l : Label} (hsize : (message (labelFields l)).length < UInt64.size) :
    ∀ f ∈ labelFields l, f.Fits := by
  refine forall_fits_of_bytes hsize fun f hf => ?_
  rcases List.mem_append.1 hf with hname | hvalue
  · rw [of_mem_textField hname]
    exact ⟨.inl rfl, _, rfl⟩
  · rw [of_mem_textField hvalue]
    exact ⟨.inr rfl, _, rfl⟩

theorem fits_pointFields (p : Point) : ∀ f ∈ pointFields p, f.Fits := by
  intro f hf
  unfold pointFields at hf
  rcases List.mem_append.1 hf with hvalue | htime
  · split at hvalue
    · cases hvalue
    · rw [List.mem_singleton.1 hvalue]
      exact fits_of_number (.inl rfl) p.value.bits.toNat_lt
  · split at htime
    · cases htime
    · rw [List.mem_singleton.1 htime]
      exact fits_of_number (.inr rfl) p.time.toUInt64.toNat_lt

theorem fits_seriesFields {s : Series} (hsize : (message (seriesFields s)).length < UInt64.size) :
    ∀ f ∈ seriesFields s, f.Fits := by
  refine forall_fits_of_bytes hsize fun f hf => ?_
  rcases List.mem_append.1 hf with hlabel | hpoint
  · obtain ⟨l, -, rfl⟩ := List.mem_map.1 hlabel
    exact ⟨.inl rfl, _, rfl⟩
  · obtain ⟨p, -, rfl⟩ := List.mem_map.1 hpoint
    exact ⟨.inr rfl, _, rfl⟩

theorem fits_requestFields {series : List Series} (hsize : (encode series).length < UInt64.size) :
    ∀ f ∈ requestFields series, f.Fits := by
  refine forall_fits_of_bytes hsize fun f hf => ?_
  obtain ⟨s, -, rfl⟩ := List.mem_map.1 hf
  exact ⟨.inl rfl, _, rfl⟩

/-! ## Labels and points -/

theorem foldlM_textField_name (value : String) (s : String) :
    (textField 1 s).foldlM addLabelField ⟨"", value⟩ = some ⟨s, value⟩ := by
  unfold textField
  split
  · next hs =>
    rw [hs]
    rfl
  · simp [addLabelField]

theorem foldlM_textField_value (name : String) (s : String) :
    (textField 2 s).foldlM addLabelField ⟨name, ""⟩ = some ⟨name, s⟩ := by
  unfold textField
  split
  · next hs =>
    rw [hs]
    rfl
  · simp [addLabelField]

theorem decodeLabel?_message {l : Label}
    (hsize : (message (labelFields l)).length < UInt64.size) :
    decodeLabel? (message (labelFields l)) = some l := by
  unfold decodeLabel?
  rw [fields?_message (fits_labelFields hsize)]
  unfold labelFields
  simp only [Option.bind_eq_bind, Option.bind_some, List.foldlM_append, foldlM_textField_name,
    foldlM_textField_value]

theorem decodePoint?_message (p : Point) :
    decodePoint? (message (pointFields p)) = some p.received := by
  have hvalue : (if p.value.isZero then [] else [⟨1, .fixed64 p.value.bits.toNat⟩]).foldlM
      addPointField ⟨⟨0⟩, 0⟩ = some ⟨p.received.value, 0⟩ := by
    unfold Point.received
    split
    · next hzero =>
      rcases Binary64.isZero_iff.1 hzero with hz | hz
      · simp [hz, Binary64.negativeZero]
      · simp [hz]
    · next hzero =>
      have hne : p.value ≠ .negativeZero := fun h => hzero (Binary64.isZero_iff.2 (.inr h))
      simp [addPointField, hne]
  have htime : (if p.time = 0 then [] else [⟨2, .varint p.time.toUInt64.toNat⟩]).foldlM
      addPointField ⟨p.received.value, 0⟩ = some ⟨p.received.value, p.time⟩ := by
    split
    · next hzero => simp [hzero]
    · simp [addPointField]
  have hreceived : (⟨p.received.value, p.time⟩ : Point) = p.received := by
    unfold Point.received
    split <;> rfl
  unfold decodePoint?
  rw [fields?_message (fits_pointFields p)]
  unfold pointFields
  simp only [Option.bind_eq_bind, Option.bind_some, List.foldlM_append, hvalue, htime, hreceived]

/-! ## Series and requests -/

/-- Fields of one number add their items in order. -/
theorem foldlM_repeated {α β γ : Type} {add : α → Field → Option α} {field : β → Field}
    {got : β → γ} (put : List γ → α) {items : List β}
    (h : ∀ x ∈ items, ∀ acc, add (put acc) (field x) = some (put (acc ++ [got x])))
    (acc : List γ) : (items.map field).foldlM add (put acc) = some (put (acc ++ items.map got)) := by
  induction items generalizing acc with
  | nil => simp
  | cons x r ih =>
    obtain ⟨hx, hr⟩ := List.forall_mem_cons.1 h
    rw [List.map_cons, List.foldlM_cons, hx]
    simp only [Option.bind_eq_bind, Option.bind_some, ih hr]
    simp

theorem decodeSeries?_message {s : Series}
    (hsize : (message (seriesFields s)).length < UInt64.size) :
    decodeSeries? (message (seriesFields s)) = some s.received := by
  have hlabels : (s.labels.map fun l => (⟨1, .bytes (message (labelFields l))⟩ : Field)).foldlM
      addSeriesField ⟨[], []⟩ = some ⟨[] ++ s.labels.map id, []⟩ := by
    refine foldlM_repeated (fun acc => Series.mk acc []) (fun l hl acc => ?_) []
    have hmem : (⟨1, .bytes (message (labelFields l))⟩ : Field) ∈ seriesFields s :=
      List.mem_append_left _ (List.mem_map.2 ⟨l, hl, rfl⟩)
    have hl := decodeLabel?_message (Nat.lt_of_le_of_lt (length_le_message hmem) hsize)
    simp [addSeriesField, hl]
  have hpoints : (s.points.map fun p => (⟨2, .bytes (message (pointFields p))⟩ : Field)).foldlM
      addSeriesField ⟨s.labels, []⟩ = some ⟨s.labels, [] ++ s.points.map Point.received⟩ := by
    refine foldlM_repeated (fun acc => Series.mk s.labels acc) (fun p _ acc => ?_) []
    simp [addSeriesField, decodePoint?_message]
  rw [List.map_id, List.nil_append] at hlabels
  unfold decodeSeries?
  rw [fields?_message (fits_seriesFields hsize)]
  unfold seriesFields
  simp only [Option.bind_eq_bind, Option.bind_some, List.foldlM_append, hlabels, hpoints]
  rfl

theorem decode?_encode {series : List Series} (hsize : (encode series).length < UInt64.size) :
    decode? (encode series) = some (series.map Series.received) := by
  have hadded : (requestFields series).foldlM addRequestField [] =
      some ([] ++ series.map Series.received) := by
    refine foldlM_repeated id (fun s hs acc => ?_) []
    have hmem : (⟨1, .bytes (message (seriesFields s))⟩ : Field) ∈ requestFields series :=
      List.mem_map.2 ⟨s, hs, rfl⟩
    have hs := decodeSeries?_message (Nat.lt_of_le_of_lt (length_le_message hmem) hsize)
    simp [addRequestField, hs]
  unfold decode? encode
  rw [fields?_message (fits_requestFields hsize)]
  exact hadded

/-! ## Compressed -/

theorem decode?_encode_of_compress {pack : Bytes → Bytes} {series : List Series} {block : Bytes}
    (h : Snappy.compress pack (encode series) = .ok block) :
    decode? (encode series) = some (series.map Series.received) :=
  decode?_encode (Nat.lt_trans (Snappy.lt_of_fits (Snappy.fits_of_compress h)) (by decide))

/-- Contents may be packed in any way that decompressing undoes. There is a block for every request that
fits, and from a block the request is read back: the same series in the same order, with the same labels
and points. -/
theorem request_survives_wire {pack : Bytes → Bytes} (hpack : Snappy.Undone pack)
    (series : List Series) :
    (Snappy.fits (encode series).length = true →
      ∃ block, Snappy.compress pack (encode series) = .ok block) ∧
    ∀ block, Snappy.compress pack (encode series) = .ok block →
      Snappy.decompress? block = some (encode series) ∧
      decode? (encode series) = some (series.map Series.received) := by
  refine ⟨fun hfits => ⟨_, Snappy.compress_of_fits hfits⟩, fun block hblock => ?_⟩
  exact ⟨hpack.decompress?_of_compress hblock, decode?_encode_of_compress hblock⟩

/-- A series with an empty label and with values and times at the edges, and one that is empty. -/
def edges : List Series :=
  [⟨[⟨"__name__", "m_up"⟩, ⟨"", ""⟩, ⟨"é", ""⟩],
      [⟨.negativeZero, -1⟩, ⟨⟨0x7ff8000000000001⟩, Int64.minValue⟩, ⟨⟨0x3ff0000000000000⟩, 0⟩]⟩,
    ⟨[], []⟩]

theorem edges_survive : ∃ block, Snappy.compress Snappy.literalBlock (encode edges) = .ok block ∧
    (Snappy.decompress? block).bind decode? = some
      [⟨[⟨"__name__", "m_up"⟩, ⟨"", ""⟩, ⟨"é", ""⟩],
          [⟨⟨0⟩, -1⟩, ⟨⟨0x7ff8000000000001⟩, Int64.minValue⟩, ⟨⟨0x3ff0000000000000⟩, 0⟩]⟩,
        ⟨[], []⟩] := by
  obtain ⟨hexists, hread⟩ := request_survives_wire Snappy.undone_literalBlock edges
  obtain ⟨block, hblock⟩ := hexists (by decide +kernel)
  obtain ⟨hcontent, hseries⟩ := hread block hblock
  refine ⟨block, hblock, ?_⟩
  rw [hcontent, Option.bind_some, hseries]
  rfl

end Wire

end MetricRelay
