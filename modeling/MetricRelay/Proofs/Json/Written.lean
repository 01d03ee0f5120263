import MetricRelay.Json.Value
import MetricRelay.Proofs.Json.Literal
import MetricRelay.Proofs.Json.Number

/-!
# Values and how they are written

`Written` says how a value may be written in JSON: with space between its parts, and with its texts
spelled in any way. It knows whole numbers, texts, lists and maps. However a value is written, scanning
the text gives the document of that value (`scan_of_written`). `Value.render` is one way to write a
value (`written_render`).
-/

namespace MetricRelay.Json

/-! ## Documents of values -/

mutual

/-- The document of a value, its lists ending in one way. -/
def Value.nodeWith (e : ListEnd) : Value → Node
  | .null => .null
  | .bool b => .bool b
  | .number n => .number (.ok n) (.ok ())
  | .text s => .text (.ofText s)
  | .list items => .list (itemNodesWith e items)
  | .map members => .map (memberNodesWith e members)

def itemNodesWith (e : ListEnd) : List Value → Items
  | [] => .close e
  | v :: r => .item (v.nodeWith e) (itemNodesWith e r)

def memberNodesWith (e : ListEnd) : List (String × Value) → Members
  | [] => .close .closed
  | (k, v) :: r => .member (.ofText k) (v.nodeWith e) (memberNodesWith e r)

end

mutual

theorem Value.nodeWith_built : ∀ v : Value, v.nodeWith .built = v.node
  | .null | .bool _ | .number _ | .text _ => rfl
  | .list items => congrArg Node.list (itemNodesWith_built items)
  | .map members => congrArg Node.map (memberNodesWith_built members)

theorem itemNodesWith_built : ∀ vs : List Value, itemNodesWith .built vs = itemNodes vs
  | [] => rfl
  | v :: r => congrArg₂ Items.item v.nodeWith_built (itemNodesWith_built r)

theorem memberNodesWith_built :
    ∀ ms : List (String × Value), memberNodesWith .built ms = memberNodes ms
  | [] => rfl
  | (k, v) :: r => congrArg₂ (Members.member (.ofText k)) v.nodeWith_built (memberNodesWith_built r)

end

/-! ## How a value is written -/

def IsSpaces (ws : List Char) : Prop := ∀ c ∈ ws, isSpace c = true

/-- What is written. -/
inductive Part where
  | value (v : Value)
  /-- Items, one at least, and the end of their list. -/
  | items (vs : List Value)
  /-- Members, one at least, and the end of their map. -/
  | members (ms : List (String × Value))

inductive Written : Part → List Char → Prop where
  | natural {n : Nat} : n < UInt64.size → Written (.value (.number (.natural n))) (Nat.toDigits 10 n)
  | text {s : String} {t : List Char} : Spelled s.toList t →
      Written (.value (.text s)) ('"' :: (t ++ ['"']))
  | emptyList {ws : List Char} : IsSpaces ws → Written (.value (.list [])) ('[' :: (ws ++ [']']))
  | list {vs : List Value} {t : List Char} : Written (.items vs) t →
      Written (.value (.list vs)) ('[' :: t)
  | emptyMap {ws : List Char} : IsSpaces ws →
      Written (.value (.map [])) ('\x7b' :: (ws ++ ['\x7d']))
  | map {ms : List (String × Value)} {t : List Char} : Written (.members ms) t →
      Written (.value (.map ms)) ('\x7b' :: t)
  | spaced {v : Value} {ws t ws' : List Char} : IsSpaces ws → Written (.value v) t → IsSpaces ws' →
      Written (.value v) (ws ++ (t ++ ws'))
  | lastItem {v : Value} {t : List Char} : Written (.value v) t → Written (.items [v]) (t ++ [']'])
  | item {v : Value} {vs : List Value} {t r : List Char} : Written (.value v) t →
      Written (.items vs) r → Written (.items (v :: vs)) (t ++ ',' :: r)
  | lastMember {k : String} {v : Value} {ws key ws' t : List Char} : IsSpaces ws →
      Spelled k.toList key → IsSpaces ws' → Written (.value v) t →
      Written (.members [(k, v)]) (ws ++ '"' :: (key ++ '"' :: (ws' ++ ':' :: (t ++ ['\x7d']))))
  | member {k : String} {v : Value} {ms : List (String × Value)} {ws key ws' t r : List Char} :
      IsSpaces ws → Spelled k.toList key → IsSpaces ws' → Written (.value v) t →
      Written (.members ms) r →
      Written (.members ((k, v) :: ms))
        (ws ++ '"' :: (key ++ '"' :: (ws' ++ ':' :: (t ++ ',' :: r))))

/-! ## Space -/

variable {ws s t r : List Char} {c : Char}

theorem isSpaces_nil : IsSpaces [] := List.forall_mem_nil _

theorem dropSpace_append (h : IsSpaces ws) (s : List Char) : dropSpace (ws ++ s) = dropSpace s :=
  List.dropWhile_append_of_pos h

theorem dropSpace_cons (h : isSpace c = false) : dropSpace (c :: r) = c :: r :=
  List.dropWhile_cons_of_neg (by rw [h]; exact Bool.false_ne_true)

theorem dropSpace_spaces (h : IsSpaces ws) : dropSpace ws = [] := by
  have hnil := dropSpace_append h []
  rwa [List.append_nil] at hnil

theorem separator_append (h : IsSpaces ws) (close : Char) (s : List Char) :
    separator close (ws ++ s) = separator close s := by
  rw [separator, dropSpace_append h, ← separator]

theorem scanValue_append (h : IsSpaces ws) (fuel : Nat) (s : List Char) :
    scanValue fuel (ws ++ s) = scanValue fuel s := by
  cases fuel with
  | zero => simp only [scanValue]
  | succ fuel => simp only [scanValue, dropSpace_append h]

theorem stops_spaces (h : IsSpaces ws) (hr : Stops r) : Stops (ws ++ r) := by
  cases ws with
  | nil => exact hr
  | cons c ws =>
    intro d hd
    cases hd
    have hspace : ∀ c, isSpace c = true → c.isDigit = false ∧ c ≠ '.' ∧ c ≠ 'e' ∧ c ≠ 'E' := by
      intro c hc
      simp only [isSpace, Bool.or_eq_true, decide_eq_true_eq] at hc
      rcases hc with ((rfl | rfl) | rfl) | rfl <;> decide
    exact hspace c (h c List.mem_cons_self)

/-! ## Scanning what is written -/

theorem stops_cons (h : c.isDigit = false ∧ c ≠ '.' ∧ c ≠ 'e' ∧ c ≠ 'E') (r : List Char) :
    Stops (c :: r) := by
  rintro _ ⟨⟩
  exact h

theorem isSpace_of_isDigit (h : c.isDigit = true) : isSpace c = false := by
  refine Bool.eq_false_iff.2 fun hs => ?_
  simp only [isSpace, Bool.or_eq_true, decide_eq_true_eq] at hs
  rcases hs with ((rfl | rfl) | rfl) | rfl <;> cases h

/-- What is written begins with something else than the end of a list or a map. -/
theorem exists_begin {p : Part} (h : Written p t) (r : List Char) :
    ∃ c u, dropSpace (t ++ r) = c :: u ∧ c ≠ ']' ∧ c ≠ '\x7d' ∧ c ≠ ',' := by
  induction h generalizing r with
  | @natural n _ =>
    obtain ⟨c, digits, hn, hc, -, -⟩ := exists_toDigits n
    refine ⟨c, digits ++ r, ?_, ?_, ?_, ?_⟩
    · rw [hn]
      exact dropSpace_cons (isSpace_of_isDigit hc)
    all_goals
      rintro rfl
      cases hc
  | text => exact ⟨_, _, dropSpace_cons (by decide), by decide, by decide, by decide⟩
  | emptyList => exact ⟨_, _, dropSpace_cons (by decide), by decide, by decide, by decide⟩
  | list => exact ⟨_, _, dropSpace_cons (by decide), by decide, by decide, by decide⟩
  | emptyMap => exact ⟨_, _, dropSpace_cons (by decide), by decide, by decide, by decide⟩
  | map => exact ⟨_, _, dropSpace_cons (by decide), by decide, by decide, by decide⟩
  | spaced hws _ _ ih =>
    rw [List.append_assoc, dropSpace_append hws, List.append_assoc]
    exact ih _
  | lastItem _ ih => rw [List.append_assoc]; exact ih _
  | item _ _ ih => rw [List.append_assoc]; exact ih _
  | lastMember hws | member hws =>
    rw [List.append_assoc, dropSpace_append hws]
    exact ⟨_, _, dropSpace_cons (by decide), by decide, by decide, by decide⟩

theorem separator_of_written {p : Part} {close : Char} (hclose : close = ']' ∨ close = '\x7d')
    (h : Written p t) (r : List Char) : separator close (t ++ r) = .other := by
  obtain ⟨c, u, hbegin, hlist, hmap, hcomma⟩ := exists_begin h r
  have hne : c ≠ close := by
    rcases hclose with rfl | rfl
    · exact hlist
    · exact hmap
  simp only [separator, hbegin, if_neg hne, if_neg hcomma]

/-- Scanning gives the document of what is written, and what follows it. -/
def Scans : Part → List Char → Prop
  | .value v, t => ∀ fuel r, t.length ≤ fuel → Stops r →
      ∃ ws, IsSpaces ws ∧ scanValue fuel (t ++ r) = (v.nodeWith .closed, some (ws ++ r))
  | .items vs, t => ∀ fuel r, t.length ≤ fuel →
      scanItems fuel (t ++ r) = (itemNodesWith .closed vs, some r)
  | .members ms, t => ∀ fuel r, t.length ≤ fuel →
      scanMembers fuel (t ++ r) = (memberNodesWith .closed ms, some r)

theorem scanValue_digit (hc : c.isDigit = true) (fuel : Nat) :
    scanValue (fuel + 1) (c :: r) = scanNumber false (c :: r) := by
  have hne : ∀ d : Char, d.isDigit = false → c ≠ d := by
    rintro d hd rfl
    cases hc.symm.trans hd
  simp only [scanValue, dropSpace_cons (isSpace_of_isDigit hc), if_neg (hne 'n' rfl),
    if_neg (hne 't' rfl), if_neg (hne 'f' rfl), if_neg (hne '-' rfl), if_pos hc]

theorem scanValue_quote (fuel : Nat) (r : List Char) :
    scanValue (fuel + 1) ('"' :: r) = ((.text (scanLiteral fuel r).1, (scanLiteral fuel r).2)) := by
  rw [scanValue, dropSpace_cons (by decide)]
  rfl

theorem scanValue_list (fuel : Nat) (r : List Char) :
    scanValue (fuel + 1) ('[' :: r) =
      match separator ']' r with
      | .cut => (.list (.close .cut), none)
      | .closed rest => (.list (.close .closed), some rest)
      | _ => (.list (scanItems fuel r).1, (scanItems fuel r).2) := by
  rw [scanValue, dropSpace_cons (by decide)]
  rfl

theorem scanValue_map (fuel : Nat) (r : List Char) :
    scanValue (fuel + 1) ('\x7b' :: r) =
      match separator '\x7d' r with
      | .cut => (.map (.close .cut), none)
      | .closed rest => (.map (.close .closed), some rest)
      | _ => (.map (scanMembers fuel r).1, (scanMembers fuel r).2) := by
  rw [scanValue, dropSpace_cons (by decide)]
  rfl

theorem separator_closed (h : IsSpaces ws) {close : Char} (hclose : close = ']' ∨ close = '\x7d')
    (r : List Char) : separator close (ws ++ close :: r) = .closed r := by
  have hspace : isSpace close = false := by rcases hclose with rfl | rfl <;> decide
  rw [separator_append h]
  simp only [separator, dropSpace_cons hspace, if_pos]

theorem separator_comma (h : IsSpaces ws) {close : Char} (hclose : close = ']' ∨ close = '\x7d')
    (r : List Char) : separator close (ws ++ ',' :: r) = .comma r := by
  have hne : ',' ≠ close := by rcases hclose with rfl | rfl <;> decide
  rw [separator_append h]
  simp only [separator, dropSpace_cons (show isSpace ',' = false by decide), if_neg hne, if_pos]

/-- What is left to scan of a member once its key has been read. -/
theorem scanMembers_key {k : String} {key ws' : List Char} (hws : IsSpaces ws)
    (hkey : Spelled k.toList key) (hws' : IsSpaces ws') {fuel : Nat} (hfuel : key.length < fuel)
    {v : Value} {rest : List Char}
    (hv : scanValue fuel s = (v.nodeWith .closed, some rest)) :
    scanMembers (fuel + 1) (ws ++ '"' :: (key ++ '"' :: (ws' ++ ':' :: s))) =
      match separator '\x7d' rest with
      | .closed rest => (.member (.ofText k) (v.nodeWith .closed) (.close .closed), some rest)
      | .cut => (.member (.ofText k) (v.nodeWith .closed) (.close .cut), none)
      | .other => (.member (.ofText k) (v.nodeWith .closed) (.close .noSeparator), none)
      | .comma r =>
        match separator '\x7d' r with
        | .closed _ => (.member (.ofText k) (v.nodeWith .closed) (.close .commaThenClosed), none)
        | .cut => (.member (.ofText k) (v.nodeWith .closed) (.close .commaThenCut), none)
        | _ => (.member (.ofText k) (v.nodeWith .closed) (scanMembers fuel r).1,
            (scanMembers fuel r).2) := by
  rw [scanMembers, dropSpace_append hws, dropSpace_cons (by decide)]
  simp only [scanLiteral_spelled hkey hfuel, dropSpace_append hws',
    dropSpace_cons (show isSpace ':' = false by decide), hv, String.ofList_toList]
  cases separator '\x7d' rest with
  | comma r => cases hr : separator '\x7d' r <;> simp only [hr, Literal.ofText]
  | _ => rfl

/-! ## What is scanned, part by part -/

variable {v : Value} {vs : List Value} {ms : List (String × Value)}

/-- A value that is scanned up to its last character. Every part takes a character at least, so the fuel
outlasts the text. -/
theorem scans_value (h : ∀ fuel r, t.length ≤ fuel → Stops r →
    scanValue (fuel + 1) (c :: (t ++ r)) = (v.nodeWith .closed, some r)) : Scans (.value v) (c :: t) := by
  intro fuel r hfuel hr
  obtain ⟨fuel, rfl⟩ := Nat.exists_eq_add_one.2 (Nat.zero_lt_of_lt hfuel)
  exact ⟨[], isSpaces_nil, h fuel r (Nat.le_of_succ_le_succ hfuel) hr⟩

theorem scans_natural {n : Nat} (hn : n < UInt64.size) :
    Scans (.value (.number (.natural n))) (Nat.toDigits 10 n) := by
  obtain ⟨c, digits, heq, hc, -, -⟩ := exists_toDigits n
  rw [heq]
  refine scans_value fun fuel r _ hr => ?_
  have hscan := scanNumber_toDigits hn hr
  rw [heq] at hscan
  exact (scanValue_digit hc fuel).trans hscan

theorem scans_text {s : String} (h : Spelled s.toList t) :
    Scans (.value (.text s)) ('"' :: (t ++ ['"'])) := by
  refine scans_value fun fuel r hfuel _ => ?_
  simp only [List.length_append, List.length_singleton] at hfuel
  rw [List.append_assoc, scanValue_quote, List.singleton_append, scanLiteral_spelled h hfuel,
    String.ofList_toList]
  rfl

theorem scans_emptyList (h : IsSpaces ws) : Scans (.value (.list [])) ('[' :: (ws ++ [']'])) := by
  refine scans_value fun fuel r _ _ => ?_
  rw [List.append_assoc, scanValue_list, List.singleton_append, separator_closed h (.inl rfl)]
  rfl

theorem scans_list (h : Written (.items vs) t) (hitems : Scans (.items vs) t) :
    Scans (.value (.list vs)) ('[' :: t) := by
  refine scans_value fun fuel r hfuel _ => ?_
  rw [scanValue_list, separator_of_written (.inl rfl) h, hitems fuel r hfuel]
  rfl

theorem scans_emptyMap (h : IsSpaces ws) :
    Scans (.value (.map [])) ('\x7b' :: (ws ++ ['\x7d'])) := by
  refine scans_value fun fuel r _ _ => ?_
  rw [List.append_assoc, scanValue_map, List.singleton_append, separator_closed h (.inr rfl)]
  rfl

theorem scans_map (h : Written (.members ms) t) (hmembers : Scans (.members ms) t) :
    Scans (.value (.map ms)) ('\x7b' :: t) := by
  refine scans_value fun fuel r hfuel _ => ?_
  rw [scanValue_map, separator_of_written (.inr rfl) h, hmembers fuel r hfuel]
  rfl

theorem scans_spaced {ws' : List Char} (hws : IsSpaces ws) (hv : Scans (.value v) t)
    (hws' : IsSpaces ws') : Scans (.value v) (ws ++ (t ++ ws')) := by
  intro fuel r hfuel hr
  simp only [List.length_append] at hfuel
  obtain ⟨ws'', hws'', hscan⟩ := hv fuel (ws' ++ r) (by omega) (stops_spaces hws' hr)
  refine ⟨ws'' ++ ws', ?_, ?_⟩
  · exact fun c hc => (List.mem_append.1 hc).elim (hws'' c) (hws' c)
  · rw [List.append_assoc, List.append_assoc, scanValue_append hws, hscan, List.append_assoc]

theorem scans_lastItem (hv : Scans (.value v) t) : Scans (.items [v]) (t ++ [']']) := by
  intro fuel r hfuel
  simp only [List.length_append, List.length_singleton] at hfuel
  obtain ⟨fuel, rfl⟩ := Nat.exists_eq_add_one.2 (Nat.zero_lt_of_lt hfuel)
  obtain ⟨ws, hws, hscan⟩ := hv fuel (']' :: r) (Nat.le_of_succ_le_succ hfuel)
    (stops_cons (by decide) r)
  rw [List.append_assoc, List.singleton_append, scanItems, hscan]
  simp only [separator_closed hws (.inl rfl)]
  rfl

theorem scans_item (hv : Scans (.value v) t) (h : Written (.items vs) s) (hitems : Scans (.items vs) s) :
    Scans (.items (v :: vs)) (t ++ ',' :: s) := by
  intro fuel r hfuel
  simp only [List.length_append, List.length_cons] at hfuel
  obtain ⟨fuel, rfl⟩ := Nat.exists_eq_add_one.2 (Nat.zero_lt_of_lt hfuel)
  obtain ⟨ws, hws, hscan⟩ := hv fuel (',' :: (s ++ r)) (by omega) (stops_cons (by decide) _)
  have hmore := hitems fuel r (by omega)
  rw [List.append_assoc, List.cons_append, scanItems, hscan]
  simp only [separator_comma hws (.inl rfl), separator_of_written (.inl rfl) h, hmore]
  rfl

theorem scans_lastMember {k : String} {key ws' : List Char} (hws : IsSpaces ws)
    (hkey : Spelled k.toList key) (hws' : IsSpaces ws') (hv : Scans (.value v) t) :
    Scans (.members [(k, v)]) (ws ++ '"' :: (key ++ '"' :: (ws' ++ ':' :: (t ++ ['\x7d'])))) := by
  intro fuel r hfuel
  simp only [List.length_append, List.length_cons, List.length_nil] at hfuel
  obtain ⟨fuel, rfl⟩ := Nat.exists_eq_add_one.2 (Nat.zero_lt_of_lt hfuel)
  obtain ⟨ws'', hws'', hscan⟩ := hv fuel ('\x7d' :: r) (by omega) (stops_cons (by decide) r)
  have hmember := scanMembers_key hws hkey hws' (by omega) hscan
  simp only [separator_closed hws'' (.inr rfl)] at hmember
  simpa only [memberNodesWith, List.append_assoc, List.cons_append, List.nil_append] using hmember

theorem scans_member {k : String} {key ws' : List Char} (hws : IsSpaces ws)
    (hkey : Spelled k.toList key) (hws' : IsSpaces ws') (hv : Scans (.value v) t)
    (h : Written (.members ms) s) (hmembers : Scans (.members ms) s) :
    Scans (.members ((k, v) :: ms))
      (ws ++ '"' :: (key ++ '"' :: (ws' ++ ':' :: (t ++ ',' :: s)))) := by
  intro fuel r hfuel
  simp only [List.length_append, List.length_cons] at hfuel
  obtain ⟨fuel, rfl⟩ := Nat.exists_eq_add_one.2 (Nat.zero_lt_of_lt hfuel)
  obtain ⟨ws'', hws'', hscan⟩ := hv fuel (',' :: (s ++ r)) (by omega) (stops_cons (by decide) _)
  have hmember := scanMembers_key hws hkey hws' (by omega) hscan
  have hmore := hmembers fuel r (by omega)
  simp only [separator_comma hws'' (.inr rfl), separator_of_written (.inr rfl) h, hmore] at hmember
  simpa only [memberNodesWith, List.append_assoc, List.cons_append] using hmember

theorem scans_of_written {p : Part} (h : Written p t) : Scans p t := by
  induction h with
  | natural hn => exact scans_natural hn
  | text hs => exact scans_text hs
  | emptyList hws => exact scans_emptyList hws
  | list hitems ih => exact scans_list hitems ih
  | emptyMap hws => exact scans_emptyMap hws
  | map hmembers ih => exact scans_map hmembers ih
  | spaced hws _ hws' ih => exact scans_spaced hws ih hws'
  | lastItem _ ih => exact scans_lastItem ih
  | item _ hitems ih ihitems => exact scans_item ih hitems ihitems
  | lastMember hws hkey hws' _ ih => exact scans_lastMember hws hkey hws' ih
  | member hws hkey hws' _ hmembers ih ihmembers =>
    exact scans_member hws hkey hws' ih hmembers ihmembers

/-- However a value is written, its text is the document of that value. -/
theorem scan_of_written {v : Value} {text : String} (h : Written (.value v) text.toList) :
    Document.scan text = ⟨v.nodeWith .closed, false⟩ := by
  obtain ⟨ws, hws, hscan⟩ := scans_of_written h (2 * text.toList.length + 2) [] (by omega) nofun
  rw [List.append_nil, List.append_nil] at hscan
  simp only [Document.scan, hscan, Option.any_some, dropSpace_spaces hws]
  rfl

/-! ## The text of a value -/

mutual

/-- Of whole numbers that fit 64 bits, texts, lists and maps. -/
def Value.plain : Value → Bool
  | .number (.natural n) => n < UInt64.size
  | .text _ => true
  | .list items => itemsPlain items
  | .map members => membersPlain members
  | _ => false

def itemsPlain : List Value → Bool
  | [] => true
  | v :: r => v.plain && itemsPlain r

def membersPlain : List (String × Value) → Bool
  | [] => true
  | (_, v) :: r => v.plain && membersPlain r

end

theorem itemsPlain_iff {vs : List Value} : itemsPlain vs = true ↔ ∀ v ∈ vs, v.plain = true := by
  induction vs with
  | nil => simp [itemsPlain]
  | cons v vs ih => simp [itemsPlain, ih]

theorem membersPlain_iff {ms : List (String × Value)} :
    membersPlain ms = true ↔ ∀ m ∈ ms, m.2.plain = true := by
  induction ms with
  | nil => simp [membersPlain]
  | cons m ms ih => simp [membersPlain, ih]

theorem textLiteral_append (k : String) (r : List Char) :
    textLiteral k ++ r = '"' :: (k.toList.flatMap escapeChar ++ '"' :: r) := by
  simp only [textLiteral, List.append_assoc, List.cons_append, List.nil_append]

mutual

/-- The text of a value is a way to write it. -/
theorem written_chars : ∀ v : Value, v.plain = true → Written (.value v) v.chars
  | .number (.natural _), h => .natural (by simpa only [Value.plain, decide_eq_true_eq] using h)
  | .text s, _ => .text (spelled_flatMap_escapeChar s.toList)
  | .list [], _ => .emptyList isSpaces_nil
  | .list (v :: r), h => .list (written_itemChars (v :: r) h (List.cons_ne_nil v r))
  | .map [], _ => .emptyMap isSpaces_nil
  | .map (m :: r), h => .map (written_memberChars (m :: r) h (List.cons_ne_nil m r))

theorem written_itemChars : ∀ vs : List Value, itemsPlain vs = true → vs ≠ [] →
    Written (.items vs) (itemChars vs)
  | [v], h, _ => .lastItem (written_chars v (Bool.and_eq_true_iff.1 h).1)
  | v :: w :: r, h, _ =>
    .item (written_chars v (Bool.and_eq_true_iff.1 h).1)
      (written_itemChars (w :: r) (Bool.and_eq_true_iff.1 h).2 (List.cons_ne_nil w r))

theorem written_memberChars : ∀ ms : List (String × Value), membersPlain ms = true → ms ≠ [] →
    Written (.members ms) (memberChars ms)
  | [(k, v)], h, _ => by
    rw [memberChars, textLiteral_append]
    have hmember := Written.lastMember isSpaces_nil (spelled_flatMap_escapeChar k.toList)
      isSpaces_nil (written_chars v (Bool.and_eq_true_iff.1 h).1)
    exact hmember
  | (k, v) :: m :: r, h, _ => by
    rw [memberChars, textLiteral_append]
    · have hmember := Written.member isSpaces_nil (spelled_flatMap_escapeChar k.toList)
        isSpaces_nil (written_chars v (Bool.and_eq_true_iff.1 h).1)
        (written_memberChars (m :: r) (Bool.and_eq_true_iff.1 h).2 (List.cons_ne_nil m r))
      exact hmember
    · exact List.cons_ne_nil m r

end

theorem written_render {v : Value} (h : v.plain = true) : Written (.value v) v.render.toList := by
  rw [Value.render, String.toList_ofList]
  exact written_chars v h

end MetricRelay.Json
