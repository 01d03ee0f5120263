import MetricRelay.Text.Utf8

/-!
# HTTP headers

`Headers` are header lines in order, with names in lower case; a name may occur more than once.
`append` adds a line, `replace` sets all lines of the names it is given, `offer` adds a line unless
the name is there. `get` lists the values of a name.
-/

namespace MetricRelay.Http

/-- The characters of header names. -/
def isTokenChar (c : Char) : Bool := c.isAlphanum || "!#$%&'*+-.^_`|~".toList.contains c

/-- A header name in lower case; none if it is empty, overlong or has another character. -/
def headerName? (s : String) : Option String :=
  if s ≠ "" ∧ s.toList.all isTokenChar ∧ s.utf8ByteSize < UInt16.size then
    some (String.ofList (s.toList.map Char.toLower))
  else none

/-- A header value has no controls but the tab. -/
def isHeaderValue (s : String) : Bool :=
  s.toList.all fun c => (0x20 ≤ c.toNat && c.toNat ≠ 0x7f) || c = '\t'

structure Headers where
  lines : List (String × String)
  deriving DecidableEq, Repr

namespace Headers

def empty : Headers := ⟨[]⟩

/-- The values of a name, in order. -/
def get (h : Headers) (name : String) : List String :=
  (h.lines.filter fun l => l.1 = name).map Prod.snd

def contains (h : Headers) (name : String) : Bool := h.lines.any fun l => l.1 = name

def append (h : Headers) (name value : String) : Headers := ⟨h.lines ++ [(name, value)]⟩

/-- The lines of `given` displace all lines of their names. -/
def replace (h given : Headers) : Headers :=
  ⟨(h.lines.filter fun l => !given.contains l.1) ++ given.lines⟩

/-- Adds a line unless there is one of that name. -/
def offer (h : Headers) (name value : String) : Headers :=
  if h.contains name then h else h.append name value

/-- The lines by name; lines of one name keep their order. -/
def sorted (h : Headers) : List (String × String) :=
  h.lines.mergeSort fun a b => decide (a.1 ≤ b.1)

theorem get_append (h : Headers) (name value n : String) :
    (h.append name value).get n = h.get n ++ if name = n then [value] else [] := by
  by_cases e : name = n <;> simp [get, append, e]

theorem contains_eq_false_iff (h : Headers) (n : String) : h.contains n = false ↔ h.get n = [] := by
  simp [contains, get]

theorem get_replace (h given : Headers) (n : String) :
    (h.replace given).get n = if given.contains n then given.get n else h.get n := by
  unfold replace get
  rw [List.filter_append, List.filter_filter, List.map_append]
  by_cases e : given.contains n
  · rw [if_pos e, List.filter_eq_nil_iff.2, List.map_nil, List.nil_append]
    rintro l - hl
    simp only [Bool.and_eq_true, decide_eq_true_eq, Bool.not_eq_true'] at hl
    rw [hl.1, e] at hl
    exact absurd hl.2 (by simp)
  · have : given.get n = [] := (contains_eq_false_iff given n).1 (by simpa using e)
    rw [if_neg e, show (given.lines.filter fun l => l.1 = n).map Prod.snd = [] from this,
      List.append_nil]
    congr 1
    refine List.filter_congr fun l _ => ?_
    by_cases hl : l.1 = n
    · simp [hl, Bool.eq_false_iff.2 e]
    · simp [hl]

end Headers

end MetricRelay.Http
