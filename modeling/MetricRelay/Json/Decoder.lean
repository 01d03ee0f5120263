import MetricRelay.Json.Value
import MetricRelay.Table

/-!
# Reading typed content

A `Decoder` reads a node for what it should hold, at most so many levels deep as there is room. Lists
and maps are read in the order of the text, so the first fault of any kind is the one reported. A
record is read from a map by `record`, or from a list of its fields in order, with the help of
`next?` and `finish`.
-/

namespace MetricRelay.Json

abbrev Decoder (α : Type) := (room : Nat) → Node → Except Fault α

/-- What a node holds, if its form is sound so far. -/
def Node.found : Node → Except Fault Found
  | .broken fault => .error fault
  | .null => .ok .null
  | .bool b => .ok (.bool b)
  | .number reading _ => reading.map .number
  | .text l => l.reading.map .text
  | .list _ => .ok .list
  | .map _ => .ok .map

def mismatch {α : Type} (expected : String) (n : Node) : Except Fault α := do
  throw (.wrongType (← n.found) expected)

/-- Enters a list or a map. -/
def descend {α : Type} (room : Nat) (f : Nat → Except Fault α) : Except Fault α :=
  if room = 0 then .error .tooDeep else f (room - 1)

namespace Decoder

variable {α : Type}

def text : Decoder String := fun _ n =>
  match n with
  | .text l => l.reading
  | n => mismatch "a string" n

/-- A number of 64 bits, called by the name of its type where it does not fit. -/
def word (typeName : String) : Decoder UInt64 := fun _ n => do
  match ← n.found with
  | .number (.natural n) => return UInt64.ofNat n
  | .number (.negative n) => throw (.wrongValue (.number (.negative n)) typeName)
  | found => throw (.wrongType found typeName)

/-- Null is nothing. -/
def optional (d : Decoder α) : Decoder (Option α) := fun room n =>
  match n with
  | .null => .ok none
  | n => do return some (← d room n)

end Decoder

/-! ## Lists and maps -/

def Items.decode {α : Type} (d : Node → Except Fault α) : Items → Except Fault (List α)
  | .close e => do
    e.reading
    return []
  | .item node rest => do
    let a ← d node
    return a :: (← rest.decode d)

/-- Reads members in order into `acc`. -/
def Members.fold {α : Type} (step : α → String → Node → Except Fault α) (acc : α) :
    Members → Except Fault α
  | .close e => do
    e.reading
    return acc
  | .member key value rest => do
    let k ← key.reading
    rest.fold step (← step acc k value)

namespace Decoder

variable {α : Type}

def list (d : Decoder α) : Decoder (List α) := fun room n =>
  match n with
  | .list items => descend room fun room => items.decode (d room)
  | n => mismatch "a sequence" n

/-- A map of texts; of two members of one name the later counts. -/
def table : Decoder (Table String) := fun room n =>
  match n with
  | .map members => descend room fun room =>
    members.fold (fun t k n => do return t.insert k (← text room n)) .empty
  | n => mismatch "a map" n

end Decoder

/-! ## Records -/

/-- Reads a field that may occur once. -/
def once {α : Type} (name : String) (slot : Option α) (d : Node → Except Fault α) (n : Node) :
    Except Fault (Option α) :=
  if slot.isSome then .error (.duplicateField name) else do return some (← d n)

def needed {α : Type} (name : String) : Option α → Except Fault α
  | some a => .ok a
  | none => .error (.missingField name)

/-- The next item of a list, if there is one. -/
def Items.next? : Items → Except Fault (Option (Node × Items))
  | .close e => do
    e.reading
    return none
  | .item node rest => .ok (some (node, rest))

/-- How many items are left, and how the list ends. -/
def Items.remaining : Items → Nat × ListEnd
  | .close e => (0, e)
  | .item _ rest =>
    let (n, e) := rest.remaining
    (n + 1, e)

/-- Checks that a list ends after the `count` items of a record. -/
def Items.finish (count : Nat) (items : Items) : Except Fault Unit :=
  match items with
  | .close .noSeparator => .error .trailingCharacters
  | .close .commaThenCut => .error .trailingCharacters
  | .close e => e.reading
  | .item .. =>
    match items.remaining with
    | (n, .built) => .error (.wrongLength (count + n) "fewer elements in array")
    | _ => .error .trailingCharacters

/-- A field of a record in list form: the item if there is one, else what stands in for it. -/
def Items.field {α : Type} (d : Node → Except Fault α) (absent : Except Fault α) (items : Items) :
    Except Fault (α × Items) := do
  match ← items.next? with
  | some (node, rest) => return (← d node, rest)
  | none => return (← absent, items)

/-- A record in either form. -/
def record {α : Type} (expected : String) (fromList : Nat → Items → Except Fault α)
    (fromMap : Nat → Members → Except Fault α) : Decoder α := fun room n =>
  match n with
  | .list items => descend room fun room => fromList room items
  | .map members => descend room fun room => fromMap room members
  | n => mismatch expected n

/-- Reads a whole text. -/
def decode {α : Type} (d : Decoder α) (text : String) : Except Fault α := do
  let doc := Document.scan text
  let a ← d depthLimit doc.root
  if doc.trailing then throw .trailingCharacters
  return a

end MetricRelay.Json
