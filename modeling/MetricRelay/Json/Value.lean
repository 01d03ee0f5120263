import MetricRelay.Json.Document

/-!
# JSON values

A `Value` is a whole JSON value; maps keep the order of their members. `Node.value` reads one from
a document, at most so many levels deep as there is `room`. `Value.node` is the document of a value,
`Value.render` its text.
-/

namespace MetricRelay.Json

inductive Value where
  | null
  | bool (b : Bool)
  | number (n : Number)
  | text (s : String)
  | list (items : List Value)
  | map (members : List (String × Value))

instance : Inhabited Value := ⟨.null⟩

/-- Levels of lists and maps that may be read. -/
def depthLimit : Nat := 127

/-! ## Reading -/

mutual

def Node.value (room : Nat) : Node → Except Fault Value
  | .broken fault => .error fault
  | .null => .ok .null
  | .bool b => .ok (.bool b)
  | .number reading _ => reading.map .number
  | .text l => l.reading.map .text
  | .list items =>
    if room = 0 then .error .tooDeep else do return .list (← items.values (room - 1))
  | .map members =>
    if room = 0 then .error .tooDeep else do return .map (← members.values (room - 1))

def Items.values (room : Nat) : Items → Except Fault (List Value)
  | .close e => do
    e.reading
    return []
  | .item node rest => do
    let v ← node.value room
    return v :: (← rest.values room)

def Members.values (room : Nat) : Members → Except Fault (List (String × Value))
  | .close e => do
    e.reading
    return []
  | .member key value rest => do
    let k ← key.reading
    let v ← value.value room
    return (k, v) :: (← rest.values room)

end

/-- The value of a whole text. -/
def parse (text : String) : Except Fault Value := do
  let d := Document.scan text
  let v ← d.root.value depthLimit
  if d.trailing then throw .trailingCharacters
  return v

/-! ## Back to documents -/

def Literal.ofText (s : String) : Literal := ⟨.ok s, .ok ()⟩

mutual

def Value.node : Value → Node
  | .null => .null
  | .bool b => .bool b
  | .number n => .number (.ok n) (.ok ())
  | .text s => .text (.ofText s)
  | .list items => .list (itemNodes items)
  | .map members => .map (memberNodes members)

def itemNodes : List Value → Items
  | [] => .close .built
  | v :: r => .item v.node (itemNodes r)

def memberNodes : List (String × Value) → Members
  | [] => .close .closed
  | (k, v) :: r => .member (.ofText k) v.node (memberNodes r)

end

/-! ## Writing -/

def Number.render : Number → List Char
  | .natural n => Nat.toDigits 10 n
  | .negative n => '-' :: Nat.toDigits 10 n
  | .float x =>
    if x.isNaN ∨ x.isInfinite then "null".toList else (Decimal.tagged.render x).toList

mutual

def Value.chars : Value → List Char
  | .null => "null".toList
  | .bool true => "true".toList
  | .bool false => "false".toList
  | .number n => n.render
  | .text s => textLiteral s
  | .list items => '[' :: itemChars items
  | .map members => '\x7b' :: memberChars members

/-- Items up to the closing bracket. -/
def itemChars : List Value → List Char
  | [] => [']']
  | [v] => v.chars ++ [']']
  | v :: r => v.chars ++ ',' :: itemChars r

/-- Members up to the closing brace. -/
def memberChars : List (String × Value) → List Char
  | [] => ['\x7d']
  | [(k, v)] => textLiteral k ++ ':' :: (v.chars ++ ['\x7d'])
  | (k, v) :: r => textLiteral k ++ ':' :: (v.chars ++ ',' :: memberChars r)

end

def Value.render (v : Value) : String := String.ofList v.chars

/-! ## Looking in -/

/-- The value of the last member of that name. -/
def Value.get? (v : Value) (name : String) : Option Value :=
  match v with
  | .map members => (members.findRev? fun m => m.1 = name).map Prod.snd
  | _ => none

end MetricRelay.Json
