import MetricRelay.Json.Literal
import MetricRelay.Json.Number

/-!
# JSON documents

`Document.scan` brings a text into the form of a tree up to the first place where its form is
broken; what is wrong there is part of the tree. So a reader that goes through the tree in order
meets what is wrong with the form and what is wrong with the content in the order of the text.

Some faults matter only to a reader who wants the value, and some are named differently by a reader
who skips it: each such place holds both answers, `reading` and `skipping`.
-/

namespace MetricRelay.Json

structure Literal where
  reading : Except Fault String
  skipping : Except Fault Unit

/-- How a list ends. -/
inductive ListEnd where
  | closed
  /-- The end of a list that was not read from a text. -/
  | built
  /-- The text ends where an item, a comma or the end should be. -/
  | cut
  /-- Something else stands after an item. -/
  | noSeparator
  | commaThenClosed
  | commaThenCut
  /-- An item before it is broken. -/
  | unread
  deriving DecidableEq, Repr

/-- How a map ends. -/
inductive MapEnd where
  | closed
  | cut
  | noSeparator
  | commaThenClosed
  | commaThenCut
  /-- Something that is no text stands for a key. -/
  | noKey
  | unread
  deriving DecidableEq, Repr

mutual

inductive Node where
  /-- No value can be made out. -/
  | broken (fault : Fault)
  | null
  | bool (b : Bool)
  | number (reading : Except Fault Number) (skipping : Except Fault Unit)
  | text (literal : Literal)
  | list (items : Items)
  | map (members : Members)

inductive Items where
  | close (e : ListEnd)
  | item (node : Node) (rest : Items)

inductive Members where
  | close (e : MapEnd)
  | member (key : Literal) (value : Node) (rest : Members)

end

instance : Inhabited Node := ⟨.null⟩

/-! ## Scanning -/

def isSpace (c : Char) : Bool := c = ' ' || c = '\n' || c = '\t' || c = '\r'

def dropSpace (s : List Char) : List Char := s.dropWhile isSpace

/-- The rest of a text that must go on with `word`. -/
def expectWord : List Char → List Char → Except Fault (List Char)
  | [], r => .ok r
  | _ :: _, [] => .error .endOfText
  | a :: word, c :: r => if a = c then expectWord word r else .error .expectedWord

def scanLiteral (limit : Nat) (s : List Char) : Literal × Option (List Char) :=
  match skipText limit s with
  | .ok r => (⟨readText limit s, .ok ()⟩, some r)
  | .error e => (⟨readText limit s, .error e⟩, none)

def scanWord (node : Node) (word : String) (s : List Char) : Node × Option (List Char) :=
  match expectWord word.toList s with
  | .ok r => (node, some r)
  | .error e => (.broken e, none)

def scanNumber (negative : Bool) (s : List Char) : Node × Option (List Char) :=
  match skipNumber s with
  | .ok r => (.number (readNumber negative s) (.ok ()), some r)
  | .error e => (.number (readNumber negative s) (.error e), none)

/-- What stands after an item or a member. -/
inductive Separator where
  | closed (rest : List Char)
  | comma (rest : List Char)
  | cut
  | other

def separator (close : Char) (s : List Char) : Separator :=
  match dropSpace s with
  | [] => .cut
  | c :: r => if c = close then .closed r else if c = ',' then .comma r else .other

mutual

/-- A value and what follows it, if the text can be followed so far; `fuel` bounds the depth, the
number of parts and the length of a literal. -/
def scanValue : Nat → List Char → Node × Option (List Char)
  | 0, _ => (.broken .tooDeep, none)
  | fuel + 1, s =>
    match dropSpace s with
    | [] => (.broken .endOfText, none)
    | c :: r =>
      if c = 'n' then scanWord .null "ull" r
      else if c = 't' then scanWord (.bool true) "rue" r
      else if c = 'f' then scanWord (.bool false) "alse" r
      else if c = '-' then scanNumber true r
      else if c.isDigit then scanNumber false (c :: r)
      else if c = '"' then
        let (l, rest) := scanLiteral fuel r
        (.text l, rest)
      else if c = '[' then
        match separator ']' r with
        | .cut => (.list (.close .cut), none)
        | .closed rest => (.list (.close .closed), some rest)
        | _ =>
          let (items, rest) := scanItems fuel r
          (.list items, rest)
      else if c = '\x7b' then
        match separator '\x7d' r with
        | .cut => (.map (.close .cut), none)
        | .closed rest => (.map (.close .closed), some rest)
        | _ =>
          let (members, rest) := scanMembers fuel r
          (.map members, rest)
      else (.broken .expectedValue, none)

/-- Items from the next one on. -/
def scanItems : Nat → List Char → Items × Option (List Char)
  | 0, _ => (.close .unread, none)
  | fuel + 1, s =>
    match scanValue fuel s with
    | (node, none) => (.item node (.close .unread), none)
    | (node, some r) =>
      let (items, rest) : Items × Option (List Char) :=
        match separator ']' r with
        | .closed rest => (.close .closed, some rest)
        | .cut => (.close .cut, none)
        | .other => (.close .noSeparator, none)
        | .comma r =>
          match separator ']' r with
          | .closed _ => (.close .commaThenClosed, none)
          | .cut => (.close .commaThenCut, none)
          | _ => scanItems fuel r
      (.item node items, rest)

/-- Members from the next key on. -/
def scanMembers : Nat → List Char → Members × Option (List Char)
  | 0, _ => (.close .unread, none)
  | fuel + 1, s =>
    match dropSpace s with
    | '"' :: r =>
      match scanLiteral fuel r with
      | (key, none) => (.member key .null (.close .unread), none)
      | (key, some r) =>
        match dropSpace r with
        | [] => (.member key (.broken .endInMap) (.close .unread), none)
        | ':' :: r =>
          match scanValue fuel r with
          | (node, none) => (.member key node (.close .unread), none)
          | (node, some r) =>
            let (members, rest) : Members × Option (List Char) :=
              match separator '\x7d' r with
              | .closed rest => (.close .closed, some rest)
              | .cut => (.close .cut, none)
              | .other => (.close .noSeparator, none)
              | .comma r =>
                match separator '\x7d' r with
                | .closed _ => (.close .commaThenClosed, none)
                | .cut => (.close .commaThenCut, none)
                | _ => scanMembers fuel r
            (.member key node members, rest)
        | _ => (.member key (.broken .expectedColon) (.close .unread), none)
    | _ => (.close .noKey, none)

end

structure Document where
  root : Node
  /-- Whether anything but space follows the value. -/
  trailing : Bool

/-- Every part takes a character at least. -/
def Document.scan (text : String) : Document :=
  let s := text.toList
  let (root, rest) := scanValue (2 * s.length + 2) s
  ⟨root, rest.any fun r => dropSpace r ≠ []⟩

/-! ## Skipping -/

def ListEnd.skipping : ListEnd → Except Fault Unit
  | .cut => .error .endInList
  | .noSeparator => .error .expectedListSeparator
  | .commaThenClosed => .error .expectedValue
  | .commaThenCut => .error .endOfText
  | _ => .ok ()

def MapEnd.skipping : MapEnd → Except Fault Unit
  | .cut => .error .endInMap
  | .noSeparator => .error .expectedMapSeparator
  | .commaThenClosed => .error .keyNotText
  | .commaThenCut => .error .endInMap
  | .noKey => .error .keyNotText
  | _ => .ok ()

mutual

/-- Passes over a value; only its form must be sound. -/
def Node.skip : Node → Except Fault Unit
  | .broken fault => .error fault
  | .number _ skipping => skipping
  | .text l => l.skipping
  | .list items => items.skip
  | .map members => members.skip
  | _ => .ok ()

def Items.skip : Items → Except Fault Unit
  | .close e => e.skipping
  | .item node rest => do
    node.skip
    rest.skip

def Members.skip : Members → Except Fault Unit
  | .close e => e.skipping
  | .member key value rest => do
    key.skipping
    value.skip
    rest.skip

end

/-! ## Reading ends -/

def ListEnd.reading : ListEnd → Except Fault Unit
  | .cut => .error .endInList
  | .noSeparator => .error .expectedListSeparator
  | .commaThenClosed => .error .trailingComma
  | .commaThenCut => .error .endOfText
  | _ => .ok ()

def MapEnd.reading : MapEnd → Except Fault Unit
  | .cut => .error .endInMap
  | .noSeparator => .error .expectedMapSeparator
  | .commaThenClosed => .error .trailingComma
  | .commaThenCut => .error .endOfText
  | .noKey => .error .keyNotText
  | _ => .ok ()

end MetricRelay.Json
