import FilterSql.Json.Document
import FilterSql.Json.Token

/-!
# Reading JSON text

The reader is a pushdown automaton that takes one character at a time: a stack of open containers,
and a mode that says what may come next. `read` never fails; where the text stops being JSON it
closes what is open around a `malformed` part. A container nested deeper than 127 levels is read
and checked, and stands for no value.
-/

namespace FilterSql.Json

/-- A container that has been opened, its content in reverse. An object is either between two
members or waits for the value of a member that it has named. -/
inductive Frame where
  | array (items : List Document)
  | object (members : List (Option String × Document))
  | member (members : List (Option String × Document)) (name : Option String)

/-- What may come next. -/
inductive Mode where
  /-- A value. -/
  | value
  /-- The first item of an array, or its end. -/
  | firstItem
  /-- The first name of an object, or its end. -/
  | firstName
  /-- The name of one more member. -/
  | name
  /-- The colon after a name. -/
  | colon
  /-- A comma or the end of the container; after the whole value nothing. -/
  | next
  /-- More of a string, which is the name of a member or a value. -/
  | inString (isName : Bool) (token : StringToken)
  /-- More of a number. -/
  | inNumber (token : NumberToken)
  /-- The rest of one of the three words. -/
  | inWord (left : List Char) (value : Document)
  /-- The text is not JSON. -/
  | failed

/-- The reader between two characters: the open containers from the inside out, the mode, and the
whole value once it is complete. -/
structure Reader where
  stack : List Frame := []
  mode : Mode := .value
  root : Option Document := none

/-- The white space of JSON. -/
def isJsonSpace (c : Char) : Bool :=
  c = ' ' || c = '\t' || c = '\n' || c = '\x0d'

/-- The deepest nesting that is read as a value. -/
def maximumDepth : Nat := 127

namespace Reader

/-- Nothing that follows can make the text JSON. -/
def fail (reader : Reader) : Reader :=
  { reader with mode := .failed }

/-- Stores a value where the innermost container, or the text itself, waits for one. -/
def complete (reader : Reader) (value : Document) : Reader :=
  match reader.stack with
  | [] => { reader with root := some value, mode := .next }
  | .array items :: rest => { reader with stack := .array (value :: items) :: rest, mode := .next }
  | .member members name :: rest =>
    { reader with stack := .object ((name, value) :: members) :: rest, mode := .next }
  | .object _ :: _ => reader.fail

/-- Opens a container. -/
def enter (reader : Reader) (frame : Frame) (mode : Mode) : Reader :=
  { reader with stack := frame :: reader.stack, mode := mode }

/-- The value of a container that is closed at this depth. -/
def atDepth (depth : Nat) (value : Document) : Document :=
  if depth ≤ maximumDepth then value else .unreadable

/-- Closes the innermost container, which has to be an array. -/
def closeArray (reader : Reader) : Reader :=
  match reader.stack with
  | .array items :: rest =>
    { reader with stack := rest }.complete (atDepth reader.stack.length (.array items.reverse))
  | _ => reader.fail

/-- Closes the innermost container, which has to be an object between two members. -/
def closeObject (reader : Reader) : Reader :=
  match reader.stack with
  | .object members :: rest =>
    { reader with stack := rest }.complete (atDepth reader.stack.length (.object members.reverse))
  | _ => reader.fail

/-- Reads the first character of a value. -/
def startValue (reader : Reader) (c : Char) : Reader :=
  match c with
  | '[' => reader.enter (.array []) .firstItem
  | '\x7b' => reader.enter (.object []) .firstName
  | '\x22' => { reader with mode := .inString false {} }
  | 't' => { reader with mode := .inWord "rue".toList (.bool true) }
  | 'f' => { reader with mode := .inWord "alse".toList (.bool false) }
  | 'n' => { reader with mode := .inWord "ull".toList .null }
  | c =>
    match NumberToken.start? c with
    | some token => { reader with mode := .inNumber token }
    | none => reader.fail

/-- Reads the comma or the bracket after a value. -/
def afterValue (reader : Reader) (c : Char) : Reader :=
  match c, reader.stack with
  | ',', .array _ :: _ => { reader with mode := .value }
  | ',', .object _ :: _ => { reader with mode := .name }
  | ']', .array _ :: _ => reader.closeArray
  | '\x7d', .object _ :: _ => reader.closeObject
  | _, _ => reader.fail

/-- Takes up the closing quote of a string. -/
def closeString (reader : Reader) (isName : Bool) (token : StringToken) : Reader :=
  if isName then
    match reader.stack with
    | .object members :: rest =>
      { reader with stack := .member members token.text? :: rest, mode := .colon }
    | _ => reader.fail
  else
    reader.complete (match token.text? with | some text => .string text | none => .unreadable)

/-- Takes up the end of a number. -/
def closeNumber (reader : Reader) (token : NumberToken) : Reader :=
  if token.complete then
    reader.complete
      (match Number.ofLiteral? token.literal with
        | some value => .number value
        | none => .unreadable)
  else reader.fail

/-- Reads one character between tokens. -/
def stepBetween (reader : Reader) (c : Char) : Reader :=
  if isJsonSpace c then reader
  else match reader.mode with
    | .value => reader.startValue c
    | .firstItem => if c = ']' then reader.closeArray else reader.startValue c
    | .firstName =>
      if c = '\x7d' then reader.closeObject
      else if c = '\x22' then { reader with mode := .inString true {} }
      else reader.fail
    | .name => if c = '\x22' then { reader with mode := .inString true {} } else reader.fail
    | .colon => if c = ':' then { reader with mode := .value } else reader.fail
    | .next => reader.afterValue c
    | _ => reader.fail

/-- Reads one character. A character that ends a number is read again behind it. -/
def step (reader : Reader) (c : Char) : Reader :=
  match reader.mode with
  | .inString isName token =>
    match token.step c with
    | .more token => { reader with mode := .inString isName token }
    | .closed => reader.closeString isName token
    | .malformed => reader.fail
  | .inNumber token =>
    match token.step? c with
    | some token => { reader with mode := .inNumber token }
    | none =>
      let closed := reader.closeNumber token
      match closed.mode with
      | .failed => closed
      | _ => closed.stepBetween c
  | .inWord (expected :: left) value =>
    if c = expected then
      if left.isEmpty then reader.complete value else { reader with mode := .inWord left value }
    else reader.fail
  | .inWord [] _ => reader.fail
  | .failed => reader
  | _ => reader.stepBetween c

/-- What is open when the text ends or stops being JSON, around a part that is malformed. -/
def collapse : List Frame → Document → Document
  | [], inner => inner
  | .array items :: rest, inner => collapse rest (.array (inner :: items).reverse)
  | .object members :: rest, inner => collapse rest (.object ((none, inner) :: members).reverse)
  | .member members name :: rest, inner =>
    collapse rest (.object ((name, inner) :: members).reverse)

end Reader

/-- A text as read: the document at its start, and whether something other than white space comes
after it. -/
structure Reading where
  document : Document
  trailing : Bool

/-- The reading of a text whose characters have all been taken. -/
def Reader.finish (reader : Reader) : Reading :=
  let last := match reader.mode with
    | .inNumber token => reader.closeNumber token
    | _ => reader
  match last.root, last.mode with
  | some document, .next => ⟨document, false⟩
  | some document, _ => ⟨document, true⟩
  | none, _ => ⟨Reader.collapse last.stack .malformed, false⟩

/-- Reads a text. -/
def read (text : String) : Reading :=
  (text.toList.foldl Reader.step {}).finish

/-- The value of a text in which fewer texts than the given number are nested. -/
def parseWithin? : Nat → String → Option Json
  | 0, _ => none
  | nesting + 1, text =>
    match read text with
    | ⟨document, false⟩ => document.toJson? (parseWithin? nesting)
    | ⟨_, true⟩ => none

/-- The value that a text stands for, in normal form. An embedded text is shorter than the text
around it, and the empty text has no value, so the length bounds the nesting. -/
def parse? (text : String) : Option Json :=
  parseWithin? text.length text

end FilterSql.Json
