import FilterSql.Json.Value

/-!
# Strings and numbers in JSON text

The two kinds of token that span several characters, each read by an automaton that takes one
character at a time: `StringToken` after the opening quote, and `NumberToken` from the sign or the
first digit. A string may be well formed and still stand for no text, when it escapes half of a
surrogate pair.
-/

namespace FilterSql.Json

/-- The value of a hexadecimal digit of either case. -/
def hexValue? (c : Char) : Option Nat :=
  if '0' ≤ c ∧ c ≤ '9' then some (c.toNat - '0'.toNat)
  else if 'a' ≤ c ∧ c ≤ 'f' then some (c.toNat - 'a'.toNat + 10)
  else if 'A' ≤ c ∧ c ≤ 'F' then some (c.toNat - 'A'.toNat + 10)
  else none

/-- The character that a one-letter escape stands for. -/
def escaped? (c : Char) : Option Char :=
  match c with
  | '\x22' => some '\x22'
  | '\\' => some '\\'
  | '/' => some '/'
  | 'b' => some '\x08'
  | 'f' => some '\x0c'
  | 'n' => some '\x0a'
  | 'r' => some '\x0d'
  | 't' => some '\x09'
  | _ => none

/-! ## Strings -/

/-- Where in an escape a string is. -/
inductive EscapePhase where
  | outside
  | backslash
  | hex (left : Nat) (value : Nat)
deriving DecidableEq, Repr

/-- A string of which some characters have been read: its characters in reverse, whether it still
stands for a text, and a high surrogate that waits for its low half. -/
structure StringToken where
  reversed : List Char := []
  readable : Bool := true
  high : Option Nat := none
  phase : EscapePhase := .outside
deriving DecidableEq, Repr

namespace StringToken

/-- Appends a character; a high surrogate before it stays alone. -/
def push (token : StringToken) (c : Char) : StringToken :=
  { token with
    reversed := c :: token.reversed, readable := token.readable && token.high.isNone, high := none,
    phase := .outside }

/-- Appends a UTF-16 unit written as four hexadecimal digits. -/
def pushUnit (token : StringToken) (unit : Nat) : StringToken :=
  let isHigh := 0xD800 ≤ unit && unit ≤ 0xDBFF
  let isLow := 0xDC00 ≤ unit && unit ≤ 0xDFFF
  match token.high with
  | some high =>
    if isLow then
      let c := Char.ofNat (0x10000 + (high - 0xD800) * 0x400 + (unit - 0xDC00))
      { token with reversed := c :: token.reversed, high := none, phase := .outside }
    else { token with readable := false, high := none, phase := .outside }
  | none =>
    if isHigh then { token with high := some unit, phase := .outside }
    else if isLow then { token with readable := false, phase := .outside }
    else token.push (Char.ofNat unit)

/-- The text between the quotes, if the string stands for one. -/
def text? (token : StringToken) : Option String :=
  if token.readable && token.high.isNone then some (String.ofList token.reversed.reverse) else none

/-- What one more character does to a string. -/
inductive Step where
  | more (token : StringToken)
  | closed
  | malformed

/-- Reads one character of a string. -/
def step (token : StringToken) (c : Char) : Step :=
  match token.phase with
  | .outside =>
    if c = '\x22' then .closed
    else if c = '\\' then .more { token with phase := .backslash }
    else if c.toNat < 0x20 then .malformed
    else .more (token.push c)
  | .backslash =>
    if c = 'u' then .more { token with phase := .hex 4 0 }
    else match escaped? c with
      | some plain => .more (token.push plain)
      | none => .malformed
  | .hex left value =>
    match hexValue? c with
    | none => .malformed
    | some digit =>
      let value := value * 16 + digit
      if left ≤ 1 then .more (token.pushUnit value)
      else .more { token with phase := .hex (left - 1) value }

end StringToken

/-! ## Numbers -/

/-- Which part of a number the last character belongs to. -/
inductive NumberPhase where
  | sign
  | zero
  | whole
  | point
  | fraction
  | exponentMark
  | exponentSign
  | exponent
deriving DecidableEq, Repr

/-- A number of which some characters have been read; its digits are in reverse. -/
structure NumberToken where
  negative : Bool := false
  whole : List Nat := []
  fraction : List Nat := []
  exponentNegative : Bool := false
  exponent : List Nat := []
  phase : NumberPhase
deriving DecidableEq, Repr

namespace NumberToken

/-- The value of a decimal digit. -/
def digit? (c : Char) : Option Nat :=
  if '0' ≤ c ∧ c ≤ '9' then some (c.toNat - '0'.toNat) else none

/-- The number that a first character opens. -/
def start? (c : Char) : Option NumberToken :=
  if c = '-' then some { negative := true, phase := .sign }
  else match digit? c with
    | some 0 => some { whole := [0], phase := .zero }
    | some digit => some { whole := [digit], phase := .whole }
    | none => none

/-- The point or the exponent mark that may follow a digit. -/
def afterDigit? (token : NumberToken) (c : Char) : Option NumberToken :=
  if c = 'e' ∨ c = 'E' then some { token with phase := .exponentMark } else none

/-- Reads one more character, or stops before a character that is not part of the number. -/
def step? (token : NumberToken) (c : Char) : Option NumberToken :=
  match token.phase, digit? c with
  | .sign, some 0 => some { token with whole := [0], phase := .zero }
  | .sign, some digit => some { token with whole := [digit], phase := .whole }
  | .sign, none => none
  | .zero, some _ => none
  | .whole, some digit => some { token with whole := digit :: token.whole }
  | .zero, none | .whole, none =>
    if c = '.' then some { token with phase := .point } else token.afterDigit? c
  | .point, some digit | .fraction, some digit =>
    some { token with fraction := digit :: token.fraction, phase := .fraction }
  | .point, none => none
  | .fraction, none => token.afterDigit? c
  | .exponentMark, some digit | .exponentSign, some digit | .exponent, some digit =>
    some { token with exponent := digit :: token.exponent, phase := .exponent }
  | .exponentMark, none =>
    if c = '+' then some { token with phase := .exponentSign }
    else if c = '-' then some { token with exponentNegative := true, phase := .exponentSign }
    else none
  | .exponentSign, none | .exponent, none => none

/-- May a number end here? -/
def complete (token : NumberToken) : Bool :=
  match token.phase with
  | .zero | .whole | .fraction | .exponent => true
  | .sign | .point | .exponentMark | .exponentSign => false

/-- The literal that has been read. -/
def literal (token : NumberToken) : Decimal.Literal where
  negative := token.negative
  whole := token.whole.reverse
  fraction := token.fraction.reverse
  exponent :=
    if token.phase = .exponent then
      let value : Nat := token.exponent.foldr (fun digit value => value * 10 + digit) 0
      some (if token.exponentNegative then -value else value)
    else none

end NumberToken

end FilterSql.Json
