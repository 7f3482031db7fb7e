import FilterSql.Decimal.Layout
import FilterSql.Json.Value

/-!
# JSON text

The compact text of a JSON value: no blanks, members in the order of the object, integers in plain
decimal digits and floats with the fewest digits that read back. A string stands between double
quotes. Only the quote, the backslash and the control characters below U+0020 are escaped, five of
them by a letter and the others by four lowercase hexadecimal digits; every other character is
written as it is.
-/

namespace FilterSql

/-! ## Quoted texts -/

namespace Json

/-- The lowercase hexadecimal digit of a number below sixteen. -/
def hexDigit (n : Nat) : Char :=
  Nat.digitChar n

/-- A character as it is written between quotes. -/
def escape (c : Char) : List Char :=
  match c with
  | '\x22' => ['\\', '\x22']
  | '\\' => ['\\', '\\']
  | '\x08' => ['\\', 'b']
  | '\x09' => ['\\', 't']
  | '\x0a' => ['\\', 'n']
  | '\x0c' => ['\\', 'f']
  | '\x0d' => ['\\', 'r']
  | c =>
    if c.toNat < 0x20 then
      ['\\', 'u', '0', '0', hexDigit (c.toNat / 16), hexDigit (c.toNat % 16)]
    else [c]

/-- A text between quotes. -/
def quote (text : String) : String :=
  String.ofList ('\x22' :: text.toList.flatMap escape ++ ['\x22'])

end Json

/-! ## Values -/

/-- Floats are written positionally from `0.00001` up to below `10 ^ 16`. -/
def Json.floatLayout : Decimal.Layout := ⟨-5, 15⟩

/-- The text of a number. -/
def Number.text : Number → String
  | .integer value _ => toString value
  | .float value => Json.floatLayout.writeFloat value

namespace Json

mutual

/-- The compact text of a value. -/
def text : Json → String
  | .null => "null"
  | .bool true => "true"
  | .bool false => "false"
  | .number value => value.text
  | .string value => quote value
  | .array items => "[" ++ itemsText items ++ "]"
  | .object members => "\x7b" ++ membersText members ++ "\x7d"

/-- The texts of items, joined by commas. -/
def itemsText : List Json → String
  | [] => ""
  | [item] => item.text
  | item :: rest => item.text ++ "," ++ itemsText rest

/-- The texts of members, joined by commas. -/
def membersText : List (String × Json) → String
  | [] => ""
  | [(name, value)] => quote name ++ ":" ++ value.text
  | (name, value) :: rest => quote name ++ ":" ++ value.text ++ "," ++ membersText rest

end

end Json

end FilterSql
