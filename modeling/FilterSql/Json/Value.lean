import FilterSql.Decimal.Literal

/-!
# JSON values

A JSON number is an integer or a float, and `1` and `1.0` are different values. An object keeps its
members in the order in which they are written. A free-form value read from text is brought into
normal form: every object lists its members by code point order of their names, each name once, and
`sortMembers` keeps the last of several members of one name.
-/

namespace FilterSql

open Decimal (Binary64 Literal)

/-- The integers that a JSON number can be: those of a signed or an unsigned word of 64 bits. -/
def IsWord (value : Int) : Prop :=
  -Int.pow 2 63 ≤ value ∧ value < Int.pow 2 64

instance (value : Int) : Decidable (IsWord value) :=
  inferInstanceAs (Decidable (_ ∧ _))

/-- A JSON number: an integer that a word holds, or a 64-bit float. -/
inductive Number where
  | integer (value : Int) (isWord : IsWord value := by decide)
  | float (value : Binary64)
deriving DecidableEq, Repr

/-- A JSON value. -/
inductive Json where
  | null
  | bool (value : Bool)
  | number (value : Number)
  | string (text : String)
  | array (items : List Json)
  | object (members : List (String × Json))
deriving Repr, Inhabited

namespace Number

/-- The number of a signed word. -/
def ofInt64 (word : Int64) : Number :=
  .integer word.toInt ⟨word.le_toInt, Int.lt_trans word.toInt_lt (by decide)⟩

/-- The number of an unsigned word. -/
def ofUInt64 (word : UInt64) : Number :=
  .integer word.toNat
    ⟨Int.le_trans (by decide) (Int.natCast_nonneg _), Int.ofNat_lt.mpr word.toNat_lt⟩

/-- The number a literal stands for. Without fraction and exponent it is an integer if a word holds
it; minus zero is a float, and so is every other literal. `none` when it is too large. -/
def ofLiteral? (literal : Literal) : Option Number :=
  let whole : Int := literal.wholeValue
  let value := if literal.negative then -whole else whole
  if h : IsWord value ∧ literal.isInteger ∧ ¬(literal.negative ∧ whole = 0) then
    some (.integer value h.1)
  else
    literal.float?.map .float

end Number

namespace Json

/-- Is this the value `null`? -/
def isNull : Json → Bool
  | .null => true
  | _ => false

/-- Is this an array? -/
def isArray : Json → Bool
  | .array _ => true
  | _ => false

/-- Is this an array or an object? -/
def isNested : Json → Bool
  | .array _ | .object _ => true
  | _ => false

/-- Writes a member into a list sorted by name, over an earlier member of that name. -/
def insertMember {α : Type} (name : String) (value : α) : List (String × α) → List (String × α)
  | [] => [(name, value)]
  | (other, old) :: rest =>
    match compare name other with
    | .lt => (name, value) :: (other, old) :: rest
    | .eq => (name, value) :: rest
    | .gt => (other, old) :: insertMember name value rest

/-- Members in code point order of their names; the last of several members of one name wins. -/
def sortMembers {α : Type} (members : List (String × α)) : List (String × α) :=
  members.foldl (fun sorted member => insertMember member.1 member.2 sorted) []

/-- The value of the last member of this name. -/
def member? (name : String) : Json → Option Json
  | .object members => (members.reverse.find? fun member => member.1 == name).map (·.2)
  | _ => none

end Json

end FilterSql
