import TemplateBindings.Text.Str

/-!
# JSON values

The values that the audit log is written in, and their printed form: one line, with a blank behind
every comma and colon, and in ASCII, so that no character of a value can end the line or be lost at
its ends. A string can hold what no text can, a surrogate without its partner, which is written as an
escape like any character that is not in ASCII.
-/

namespace TemplateBindings

/-- **A symbol of a string**. -/
inductive Json.Symbol where
  /-- A character. -/
  | char (c : Char)
  /-- A surrogate without its partner, by its place among the surrogates. -/
  | lone (place : Fin 0x800)
  deriving DecidableEq, Repr

/-- **A string**: symbols in reading order. -/
abbrev Json.Symbols := List Json.Symbol

/-- **A JSON value**. Integers are exact; a number with a point or an exponent is kept as its text.
-/
inductive Json where
  /-- The value that says there is none. -/
  | null
  /-- A truth value. -/
  | bool (value : Bool)
  /-- An integer. -/
  | integer (value : Int)
  /-- A number that is not written as an integer. -/
  | real (digits : Text)
  /-- A string. -/
  | text (value : Json.Symbols)
  /-- A list of values. -/
  | array (items : List Json)
  /-- Members with their keys, which are distinct. -/
  | object (members : List (Json.Symbols × Json))
  deriving Repr

namespace Json

/-! ### Strings -/

namespace Symbol

/-- The number of a symbol. -/
def number : Symbol → Nat
  | char c => c.toNat
  | lone place => 0xD800 + place.val

/-- No character has the number of a surrogate. -/
theorem toNat_ne_lone (c : Char) (place : Fin 0x800) : c.toNat ≠ 0xD800 + place.val := by
  have h := c.valid
  have hc : c.toNat = c.val.toNat := rfl
  rcases h with h | ⟨h, -⟩ <;> omega

theorem number_injective : ∀ a b : Symbol, a.number = b.number → a = b
  | char _, char _, h => congrArg char (Char.ext (UInt32.toNat_inj.1 h))
  | char c, lone place, h => absurd h (toNat_ne_lone c place)
  | lone place, char c, h => absurd h.symm (toNat_ne_lone c place)
  | lone _, lone _, h => congrArg lone (Fin.ext (Nat.add_left_cancel h))

instance : Numbered Symbol := ⟨number, number_injective⟩

/-- The symbol with a number: those of surrogates are no characters. -/
def ofNumber (n : Nat) : Symbol :=
  if h : 0xD800 ≤ n ∧ n ≤ 0xDFFF then lone ⟨n - 0xD800, by omega⟩ else char (Char.ofNat n)

/-- There are more surrogates than bytes that are no characters. -/
theorem place_lt (place : Fin 0x80) : 0x480 + place.val < 0x800 := by omega

/-- A point of a name as a symbol: a byte that is no character has the number of a surrogate. -/
def ofPoint : Point → Symbol
  | .char c => char c
  | .byte place => lone ⟨0x480 + place.val, place_lt place⟩

end Symbol

/-- A string of points as one of symbols. -/
@[coe] def ofStr (s : Str) : Symbols := s.map .ofPoint

/-- A text as a string of symbols. -/
@[coe] def ofText (s : Text) : Symbols := s.map .char

instance : Coe Str Symbols := ⟨ofStr⟩

instance : Coe Text Symbols := ⟨ofText⟩

/-! ### Members -/

/-- The value of a member of an object. -/
def member? (value : Json) (key : Symbols) : Option Json :=
  match value with
  | object members => members.lookup key
  | _ => none

/-- The members with a value for a key: in its place if the key is there, else at the end. -/
def setMember (members : List (Symbols × Json)) (key : Symbols) (value : Json) :
    List (Symbols × Json) :=
  match members with
  | [] => [(key, value)]
  | m :: rest => if m.1 = key then (key, value) :: rest else m :: setMember rest key value

mutual

/-- A value with the members of all its objects in the order of their keys. -/
def sortKeys : Json → Json
  | array items => array (sortItems items)
  | object members => object (Text.orderedBy Prod.fst (sortMembers members))
  | value => value

/-- Items, each with sorted keys. -/
def sortItems : List Json → List Json
  | [] => []
  | value :: rest => sortKeys value :: sortItems rest

/-- Members, each with sorted keys inside. -/
def sortMembers : List (Symbols × Json) → List (Symbols × Json)
  | [] => []
  | (key, value) :: rest => (key, sortKeys value) :: sortMembers rest

end

/-! ### Printing -/

/-- A number below 0x10000 as an escape. -/
def escapeUnit (n : Nat) : Text := "\\u".toList ++ Text.ofNatHex 4 n

/-- **How one character of a string is written**. A character that needs more than four digits is
written as two surrogates. -/
def escapeChar (c : Char) : Text :=
  if c = '"' then "\\\"".toList
  else if c = '\\' then "\\\\".toList
  else if c = '\n' then "\\n".toList
  else if c = '\r' then "\\r".toList
  else if c = '\t' then "\\t".toList
  else if c = '\x08' then "\\b".toList
  else if c = '\x0c' then "\\f".toList
  else if 0x20 ≤ c.toNat && c.toNat < 0x7F then [c]
  else if c.toNat < 0x10000 then escapeUnit c.toNat
  else
    escapeUnit (0xD800 + (c.toNat - 0x10000) / 0x400)
      ++ escapeUnit (0xDC00 + (c.toNat - 0x10000) % 0x400)

/-- How one symbol of a string is written. -/
def escape : Symbol → Text
  | .char c => escapeChar c
  | .lone place => escapeUnit (Symbol.lone place).number

/-- A string between its quotes. -/
def printString (s : Symbols) : Text := '"' :: s.flatMap escape ++ ['"']

mutual

/-- **A value on one line**. -/
def print : Json → Text
  | null => "null".toList
  | bool true => "true".toList
  | bool false => "false".toList
  | integer n => Text.ofInt n
  | real digits => digits
  | text s => printString s
  | array items => '[' :: printItems items ++ [']']
  | object members => '{' :: printMembers members ++ ['}']

/-- Items, with a comma between neighbours. -/
def printItems : List Json → Text
  | [] => []
  | [value] => print value
  | value :: rest => print value ++ ", ".toList ++ printItems rest

/-- Members, with a comma between neighbours. -/
def printMembers : List (Symbols × Json) → Text
  | [] => []
  | [(key, value)] => printString key ++ ": ".toList ++ print value
  | (key, value) :: rest =>
    printString key ++ ": ".toList ++ print value ++ ", ".toList ++ printMembers rest

end

end Json
end TemplateBindings
