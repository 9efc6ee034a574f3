import CrmQuery.Decimal.FloatText
import CrmQuery.Text.Quoted

/-!
# JSON values

`Json` keeps integers and doubles apart, because a number written without a point or an exponent is
an integer and stays one.  The fields of an object keep the order in which they first appeared, and
the last value of a repeated field counts.

`Json.write` is the compact text of a value, in which every character outside of ASCII is escaped
by its UTF-16 code units.  `Json.display` is the form in which a value is shown inside a message: a
text as it is, anything else by `Json.literal`, in which texts are quoted.
-/

namespace CrmQuery

/-- A JSON value. -/
inductive Json where
  | null
  | bool (value : Bool)
  | int (value : Int)
  | float (value : Float)
  | string (value : String)
  | array (items : List Json)
  | object (fields : List (String × Json))
  deriving Inhabited, Repr

namespace Json

/-- Put a field into an object: a new one comes last, an old one changes its value in place. -/
def setField (key : String) (value : Json) : List (String × Json) → List (String × Json)
  | [] => [(key, value)]
  | (k, v) :: rest => if k = key then (k, value) :: rest else (k, v) :: setField key value rest

/-- The value of a field of an object. -/
def field? (key : String) : Json → Option Json
  | object fields => fields.lookup key
  | _ => none

/-- An array of texts. -/
def strings (items : List String) : Json := array (items.map string)

/-- A value or `null`. -/
def ofOption {α : Type} (f : α → Json) : Option α → Json
  | none => null
  | some a => f a

/-! ### Compact texts -/

/-- A UTF-16 code unit as an escape. -/
def escapeUnit (n : Nat) : List Char := '\\' :: 'u' :: Text.hexadecimal 4 n

/-- A character inside a quoted text. -/
def escapeChar (c : Char) : List Char :=
  let n := c.toNat
  if c = '"' then ['\\', '"']
  else if c = '\\' then ['\\', '\\']
  else if 0x20 ≤ n ∧ n < 0x7F then [c]
  else if n < 0x10000 then escapeUnit n
  else escapeUnit (0xD800 + (n - 0x10000) / 0x400) ++ escapeUnit (0xDC00 + (n - 0x10000) % 0x400)

/-- A quoted text. -/
def writeString (s : String) : String :=
  "\"" ++ String.ofList (s.toList.flatMap escapeChar) ++ "\""

mutual

/-- The compact text of a value. -/
def write : Json → String
  | null => "null"
  | bool b => if b then "true" else "false"
  | int i => toString i
  | float x => if x.isNaN then "NaN" else if x.isInf then
      (if x < 0 then "-Infinity" else "Infinity") else floatText x
  | string s => writeString s
  | array items => "[" ++ ",".intercalate (writeItems items) ++ "]"
  | object fields => "\x7b" ++ ",".intercalate (writeFields fields) ++ "\x7d"

/-- The texts of the items of an array. -/
def writeItems : List Json → List String
  | [] => []
  | item :: rest => write item :: writeItems rest

/-- The texts of the fields of an object. -/
def writeFields : List (String × Json) → List String
  | [] => []
  | (key, value) :: rest => (writeString key ++ ":" ++ write value) :: writeFields rest

end

/-! ### Values in messages -/

mutual

/-- A value with its texts quoted. -/
def literal : Json → String
  | null => "None"
  | bool b => if b then "True" else "False"
  | int i => toString i
  | float x => floatText x
  | string s => Text.quoted s
  | array items => "[" ++ ", ".intercalate (literalItems items) ++ "]"
  | object fields => "\x7b" ++ ", ".intercalate (literalFields fields) ++ "\x7d"

/-- The items of an array with their texts quoted. -/
def literalItems : List Json → List String
  | [] => []
  | item :: rest => literal item :: literalItems rest

/-- The fields of an object with their texts quoted. -/
def literalFields : List (String × Json) → List String
  | [] => []
  | (key, value) :: rest => (Text.quoted key ++ ": " ++ literal value) :: literalFields rest

end

/-- A value as it is shown inside a message. -/
def display : Json → String
  | string s => s
  | value => literal value

end Json

end CrmQuery
