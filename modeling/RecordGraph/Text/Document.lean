import RecordGraph.Data.Value
import RecordGraph.Text.Decimal

/-!
# Text of documents

Documents are written without blanks, objects in key order. Inside quotes only the
quote, the backslash and the characters below the blank are escaped: five of them
by a letter, the rest by four hexadecimal digits; all other characters stand as
they are.
-/

namespace RecordGraph

namespace Text

/-- The hexadecimal digit of a number below sixteen. -/
def hexDigit (n : Nat) : Char :=
  Nat.digitChar (n % 16)

/-- One character as it stands between quotes. -/
def quoteChar (c : Char) : List Char :=
  if c = '"' then ['\\', '"']
  else if c = '\\' then ['\\', '\\']
  else if c = '\n' then ['\\', 'n']
  else if c = '\r' then ['\\', 'r']
  else if c = '\t' then ['\\', 't']
  else if c = '\x08' then ['\\', 'b']
  else if c = '\x0c' then ['\\', 'f']
  else if c.toNat < 32 then ['\\', 'u', '0', '0', hexDigit (c.toNat / 16), hexDigit c.toNat]
  else [c]

/-- A text between quotes. -/
def quote (s : String) : String :=
  String.ofList ('"' :: s.toList.flatMap quoteChar ++ ['"'])

end Text

namespace Number

/-- The text of a number: the digits of an integer, the shortest decimal otherwise. -/
def text : Number → String
  | .int i => toString i
  | .float x => Text.Decimal.text x

end Number

namespace Value

mutual

/-- The text of a document. -/
def text : Value → String
  | .null => "null"
  | .bool b => if b then "true" else "false"
  | .num n => n.text
  | .str s => Text.quote s
  | .arr items => "[" ++ String.intercalate "," (itemTexts items) ++ "]"
  | .obj fields => "\x7b" ++ String.intercalate "," (fieldTexts fields) ++ "\x7d"

/-- The texts of the items of a list. -/
def itemTexts : List Value → List String
  | [] => []
  | v :: rest => text v :: itemTexts rest

/-- The texts of the fields of an object. -/
def fieldTexts : List (String × Value) → List String
  | [] => []
  | (key, v) :: rest => (Text.quote key ++ ":" ++ text v) :: fieldTexts rest

end

example : text (.obj [("a", .arr [.null, ofInt 1]), ("b", .str "x\ty")]) =
    "\x7b\"a\":[null,1],\"b\":\"x\\ty\"\x7d" := by decide +kernel

end Value

end RecordGraph
