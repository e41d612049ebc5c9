import RecordGraph.Data.Value

/-!
# Reading documents

The reader accepts one document with blanks between its parts. A literal without
point and exponent is an integer if it fits an unsigned 64-bit word, or with a minus
sign a signed one; every other number, minus zero among them, is the nearest
floating-point number. Of fields with one key the last counts.

Reading goes by fuel, of which each part takes one; a document has fewer parts than
characters, so `Value.read?` never runs out.
-/

namespace RecordGraph

namespace Text

/-- The value of a hexadecimal digit. -/
def hexValue? (c : Char) : Option Nat :=
  if c.isDigit then some (c.toNat - '0'.toNat)
  else if 'a' ≤ c ∧ c ≤ 'f' then some (c.toNat - 'a'.toNat + 10)
  else if 'A' ≤ c ∧ c ≤ 'F' then some (c.toNat - 'A'.toNat + 10)
  else none

/-- The number of four hexadecimal digits. -/
def hexUnit? (a b c d : Char) : Option Nat := do
  pure ((((← hexValue? a) * 16 + (← hexValue? b)) * 16 + (← hexValue? c)) * 16 + (← hexValue? d))

/-- The character that a letter behind a backslash stands for. -/
def unescape (c : Char) : Char :=
  if c = 'n' then '\n'
  else if c = 't' then '\t'
  else if c = 'r' then '\r'
  else if c = 'b' then '\x08'
  else if c = 'f' then '\x0c'
  else c

/-- Read up to the closing quote. A unit of the upper half of a pair is put together
with the unit that follows. -/
def readQuoted (acc : List Char) (high : Option Nat) : List Char → Option (String × List Char)
  | '"' :: rest => some (String.ofList acc.reverse, rest)
  | '\\' :: 'u' :: a :: b :: c :: d :: rest => do
    let unit ← hexUnit? a b c d
    match high with
    | some upper =>
      let code := 0x10000 + (upper - 0xD800) * 0x400 + (unit - 0xDC00)
      readQuoted (Char.ofNat code :: acc) none rest
    | none =>
      if 0xD800 ≤ unit ∧ unit < 0xDC00 then readQuoted acc (some unit) rest
      else readQuoted (Char.ofNat unit :: acc) none rest
  | '\\' :: c :: rest => readQuoted (unescape c :: acc) none rest
  | c :: rest => readQuoted (c :: acc) none rest
  | [] => none

/-- The number that digits write. -/
def ofDigits (digits : List Char) : Nat :=
  digits.foldl (fun n c => n * 10 + (c.toNat - '0'.toNat)) 0

/-- The digits at the start and what follows them. -/
def spanDigits (cs : List Char) : List Char × List Char :=
  (cs.takeWhile Char.isDigit, cs.dropWhile Char.isDigit)

/-- The exponent at the start, if there is one, and what follows it. -/
def readExponent (cs : List Char) : Option Int × List Char :=
  match cs with
  | e :: rest =>
    if e = 'e' ∨ e = 'E' then
      let (negative, rest) := match rest with
        | '-' :: rest => (true, rest)
        | '+' :: rest => (false, rest)
        | _ => (false, rest)
      let (digits, rest) := spanDigits rest
      let magnitude : Int := ofDigits digits
      (some (if negative then -magnitude else magnitude), rest)
    else (none, cs)
  | [] => (none, cs)

/-- The number of its parts: sign, digits before the point, digits behind it, exponent. -/
def ofParts (negative : Bool) (whole : List Char) (fraction : Option (List Char))
    (exponent : Option Int) : Value :=
  let magnitude := ofDigits (whole ++ fraction.getD [])
  let isInteger := fraction.isNone && exponent.isNone &&
    (if negative then 0 < magnitude && magnitude ≤ 0x8000000000000000
      else magnitude < 0x10000000000000000)
  if isInteger then .ofInt (if negative then -(magnitude : Int) else magnitude)
  else
    let power := exponent.getD 0 - ((fraction.getD []).length : Int)
    let unsigned := Float.ofScientific magnitude (power < 0) power.natAbs
    .ofFloat (if negative then -unsigned else unsigned)

/-- Read a number. -/
def readNumber (cs : List Char) : Option (Value × List Char) :=
  let (negative, cs) := match cs with
    | '-' :: rest => (true, rest)
    | _ => (false, cs)
  let (whole, rest) := spanDigits cs
  let (fraction, rest) := match rest with
    | '.' :: more => (some (spanDigits more).1, (spanDigits more).2)
    | _ => (none, rest)
  let (exponent, rest) := readExponent rest
  if whole.isEmpty then none else some (ofParts negative whole fraction exponent, rest)

/-- Leave out blanks at the start. -/
def skipBlanks (cs : List Char) : List Char :=
  cs.dropWhile fun c => c = ' ' ∨ c = '\t' ∨ c = '\n' ∨ c = '\r'

mutual

/-- Read a document. -/
def readValue : Nat → List Char → Option (Value × List Char)
  | 0, _ => none
  | fuel + 1, cs =>
    match skipBlanks cs with
    | '"' :: rest => (readQuoted [] none rest).map fun (s, rest) => (.str s, rest)
    | '[' :: rest =>
      match skipBlanks rest with
      | ']' :: rest => some (.arr [], rest)
      | rest => (readItems fuel rest).map fun (items, rest) => (.arr items, rest)
    | '\x7b' :: rest =>
      match skipBlanks rest with
      | '\x7d' :: rest => some (.obj [], rest)
      | rest => (readFields fuel rest).map fun (fields, rest) => (.obj (Dict.ofList fields), rest)
    | 't' :: 'r' :: 'u' :: 'e' :: rest => some (.bool true, rest)
    | 'f' :: 'a' :: 'l' :: 's' :: 'e' :: rest => some (.bool false, rest)
    | 'n' :: 'u' :: 'l' :: 'l' :: rest => some (.null, rest)
    | rest => readNumber rest

/-- Read the items of a list up to its end. -/
def readItems : Nat → List Char → Option (List Value × List Char)
  | 0, _ => none
  | fuel + 1, cs => do
    let (v, rest) ← readValue fuel cs
    match skipBlanks rest with
    | ',' :: rest =>
      let (items, rest) ← readItems fuel rest
      pure (v :: items, rest)
    | ']' :: rest => pure ([v], rest)
    | _ => none

/-- Read the fields of an object up to its end. -/
def readFields : Nat → List Char → Option (List (String × Value) × List Char)
  | 0, _ => none
  | fuel + 1, cs =>
    match skipBlanks cs with
    | '"' :: rest => do
      let (key, rest) ← readQuoted [] none rest
      match skipBlanks rest with
      | ':' :: rest =>
        let (v, rest) ← readValue fuel rest
        match skipBlanks rest with
        | ',' :: rest =>
          let (fields, rest) ← readFields fuel rest
          pure ((key, v) :: fields, rest)
        | '\x7d' :: rest => pure ([(key, v)], rest)
        | _ => none
      | _ => none
    | _ => none

end

end Text

/-- The document that a text is, blanks around it aside. -/
def Value.read? (s : String) : Option Value :=
  match Text.readValue (s.length + 1) s.toList with
  | some (v, rest) => if (Text.skipBlanks rest).isEmpty then some v else none
  | none => none

end RecordGraph
