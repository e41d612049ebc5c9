/-!
# Dotted paths

A path is written with a dot between its segments. Splitting never drops a segment:
a text without a dot is one segment, and two dots in a row enclose an empty one.
-/

namespace RecordGraph.Text

/-- Split at every dot. -/
def splitDots : List Char → List (List Char)
  | [] => [[]]
  | '.' :: rest => [] :: splitDots rest
  | c :: rest =>
    match splitDots rest with
    | segment :: segments => (c :: segment) :: segments
    | [] => [[c]]

/-- The segments of a dotted path. -/
def segments (path : String) : List String :=
  (splitDots path.toList).map String.ofList

/-- A dotted path from its segments. -/
def dotted (segments : List String) : String :=
  String.intercalate "." segments

/-- Whether a text holds a dot. -/
def hasDot (s : String) : Bool :=
  s.toList.contains '.'

/-- The text between a leading and a trailing dollar sign. -/
def betweenDollars? (s : String) : Option String :=
  match s.toList with
  | '$' :: rest => if rest.getLast? = some '$' then some (String.ofList rest.dropLast) else none
  | _ => none

example : segments "a..b" = ["a", "", "b"] := by decide
example : betweenDollars? "$a.b$" = some "a.b" := by decide
example : betweenDollars? "$" = none := by decide

theorem splitDots_ne_nil (cs : List Char) : splitDots cs ≠ [] := by
  fun_induction splitDots cs <;> simp

end RecordGraph.Text
