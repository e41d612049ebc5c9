import RecordGraph.Text.CaseTable

/-!
# Lower case

Text is lower-cased character by character from the tables, with two characters
apart. The dotted capital I becomes a small i with a dot above. The capital sigma
becomes the final form at the end of a word: where the nearest letter with case
before it exists and the nearest one after it does not, looking through the
characters that are neither. The context is that of the text before lower-casing.
-/

namespace RecordGraph.Text

/-- Whether a code point lies in one of the ranges. -/
def inRanges (ranges : List (Nat × Nat)) (c : Char) : Bool :=
  ranges.any fun (first, last) => first ≤ c.toNat && c.toNat ≤ last

/-- Whether a character is looked through in the search for a letter with case. -/
def isCaseIgnorable (c : Char) : Bool := inRanges CaseTable.ignorableRanges c

/-- Whether a character is a letter with case. -/
def isCased (c : Char) : Bool := inRanges CaseTable.casedRanges c

/-- Whether the first character that is not looked through is a letter with case. -/
def startsCased (cs : List Char) : Bool :=
  match cs.find? (fun c => !isCaseIgnorable c) with
  | some c => isCased c
  | none => false

/-- The lower-case form of a character outside the two special ones. -/
def lowerChar (c : Char) : Char :=
  match CaseTable.lowerRuns.find? (fun (first, last, step, _) =>
      first ≤ c.toNat && c.toNat ≤ last && (c.toNat - first) % step == 0) with
  | some (_, _, _, delta) => Char.ofNat (Int.toNat (c.toNat + delta))
  | none => c

/-- Lower-case a text whose characters before it are given from the nearest one on. -/
def lowerAfter (before : List Char) : List Char → List Char
  | [] => []
  | c :: rest =>
    let lowered :=
      if c = 'Σ' then [if startsCased before && !startsCased rest then 'ς' else 'σ']
      else if c = 'İ' then ['i', '\u0307']
      else [lowerChar c]
    lowered ++ lowerAfter (c :: before) rest

/-- The lower-case form of a text. -/
def lower (s : String) : String :=
  String.ofList (lowerAfter [] s.toList)

end RecordGraph.Text
