/-!
# Text patterns

In a pattern `%` stands for any run of characters, `_` for one character, a
backslash takes the next character as it is, and every other character stands for
itself. A pattern that ends in a backslash with nothing after it has no reading and
matches no text.

`scan` decides a match without a search over all the runs: it takes each run as
short as it can, and where a later token does not fit it makes the last run it
passed one character longer and takes up again behind it. The runs before the last
are never made longer.
-/

namespace RecordGraph.Text.Pattern

/-- What one place of a pattern stands for. -/
inductive Token where
  | anyRun
  | anyChar
  | char (c : Char)
deriving DecidableEq, Repr

/-- The tokens of a pattern, if it has a reading. Runs next to each other are one run. -/
def tokens? : List Char → Option (List Token)
  | [] => some []
  | '%' :: '%' :: rest => tokens? ('%' :: rest)
  | '%' :: rest => (tokens? rest).map (.anyRun :: ·)
  | '_' :: rest => (tokens? rest).map (.anyChar :: ·)
  | '\\' :: c :: rest => (tokens? rest).map (.char c :: ·)
  | ['\\'] => none
  | c :: rest => (tokens? rest).map (.char c :: ·)

/-- Whether a token takes one character and takes this one. -/
def Token.takes (c : Char) : Token → Bool
  | .anyRun => false
  | .anyChar => true
  | .char d => d == c

/-- Where a scan takes up again when a token does not fit: at the tokens behind the
last run it passed, with that run one character longer than it was last. -/
structure Resume where
  tokens : List Token
  text : List Char

/-- The most tokens that a scan still has before it, now or after it takes up again. -/
def ahead (tokens : List Token) (resume : Option Resume) : Nat :=
  max tokens.length (resume.elim 0 (·.tokens.length))

/-- The characters that the last run can still be made longer by. -/
def slack (resume : Option Resume) : Nat :=
  resume.elim 0 (·.text.length)

/-- Whether the tokens match the text, or the tokens that the scan takes up again at
match the text from there with some longer run. -/
def scan (tokens : List Token) (text : List Char) (resume : Option Resume) : Bool :=
  match text, tokens with
  | [], tokens => tokens.all (· == .anyRun)
  | c :: later, .anyRun :: behind => scan behind (c :: later) (some ⟨behind, later⟩)
  | c :: later, tokens =>
    if tokens.head?.any (·.takes c) then scan tokens.tail later resume
    else
      match resume with
      | some r => scan r.tokens r.text (some ⟨r.tokens, r.text.tail⟩)
      | none => false
-- A run that is passed leaves fewer tokens ahead; a run made longer has less slack,
-- or none and then the text is at its end.
termination_by (ahead tokens resume, slack resume, text.length)
decreasing_by
  · exact .left _ _ (by simp only [ahead, Option.elim, List.length_cons]; omega)
  · simp only [Prod.lex_def, ahead, List.length_tail, List.length_cons, true_and]
    omega
  · simp only [Prod.lex_def, ahead, slack, Option.elim, List.length_tail, List.length_cons]
    omega

/-- Whether a pattern matches the whole of a text. -/
def isMatch (text pattern : String) : Bool :=
  match tokens? pattern.toList with
  | some tokens => scan tokens text.toList none
  | none => false

example : isMatch "Ada Lovelace" "%Love%" = true := by cbv
example : isMatch "a%c" "a\\%c" = true := by cbv
example : isMatch "abc" "a\\%c" = false := by cbv
example : isMatch "" "\\" = false := by cbv

end RecordGraph.Text.Pattern
