import RecordGraph.Text.Pattern

/-!
# What a pattern matches

`Describes` says which texts a pattern stands for, one rule for each kind of place, and
`isMatch` decides it.

Between the two stand the tokens. A scan only keeps the last run it passed. That loses no
match: the tokens between that run and the place of the scan have each taken one
character, so whatever a longer run leaves for them ends behind the place of the scan,
and a run at that place reaches it too.
-/

namespace RecordGraph.Text.Pattern

/-- The texts that a pattern describes. No rule begins with a backslash that nothing
follows, so a pattern that ends in one describes no text. -/
inductive Describes : List Char → List Char → Prop where
  | nil : Describes [] []
  | anyRun {pattern rest : List Char} (run : List Char) :
      Describes pattern rest → Describes ('%' :: pattern) (run ++ rest)
  | anyChar {pattern rest : List Char} (c : Char) :
      Describes pattern rest → Describes ('_' :: pattern) (c :: rest)
  | escaped {pattern rest : List Char} (c : Char) :
      Describes pattern rest → Describes ('\\' :: c :: pattern) (c :: rest)
  | char {pattern rest : List Char} (c : Char) (run : c ≠ '%') (one : c ≠ '_')
      (escape : c ≠ '\\') :
      Describes pattern rest → Describes (c :: pattern) (c :: rest)

/-- The texts that a token sequence matches. -/
inductive Matches : List Token → List Char → Prop where
  | nil : Matches [] []
  | anyRun {tokens : List Token} {rest : List Char} (run : List Char) :
      Matches tokens rest → Matches (.anyRun :: tokens) (run ++ rest)
  | taken {token : Token} {tokens : List Token} {c : Char} {rest : List Char} :
      token.takes c = true → Matches tokens rest → Matches (token :: tokens) (c :: rest)

variable {token : Token} {tokens : List Token} {text run : List Char} {c : Char}

theorem matches_anyRun_iff :
    Matches (.anyRun :: tokens) text ↔ ∃ run rest, text = run ++ rest ∧ Matches tokens rest := by
  constructor
  · intro matched
    cases matched with
    | anyRun run rest => exact ⟨run, _, rfl, rest⟩
    | taken takes _ => exact absurd takes (by simp [Token.takes])
  · rintro ⟨run, rest, rfl, matched⟩
    exact .anyRun run matched

theorem matches_cons_iff (one : token ≠ .anyRun) :
    Matches (token :: tokens) text ↔
      ∃ c rest, text = c :: rest ∧ token.takes c = true ∧ Matches tokens rest := by
  constructor
  · intro matched
    cases matched with
    | anyRun => exact absurd rfl one
    | taken takes rest => exact ⟨_, _, rfl, takes, rest⟩
  · rintro ⟨c, rest, rfl, takes, matched⟩
    exact .taken takes matched

@[simp] theorem matches_nil_iff : Matches [] text ↔ text = [] :=
  ⟨fun | .nil => rfl, fun none => none ▸ .nil⟩

/-- A run can be made longer. -/
theorem Matches.longer (matched : Matches (.anyRun :: tokens) text) (more : List Char) :
    Matches (.anyRun :: tokens) (more ++ text) := by
  obtain ⟨run, rest, rfl, later⟩ := matches_anyRun_iff.mp matched
  rw [← List.append_assoc]
  exact .anyRun (more ++ run) later

@[simp] theorem matches_anyRun_nil : Matches (.anyRun :: tokens) [] ↔ Matches tokens [] := by
  constructor
  · intro matched
    obtain ⟨run, rest, split, later⟩ := matches_anyRun_iff.mp matched
    exact (List.append_eq_nil_iff.mp split.symm).2 ▸ later
  · exact fun matched => .anyRun [] matched

/-- A run is empty, or it takes the first character and a run follows. -/
theorem matches_anyRun_tail :
    Matches (.anyRun :: tokens) text ↔
      Matches tokens text ∨ Matches (.anyRun :: tokens) text.tail := by
  constructor
  · intro matched
    obtain ⟨run, rest, rfl, later⟩ := matches_anyRun_iff.mp matched
    cases run with
    | nil => exact .inl later
    | cons c run => exact .inr (.anyRun run later)
  · rintro (empty | longer)
    · exact .anyRun [] empty
    · cases text with
      | nil => exact longer
      | cons c rest => exact longer.longer [c]

/-- Two runs next to each other are one run. -/
@[simp] theorem matches_anyRun_anyRun :
    Matches (.anyRun :: .anyRun :: tokens) text ↔ Matches (.anyRun :: tokens) text := by
  constructor
  · intro matched
    obtain ⟨run, rest, rfl, later⟩ := matches_anyRun_iff.mp matched
    exact later.longer run
  · exact fun matched => .anyRun [] matched

/-- At the end of the text, only runs match. -/
theorem all_anyRun_iff : tokens.all (· == .anyRun) = true ↔ Matches tokens [] := by
  induction tokens with
  | nil => simp
  | cons token tokens ih =>
      by_cases run : token = .anyRun
      · simp [run, ih]
      · simp [run, matches_cons_iff run]

theorem matches_cons_of_takes (takes : token.takes c = true) :
    Matches (token :: tokens) (c :: text) ↔ Matches tokens text := by
  have one : token ≠ .anyRun := by
    rintro rfl
    exact absurd takes (by simp [Token.takes])
  constructor
  · intro matched
    obtain ⟨_, _, split, _, rest⟩ := (matches_cons_iff one).mp matched
    obtain ⟨rfl, rfl⟩ := List.cons.inj split
    exact rest
  · exact .taken takes

/-- Tokens that begin with neither a run nor one that takes the first character match no
text that begins with it. -/
theorem not_matches_of_refused (one : ∀ behind, tokens ≠ .anyRun :: behind)
    (refused : ¬ tokens.head?.any (·.takes c) = true) : ¬ Matches tokens (c :: text) := by
  obtain _ | ⟨token, behind⟩ := tokens
  · simp
  · intro matched
    obtain ⟨_, _, split, takes, _⟩ :=
      (matches_cons_iff fun run => one behind (run ▸ rfl)).mp matched
    obtain ⟨rfl, rfl⟩ := List.cons.inj split
    exact refused takes

/-- A match with a longer run of the tokens that a scan takes up again at. -/
def Resumed (resume : Option Resume) : Prop :=
  ∃ r, resume = some r ∧ Matches (.anyRun :: r.tokens) r.text

@[simp] theorem not_resumed_none : ¬ Resumed none := by
  simp [Resumed]

@[simp] theorem resumed_some {r : Resume} :
    Resumed (some r) ↔ Matches (.anyRun :: r.tokens) r.text := by
  simp [Resumed]

/-- The tokens and the text before a scan follow from where it would take up again: since
the run it would make longer, tokens that are no runs took one character each. -/
inductive Resume.Reaches : Resume → List Token → List Char → Prop where
  | start (tokens : List Token) (text : List Char) :
      Reaches ⟨tokens, text.tail⟩ tokens text
  | take {r : Resume} {token : Token} {tokens : List Token} {c : Char} {text : List Char} :
      Reaches r (token :: tokens) (c :: text) → token ≠ .anyRun → Reaches r tokens text

/-- What a longer run before the tokens already taken would lead to, a run at the place of
the scan leads to as well. -/
theorem Resume.Reaches.matches_anyRun {r : Resume} (reaches : r.Reaches tokens text)
    (matched : Matches (.anyRun :: r.tokens) r.text) : Matches (.anyRun :: tokens) text := by
  induction reaches with
  | start tokens text => exact matches_anyRun_tail.mpr (.inr matched)
  | @take _ token tokens c text _ one ih =>
      have later : Matches (.anyRun :: token :: tokens) (c :: text) := ih matched
      obtain ⟨run, _, split, rest⟩ := matches_anyRun_iff.mp later
      obtain ⟨d, rest, rfl, _, matched⟩ := (matches_cons_iff one).mp rest
      cases run with
      | nil =>
          obtain ⟨-, rfl⟩ := List.cons.inj split
          exact .anyRun [] matched
      | cons _ run =>
          obtain ⟨-, rfl⟩ := List.cons.inj split
          simpa using Matches.anyRun (run ++ [d]) matched

/-- A scan answers whether the tokens before it match the text before it, or those that it
takes up again at match from there with a longer run. -/
theorem scan_iff {resume : Option Resume}
    (reaches : ∀ r, resume = some r → r.Reaches tokens text) :
    scan tokens text resume = true ↔ Matches tokens text ∨ Resumed resume := by
  fun_induction scan tokens text resume with
  | case1 tokens resume =>
      refine all_anyRun_iff.trans ⟨.inl, ?_⟩
      rintro (matched | ⟨r, stored, matched⟩)
      · exact matched
      · exact matches_anyRun_nil.mp ((reaches r stored).matches_anyRun matched)
  | case2 resume c later behind ih =>
      have start : Resume.Reaches ⟨behind, later⟩ behind (c :: later) :=
        .start behind (c :: later)
      have passed : Resumed resume → Matches (.anyRun :: behind) (c :: later) := by
        rintro ⟨r, stored, matched⟩
        exact matches_anyRun_anyRun.mp ((reaches r stored).matches_anyRun matched)
      rw [ih (by rintro _ ⟨⟩; exact start), resumed_some, or_iff_left_of_imp passed]
      exact matches_anyRun_tail.symm
  | case3 resume c later tokens one takes ih =>
      obtain _ | ⟨token, behind⟩ := tokens
      · exact absurd takes (by simp)
      · have further (r : Resume) (stored : resume = some r) : r.Reaches behind later :=
          (reaches r stored).take (fun run => one behind (run ▸ rfl))
        rw [matches_cons_of_takes (by simpa using takes)]
        exact ih further
  | case4 c later tokens one refused r ih =>
      have start : Resume.Reaches ⟨r.tokens, r.text.tail⟩ r.tokens r.text := .start _ _
      have here : ¬ Matches tokens (c :: later) := not_matches_of_refused one refused
      rw [ih (by rintro _ ⟨⟩; exact start), resumed_some, resumed_some, or_iff_right here]
      exact matches_anyRun_tail.symm
  | case5 c later tokens one refused =>
      have here : ¬ Matches tokens (c :: later) := not_matches_of_refused one refused
      simp [here]

theorem scan_none_iff : scan tokens text none = true ↔ Matches tokens text := by
  have reaches (r : Resume) (stored : none = some r) : r.Reaches tokens text := nomatch stored
  rw [scan_iff reaches, or_iff_left not_resumed_none]

section Readings

variable {pattern : List Char} {reading : Option (List Token)}

/-- The texts that the tokens of a reading match; none if there is no reading. -/
def Admits (reading : Option (List Token)) (text : List Char) : Prop :=
  ∃ tokens, reading = some tokens ∧ Matches tokens text

@[simp] theorem not_admits_none : ¬ Admits none text := by
  simp [Admits]

@[simp] theorem admits_some : Admits (some tokens) text ↔ Matches tokens text := by
  simp [Admits]

theorem admits_anyRun_iff :
    Admits (reading.map (.anyRun :: ·)) text ↔
      ∃ run rest, text = run ++ rest ∧ Admits reading rest := by
  cases reading <;> simp [matches_anyRun_iff]

theorem admits_cons_iff (one : token ≠ .anyRun) :
    Admits (reading.map (token :: ·)) text ↔
      ∃ c rest, text = c :: rest ∧ token.takes c = true ∧ Admits reading rest := by
  cases reading <;> simp [matches_cons_iff one]

theorem admits_char_iff :
    Admits (reading.map (.char c :: ·)) text ↔ ∃ rest, text = c :: rest ∧ Admits reading rest := by
  have one : Token.char c ≠ .anyRun := nofun
  rw [admits_cons_iff one]
  constructor
  · rintro ⟨_, rest, rfl, takes, matched⟩
    obtain rfl : c = _ := beq_iff_eq.mp takes
    exact ⟨rest, rfl, matched⟩
  · rintro ⟨rest, rfl, matched⟩
    exact ⟨c, rest, rfl, beq_iff_eq.mpr rfl, matched⟩

theorem describes_nil_iff : Describes [] text ↔ text = [] :=
  ⟨fun | .nil => rfl, fun none => none ▸ .nil⟩

theorem describes_anyRun_iff :
    Describes ('%' :: pattern) text ↔
      ∃ run rest, text = run ++ rest ∧ Describes pattern rest := by
  constructor
  · intro described
    cases described with
    | anyRun run rest => exact ⟨run, _, rfl, rest⟩
    | char _ run => exact absurd rfl run
  · rintro ⟨run, rest, rfl, described⟩
    exact .anyRun run described

theorem describes_anyChar_iff :
    Describes ('_' :: pattern) text ↔ ∃ c rest, text = c :: rest ∧ Describes pattern rest := by
  constructor
  · intro described
    cases described with
    | anyChar c rest => exact ⟨c, _, rfl, rest⟩
    | char _ _ one => exact absurd rfl one
  · rintro ⟨c, rest, rfl, described⟩
    exact .anyChar c described

theorem describes_escaped_iff :
    Describes ('\\' :: c :: pattern) text ↔ ∃ rest, text = c :: rest ∧ Describes pattern rest := by
  constructor
  · intro described
    cases described with
    | escaped _ rest => exact ⟨_, rfl, rest⟩
    | char _ _ _ escape => exact absurd rfl escape
  · rintro ⟨rest, rfl, described⟩
    exact .escaped c described

theorem describes_char_iff (run : c ≠ '%') (one : c ≠ '_') (escape : c ≠ '\\') :
    Describes (c :: pattern) text ↔ ∃ rest, text = c :: rest ∧ Describes pattern rest := by
  constructor
  · intro described
    cases described with
    | anyRun => exact absurd rfl run
    | anyChar => exact absurd rfl one
    | escaped => exact absurd rfl escape
    | char _ _ _ _ rest => exact ⟨_, rfl, rest⟩
  · rintro ⟨rest, rfl, described⟩
    exact .char c run one escape described

theorem not_describes_backslash : ¬ Describes ['\\'] text := by
  intro described
  cases described with
  | char _ _ _ escape => exact escape rfl

/-- Two runs next to each other describe what one does. -/
theorem describes_anyRun_anyRun :
    Describes ('%' :: '%' :: pattern) text ↔ Describes ('%' :: pattern) text := by
  constructor
  · intro described
    obtain ⟨run, _, rfl, second⟩ := describes_anyRun_iff.mp described
    obtain ⟨more, _, rfl, later⟩ := describes_anyRun_iff.mp second
    rw [← List.append_assoc]
    exact .anyRun (run ++ more) later
  · exact fun described => .anyRun [] described

/-- A pattern describes what the tokens of its reading match. -/
theorem describes_iff_admits : Describes pattern text ↔ Admits (tokens? pattern) text := by
  fun_induction tokens? pattern generalizing text with
  | case1 => rw [describes_nil_iff, admits_some, matches_nil_iff]
  | case2 rest ih => exact describes_anyRun_anyRun.trans ih
  | case3 rest single ih => simp only [describes_anyRun_iff, admits_anyRun_iff, ih]
  | case4 rest ih =>
      have one : Token.anyChar ≠ .anyRun := nofun
      simp only [describes_anyChar_iff, admits_cons_iff one, Token.takes, true_and, ih]
  | case5 c rest ih => simp only [describes_escaped_iff, admits_char_iff, ih]
  | case6 => simp [not_describes_backslash]
  | case7 c rest _ run one escaped alone ih =>
      have escape : c ≠ '\\' := by
        intro escape
        obtain _ | ⟨d, later⟩ := rest
        · exact alone escape rfl
        · exact escaped d later escape rfl
      simp only [describes_char_iff run one escape, admits_char_iff, ih]

end Readings

/-- A text is a match for a pattern exactly if the pattern describes it. -/
theorem isMatch_iff_describes (text pattern : String) :
    isMatch text pattern = true ↔ Describes pattern.toList text.toList := by
  rw [describes_iff_admits, isMatch]
  cases tokens? pattern.toList with
  | none => simp
  | some tokens => simp [scan_none_iff]

end RecordGraph.Text.Pattern
