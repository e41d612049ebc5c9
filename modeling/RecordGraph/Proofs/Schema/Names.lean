import RecordGraph.Proofs.Data.Steps
import RecordGraph.Schema.Registry

/-!
# The names of a model

A model is accepted when its attribute names and the aliases of its associations do not
repeat. A look-up answers to more names than these: an association with an alias is also
known by its key, and of several associations that answer to a name the first one is taken.
So the declared names of an accepted model mean what they are declared for exactly when the
keys stay clear of the aliases of later associations and of the attribute names.
-/

namespace RecordGraph

namespace Model

variable {m : Model}

/-- Every alias leads to the association it is declared for, and no attribute is taken for
an association. -/
structure Unambiguous (m : Model) : Prop where
  aliases : ∀ a ∈ m.associations, m.association? a.canonicalAlias = some a
  attributes : ∀ column ∈ m.attributes, m.association? column.name = none

/-- No association has the alias of a later one, or the name of an attribute, as its key. -/
structure KeysApart (m : Model) : Prop where
  aliases : m.associations.Pairwise fun a b => a.key ≠ b.canonicalAlias
  attributes : ∀ a ∈ m.associations, ∀ column ∈ m.attributes, a.key ≠ column.name

instance : Decidable m.KeysApart :=
  decidable_of_iff
    ((m.associations.Pairwise fun a b => a.key ≠ b.canonicalAlias) ∧
      ∀ a ∈ m.associations, ∀ column ∈ m.attributes, a.key ≠ column.name)
    ⟨fun h => ⟨h.1, h.2⟩, fun h => ⟨h.aliases, h.attributes⟩⟩

/-- The declared names of an accepted model do not repeat. -/
theorem nodup_of_validate (h : m.validate = .ok ()) : m.declaredKeys.Nodup := by
  obtain ⟨_, _, h⟩ := bind_eq_ok_iff.mp h
  cases repeats : firstRepeat? [] m.declaredKeys with
  | some key =>
      rw [repeats] at h
      cases h
  | none => exact (firstRepeat?_eq_none_iff.mp repeats).1

/-- Among associations with distinct aliases the first that answers to an alias is the
one that has it, unless an earlier one has it as its key. -/
theorem find?_canonicalAlias_iff {associations : List Association}
    (distinct : (associations.map (·.canonicalAlias)).Nodup) :
    (∀ a ∈ associations, associations.find? (·.answersTo a.canonicalAlias) = some a) ↔
      associations.Pairwise fun a b => a.key ≠ b.canonicalAlias := by
  induction associations with
  | nil => simp
  | cons first rest ih =>
      obtain ⟨fresh, distinct⟩ := List.nodup_cons.mp distinct
      have below : ∀ b ∈ rest, (first :: rest).find? (·.answersTo b.canonicalAlias) = some b ↔
          first.key ≠ b.canonicalAlias ∧ rest.find? (·.answersTo b.canonicalAlias) = some b := by
        intro b member
        have other : first.canonicalAlias ≠ b.canonicalAlias := by
          intro same
          exact fresh (List.mem_map.mpr ⟨b, member, same.symm⟩)
        by_cases key : first.key = b.canonicalAlias
        · have answers : first.answersTo b.canonicalAlias = true :=
            Association.answersTo_iff.mpr (.inl key)
          simp only [List.find?_cons, answers]
          constructor
          · intro found
            exact absurd (congrArg Association.canonicalAlias (Option.some.inj found)) other
          · rintro ⟨apart, _⟩
            exact absurd key apart
        · have skipped : first.answersTo b.canonicalAlias = false := by
            rw [← Bool.not_eq_true, Association.answersTo_iff, not_or]
            exact ⟨key, other⟩
          simp only [List.find?_cons, skipped]
          exact ⟨fun found => ⟨key, found⟩, fun h => h.2⟩
      have head : (first :: rest).find? (·.answersTo first.canonicalAlias) = some first :=
        List.find?_cons_of_pos first.answersTo_canonicalAlias
      rw [List.pairwise_cons, ← ih distinct, List.forall_mem_cons]
      constructor
      · rintro ⟨_, found⟩
        exact ⟨fun b member => ((below b member).mp (found b member)).1,
          fun b member => ((below b member).mp (found b member)).2⟩
      · rintro ⟨apart, found⟩
        exact ⟨head, fun b member => (below b member).mpr ⟨apart b member, found b member⟩⟩

/-- Beside distinct names, it is the keys that may make a model ambiguous. -/
theorem unambiguous_iff (distinct : m.declaredKeys.Nodup) : m.Unambiguous ↔ m.KeysApart := by
  obtain ⟨_, aliases, apart⟩ := List.nodup_append.mp distinct
  have plain : (∀ column ∈ m.attributes, m.association? column.name = none) ↔
      ∀ a ∈ m.associations, ∀ column ∈ m.attributes, a.key ≠ column.name := by
    constructor
    · intro none a member column declared same
      have refused := List.find?_eq_none.mp (none column declared) a member
      exact refused (Association.answersTo_iff.mpr (.inl same))
    · intro clear column declared
      refine List.find?_eq_none.mpr fun a member answers => ?_
      rcases Association.answersTo_iff.mp answers with key | called
      · exact clear a member column declared key
      · exact apart _ (List.mem_map_of_mem declared) _ (List.mem_map_of_mem member) called.symm
  constructor
  · intro h
    exact ⟨(find?_canonicalAlias_iff aliases).mp h.aliases, plain.mp h.attributes⟩
  · intro h
    exact ⟨(find?_canonicalAlias_iff aliases).mpr h.aliases, plain.mpr h.attributes⟩

end Model

/-- A registered model has been accepted. -/
theorem Registry.validate_of_register {r r' : Registry} {m : Model}
    (h : r.register m = .ok r') : m.validate = .ok () := by
  obtain ⟨_, accepted, _⟩ := bind_eq_ok_iff.mp h
  exact accepted

end RecordGraph
