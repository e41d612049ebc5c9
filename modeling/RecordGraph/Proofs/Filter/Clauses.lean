import RecordGraph.Proofs.Filter.Folding
import RecordGraph.Select.Renaming

/-!
# Clauses and the keys in them

A filter is a clause, and below the keys that join filters it has further clauses, each
found on a way of keys and places. A filter names a key when one of its clauses has an
entry under it. Folding conditions together neither loses nor invents the name of a key, so
the keys that a query filters by are those of its conditions.
-/

namespace RecordGraph

/-- The fields of an object. -/
def Value.fields? : Value → Option Record
  | .obj fields => some fields
  | _ => none

namespace Filter

open Renaming (isJunction)

/-- The clauses under a joining key: an object alone, or the objects of a list. -/
def clausesUnder : Value → List Record
  | .arr items => items.filterMap Value.fields?
  | v => v.fields?.toList

/-- A clause of a filter, at the end of a way through joining keys and places under them. -/
inductive ClauseAt (fields : Record) : List (String × Nat) → Record → Prop where
  | top : ClauseAt fields [] fields
  | under {way : List (String × Nat)} {outer clause : Record} {joint : String} {v : Value}
      {place : Nat} (above : ClauseAt fields way outer) (joins : isJunction joint = true)
      (entry : outer.get? joint = some v) (member : (clausesUnder v)[place]? = some clause) :
      ClauseAt fields (way ++ [(joint, place)]) clause

/-- A filter has an entry under a key in one of its clauses. -/
inductive Names (key : String) : Record → Prop where
  | here {fields : Record} {v : Value} (entry : fields.get? key = some v) : Names key fields
  | inside {fields clause : Record} {joint : String} {v : Value} (joins : isJunction joint = true)
      (entry : fields.get? joint = some v) (member : clause ∈ clausesUnder v)
      (inner : Names key clause) : Names key fields

/-- An entry is under a key, or joins clauses of which one names the key. -/
def NamesUnder (key other : String) (v : Value) : Prop :=
  other = key ∨ isJunction other = true ∧ ∃ clause ∈ clausesUnder v, Names key clause

variable {key other : String} {fields : Record} {v w : Value}

/-- What has an entry under a key at the end of some way names the key. -/
theorem ClauseAt.names {way : List (String × Nat)} {clause : Record}
    (found : ClauseAt fields way clause) (inner : Names key clause) : Names key fields := by
  induction found with
  | top => exact inner
  | under above joins entry member ih =>
      exact ih (.inside joins entry (List.mem_of_getElem? member) inner)

/-- A filter names a key when one of its entries does. -/
theorem names_iff : Names key fields ↔ fields.Any (NamesUnder key) := by
  constructor
  · rintro (entry | ⟨joins, entry, member, inner⟩)
    · exact ⟨_, _, entry, .inl rfl⟩
    · exact ⟨_, _, entry, .inr ⟨joins, _, member, inner⟩⟩
  · rintro ⟨k, v, entry, rfl | ⟨joins, clause, member, inner⟩⟩
    · exact .here entry
    · exact .inside joins entry member inner

theorem names_single : Names key [(other, v)] ↔ NamesUnder key other v := by
  rw [names_iff, Dict.any_single]

theorem namesUnder_obj : NamesUnder key other (.obj fields) ↔
    other = key ∨ isJunction other = true ∧ Names key fields := by
  simp [NamesUnder, clausesUnder, Value.fields?]

/-! ### Numbers that are equal -/

theorem clausesUnder_normal (v : Value) :
    clausesUnder v.normal = (clausesUnder v).map (Dict.mapValues Value.normal) := by
  cases v with
  | arr items =>
      simp only [Value.normal, clausesUnder, Value.normalItems_eq_map, List.filterMap_map,
        List.map_filterMap]
      congr 1
      funext item
      cases item <;> simp [Value.normal, Value.fields?, Value.normalFields_eq_mapValues]
  | _ => simp [Value.normal, clausesUnder, Value.fields?, Value.normalFields_eq_mapValues]

theorem exists_clause_of_normal (same : w.normal = v.normal) {clause : Record}
    (member : clause ∈ clausesUnder v) : ∃ other ∈ clausesUnder w,
      other.mapValues Value.normal = clause.mapValues Value.normal := by
  have clauses := congrArg clausesUnder same
  rw [clausesUnder_normal, clausesUnder_normal] at clauses
  exact List.mem_map.mp (clauses ▸ List.mem_map_of_mem member)

/-- The keys that a filter names do not depend on how its numbers are written. -/
theorem Names.of_normal (h : Names key fields) : ∀ others : Record,
    others.mapValues Value.normal = fields.mapValues Value.normal → Names key others := by
  induction h with
  | here entry =>
      intro others same
      obtain ⟨w, there, -⟩ := Dict.get?_of_mapValues_eq same entry
      exact .here there
  | inside joins entry member inner ih =>
      intro others same
      obtain ⟨w, there, normal⟩ := Dict.get?_of_mapValues_eq same entry
      obtain ⟨clause, found, alike⟩ := exists_clause_of_normal normal member
      exact .inside joins there found (ih clause alike)

/-- Values that are equal as documents name the same keys. -/
theorem NamesUnder.congr (same : (v == w) = true) (h : NamesUnder key other w) :
    NamesUnder key other v := by
  refine h.imp_right fun ⟨joins, clause, member, inner⟩ => ⟨joins, ?_⟩
  obtain ⟨clause', found, alike⟩ := exists_clause_of_normal (Value.beq_iff.mp same) member
  exact ⟨clause', found, inner.of_normal clause' alike⟩

end Filter

namespace Condition

open RecordGraph.Filter
open Renaming (isJunction)

variable {key other : String} {fields : Record} {v : Value}

/-- A member of a conjunction is a clause that names the key. -/
def MemberNames (key : String) (item : Value) : Prop :=
  ∃ clause, item.fields? = some clause ∧ Names key clause

theorem namesUnder_andKey (ne : key ≠ andKey) :
    NamesUnder key andKey v ↔ ∃ clause ∈ clausesUnder v, Names key clause := by
  have joins : isJunction andKey = true := by decide
  simp [NamesUnder, ne.symm, joins]

/-- Naming a key is a matter of the clauses under the keys that join them. -/
theorem ofParts_namesUnder (ne : key ≠ andKey) : OfParts (NamesUnder key) (MemberNames key) where
  congr := NamesUnder.congr
  conjunction := by
    intro items
    simp only [namesUnder_andKey ne, clausesUnder, List.mem_filterMap, MemberNames]
    constructor
    · rintro ⟨clause, ⟨item, member, object⟩, inner⟩
      exact ⟨item, member, clause, object, inner⟩
    · rintro ⟨item, member, clause, object, inner⟩
      exact ⟨clause, ⟨item, member, object⟩, inner⟩
  alone := by
    intro v single
    cases v with
    | arr items => exact absurd rfl (single items)
    | _ => simp [namesUnder_andKey ne, clausesUnder, MemberNames, Value.fields?]
  clause := by
    intro fields
    simp [MemberNames, Value.fields?, names_iff]
  object := by
    intro other
    by_cases same : other = key
    · exact .inl fun fields => .inl same
    · cases joins : isJunction other with
      | false => exact .inr (.inl fun fields => by simp [namesUnder_obj, same, joins])
      | true => exact .inr (.inr fun fields => by simp [namesUnder_obj, same, joins, names_iff])

/-- The filter of a selection names the keys that its conditions name, and no others. -/
theorem names_filter_iff (ne : key ≠ andKey) {s : Selection}
    (ordered : ∀ c ∈ s.conditions, c.Ordered) :
    Names key s.filter ↔ ∃ c ∈ s.conditions, Names key c.fields := by
  simp only [names_iff]
  exact (ofParts_namesUnder ne).any_filter_iff ordered

end Condition

end RecordGraph
