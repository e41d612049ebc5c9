import RecordGraph.Proofs.Store.Anchoring
import RecordGraph.Proofs.Write.Performed

/-!
# The tables that a walk writes

An include leads to the table of its target, where the supplied rows are stored, and connecting
these writes the table that the connection hangs on. The includes below lead further, in the same
way. A walk leaves all other tables as they are, whether it fails or not, provided that the rows
which are supplied whole are rows of the targets.
-/

namespace RecordGraph

namespace Cascade

/-- The tables that are written for an edge of a model, those for the includes below given. -/
def tablesOf (r : Registry) (m : Model) (edge : Edge) (below : Model → List String) :
    List String :=
  ((m.association? edge.label).bind fun a => (r.get? a.target).map fun target =>
    target.name :: (Linking.anchorTable m a target).toList ++ below target).getD []

mutual

/-- The tables that are written for an include of a model. -/
def tables (r : Registry) (m : Model) : Include → List String
  | .plain edge => tablesOf r m edge fun _ => []
  | .nested edge _ children => tablesOf r m edge fun target => allTables r target children

/-- The tables that are written for a list of includes of a model. -/
def allTables (r : Registry) (m : Model) : List Include → List String
  | [] => []
  | i :: rest => tables r m i ++ allTables r m rest

end

variable {r : Registry} {m target : Model} {includes : List Include} {i : Include}
variable {a : Association}

theorem tables_eq (i : Include) :
    tables r m i = tablesOf r m i.edge fun target => allTables r target i.children := by
  cases i <;> rw [tables] <;> rfl

/-- Among these tables are those that an include of the list leads to. -/
theorem tables_subset_allTables (asked : i ∈ includes)
    (association : m.association? i.label = some a) (registered : r.get? a.target = some target) :
    target.name :: (Linking.anchorTable m a target).toList ++ allTables r target i.children ⊆
      allTables r m includes := by
  have own : tables r m i = target.name :: (Linking.anchorTable m a target).toList ++
      allTables r target i.children := by
    have association : m.association? i.edge.label = some a := association
    simp only [tables_eq, tablesOf, association, registered, Option.bind_some, Option.map_some,
      Option.getD_some]
  rw [← own]
  clear own
  induction includes with
  | nil => cases asked
  | cons j rest ih =>
      rw [allTables]
      rcases List.mem_cons.mp asked with rfl | later
      · exact List.subset_append_left _ _
      · exact List.Subset.trans (ih later) (List.subset_append_right _ _)

end Cascade

open Cascade

variable {r : Registry} {m source target : Model} {includes : List Include}
variable {label name : String} {t : Table} {e : Engine} {c : Command}

/-- Includes lead to the tables of their targets and to those that their connections hang on. -/
theorem Include.LeadsTo.mem_allTables (leads : LeadsTo r m includes source label target) :
    target.name ∈ allTables r m includes ∧
      ∀ a name, source.association? label = some a →
        Linking.anchorTable source a target = some name → name ∈ allTables r m includes := by
  induction leads with
  | here asked association registered =>
      have within := tables_subset_allTables asked association registered
      refine ⟨within (by simp), fun a name same anchor => within ?_⟩
      obtain rfl := Option.some.inj (association.symm.trans same)
      simp [anchor]
  | down asked association registered _ ih =>
      have within := tables_subset_allTables asked association registered
      exact ⟨within (List.mem_append_right _ ih.1), fun a name same anchor =>
        within (List.mem_append_right _ (ih.2 a name same anchor))⟩

/-- So a command that is asked for writes one of these tables. -/
theorem Command.Sets.mem_allTables (sets : c.Sets e name t) (asked : c.Asked r m includes)
    (registry : e.registry = r) : name ∈ allTables r m includes := by
  subst registry
  have anchored {row : Row} {label : String} {linked : Linked Row} {a : Association}
      {target : Model} {pk : String} {wanted : List Value}
      (asked : Command.Asked e.registry m includes (.setAssociation row label linked))
      (ends : Linking.Ends e.registry row label linked a target pk wanted)
      (anchor : Linking.anchorTable row.model a target = some name) :
      name ∈ allTables e.registry m includes := by
    obtain ⟨⟩ | ⟨leads⟩ := asked
    obtain rfl := leads.target_eq ends.association ends.registered
    exact leads.mem_allTables.2 a name ends.association anchor
  cases sets with
  | saved =>
      obtain ⟨leads⟩ := asked
      exact leads.mem_allTables.1
  | held ends kind => exact anchored asked ends (by rw [Linking.anchorTable, kind])
  | pointed ends kind => exact anchored asked ends (Linking.anchorTable_of_owned kind)
  | paired ends kind _ join =>
      exact anchored asked ends (by simp only [Linking.anchorTable, kind, join])

theorem Command.Asked.openTable_perform (asked : c.Asked r m includes) (registry : e.registry = r)
    (apart : name ∉ allTables r m includes) :
    (c.perform e).2.database.openTable name = e.database.openTable name := by
  obtain ⟨row, on, -⟩ := asked.exists_row
  refine Command.openTable_perform (P := (· = e.database.openTable name)) on rfl fun t sets => ?_
  exact absurd (sets.mem_allTables asked registry) apart

namespace Cascade

end Cascade

end RecordGraph
