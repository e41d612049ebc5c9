import RecordGraph.Select.Selection

/-!
# Descriptors and their includes

A descriptor is a selection with the related rows to load along. The includes form a
tree: each names the association it follows by the label it is filed under, and may
carry a selection of its own with further includes.

Includes are told apart by label. `Include.mergeAll` puts a later list on top of an
earlier one: an include with a known label takes the flags of the later one and the
merge of both selections, in its old place; the others are appended.
`Descriptor.addInclude` is what asking for an association again does: the earlier
include stays, with its selection merged, its flags changed only where asked, and
moves to the end.
-/

namespace RecordGraph

/-- What an include says about the association itself. -/
structure Edge where
  /-- Name of the target model. -/
  target : String
  /-- The name that related rows are filed under. -/
  label : String
  /-- Rows without a related row are dropped. -/
  required : Bool := false
  /-- Writes attach existing rows and do not change them. -/
  associateOnly : Bool := false
deriving DecidableEq, Repr

/-- Related rows to load along, or to write along. -/
inductive Include where
  /-- All related rows. -/
  | plain (edge : Edge)
  /-- The related rows that a selection of their own picks. -/
  | nested (edge : Edge) (selection : Selection) (children : List Include)
deriving Repr

/-- A selection with the related rows to load along. -/
structure Descriptor where
  selection : Selection
  includes : List Include := []
deriving Repr

/-- Flags that a request for an include states; what it leaves open is not changed. -/
structure Overrides where
  required : Option Bool := none
  associateOnly : Option Bool := none
deriving DecidableEq, Repr

namespace Edge

/-- Change the flags that are stated. -/
def withOverrides (e : Edge) (o : Overrides) : Edge :=
  { e with
    required := o.required.getD e.required
    associateOnly := o.associateOnly.getD e.associateOnly }

end Edge

namespace Include

/-- What an include says about the association itself. -/
def edge : Include → Edge
  | .plain e | .nested e _ _ => e

/-- The name that related rows are filed under. -/
def label (i : Include) : String := i.edge.label

/-- The includes below this one. -/
def children : Include → List Include
  | .plain _ => []
  | .nested _ _ children => children

/-- The selection of the related rows with the includes below, if there is one. -/
def descriptor? : Include → Option Descriptor
  | .plain _ => none
  | .nested _ selection children => some ⟨selection, children⟩

/-- An include over an association, with a descriptor of its own or without. -/
def of (edge : Edge) : Option Descriptor → Include
  | none => .plain edge
  | some d => .nested edge d.selection d.includes

/-- The same related rows over another edge. -/
def withEdge (edge : Edge) : Include → Include
  | .plain _ => .plain edge
  | .nested _ selection children => .nested edge selection children

mutual

/-- Equality of includes, with everything below them. -/
def beq : Include → Include → Bool
  | .plain e, .plain f => e == f
  | .nested e s xs, .nested f t ys => e == f && s == t && beqAll xs ys
  | _, _ => false

/-- Equality of lists of includes. -/
def beqAll : List Include → List Include → Bool
  | [], [] => true
  | x :: xs, y :: ys => beq x y && beqAll xs ys
  | _, _ => false

end

instance : BEq Include := ⟨beq⟩

/-- Change the first include of a label, or append one. -/
def alter (label : String) (change : Include → Include) (fresh : Include) :
    List Include → List Include
  | [] => [fresh]
  | i :: rest => if i.label = label then change i :: rest else i :: alter label change fresh rest

mutual

/-- Put a later include on top of an earlier one: the later edge, and the merge of
both selections where both have one. -/
def merge (earlier : Include) : Include → Include
  | .plain edge => earlier.withEdge edge
  | .nested edge selection children =>
    match earlier with
    | .plain _ => .nested edge selection children
    | .nested _ earlierSelection earlierChildren =>
      .nested edge (earlierSelection.merge selection) (mergeAll earlierChildren children)

/-- Put a later list of includes on top of an earlier one, label by label. -/
def mergeAll (earlier : List Include) : List Include → List Include
  | [] => earlier
  | i :: rest => mergeAll (alter i.label (fun e => merge e i) i earlier) rest

end

mutual

/-- Number of levels from an include down. -/
def depth : Include → Nat
  | .plain _ => 1
  | .nested _ _ children => 1 + depthOf children

/-- Number of levels in a list of includes. -/
def depthOf : List Include → Nat
  | [] => 0
  | i :: rest => max (depth i) (depthOf rest)

end

@[simp] theorem children_of (edge : Edge) (d : Option Descriptor) :
    (of edge d).children = (d.map (·.includes)).getD [] := by
  cases d <;> rfl

@[simp] theorem edge_of (edge : Edge) (d : Option Descriptor) : (of edge d).edge = edge := by
  cases d <;> rfl

@[simp] theorem edge_merge (earlier later : Include) : (merge earlier later).edge = later.edge := by
  cases later <;> cases earlier <;> simp [merge, withEdge, edge]

end Include

namespace Descriptor

instance : BEq Descriptor := ⟨fun a b => a.selection == b.selection && a.includes == b.includes⟩

/-- Everything of a model. -/
def ofModel (model : String) : Descriptor :=
  { selection := { model } }

/-- Put a later descriptor on the same model on top of an earlier one. -/
def merge (a b : Descriptor) : Descriptor :=
  ⟨a.selection.merge b.selection, Include.mergeAll a.includes b.includes⟩

/-- Ask for one more condition. -/
def addCondition (d : Descriptor) (c : Condition) : Descriptor :=
  { d with selection.conditions := d.selection.conditions ++ [c] }

/-- Ask for more attributes. -/
def addAttributes (d : Descriptor) (attributes : List Expr) : Descriptor :=
  { d with selection.attributes := d.selection.attributes ++ attributes }

/-- Ask for more sort keys, after those there are. -/
def addOrderings (d : Descriptor) (terms : List OrderTerm) : Descriptor :=
  { d with selection.orderings := d.selection.orderings ++ terms }

/-- Ask for more groups. -/
def addGroupings (d : Descriptor) (groupings : List Expr) : Descriptor :=
  { d with selection.groupings := d.selection.groupings ++ groupings }

/-- Leave out more rows at the start. -/
def skip (d : Descriptor) (n : Nat) : Descriptor :=
  { d with selection.skipped := Selection.addCount d.selection.skipped n }

/-- Keep more rows. -/
def take (d : Descriptor) (n : Nat) : Descriptor :=
  { d with selection.taken := Selection.addCount d.selection.taken n }

/-- Remove the first include of a label from a list. -/
def extract (label : String) : List Include → Option (Include × List Include)
  | [] => none
  | i :: rest =>
    if i.label = label then some (i, rest)
    else (extract label rest).map fun (found, others) => (found, i :: others)

/-- Ask for an association. Asking again keeps the earlier include and merges the
selections; either way the stated flags are set and the include stands last. -/
def addInclude (d : Descriptor) (i : Include) (o : Overrides) : Descriptor :=
  match extract i.label d.includes with
  | some (existing, others) =>
    let merged := (Include.merge existing i).withEdge (existing.edge.withOverrides o)
    { d with includes := others ++ [merged] }
  | none => { d with includes := d.includes ++ [i.withEdge (i.edge.withOverrides o)] }

/-- Number of levels of related rows. -/
def depth (d : Descriptor) : Nat :=
  Include.depthOf d.includes

end Descriptor

end RecordGraph
