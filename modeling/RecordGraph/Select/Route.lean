import RecordGraph.Select.Descriptor

/-!
# Routes

A route leads from the rows of one model along associations, each named on the model
that the one before it leads to. It is the steps on the way and the last one. A route
is used in two ways: to reach an attribute at its end, which takes the steps and the
last association into the path of the attribute, and to ask for the rows of its last
association, with the flags that the route states for them.
-/

namespace RecordGraph

/-- A chain of associations, with flags for including the last one. -/
structure Route where
  /-- The associations before the last one. -/
  steps : List String := []
  /-- The last association. -/
  key : String
  overrides : Overrides := {}
deriving DecidableEq, Repr

namespace Route

/-- The route along one association. -/
def ofKey (key : String) : Route :=
  { key }

/-- Every association on the way, the last one included. -/
def toList (route : Route) : List String :=
  route.steps ++ [route.key]

/-- Go on along another route. The flags are those of the route gone on along. -/
def andThen (route next : Route) : Route :=
  { next with steps := route.toList ++ next.steps }

/-- Go along associations one after the other, and then along a last one. -/
def after (steps : List String) (last : Route) : Route :=
  steps.foldr (fun step route => (ofKey step).andThen route) last

/-- An expression over the rows at the end. Only attributes are reached through the
route; other expressions stay as they are. -/
def field (route : Route) (e : Expr) : Expr :=
  e.through route.toList

/-- The last association itself as an expression. -/
def reference (route : Route) : Expr :=
  .association route.key

/-- Drop rows without a related row. -/
def require (route : Route) : Route :=
  { route with overrides.required := some true }

/-- Keep rows without a related row. -/
def allowMissing (route : Route) : Route :=
  { route with overrides.required := some false }

/-- Writes attach existing rows and do not change them. -/
def attachOnly (route : Route) : Route :=
  { route with overrides.associateOnly := some true }

/-- Writes save related rows. -/
def saveAlong (route : Route) : Route :=
  { route with overrides.associateOnly := some false }

@[simp] theorem toList_ofKey (key : String) : (ofKey key).toList = [key] := rfl

@[simp] theorem toList_andThen (route next : Route) :
    (route.andThen next).toList = route.toList ++ next.toList := by
  simp [andThen, toList]

@[simp] theorem overrides_andThen (route next : Route) :
    (route.andThen next).overrides = next.overrides := rfl

theorem toList_after (steps : List String) (last : Route) :
    (after steps last).toList = steps ++ last.toList := by
  induction steps with
  | nil => rfl
  | cons step rest ih => simp only [after, List.foldr_cons, toList_andThen] at ih ⊢; simp [ih]

theorem overrides_after (steps : List String) (last : Route) :
    (after steps last).overrides = last.overrides := by
  induction steps with
  | nil => rfl
  | cons step rest ih => exact ih

end Route

end RecordGraph
