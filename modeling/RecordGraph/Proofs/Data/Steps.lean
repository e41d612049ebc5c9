/-!
# Steps that may be refused

A step answers a value or refuses with an error; a chain of steps ends at the first
refusal. What a chain answers is taken apart with `bind_eq_ok_iff`, and what it answers
after a known step is computed by `ok_bind`.

Filters walk along lists of checks in one of two ways, up to the first that does not
hold or up to the first that does. `allOf` and `anyOf` are these walks: the former holds
exactly when every member holds, and it answers something whenever every member does.
-/

namespace RecordGraph

variable {ε α β : Type}

@[simp] theorem ok_bind (a : α) (f : α → Except ε β) : (Except.ok a >>= f) = f a := rfl

@[simp] theorem error_bind (err : ε) (f : α → Except ε β) :
    (Except.error err >>= f) = .error err := rfl

@[simp] theorem pure_eq_ok (a : α) : (pure a : Except ε α) = .ok a := rfl

/-- A chain of steps answers when its first step does and the rest does on that answer. -/
theorem bind_eq_ok_iff {x : Except ε α} {f : α → Except ε β} {b : β} :
    x >>= f = .ok b ↔ ∃ a, x = .ok a ∧ f a = .ok b := by
  cases x <;> simp

/-- A step with other errors fails with what its own error becomes. -/
theorem mapError_eq_error_iff {δ : Type} {x : Except ε α} {f : ε → δ} {err : δ} :
    x.mapError f = .error err ↔ ∃ inner, x = .error inner ∧ f inner = err := by
  cases x with
  | ok a =>
      constructor
      · intro h
        cases h
      · rintro ⟨_, h, _⟩
        cases h
  | error inner =>
      constructor
      · intro h
        exact ⟨inner, rfl, Except.error.inj h⟩
      · rintro ⟨_, h, made⟩
        cases h
        exact congrArg Except.error made

/-- A step with other errors answers what it answers. -/
theorem mapError_eq_ok_iff {δ : Type} {x : Except ε α} {f : ε → δ} {a : α} :
    x.mapError f = .ok a ↔ x = .ok a := by
  cases x <;> constructor <;> intro h <;> cases h <;> rfl

/-- A step on every member of a list answers when each of them does. -/
theorem forM_eq_ok_iff {f : α → Except ε Unit} {items : List α} :
    items.forM f = .ok () ↔ ∀ a ∈ items, f a = .ok () := by
  induction items with
  | nil => simp
  | cons a rest ih =>
      rw [List.forM, bind_eq_ok_iff, List.forall_mem_cons]
      constructor
      · rintro ⟨_, first, others⟩
        exact ⟨first, ih.mp others⟩
      · rintro ⟨first, others⟩
        exact ⟨(), first, ih.mpr others⟩

/-- What a step answers on the members of a list, it answers on one of them. -/
theorem exists_of_mapM_ok {f : α → Except ε β} {items : List α} {answers : List β}
    (done : items.mapM f = .ok answers) : ∀ b ∈ answers, ∃ a ∈ items, f a = .ok b := by
  induction items generalizing answers with
  | nil =>
      cases done
      simp
  | cons a rest ih =>
      rw [List.mapM_cons] at done
      obtain ⟨first, answered, done⟩ := bind_eq_ok_iff.mp done
      obtain ⟨others, later, done⟩ := bind_eq_ok_iff.mp done
      cases done
      refine List.forall_mem_cons.mpr ⟨⟨a, List.mem_cons_self, answered⟩, fun b member => ?_⟩
      obtain ⟨a', among, answered⟩ := ih later b member
      exact ⟨a', List.mem_cons_of_mem _ among, answered⟩

/-- A walk that has answers has one on every member of the list. -/
theorem forall_of_mapM_ok {f : α → Except ε β} {items : List α} {answers : List β}
    (done : items.mapM f = .ok answers) : ∀ a ∈ items, ∃ b, f a = .ok b := by
  induction items generalizing answers with
  | nil => nofun
  | cons a rest ih =>
      rw [List.mapM_cons] at done
      obtain ⟨first, answered, done⟩ := bind_eq_ok_iff.mp done
      obtain ⟨others, later, -⟩ := bind_eq_ok_iff.mp done
      exact List.forall_mem_cons.mpr ⟨⟨first, answered⟩, ih later⟩

/-- A walk has answers if every step has one. -/
theorem exists_mapM_eq {f : α → Except ε β} {items : List α} (h : ∀ a ∈ items, ∃ b, f a = .ok b) :
    ∃ answers, items.mapM f = .ok answers := by
  induction items with
  | nil => exact ⟨[], rfl⟩
  | cons a rest ih =>
      obtain ⟨⟨b, first⟩, others⟩ := List.forall_mem_cons.mp h
      obtain ⟨answers, later⟩ := ih others
      exact ⟨b :: answers, by rw [List.mapM_cons, first, ok_bind, later, ok_bind]; rfl⟩

/-- A walk that answers nothing had nothing to go through. -/
theorem eq_nil_of_mapM_ok {f : α → Except ε β} {items : List α} (done : items.mapM f = .ok []) :
    items = [] := by
  cases items with
  | nil => rfl
  | cons a rest =>
      rw [List.mapM_cons] at done
      obtain ⟨_, -, done⟩ := bind_eq_ok_iff.mp done
      obtain ⟨_, -, done⟩ := bind_eq_ok_iff.mp done
      cases done

section Walk

variable {check : α → Except ε Bool} {items : List α}

/-- Check members in turn, up to the first that does not hold. -/
def allOf (check : α → Except ε Bool) : List α → Except ε Bool
  | [] => .ok true
  | x :: rest => do
    if ← check x then allOf check rest else pure false

/-- Check members in turn, up to the first that holds. -/
def anyOf (check : α → Except ε Bool) : List α → Except ε Bool
  | [] => .ok false
  | x :: rest => do
    if ← check x then pure true else anyOf check rest

theorem allOf_eq_true_iff : allOf check items = .ok true ↔ ∀ x ∈ items, check x = .ok true := by
  induction items with
  | nil => simp [allOf]
  | cons x rest ih =>
      rw [List.forall_mem_cons, ← ih, allOf]
      cases check x with
      | error e => simp
      | ok b => cases b <;> simp

/-- Checks that do not all hold end at one that does not. -/
theorem exists_of_allOf_eq_false (fails : allOf check items = .ok false) :
    ∃ x ∈ items, check x = .ok false := by
  induction items with
  | nil => cases fails
  | cons x rest ih =>
      rw [allOf] at fails
      obtain ⟨b, answer, fails⟩ := bind_eq_ok_iff.mp fails
      cases b with
      | false => exact ⟨x, List.mem_cons_self, answer⟩
      | true =>
          obtain ⟨y, member, fails⟩ := ih fails
          exact ⟨y, List.mem_cons_of_mem _ member, fails⟩

/-- Checks that have an answer although one of them has none end at one before it. -/
theorem exists_of_allOf_error {before after : List α} {x : α} {err : ε} {b : Bool}
    (fails : check x = .error err) (answer : allOf check (before ++ x :: after) = .ok b) :
    ∃ y ∈ before, check y = .ok false := by
  induction before with
  | nil =>
      rw [List.nil_append, allOf, fails] at answer
      cases answer
  | cons y rest ih =>
      rw [List.cons_append, allOf] at answer
      obtain ⟨holds, first, answer⟩ := bind_eq_ok_iff.mp answer
      cases holds with
      | false => exact ⟨y, List.mem_cons_self, first⟩
      | true =>
          obtain ⟨z, member, refuses⟩ := ih answer
          exact ⟨z, List.mem_cons_of_mem _ member, refuses⟩

theorem exists_allOf_eq (h : ∀ x ∈ items, ∃ b, check x = .ok b) :
    ∃ b, allOf check items = .ok b := by
  induction items with
  | nil => exact ⟨true, rfl⟩
  | cons x rest ih =>
      obtain ⟨b, hb⟩ := h x List.mem_cons_self
      obtain ⟨c, hc⟩ := ih fun y member => h y (List.mem_cons_of_mem _ member)
      cases b <;> simp [allOf, hb, hc]

theorem allOf_congr {other : α → Except ε Bool} (h : ∀ x ∈ items, check x = other x) :
    allOf check items = allOf other items := by
  induction items with
  | nil => rfl
  | cons x rest ih =>
      obtain ⟨first, others⟩ := List.forall_mem_cons.mp h
      rw [allOf, allOf, first, ih others]

theorem allOf_map (f : β → α) (xs : List β) :
    allOf check (xs.map f) = allOf (fun x => check (f x)) xs := by
  induction xs with
  | nil => rfl
  | cons x rest ih => simp only [List.map_cons, allOf, ih]

theorem anyOf_pair {a b : α} {p q : Bool} (ha : check a = .ok p) (hb : check b = .ok q) :
    anyOf check [a, b] = .ok (p || q) := by
  cases p <;> cases q <;> simp [anyOf, ha, hb]

end Walk

end RecordGraph
