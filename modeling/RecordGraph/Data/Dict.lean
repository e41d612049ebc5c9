/-!
# Dictionaries in key order

A dictionary is the list of its entries in increasing key order, so that walking
one, printing one and comparing two all follow the keys. Text is ordered by code
points. `insert` replaces the entry of an equal key and otherwise puts the new
entry in its place; what a key reads back after an insertion does not depend on
the order of the entries already there.
-/

namespace RecordGraph

/-- A finite map from text keys, as its entries in increasing key order. -/
abbrev Dict (β : Type) := List (String × β)

namespace Dict

variable {β γ : Type}

/-- The value under a key. -/
def get? : Dict β → String → Option β
  | [], _ => none
  | (k, v) :: rest, key => if k = key then some v else get? rest key

/-- Store a value under a key, in place of the one it had. -/
def insert : Dict β → String → β → Dict β
  | [], key, value => [(key, value)]
  | (k, v) :: rest, key, value =>
    if key < k then (key, value) :: (k, v) :: rest
    else if k = key then (key, value) :: rest
    else (k, v) :: insert rest key value

/-- Forget a key. -/
def erase (d : Dict β) (key : String) : Dict β :=
  d.filter fun entry => entry.1 ≠ key

/-- Whether a key has a value. -/
def contains (d : Dict β) (key : String) : Bool :=
  (d.get? key).isSome

/-- The keys in increasing order. -/
def keys (d : Dict β) : List String :=
  List.map Prod.fst d

/-- Insert every entry of a list in turn: of equal keys the last one stays. -/
def extend (d : Dict β) (entries : List (String × β)) : Dict β :=
  entries.foldl (fun acc entry => acc.insert entry.1 entry.2) d

/-- The dictionary of a list of entries, of equal keys the last one. -/
def ofList (entries : List (String × β)) : Dict β :=
  extend [] entries

/-- Change every value and no key. -/
def mapValues (f : β → γ) (d : Dict β) : Dict γ :=
  List.map (fun entry => (entry.1, f entry.2)) d

/-- The keys increase strictly. -/
def Ascending (d : Dict β) : Prop :=
  List.Pairwise (fun a b => a.1 < b.1) d

@[simp] theorem get?_nil (key : String) : get? ([] : Dict β) key = none := rfl

@[simp] theorem get?_cons (k key : String) (v : β) (rest : Dict β) :
    get? ((k, v) :: rest) key = if k = key then some v else get? rest key := rfl

@[simp] theorem get?_insert_self (d : Dict β) (key : String) (value : β) :
    (d.insert key value).get? key = some value := by
  induction d with
  | nil => simp [insert]
  | cons entry rest ih =>
    obtain ⟨k, v⟩ := entry
    by_cases less : key < k
    · simp [insert, less]
    · by_cases same : k = key <;> simp [insert, less, same, ih]

theorem get?_insert_of_ne (d : Dict β) {key other : String} (value : β) (h : other ≠ key) :
    (d.insert key value).get? other = d.get? other := by
  induction d with
  | nil => simp [insert, h.symm]
  | cons entry rest ih =>
    obtain ⟨k, v⟩ := entry
    by_cases less : key < k
    · simp [insert, less, h.symm]
    · by_cases same : k = key
      · subst same
        simp only [insert, less, if_false, if_true, get?_cons, h.symm]
      · simp [insert, less, same, ih]

theorem get?_insert (d : Dict β) (key other : String) (value : β) :
    (d.insert key value).get? other = if other = key then some value else d.get? other := by
  by_cases h : other = key
  · simp [h]
  · simp [h, get?_insert_of_ne d value h]

theorem get?_erase (d : Dict β) (key other : String) :
    (d.erase key).get? other = if other = key then none else d.get? other := by
  induction d with
  | nil => simp [erase]
  | cons entry rest ih =>
    obtain ⟨k, v⟩ := entry
    by_cases same : k = key
    · subst same
      by_cases h : other = k
      · simpa [erase, h] using ih
      · simpa [erase, h, Ne.symm h] using ih
    · by_cases h : other = key
      · subst h
        simpa [erase, same] using ih
      · simp only [erase, List.filter_cons, same, ne_eq, not_false_eq_true, decide_true,
          if_true, get?_cons]
        simp only [erase, ne_eq] at ih
        rw [ih]
        simp [h]

@[simp] theorem extend_nil (d : Dict β) : d.extend [] = d := rfl

@[simp] theorem extend_cons (d : Dict β) (entry : String × β) (entries : List (String × β)) :
    d.extend (entry :: entries) = (d.insert entry.1 entry.2).extend entries := rfl

theorem get?_mapValues (f : β → γ) (d : Dict β) (key : String) :
    (d.mapValues f).get? key = (d.get? key).map f := by
  induction d with
  | nil => rfl
  | cons entry rest ih =>
    obtain ⟨k, v⟩ := entry
    by_cases h : k = key
    · simp [mapValues, h]
    · simpa [mapValues, h] using ih

/-- Inserting adds one key and keeps all others. -/
theorem mem_keys_insert {d : Dict β} {key k : String} {value : β} :
    k ∈ (d.insert key value).keys ↔ k = key ∨ k ∈ d.keys := by
  induction d with
  | nil => simp [insert, keys]
  | cons entry rest ih =>
    obtain ⟨l, v⟩ := entry
    simp only [keys] at ih ⊢
    by_cases less : key < l
    · simp [insert, less]
    · by_cases same : l = key
      · simp [insert, same]
      · simp only [insert, less, same, if_false, List.map_cons, List.mem_cons, ih]
        constructor <;> rintro (h | h | h) <;> simp [h]

theorem ascending_insert {d : Dict β} (key : String) (value : β) (h : d.Ascending) :
    (d.insert key value).Ascending := by
  induction d with
  | nil => simp [insert, Ascending]
  | cons entry rest ih =>
    obtain ⟨l, v⟩ := entry
    obtain ⟨first, others⟩ := List.pairwise_cons.1 h
    by_cases less : key < l
    · simp only [insert, less, if_true]
      refine List.pairwise_cons.2 ⟨fun entry mem => ?_, h⟩
      rcases List.mem_cons.1 mem with rfl | mem
      · exact less
      · exact String.lt_trans less (first entry mem)
    · by_cases same : l = key
      · subst same
        simp only [insert, less, if_false, if_true]
        exact List.pairwise_cons.2 ⟨first, others⟩
      · simp only [insert, less, same, if_false]
        refine List.pairwise_cons.2 ⟨fun entry mem => ?_, ih others⟩
        have mem : entry.1 ∈ (Dict.insert rest key value).keys := List.mem_map_of_mem mem
        rcases mem_keys_insert.1 mem with h | h
        · rw [h]
          exact (Std.lt_trichotomy l key).resolve_right (by simp [same, less])
        · obtain ⟨other, mem, h⟩ := List.mem_map.1 h
          exact h ▸ first other mem

theorem ascending_extend {d : Dict β} (entries : List (String × β)) (h : d.Ascending) :
    (d.extend entries).Ascending := by
  induction entries generalizing d with
  | nil => exact h
  | cons entry rest ih => exact ih (ascending_insert entry.1 entry.2 h)

/-- A dictionary built from any list of entries is in key order. -/
theorem ascending_ofList (entries : List (String × β)) : (ofList entries).Ascending :=
  ascending_extend entries List.Pairwise.nil

theorem ascending_erase {d : Dict β} (key : String) (h : d.Ascending) : (d.erase key).Ascending :=
  h.filter _

theorem ascending_mapValues {d : Dict β} (f : β → γ) (h : d.Ascending) :
    (d.mapValues f).Ascending :=
  List.pairwise_map.2 h

end Dict

end RecordGraph
