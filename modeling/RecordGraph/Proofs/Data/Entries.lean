import Mathlib.Logic.Basic
import RecordGraph.Data.Dict

/-!
# Entries of dictionaries

Where the keys increase, the entries of a dictionary are exactly its look-ups, so a
statement about all entries can be followed through insertions key by key.
-/

namespace RecordGraph.Dict

variable {β γ : Type} {d : Dict β} {key : String}

instance (d : Dict β) : Decidable d.Ascending :=
  inferInstanceAs (Decidable (List.Pairwise _ d))

theorem ascending_nil : Ascending ([] : Dict β) := List.Pairwise.nil

theorem ascending_single (key : String) (v : β) : Ascending [(key, v)] :=
  List.pairwise_singleton _ _

theorem Ascending.tail {entry : String × β} {rest : Dict β} (h : Ascending (entry :: rest)) :
    Ascending rest :=
  (List.pairwise_cons.mp h).2

theorem mem_of_get? {v : β} (h : d.get? key = some v) : (key, v) ∈ d := by
  induction d with
  | nil => simp at h
  | cons entry rest ih =>
      obtain ⟨k, w⟩ := entry
      by_cases same : k = key
      · simp only [get?_cons, same, if_true, Option.some.injEq] at h
        simp [same, h]
      · simp only [get?_cons, same, if_false] at h
        exact List.mem_cons_of_mem _ (ih h)

theorem get?_eq_some_iff_mem (h : d.Ascending) {v : β} :
    d.get? key = some v ↔ (key, v) ∈ d := by
  refine ⟨mem_of_get?, fun member => ?_⟩
  induction d with
  | nil => simp at member
  | cons entry rest ih =>
      obtain ⟨k, w⟩ := entry
      rcases List.mem_cons.mp member with same | later
      · cases same
        simp
      · have less : k < key := (List.pairwise_cons.mp h).1 _ later
        have ne : k ≠ key := fun same => String.lt_irrefl key (same ▸ less)
        simpa [ne] using ih h.tail later

/-- Of the entries after an insertion one is the inserted one. -/
theorem mem_of_mem_insert {v : β} {entry : String × β} (member : entry ∈ d.insert key v) :
    entry = (key, v) ∨ entry ∈ d := by
  induction d with
  | nil => exact .inl (List.mem_singleton.mp member)
  | cons first rest ih =>
      obtain ⟨k, w⟩ := first
      rw [insert] at member
      split at member
      · exact List.mem_cons.mp member
      · split at member
        · exact (List.mem_cons.mp member).imp_right (List.mem_cons_of_mem _)
        · rcases List.mem_cons.mp member with rfl | later
          · exact .inr List.mem_cons_self
          · exact (ih later).imp_right (List.mem_cons_of_mem _)

/-- What holds of all entries and of an inserted one holds of all entries afterwards. -/
theorem forall_mem_insert {P : String × β → Prop} {v : β} (old : ∀ entry ∈ d, P entry)
    (new : P (key, v)) : ∀ entry ∈ d.insert key v, P entry := by
  intro entry member
  rcases mem_of_mem_insert member with rfl | earlier
  · exact new
  · exact old entry earlier

/-- Every look-up that answers a value answers one with a property. -/
def All (P : String → β → Prop) (d : Dict β) : Prop :=
  ∀ key v, d.get? key = some v → P key v

/-- What holds of all entries holds of all look-ups, and conversely. -/
theorem forall_mem_iff_all (h : d.Ascending) {P : String → β → Prop} :
    (∀ entry ∈ d, P entry.1 entry.2) ↔ d.All P := by
  constructor
  · intro all key v found
    exact all (key, v) (mem_of_get? found)
  · intro all entry member
    exact all entry.1 entry.2 ((get?_eq_some_iff_mem h).mpr member)

section All

variable {P : String → β → Prop}

theorem all_nil : All P ([] : Dict β) := by
  intro key v found
  simp at found

theorem all_single {v : β} : All P [(key, v)] ↔ P key v := by
  simp [All, Option.ite_none_right_eq_some]

theorem All.mono {Q : String → β → Prop} (h : d.All P) (imp : ∀ key v, P key v → Q key v) :
    d.All Q :=
  fun key v found => imp key v (h key v found)

/-- Storing a value leaves its own property to show and those of the other keys. -/
theorem all_insert {v : β} : (d.insert key v).All P ↔ P key v ∧ (d.erase key).All P := by
  simp only [All, get?_insert, get?_erase]
  grind

theorem All.insert {v : β} (h : d.All P) (holds : P key v) : (d.insert key v).All P := by
  refine all_insert.mpr ⟨holds, fun k w found => ?_⟩
  rw [get?_erase, Option.ite_none_left_eq_some] at found
  exact h k w found.2

theorem all_of_get?_some {v : β} (h : d.get? key = some v) :
    d.All P ↔ P key v ∧ (d.erase key).All P := by
  simp only [All, get?_erase]
  grind

theorem all_of_get?_none (h : d.get? key = none) : (d.erase key).All P ↔ d.All P := by
  simp only [All, get?_erase]
  grind

end All

/-- Some look-up answers a value with a property. -/
def Any (P : String → β → Prop) (d : Dict β) : Prop :=
  ∃ key v, d.get? key = some v ∧ P key v

section Any

variable {P : String → β → Prop}

theorem not_any_iff : ¬ d.Any P ↔ d.All fun key v => ¬ P key v := by
  simp [Any, All]

theorem any_iff_exists_mem (h : d.Ascending) : d.Any P ↔ ∃ entry ∈ d, P entry.1 entry.2 := by
  rw [← not_iff_not, not_any_iff, ← forall_mem_iff_all h]
  simp only [not_exists, not_and]

theorem any_nil : ¬ Any P ([] : Dict β) :=
  not_any_iff.mpr all_nil

theorem any_single {v : β} : Any P [(key, v)] ↔ P key v := by
  rw [← not_iff_not, not_any_iff, all_single]

theorem any_insert {v : β} : (d.insert key v).Any P ↔ P key v ∨ (d.erase key).Any P := by
  rw [← not_iff_not, not_any_iff, all_insert, not_or, not_any_iff]

theorem any_of_get?_some {v : β} (h : d.get? key = some v) :
    d.Any P ↔ P key v ∨ (d.erase key).Any P := by
  rw [← not_iff_not, not_any_iff, all_of_get?_some h, not_or, not_any_iff]

theorem any_of_get?_none (h : d.get? key = none) : (d.erase key).Any P ↔ d.Any P := by
  rw [← not_iff_not, not_any_iff, all_of_get?_none h, not_any_iff]

end Any

theorem mem_keys_iff : key ∈ d.keys ↔ (d.get? key).isSome := by
  induction d with
  | nil => simp [keys]
  | cons entry rest ih =>
      obtain ⟨k, v⟩ := entry
      by_cases same : k = key
      · simp [keys, same]
      · simpa [keys, same, Ne.symm same] using ih

theorem mem_keys_extend {entries : Dict β} :
    key ∈ (d.extend entries).keys ↔ key ∈ entries.keys ∨ key ∈ d.keys := by
  induction entries generalizing d with
  | nil => simp [keys]
  | cons entry rest ih =>
      rw [extend_cons, ih, mem_keys_insert]
      simp only [keys, List.map_cons, List.mem_cons]
      grind

/-- Of the entries after several insertions each was there or was inserted. -/
theorem mem_of_mem_extend {entries : List (String × β)} {entry : String × β}
    (member : entry ∈ d.extend entries) : entry ∈ d ∨ entry ∈ entries := by
  induction entries generalizing d with
  | nil => exact .inl member
  | cons first rest ih =>
      rcases ih member with earlier | later
      · rcases mem_of_mem_insert earlier with rfl | old
        · exact .inr List.mem_cons_self
        · exact .inl old
      · exact .inr (List.mem_cons_of_mem _ later)

/-- A key under which one value only is inserted has that value afterwards. -/
theorem get?_extend_of_unique {entries : List (String × β)} {v : β}
    (there : (key, v) ∈ entries ∨ d.get? key = some v)
    (unique : ∀ w, (key, w) ∈ entries → w = v) : (d.extend entries).get? key = some v := by
  induction entries generalizing d with
  | nil => simpa using there
  | cons entry rest ih =>
      obtain ⟨k, w⟩ := entry
      refine ih ?_ fun w later => unique w (List.mem_cons_of_mem _ later)
      by_cases same : k = key
      · subst same
        rw [get?_insert_self, unique w List.mem_cons_self]
        exact .inr rfl
      · rw [get?_insert_of_ne d w (Ne.symm same)]
        refine there.imp_left fun member => ?_
        rcases List.mem_cons.mp member with here | later
        · cases here
          exact absurd rfl same
        · exact later

/-- Where one value is inserted under several keys, each of them has it afterwards. -/
theorem get?_extend_const (keys : List String) (v : β) :
    (d.extend (keys.map fun k => (k, v))).get? key = if key ∈ keys then some v else d.get? key := by
  induction keys generalizing d with
  | nil => rfl
  | cons k rest ih =>
      rw [List.map_cons, extend_cons, ih, get?_insert]
      by_cases here : key = k
      · simp [here]
      · simp [here]

/-- Of the entries that are inserted, those in key order all stay. -/
theorem get?_extend {entries : Dict β} (h : entries.Ascending) :
    (d.extend entries).get? key = (entries.get? key).or (d.get? key) := by
  induction entries generalizing d with
  | nil => simp
  | cons entry rest ih =>
      obtain ⟨k, v⟩ := entry
      rw [extend_cons, ih h.tail, get?_insert, get?_cons]
      by_cases same : k = key
      · have absent : Dict.get? rest key = none := by
          refine Option.eq_none_iff_forall_ne_some.mpr fun w found => ?_
          have less : k < key := (List.pairwise_cons.mp h).1 _ (mem_of_get? found)
          exact String.lt_irrefl key (same ▸ less)
        simp [same, absent]
      · simp [same, Ne.symm same]

/-- What is under a key after some insertions: the last value inserted there, or else the one
that was there. -/
theorem get?_extend_or (entries : List (String × β)) :
    (d.extend entries).get? key = ((ofList entries).get? key).or (d.get? key) := by
  induction entries generalizing d with
  | nil => rfl
  | cons entry rest ih =>
      rw [ofList, extend_cons, extend_cons, ih, ih, get?_insert, get?_insert]
      by_cases same : key = entry.1
      · simp [same]
      · simp [same]

theorem get?_filter_keys (keep : String → Bool) :
    Dict.get? (List.filter (fun entry => keep entry.1) d) key =
      if keep key then d.get? key else none := by
  induction d with
  | nil => simp
  | cons entry rest ih =>
      obtain ⟨k, v⟩ := entry
      by_cases kept : keep k
      · by_cases same : k = key
        · simp [kept, ← same]
        · simp [kept, same, ih]
      · by_cases same : k = key
        · subst same
          simpa [kept] using ih
        · simp [kept, same, ih]

/-- Among the entries under other keys an insertion is not seen. -/
theorem filter_insert (keep : String → Bool) (v : β) (dropped : keep key = false) :
    List.filter (fun entry => keep entry.1) (d.insert key v) =
      List.filter (fun entry => keep entry.1) d := by
  induction d with
  | nil => simp [insert, dropped]
  | cons entry rest ih =>
      obtain ⟨k, w⟩ := entry
      rw [insert]
      split
      · rw [List.filter_cons_of_neg (by simp [dropped])]
      · split
        · rename_i same
          subst same
          rw [List.filter_cons_of_neg (by simp [dropped]),
            List.filter_cons_of_neg (by simp [dropped])]
        · rw [List.filter_cons, List.filter_cons, ih]

theorem ascending_filter (p : String × β → Bool) (h : d.Ascending) :
    Ascending (List.filter p d) :=
  h.filter p

/-- Dictionaries that a change of the values makes equal have like values. -/
theorem get?_of_mapValues_eq {f : β → γ} {others : Dict β} {v : β}
    (same : others.mapValues f = d.mapValues f) (entry : d.get? key = some v) :
    ∃ w, others.get? key = some w ∧ f w = f v := by
  have there := congrArg (Dict.get? · key) same
  simpa [get?_mapValues, entry] using there

@[simp] theorem contains_mapValues (f : β → γ) (d : Dict β) (key : String) :
    (d.mapValues f).contains key = d.contains key := by
  simp [contains, get?_mapValues]

end RecordGraph.Dict
