import RecordGraph.Text.Dotted

/-!
# Splitting and joining dotted paths

Joining the segments of a path gives the path back. Splitting what was joined gives the
segments back if none of them has a dot; a last one that has some comes back as segments of
its own.
-/

namespace RecordGraph.Text

theorem splitDots_append_dot {cs : List Char} (free : '.' ∉ cs) (rest : List Char) :
    splitDots (cs ++ '.' :: rest) = cs :: splitDots rest := by
  induction cs with
  | nil => rfl
  | cons c cs ih =>
      obtain ⟨here, later⟩ := not_or.mp (mt List.mem_cons.mpr free)
      rw [List.cons_append, splitDots, ih later]
      exact Ne.symm here

theorem intercalate_splitDots (cs : List Char) : ['.'].intercalate (splitDots cs) = cs := by
  fun_induction splitDots cs with
  | case1 => rfl
  | case2 rest ih =>
      rw [List.intercalate_cons_of_ne_nil (splitDots_ne_nil rest), ih]
      rfl
  | case3 c rest ordinary segment segments split ih =>
      rw [split] at ih
      rw [← ih]
      cases segments <;> simp
  | case4 c rest ordinary none => exact absurd none (splitDots_ne_nil rest)

variable {s key name : String} {path others : List String}

theorem segments_ne_nil (s : String) : segments s ≠ [] := by
  simp [segments, splitDots_ne_nil]

theorem dotted_cons (h : path ≠ []) : dotted (key :: path) = key ++ "." ++ dotted path :=
  String.intercalate_cons_of_ne_nil h

@[simp] theorem dotted_singleton (s : String) : dotted [s] = s :=
  String.intercalate_singleton

/-- A path whose last segment is a path again is joined in one step or in two. -/
theorem dotted_append_dotted (h : others ≠ []) :
    dotted (path ++ [dotted others]) = dotted (path ++ others) := by
  induction path with
  | nil => simp
  | cons key rest ih =>
      rw [List.cons_append, List.cons_append, dotted_cons (by simp), dotted_cons (by simp [h]), ih]

/-- A path is what its segments join to. -/
theorem dotted_segments (s : String) : dotted (segments s) = s := by
  have split : (segments s).map String.toList = splitDots s.toList := by
    simp [segments]
  apply String.toList_injective
  rw [dotted, String.toList_intercalate, split]
  exact intercalate_splitDots s.toList

theorem segments_append_dot (free : hasDot key = false) (s : String) :
    segments (key ++ "." ++ s) = key :: segments s := by
  have plain : '.' ∉ key.toList := by simpa [hasDot] using free
  have joined : (key ++ "." ++ s).toList = key.toList ++ '.' :: s.toList := by simp
  rw [segments, joined, splitDots_append_dot plain]
  simp [segments]

/-- Segments without dots come back from the path that they join to, the last one split. -/
theorem segments_dotted (free : ∀ key ∈ path, hasDot key = false) (name : String) :
    segments (dotted (path ++ [name])) = path ++ segments name := by
  induction path with
  | nil => simp
  | cons key rest ih =>
      obtain ⟨here, later⟩ := List.forall_mem_cons.mp free
      rw [List.cons_append, dotted_cons (by simp), segments_append_dot here, ih later,
        List.cons_append]

theorem segments_of_dotless (free : hasDot s = false) : segments s = [s] := by
  have split : ∀ cs : List Char, '.' ∉ cs → splitDots cs = [cs] := by
    intro cs free
    induction cs with
    | nil => rfl
    | cons c cs ih =>
        obtain ⟨here, later⟩ := not_or.mp (mt List.mem_cons.mpr free)
        rw [splitDots, ih later]
        exact Ne.symm here
  have plain : '.' ∉ s.toList := by simpa [hasDot] using free
  simp [segments, split s.toList plain]

theorem hasDot_dotted (h : path ≠ []) (name : String) :
    hasDot (dotted (path ++ [name])) = true := by
  cases path with
  | nil => exact absurd rfl h
  | cons key rest =>
      rw [List.cons_append, dotted_cons (by simp)]
      simp [hasDot]

theorem betweenDollars?_dollars (s : String) : betweenDollars? ("$" ++ s ++ "$") = some s := by
  have enclosed : ("$" ++ s ++ "$").toList = '$' :: (s.toList ++ ['$']) := by simp
  simp [betweenDollars?, enclosed]

end RecordGraph.Text
