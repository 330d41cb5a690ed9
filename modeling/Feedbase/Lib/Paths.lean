import Mathlib.Data.List.Basic

/-!
# Paths

A path is a text whose parts stand between slashes. Resolving an absolute path leaves names only:
a part that is empty or a dot is passed over, and two dots lead one name up. So a text that is
appended to a directory may lead out of it, or not lead anywhere. A name never does.

## Main definitions

* `parts`, `Path.basename` — what stands between slashes, and behind the last one
* `Path.resolve`, `Path.join` — paths without parts to pass over
* `Path.IsName` — a part that leads one directory down

## Main results

* `Path.exists_names` — what is left of a path
* `Path.isPrefixOf_join_iff` — when a path is inside the directory it was made from
-/

namespace Path

variable {names above texts : List (List Char)} {s p : List Char}

/-- The texts between slashes. -/
def parts (p : List Char) : List (List Char) := p.splitOn '/'

/-- The last text between slashes, slashes at the end apart. -/
def basename (p : List Char) : List Char := ((parts p).filter (· ≠ [])).getLastD []

/-- The names, last one first, after some more parts. -/
def walk (above : List (List Char)) : List (List Char) → List (List Char)
  | [] => above
  | s :: rest =>
    if s = [] ∨ s = ['.'] then walk above rest
    else if s = ['.', '.'] then walk above.tail rest
    else walk (s :: above) rest

/-- An absolute path. -/
def ofNames (names : List (List Char)) : List Char := '/' :: ['/'].intercalate names

/-- An absolute path without parts to pass over. -/
def resolve (p : List Char) : List Char := ofNames (walk [] (parts p)).reverse

/-- A path that starts in a directory. -/
def join (dir p : List Char) : List Char := resolve (dir ++ '/' :: p)

/-- A part that leads one directory down. -/
structure IsName (s : List Char) : Prop where
  ne_nil : s ≠ []
  ne_dot : s ≠ ['.']
  ne_dots : s ≠ ['.', '.']
  not_mem : '/' ∉ s

instance (s : List Char) : Decidable (IsName s) :=
  decidable_of_iff (s ≠ [] ∧ s ≠ ['.'] ∧ s ≠ ['.', '.'] ∧ '/' ∉ s)
    ⟨fun h => ⟨h.1, h.2.1, h.2.2.1, h.2.2.2⟩, fun h => ⟨h.ne_nil, h.ne_dot, h.ne_dots, h.not_mem⟩⟩

/-! ### Parts -/

theorem parts_append (dir p : List Char) :
    parts (dir ++ '/' :: p) = parts dir ++ parts p :=
  List.splitOn_append_cons_self dir p

theorem parts_of_not_mem (h : '/' ∉ s) : parts s = [s] := List.splitOn_eq_singleton h

theorem not_mem_of_mem_parts (h : s ∈ parts p) : '/' ∉ s := by
  induction p generalizing s with
  | nil =>
    obtain rfl := List.mem_singleton.mp h
    exact List.not_mem_nil
  | cons c p ih =>
    rw [parts, List.splitOn_cons_eq_if_modifyHead] at h
    by_cases hc : c == '/'
    · rw [if_pos hc] at h
      rcases List.mem_cons.mp h with rfl | h
      · exact List.not_mem_nil
      · exact ih h
    · rw [if_neg hc] at h
      obtain ⟨first, rest, hparts⟩ := List.exists_cons_of_ne_nil (List.splitOn_ne_nil '/' p)
      have hfirst : first ∈ parts p := by
        rw [parts, hparts]
        exact List.mem_cons_self
      rw [hparts, List.modifyHead_cons] at h
      rcases List.mem_cons.mp h with rfl | h
      · intro hmem
        rcases List.mem_cons.mp hmem with hslash | hmem
        · exact hc (beq_iff_eq.mpr hslash.symm)
        · exact ih hfirst hmem
      · apply ih
        rw [parts, hparts]
        exact List.mem_cons_of_mem _ h

/-- What stands behind the last slash has no slash. -/
theorem not_mem_basename (p : List Char) : '/' ∉ basename p := by
  unfold basename
  cases hlast : ((parts p).filter (· ≠ [])).getLast? with
  | none =>
    rw [List.getLastD_eq_getLast?, hlast]
    exact List.not_mem_nil
  | some s =>
    rw [List.getLastD_eq_getLast?, hlast]
    exact not_mem_of_mem_parts (List.mem_filter.mp (List.mem_of_getLast? hlast)).1

/-- A name behind a directory. -/
theorem basename_append (dir : List Char) (h : IsName s) : basename (dir ++ '/' :: s) = s := by
  have hstays : [s].filter (· ≠ []) = [s] := by simp [h.ne_nil]
  rw [basename, parts_append, parts_of_not_mem h.not_mem, List.filter_append, hstays,
    List.getLastD_concat]

/-! ### Walks -/

theorem walk_append (texts texts' : List (List Char)) :
    walk above (texts ++ texts') = walk (walk above texts) texts' := by
  induction texts generalizing above with
  | nil => rfl
  | cons s texts ih =>
    rw [List.cons_append, walk, walk]
    by_cases hpass : s = [] ∨ s = ['.']
    · rw [if_pos hpass, if_pos hpass, ih]
    · rw [if_neg hpass, if_neg hpass]
      by_cases hdots : s = ['.', '.']
      · rw [if_pos hdots, if_pos hdots, ih]
      · rw [if_neg hdots, if_neg hdots, ih]

theorem walk_name (h : IsName s) : walk above [s] = s :: above := by
  rw [walk, if_neg (not_or.mpr ⟨h.ne_nil, h.ne_dot⟩), if_neg h.ne_dots, walk]

theorem walk_names (h : ∀ s ∈ names, IsName s) : walk above names = names.reverse ++ above := by
  induction names generalizing above with
  | nil => rfl
  | cons s names ih =>
    have hrest : ∀ t ∈ names, IsName t := fun t ht => h t (List.mem_cons_of_mem s ht)
    calc walk above (s :: names) = walk (walk above [s]) names := walk_append [s] names
      _ = walk (s :: above) names := by rw [walk_name (h s List.mem_cons_self)]
      _ = names.reverse ++ s :: above := ih hrest
      _ = (s :: names).reverse ++ above := by rw [List.reverse_cons, List.append_assoc]; rfl

/-- Only names are left of parts without slashes. -/
theorem isName_of_mem_walk (hparts : ∀ s ∈ texts, '/' ∉ s) (habove : ∀ s ∈ above, IsName s) :
    ∀ s ∈ walk above texts, IsName s := by
  induction texts generalizing above with
  | nil => exact habove
  | cons s texts ih =>
    have hrest : ∀ t ∈ texts, '/' ∉ t := fun t ht => hparts t (List.mem_cons_of_mem s ht)
    rw [walk]
    by_cases hpass : s = [] ∨ s = ['.']
    · rw [if_pos hpass]
      exact ih hrest habove
    · rw [if_neg hpass]
      by_cases hdots : s = ['.', '.']
      · rw [if_pos hdots]
        exact ih hrest fun t ht => habove t (List.mem_of_mem_tail ht)
      · rw [if_neg hdots]
        refine ih hrest fun t ht => ?_
        rcases List.mem_cons.mp ht with rfl | ht
        · exact ⟨fun h => hpass (.inl h), fun h => hpass (.inr h), hdots, hparts t List.mem_cons_self⟩
        · exact habove t ht

/-- What is left of a path. -/
theorem exists_names (p : List Char) :
    ∃ names, (∀ s ∈ names, IsName s) ∧ resolve p = ofNames names := by
  refine ⟨(walk [] (parts p)).reverse, fun s hs => ?_, rfl⟩
  exact isName_of_mem_walk (fun t ht => not_mem_of_mem_parts ht) (fun t ht => absurd ht List.not_mem_nil)
    s (List.mem_reverse.mp hs)

/-! ### Absolute paths -/

theorem walk_ofNames (h : ∀ s ∈ names, IsName s) :
    walk [] (parts (ofNames names)) = names.reverse := by
  have hsplit : parts (ofNames names) = [[]] ++ parts (['/'].intercalate names) :=
    parts_append [] _
  have hslash : parts (['/'].intercalate names) = if names = [] then [[]] else names := by
    split
    · subst names
      rfl
    · exact List.splitOn_intercalate '/' (fun s hs => (h s hs).not_mem) ‹_›
  rw [hsplit, hslash, walk_append]
  split
  · subst names
    rfl
  · rw [walk_names h]
    exact List.append_nil _

/-- A part behind a directory. -/
theorem join_ofNames (h : ∀ s ∈ names, IsName s) (hs : '/' ∉ s) :
    join (ofNames names) s = ofNames (walk names.reverse [s]).reverse := by
  rw [join, resolve, parts_append, walk_append, walk_ofNames h, parts_of_not_mem hs]

theorem ofNames_concat (h : names ≠ []) (s : List Char) :
    ofNames (names ++ [s]) = ofNames names ++ '/' :: s := by
  have hconcat : ['/'].intercalate (names ++ [s]) = ['/'].intercalate names ++ '/' :: s := by
    induction names with
    | nil => exact absurd rfl h
    | cons t names ih =>
      cases names with
      | nil => simp
      | cons u names =>
        rw [List.cons_append, List.cons_append, List.intercalate_cons_cons,
          List.intercalate_cons_cons, ← List.cons_append, ih (List.cons_ne_nil u names)]
        simp
  rw [ofNames, ofNames, hconcat, List.cons_append]

theorem length_ofNames_le (names : List (List Char)) (s : List Char) :
    (ofNames names).length ≤ (ofNames (names ++ [s])).length := by
  by_cases h : names = []
  · subst names
    simp [ofNames]
  · rw [ofNames_concat h, List.length_append]
    omega

/-- A name leads to what is directly in the directory. -/
theorem join_name (h : ∀ s ∈ names, IsName s) (hne : names ≠ []) (hs : IsName s) :
    join (ofNames names) s = ofNames names ++ '/' :: s := by
  rw [join_ofNames h hs.not_mem, walk_name hs, List.reverse_cons, List.reverse_reverse,
    ofNames_concat hne]

/-- Other parts lead to the directory, or out of it. -/
theorem length_join_le (h : ∀ s ∈ names, IsName s) (hslash : '/' ∉ s) (hs : ¬ IsName s) :
    (join (ofNames names) s).length ≤ (ofNames names).length := by
  rw [join_ofNames h hslash, walk]
  by_cases hpass : s = [] ∨ s = ['.']
  · apply Nat.le_of_eq
    rw [if_pos hpass, walk, List.reverse_reverse]
  · rw [if_neg hpass]
    by_cases hdots : s = ['.', '.']
    · rw [if_pos hdots, walk]
      rcases List.eq_nil_or_concat names with rfl | ⟨front, last, rfl⟩
      · exact Nat.le_refl _
      · rw [List.concat_eq_append, List.reverse_concat, List.tail_cons, List.reverse_reverse]
        exact length_ofNames_le front last
    · exact absurd ⟨fun h => hpass (.inl h), fun h => hpass (.inr h), hdots, hslash⟩ hs

/-- A path is inside the directory it was made from if and only if it was made with a name. -/
theorem isPrefixOf_join_iff (h : ∀ s ∈ names, IsName s) (hne : names ≠ []) (hslash : '/' ∉ s) :
    (ofNames names ++ ['/']).isPrefixOf (join (ofNames names) s) = true ↔ IsName s := by
  rw [List.isPrefixOf_iff_prefix]
  constructor
  · intro hinside
    by_contra hs
    have hshort := length_join_le h hslash hs
    have hlong := hinside.length_le
    rw [List.length_append, List.length_singleton] at hlong
    omega
  · intro hs
    rw [join_name h hne hs]
    exact ⟨s, by rw [List.append_assoc]; rfl⟩

end Path
