import Feedbase.Lib.CodeUnits
import Mathlib.Data.List.TakeWhile

/-!
# The words of a text

A text is words with white space between them. White space at its ends, and more of it where
there is some, adds no word.

## Main definitions

* `Text.words` — the words of a text
* `Text.unwords` — words with single spaces between them

## Main results

* `Text.words_append` — no word crosses white space
* `Text.words_trim` — trimming keeps the words
* `Text.unwords_append_eq` — the words of two texts
-/

namespace Text

variable {s t w x : Text} {u : UInt16}

/-- The words of a text, when the word `w` has been read before it. -/
def wordsFrom (w : Text) : Text → List Text
  | [] => if w = [] then [] else [w]
  | u :: t =>
    if isSpace u then (if w = [] then [] else [w]) ++ wordsFrom [] t else wordsFrom (w ++ [u]) t

/-- The words of a text, between white space. -/
def words (t : Text) : List Text := wordsFrom [] t

/-- Words with single spaces between them. -/
def unwords (ws : List Text) : Text := List.intercalate [32] ws

theorem wordsFrom_append (hu : isSpace u = true) (w s t : Text) :
    wordsFrom w (s ++ u :: t) = wordsFrom w s ++ words t := by
  induction s generalizing w with
  | nil =>
    rw [List.nil_append, wordsFrom, wordsFrom, if_pos hu]
    rfl
  | cons v s ih =>
    rw [List.cons_append, wordsFrom, wordsFrom]
    by_cases hv : isSpace v = true
    · rw [if_pos hv, if_pos hv, ih, List.append_assoc]
    · rw [if_neg hv, if_neg hv, ih]

/-- No word crosses white space. -/
theorem words_append (hu : isSpace u = true) (s t : Text) :
    words (s ++ u :: t) = words s ++ words t := wordsFrom_append hu [] s t

theorem words_of_spaces (ht : ∀ u ∈ t, isSpace u = true) : words t = [] := by
  induction t with
  | nil => rfl
  | cons u t ih =>
    have hrest := ih fun v hv => ht v (List.mem_cons_of_mem _ hv)
    have happend := words_append (ht u List.mem_cons_self) [] t
    rw [List.nil_append, hrest] at happend
    exact happend

theorem words_append_spaces (ht : ∀ u ∈ t, isSpace u = true) (s : Text) :
    words (s ++ t) = words s := by
  cases t with
  | nil => rw [List.append_nil]
  | cons u t =>
    have hrest := words_of_spaces fun v hv => ht v (List.mem_cons_of_mem _ hv)
    rw [words_append (ht u List.mem_cons_self), hrest, List.append_nil]

theorem words_dropWhile (t : Text) : words (t.dropWhile isSpace) = words t := by
  induction t with
  | nil => rfl
  | cons u t ih =>
    by_cases hu : isSpace u = true
    · have happend := words_append hu [] t
      rw [List.nil_append] at happend
      rw [List.dropWhile_cons_of_pos hu, ih, happend]
      rfl
    · rw [List.dropWhile_cons_of_neg hu]

/-- What trimming takes off at the end is white space. -/
theorem trim_append_spaces (t : Text) :
    ∃ ends, (∀ u ∈ ends, isSpace u = true) ∧ t.dropWhile isSpace = trim t ++ ends := by
  refine ⟨((t.dropWhile isSpace).reverse.takeWhile isSpace).reverse, ?_, ?_⟩
  · intro u hu
    exact List.mem_takeWhile_imp (List.mem_reverse.mp hu)
  · rw [trim, ← List.reverse_append, List.takeWhile_append_dropWhile, List.reverse_reverse]

theorem words_trim (t : Text) : words (trim t) = words t := by
  obtain ⟨ends, hends, heq⟩ := trim_append_spaces t
  rw [← words_dropWhile t, heq, words_append_spaces hends]

/-- A word is not empty, and holds no white space. -/
theorem mem_wordsFrom (hw : ∀ u ∈ w, isSpace u = false) (hx : x ∈ wordsFrom w t) :
    x ≠ [] ∧ ∀ u ∈ x, isSpace u = false ∧ (u ∈ w ∨ u ∈ t) := by
  induction t generalizing w with
  | nil =>
    rw [wordsFrom] at hx
    split at hx
    · cases hx
    · obtain rfl := List.mem_singleton.mp hx
      exact ⟨‹_›, fun u hu => ⟨hw u hu, .inl hu⟩⟩
  | cons v t ih =>
    rw [wordsFrom] at hx
    by_cases hv : isSpace v = true
    · rw [if_pos hv, List.mem_append] at hx
      rcases hx with hx | hx
      · split at hx
        · cases hx
        · obtain rfl := List.mem_singleton.mp hx
          exact ⟨‹_›, fun u hu => ⟨hw u hu, .inl hu⟩⟩
      · obtain ⟨hne, hunits⟩ := ih (fun _ hu => absurd hu List.not_mem_nil) hx
        refine ⟨hne, fun u hu => ⟨(hunits u hu).1, .inr ?_⟩⟩
        exact List.mem_cons_of_mem _ ((hunits u hu).2.resolve_left List.not_mem_nil)
    · rw [if_neg hv] at hx
      have hlonger : ∀ u ∈ w ++ [v], isSpace u = false := by
        intro u hu
        rcases List.mem_append.mp hu with hu | hu
        · exact hw u hu
        · rw [List.mem_singleton.mp hu]
          exact eq_false_of_ne_true hv
      obtain ⟨hne, hunits⟩ := ih hlonger hx
      refine ⟨hne, fun u hu => ⟨(hunits u hu).1, ?_⟩⟩
      rcases (hunits u hu).2 with hu | hu
      · rcases List.mem_append.mp hu with hu | hu
        · exact .inl hu
        · exact .inr (List.mem_singleton.mp hu ▸ List.mem_cons_self)
      · exact .inr (List.mem_cons_of_mem _ hu)

theorem mem_words (hx : x ∈ words t) : x ≠ [] ∧ ∀ u ∈ x, isSpace u = false ∧ u ∈ t := by
  obtain ⟨hne, hunits⟩ := mem_wordsFrom (fun _ hu => absurd hu List.not_mem_nil) hx
  exact ⟨hne, fun u hu => ⟨(hunits u hu).1, (hunits u hu).2.resolve_left List.not_mem_nil⟩⟩

theorem unwords_append {ws vs : List Text} (hws : ws ≠ []) (hvs : vs ≠ []) :
    unwords (ws ++ vs) = unwords ws ++ 32 :: unwords vs := by
  unfold unwords
  induction ws with
  | nil => exact absurd rfl hws
  | cons w ws ih =>
    cases ws with
    | nil =>
      rw [List.singleton_append, List.intercalate_cons_of_ne_nil hvs, List.intercalate_singleton,
        List.append_assoc, List.singleton_append]
    | cons v ws =>
      have hne : v :: ws ≠ [] := List.cons_ne_nil v ws
      rw [List.cons_append, List.intercalate_cons_of_ne_nil (by simp), ih hne,
        List.intercalate_cons_of_ne_nil hne, List.append_assoc, List.append_assoc,
        List.append_assoc]

theorem unwords_eq_nil_iff {ws : List Text} (hws : ∀ w ∈ ws, w ≠ []) :
    unwords ws = [] ↔ ws = [] := by
  constructor
  · intro h
    cases ws with
    | nil => rfl
    | cons w ws =>
      obtain ⟨u, w, rfl⟩ := List.exists_cons_of_ne_nil (hws w List.mem_cons_self)
      rw [unwords, List.intercalate_cons_cons_left] at h
      cases h
  · intro h
    rw [h]
    rfl

/-- The words of two texts, with a single space between the two unless one has no words. -/
theorem unwords_append_eq {ws vs : List Text} (hws : ∀ w ∈ ws, w ≠ []) (hvs : ∀ v ∈ vs, v ≠ []) :
    unwords (ws ++ vs) = unwords ([unwords ws, unwords vs].filter (· ≠ [])) := by
  have hnil : unwords [] = [] := rfl
  by_cases hw : ws = []
  · rw [hw, List.nil_append, hnil, List.filter_cons_of_neg (by simp)]
    by_cases hv : vs = []
    · rw [hv]
      rfl
    · have hne := mt (unwords_eq_nil_iff hvs).mp hv
      rw [List.filter_cons_of_pos (by simp [hne])]
      exact List.intercalate_singleton.symm
  · have hne := mt (unwords_eq_nil_iff hws).mp hw
    rw [List.filter_cons_of_pos (by simp [hne])]
    by_cases hv : vs = []
    · rw [hv, List.append_nil, hnil, List.filter_cons_of_neg (by simp)]
      exact List.intercalate_singleton.symm
    · have hne' := mt (unwords_eq_nil_iff hvs).mp hv
      have hpair : unwords [unwords ws, unwords vs] = unwords ws ++ 32 :: unwords vs := by
        rw [unwords, List.intercalate_cons_cons, List.intercalate_singleton, List.append_assoc,
          List.singleton_append]
      rw [unwords_append hw hv, List.filter_cons_of_pos (by simp [hne']), List.filter_nil, hpair]

end Text
