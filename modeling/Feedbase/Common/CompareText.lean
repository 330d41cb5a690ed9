import Feedbase.Common.SpamScore
import Feedbase.Lib.Words
import Mathlib.Data.List.Chain

/-!
# Texts in normal form

Texts are compared in a normal form: small letters, digits, and single spaces between them. A
text that has this form already is its own normal form. It is the words of the text, once links
and punctuation are taken out.

## Main definitions

* `Normalized` — the form
* `LowersBySpaces` — what is relied on about small letters

## Main results

* `normalized_normalizeForCompare` — every normal form has it
* `normalizeForCompare_of_normalized` — and is left alone
* `normalizeForCompare_append` — the normal form of two texts with a space between them
-/

namespace Feedbase

open Text (isDigit isSpace isUpper isLower lowerAscii CaseMap words wordsFrom unwords)

/-- A unit of a normal form. -/
def isNormal (u : UInt16) : Bool := isLower u || isDigit u || u == 32

/-- Two units that stand side by side are not both white space. -/
def SingleSpaced (u v : UInt16) : Prop := isSpace u = true → isSpace v = false

structure Normalized (t : Text) : Prop where
  units : ∀ u ∈ t, isNormal u = true
  single : t.IsChain SingleSpaced
  first : ∀ u ∈ t.head?, isSpace u = false
  last : ∀ u ∈ t.getLast?, isSpace u = false

variable {t w : Text} {u : UInt16}

/-- What the units of a normal form are, as numbers. -/
theorem isNormal_iff : isNormal u = true ↔
    97 ≤ u.toNat ∧ u.toNat ≤ 122 ∨ 48 ≤ u.toNat ∧ u.toNat ≤ 57 ∨ u.toNat = 32 := by
  have heq : u = 32 ↔ u.toNat = 32 := by rw [← UInt16.toNat_inj]; rfl
  simp only [isNormal, isLower, isDigit, Bool.or_eq_true, Bool.and_eq_true, decide_eq_true_eq,
    beq_iff_eq, heq, or_assoc]

theorem isSpace_iff_of_isNormal (h : isNormal u = true) : isSpace u = true ↔ u = 32 := by
  have hnat := isNormal_iff.mp h
  rw [← UInt16.toNat_inj]
  simp only [isSpace, Bool.or_eq_true, Bool.and_eq_true, decide_eq_true_eq, beq_iff_eq]
  have hspace : (32 : UInt16).toNat = 32 := rfl
  omega

/-! ### The normal form has the form -/

theorem head_collapseSpaces (t : Text) :
    (collapseSpaces t).head?.any isSpace = t.head?.any isSpace := by
  induction t with
  | nil => rfl
  | cons u t ih =>
    rw [collapseSpaces]
    by_cases hu : isSpace u = true
    · rw [if_pos hu, List.head?_cons, Option.any_some, hu]
      by_cases hnext : t.head?.any isSpace = true
      · rw [if_pos hnext, ih, hnext]
      · rw [if_neg hnext]
        rfl
    · rw [if_neg hu]
      rfl

theorem isChain_collapseSpaces (t : Text) : (collapseSpaces t).IsChain SingleSpaced := by
  induction t with
  | nil => exact .nil
  | cons u t ih =>
    rw [collapseSpaces]
    by_cases hu : isSpace u = true
    · rw [if_pos hu]
      by_cases hnext : t.head?.any isSpace = true
      · rw [if_pos hnext]
        exact ih
      · rw [if_neg hnext, List.isChain_cons]
        refine ⟨fun v hv _ => ?_, ih⟩
        have hhead := head_collapseSpaces t
        rw [Option.mem_def.mp hv, Option.any_some] at hhead
        rw [hhead]
        exact eq_false_of_ne_true hnext
    · rw [if_neg hu, List.isChain_cons]
      exact ⟨fun v _ hspace => absurd hspace hu, ih⟩

theorem isNormal_collapseSpaces (ht : ∀ v ∈ t, isNormal v = true ∨ isSpace v = true)
    (hu : u ∈ collapseSpaces t) : isNormal u = true := by
  induction t with
  | nil => cases hu
  | cons v t ih =>
    have hrest := ih fun x hx => ht x (List.mem_cons_of_mem _ hx)
    rw [collapseSpaces] at hu
    by_cases hv : isSpace v = true
    · rw [if_pos hv] at hu
      by_cases hnext : t.head?.any isSpace = true
      · rw [if_pos hnext] at hu
        exact hrest hu
      · rw [if_neg hnext] at hu
        rcases List.mem_cons.mp hu with rfl | hu
        · rfl
        · exact hrest hu
    · rw [if_neg hv] at hu
      rcases List.mem_cons.mp hu with rfl | hu
      · exact (ht _ List.mem_cons_self).resolve_right hv
      · exact hrest hu

theorem blankPunctuation_units (hu : u ∈ blankPunctuation t) :
    isNormal u = true ∨ isSpace u = true := by
  obtain ⟨v, -, rfl⟩ := List.mem_map.mp hu
  by_cases hv : (isLower v || isDigit v || isSpace v) = true
  · rw [if_pos hv]
    rcases Bool.or_eq_true_iff.mp hv with hword | hspace
    · exact .inl (Bool.or_eq_true_iff.mpr (.inl hword))
    · exact .inr hspace
  · rw [if_neg hv]
    exact .inl rfl

theorem isChain_trim {t : Text} (h : t.IsChain SingleSpaced) :
    (Text.trim t).IsChain SingleSpaced := by
  obtain ⟨before, after, heq⟩ := Text.trim_isInfix t
  rw [← heq] at h
  exact h.left_of_append.right_of_append

theorem normalized_normalizeForCompare (cases : CaseMap) (text : Text) :
    Normalized (normalizeForCompare cases text) where
  units _ hu := isNormal_collapseSpaces (fun _ => blankPunctuation_units)
    ((Text.trim_isInfix _).subset hu)
  single := isChain_trim (isChain_collapseSpaces _)
  first _ := Text.head_trim
  last _ := Text.getLast_trim

/-! ### And it is left alone -/

theorem map_lowerAscii_of_isNormal (ht : ∀ u ∈ t, isUpper u = false) :
    t.map lowerAscii = t := by
  rw [List.map_congr_left (g := id) fun u hu => ?_, List.map_id]
  rw [lowerAscii, ht u hu]
  rfl

theorem eq_append_of_afterPrefix {p s r : Text} (h : afterPrefix id p s = some r) : s = p ++ r := by
  induction p generalizing s with
  | nil => exact Option.some.inj h
  | cons c p ih =>
    cases s with
    | nil => cases h
    | cons v s =>
      rw [afterPrefix] at h
      by_cases hv : id v = c
      · rw [if_pos hv] at h
        rw [ih h, ← hv]
        rfl
      · rw [if_neg hv] at h
        cases h

/-- A link holds a colon. -/
theorem mem_of_linkLength {stop : UInt16 → Bool} (h : (linkLength id stop t).isSome = true) :
    58 ∈ t := by
  obtain ⟨n, hn⟩ := Option.isSome_iff_exists.mp h
  obtain ⟨rest, hscheme, -⟩ := Option.bind_eq_some_iff.mp hn
  obtain ⟨after, hhttp, hcolon⟩ := Option.bind_eq_some_iff.mp hscheme
  have hmem : 58 ∈ optionalS id after := by
    rw [eq_append_of_afterPrefix hcolon]
    exact List.mem_cons_self
  have hafter : 58 ∈ after := by
    cases after with
    | nil => exact hmem
    | cons v after =>
      rw [optionalS] at hmem
      by_cases hv : id v = 115
      · rw [if_pos hv] at hmem
        exact List.mem_cons_of_mem _ hmem
      · rw [if_neg hv] at hmem
        exact hmem
  rw [eq_append_of_afterPrefix hhttp]
  exact List.mem_append_right _ hafter

theorem replaceLinks_of_no_colon (ht : 58 ∉ t) : replaceLinks 0 t = t := by
  induction t with
  | nil => rfl
  | cons u t ih =>
    have hnone : linkLength id isSpace (u :: t) = none := by
      rw [← Option.not_isSome_iff_eq_none]
      exact fun hsome => ht (mem_of_linkLength hsome)
    rw [replaceLinks, hnone]
    exact congrArg (u :: ·) (ih fun h => ht (List.mem_cons_of_mem _ h))

theorem collapseSpaces_of_single (ht : ∀ u ∈ t, isSpace u = true → u = 32)
    (hsingle : t.IsChain SingleSpaced) : collapseSpaces t = t := by
  induction t with
  | nil => rfl
  | cons u t ih =>
    obtain ⟨hnext, htail⟩ := List.isChain_cons.mp hsingle
    have hrest := ih (fun v hv => ht v (List.mem_cons_of_mem _ hv)) htail
    rw [collapseSpaces, hrest]
    by_cases hu : isSpace u = true
    · rw [if_pos hu, if_neg, ht u List.mem_cons_self hu]
      intro hany
      obtain ⟨v, hv, hspace⟩ := (Option.any_eq_true _ _).mp hany
      rw [hnext v hv hu] at hspace
      cases hspace
    · rw [if_neg hu]

variable (cases : CaseMap)

theorem Normalized.lt_of_mem (ht : Normalized t) (hu : u ∈ t) : u.toNat < 128 := by
  have hnat := isNormal_iff.mp (ht.units u hu)
  omega

theorem Normalized.lower (ht : Normalized t) : cases.lower t = t := by
  rw [cases.lower_ascii t fun u => ht.lt_of_mem]
  apply map_lowerAscii_of_isNormal
  intro u hu
  have hnat := isNormal_iff.mp (ht.units u hu)
  simp only [isUpper, Bool.and_eq_false_iff, decide_eq_false_iff_not]
  omega

theorem Normalized.no_colon (ht : Normalized t) : 58 ∉ t :=
  fun hmem => absurd (ht.units 58 hmem) (by decide)

theorem Normalized.blankPunctuation (ht : Normalized t) : blankPunctuation t = t := by
  rw [Feedbase.blankPunctuation, List.map_congr_left (g := id) fun u hu => ?_, List.map_id]
  by_cases hkept : (isLower u || isDigit u || isSpace u) = true
  · rw [if_pos hkept]
    rfl
  · have hword := mt (fun h => Bool.or_eq_true_iff.mpr (.inl h)) hkept
    have hspace : u = 32 := by
      have hnormal := ht.units u hu
      rw [isNormal, Bool.or_eq_true] at hnormal
      exact beq_iff_eq.mp (hnormal.resolve_left hword)
    rw [if_neg hkept, hspace]
    rfl

theorem Normalized.collapseSpaces (ht : Normalized t) : collapseSpaces t = t :=
  collapseSpaces_of_single (fun u hu => (isSpace_iff_of_isNormal (ht.units u hu)).mp) ht.single

theorem Normalized.trim (ht : Normalized t) : Text.trim t = t := Text.trim_of_ends ht.first ht.last

/-- A text in normal form is its own normal form. -/
theorem normalizeForCompare_of_normalized (ht : Normalized t) :
    normalizeForCompare cases t = t := by
  rw [normalizeForCompare, ht.lower cases, replaceLinks_of_no_colon ht.no_colon,
    ht.blankPunctuation, ht.collapseSpaces, ht.trim]

/-- A dash before it makes no difference. -/
theorem normalizeForCompare_dash (ht : Normalized t) (hne : t ≠ []) :
    normalizeForCompare cases ([45] ++ 32 :: t) = t := by
  have hlower : cases.lower ([45] ++ 32 :: t) = [45] ++ 32 :: t := by
    rw [cases.lower_ascii]
    · have hmap := (cases.lower_ascii t fun u => ht.lt_of_mem).symm.trans (ht.lower cases)
      exact congrArg ([45] ++ 32 :: ·) hmap
    · intro u hu
      rcases List.mem_append.mp hu with hu | hu
      · rw [List.mem_singleton.mp hu]
        decide
      · rcases List.mem_cons.mp hu with rfl | hu
        · decide
        · exact ht.lt_of_mem hu
  have hcolon : 58 ∉ ([45] ++ 32 :: t : Text) := by
    simp [ht.no_colon]
  have hblank : Feedbase.blankPunctuation ([45] ++ 32 :: t) = 32 :: 32 :: t := by
    rw [Feedbase.blankPunctuation, List.map_append, List.map_cons]
    exact congrArg (32 :: 32 :: ·) ht.blankPunctuation
  -- two spaces before the text become one, and the trim takes that one
  have hcollapse : Feedbase.collapseSpaces (32 :: 32 :: t) = 32 :: t := by
    obtain ⟨u, rest, rfl⟩ := List.exists_cons_of_ne_nil hne
    have hfirst : isSpace u = false := ht.first u rfl
    have hnext : (List.head? (u :: rest)).any isSpace = false := hfirst
    have hspace : isSpace 32 = true := rfl
    have hrun : (List.head? (32 :: u :: rest)).any isSpace = true := hspace
    rw [Feedbase.collapseSpaces, if_pos hspace, if_pos hrun, Feedbase.collapseSpaces,
      if_pos hspace, hnext, if_neg Bool.false_ne_true, ht.collapseSpaces]
  have htrim : Text.trim (32 :: t) = t := by
    rw [Text.trim, List.dropWhile_cons_of_pos rfl]
    exact ht.trim
  rw [normalizeForCompare, hlower, replaceLinks_of_no_colon hcolon, hblank, hcollapse, htrim]

/-! ### The words of a normal form -/

/-- Where every space is single and none is at the end, the text is its words. -/
theorem unwords_wordsFrom (hspaces : ∀ u ∈ t, isSpace u = true → u = 32)
    (hsingle : t.IsChain SingleSpaced) (hlast : ∀ u ∈ t.getLast?, isSpace u = false)
    (hfirst : w = [] → ∀ u ∈ t.head?, isSpace u = false) :
    unwords (wordsFrom w t) = w ++ t := by
  induction t generalizing w with
  | nil =>
    rw [wordsFrom, List.append_nil]
    by_cases hw : w = []
    · rw [if_pos hw, hw]
      rfl
    · rw [if_neg hw]
      exact List.intercalate_singleton
  | cons u t ih =>
    obtain ⟨hnext, htail⟩ := List.isChain_cons.mp hsingle
    have hspaces' : ∀ v ∈ t, isSpace v = true → v = 32 :=
      fun v hv => hspaces v (List.mem_cons_of_mem _ hv)
    have hlast' : ∀ v ∈ t.getLast?, isSpace v = false := by
      intro v hv
      apply hlast v
      rw [List.getLast?_cons, Option.mem_def.mp hv]
      rfl
    rw [wordsFrom]
    by_cases hu : isSpace u = true
    · -- the word before the space is complete
      have hw : w ≠ [] := by
        intro hnil
        rw [hfirst hnil u rfl] at hu
        cases hu
      -- no space ends the text
      have ht : t ≠ [] := by
        intro hnil
        rw [hnil] at hlast
        rw [hlast u rfl] at hu
        cases hu
      have hrest : unwords (wordsFrom [] t) = t :=
        ih hspaces' htail hlast' fun _ v hv => hnext v hv hu
      have hne : wordsFrom [] t ≠ [] := by
        intro hnil
        rw [hnil] at hrest
        exact ht hrest.symm
      rw [if_pos hu, if_neg hw, List.singleton_append, unwords, List.intercalate_cons_of_ne_nil hne,
        ← unwords, hrest, hspaces u List.mem_cons_self hu, List.append_assoc,
        List.singleton_append]
    · -- the unit joins the word that is being read
      have hne : w ++ [u] ≠ [] := List.append_ne_nil_of_right_ne_nil w (List.cons_ne_nil u [])
      have hrest := ih hspaces' htail hlast' fun hnil => absurd hnil hne
      rw [if_neg hu, hrest, List.append_assoc, List.singleton_append]

theorem Normalized.unwords_words (ht : Normalized t) : unwords (words t) = t :=
  unwords_wordsFrom (fun u hu => (isSpace_iff_of_isNormal (ht.units u hu)).mp) ht.single ht.last
    fun _ => ht.first

theorem wordsFrom_collapseSpaces (w t : Text) :
    wordsFrom w (collapseSpaces t) = wordsFrom w t := by
  induction t generalizing w with
  | nil => rfl
  | cons u t ih =>
    rw [collapseSpaces]
    by_cases hu : isSpace u = true
    · rw [if_pos hu]
      by_cases hnext : t.head?.any isSpace = true
      · cases t with
        | nil => cases hnext
        | cons v t =>
          -- the next space ends the word as well
          have hv : isSpace v = true := hnext
          rw [if_pos hnext, ih, wordsFrom, wordsFrom, if_pos hv, if_pos hu, wordsFrom, if_pos hv]
          rfl
      · have hspace : isSpace 32 = true := rfl
        rw [if_neg hnext, wordsFrom, wordsFrom, if_pos hspace, if_pos hu, ih]
    · rw [if_neg hu, wordsFrom, wordsFrom, if_neg hu, if_neg hu, ih]

/-! ### Two texts with a space between them -/

/-- Lower-casing stops at a space: no character's mapping looks beyond one. -/
def LowersBySpaces (cases : CaseMap) : Prop :=
  ∀ s t, cases.lower (s ++ 32 :: t) = cases.lower s ++ 32 :: cases.lower t

theorem takeWhile_append_stop {p : UInt16 → Bool} (hu : p u = false) (s t : Text) :
    (s ++ u :: t).takeWhile p = s.takeWhile p := by
  induction s with
  | nil => rw [List.nil_append, List.takeWhile_cons_of_neg (by simp [hu]), List.takeWhile_nil]
  | cons v s ih =>
    by_cases hv : p v = true
    · rw [List.cons_append, List.takeWhile_cons_of_pos hv, List.takeWhile_cons_of_pos hv, ih]
    · rw [List.cons_append, List.takeWhile_cons_of_neg hv, List.takeWhile_cons_of_neg hv]

theorem length_afterScheme {rest : Text} (h : afterScheme id t = some rest) :
    rest.length ≤ t.length := by
  obtain ⟨after, hhttp, hcolon⟩ := Option.bind_eq_some_iff.mp h
  have hafter : (optionalS id after).length ≤ after.length := by
    cases after with
    | nil => exact Nat.le_refl _
    | cons v after =>
      rw [optionalS]
      split
      · exact Nat.le_succ _
      · exact Nat.le_refl _
  have hhead := congrArg List.length (eq_append_of_afterPrefix hhttp)
  have htail := congrArg List.length (eq_append_of_afterPrefix hcolon)
  rw [List.length_append] at hhead htail
  omega

/-- No link runs across a space. -/
theorem linkLength_append (s t : Text) :
    linkLength id isSpace (s ++ 32 :: t) = linkLength id isSpace s := by
  rw [linkLength, linkLength, afterScheme_append (by decide) (by decide) (by decide)]
  cases hscheme : afterScheme id s with
  | none => rfl
  | some rest =>
    have hle := length_afterScheme hscheme
    have hstop : (fun u => !isSpace u) 32 = false := rfl
    have hlen : (s ++ 32 :: t).length - (rest ++ 32 :: t).length = s.length - rest.length := by
      rw [List.length_append, List.length_append]
      omega
    rw [Option.map_some, Option.bind_some, Option.bind_some, takeWhile_append_stop hstop, hlen]

theorem le_of_linkLength {n : Nat} (h : linkLength id isSpace t = some n) : n ≤ t.length := by
  obtain ⟨rest, hscheme, hn⟩ := Option.bind_eq_some_iff.mp h
  have hle := length_afterScheme hscheme
  have htail := (List.takeWhile_prefix (fun u => !isSpace u) (l := rest)).length_le
  dsimp only at hn
  split at hn
  · cases hn
  · have heq := Option.some.inj hn
    omega

/-- A link in the first text ends there. -/
theorem replaceLinks_append {n : Nat} (s t : Text) (hn : n ≤ s.length) :
    replaceLinks n (s ++ 32 :: t) = replaceLinks n s ++ 32 :: replaceLinks 0 t := by
  induction s generalizing n with
  | nil =>
    obtain rfl := Nat.le_zero.mp hn
    rfl
  | cons u s ih =>
    cases n with
    | succ n => exact ih (Nat.le_of_succ_le_succ hn)
    | zero =>
      have hlink := linkLength_append (u :: s) t
      rw [List.cons_append] at hlink ⊢
      rw [replaceLinks, replaceLinks, hlink]
      cases hfound : linkLength id isSpace (u :: s) with
      | none => exact congrArg (u :: ·) (ih (Nat.zero_le _))
      | some m =>
        have hle := le_of_linkLength hfound
        rw [List.length_cons] at hle
        exact congrArg (32 :: ·) (ih (by omega))

theorem blankPunctuation_append (s t : Text) :
    blankPunctuation (s ++ 32 :: t) = blankPunctuation s ++ 32 :: blankPunctuation t := by
  rw [blankPunctuation, List.map_append, List.map_cons]
  rfl

/-- The normal form is the words of the text with links and punctuation taken out. -/
theorem normalizeForCompare_eq (t : Text) : normalizeForCompare cases t =
    unwords (words (blankPunctuation (replaceLinks 0 (cases.lower t)))) := by
  rw [← (normalized_normalizeForCompare cases t).unwords_words, normalizeForCompare,
    Text.words_trim, words, wordsFrom_collapseSpaces]
  rfl

theorem normalizeForCompare_append (hcases : LowersBySpaces cases) (a b : Text) :
    normalizeForCompare cases (a ++ 32 :: b) =
      unwords ([normalizeForCompare cases a, normalizeForCompare cases b].filter (· ≠ [])) := by
  have hspace : isSpace 32 = true := rfl
  rw [normalizeForCompare_eq, normalizeForCompare_eq, normalizeForCompare_eq, hcases,
    replaceLinks_append _ _ (Nat.zero_le _), blankPunctuation_append, Text.words_append hspace]
  exact Text.unwords_append_eq (fun _ hw => (Text.mem_words hw).1) fun _ hw => (Text.mem_words hw).1

/-- The normal form is words of small letters and digits with single spaces between them; it is
its own normal form, and that of two texts with a space between them is theirs together. -/
theorem normalizeForCompare_normal (cases : CaseMap) (t a b : Text) :
    (∃ ws : List Text,
      (∀ w ∈ ws, w ≠ [] ∧ ∀ u ∈ w, (isLower u || isDigit u) = true) ∧
        normalizeForCompare cases t = [32].intercalate ws) ∧
      normalizeForCompare cases (normalizeForCompare cases t) = normalizeForCompare cases t ∧
        (LowersBySpaces cases → normalizeForCompare cases (a ++ 32 :: b) =
          [32].intercalate
            ([normalizeForCompare cases a, normalizeForCompare cases b].filter (· ≠ []))) := by
  have hnormal := normalized_normalizeForCompare cases t
  refine ⟨⟨words (normalizeForCompare cases t), ?_, hnormal.unwords_words.symm⟩,
    normalizeForCompare_of_normalized cases hnormal,
    fun hcases => normalizeForCompare_append cases hcases a b⟩
  intro w hw
  obtain ⟨hne, hunits⟩ := Text.mem_words hw
  refine ⟨hne, fun u hu => ?_⟩
  obtain ⟨hspace, hmem⟩ := hunits u hu
  have hunit := hnormal.units u hmem
  have hnot : u ≠ 32 := by
    intro h
    rw [h] at hspace
    cases hspace
  rw [isNormal, Bool.or_eq_true, beq_iff_eq] at hunit
  exact hunit.resolve_right hnot

theorem ascii_lowersBySpaces : LowersBySpaces .ascii := fun _ _ => List.map_append

/-- A greeting, and a link with a word after it. -/
theorem normalizeForCompare_normal_greeting :
    (∃ ws : List Text,
      (∀ w ∈ ws, w ≠ [] ∧ ∀ u ∈ w, (isLower u || isDigit u) = true) ∧
        normalizeForCompare .ascii (Text.ofString "Hi!") = [32].intercalate ws) ∧
      normalizeForCompare .ascii (normalizeForCompare .ascii (Text.ofString "Hi!")) =
        normalizeForCompare .ascii (Text.ofString "Hi!") ∧
        normalizeForCompare .ascii
            (Text.ofString "--Hi!" ++ 32 :: Text.ofString "http://a.b/c You") =
          [32].intercalate ([normalizeForCompare .ascii (Text.ofString "--Hi!"),
            normalizeForCompare .ascii (Text.ofString "http://a.b/c You")].filter (· ≠ [])) ∧
          normalizeForCompare .ascii
            (Text.ofString "--Hi!" ++ 32 :: Text.ofString "http://a.b/c You") =
              Text.ofString "hi you" :=
  have hnormal := normalizeForCompare_normal .ascii (Text.ofString "Hi!")
    (Text.ofString "--Hi!") (Text.ofString "http://a.b/c You")
  ⟨hnormal.1, hnormal.2.1, hnormal.2.2 ascii_lowersBySpaces, by decide +kernel⟩

end Feedbase
