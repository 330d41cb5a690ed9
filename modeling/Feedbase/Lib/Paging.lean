import Mathlib.Data.List.Nodup
import Mathlib.Data.List.Sort

/-!
# Pages of an ordered list

A list is asked for page by page, and each page is cut from an ordering of the same rows. Rows
that compare equal may come in any order, and in another one for the next page. The pages
together are the rows if and only if no page ends between rows that compare equal.

## Main definitions

* `Paging.Sorts` — a list is the rows in order
* `Paging.before`, `Paging.upTo` — the places that rows equal to this one take
* `Paging.Cuts` — a place between rows that compare equal
* `Paging.page` — a page

## Main results

* `Paging.Sorts.place` — where a row stands in order
* `Paging.Sorts.take_perm` — what stands before a place that is no cut
* `Paging.pages_perm_iff` — the pages together
-/

namespace Paging

variable {α : Type} {le : α → α → Prop} [DecidableRel le] {rows l l' : List α} {a b : α}
  {i m n : Nat}

/-- The list is the rows, in order. -/
structure Sorts (le : α → α → Prop) (rows l : List α) : Prop where
  perm : l.Perm rows
  sorted : l.Pairwise le

/-- How many rows come before this one in any order. -/
def before (le : α → α → Prop) [DecidableRel le] (rows : List α) (a : α) : Nat :=
  rows.countP fun b => ¬ le a b

/-- How many rows come before it or compare equal. -/
def upTo (le : α → α → Prop) [DecidableRel le] (rows : List α) (a : α) : Nat :=
  rows.countP fun b => le b a

/-- After `m` rows there are more that compare equal to one before. -/
def Cuts (le : α → α → Prop) [DecidableRel le] (rows : List α) (m : Nat) : Prop :=
  ∃ a ∈ rows, before le rows a < m ∧ m < upTo le rows a

/-- Page `j`, of `n` rows. -/
def page (n j : Nat) (l : List α) : List α := (l.drop (j * n)).take n

instance : Decidable (Cuts le rows m) :=
  inferInstanceAs (Decidable (∃ a ∈ rows, before le rows a < m ∧ m < upTo le rows a))

theorem Cuts.lt_length (h : Cuts le rows m) : m < rows.length := by
  obtain ⟨a, -, -, hm⟩ := h
  exact Nat.lt_of_lt_of_le hm List.countP_le_length

/-- A row's place is among those of the rows that compare equal. -/
theorem Sorts.place (htotal : ∀ a b, le a b ∨ le b a) (h : Sorts le rows l)
    (hi : l[i]? = some a) : before le rows a ≤ i ∧ i < upTo le rows a := by
  obtain ⟨hlt, hget⟩ := List.getElem?_eq_some_iff.mp hi
  -- what stands before `a` and what stands after it
  have hsplit : l = l.take i ++ a :: l.drop (i + 1) := by
    rw [← hget, ← List.drop_eq_getElem_cons hlt, List.take_append_drop]
  have hself : le a a := (htotal a a).elim id id
  have hsorted := h.sorted
  rw [hsplit, List.pairwise_append, List.pairwise_cons] at hsorted
  obtain ⟨-, ⟨hafter, -⟩, hcross⟩ := hsorted
  have hlength : (l.take i).length = i := by
    rw [List.length_take]
    omega
  constructor
  · have hnone : (a :: l.drop (i + 1)).countP (fun b => ¬ le a b) = 0 := by
      rw [List.countP_eq_zero]
      intro b hb hnot
      refine of_decide_eq_true hnot ?_
      rcases List.mem_cons.mp hb with rfl | hb
      · exact hself
      · exact hafter b hb
    rw [before, ← h.perm.countP_eq, hsplit, List.countP_append, hnone, Nat.add_zero]
    exact List.countP_le_length.trans hlength.le
  · have hall : (l.take i).countP (fun b => le b a) = i := by
      rw [List.countP_eq_length.mpr, hlength]
      intro b hb
      exact decide_eq_true (hcross b hb a List.mem_cons_self)
    have hmore : 0 < (a :: l.drop (i + 1)).countP (fun b => le b a) :=
      List.countP_pos_iff.mpr ⟨a, List.mem_cons_self, decide_eq_true hself⟩
    rw [upTo, ← h.perm.countP_eq, hsplit, List.countP_append, hall]
    omega

/-- A filter that passes what stands before a place. -/
theorem take_eq_filter {p : α → Bool} (h : ∀ i a, l[i]? = some a → (p a = true ↔ i < m)) :
    l.take m = l.filter p := by
  induction l generalizing m with
  | nil => rw [List.take_nil, List.filter_nil]
  | cons a l ih =>
    have hfirst := h 0 a rfl
    cases m with
    | zero =>
      have hnone : ∀ b ∈ a :: l, ¬ p b = true := by
        intro b hb hp
        obtain ⟨i, hi⟩ := List.mem_iff_getElem?.mp hb
        exact Nat.not_lt_zero i ((h i b hi).mp hp)
      rw [List.take_zero, List.filter_eq_nil_iff.mpr hnone]
    | succ m =>
      rw [List.take_succ_cons, List.filter_cons_of_pos (hfirst.mpr (Nat.succ_pos m)),
        ih fun i b hi => (h (i + 1) b hi).trans Nat.succ_lt_succ_iff]

/-- What stands before a place that is no cut are the same rows in every order. -/
theorem Sorts.take_perm (htotal : ∀ a b, le a b ∨ le b a) (h : Sorts le rows l)
    (h' : Sorts le rows l') (hcut : ¬ Cuts le rows m) : (l.take m).Perm (l'.take m) := by
  have hfilter : ∀ {s : List α}, Sorts le rows s →
      s.take m = s.filter fun a => upTo le rows a ≤ m := by
    intro s hs
    refine take_eq_filter fun i a hi => ?_
    obtain ⟨hbefore, hupTo⟩ := hs.place htotal hi
    rw [decide_eq_true_iff]
    constructor
    · intro hle
      omega
    · intro hlt
      by_contra hnot
      exact hcut ⟨a, hs.perm.mem_iff.mp (List.mem_of_getElem? hi), by omega, by omega⟩
  rw [hfilter h, hfilter h']
  exact (h.perm.trans h'.perm.symm).filter _

/-- As many pages as there are, when none ends in a cut. -/
theorem pages_perm_take (htotal : ∀ a b, le a b ∨ le b a) {ls : Nat → List α}
    (h : ∀ j, Sorts le rows (ls j)) {k : Nat} (hcut : ∀ j, ¬ Cuts le rows (j * n)) :
    ((List.range (k + 1)).flatMap fun j => page n j (ls j)).Perm ((ls k).take ((k + 1) * n)) := by
  induction k with
  | zero =>
    rw [List.range_one, List.flatMap_singleton, page, Nat.zero_mul, List.drop_zero, Nat.zero_add,
      Nat.one_mul]
  | succ k ih =>
    have hsplit : (ls (k + 1)).take ((k + 1 + 1) * n) =
        (ls (k + 1)).take ((k + 1) * n) ++ page n (k + 1) (ls (k + 1)) := by
      rw [Nat.succ_mul (k + 1), List.take_add, page]
    rw [List.range_succ, List.flatMap_append, List.flatMap_singleton, hsplit]
    exact (ih.trans ((h k).take_perm htotal (h (k + 1)) (hcut (k + 1)))).append_right _

/-- In order, rows on both sides of a cut compare equal. -/
theorem Sorts.le_of_cut (htotal : ∀ a b, le a b ∨ le b a)
    (htrans : ∀ a b c, le a b → le b c → le a c) (h : Sorts le rows l) (hcut : Cuts le rows (i + 1))
    (ha : l[i]? = some a) (hb : l[i + 1]? = some b) : le b a := by
  obtain ⟨c, -, hbefore, hupTo⟩ := hcut
  obtain ⟨-, ha'⟩ := h.place htotal ha
  obtain ⟨hb', -⟩ := h.place htotal hb
  have hca : le c a := by
    by_contra hnot
    -- otherwise everything up to `a` comes before `c`
    have hle : upTo le rows a ≤ before le rows c := by
      refine List.countP_mono_left fun d _ hd => ?_
      exact decide_eq_true fun hcd => hnot (htrans c d a hcd (of_decide_eq_true hd))
    omega
  have hbc : le b c := by
    by_contra hnot
    have hle : upTo le rows c ≤ before le rows b := by
      refine List.countP_mono_left fun d _ hd => ?_
      exact decide_eq_true fun hbd => hnot (htrans b d c hbd (of_decide_eq_true hd))
    omega
  exact htrans b c a hbc hca

omit [DecidableRel le] in
/-- Two rows side by side that compare equal can stand the other way round. -/
theorem Sorts.swap (h : Sorts le rows l) {s t : List α} (hl : l = s ++ a :: b :: t)
    (hle : le b a) : Sorts le rows (s ++ b :: a :: t) := by
  obtain ⟨hperm, hsorted⟩ := h
  rw [hl] at hperm hsorted
  refine ⟨((List.Perm.swap a b t).append_left s).trans hperm, ?_⟩
  rw [List.pairwise_append, List.pairwise_cons, List.pairwise_cons] at hsorted ⊢
  obtain ⟨hs, ⟨ha, hb, ht⟩, hcross⟩ := hsorted
  refine ⟨hs, ⟨?_, fun c hc => ha c (List.mem_cons_of_mem b hc), ht⟩, ?_⟩
  · intro c hc
    rcases List.mem_cons.mp hc with rfl | hc
    · exact hle
    · exact hb c hc
  · intro x hx c hc
    apply hcross x hx
    rcases List.mem_cons.mp hc with rfl | hc
    · exact List.mem_cons_of_mem a List.mem_cons_self
    · rcases List.mem_cons.mp hc with rfl | hc
      · exact List.mem_cons_self
      · exact List.mem_cons_of_mem a (List.mem_cons_of_mem b hc)

omit [DecidableRel le] in
/-- Some order there is. -/
theorem exists_sorts (htotal : ∀ a b, le a b ∨ le b a)
    (htrans : ∀ a b c, le a b → le b c → le a c) (rows : List α) : ∃ l, Sorts le rows l := by
  classical
  have : Std.Total le := ⟨htotal⟩
  have : IsTrans α le := ⟨htrans⟩
  exact ⟨rows.insertionSort le, List.perm_insertionSort le rows,
    List.pairwise_insertionSort le rows⟩

theorem mem_page (hlow : m * n ≤ i) (hhigh : i < (m + 1) * n) (ha : l[i]? = some a) :
    a ∈ page n m l := by
  obtain ⟨j, rfl⟩ := Nat.exists_eq_add_of_le hlow
  refine List.mem_iff_getElem?.mpr ⟨j, ?_⟩
  rw [Nat.succ_mul] at hhigh
  rw [page, List.getElem?_take_of_lt (by omega), List.getElem?_drop, ha]

/-- Where a page ends in a cut, a row can be on it and on the next one as well. -/
theorem exists_twice_of_cut (htotal : ∀ a b, le a b ∨ le b a)
    (htrans : ∀ a b c, le a b → le b c → le a c) (hn : 0 < n) {j : Nat} (h : Sorts le rows l)
    (hcut : Cuts le rows ((j + 1) * n)) :
    ∃ l' a, Sorts le rows l' ∧ a ∈ page n j l ∧ a ∈ page n (j + 1) l' := by
  obtain ⟨i, hi⟩ : ∃ i, (j + 1) * n = i + 1 :=
    Nat.exists_eq_succ_of_ne_zero (Nat.mul_ne_zero (Nat.succ_ne_zero j) hn.ne')
  have hlength : i + 1 < l.length := by
    rw [h.perm.length_eq, ← hi]
    exact hcut.lt_length
  have ha : l[i]? = some (l[i]) := List.getElem?_eq_getElem (by omega)
  have hb : l[i + 1]? = some (l[i + 1]) := List.getElem?_eq_getElem hlength
  have hsplit : l = l.take i ++ l[i] :: l[i + 1] :: l.drop (i + 2) := by
    rw [← List.drop_eq_getElem_cons hlength, ← List.drop_eq_getElem_cons, List.take_append_drop]
  have hle : le l[i + 1] l[i] := h.le_of_cut htotal htrans (hi ▸ hcut) ha hb
  refine ⟨_, l[i], h.swap hsplit hle, mem_page ?_ ?_ ha, ?_⟩
  · rw [Nat.succ_mul] at hi
    omega
  · omega
  · have htake : (l.take i).length = i := by
      rw [List.length_take]
      omega
    apply mem_page (i := i + 1) hi.le
    · rw [Nat.succ_mul, hi]
      omega
    · rw [List.getElem?_append_right (by omega), htake, Nat.add_sub_cancel_left]
      rfl

/-- The pages together are the rows, in whatever order each one is cut from, if and only if none
ends in a cut. -/
theorem pages_perm_iff (htotal : ∀ a b, le a b ∨ le b a)
    (htrans : ∀ a b c, le a b → le b c → le a c) (hrows : rows.Nodup) (hn : 0 < n) {k : Nat}
    (hall : rows.length ≤ k * n) :
    (∀ ls : Nat → List α, (∀ j, Sorts le rows (ls j)) →
        ((List.range k).flatMap fun j => page n j (ls j)).Perm rows) ↔
      ∀ j, ¬ Cuts le rows (j * n) := by
  constructor
  · intro h j hcut
    cases j with
    | zero =>
      obtain ⟨a, -, hbefore, -⟩ := hcut
      rw [Nat.zero_mul] at hbefore
      exact Nat.not_lt_zero _ hbefore
    | succ j =>
      have hj : j + 1 < k := Nat.lt_of_mul_lt_mul_right (hcut.lt_length.trans_le hall)
      obtain ⟨l, hl⟩ := exists_sorts htotal htrans rows
      obtain ⟨l', a, hl', ha, ha'⟩ := exists_twice_of_cut htotal htrans hn hl hcut
      -- the page with the cut is taken from one order, the next page from the other
      have hperm := h (fun i => if i = j + 1 then l' else l) fun i => by
        split
        · exact hl'
        · exact hl
      have hnodup := hperm.nodup_iff.mpr hrows
      obtain ⟨-, hdisjoint⟩ := List.nodup_flatMap.mp hnodup
      have hpages := List.pairwise_iff_getElem.mp hdisjoint j (j + 1)
        (by rw [List.length_range]; omega) (by rwa [List.length_range]) (Nat.lt_succ_self j)
      rw [List.getElem_range, List.getElem_range] at hpages
      have hother : j ≠ j + 1 := Nat.ne_of_lt (Nat.lt_succ_self j)
      refine @hpages a ?_ ?_
      · dsimp only
        rwa [if_neg hother]
      · dsimp only
        rwa [if_pos rfl]
  · intro hcut ls hls
    cases k with
    | zero =>
      rw [Nat.zero_mul, Nat.le_zero, List.length_eq_zero_iff] at hall
      rw [hall]
      rfl
    | succ k =>
      have hpages := pages_perm_take htotal hls (k := k) hcut
      have hwhole : (ls k).take ((k + 1) * n) = ls k := by
        rw [List.take_of_length_le]
        rwa [(hls k).perm.length_eq]
      rw [hwhole] at hpages
      exact hpages.trans (hls k).perm

end Paging
