import Mathlib.Data.List.Dedup
import Mathlib.Logic.Function.Basic

/-!
# Joins, groups, and maps by key

A join pairs the rows of two tables whose keys agree. Where the second key is unique, no row of
the first table comes out twice. A group counts the rows with one key. A program that goes
through rows and keeps something for each key ends with what it would have kept from the rows
of that key alone.

## Main definitions

* `Join.left`, `Join.inner` — joins
* `Join.groupCount` — how many rows have each key
* `Join.collect` — what is kept for each key

## Main results

* `Join.left_eq_map`, `Join.inner_eq_filterMap` — joins on a unique key
* `Join.filter_eq_of_filter_eq` — lists that agree under a test agree under a stricter one
* `Join.count_groupCount` — the count of a key
* `Join.collect_apply` — what is kept for one key
-/

namespace Join

variable {α β κ ρ : Type} [DecidableEq κ] {ka : α → Option κ} {kb : β → κ} {key : ρ → κ}

/-- The rows of the second table that a row of the first is joined to. -/
def matching (ka : α → Option κ) (kb : β → κ) (right : List β) (a : α) : List β :=
  right.filter fun b => ka a = some (kb b)

/-- `LEFT JOIN`: a row without a match is kept. -/
def left (ka : α → Option κ) (kb : β → κ) (rows : List α) (right : List β) :
    List (α × Option β) :=
  rows.flatMap fun a =>
    if (matching ka kb right a).isEmpty then [(a, none)]
    else (matching ka kb right a).map fun b => (a, some b)

/-- `JOIN`. -/
def inner (ka : α → Option κ) (kb : β → κ) (rows : List α) (right : List β) : List (α × β) :=
  rows.flatMap fun a => (matching ka kb right a).map fun b => (a, b)

/-- A test that only one row can pass. -/
theorem filter_eq_toList {p : ρ → Bool} {rows : List ρ}
    (h : rows.Pairwise fun r s => ¬ (p r = true ∧ p s = true)) :
    rows.filter p = (rows.find? p).toList := by
  induction rows with
  | nil => rfl
  | cons r rows ih =>
    obtain ⟨hfirst, hrest⟩ := List.pairwise_cons.mp h
    rw [List.filter_cons, List.find?_cons]
    by_cases hr : p r = true
    · have hnone : rows.filter p = [] := by
        rw [List.filter_eq_nil_iff]
        exact fun s hs hp => hfirst s hs ⟨hr, hp⟩
      rw [if_pos hr, hnone, hr]
      rfl
    · rw [if_neg hr, eq_false_of_ne_true hr]
      exact ih hrest

/-- A unique key has at most one row. -/
theorem filter_key_eq_toList {rows : List ρ} (hkeys : (rows.map key).Nodup) (k : κ) :
    (rows.filter fun r => key r = k) = (rows.find? fun r => key r = k).toList := by
  refine filter_eq_toList ((List.pairwise_map.mp hkeys).imp fun hne hboth => hne ?_)
  exact (of_decide_eq_true hboth.1).trans (of_decide_eq_true hboth.2).symm

theorem matching_eq_toList {right : List β} (hkeys : (right.map kb).Nodup) (a : α) :
    matching ka kb right a = (right.find? fun b => ka a = some (kb b)).toList := by
  refine filter_eq_toList ((List.pairwise_map.mp hkeys).imp fun hne hboth => hne ?_)
  have heq := (of_decide_eq_true hboth.1).symm.trans (of_decide_eq_true hboth.2)
  exact Option.some.inj heq

/-- No row comes out twice, and none is lost. -/
theorem left_eq_map {right : List β} (hkeys : (right.map kb).Nodup) (rows : List α) :
    left ka kb rows right =
      rows.map fun a => (a, right.find? fun b => ka a = some (kb b)) := by
  rw [left, List.map_eq_flatMap]
  refine List.flatMap_congr fun a _ => ?_
  rw [matching_eq_toList hkeys]
  cases right.find? fun b => ka a = some (kb b) with
  | none => rfl
  | some b => rfl

theorem inner_eq_filterMap {right : List β} (hkeys : (right.map kb).Nodup) (rows : List α) :
    inner ka kb rows right =
      rows.filterMap fun a => (right.find? fun b => ka a = some (kb b)).map fun b => (a, b) := by
  rw [inner, List.filterMap_eq_flatMap_toList]
  refine List.flatMap_congr fun a _ => ?_
  rw [matching_eq_toList hkeys]
  cases right.find? fun b => ka a = some (kb b) with
  | none => rfl
  | some b => rfl

/-! ### Rows that pass a test -/

/-- Lists that agree under a test agree under a stricter one. -/
theorem filter_eq_of_filter_eq {p p' q q' : α → Bool} {l l' : List α}
    (h : l'.filter p' = l.filter p) (hq' : ∀ x ∈ l', q' x = true → p' x = true)
    (hq : ∀ x ∈ l, q x = true → p x = true) (heq : ∀ x ∈ l.filter p, q' x = q x) :
    l'.filter q' = l.filter q := by
  have hsplit : ∀ {m : List α} {r s : α → Bool}, (∀ x ∈ m, s x = true → r x = true) →
      m.filter s = (m.filter r).filter s := by
    intro m r s hle
    rw [List.filter_filter]
    refine List.filter_congr fun x hx => ?_
    cases hs : s x with
    | false => rfl
    | true => rw [hle x hx hs, Bool.and_self]
  rw [hsplit hq', h, hsplit hq]
  exact List.filter_congr heq

/-- Lists that agree under a test pass it alike. -/
theorem any_eq_of_filter_eq {q : α → Bool} {l l' : List α}
    (h : l'.filter q = l.filter q) : l'.any q = l.any q := by
  rw [Bool.eq_iff_iff, List.any_eq_true, List.any_eq_true]
  have hmem : ∀ x, x ∈ l'.filter q ↔ x ∈ l.filter q := by simp only [h, implies_true]
  simpa only [List.mem_filter] using exists_congr hmem

/-- Lists that agree once rows are blanked out agree in the rows that are not. -/
theorem filter_eq_of_map_eq {f : α → α} {q : α → Bool} {l l' : List α}
    (h : l'.map f = l.map f) (hf : ∀ x, q x = true → f x = x) (hq : ∀ x, q (f x) = q x) :
    l'.filter q = l.filter q := by
  have hmap : ∀ m : List α, (m.map f).filter q = m.filter q := by
    intro m
    have hcomp : q ∘ f = q := funext hq
    rw [List.filter_map, hcomp]
    conv_rhs => rw [← List.map_id (m.filter q)]
    exact List.map_congr_left fun x hx => hf x (List.mem_filter.mp hx).2
  rw [← hmap l', h, hmap]

/-! ### Groups -/

/-- `SELECT key, COUNT(*) … GROUP BY key`. -/
def groupCount (key : ρ → κ) (rows : List ρ) : List (κ × Nat) :=
  (rows.map key).dedup.map fun k => (k, rows.countP fun r => key r = k)

theorem nodup_groupCount (key : ρ → κ) (rows : List ρ) :
    ((groupCount key rows).map Prod.fst).Nodup := by
  have hkeys : (groupCount key rows).map Prod.fst = (rows.map key).dedup := by
    rw [groupCount, List.map_map]
    exact List.map_id _
  rw [hkeys]
  exact List.nodup_dedup _

theorem snd_of_mem_groupCount {rows : List ρ} {g : κ × Nat} (h : g ∈ groupCount key rows) :
    g.2 = rows.countP fun r => key r = g.1 := by
  obtain ⟨k, -, rfl⟩ := List.mem_map.mp h
  rfl

/-- A key without a group has no rows. -/
theorem count_of_not_mem_groupCount {rows : List ρ} {k : κ}
    (h : ∀ g ∈ groupCount key rows, g.1 ≠ k) : (rows.countP fun r => key r = k) = 0 := by
  rw [List.countP_eq_zero]
  intro r hr heq
  have hmem : key r ∈ (rows.map key).dedup := List.mem_dedup.mpr (List.mem_map_of_mem hr)
  exact h _ (List.mem_map_of_mem hmem) (of_decide_eq_true heq)

/-- The count of a key, 0 without a group, however the groups are ordered. -/
theorem count_groupCount {rows : List ρ} {groups : List (κ × Nat)}
    (h : groups.Perm (groupCount key rows)) (k : κ) :
    ((groups.find? fun g => g.1 = k).map Prod.snd).getD 0 = rows.countP fun r => key r = k := by
  cases hfind : groups.find? fun g => g.1 = k with
  | none =>
    symm
    apply count_of_not_mem_groupCount
    intro g hg heq
    exact absurd (decide_eq_true heq) (List.find?_eq_none.mp hfind g (h.mem_iff.mpr hg))
  | some g =>
    have hfound := List.find?_some hfind
    have hkey : g.1 = k := of_decide_eq_true hfound
    have hmem := h.mem_iff.mp (List.mem_of_find?_eq_some hfind)
    rw [Option.map_some, Option.getD_some, snd_of_mem_groupCount hmem, hkey]

/-! ### Maps by key -/

/-- Goes through the rows, and keeps something for each key. -/
def collect (key : ρ → κ) (keep : Option β → ρ → β) (rows : List ρ) : κ → Option β :=
  rows.foldl (fun acc r => Function.update acc (key r) (some (keep (acc (key r)) r))) fun _ => none

theorem foldl_update_apply (keep : Option β → ρ → β) (rows : List ρ) (acc : κ → Option β)
    (k : κ) :
    rows.foldl (fun acc r => Function.update acc (key r) (some (keep (acc (key r)) r))) acc k =
      (rows.filter fun r => key r = k).foldl (fun o r => some (keep o r)) (acc k) := by
  induction rows generalizing acc with
  | nil => rfl
  | cons r rows ih =>
    rw [List.foldl_cons, ih, List.filter_cons]
    by_cases hr : key r = k
    · rw [if_pos (decide_eq_true hr), List.foldl_cons, ← hr, Function.update_self]
    · rw [if_neg (mt of_decide_eq_true hr), Function.update_of_ne (Ne.symm hr)]

/-- What is kept for a key comes from its rows alone. -/
theorem collect_apply (keep : Option β → ρ → β) (rows : List ρ) (k : κ) :
    collect key keep rows k =
      (rows.filter fun r => key r = k).foldl (fun o r => some (keep o r)) none :=
  foldl_update_apply keep rows (fun _ => none) k

/-- Where a key is unique, what is kept is its row's. -/
theorem collect_of_nodup {rows : List ρ} (hkeys : (rows.map key).Nodup) (f : ρ → β) (k : κ) :
    collect key (fun _ r => f r) rows k = (rows.find? fun r => key r = k).map f := by
  rw [collect_apply, filter_key_eq_toList hkeys]
  cases rows.find? fun r => key r = k with
  | none => rfl
  | some r => rfl

/-- A list for each key. -/
theorem collect_append {γ : Type} (f : ρ → γ) (rows : List ρ) (k : κ) :
    (collect key (fun o r => o.getD [] ++ [f r]) rows k).getD [] =
      (rows.filter fun r => key r = k).map f := by
  rw [collect_apply]
  generalize rows.filter (fun r => key r = k) = l
  have hfold : ∀ o : Option (List γ),
      (l.foldl (fun o r => some (o.getD [] ++ [f r])) o).getD [] = o.getD [] ++ l.map f := by
    induction l with
    | nil => exact fun o => (List.append_nil _).symm
    | cons r l ih =>
      intro o
      rw [List.foldl_cons, ih, Option.getD_some, List.append_assoc]
      rfl
  exact hfold none

end Join
