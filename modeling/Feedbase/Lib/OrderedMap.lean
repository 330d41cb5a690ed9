import Mathlib.Data.List.Nodup

/-!
# Maps that remember the order of insertion

A map from keys to values whose entries stand in the order in which their keys were first
inserted. Setting a key that is there replaces its value in place.

## Main definitions

* `OrderedMap`, `OrderedMap.get?`, `OrderedMap.has`, `OrderedMap.size`
* `OrderedMap.set`, `OrderedMap.delete`, `OrderedMap.deleteIf`, `OrderedMap.firstKey`

## Main results

* `get?_set`, `get?_delete`, `get?_deleteIf` — looking up after a change
* `size_set`, `size_delete` — how many entries there are
-/

/-- Entries in the order of insertion, one for a key. -/
structure OrderedMap (κ ν : Type) where
  entries : List (κ × ν)
  nodup : (entries.map Prod.fst).Nodup

namespace OrderedMap

variable {κ ν : Type} {m : OrderedMap κ ν} {k l : κ} {v : ν}

/-- The map without entries. -/
def empty : OrderedMap κ ν := ⟨[], List.nodup_nil⟩

instance : Inhabited (OrderedMap κ ν) := ⟨empty⟩

def size (m : OrderedMap κ ν) : Nat := m.entries.length

def keys (m : OrderedMap κ ν) : List κ := m.entries.map Prod.fst

/-- The key that was inserted first. -/
def firstKey (m : OrderedMap κ ν) : Option κ := m.keys.head?

theorem firstKey_isSome_iff : m.firstKey.isSome = true ↔ 0 < m.size := by
  rw [firstKey, keys, size]
  cases m.entries with
  | nil => simp
  | cons e entries => simp

theorem mem_keys_of_firstKey (h : m.firstKey = some k) : k ∈ m.keys := List.mem_of_head? h

variable [DecidableEq κ]

def get? (m : OrderedMap κ ν) (k : κ) : Option ν :=
  (m.entries.find? fun e => e.1 = k).map Prod.snd

def has (m : OrderedMap κ ν) (k : κ) : Bool := (m.get? k).isSome

def delete (m : OrderedMap κ ν) (k : κ) : OrderedMap κ ν where
  entries := m.entries.filter fun e => e.1 ≠ k
  nodup := m.nodup.sublist (List.filter_sublist.map _)

/-- The entries with the value of a key replaced. -/
def replaced (k : κ) (v : ν) (l : List (κ × ν)) : List (κ × ν) :=
  l.map fun e => if e.1 = k then (k, v) else e

theorem keys_replaced (k : κ) (v : ν) (l : List (κ × ν)) :
    (replaced k v l).map Prod.fst = l.map Prod.fst := by
  rw [replaced, List.map_map]
  refine List.map_congr_left fun e _ => ?_
  dsimp only [Function.comp]
  by_cases he : e.1 = k
  · rw [if_pos he, he]
  · rw [if_neg he]

theorem get?_eq_some_iff : m.get? k = some v ↔ (k, v) ∈ m.entries := by
  rw [get?, Option.map_eq_some_iff]
  constructor
  · rintro ⟨e, he, rfl⟩
    have hkey : e.1 = k := by simpa using List.find?_some he
    rw [← hkey]
    exact List.mem_of_find?_eq_some he
  · intro hmem
    cases hfind : m.entries.find? fun e => decide (e.1 = k) with
    | none => simpa using List.find?_eq_none.mp hfind (k, v) hmem
    | some e =>
      have hkey : e.1 = k := by simpa using List.find?_some hfind
      have heq : e = (k, v) :=
        List.inj_on_of_nodup_map m.nodup (List.mem_of_find?_eq_some hfind) hmem hkey
      exact ⟨e, rfl, congrArg Prod.snd heq⟩

theorem has_iff : m.has k = true ↔ k ∈ m.keys := by
  rw [has, Option.isSome_iff_exists]
  constructor
  · rintro ⟨v, hv⟩
    exact List.mem_map_of_mem (get?_eq_some_iff.mp hv)
  · intro hk
    obtain ⟨e, he, rfl⟩ := List.mem_map.mp hk
    exact ⟨e.2, get?_eq_some_iff.mpr he⟩

/-- In place where the key is there, and at the end where it is not. -/
def set (m : OrderedMap κ ν) (k : κ) (v : ν) : OrderedMap κ ν :=
  if h : k ∈ m.keys then
    { entries := replaced k v m.entries
      nodup := by
        rw [keys_replaced]
        exact m.nodup }
  else
    { entries := m.entries ++ [(k, v)]
      nodup := by
        rw [List.map_append, List.map_singleton]
        exact m.nodup.append (List.nodup_singleton k) (List.disjoint_singleton.mpr h) }

/-- Every key is visited in order, and deleted if it passes the test. -/
def deleteIf (p : κ → Bool) (m : OrderedMap κ ν) : OrderedMap κ ν :=
  m.keys.foldl (fun m k => if p k then m.delete k else m) m

/-! ### Looking up -/

theorem get?_delete : (m.delete k).get? l = if l = k then none else m.get? l := by
  ext v
  rw [get?_eq_some_iff, delete, List.mem_filter, decide_eq_true_eq]
  by_cases hl : l = k
  · simp [hl]
  · rw [if_neg hl, get?_eq_some_iff]
    exact and_iff_left hl

theorem mem_replaced {e : κ × ν} {entries : List (κ × ν)} (hk : k ∈ entries.map Prod.fst) :
    e ∈ replaced k v entries ↔ e = (k, v) ∨ e.1 ≠ k ∧ e ∈ entries := by
  rw [replaced, List.mem_map]
  constructor
  · rintro ⟨f, hf, rfl⟩
    by_cases hfk : f.1 = k
    · exact .inl (if_pos hfk)
    · rw [if_neg hfk]
      exact .inr ⟨hfk, hf⟩
  · rintro (rfl | ⟨hek, he⟩)
    · obtain ⟨f, hf, hfk⟩ := List.mem_map.mp hk
      exact ⟨f, hf, if_pos hfk⟩
    · exact ⟨e, he, if_neg hek⟩

theorem get?_set : (m.set k v).get? l = if l = k then some v else m.get? l := by
  have hmem : ∀ w, (l, w) ∈ (m.set k v).entries ↔
      (l, w) = (k, v) ∨ l ≠ k ∧ (l, w) ∈ m.entries := by
    intro w
    unfold set
    split
    · rename_i hk
      exact mem_replaced hk
    · rename_i hk
      have hne : (l, w) ∈ m.entries → l ≠ k := by
        rintro hw rfl
        exact hk (List.mem_map_of_mem hw)
      rw [List.mem_append, List.mem_singleton, or_comm]
      exact or_congr_right ⟨fun hw => ⟨hne hw, hw⟩, And.right⟩
  ext w
  rw [get?_eq_some_iff, hmem]
  by_cases hl : l = k
  · subst hl
    simp [eq_comm]
  · rw [if_neg hl, get?_eq_some_iff]
    simp [hl]

/-- Deleting while walking through the keys leaves those that fail the test. -/
theorem get?_deleteIf {p : κ → Bool} :
    (m.deleteIf p).get? l = if p l then none else m.get? l := by
  -- the keys that have been visited
  have hfold : ∀ (visited : List κ) (m' : OrderedMap κ ν),
      (visited.foldl (fun m k => if p k then m.delete k else m) m').get? l =
        if l ∈ visited ∧ p l then none else m'.get? l := by
    intro visited
    induction visited with
    | nil => simp
    | cons k visited ih =>
      intro m'
      rw [List.foldl_cons, ih]
      by_cases hl : l = k
      · subst hl
        by_cases hp : p l = true
        · simp [hp, get?_delete]
        · simp [hp]
      · by_cases hk : p k = true
        · simp [hk, get?_delete, hl]
        · simp [hk, hl]
  rw [deleteIf, hfold]
  by_cases hl : l ∈ m.keys
  · simp [hl]
  · have hnone : m.get? l = none := by
      by_contra hsome
      exact hl (has_iff.mp (Option.isSome_iff_ne_none.mpr hsome))
    simp [hl, hnone]

/-! ### Counting -/

theorem size_delete_le : (m.delete k).size ≤ m.size := List.length_filter_le _ _

/-- Deleting a key that is there leaves one entry less. -/
theorem size_delete (hk : k ∈ m.keys) : (m.delete k).size + 1 = m.size := by
  obtain ⟨e, he, rfl⟩ := List.mem_map.mp hk
  have hnodup := m.nodup
  rw [size, size, delete]
  dsimp only
  generalize m.entries = entries at he hnodup
  induction entries with
  | nil => cases he
  | cons f entries ih =>
    rw [List.map_cons, List.nodup_cons] at hnodup
    rcases List.mem_cons.mp he with rfl | he
    · have hrest : entries.filter (fun f => f.1 ≠ e.1) = entries := by
        rw [List.filter_eq_self]
        intro f hf
        have hne : f.1 ≠ e.1 := fun heq => hnodup.1 (heq ▸ List.mem_map_of_mem hf)
        simpa using hne
      rw [List.filter_cons_of_neg (by simp), hrest, List.length_cons]
    · have hne : f.1 ≠ e.1 := fun heq => hnodup.1 (heq ▸ List.mem_map_of_mem he)
      rw [List.filter_cons_of_pos (by simpa using hne), List.length_cons, List.length_cons,
        ih he hnodup.2]

/-- A key that is not there takes an entry of its own. -/
theorem size_set (hk : k ∉ m.keys) : (m.set k v).size = m.size + 1 := by
  unfold set
  rw [dif_neg hk, size, List.length_append]
  rfl

theorem size_deleteIf_le {p : κ → Bool} : (m.deleteIf p).size ≤ m.size := by
  have hfold : ∀ (visited : List κ) (m' : OrderedMap κ ν),
      (visited.foldl (fun m k => if p k then m.delete k else m) m').size ≤ m'.size := by
    intro visited
    induction visited with
    | nil => exact fun m' => Nat.le_refl _
    | cons k visited ih =>
      intro m'
      refine Nat.le_trans (ih _) ?_
      dsimp only
      by_cases hp : p k = true
      · rw [if_pos hp]
        exact size_delete_le
      · exact Nat.le_of_eq (congrArg size (if_neg hp))
  exact hfold m.keys m

theorem not_mem_keys_delete : k ∉ (m.delete k).keys := by
  simp [keys, delete]

end OrderedMap
