import Mathlib.Data.List.Nodup
import Mathlib.Data.List.Pairwise

/-!
# Tables of a relational database

A table is a list of rows in insertion order together with its `AUTO_INCREMENT`
counter. The row type says how to read the primary key and which pairs of rows
violate one of the table's `UNIQUE` indexes; a `Table` carries the proof that no
two of its rows do, so a table with a duplicate key cannot be built.

The four statements are `insert?`, `update`, `update?` (for an `UPDATE` that may
set an indexed column) and `delete`. The fallible ones return `none` where the
server raises a duplicate-key error.

## Main definitions

* `Sql.Row` — primary key and `UNIQUE` indexes of a row type
* `Sql.Table` — rows, counter and the key constraints
* `Table.insert?`, `Table.update`, `Table.update?`, `Table.delete`, `Table.byId`
-/

namespace Sql

/-- A row type: its primary key, and the pairs of rows that cannot coexist
because they agree on the columns of a `UNIQUE` index. -/
class Row (ρ : Type) where
  id : ρ → Nat
  clash : ρ → ρ → Bool := fun _ _ => false
  clash_comm : ∀ r s, clash r s = clash s r := by intros; rfl

/-- A table: rows in insertion order and the next `AUTO_INCREMENT` value. -/
structure Table (ρ : Type) [Row ρ] where
  rows : List ρ
  next : Nat
  id_lt : ∀ r ∈ rows, Row.id r < next
  nodup : (rows.map Row.id).Nodup
  noClash : rows.Pairwise fun r s => Row.clash r s = false

namespace Table

variable {ρ : Type} [Row ρ] {T T' : Table ρ} {r s : ρ} {p : ρ → Bool} {f : ρ → ρ}

instance : Membership ρ (Table ρ) := ⟨fun T r => r ∈ T.rows⟩

theorem mem_def : r ∈ T ↔ r ∈ T.rows := Iff.rfl

@[ext] theorem ext (hr : T.rows = T'.rows) (hn : T.next = T'.next) : T = T' := by
  cases T
  cases T'
  simp_all

instance {q : ρ → Prop} [DecidablePred q] : Decidable (∀ r ∈ T, q r) :=
  inferInstanceAs (Decidable (∀ r ∈ T.rows, q r))

instance {q : ρ → Prop} [DecidablePred q] : Decidable (∃ r ∈ T, q r) :=
  inferInstanceAs (Decidable (∃ r ∈ T.rows, q r))

/-- The table without rows. -/
def empty : Table ρ where
  rows := []
  next := 1
  id_lt := by simp
  nodup := by simp
  noClash := by simp

instance : Inhabited (Table ρ) := ⟨empty⟩

/-- The table with one row. -/
def single (r : ρ) : Table ρ where
  rows := [r]
  next := Row.id r + 1
  id_lt := by simp
  nodup := by simp
  noClash := by simp

@[simp] theorem rows_empty : (empty : Table ρ).rows = [] := rfl

@[simp] theorem rows_single : (single r).rows = [r] := rfl

@[simp] theorem not_mem_empty : r ∉ (empty : Table ρ) := by simp [mem_def]

/-- The primary key identifies the row. -/
theorem eq_of_id (hr : r ∈ T) (hs : s ∈ T) (h : Row.id r = Row.id s) : r = s :=
  List.inj_on_of_nodup_map T.nodup hr hs h

theorem clash_eq_false (hr : r ∈ T) (hs : s ∈ T) (h : r ≠ s) : Row.clash r s = false := by
  have hsymm : Std.Symm fun r s : ρ => Row.clash r s = false :=
    ⟨fun r s h => by rw [Row.clash_comm, h]⟩
  exact T.noClash.forall hr hs h

/-- A `UNIQUE` index identifies the row. -/
theorem eq_of_clash (hr : r ∈ T) (hs : s ∈ T) (h : Row.clash r s = true) : r = s := by
  by_contra hne
  simp [clash_eq_false hr hs hne] at h

/-- Rows that pairwise violate a `UNIQUE` index number at most one. -/
theorem countP_le_one (h : ∀ r s, p r = true → p s = true → Row.clash r s = true) :
    T.rows.countP p ≤ 1 := by
  rw [List.countP_eq_length_filter]
  have hpair := T.noClash.sublist (List.filter_sublist (p := p))
  cases hrows : T.rows.filter p with
  | nil => exact Nat.zero_le _
  | cons r l =>
    cases l with
    | nil => exact Nat.le_refl _
    | cons s l =>
      rw [hrows] at hpair
      have hr : p r = true := (List.mem_filter.mp (hrows ▸ List.mem_cons_self)).2
      have hs : p s = true :=
        (List.mem_filter.mp (hrows ▸ List.mem_cons_of_mem r List.mem_cons_self)).2
      have hclash : Row.clash r s = false :=
        List.rel_of_pairwise_cons hpair List.mem_cons_self
      rw [h r s hr hs] at hclash
      cases hclash

/-- The rows that meet a predicate, with and without one of them. -/
theorem countP_eq_add_one (hr : r ∈ T) (hp : p r = true) :
    T.rows.countP p = T.rows.countP (fun s => p s && Row.id s != Row.id r) + 1 := by
  have hnodup := T.nodup
  rw [mem_def] at hr
  generalize T.rows = l at hr hnodup
  induction l with
  | nil => cases hr
  | cons s l ih =>
    rw [List.map_cons, List.nodup_cons] at hnodup
    rw [List.countP_cons, List.countP_cons]
    rcases List.mem_cons.mp hr with rfl | hr
    · have hrest : l.countP p = l.countP fun s => p s && Row.id s != Row.id r := by
        refine List.countP_congr fun s hs => ?_
        have hne : Row.id s ≠ Row.id r := fun heq => hnodup.1 (heq ▸ List.mem_map_of_mem hs)
        simp [hne]
      simp [hp, hrest]
    · have hne : Row.id s ≠ Row.id r := fun heq => hnodup.1 (heq ▸ List.mem_map_of_mem hr)
      rw [ih hr hnodup.2]
      simp only [hne, bne_iff_ne, ne_eq, not_false_iff, and_true, Bool.and_eq_true]
      omega

/-! ### Lookup -/

/-- `SELECT … WHERE id = n`. -/
def byId (T : Table ρ) (n : Nat) : Option ρ := T.rows.find? fun r => Row.id r == n

theorem byId_eq_some_iff {n : Nat} : T.byId n = some r ↔ r ∈ T ∧ Row.id r = n := by
  constructor
  · intro h
    exact ⟨List.mem_of_find?_eq_some h, by simpa using List.find?_some h⟩
  · rintro ⟨hr, rfl⟩
    cases hs : T.byId (Row.id r) with
    | none => simpa using List.find?_eq_none.mp hs r hr
    | some s =>
      have hid : Row.id s = Row.id r := by simpa using List.find?_some hs
      rw [eq_of_id (List.mem_of_find?_eq_some hs) hr hid]

theorem byId_eq_none_iff {n : Nat} : T.byId n = none ↔ ∀ r ∈ T, Row.id r ≠ n := by
  simp [byId, mem_def]

theorem byId_isSome_iff {n : Nat} : (T.byId n).isSome ↔ ∃ r ∈ T, Row.id r = n := by
  simp [byId, mem_def]

theorem byId_id (hr : r ∈ T) : T.byId (Row.id r) = some r := byId_eq_some_iff.mpr ⟨hr, rfl⟩

/-- A test that only rows with one id pass. -/
theorem find?_eq_some_iff {n : Nat} (hp : ∀ r, p r = true → Row.id r = n) :
    T.rows.find? p = some r ↔ r ∈ T ∧ p r = true := by
  constructor
  · exact fun h => ⟨List.mem_of_find?_eq_some h, List.find?_some h⟩
  · rintro ⟨hr, hpr⟩
    cases hs : T.rows.find? p with
    | none => exact absurd hpr (List.find?_eq_none.mp hs r hr)
    | some s =>
      have hid : Row.id s = Row.id r := (hp s (List.find?_some hs)).trans (hp r hpr).symm
      rw [eq_of_id (List.mem_of_find?_eq_some hs) hr hid]

/-! ### INSERT -/

/-- `INSERT`: the row built for the next id, or `none` on a duplicate key. -/
def insert? (T : Table ρ) (mk : Nat → ρ) (hmk : ∀ n, Row.id (mk n) = n := by intro; rfl) :
    Option (Table ρ) :=
  if hc : ∃ r ∈ T.rows, Row.clash r (mk T.next) = true then none
  else some
    { rows := T.rows ++ [mk T.next]
      next := T.next + 1
      id_lt := by
        intro r hr
        rcases List.mem_append.mp hr with hr | hr
        · exact Nat.lt_succ_of_lt (T.id_lt r hr)
        · rw [List.mem_singleton.mp hr, hmk]
          exact Nat.lt_succ_self _
      nodup := by
        rw [List.map_append, List.map_singleton, hmk]
        refine T.nodup.append (List.nodup_singleton _) ?_
        intro n hn hn'
        obtain ⟨r, hr, rfl⟩ := List.mem_map.mp hn
        exact absurd (List.mem_singleton.mp hn') (Nat.ne_of_lt (T.id_lt r hr))
      noClash := by
        rw [List.pairwise_append]
        refine ⟨T.noClash, List.pairwise_singleton _ _, ?_⟩
        intro r hr s hs
        rw [List.mem_singleton.mp hs]
        by_contra h
        exact hc ⟨r, hr, by simpa using h⟩ }

variable {mk : Nat → ρ} {hmk : ∀ n, Row.id (mk n) = n}

theorem insert?_rows (h : T.insert? mk hmk = some T') : T'.rows = T.rows ++ [mk T.next] := by
  unfold insert? at h
  split at h
  · cases h
  · cases h
    rfl

theorem insert?_next (h : T.insert? mk hmk = some T') : T'.next = T.next + 1 := by
  unfold insert? at h
  split at h
  · cases h
  · cases h
    rfl

theorem mem_insert? (h : T.insert? mk hmk = some T') : r ∈ T' ↔ r ∈ T ∨ r = mk T.next := by
  simp [mem_def, insert?_rows h]

theorem insert?_eq_none_iff :
    T.insert? mk hmk = none ↔ ∃ r ∈ T, Row.clash r (mk T.next) = true := by
  unfold insert?
  split
  · simpa [mem_def]
  · rename_i h
    simpa [mem_def] using h

/-! ### UPDATE -/

/-- `f` sets no column of the primary key or of a `UNIQUE` index. -/
structure Keyless (f : ρ → ρ) : Prop where
  id_eq : ∀ r, Row.id (f r) = Row.id r
  clash_eq : ∀ r s, Row.clash (f r) s = Row.clash r s

theorem Keyless.clash_eq' (hf : Keyless f) (r s : ρ) : Row.clash r (f s) = Row.clash r s := by
  rw [Row.clash_comm, hf.clash_eq, Row.clash_comm]

theorem map_id_set (hid : ∀ r, Row.id (f r) = Row.id r) (l : List ρ) :
    (l.map fun r => if p r then f r else r).map Row.id = l.map Row.id := by
  rw [List.map_map]
  refine List.map_congr_left fun r _ => ?_
  dsimp only [Function.comp]
  split
  · exact hid r
  · rfl

theorem id_lt_set (hid : ∀ r, Row.id (f r) = Row.id r) :
    ∀ r ∈ T.rows.map (fun r => if p r then f r else r), Row.id r < T.next := by
  intro r hr
  have hmem := List.mem_map_of_mem (f := Row.id) hr
  rw [map_id_set hid] at hmem
  obtain ⟨s, hs, heq⟩ := List.mem_map.mp hmem
  exact heq ▸ T.id_lt s hs

/-- `UPDATE … SET f WHERE p`, for an `f` that sets no indexed column. -/
def update (T : Table ρ) (p : ρ → Bool) (f : ρ → ρ)
    (hf : Keyless f := by exact ⟨fun _ => rfl, fun _ _ => rfl⟩) : Table ρ where
  rows := T.rows.map fun r => if p r then f r else r
  next := T.next
  id_lt := id_lt_set hf.id_eq
  nodup := by
    rw [map_id_set hf.id_eq]
    exact T.nodup
  noClash := by
    rw [List.pairwise_map]
    refine T.noClash.imp ?_
    intro r s h
    split <;> split <;> simp only [hf.clash_eq, hf.clash_eq', h]

variable {hf : Keyless f}

theorem rows_update : (T.update p f hf).rows = T.rows.map fun r => if p r then f r else r := rfl

@[simp] theorem next_update : (T.update p f hf).next = T.next := rfl

theorem mem_update : r ∈ T.update p f hf ↔ ∃ s ∈ T, r = if p s then f s else s := by
  simp only [mem_def, rows_update, List.mem_map, eq_comm]

theorem byId_update {n : Nat} :
    (T.update p f hf).byId n = (T.byId n).map fun r => if p r then f r else r := by
  simp only [byId, rows_update, List.find?_map]
  congr 2
  funext r
  dsimp only [Function.comp]
  split
  · rw [hf.id_eq]
  · rfl

/-- An `UPDATE` loses no row. -/
theorem exists_id_update (hf : Keyless f) {n : Nat} (h : ∃ r ∈ T, Row.id r = n) :
    ∃ r ∈ T.update p f hf, Row.id r = n := by
  rw [← byId_isSome_iff] at h ⊢
  rw [byId_update, Option.isSome_map]
  exact h

theorem byId_update_of_mem (hf : Keyless f) {n : Nat} (hr : r ∈ T) (hid : Row.id r = n)
    (hp : p r = true) : (T.update p f hf).byId n = some (f r) := by
  rw [byId_update, byId_eq_some_iff.mpr ⟨hr, hid⟩, Option.map_some, if_pos hp]

theorem byId_update_of_ne (hf : Keyless f) {n : Nat} (hp : ∀ r ∈ T, Row.id r = n → p r = false) :
    (T.update p f hf).byId n = T.byId n := by
  rw [byId_update]
  cases hr : T.byId n with
  | none => rfl
  | some r =>
    obtain ⟨hmem, hid⟩ := byId_eq_some_iff.mp hr
    rw [Option.map_some, if_neg (Bool.eq_false_iff.mp (hp r hmem hid))]

/-- Rows outside the `WHERE` clause are unchanged. -/
theorem mem_update_of_not (hr : r ∈ T) (hp : p r = false) : r ∈ T.update p f hf :=
  mem_update.mpr ⟨r, hr, by simp [hp]⟩

theorem mem_update_of (hr : r ∈ T) (hp : p r = true) : f r ∈ T.update p f hf :=
  mem_update.mpr ⟨r, hr, by simp [hp]⟩

theorem update_eq_self (h : ∀ r ∈ T, p r = true → f r = r) : T.update p f hf = T := by
  refine ext ?_ rfl
  rw [rows_update]
  conv_rhs => rw [← List.map_id T.rows]
  refine List.map_congr_left fun r hr => ?_
  split
  · exact h r hr ‹_›
  · rfl

/-- `UPDATE` of an indexed column: `none` when two rows would clash. -/
def update? (T : Table ρ) (p : ρ → Bool) (f : ρ → ρ)
    (hid : ∀ r, Row.id (f r) = Row.id r := by intro; rfl) : Option (Table ρ) :=
  if hc : (T.rows.map fun r => if p r then f r else r).Pairwise
      (fun r s => Row.clash r s = false) then
    some
      { rows := T.rows.map fun r => if p r then f r else r
        next := T.next
        id_lt := id_lt_set hid
        nodup := by
          rw [map_id_set hid]
          exact T.nodup
        noClash := hc }
  else none

variable {hid : ∀ r, Row.id (f r) = Row.id r}

theorem update?_rows (h : T.update? p f hid = some T') :
    T'.rows = T.rows.map fun r => if p r then f r else r := by
  unfold update? at h
  split at h
  · cases h
    rfl
  · cases h

theorem update?_next (h : T.update? p f hid = some T') : T'.next = T.next := by
  unfold update? at h
  split at h
  · cases h
    rfl
  · cases h

theorem mem_update? (h : T.update? p f hid = some T') :
    r ∈ T' ↔ ∃ s ∈ T, r = if p s then f s else s := by
  simp only [mem_def, update?_rows h, List.mem_map, eq_comm]

/-! ### DELETE -/

/-- `DELETE … WHERE p`. -/
def delete (T : Table ρ) (p : ρ → Bool) : Table ρ where
  rows := T.rows.filter fun r => !p r
  next := T.next
  id_lt r hr := T.id_lt r (List.mem_of_mem_filter hr)
  nodup := T.nodup.sublist (List.filter_sublist.map _)
  noClash := T.noClash.sublist List.filter_sublist

theorem rows_delete : (T.delete p).rows = T.rows.filter fun r => !p r := rfl

@[simp] theorem next_delete : (T.delete p).next = T.next := rfl

@[simp] theorem mem_delete : r ∈ T.delete p ↔ r ∈ T ∧ p r = false := by
  simp [mem_def, rows_delete]

/-- A `DELETE` leaves some kind of row alone if and only if it names none of that kind. -/
theorem mem_delete_iff_mem {other : ρ → Prop} :
    (∀ r, other r → (r ∈ T.delete p ↔ r ∈ T)) ↔ ∀ r ∈ T, other r → p r = false := by
  simp only [mem_delete, and_iff_left_iff_imp]
  exact ⟨fun h r hr hother => h r hother hr, fun h r hother hr => h r hr hother⟩

theorem delete_eq_self (h : ∀ r ∈ T, p r = false) : T.delete p = T := by
  refine ext ?_ rfl
  rw [rows_delete, List.filter_eq_self]
  intro r hr
  rw [h r hr]
  rfl

end Table

end Sql
