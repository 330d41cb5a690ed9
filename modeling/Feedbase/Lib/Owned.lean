import Feedbase.Lib.Table

/-!
# Tables that several owners share

Every row has an owner, and a reference from one row to another is meant to stay with the owner.
No foreign key says so: a key only asks that the row exists. Whether a reference stays with the
owner is a matter of the ids that a statement is given, so it is said of ids: an id belongs to an
owner when no row of anybody else has it, now or later.

## Main definitions

* `Sql.Owned` — the owner of a row
* `Table.Evolves` — rows keep their ids and owners
* `Table.Belongs` — the id of a row of the owner, or of none
* `Table.Refers` — a column refers to rows of the row's owner
* `Table.SameFor` — the rows of an owner are as they were

## Main results

* `Belongs.evolves`, `Refers.evolves` — what belongs to somebody does so for good
* `sameFor_delete_iff` — when a `DELETE` leaves the rows of an owner
-/

namespace Sql

/-- A row type whose rows have owners. -/
class Owned (ρ : Type) (κ : outParam Type) [Row ρ] where
  owner : ρ → κ

open Owned

namespace Table

variable {ρ τ κ : Type} [Row ρ] [Row τ] [Owned ρ κ] [Owned τ κ] {t t' u : Table ρ} {g g' : Table τ}
  {r : ρ} {p : ρ → Bool} {f : ρ → ρ} {o : κ} {n : Nat}

/-! ### Rows over time -/

/-- Ids are not given out twice, and a row that stays keeps its owner. -/
structure Evolves (t t' : Table ρ) : Prop where
  next_le : t.next ≤ t'.next
  old : ∀ r' ∈ t', Row.id r' < t.next → ∃ r ∈ t, Row.id r = Row.id r' ∧ owner r = owner r'

theorem Evolves.refl (t : Table ρ) : Evolves t t := ⟨Nat.le_refl _, fun r hr _ => ⟨r, hr, rfl, rfl⟩⟩

theorem Evolves.trans (h : Evolves t t') (h' : Evolves t' u) : Evolves t u where
  next_le := Nat.le_trans h.next_le h'.next_le
  old r hr hlt := by
    obtain ⟨s, hs, hid, howner⟩ := h'.old r hr (Nat.lt_of_lt_of_le hlt h.next_le)
    obtain ⟨q, hq, hqid, hqowner⟩ := h.old s hs (hid ▸ hlt)
    exact ⟨q, hq, hqid.trans hid, hqowner.trans howner⟩

theorem Evolves.insert {mk : Nat → ρ} {hmk : ∀ n, Row.id (mk n) = n}
    (h : t.insert? mk hmk = some t') : Evolves t t' where
  next_le := by
    rw [insert?_next h]
    exact Nat.le_succ _
  old r hr hlt := by
    rcases (mem_insert? h).mp hr with hr | rfl
    · exact ⟨r, hr, rfl, rfl⟩
    · rw [hmk] at hlt
      exact absurd hlt (Nat.lt_irrefl _)

/-- A statement that sets neither the id nor the owner. -/
theorem evolves_of_set (hid : ∀ r, Row.id (f r) = Row.id r) (hf : ∀ r, owner (f r) = owner r)
    (hnext : t'.next = t.next) (hrows : ∀ r ∈ t', ∃ s ∈ t, r = if p s then f s else s) :
    Evolves t t' where
  next_le := Nat.le_of_eq hnext.symm
  old r hr _ := by
    obtain ⟨s, hs, rfl⟩ := hrows r hr
    refine ⟨s, hs, ?_⟩
    split
    · exact ⟨(hid s).symm, (hf s).symm⟩
    · exact ⟨rfl, rfl⟩

theorem Evolves.update (hk : Keyless f) (hf : ∀ r, owner (f r) = owner r) :
    Evolves t (t.update p f hk) :=
  evolves_of_set hk.id_eq hf rfl fun _ hr => mem_update.mp hr

theorem Evolves.delete : Evolves t (t.delete p) where
  next_le := Nat.le_refl _
  old r hr _ := ⟨r, (mem_delete.mp hr).1, rfl, rfl⟩

/-! ### Ids -/

/-- The id has been given out, and no row of anybody else has it. -/
structure Belongs (t : Table ρ) (o : κ) (n : Nat) : Prop where
  lt_next : n < t.next
  owner_eq : ∀ r ∈ t, Row.id r = n → owner r = o

theorem belongs_of_mem (hr : r ∈ t) : t.Belongs (owner r) (Row.id r) where
  lt_next := t.id_lt r hr
  owner_eq s hs hid := by rw [eq_of_id hs hr hid]

theorem Belongs.evolves (h : t.Belongs o n) (ht : Evolves t t') : t'.Belongs o n where
  lt_next := Nat.lt_of_lt_of_le h.lt_next ht.next_le
  owner_eq r hr hid := by
    obtain ⟨s, hs, hsid, howner⟩ := ht.old r hr (hid ▸ h.lt_next)
    exact howner.symm.trans (h.owner_eq s hs (hsid.trans hid))

/-- The id that an `INSERT` returns. -/
theorem belongs_insert {mk : Nat → ρ} {hmk : ∀ n, Row.id (mk n) = n}
    (h : t.insert? mk hmk = some t') : t'.Belongs (owner (mk t.next)) t.next := by
  have hnew := belongs_of_mem ((mem_insert? h).mpr (.inr rfl))
  rw [hmk] at hnew
  exact hnew

/-- An id that belonged to nobody else in the end did not at first, if its row has stayed. -/
theorem Belongs.of_kept (h : t'.Belongs o (Row.id r)) (hr : r ∈ t)
    (hkept : ∃ r' ∈ t', Row.id r' = Row.id r ∧ owner r' = owner r) : t.Belongs o (Row.id r) := by
  obtain ⟨r', hr', hid, howner⟩ := hkept
  obtain rfl : owner r = o := howner.symm.trans (h.owner_eq r' hr' hid)
  exact belongs_of_mem hr

/-! ### References -/

/-- What the column refers to belongs to the owner of the row. -/
def Refers (ref : ρ → Option Nat) (t : Table ρ) (g : Table τ) : Prop :=
  ∀ r ∈ t, ∀ n, ref r = some n → g.Belongs (owner r) n

variable {ref : ρ → Option Nat}

theorem Refers.evolves (h : Refers ref t g) (hg : Evolves g g') : Refers ref t g' :=
  fun r hr n hn => (h r hr n hn).evolves hg

theorem Refers.insert (h : Refers ref t g) {mk : Nat → ρ} {hmk : ∀ n, Row.id (mk n) = n}
    (hins : t.insert? mk hmk = some t')
    (hnew : ∀ n, ref (mk t.next) = some n → g.Belongs (owner (mk t.next)) n) :
    Refers ref t' g := by
  intro r hr n hn
  rcases (mem_insert? hins).mp hr with hr | rfl
  · exact h r hr n hn
  · exact hnew n hn

/-- A statement that leaves the column alone, or sets it to what belongs to the owner. -/
theorem Refers.set (h : Refers ref t g) (hf : ∀ r, owner (f r) = owner r)
    (hrows : ∀ r ∈ t', ∃ s ∈ t, r = if p s then f s else s)
    (hnew : ∀ s ∈ t, p s = true → ∀ n, ref (f s) = some n → g.Belongs (owner s) n) :
    Refers ref t' g := by
  intro r hr n hn
  obtain ⟨s, hs, rfl⟩ := hrows r hr
  by_cases hp : p s = true
  · rw [if_pos hp] at hn ⊢
    rw [hf]
    exact hnew s hs hp n hn
  · rw [if_neg hp] at hn ⊢
    exact h s hs n hn

theorem Refers.update (h : Refers ref t g) (hk : Keyless f) (hf : ∀ r, owner (f r) = owner r)
    (hnew : ∀ s ∈ t, p s = true → ∀ n, ref (f s) = some n → g.Belongs (owner s) n) :
    Refers ref (t.update p f hk) g := h.set hf (fun _ hr => mem_update.mp hr) hnew

/-- A statement that leaves the column alone. -/
theorem Refers.update_of_eq (h : Refers ref t g) (hk : Keyless f) (hf : ∀ r, owner (f r) = owner r)
    (href : ∀ r, ref (f r) = ref r) : Refers ref (t.update p f hk) g :=
  h.update hk hf fun s hs _ n hn => h s hs n (href s ▸ hn)

theorem Refers.delete (h : Refers ref t g) : Refers ref (t.delete p) g :=
  fun r hr => h r (mem_delete.mp hr).1

/-- The row referred to has the same owner. -/
theorem Refers.owner_eq (h : Refers ref t g) (hr : r ∈ t) {s : τ} (hs : s ∈ g)
    (href : ref r = some (Row.id s)) : owner s = owner r := (h r hr _ href).owner_eq s hs rfl

section Decide

variable [DecidableEq κ]

instance : Decidable (t.Belongs o n) :=
  decidable_of_iff (n < t.next ∧ ∀ r ∈ t, Row.id r = n → owner r = o)
    ⟨fun h => ⟨h.1, h.2⟩, fun h => ⟨h.lt_next, h.owner_eq⟩⟩

instance : Decidable (Refers ref t g) :=
  decidable_of_iff (∀ r ∈ t, (ref r).all fun n => decide (g.Belongs (owner r) n))
    (forall₂_congr fun r _ => by simp [Option.all_eq_true])

end Decide

/-! ### The rows of one owner -/

section SameFor

variable [DecidableEq κ]

/-- The rows of the owner, in order, are as they were. -/
def SameFor (o : κ) (t t' : Table ρ) : Prop :=
  (t'.rows.filter fun r => owner r == o) = t.rows.filter fun r => owner r == o

theorem SameFor.trans (h : SameFor o t t') (h' : SameFor o t' u) : SameFor o t u := Eq.trans h' h

/-- A row of the owner is in both or in neither. -/
theorem SameFor.mem_iff (h : SameFor o t t') (ho : owner r = o) : r ∈ t' ↔ r ∈ t := by
  have hmem : ∀ u : Table ρ, r ∈ (u.rows.filter fun r => owner r == o) ↔ r ∈ u := by
    intro u
    rw [List.mem_filter]
    exact and_iff_left (beq_iff_eq.mpr ho)
  rw [← hmem t', ← hmem t, h]

theorem SameFor.insert {mk : Nat → ρ} {hmk : ∀ n, Row.id (mk n) = n}
    (h : t.insert? mk hmk = some t') (hne : owner (mk t.next) ≠ o) : SameFor o t t' := by
  rw [SameFor, insert?_rows h, List.filter_append, List.filter_singleton,
    beq_eq_false_iff_ne.mpr hne, cond_false, List.append_nil]

/-- A statement that names no row of the owner. -/
theorem SameFor.set (hf : ∀ r, owner (f r) = owner r)
    (hrows : t'.rows = t.rows.map fun r => if p r then f r else r)
    (hp : ∀ r ∈ t, p r = true → owner r ≠ o) : SameFor o t t' := by
  have howner : ∀ r, (owner (if p r then f r else r) == o) = (owner r == o) := by
    intro r
    split
    · rw [hf]
    · rfl
  rw [SameFor, hrows, List.filter_map]
  calc (t.rows.filter fun r => owner (if p r then f r else r) == o).map
        (fun r => if p r then f r else r)
      = (t.rows.filter fun r => owner r == o).map fun r => if p r then f r else r := by
        rw [funext howner]
    _ = (t.rows.filter fun r => owner r == o).map id := by
        refine List.map_congr_left fun r hr => ?_
        obtain ⟨hr, ho⟩ := List.mem_filter.mp hr
        exact if_neg fun h => hp r hr h (beq_iff_eq.mp ho)
    _ = t.rows.filter fun r => owner r == o := List.map_id _

theorem SameFor.update (hk : Keyless f) (hf : ∀ r, owner (f r) = owner r)
    (hp : ∀ r ∈ t, p r = true → owner r ≠ o) : SameFor o t (t.update p f hk) :=
  .set hf rows_update hp

theorem SameFor.delete (hp : ∀ r ∈ t, p r = true → owner r ≠ o) : SameFor o t (t.delete p) := by
  rw [SameFor, rows_delete, List.filter_filter]
  refine List.filter_congr fun r hr => ?_
  by_cases ho : owner r = o
  · have hstays : p r = false := Bool.eq_false_iff.mpr fun h => hp r hr h ho
    rw [hstays, Bool.not_false, Bool.and_true]
  · rw [beq_eq_false_iff_ne.mpr ho, Bool.false_and]

/-- A `DELETE` leaves the rows of the owner if and only if it names none of them. -/
theorem sameFor_delete_iff : SameFor o t (t.delete p) ↔ ∀ r ∈ t, owner r = o → p r = false := by
  constructor
  · intro h
    exact mem_delete_iff_mem.mp fun _ ho => h.mem_iff ho
  · intro h
    refine .delete fun r hr hp ho => ?_
    rw [h r hr ho] at hp
    cases hp

end SameFor

end Table

end Sql
