import Mathlib.Data.List.Basic
import Mathlib.Logic.Function.Iterate

/-!
# The closure of a set of rows

A finite list, a predicate that holds of the seeds, and a relation that leads from one
entry to the next. `reach` grows the seeds once for every entry of the list; by then
nothing is left to add, since each round that is not the last adds an entry.

## Main definitions

* `Reached` — the least predicate that holds of the seeds and is kept by the relation
* `grow`, `reach`

## Main results

* `reach_iff` — `reach` computes `Reached`
* `reached_map` — renaming the entries
* `reached_or_iff` — two sets of seeds, one after the other
-/

namespace Closure

variable {α β : Type} {l : List α} {next : α → α → Bool} {seed S : α → Bool} {a b : α} {n : Nat}

/-- What the seeds lead to through entries of the list. -/
inductive Reached (l : List α) (next : α → α → Bool) (seed : α → Bool) : α → Prop where
  | seed {b : α} (h : seed b = true) : Reached l next seed b
  | step {a b : α} (ha : a ∈ l) (hreached : Reached l next seed a) (h : next a b = true) :
    Reached l next seed b

/-- One round. -/
def grow (l : List α) (next : α → α → Bool) (S : α → Bool) : α → Bool :=
  fun b => S b || l.any fun a => S a && next a b

/-- As many rounds as the list has entries. -/
def reach (l : List α) (next : α → α → Bool) (seed : α → Bool) : α → Bool :=
  (grow l next)^[l.length] seed

theorem grow_iff : grow l next S b = true ↔ S b = true ∨ ∃ a ∈ l, S a = true ∧ next a b = true := by
  simp [grow]

theorem le_iterate (h : seed b = true) : (grow l next)^[n] seed b = true := by
  induction n with
  | zero => exact h
  | succ n ih =>
    rw [Function.iterate_succ_apply']
    exact grow_iff.mpr (.inl ih)

/-- No round adds anything but what is reached. -/
theorem reached_of_iterate (h : (grow l next)^[n] seed b = true) : Reached l next seed b := by
  induction n generalizing b with
  | zero => exact .seed h
  | succ n ih =>
    rw [Function.iterate_succ_apply'] at h
    rcases grow_iff.mp h with h | ⟨a, ha, h, hab⟩
    · exact ih h
    · exact .step ha (ih h) hab

/-- A further round adds no entry of the list. -/
def Stable (l : List α) (next : α → α → Bool) (S : α → Bool) : Prop :=
  ∀ b ∈ l, grow l next S b = true → S b = true

theorem Stable.of_reached (h : Stable l next S) (hseed : ∀ b, seed b = true → S b = true)
    (hb : b ∈ l) (hreached : Reached l next seed b) : S b = true := by
  induction hreached with
  | seed h => exact hseed _ h
  | step ha _ hab ih => exact h _ hb (grow_iff.mpr (.inr ⟨_, ha, ih ha, hab⟩))

theorem Stable.grow (h : Stable l next S) : Stable l next (grow l next S) := by
  intro b hb hgrow
  rcases grow_iff.mp hgrow with hb | ⟨a, ha, hS, hab⟩
  · exact hb
  · exact grow_iff.mpr (.inr ⟨a, ha, h a ha hS, hab⟩)

/-- A round that is not stable adds an entry. -/
theorem countP_lt_grow (h : ¬ Stable l next S) : l.countP S < l.countP (grow l next S) := by
  have hle : ∀ b ∈ l, S b = true → grow l next S b = true := fun b _ hb => grow_iff.mpr (.inl hb)
  refine Nat.lt_of_le_of_ne (List.countP_mono_left hle) fun heq => h fun b hb hgrow => ?_
  by_contra hS
  have hsplit := List.countP_eq_countP_filter_add l (grow l next S) S
  rw [List.countP_filter, List.countP_filter] at hsplit
  have hold : l.countP (fun b => grow l next S b && S b) = l.countP S := by
    refine List.countP_congr fun b hb => ?_
    simp only [Bool.and_eq_true, and_iff_right_iff_imp]
    exact hle b hb
  have hnew : 0 < l.countP fun b => grow l next S b && !S b :=
    List.countP_pos_iff.mpr ⟨b, hb, by simp [hgrow, hS]⟩
  omega

/-- After `n` rounds nothing is left to add, or `n` entries have been added. -/
theorem stable_or_le (l : List α) (next : α → α → Bool) (seed : α → Bool) (n : Nat) :
    Stable l next ((grow l next)^[n] seed) ∨ n ≤ l.countP ((grow l next)^[n] seed) := by
  induction n with
  | zero => exact .inr (Nat.zero_le _)
  | succ n ih =>
    rw [Function.iterate_succ_apply']
    by_cases hstable : Stable l next ((grow l next)^[n] seed)
    · exact .inl hstable.grow
    · have hle := ih.resolve_left hstable
      have hlt := countP_lt_grow hstable
      right
      omega

theorem stable_reach (l : List α) (next : α → α → Bool) (seed : α → Bool) :
    Stable l next (reach l next seed) := by
  rcases stable_or_le l next seed l.length with h | h
  · exact h
  · have hall := List.countP_eq_length.mp (Nat.le_antisymm List.countP_le_length h)
    exact fun b hb _ => hall b hb

/-- `reach` computes what is reached. -/
theorem reach_iff (hb : b ∈ l) : reach l next seed b = true ↔ Reached l next seed b :=
  ⟨reached_of_iterate, (stable_reach l next seed).of_reached (fun _ => le_iterate) hb⟩

/-! ### Renaming, and seeds in two rounds -/

theorem reached_map {f : α → β} {next' : β → β → Bool} {seed' : β → Bool}
    (hnext : ∀ a b, next' (f a) (f b) = next a b) (hseed : ∀ a, seed' (f a) = seed a) :
    Reached (l.map f) next' seed' (f b) ↔ Reached l next seed b := by
  constructor
  · intro h
    generalize hx : f b = x at h
    induction h generalizing b with
    | seed h =>
      subst hx
      exact .seed (hseed b ▸ h)
    | step ha _ hab ih =>
      subst hx
      obtain ⟨a, hmem, rfl⟩ := List.mem_map.mp ha
      exact .step hmem (ih rfl) (hnext a b ▸ hab)
  · intro h
    induction h with
    | seed h => exact .seed (hseed _ ▸ h)
    | step ha _ hab ih => exact .step (List.mem_map_of_mem ha) ih (hnext _ _ ▸ hab)

theorem Reached.mono {seed' : α → Bool} {l' : List α} (h : Reached l next seed b)
    (hl : ∀ a ∈ l, a ∈ l') (hseed : ∀ a, seed a = true → seed' a = true) :
    Reached l' next seed' b := by
  induction h with
  | seed h => exact .seed (hseed _ h)
  | step ha _ hab ih => exact .step (hl _ ha) ih hab

/-- The first seeds and what they lead to are removed before the second ones grow. -/
theorem reached_or_iff {seed' gone : α → Bool}
    (hgone : ∀ a ∈ l, gone a = true ↔ Reached l next seed a) :
    Reached l next (fun a => seed a || seed' a) b ↔
      Reached l next seed b ∨ Reached (l.filter fun a => !gone a) next seed' b := by
  constructor
  · intro h
    induction h with
    | seed h => exact (Bool.or_eq_true_iff.mp h).imp .seed .seed
    | @step a b ha _ hab ih =>
      by_cases hfirst : gone a = true
      · exact .inl (.step ha ((hgone a ha).mp hfirst) hab)
      · rcases ih with ih | ih
        · exact absurd ((hgone a ha).mpr ih) hfirst
        · exact .inr (.step (List.mem_filter.mpr ⟨ha, by simpa using hfirst⟩) ih hab)
  · rintro (h | h)
    · exact h.mono (fun _ ha => ha) fun a ha => by simp [ha]
    · exact h.mono (fun _ ha => List.mem_of_mem_filter ha) fun a ha => by simp [ha]

end Closure
