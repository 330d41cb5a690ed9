import Mathlib.Logic.Function.Basic
import Mathlib.Logic.Relation

/-!
# Chains of links

Each entry has at most one link, to another entry. A chain follows the links; it ends when it
comes to an entry without one. A new link keeps every chain ending unless the chain from its
target comes back to its source.

## Main definitions

* `Chain.Leads` — the chain from one entry comes to another
* `Chain.Ends` — the chain comes to an entry without a link

## Main results

* `Ends.of_removed` — chains still end when links are taken away
* `ends_update_iff` — when they do with a new link
-/

namespace Chain

variable {α : Type} {next next' : α → Option α} {a b c : α}

/-- The chain from `a` comes to `b`. -/
def Leads (next : α → Option α) : α → α → Prop :=
  Relation.ReflTransGen fun a b => next a = some b

/-- The chain from `a` comes to an entry without a link. -/
def Ends (next : α → Option α) (a : α) : Prop := ∃ b, Leads next a b ∧ next b = none

theorem Ends.stop (h : next a = none) : Ends next a := ⟨a, .refl, h⟩

theorem Ends.link (h : next a = some b) (hb : Ends next b) : Ends next a := by
  obtain ⟨c, hchain, hstop⟩ := hb
  exact ⟨c, .head h hchain, hstop⟩

/-- Without a first link there is nowhere to go. -/
theorem Leads.eq_of_stop (hchain : Leads next a b) (hstop : next a = none) : a = b := by
  rcases hchain.cases_head with heq | ⟨c, hlink, -⟩
  · exact heq
  · rw [hstop] at hlink
    cases hlink

/-- The chain goes one way only. -/
theorem Leads.of_link (hchain : Leads next a b) (hlink : next a = some c) (hne : a ≠ b) :
    Leads next c b := by
  rcases hchain.cases_head with heq | ⟨d, hfirst, hrest⟩
  · exact absurd heq hne
  · rw [hlink] at hfirst
    obtain rfl := Option.some.inj hfirst
    exact hrest

/-- Taking links away. -/
theorem Ends.of_removed (hends : Ends next a) (h : ∀ b, next' b = next b ∨ next' b = none) :
    Ends next' a := by
  obtain ⟨b, hchain, hstop⟩ := hends
  induction hchain using Relation.ReflTransGen.head_induction_on with
  | refl =>
    rcases h b with heq | hnone
    · exact .stop (heq.trans hstop)
    · exact .stop hnone
  | head hlink _ ih =>
    rcases h _ with heq | hnone
    · exact .link (heq.trans hlink) ih
    · exact .stop hnone

section Update

variable [DecidableEq α]

/-- A chain that does not come by keeps its links. -/
theorem Ends.update_of_not_leads (hends : Ends next c) (hnot : ¬ Leads next c a) :
    Ends (Function.update next a (some b)) c := by
  obtain ⟨d, hchain, hstop⟩ := hends
  induction hchain using Relation.ReflTransGen.head_induction_on with
  | refl =>
    have hne : d ≠ a := fun heq => hnot (heq ▸ .refl)
    exact .stop ((Function.update_of_ne hne _ _).trans hstop)
  | @head e f hlink _ ih =>
    have hne : e ≠ a := fun heq => hnot (heq ▸ .refl)
    refine .link ((Function.update_of_ne hne _ _).trans hlink) (ih fun hleads => ?_)
    exact hnot (.head hlink hleads)

/-- A chain that does goes on with the new link. -/
theorem Ends.update (hends : Ends next c) (hb : Ends (Function.update next a (some b)) b) :
    Ends (Function.update next a (some b)) c := by
  have hnew : Ends (Function.update next a (some b)) a := .link (Function.update_self _ _ _) hb
  obtain ⟨d, hchain, hstop⟩ := hends
  induction hchain using Relation.ReflTransGen.head_induction_on with
  | refl =>
    by_cases hd : d = a
    · exact hd ▸ hnew
    · exact .stop ((Function.update_of_ne hd _ _).trans hstop)
  | @head e f hlink _ ih =>
    by_cases he : e = a
    · exact he ▸ hnew
    · exact .link ((Function.update_of_ne he _ _).trans hlink) ih

/-- The way to the source of the new link does not use it. -/
theorem Leads.update (hchain : Leads next c a) : Leads (Function.update next a (some b)) c a := by
  induction hchain using Relation.ReflTransGen.head_induction_on with
  | refl => exact .refl
  | @head e f hlink _ ih =>
    by_cases he : e = a
    · exact he ▸ .refl
    · exact .head ((Function.update_of_ne he _ _).trans hlink) ih

/-- From an entry on a cycle, the chain stays on it. -/
theorem not_ends_of_cycle (hlink : next a = some b) (hback : Leads next b a) : ¬ Ends next a := by
  rintro ⟨c, hchain, hstop⟩
  have hreturns : Leads next c a := by
    clear hstop
    induction hchain with
    | refl => exact .refl
    | @tail d e _ hde ih =>
      by_cases hd : d = a
      · rw [hd, hlink] at hde
        obtain rfl := Option.some.inj hde
        exact hback
      · exact ih.of_link hde hd
  rw [← hreturns.eq_of_stop hstop, hstop] at hlink
  cases hlink

/-- With a new link every chain still ends if and only if its target does not lead back. -/
theorem ends_update_iff (h : ∀ c, Ends next c) :
    (∀ c, Ends (Function.update next a (some b)) c) ↔ ¬ Leads next b a := by
  constructor
  · intro hends hback
    exact not_ends_of_cycle (Function.update_self _ _ _) hback.update (hends a)
  · intro hnot c
    exact (h c).update ((h b).update_of_not_leads hnot)

end Update

end Chain
