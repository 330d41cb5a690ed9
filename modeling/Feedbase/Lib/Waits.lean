import Feedbase.Lib.Pool
import Mathlib.Data.List.Perm.Subperm

/-!
# Calls that wait for each other

`Follows` says what a call does when it acts, and nothing about when it can. `Paced` adds the
second half: in each phase, a call has to wait in the states of `W` only. So when no call of a
pool can act, every call in flight waits for a reason that its phase names, and an invariant
about the phases tells who holds up whom.

The calls of a pool are told apart by what they hold: a connection, a lock, a row id. A counter
hands such ids out, and `Handles` says that no two calls hold the same one.

## Main definitions

* `Paced` — the transitions of a program, phase by phase, and when it waits
* `Handles` — ids below a counter, each held at most once

## Main results

* `Paced.bind`, `Paced.catching`, `Paced.step` — the rules
* `Paced.inv_of_run` — invariants of runs
* `Paced.waits_of_stuck` — a pool in which nobody can act
* `Handles.inFlight_le` — how many calls can be in flight when each holds one of some ids
-/

variable {σ ε α β ρ η Φ : Type}

/-- Every action of the program is a transition of `T` from its current phase, it waits in the
states of `W` only, and the program ends in a phase that meets `post`. -/
def Paced (W : Φ → σ → Prop) (T : Φ → σ → Φ → σ → Prop) (post : Φ → Except ε α → Prop) :
    Φ → Prog σ ε α → Prop
  | φ, .ret a => post φ (.ok a)
  | φ, .fail e => post φ (.error e)
  | φ, .act ready next cont => ∀ s, (ready s = false → W φ s) ∧
      (ready s = true → ∃ φ', T φ s φ' (next s) ∧ Paced W T post φ' (cont s))

/-- What holds when a program returns, and what when it throws. -/
def Outcome (ok : Φ → α → Prop) (bad : Φ → Prop) : Φ → Except ε α → Prop
  | φ, .ok a => ok φ a
  | φ, .error _ => bad φ

@[simp] theorem outcome_ok {ok : Φ → α → Prop} {bad : Φ → Prop} {φ : Φ} {a : α} :
    Outcome ok bad φ (.ok a : Except ε α) ↔ ok φ a := Iff.rfl

namespace Paced

variable {W : Φ → σ → Prop} {T : Φ → σ → Φ → σ → Prop} {post : Φ → Except ε α → Prop} {φ : Φ}

theorem ret {a : α} (h : post φ (.ok a)) : Paced W T post φ (pure a : Prog σ ε α) := h

theorem throw {e : ε} (h : post φ (.error e)) :
    Paced W T post φ (MonadExcept.throw e : Prog σ ε α) := h

/-- Sequential composition: the second part starts in any phase the first returns in. -/
theorem bind {post' : Φ → Except ε β → Prop} {p : Prog σ ε α} {f : α → Prog σ ε β}
    (hp : Paced W T post φ p) (hok : ∀ φ a, post φ (.ok a) → Paced W T post' φ (f a))
    (herr : ∀ φ e, post φ (.error e) → post' φ (.error e)) : Paced W T post' φ (p >>= f) := by
  rw [Prog.bind_eq]
  induction p generalizing φ with
  | ret a => exact hok φ a hp
  | fail e => exact herr φ e hp
  | act ready next cont ih =>
    intro s
    refine ⟨(hp s).1, fun hready => ?_⟩
    obtain ⟨φ', hT, hcont⟩ := (hp s).2 hready
    exact ⟨φ', hT, ih s hcont⟩

/-- The handler of an exception starts in any phase the body throws in. -/
theorem catching {post' : Φ → Except ε α → Prop} {p : Prog σ ε α} {h : ε → Prog σ ε α}
    (hp : Paced W T post φ p) (hok : ∀ φ a, post φ (.ok a) → post' φ (.ok a))
    (herr : ∀ φ e, post φ (.error e) → Paced W T post' φ (h e)) :
    Paced W T post' φ (tryCatch p h) := by
  rw [Prog.tryCatch_eq]
  induction p generalizing φ with
  | ret a => exact hok φ a hp
  | fail e => exact herr φ e hp
  | act ready next cont ih =>
    intro s
    refine ⟨(hp s).1, fun hready => ?_⟩
    obtain ⟨φ', hT, hcont⟩ := (hp s).2 hready
    exact ⟨φ', hT, ih s hcont⟩

theorem mono {post' : Φ → Except ε α → Prop} {p : Prog σ ε α} (hp : Paced W T post φ p)
    (h : ∀ φ r, post φ r → post' φ r) : Paced W T post' φ p := by
  induction p generalizing φ with
  | ret a => exact h φ _ hp
  | fail e => exact h φ _ hp
  | act ready next cont ih =>
    intro s
    refine ⟨(hp s).1, fun hready => ?_⟩
    obtain ⟨φ', hT, hcont⟩ := (hp s).2 hready
    exact ⟨φ', hT, ih s hcont⟩

/-- One action. -/
theorem step {ready : σ → Bool} {f : σ → Except ε α × σ} (hwait : ∀ s, ready s = false → W φ s)
    (h : ∀ s, ready s = true → ∃ φ', T φ s φ' (f s).2 ∧ post φ' (f s).1) :
    Paced W T post φ (Prog.step ready f) := by
  intro s
  refine ⟨hwait s, fun hready => ?_⟩
  obtain ⟨φ', hT, hpost⟩ := h s hready
  refine ⟨φ', hT, ?_⟩
  change Paced W T post φ' (Prog.ofExcept (f s).1)
  generalize (f s).1 = r at hpost ⊢
  cases r with
  | ok a => exact hpost
  | error e => exact hpost

/-- One part after the other for each entry of a list: `I` says where the program stands when a
rest of the list is left. -/
theorem forM {γ : Type} {f : γ → Prog σ ε PUnit} {I : List γ → Φ → Prop} {bad : Φ → Prop}
    (hf : ∀ x l φ, I (x :: l) φ → Paced W T (Outcome (fun φ' _ => I l φ') bad) φ (f x))
    {l : List γ} (h : I l φ) : Paced W T (Outcome (fun φ' _ => I [] φ') bad) φ (l.forM f) := by
  induction l generalizing φ with
  | nil => exact ret h
  | cons x l ih =>
    change Paced W T _ φ (f x >>= fun _ => l.forM f)
    exact bind (hf x l φ h) (fun φ' _ hI => ih hI) fun _ _ hbad => hbad

variable {S : System σ ε α ρ η} {P Q : Pool σ ε α ρ} {phases : List Φ} {start : ρ → σ → Φ}

/-- The phase of a finished call meets the postcondition. -/
theorem post_of_outcome {c : Call σ ε α ρ} {r : Except ε α} (h : Paced W T post φ c.prog)
    (hr : c.outcome = some r) : post φ r := by
  obtain ⟨req, since, prog⟩ := c
  cases prog <;> cases hr <;> exact h

/-- The induction over runs: what an arrival, a step of the environment and a transition of one
call preserve holds after every run. -/
theorem inv_of_run {ok : Pool σ ε α ρ → Pool σ ε α ρ → Prop} {I : Pool σ ε α ρ → List Φ → Prop}
    (hstart : ∀ r s, Paced W T post (start r s) (S.handler r)) {s₀ : σ} (hinit : I ⟨s₀, []⟩ [])
    (harrive : ∀ (P : Pool σ ε α ρ) phases r, P.calls.length = phases.length → I P phases →
      I { P with calls := P.calls ++ [⟨r, P.state, S.handler r⟩] } (phases ++ [start r P.state]))
    (henv : ∀ (P : Pool σ ε α ρ) phases e, ok P { P with state := S.env e P.state } →
      List.Forall₂ (fun c φ => Paced W T post φ c.prog) P.calls phases →
      I P phases → I { P with state := S.env e P.state } phases)
    (hrun : ∀ (P Q : Pool σ ε α ρ) phases i c φ φ' prog, ok P Q → P.calls[i]? = some c →
      phases[i]? = some φ → T φ P.state φ' Q.state →
      Q.calls = P.calls.set i { c with prog := prog } → I P phases → I Q (phases.set i φ'))
    (h : S.Run ok ⟨s₀, []⟩ Q) :
    ∃ phases, List.Forall₂ (fun c φ => Paced W T post φ c.prog) Q.calls phases ∧ I Q phases := by
  induction h with
  | refl => exact ⟨[], .nil, hinit⟩
  | @tail R R' _ hstep ih =>
    obtain ⟨phases, hpaced, hinv⟩ := ih
    obtain ⟨⟨m, hm⟩, hok⟩ := hstep
    rcases System.move_eq hm with
      ⟨r, -, rfl⟩ | ⟨e, -, rfl⟩ | ⟨i, c, ready, next, cont, -, hc, hprog, hready, rfl⟩
    · exact ⟨_, List.rel_append hpaced (.cons (hstart r _) .nil),
        harrive R phases r hpaced.length_eq hinv⟩
    · exact ⟨phases, hpaced, henv R phases e hok hpaced hinv⟩
    · obtain ⟨φ, hφ, hcall⟩ := forall₂_getElem? hpaced hc
      rw [hprog] at hcall
      obtain ⟨φ', hT, hcont⟩ := (hcall R.state).2 hready
      exact ⟨_, forall₂_set hpaced hcont, hrun R _ phases i c φ φ' _ hok hc hφ hT rfl hinv⟩

/-- When nobody can act, everybody in flight waits. -/
theorem waits_of_stuck (hpaced : List.Forall₂ (fun c φ => Paced W T post φ c.prog) P.calls phases)
    (hstuck : ∀ i, S.move P (.run i) = none) {i : Nat} {c : Call σ ε α ρ} {φ : Φ}
    (hc : P.calls[i]? = some c) (hφ : phases[i]? = some φ) (hout : c.outcome = none) :
    W φ P.state := by
  obtain ⟨φ', hφ', hcall⟩ := forall₂_getElem? hpaced hc
  obtain rfl : φ' = φ := Option.some.inj (hφ'.symm.trans hφ)
  cases hprog : c.prog with
  | ret a => simp [Call.outcome, hprog] at hout
  | fail e => simp [Call.outcome, hprog] at hout
  | act ready next cont =>
    rw [hprog] at hcall
    by_contra hW
    have hready : ready P.state = true := by
      by_contra hwait
      exact hW ((hcall P.state).1 (by simpa using hwait))
    have hmove := System.move_run (S := S) hc hprog hready
    rw [hstuck i] at hmove
    cases hmove

end Paced

/-! ### Ids that a counter hands out -/

/-- What the phases hold are ids below `n`, each of them held once. -/
structure Handles (f : Φ → Option Nat) (n : Nat) (phases : List Φ) : Prop where
  below : ∀ (i : Nat) φ c, phases[i]? = some φ → f φ = some c → c < n
  once : ∀ (i j : Nat) φ ψ c, phases[i]? = some φ → phases[j]? = some ψ → f φ = some c →
    f ψ = some c → i = j

namespace Handles

variable {f : Φ → Option Nat} {n : Nat} {phases : List Φ} {φ φ' : Φ} {i : Nat}

theorem nil : Handles f n [] :=
  ⟨fun _ _ _ h => by simp at h, fun _ _ _ _ _ h => by simp at h⟩

/-- A call that holds nothing arrives. -/
theorem concat (h : Handles f n phases) (hφ : f φ = none) : Handles f n (phases ++ [φ]) := by
  have hold : ∀ {j : Nat} {ψ : Φ} {c : Nat}, (phases ++ [φ])[j]? = some ψ → f ψ = some c →
      phases[j]? = some ψ := by
    intro j ψ c hψ hc
    rcases getElem?_concat_cases hψ with hψ | ⟨-, rfl⟩
    · exact hψ
    · rw [hφ] at hc
      cases hc
  exact ⟨fun j ψ c hψ hc => h.below j ψ c (hold hψ hc) hc,
    fun j k ψ χ c hψ hχ hc hc' => h.once j k ψ χ c (hold hψ hc) (hold hχ hc') hc hc'⟩

/-- A call goes on with what it holds, or gives it back. -/
theorem set (h : Handles f n phases) (hφ : phases[i]? = some φ)
    (hkeep : f φ' = f φ ∨ f φ' = none) : Handles f n (phases.set i φ') := by
  have hold : ∀ {j : Nat} {ψ : Φ} {c : Nat}, (phases.set i φ')[j]? = some ψ → f ψ = some c →
      ∃ χ, phases[j]? = some χ ∧ f χ = some c := by
    intro j ψ c hψ hc
    rcases getElem?_set_cases hψ with ⟨rfl, rfl⟩ | ⟨-, hψ⟩
    · rcases hkeep with hsame | hnone
      · exact ⟨φ, hφ, hsame ▸ hc⟩
      · rw [hnone] at hc
        cases hc
    · exact ⟨ψ, hψ, hc⟩
  constructor
  · intro j ψ c hψ hc
    obtain ⟨χ, hχ, hc⟩ := hold hψ hc
    exact h.below j χ c hχ hc
  · intro j k ψ ψ' c hψ hψ' hc hc'
    obtain ⟨χ, hχ, hc⟩ := hold hψ hc
    obtain ⟨χ', hχ', hc'⟩ := hold hψ' hc'
    exact h.once j k χ χ' c hχ hχ' hc hc'

/-- A call gets the next id. -/
theorem set_next (h : Handles f n phases) (hφ : phases[i]? = some φ) (hnew : f φ' = some n) :
    Handles f (n + 1) (phases.set i φ') := by
  have hcases : ∀ {j : Nat} {ψ : Φ} {c : Nat}, (phases.set i φ')[j]? = some ψ → f ψ = some c →
      (j = i ∧ c = n) ∨ (phases[j]? = some ψ ∧ c < n) := by
    intro j ψ c hψ hc
    rcases getElem?_set_cases hψ with ⟨rfl, rfl⟩ | ⟨-, hψ⟩
    · exact .inl ⟨rfl, Option.some.inj (hc.symm.trans hnew)⟩
    · exact .inr ⟨hψ, h.below j ψ c hψ hc⟩
  constructor
  · intro j ψ c hψ hc
    rcases hcases hψ hc with ⟨-, rfl⟩ | ⟨-, hlt⟩ <;> omega
  · intro j k ψ χ c hψ hχ hc hc'
    rcases hcases hψ hc with ⟨rfl, hn⟩ | ⟨hψ, hlt⟩ <;>
      rcases hcases hχ hc' with ⟨rfl, hn'⟩ | ⟨hχ, hlt'⟩
    · rfl
    · omega
    · omega
    · exact h.once j k ψ χ c hψ hχ hc hc'

theorem nodup (h : Handles f n phases) : (phases.filterMap f).Nodup := by
  rw [List.Nodup, List.pairwise_filterMap, List.pairwise_iff_getElem]
  intro i j hi hj hlt c hc c' hc' heq
  subst heq
  have hsame := h.once i j _ _ c (List.getElem?_eq_getElem hi) (List.getElem?_eq_getElem hj) hc hc'
  omega

end Handles

theorem countP_le_length_filterMap {γ δ κ : Type} {p : γ → Bool} {f : δ → Option κ} {l : List γ}
    {m : List δ} (h : List.Forall₂ (fun a b => p a = true → (f b).isSome = true) l m) :
    l.countP p ≤ (m.filterMap f).length := by
  induction h with
  | nil => exact Nat.le_refl _
  | @cons a b l m hab _ ih =>
    rw [List.countP_cons]
    cases hb : f b with
    | none =>
      have hp : p a = false := by
        by_contra hp
        simpa [hb] using hab (by simpa using hp)
      simpa [List.filterMap_cons_none hb, hp] using ih
    | some c =>
      rw [List.filterMap_cons_some hb, List.length_cons]
      split <;> omega

/-- When every call in flight holds one of the `ids`, there are no more of them than ids. -/
theorem Handles.inFlight_le {f : Φ → Option Nat} {n : Nat} {phases : List Φ}
    {P : Pool σ ε α ρ} {ids : List Nat} (h : Handles f n phases)
    (hlength : P.calls.length = phases.length)
    (hsome : ∀ (i : Nat) c φ, P.calls[i]? = some c → phases[i]? = some φ → c.outcome = none →
      (f φ).isSome = true)
    (hids : ∀ φ ∈ phases, ∀ x, f φ = some x → x ∈ ids) : P.inFlight ≤ ids.length := by
  have hforall : List.Forall₂ (fun (c : Call σ ε α ρ) φ =>
      c.outcome.isNone = true → (f φ).isSome = true) P.calls phases := by
    rw [List.forall₂_iff_get]
    refine ⟨hlength, fun i hi hi' hout => ?_⟩
    exact hsome i _ _ (List.getElem?_eq_getElem hi) (List.getElem?_eq_getElem hi')
      (Option.isNone_iff_eq_none.mp hout)
  have hsub : (phases.filterMap f).Subperm ids := by
    refine h.nodup.subperm fun x hx => ?_
    obtain ⟨φ, hφ, hx⟩ := List.mem_filterMap.mp hx
    exact hids φ hφ x hx
  exact Nat.le_trans (countP_le_length_filterMap hforall) hsub.length_le
