import Feedbase.Lib.Pool

/-!
# Calls that rely on each other

Between two actions of a call any other call may act. What a call has read before is of use
later only if nothing that the others do makes it false. So the calls agree on terms: an
invariant, what everybody may count on between two actions, and what each request promises of
its own. `Acts` says that a program keeps the promise as long as the terms are kept, and what
is known when it returns. It is checked on one handler at a time; `Terms.move_cases` puts the
handlers together.

## Main definitions

* `Terms` — invariant, rely and promise
* `Acts` — a program keeps its promise
* `Terms.Kept` — a pool all of whose calls do

## Main results

* `Acts.bind`, `Acts.catching`, `Acts.atomic`, `Acts.of_within` — the rules
* `Acts.inv_exec` — a call that runs alone
* `Terms.move_cases` — one move of a pool
-/

variable {σ ε α β ρ η : Type}

/-- Once true, the assertion stays true whatever `R` does. -/
def Lasts (R : σ → σ → Prop) (K : σ → Prop) : Prop := ∀ s t, R s t → K s → K t

theorem Lasts.true {R : σ → σ → Prop} : Lasts R fun _ => True := fun _ _ _ h => h

theorem Lasts.and {R : σ → σ → Prop} {K J : σ → Prop} (hK : Lasts R K) (hJ : Lasts R J) :
    Lasts R fun s => K s ∧ J s := fun s t hR h => ⟨hK s t hR h.1, hJ s t hR h.2⟩

/-- What holds of all states, what everybody may count on, and what a request promises. -/
structure Terms (ρ σ : Type) where
  inv : σ → Prop
  rely : σ → σ → Prop
  promise : ρ → σ → σ → Prop
  refl : ∀ r s, inv s → promise r s s
  keeps : ∀ r s t, inv s → promise r s t → inv t ∧ rely s t

/-- One action of a call, with what is known before it and after it. -/
def Terms.Action (C : Terms ρ σ) (r : ρ) (K : σ → Prop) (s : σ) (K' : σ → Prop) (t : σ) : Prop :=
  Lasts C.rely K' ∧ (C.inv s → K s → C.promise r s t ∧ K' t)

/-- Where `K` is known, every action of the program is one that the request promises, and where
it returns, `J` of what it returns is known. -/
def Acts (C : Terms ρ σ) (r : ρ) (K : σ → Prop) (p : Prog σ ε α) (J : α → σ → Prop) : Prop :=
  Follows (C.Action r) (fun K x => ∀ a, x = .ok a → ∀ s, K s → J a s) K p

namespace Acts

variable {C : Terms ρ σ} {r : ρ} {K K' : σ → Prop} {p : Prog σ ε α} {J J' : α → σ → Prop}

theorem ret {a : α} (h : ∀ s, K s → J a s) : Acts C r K (pure a : Prog σ ε α) J := by
  rintro _ ⟨⟩
  exact h

theorem fail (e : ε) : Acts C r K (throw e : Prog σ ε α) J := fun _ h => by cases h

/-- Knowing more does no harm. -/
theorem weaken (hp : Acts C r K p J) (h : ∀ s, K' s → K s) : Acts C r K' p J := by
  cases p with
  | ret a => exact fun a' ha s hs => hp a' ha s (h s hs)
  | fail e => exact fun _ ha => by cases ha
  | act ready next cont =>
    intro s hs
    obtain ⟨K₁, ⟨hlasts, haction⟩, hcont⟩ := hp s hs
    exact ⟨K₁, ⟨hlasts, fun hinv hK => haction hinv (h s hK)⟩, hcont⟩

/-- Sequential composition: the second part starts with what the first part returns. -/
theorem bind {f : α → Prog σ ε β} {J' : β → σ → Prop} (hp : Acts C r K p J)
    (hf : ∀ a, Acts C r (J a) (f a) J') : Acts C r K (p >>= f) J' :=
  Follows.bind hp (fun _ a hJ => (hf a).weaken (hJ a rfl)) fun _ _ _ _ h => by cases h

/-- The handler of an exception starts with nothing. -/
theorem catching {h : ε → Prog σ ε α} (hp : Acts C r K p J)
    (hh : ∀ e, Acts C r (fun _ => True) (h e) J) : Acts C r K (tryCatch p h) J :=
  Follows.catching hp (fun _ _ hJ => hJ) fun _ e _ => (hh e).weaken fun _ _ => trivial

/-- One atomic action. -/
theorem atomic {f : σ → Except ε α × σ} (hlasts : ∀ a, Lasts C.rely (J a))
    (h : ∀ s, C.inv s → K s →
      C.promise r s (f s).2 ∧ ∀ a, (f s).1 = .ok a → J a (f s).2) :
    Acts C r K (Prog.atomic f) J := by
  refine Follows.step fun s _ => ⟨fun t => ∀ a, (f s).1 = .ok a → J a t, ⟨?_, h s⟩, ?_⟩
  · exact fun t u hrely hJ a ha => hlasts a t u hrely (hJ a ha)
  · exact fun a ha t hJ => hJ a ha

/-- An action that throws where `f` finds nothing to do. -/
theorem attempt {e : ε} {f : σ → Option (α × σ)} (hlasts : ∀ a, Lasts C.rely (J a))
    (h : ∀ s a t, C.inv s → K s → f s = some (a, t) → C.promise r s t ∧ J a t) :
    Acts C r K (Prog.attempt e f) J := by
  refine atomic hlasts fun s hinv hK => ?_
  cases hf : f s with
  | none => exact ⟨C.refl r s hinv, fun _ h => by cases h⟩
  | some x =>
    obtain ⟨hpromise, hJ⟩ := h s x.1 x.2 hinv hK hf
    refine ⟨hpromise, fun a ha => ?_⟩
    cases ha
    exact hJ

theorem read {f : σ → α} (hlasts : ∀ a, Lasts C.rely (J a))
    (h : ∀ s, C.inv s → K s → J (f s) s) : Acts C r K (Prog.read f : Prog σ ε α) J := by
  refine atomic hlasts fun s hinv hK => ⟨C.refl r s hinv, fun a ha => ?_⟩
  cases ha
  exact h s hinv hK

/-- A program that needs to know nothing, and learns nothing. -/
theorem of_within (hK : Lasts C.rely K)
    (hp : Prog.Within (fun s t => C.inv s → C.promise r s t) p) : Acts C r K p fun _ => K := by
  induction p with
  | ret a => exact fun _ _ _ hs => hs
  | fail e => exact fun _ _ _ hs => hs
  | act ready next cont ih =>
    intro s _
    obtain ⟨hpromise, hcont⟩ := hp s
    exact ⟨K, ⟨hK, fun hinv hs =>
      ⟨hpromise hinv, hK s _ (C.keeps r s _ hinv (hpromise hinv)).2 hs⟩⟩, ih s hcont⟩

/-- A program that only reads. -/
theorem of_reads (hK : Lasts C.rely K) (hp : Prog.Reads p) : Acts C r K p fun _ => K :=
  of_within hK (hp.mono fun s _ heq hinv => heq ▸ C.refl r s hinv)

theorem ite {c : Prop} [Decidable c] {q : Prog σ ε α} (hp : c → Acts C r K p J)
    (hq : ¬ c → Acts C r K q J) : Acts C r K (if c then p else q) J := by
  split
  · exact hp ‹_›
  · exact hq ‹_›

end Acts

/-- A call that runs alone. -/
theorem Acts.inv_exec {C : Terms ρ σ} {r : ρ} {K : σ → Prop} {p : Prog σ ε α} {J : α → σ → Prop}
    (hp : Acts C r K p J) (hready : p.NeverWaits) {s : σ} (hinv : C.inv s) (hK : K s) :
    C.inv (p.exec s).2 := by
  induction p generalizing K s with
  | ret a => exact hinv
  | fail e => exact hinv
  | act ready next cont ih =>
    obtain ⟨hnow, hlater⟩ := hready s
    obtain ⟨K', ⟨-, haction⟩, hcont⟩ := hp s hnow
    obtain ⟨hpromise, hK'⟩ := haction hinv hK
    exact ih s hcont hlater (C.keeps r s (next s) hinv hpromise).1 hK'

/-- The terms of requests that act on behalf of others. -/
def Terms.comap {ρ' : Type} (C : Terms ρ σ) (f : ρ' → ρ) : Terms ρ' σ where
  inv := C.inv
  rely := C.rely
  promise r := C.promise (f r)
  refl r := C.refl (f r)
  keeps r := C.keeps (f r)

/-! ### Pools -/

namespace Terms

variable {C : Terms ρ σ} {S : System σ ε α ρ η} {P Q : Pool σ ε α ρ}

/-- The call is in a place where it knows enough for the rest of what it does. -/
def Underway (C : Terms ρ σ) (s : σ) (c : Call σ ε α ρ) : Prop :=
  ∃ K, Lasts C.rely K ∧ K s ∧ Acts C c.request K c.prog fun _ _ => True

/-- The invariant holds, and every call can go on. -/
structure Kept (C : Terms ρ σ) (P : Pool σ ε α ρ) : Prop where
  inv : C.inv P.state
  calls : ∀ c ∈ P.calls, C.Underway P.state c

theorem Underway.later {s t : σ} {c : Call σ ε α ρ} (h : C.Underway s c) (hrely : C.rely s t) :
    C.Underway t c := by
  obtain ⟨K, hlasts, hK, hacts⟩ := h
  exact ⟨K, hlasts, hlasts s t hrely hK, hacts⟩

theorem Kept.start {s : σ} (h : C.inv s) : C.Kept (⟨s, []⟩ : Pool σ ε α ρ) :=
  ⟨h, fun _ hc => absurd hc List.not_mem_nil⟩

/-- One move: nothing changes, the environment acts, or a call does what its request promises. -/
theorem move_cases (K₀ : ρ → σ → Prop)
    (hhandler : ∀ r, Acts C r (K₀ r) (S.handler r) fun _ _ => True)
    (hlasts : ∀ r, Lasts C.rely (K₀ r))
    (henv : ∀ e s, C.inv s → C.inv (S.env e s) ∧ C.rely s (S.env e s)) (hP : C.Kept P)
    {m : Move ρ η} (hm : S.move P m = some Q) (hstart : ∀ c ∈ Q.calls, K₀ c.request c.since) :
    C.Kept Q ∧ (Q.state = P.state ∨ (∃ e, Q.state = S.env e P.state) ∨
      ∃ c ∈ P.calls, c.outcome = none ∧ C.promise c.request P.state Q.state) := by
  rcases System.move_eq hm with
    ⟨r, -, rfl⟩ | ⟨e, -, rfl⟩ | ⟨i, c, ready, next, cont, -, hc, hprog, hready, rfl⟩
  · refine ⟨⟨hP.inv, fun c hc => ?_⟩, .inl rfl⟩
    have hnew := hstart c hc
    rcases List.mem_append.mp hc with hold | hc
    · exact hP.calls c hold
    · -- the call that comes in starts with what its request promises
      rw [List.mem_singleton.mp hc] at hnew ⊢
      exact ⟨K₀ r, hlasts r, hnew, hhandler r⟩
  · obtain ⟨hinv, hrely⟩ := henv e P.state hP.inv
    exact ⟨⟨hinv, fun c hc => (hP.calls c hc).later hrely⟩, .inr (.inl ⟨e, rfl⟩)⟩
  · have hmem : c ∈ P.calls := List.mem_of_getElem? hc
    obtain ⟨K, -, hK, hacts⟩ := hP.calls c hmem
    rw [hprog] at hacts
    obtain ⟨K', ⟨hlasts', haction⟩, hcont⟩ := hacts P.state hready
    obtain ⟨hpromise, hK'⟩ := haction hP.inv hK
    obtain ⟨hinv, hrely⟩ := C.keeps _ _ _ hP.inv hpromise
    have houtcome : c.outcome = none := by
      unfold Call.outcome
      rw [hprog]
    refine ⟨⟨hinv, fun d hd => ?_⟩, .inr (.inr ⟨c, hmem, houtcome, hpromise⟩)⟩
    rcases List.mem_or_eq_of_mem_set hd with hd | rfl
    · -- the others keep what they know, and this one knows what its statement has left
      exact (hP.calls d hd).later hrely
    · exact ⟨K', hlasts', hK', hcont⟩

end Terms
