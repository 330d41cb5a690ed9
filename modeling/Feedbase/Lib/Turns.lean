import Feedbase.Lib.Pool
import Mathlib.Order.WellFounded

/-!
# Calls under way, and invariants of tracked runs

A call is under way from its first action until it returns or throws. Two calls that
must not interfere take turns when at most one of them is under way at a time.

`Tracks.inv_of_run` is the induction every result about interleavings uses: a property
of the pool and of the phases of its calls that each kind of move preserves holds after
every run, and a call whose phase is no longer the one it started in is under way.

## Main definitions

* `Prog.Rest` — what is left of a program after one or more of its actions
* `System.UnderWay`
* `Tracks.Knows` — a property of each call's request, phase and the state

## Main results

* `Tracks.inv_of_run`, `Tracks.knows_of_run`
-/

namespace Prog

variable {σ ε α : Type}

/-- What is left of a program after one action. -/
inductive Next : Prog σ ε α → Prog σ ε α → Prop where
  | act (ready : σ → Bool) (next : σ → σ) (cont : σ → Prog σ ε α) (s : σ) :
      Next (cont s) (act ready next cont)

/-- What is left of a program after one or more of its actions. -/
def Rest : Prog σ ε α → Prog σ ε α → Prop := Relation.TransGen Next

theorem Rest.single {ready : σ → Bool} {next : σ → σ} {cont : σ → Prog σ ε α} (s : σ) :
    Rest (cont s) (act ready next cont) :=
  Relation.TransGen.single (Next.act ready next cont s)

theorem Rest.head {ready : σ → Bool} {next : σ → σ} {cont : σ → Prog σ ε α} {p : Prog σ ε α}
    (s : σ) (h : Rest (act ready next cont) p) : Rest (cont s) p :=
  Relation.TransGen.head (Next.act ready next cont s) h

theorem wellFounded_next : WellFounded (Next (σ := σ) (ε := ε) (α := α)) := by
  refine ⟨fun p => ?_⟩
  induction p with
  | ret a => exact ⟨_, fun q hq => by cases hq⟩
  | fail e => exact ⟨_, fun q hq => by cases hq⟩
  | act ready next cont ih =>
    refine ⟨_, fun q hq => ?_⟩
    cases hq with
    | act _ _ _ s => exact ih s

/-- A program never comes back to its beginning. -/
theorem Rest.ne {p q : Prog σ ε α} (h : Rest p q) : p ≠ q := by
  rintro rfl
  exact wellFounded_next.transGen.irrefl.irrefl p h

end Prog

variable {σ ε α ρ η Φ : Type}

namespace System

/-- The call has performed an action, and it has not finished. -/
def UnderWay (S : System σ ε α ρ η) (c : Call σ ε α ρ) : Prop :=
  c.outcome = none ∧ Prog.Rest c.prog (S.handler c.request)

/-- The first action of a call puts it under way, if it leaves something to do. -/
theorem rest_of_move_run {S : System σ ε α ρ η} {P Q : Pool σ ε α ρ} {i : Nat} {c : Call σ ε α ρ}
    (hm : S.move P (.run i) = some Q) (hc : P.calls[i]? = some c)
    (hstart : c.prog = S.handler c.request) :
    ∃ d, Q.calls[i]? = some d ∧ Prog.Rest d.prog (S.handler d.request) := by
  rcases move_eq hm with ⟨r, hr, -⟩ | ⟨e, he, -⟩ | ⟨j, d, ready, next, cont, hj, hd, hprog, -, rfl⟩
  · cases hr
  · cases he
  · cases hj
    obtain rfl : c = d := Option.some.inj (hc.symm.trans hd)
    refine ⟨_, List.getElem?_set_self (List.getElem?_eq_some_iff.mp hc).1, ?_⟩
    dsimp only
    rw [← hstart, hprog]
    exact .single P.state

/-- A call that has finished stays as it is. -/
theorem getElem?_of_move {S : System σ ε α ρ η} {P Q : Pool σ ε α ρ} {m : Move ρ η}
    (hm : S.move P m = some Q) {i : Nat} {c : Call σ ε α ρ} (hc : P.calls[i]? = some c)
    (hout : c.outcome ≠ none) : Q.calls[i]? = some c := by
  rcases move_eq hm with
    ⟨r, -, rfl⟩ | ⟨e, -, rfl⟩ | ⟨j, d, ready, next, cont, rfl, hd, hprog, -, rfl⟩
  · rw [List.getElem?_append_left (List.getElem?_eq_some_iff.mp hc).1, hc]
  · exact hc
  · by_cases hj : j = i
    · subst hj
      obtain ⟨e, he, hnone⟩ := outcome_of_move_run hm
      obtain rfl : c = e := Option.some.inj (hc.symm.trans he)
      exact absurd hnone hout
    · rw [List.getElem?_set_ne hj, hc]

theorem getElem?_of_run {S : System σ ε α ρ η} {P Q : Pool σ ε α ρ}
    {ok : Pool σ ε α ρ → Pool σ ε α ρ → Prop} (h : S.Run ok P Q) {i : Nat} {c : Call σ ε α ρ}
    (hc : P.calls[i]? = some c) (hout : c.outcome ≠ none) : Q.calls[i]? = some c := by
  induction h with
  | refl => exact hc
  | tail _ hstep ih => exact getElem?_of_move hstep.1.choose_spec ih hout

/-- A call that stands elsewhere at the end of a run has taken a first action in it. -/
theorem exists_first_move {S : System σ ε α ρ η} {P Q : Pool σ ε α ρ}
    {ok : Pool σ ε α ρ → Pool σ ε α ρ → Prop} (h : S.Run ok P Q) {i : Nat} {c : Call σ ε α ρ}
    (hc : P.calls[i]? = some c) (hmoved : Q.calls[i]? ≠ some c) :
    ∃ R R', S.Run (fun A B => ok A B ∧ B.calls[i]? = some c) P R ∧ R.calls[i]? = some c ∧
      S.move R (.run i) = some R' ∧ ok R R' ∧ S.Run ok R' Q := by
  have hcases : (S.Run (fun A B => ok A B ∧ B.calls[i]? = some c) P Q ∧ Q.calls[i]? = some c) ∨
      ∃ R R', S.Run (fun A B => ok A B ∧ B.calls[i]? = some c) P R ∧ R.calls[i]? = some c ∧
        S.move R (.run i) = some R' ∧ ok R R' ∧ S.Run ok R' Q := by
    clear hmoved
    induction h with
    | refl => exact .inl ⟨.refl, hc⟩
    | @tail R R' _ hstep ih =>
      rcases ih with ⟨hrun, hR⟩ | ⟨A, B, hbefore, hA, hm, hok, hafter⟩
      · by_cases hR' : R'.calls[i]? = some c
        · exact .inl ⟨hrun.tail ⟨hstep.1, hstep.2, hR'⟩, hR'⟩
        obtain ⟨⟨m, hm⟩, hok⟩ := hstep
        -- only an action of the call itself replaces it
        obtain rfl : m = .run i := by
          rcases move_eq hm with ⟨r, -, rfl⟩ | ⟨e, -, rfl⟩ | ⟨j, d, _, _, _, rfl, -, -, -, rfl⟩
          · exact absurd ((List.getElem?_append_left (List.getElem?_eq_some_iff.mp hR).1).trans hR) hR'
          · exact absurd hR hR'
          · by_cases hj : j = i
            · rw [hj]
            · exact absurd ((List.getElem?_set_ne hj).trans hR) hR'
        exact .inr ⟨R, R', hrun, hR, hm, hok, .refl⟩
      · exact .inr ⟨A, B, hbefore, hA, hm, hok, hafter.tail hstep⟩
  exact hcases.resolve_left fun hstays => hmoved hstays.2

/-- What holds of every state a run can be in holds at each of its steps. -/
theorem run_with {S : System σ ε α ρ η} {P Q : Pool σ ε α ρ}
    {ok : Pool σ ε α ρ → Pool σ ε α ρ → Prop} {K : Pool σ ε α ρ → Prop}
    (hK : ∀ R, S.Run ok P R → K R) (h : S.Run ok P Q) : S.Run (fun A B => ok A B ∧ K A) P Q := by
  induction h with
  | refl => exact .refl
  | tail hrun hstep ih => exact ih.tail ⟨hstep.1, hstep.2, hK _ hrun⟩

/-- A call keeps its place and its request. -/
theorem request_of_run {S : System σ ε α ρ η} {P Q : Pool σ ε α ρ}
    {ok : Pool σ ε α ρ → Pool σ ε α ρ → Prop} (h : S.Run ok P Q) {i : Nat} {c : Call σ ε α ρ}
    (hc : P.calls[i]? = some c) : ∃ d, Q.calls[i]? = some d ∧ d.request = c.request := by
  induction h with
  | refl => exact ⟨c, hc, rfl⟩
  | tail _ hstep ih =>
    obtain ⟨d, hd, hreq⟩ := ih
    obtain ⟨e, he, hreq'⟩ := request_of_move hstep.1.choose_spec hd
    exact ⟨e, he, hreq'.trans hreq⟩

end System

/-- A phase in which no call may end is one of a call in flight. -/
theorem Follows.outcome_eq_none {T : Φ → σ → Φ → σ → Prop} {post : Φ → Except ε α → Prop} {φ : Φ}
    {c : Call σ ε α ρ} (h : Follows T post φ c.prog) (hpost : ∀ r, ¬ post φ r) :
    c.outcome = none := by
  obtain ⟨r, since, p⟩ := c
  cases p with
  | ret a => exact absurd h (hpost _)
  | fail e => exact absurd h (hpost _)
  | act ready next cont => rfl

namespace Tracks

variable {T : Φ → σ → Φ → σ → Prop} {post : Φ → Except ε α → Prop}
  {S : System σ ε α ρ η} {P Q : Pool σ ε α ρ} {phases : List Φ} {start : ρ → σ → Φ}

/-- Every call stands where it started, or has performed an action since. -/
def Begun (S : System σ ε α ρ η) (start : ρ → σ → Φ) (P : Pool σ ε α ρ) (phases : List Φ) :
    Prop :=
  List.Forall₂ (fun c φ => (φ = start c.request c.since ∧ c.prog = S.handler c.request) ∨
    Prog.Rest c.prog (S.handler c.request)) P.calls phases

/-- A call in flight whose phase is not the one it started in is under way. -/
theorem Begun.underWay (h : Begun S start P phases) {i : Nat} {c : Call σ ε α ρ} {φ : Φ}
    (hc : P.calls[i]? = some c) (hφ : phases[i]? = some φ) (hout : c.outcome = none)
    (hne : φ ≠ start c.request c.since) : S.UnderWay c := by
  obtain ⟨φ', hφ', hbegun⟩ := forall₂_getElem? h hc
  obtain rfl : φ' = φ := Option.some.inj (hφ'.symm.trans hφ)
  exact ⟨hout, hbegun.resolve_left fun hstart => hne hstart.1⟩

/-- What an action of one call is, in terms of phases. -/
theorem move_run (htracks : Tracks T post P phases) (hbegun : Begun S start P phases) {i : Nat}
    (hm : S.move P (.run i) = some Q) :
    ∃ c φ φ' prog, P.calls[i]? = some c ∧ c.outcome = none ∧ phases[i]? = some φ ∧
      T φ P.state φ' Q.state ∧ Q.calls = P.calls.set i { c with prog := prog } ∧
      Tracks T post Q (phases.set i φ') ∧ Begun S start Q (phases.set i φ') := by
  rcases System.move_eq hm with ⟨r, hr, -⟩ | ⟨e, he, -⟩ | ⟨j, c, ready, next, cont, hj, hc, hprog,
    hready, rfl⟩
  · cases hr
  · cases he
  cases hj
  obtain ⟨φ, hφ, hfol⟩ := forall₂_getElem? htracks hc
  obtain ⟨_, -, hrest⟩ := forall₂_getElem? hbegun hc
  rw [hprog] at hfol hrest
  obtain ⟨φ', hT, hcont⟩ := hfol _ hready
  have hout : c.outcome = none := by
    unfold Call.outcome
    rw [hprog]
  have hbegun' : Prog.Rest (cont P.state) (S.handler c.request) := by
    rcases hrest with ⟨-, hhandler⟩ | hrest
    · rw [← hhandler]
      exact .single P.state
    · exact hrest.head P.state
  exact ⟨c, φ, φ', _, hc, hout, hφ, hT, rfl, forall₂_set htracks hcont,
    forall₂_set hbegun (.inr hbegun')⟩

/-- The induction over tracked runs: what an arrival, a step of the environment and a
transition of one call preserve holds after every run. -/
theorem inv_of_run_from {ok : Pool σ ε α ρ → Pool σ ε α ρ → Prop}
    {I : Pool σ ε α ρ → List Φ → Prop}
    (hstart : ∀ r s, Follows T post (start r s) (S.handler r)) (htracks : Tracks T post P phases)
    (hbegun : Begun S start P phases) (hinit : I P phases)
    (harrive : ∀ (P : Pool σ ε α ρ) phases r, Tracks T post P phases → Begun S start P phases →
      I P phases →
        I { P with calls := P.calls ++ [⟨r, P.state, S.handler r⟩] }
          (phases ++ [start r P.state]))
    (henv : ∀ (P : Pool σ ε α ρ) phases e, ok P { P with state := S.env e P.state } →
      I P phases → I { P with state := S.env e P.state } phases)
    (hrun : ∀ (P Q : Pool σ ε α ρ) phases i c φ φ' prog, S.move P (.run i) = some Q →
      Tracks T post P phases → Begun S start P phases → ok P Q → P.calls[i]? = some c →
      c.outcome = none → phases[i]? = some φ → T φ P.state φ' Q.state →
      Q.calls = P.calls.set i { c with prog := prog } → I P phases → I Q (phases.set i φ'))
    (h : S.Run ok P Q) :
    ∃ phases, Tracks T post Q phases ∧ Begun S start Q phases ∧ I Q phases := by
  induction h with
  | refl => exact ⟨phases, htracks, hbegun, hinit⟩
  | @tail R R' _ hstep ih =>
    obtain ⟨phases, htracks, hbegun, hinv⟩ := ih
    obtain ⟨⟨m, hm⟩, hok⟩ := hstep
    cases m with
    | arrive r =>
      cases hm
      exact ⟨_, List.rel_append htracks (.cons (hstart r _) .nil),
        List.rel_append hbegun (.cons (.inl ⟨rfl, rfl⟩) .nil), harrive R phases r htracks hbegun hinv⟩
    | env e =>
      cases hm
      exact ⟨phases, htracks, hbegun, henv R phases e hok hinv⟩
    | run i =>
      obtain ⟨c, φ, φ', prog, hc, hout, hφ, hT, hcalls, htracks', hbegun'⟩ :=
        move_run htracks hbegun hm
      exact ⟨_, htracks', hbegun',
        hrun R R' phases i c φ φ' prog hm htracks hbegun hok hc hout hφ hT hcalls hinv⟩

/-- The same from the start. -/
theorem inv_of_run {ok : Pool σ ε α ρ → Pool σ ε α ρ → Prop} {I : Pool σ ε α ρ → List Φ → Prop}
    (hstart : ∀ r s, Follows T post (start r s) (S.handler r)) {s₀ : σ}
    (hinit : I ⟨s₀, []⟩ [])
    (harrive : ∀ (P : Pool σ ε α ρ) phases r, Tracks T post P phases → Begun S start P phases →
      I P phases →
        I { P with calls := P.calls ++ [⟨r, P.state, S.handler r⟩] }
          (phases ++ [start r P.state]))
    (henv : ∀ (P : Pool σ ε α ρ) phases e, ok P { P with state := S.env e P.state } →
      I P phases → I { P with state := S.env e P.state } phases)
    (hrun : ∀ (P Q : Pool σ ε α ρ) phases i c φ φ' prog, S.move P (.run i) = some Q →
      Tracks T post P phases → Begun S start P phases → ok P Q → P.calls[i]? = some c →
      c.outcome = none → phases[i]? = some φ → T φ P.state φ' Q.state →
      Q.calls = P.calls.set i { c with prog := prog } → I P phases → I Q (phases.set i φ'))
    (h : S.Run ok ⟨s₀, []⟩ Q) :
    ∃ phases, Tracks T post Q phases ∧ Begun S start Q phases ∧ I Q phases :=
  inv_of_run_from hstart (.nil s₀) List.Forall₂.nil hinit harrive henv hrun h

/-! ### What each call knows -/

variable {G : σ → Prop} {L : ρ → Φ → σ → Prop}

/-- The state has the property `G`, and every call has the property `L` of its request, its
phase and the state. -/
structure Knows (G : σ → Prop) (L : ρ → Φ → σ → Prop) (P : Pool σ ε α ρ) (phases : List Φ) :
    Prop where
  state : G P.state
  call : ∀ (i : Nat) (c : Call σ ε α ρ) (φ : Φ), P.calls[i]? = some c → phases[i]? = some φ →
    L c.request φ P.state

theorem Knows.arrive (h : Knows G L P phases) (hlength : P.calls.length = phases.length)
    {c : Call σ ε α ρ} {φ : Φ} (hnew : L c.request φ P.state) :
    Knows G L { P with calls := P.calls ++ [c] } (phases ++ [φ]) := by
  refine ⟨h.state, fun i d ψ hd hψ => ?_⟩
  by_cases hi : i < P.calls.length
  · rw [List.getElem?_append_left hi] at hd
    rw [List.getElem?_append_left (hlength ▸ hi)] at hψ
    exact h.call i d ψ hd hψ
  · rw [List.getElem?_append_right (by omega)] at hd
    rw [List.getElem?_append_right (by omega)] at hψ
    cases List.mem_singleton.mp (List.mem_of_getElem? hd)
    cases List.mem_singleton.mp (List.mem_of_getElem? hψ)
    exact hnew

/-- One call moves to another phase, and the others keep what they know. -/
theorem Knows.set (h : Knows G L P phases) {i : Nat} {c : Call σ ε α ρ} {φ' : Φ}
    {prog : Prog σ ε α} (hcalls : Q.calls = P.calls.set i { c with prog := prog })
    (hstate : G Q.state) (hnew : L c.request φ' Q.state)
    (hothers : ∀ (j : Nat) (d : Call σ ε α ρ) (ψ : Φ), j ≠ i → P.calls[j]? = some d →
      phases[j]? = some ψ → L d.request ψ P.state → L d.request ψ Q.state) :
    Knows G L Q (phases.set i φ') := by
  refine ⟨hstate, fun j d ψ hd hψ => ?_⟩
  rw [hcalls] at hd
  rcases getElem?_set_cases hd with ⟨rfl, rfl⟩ | ⟨hne, hd⟩
  · rcases getElem?_set_cases hψ with ⟨-, rfl⟩ | ⟨hne, -⟩
    · exact hnew
    · exact absurd rfl hne
  · rcases getElem?_set_cases hψ with ⟨rfl, -⟩ | ⟨-, hψ⟩
    · exact absurd rfl hne
    · exact hothers j d ψ hne hd hψ (h.call j d ψ hd hψ)

/-- The same induction for a property of the state and one of each call: a transition has
to give its call what the new phase knows, and to leave the other calls what they know. -/
theorem knows_of_run_from {ok : Pool σ ε α ρ → Pool σ ε α ρ → Prop}
    (hstart : ∀ r s, Follows T post (start r s) (S.handler r)) (htracks : Tracks T post P phases)
    (hbegun : Begun S start P phases) (hinit : Knows G L P phases)
    (harrive : ∀ r s, G s → L r (start r s) s)
    (henv : ∀ e s, G s → G (S.env e s) ∧ ∀ r φ, L r φ s → L r φ (S.env e s))
    (hrun : ∀ (P Q : Pool σ ε α ρ) phases i c φ φ', S.move P (.run i) = some Q →
      Tracks T post P phases → Begun S start P phases → ok P Q → P.calls[i]? = some c →
      c.outcome = none → phases[i]? = some φ → T φ P.state φ' Q.state → Knows G L P phases →
        G Q.state ∧ L c.request φ' Q.state ∧
          ∀ (j : Nat) (d : Call σ ε α ρ) (ψ : Φ), j ≠ i → P.calls[j]? = some d →
            phases[j]? = some ψ → L d.request ψ P.state → L d.request ψ Q.state)
    (h : S.Run ok P Q) :
    ∃ phases, Tracks T post Q phases ∧ Begun S start Q phases ∧ Knows G L Q phases := by
  refine inv_of_run_from hstart htracks hbegun hinit ?_ ?_ ?_ h
  · intro P phases r htracks _ hknows
    exact hknows.arrive (List.Forall₂.length_eq htracks) (harrive r P.state hknows.state)
  · intro P phases e _ hknows
    obtain ⟨hG, hL⟩ := henv e P.state hknows.state
    exact ⟨hG, fun i c φ hc hφ => hL _ _ (hknows.call i c φ hc hφ)⟩
  · intro P Q phases i c φ φ' prog hm htracks hbegun hok hc hout hφ hT hcalls hknows
    obtain ⟨hG, hnew, hothers⟩ :=
      hrun P Q phases i c φ φ' hm htracks hbegun hok hc hout hφ hT hknows
    exact hknows.set hcalls hG hnew hothers

/-- The same from the start. -/
theorem knows_of_run {ok : Pool σ ε α ρ → Pool σ ε α ρ → Prop}
    (hstart : ∀ r s, Follows T post (start r s) (S.handler r)) {s₀ : σ} (hinit : G s₀)
    (harrive : ∀ r s, G s → L r (start r s) s)
    (henv : ∀ e s, G s → G (S.env e s) ∧ ∀ r φ, L r φ s → L r φ (S.env e s))
    (hrun : ∀ (P Q : Pool σ ε α ρ) phases i c φ φ', S.move P (.run i) = some Q →
      Tracks T post P phases → Begun S start P phases → ok P Q → P.calls[i]? = some c →
      c.outcome = none → phases[i]? = some φ → T φ P.state φ' Q.state → Knows G L P phases →
        G Q.state ∧ L c.request φ' Q.state ∧
          ∀ (j : Nat) (d : Call σ ε α ρ) (ψ : Φ), j ≠ i → P.calls[j]? = some d →
            phases[j]? = some ψ → L d.request ψ P.state → L d.request ψ Q.state)
    (h : S.Run ok ⟨s₀, []⟩ Q) :
    ∃ phases, Tracks T post Q phases ∧ Begun S start Q phases ∧ Knows G L Q phases :=
  knows_of_run_from hstart (.nil s₀) List.Forall₂.nil ⟨hinit, fun _ _ _ hc => by cases hc⟩ harrive
    henv hrun h

end Tracks
