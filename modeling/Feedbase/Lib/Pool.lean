import Feedbase.Lib.Prog
import Mathlib.Data.List.Forall2
import Mathlib.Logic.Relation

/-!
# Interleavings of any number of calls

A `Pool` is a shared state together with every call made so far. A move lets a
call arrive, lets one unfinished call perform its next atomic action, or lets the
environment (the clock, a third party) change the state. Nothing bounds the number
of calls, and a call may be delayed for ever.

What a handler can do to the state is said once, as `Follows T post φ p`: every
action of `p`, started in phase `φ`, is one of the labelled transitions `T`, and
`p` ends in a phase that meets `post`. `Tracks.move_cases` then turns every move
of a pool into such a transition, so an invariant over all interleavings is proved
on the transitions and never on the text of a handler.

## Main definitions

* `Call`, `Pool`, `System`, `System.move`, `System.Run`
* `Follows` — the transitions a program performs, phase by phase
* `Tracks` — a phase for every call of a pool

## Main results

* `Follows.bind`, `Follows.catching` — the rules of `Follows`
* `Tracks.move_cases` — every move is an arrival, an environment step or one
  transition of one call
-/

variable {σ ε α β ρ η Φ : Type}

/-- One call: its request, the state it arrived in, and what is left to run. -/
structure Call (σ ε α ρ : Type) where
  request : ρ
  since : σ
  prog : Prog σ ε α

/-- The call has returned or thrown. -/
def Call.outcome (c : Call σ ε α ρ) : Option (Except ε α) :=
  match c.prog with
  | .ret a => some (.ok a)
  | .fail e => some (.error e)
  | .act .. => none

/-- The shared state and every call made so far. -/
structure Pool (σ ε α ρ : Type) where
  state : σ
  calls : List (Call σ ε α ρ)

/-- How many calls are in flight. -/
def Pool.inFlight (P : Pool σ ε α ρ) : Nat := P.calls.countP fun c => c.outcome.isNone

/-- No call is in flight. -/
def Pool.Quiescent (P : Pool σ ε α ρ) : Prop := ∀ c ∈ P.calls, c.outcome.isSome

/-- The handler of each request and what the environment may do. -/
structure System (σ ε α ρ η : Type) where
  handler : ρ → Prog σ ε α
  env : η → σ → σ

/-- A scheduler's choice. -/
inductive Move (ρ η : Type) where
  | arrive (r : ρ)
  | run (i : Nat)
  | env (e : η)

namespace System

variable {P Q : Pool σ ε α ρ}

/-- The effect of one move; `none` when the chosen call is finished or must wait. -/
def move (S : System σ ε α ρ η) (P : Pool σ ε α ρ) : Move ρ η → Option (Pool σ ε α ρ)
  | .arrive r => some { P with calls := P.calls ++ [⟨r, P.state, S.handler r⟩] }
  | .env e => some { P with state := S.env e P.state }
  | .run i =>
    match P.calls[i]? with
    | some ⟨r, since, .act ready next cont⟩ =>
      if ready P.state then
        some ⟨next P.state, P.calls.set i ⟨r, since, cont P.state⟩⟩
      else none
    | _ => none

/-- The pool after a whole schedule. -/
def schedule (S : System σ ε α ρ η) (P : Pool σ ε α ρ) : List (Move ρ η) → Option (Pool σ ε α ρ)
  | [] => some P
  | m :: ms => (S.move P m).bind fun Q => S.schedule Q ms

/-- One move that meets `ok`. -/
def Step (S : System σ ε α ρ η) (ok : Pool σ ε α ρ → Pool σ ε α ρ → Prop) (P Q : Pool σ ε α ρ) : Prop :=
  (∃ m, S.move P m = some Q) ∧ ok P Q

/-- Any number of moves, each of which meets `ok`. -/
def Run (S : System σ ε α ρ η) (ok : Pool σ ε α ρ → Pool σ ε α ρ → Prop) :
    Pool σ ε α ρ → Pool σ ε α ρ → Prop :=
  Relation.ReflTransGen (S.Step ok)

theorem schedule_cons {S : System σ ε α ρ η} {m : Move ρ η} {ms : List (Move ρ η)}
    {R : Pool σ ε α ρ} (hm : S.move P m = some Q) (h : S.schedule Q ms = some R) :
    S.schedule P (m :: ms) = some R := by
  rw [schedule, hm]
  exact h

theorem run_of_schedule {S : System σ ε α ρ η} {ms : List (Move ρ η)} (h : S.schedule P ms = some Q) :
    S.Run (fun _ _ => True) P Q := by
  induction ms generalizing P with
  | nil =>
    cases h
    exact .refl
  | cons m ms ih =>
    obtain ⟨R, hm, hms⟩ := Option.bind_eq_some_iff.mp h
    exact .head ⟨⟨m, hm⟩, trivial⟩ (ih hms)

theorem schedule_append {S : System σ ε α ρ η} {ms ms' : List (Move ρ η)} :
    S.schedule P (ms ++ ms') = (S.schedule P ms).bind fun Q => S.schedule Q ms' := by
  induction ms generalizing P with
  | nil => rfl
  | cons m ms ih =>
    rw [List.cons_append, schedule, schedule, Option.bind_assoc]
    congr 1
    funext Q
    exact ih

/-- The pool that a schedule leads to, if it can be followed. -/
def poolAfter (S : System σ ε α ρ η) (P : Pool σ ε α ρ) (ms : List (Move ρ η)) : Pool σ ε α ρ :=
  (S.schedule P ms).getD P

theorem schedule_eq_poolAfter {S : System σ ε α ρ η} {ms : List (Move ρ η)}
    (h : (S.schedule P ms).isSome = true) : S.schedule P ms = some (S.poolAfter P ms) := by
  obtain ⟨Q, hQ⟩ := Option.isSome_iff_exists.mp h
  rw [poolAfter, hQ, Option.getD_some]

/-- The last part of a schedule. -/
theorem schedule_poolAfter {S : System σ ε α ρ η} {ms ms' : List (Move ρ η)}
    (h : (S.schedule P (ms ++ ms')).isSome = true) :
    S.schedule (S.poolAfter P ms) ms' = some (S.poolAfter P (ms ++ ms')) := by
  have hwhole := schedule_eq_poolAfter h
  rw [schedule_append] at hwhole
  obtain ⟨Q, hQ, hrest⟩ := Option.bind_eq_some_iff.mp hwhole
  rw [poolAfter, hQ, Option.getD_some, hrest]

theorem run_poolAfter {S : System σ ε α ρ η} {ms ms' : List (Move ρ η)}
    (h : (S.schedule P (ms ++ ms')).isSome = true) :
    S.Run (fun _ _ => True) (S.poolAfter P ms) (S.poolAfter P (ms ++ ms')) :=
  run_of_schedule (schedule_poolAfter h)

theorem move_poolAfter {S : System σ ε α ρ η} {ms : List (Move ρ η)} {m : Move ρ η}
    (h : (S.schedule P (ms ++ [m])).isSome = true) :
    S.move (S.poolAfter P ms) m = some (S.poolAfter P (ms ++ [m])) := by
  have hlast := schedule_poolAfter h
  obtain ⟨Q, hQ, hnil⟩ := Option.bind_eq_some_iff.mp hlast
  rw [hQ]
  exact hnil

/-- The pool after a schedule whose moves all start in a pool that meets `guard`. -/
def scheduleWhile (S : System σ ε α ρ η) (guard : Pool σ ε α ρ → Bool) (P : Pool σ ε α ρ) :
    List (Move ρ η) → Option (Pool σ ε α ρ)
  | [] => some P
  | m :: ms => if guard P then (S.move P m).bind fun Q => S.scheduleWhile guard Q ms else none

theorem run_of_scheduleWhile {S : System σ ε α ρ η} {guard : Pool σ ε α ρ → Bool}
    {ok : Pool σ ε α ρ → Pool σ ε α ρ → Prop} (hok : ∀ P Q, guard P = true → ok P Q)
    {ms : List (Move ρ η)} (h : S.scheduleWhile guard P ms = some Q) : S.Run ok P Q := by
  induction ms generalizing P with
  | nil =>
    cases h
    exact .refl
  | cons m ms ih =>
    rw [scheduleWhile] at h
    split at h
    · obtain ⟨R, hm, hms⟩ := Option.bind_eq_some_iff.mp h
      exact .head ⟨⟨m, hm⟩, hok _ _ ‹_›⟩ (ih hms)
    · cases h

theorem guard_of_scheduleWhile {S : System σ ε α ρ η} {guard : Pool σ ε α ρ → Bool}
    {ms : List (Move ρ η)} (h : S.scheduleWhile guard P ms = some Q) (hend : guard Q = true) :
    guard P = true := by
  cases ms with
  | nil =>
    cases h
    exact hend
  | cons m ms =>
    rw [scheduleWhile] at h
    split at h
    · assumption
    · cases h

/-- The same when the pool a move leads to meets `guard` too. -/
theorem run_of_scheduleWhile_end {S : System σ ε α ρ η} {guard : Pool σ ε α ρ → Bool}
    {ok : Pool σ ε α ρ → Pool σ ε α ρ → Prop}
    (hok : ∀ P Q, guard P = true → guard Q = true → ok P Q) {ms : List (Move ρ η)}
    (h : S.scheduleWhile guard P ms = some Q) (hend : guard Q = true) : S.Run ok P Q := by
  induction ms generalizing P with
  | nil =>
    cases h
    exact .refl
  | cons m ms ih =>
    rw [scheduleWhile] at h
    split at h
    · obtain ⟨R, hm, hms⟩ := Option.bind_eq_some_iff.mp h
      have hguard := guard_of_scheduleWhile hms hend
      exact .head ⟨⟨m, hm⟩, hok _ _ ‹_› hguard⟩ (ih hms)
    · cases h

/-- The pool after a schedule whose moves all pass a test. -/
def scheduleWith (S : System σ ε α ρ η) (test : Pool σ ε α ρ → Pool σ ε α ρ → Bool)
    (P : Pool σ ε α ρ) : List (Move ρ η) → Option (Pool σ ε α ρ)
  | [] => some P
  | m :: ms =>
    (S.move P m).bind fun Q => if test P Q then S.scheduleWith test Q ms else none

theorem run_of_scheduleWith {S : System σ ε α ρ η} {test : Pool σ ε α ρ → Pool σ ε α ρ → Bool}
    {ok : Pool σ ε α ρ → Pool σ ε α ρ → Prop} (hok : ∀ P Q, test P Q = true → ok P Q)
    {ms : List (Move ρ η)} (h : S.scheduleWith test P ms = some Q) : S.Run ok P Q := by
  induction ms generalizing P with
  | nil =>
    cases h
    exact .refl
  | cons m ms ih =>
    obtain ⟨R, hm, hms⟩ := Option.bind_eq_some_iff.mp h
    split at hms
    · exact .head ⟨⟨m, hm⟩, hok _ _ ‹_›⟩ (ih hms)
    · cases hms

/-- The move of a call whose next action need not wait. -/
theorem move_run {S : System σ ε α ρ η} {i : Nat} {c : Call σ ε α ρ} {ready : σ → Bool}
    {next : σ → σ} {cont : σ → Prog σ ε α} (hc : P.calls[i]? = some c)
    (hprog : c.prog = .act ready next cont) (hready : ready P.state = true) :
    S.move P (.run i) = some ⟨next P.state, P.calls.set i { c with prog := cont P.state }⟩ := by
  obtain ⟨r, since, p⟩ := c
  obtain rfl : p = .act ready next cont := hprog
  simp only [move, hc, hready, if_true]

/-- What one move of a pool can be. -/
theorem move_eq {S : System σ ε α ρ η} {m : Move ρ η} (hm : S.move P m = some Q) :
    (∃ r, m = .arrive r ∧ Q = { P with calls := P.calls ++ [⟨r, P.state, S.handler r⟩] }) ∨
    (∃ e, m = .env e ∧ Q = { P with state := S.env e P.state }) ∨
    (∃ i c ready next cont, m = .run i ∧ P.calls[i]? = some c ∧ c.prog = .act ready next cont ∧
      ready P.state = true ∧ Q = ⟨next P.state, P.calls.set i { c with prog := cont P.state }⟩) := by
  cases m with
  | arrive r =>
    cases hm
    exact .inl ⟨r, rfl, rfl⟩
  | env e =>
    cases hm
    exact .inr (.inl ⟨e, rfl, rfl⟩)
  | run i =>
    simp only [System.move] at hm
    split at hm
    · rename_i r since ready next cont hi
      split at hm
      · rename_i hready
        cases hm
        exact .inr (.inr ⟨i, _, ready, next, cont, rfl, hi, rfl, hready, rfl⟩)
      · cases hm
    · cases hm

/-- A call that acts is in flight. -/
theorem outcome_of_move_run {S : System σ ε α ρ η} {i : Nat} (hm : S.move P (.run i) = some Q) :
    ∃ c, P.calls[i]? = some c ∧ c.outcome = none := by
  rcases move_eq hm with ⟨r, hr, -⟩ | ⟨e, he, -⟩ | ⟨j, c, ready, next, cont, hj, hc, hprog, -, -⟩
  · cases hr
  · cases he
  · cases hj
    refine ⟨c, hc, ?_⟩
    unfold Call.outcome
    rw [hprog]

/-- What one move of a pool can be when every action of every call is a step of `R`. -/
theorem move_within {S : System σ ε α ρ η} {R : σ → σ → Prop} {m : Move ρ η}
    (hhandler : ∀ r, Prog.Within R (S.handler r)) (hcalls : ∀ c ∈ P.calls, Prog.Within R c.prog)
    (hm : S.move P m = some Q) :
    (∀ c ∈ Q.calls, Prog.Within R c.prog) ∧
      (Q.state = P.state ∨ (∃ e, Q.state = S.env e P.state) ∨ R P.state Q.state) := by
  rcases move_eq hm with ⟨r, -, rfl⟩ | ⟨e, -, rfl⟩ | ⟨i, c, ready, next, cont, -, hc, hprog, -, rfl⟩
  · refine ⟨fun c hc => ?_, .inl rfl⟩
    rcases List.mem_append.mp hc with hc | hc
    · exact hcalls c hc
    · rw [List.mem_singleton.mp hc]
      exact hhandler r
  · exact ⟨hcalls, .inr (.inl ⟨e, rfl⟩)⟩
  · have hcall := hcalls c (List.mem_of_getElem? hc)
    rw [hprog] at hcall
    refine ⟨fun d hd => ?_, .inr (.inr (hcall P.state).1)⟩
    rcases List.mem_or_eq_of_mem_set hd with hd | rfl
    · exact hcalls d hd
    · exact (hcall P.state).2

/-- A call keeps its place and its request. -/
theorem request_of_move {S : System σ ε α ρ η} {m : Move ρ η} (hm : S.move P m = some Q) {i : Nat}
    {c : Call σ ε α ρ} (hc : P.calls[i]? = some c) :
    ∃ d, Q.calls[i]? = some d ∧ d.request = c.request := by
  have hlt : i < P.calls.length := (List.getElem?_eq_some_iff.mp hc).1
  rcases move_eq hm with ⟨r, -, rfl⟩ | ⟨e, -, rfl⟩ | ⟨j, d, ready, next, cont, -, hd, -, -, rfl⟩
  · exact ⟨c, by rw [List.getElem?_append_left hlt, hc], rfl⟩
  · exact ⟨c, hc, rfl⟩
  · by_cases hj : j = i
    · subst hj
      obtain rfl : c = d := Option.some.inj (hc.symm.trans hd)
      exact ⟨_, List.getElem?_set_self hlt, rfl⟩
    · exact ⟨c, by rw [List.getElem?_set_ne hj, hc], rfl⟩

/-- A property of requests and programs that the handlers have and that survives every
action is one of all calls of a run. -/
theorem calls_of_run {S : System σ ε α ρ η} {ok : Pool σ ε α ρ → Pool σ ε α ρ → Prop}
    {K : ρ → Prog σ ε α → Prop} (hhandler : ∀ r, K r (S.handler r))
    (hnext : ∀ r ready next cont s, K r (.act ready next cont) → ready s = true → K r (cont s))
    (hP : ∀ c ∈ P.calls, K c.request c.prog) (h : S.Run ok P Q) :
    ∀ c ∈ Q.calls, K c.request c.prog := by
  induction h with
  | refl => exact hP
  | tail _ hstep ih =>
    obtain ⟨⟨m, hm⟩, -⟩ := hstep
    rcases move_eq hm with
      ⟨r, -, rfl⟩ | ⟨e, -, rfl⟩ | ⟨i, c, ready, next, cont, -, hc, hprog, hready, rfl⟩
    · intro c hc
      rcases List.mem_append.mp hc with hc | hc
      · exact ih c hc
      · rw [List.mem_singleton.mp hc]
        exact hhandler r
    · exact ih
    · intro d hd
      rcases List.mem_or_eq_of_mem_set hd with hd | rfl
      · exact ih d hd
      · have hcall := ih c (List.mem_of_getElem? hc)
        rw [hprog] at hcall
        exact hnext _ _ _ _ _ hcall hready

end System

/-! ### Programs followed through their phases -/

/-- Every action of the program is a transition of `T` from its current phase, and
the program ends in a phase that meets `post`. -/
def Follows (T : Φ → σ → Φ → σ → Prop) (post : Φ → Except ε α → Prop) :
    Φ → Prog σ ε α → Prop
  | φ, .ret a => post φ (.ok a)
  | φ, .fail e => post φ (.error e)
  | φ, .act ready next cont =>
    ∀ s, ready s = true → ∃ φ', T φ s φ' (next s) ∧ Follows T post φ' (cont s)

namespace Follows

variable {T : Φ → σ → Φ → σ → Prop} {post : Φ → Except ε α → Prop}
  {post' : Φ → Except ε β → Prop} {φ : Φ}

theorem ret {a : α} (h : post φ (.ok a)) : Follows T post φ (.ret a) := h

theorem fail {e : ε} (h : post φ (.error e)) : Follows T post φ (.fail e) := h

/-- Sequential composition: the second part starts in any phase the first returns in. -/
theorem bind {p : Prog σ ε α} {f : α → Prog σ ε β} (hp : Follows T post φ p)
    (hok : ∀ φ a, post φ (.ok a) → Follows T post' φ (f a))
    (herr : ∀ φ e, post φ (.error e) → post' φ (.error e)) :
    Follows T post' φ (p >>= f) := by
  rw [Prog.bind_eq]
  induction p generalizing φ with
  | ret a => exact hok φ a hp
  | fail e => exact herr φ e hp
  | act ready next cont ih =>
    intro s hs
    obtain ⟨φ', hT, hcont⟩ := hp s hs
    exact ⟨φ', hT, ih s hcont⟩

/-- The handler of an exception starts in any phase the body throws in. -/
theorem catching {p : Prog σ ε α} {h : ε → Prog σ ε α} {post' : Φ → Except ε α → Prop}
    (hp : Follows T post φ p)
    (hok : ∀ φ a, post φ (.ok a) → post' φ (.ok a))
    (herr : ∀ φ e, post φ (.error e) → Follows T post' φ (h e)) :
    Follows T post' φ (tryCatch p h) := by
  rw [Prog.tryCatch_eq]
  induction p generalizing φ with
  | ret a => exact hok φ a hp
  | fail e => exact herr φ e hp
  | act ready next cont ih =>
    intro s hs
    obtain ⟨φ', hT, hcont⟩ := hp s hs
    exact ⟨φ', hT, ih s hcont⟩

theorem ofExcept {r : Except ε α} (h : post φ r) : Follows T post φ (Prog.ofExcept r) := by
  cases r with
  | ok a => exact h
  | error e => exact h

theorem step {ready : σ → Bool} {f : σ → Except ε α × σ}
    (h : ∀ s, ready s = true → ∃ φ', T φ s φ' (f s).2 ∧ post φ' (f s).1) :
    Follows T post φ (Prog.step ready f) := by
  intro s hs
  obtain ⟨φ', hT, hpost⟩ := h s hs
  refine ⟨φ', hT, ?_⟩
  change Follows T post φ' (Prog.ofExcept (f s).1)
  exact ofExcept hpost

/-- A program whose actions are all transitions from `φ` to itself. -/
theorem of_within {R : σ → σ → Prop} {p : Prog σ ε α} (hp : Prog.Within R p)
    (hT : ∀ s t, R s t → T φ s φ t) : Follows T (fun φ' _ => φ' = φ) φ p := by
  induction p with
  | ret a => rfl
  | fail e => rfl
  | act ready next cont ih =>
    intro s _
    obtain ⟨hR, hcont⟩ := hp s
    exact ⟨φ, hT s _ hR, ih s hcont⟩

/-- The same for a program that swallows its exceptions: it always returns. -/
theorem of_within_swallow {R : σ → σ → Prop} {p : Prog σ ε Unit}
    (hp : Prog.Within R (tryCatch p fun _ => pure ())) (hT : ∀ s t, R s t → T φ s φ t) :
    Follows T (fun φ' r => φ' = φ ∧ r = .ok ()) φ (tryCatch p fun _ => pure ()) := by
  rw [Prog.tryCatch_eq] at hp ⊢
  induction p with
  | ret a => exact ⟨rfl, rfl⟩
  | fail e => exact ⟨rfl, rfl⟩
  | act ready next cont ih =>
    intro s _
    obtain ⟨hR, hcont⟩ := hp s
    exact ⟨φ, hT s _ hR, ih s hcont⟩

theorem mono {post' : Φ → Except ε α → Prop} {p : Prog σ ε α}
    (hp : Follows T post φ p) (h : ∀ φ r, post φ r → post' φ r) : Follows T post' φ p := by
  induction p generalizing φ with
  | ret a => exact h φ _ hp
  | fail e => exact h φ _ hp
  | act ready next cont ih =>
    intro s hs
    obtain ⟨φ', hT, hcont⟩ := hp s hs
    exact ⟨φ', hT, ih s hcont⟩

/-- The same program followed through coarser or renamed phases. -/
theorem map {Ψ : Type} {T' : Ψ → σ → Ψ → σ → Prop} {post' : Ψ → Except ε α → Prop} (f : Φ → Ψ)
    (hT : ∀ φ s φ' t, T φ s φ' t → T' (f φ) s (f φ') t)
    (hpost : ∀ φ r, post φ r → post' (f φ) r) {p : Prog σ ε α} (hp : Follows T post φ p) :
    Follows T' post' (f φ) p := by
  induction p generalizing φ with
  | ret a => exact hpost φ _ hp
  | fail e => exact hpost φ _ hp
  | act ready next cont ih =>
    intro s hs
    obtain ⟨φ', hstep, hcont⟩ := hp s hs
    exact ⟨f φ', hT _ _ _ _ hstep, ih s hcont⟩

end Follows

theorem forall₂_set {γ δ : Type} {R : γ → δ → Prop} {l : List γ} {m : List δ} {i : Nat} {a : γ}
    {b : δ} (h : List.Forall₂ R l m) (hab : R a b) : List.Forall₂ R (l.set i a) (m.set i b) := by
  induction h generalizing i with
  | nil => exact .nil
  | cons hcd _ ih =>
    cases i with
    | zero => exact .cons hab ‹_›
    | succ i => exact .cons hcd ih

theorem forall₂_getElem? {γ δ : Type} {R : γ → δ → Prop} {l : List γ} {m : List δ} {i : Nat}
    {a : γ} (h : List.Forall₂ R l m) (hi : l[i]? = some a) : ∃ b, m[i]? = some b ∧ R a b := by
  induction h generalizing i with
  | nil => simp at hi
  | cons hcd _ ih =>
    cases i with
    | zero =>
      rw [List.getElem?_cons_zero, Option.some.injEq] at hi
      exact ⟨_, rfl, hi ▸ hcd⟩
    | succ i => exact ih hi

theorem countP_set_add {γ : Type} {p : γ → Bool} {l : List γ} {i : Nat} {a b : γ}
    (h : l[i]? = some a) :
    (l.set i b).countP p + (if p a then 1 else 0) = l.countP p + (if p b then 1 else 0) := by
  obtain ⟨hi, rfl⟩ := List.getElem?_eq_some_iff.mp h
  have hle : (if p l[i] then 1 else 0) ≤ l.countP p := List.boole_getElem_le_countP hi
  rw [List.countP_set hi]
  omega

theorem countP_set_of_eq {γ : Type} {p : γ → Bool} {l : List γ} {i : Nat} {a b : γ}
    (h : l[i]? = some a) (hp : p b = p a) : (l.set i b).countP p = l.countP p := by
  have hset := countP_set_add (p := p) (b := b) h
  rw [hp] at hset
  omega

/-- Two places that meet a predicate are one when it is met at most once. -/
theorem eq_of_countP_le_one {γ : Type} {p : γ → Bool} {l : List γ} (h : l.countP p ≤ 1) {i j : Nat}
    {a b : γ} (hi : l[i]? = some a) (hj : l[j]? = some b) (ha : p a = true) (hb : p b = true) :
    i = j := by
  induction l generalizing i j with
  | nil => simp at hi
  | cons c l ih =>
    -- the head has the property, so nothing in the tail has
    have hnone : ∀ {k : Nat} {d : γ}, p c = true → l[k]? = some d → p d = false := by
      intro k d hc hk
      have hzero : l.countP p = 0 := by
        rw [List.countP_cons_of_pos hc] at h
        omega
      simpa using List.countP_eq_zero.mp hzero d (List.mem_of_getElem? hk)
    have htail : l.countP p ≤ 1 := by
      rw [List.countP_cons] at h
      omega
    cases i with
    | zero =>
      obtain rfl : c = a := by simpa using hi
      cases j with
      | zero => rfl
      | succ j =>
        have hfalse := hnone ha (k := j) (by simpa using hj)
        rw [hb] at hfalse
        cases hfalse
    | succ i =>
      cases j with
      | zero =>
        obtain rfl : c = b := by simpa using hj
        have hfalse := hnone hb (k := i) (by simpa using hi)
        rw [ha] at hfalse
        cases hfalse
      | succ j =>
        exact congrArg (· + 1) (ih htail (by simpa using hi) (by simpa using hj))

/-- As often as one predicate is met in a list, the other is met at the same places. -/
theorem countP_le_countP_of_getElem? {γ δ : Type} {p : γ → Bool} {q : δ → Bool} {l : List γ}
    {m : List δ}
    (h : ∀ (i : Nat) a, l[i]? = some a → p a = true → ∃ b, m[i]? = some b ∧ q b = true) :
    l.countP p ≤ m.countP q := by
  induction l generalizing m with
  | nil => exact Nat.zero_le _
  | cons a l ih =>
    cases m with
    | nil =>
      rw [List.countP_nil, Nat.le_zero, List.countP_eq_zero]
      intro c hc hp
      obtain ⟨i, hi⟩ := List.getElem?_of_mem hc
      obtain ⟨b, hb, -⟩ := h i c hi hp
      cases hb
    | cons b m =>
      have htail : l.countP p ≤ m.countP q := ih fun i c hi hp => h (i + 1) c hi hp
      rw [List.countP_cons, List.countP_cons]
      by_cases hp : p a = true
      · obtain ⟨b', hb, hq⟩ := h 0 a rfl hp
        obtain rfl : b = b' := Option.some.inj hb
        rw [if_pos hp, if_pos hq]
        exact Nat.succ_le_succ htail
      · rw [if_neg hp]
        omega

/-- An entry of the list after a write is the written one, or stands at another place. -/
theorem getElem?_set_cases {γ : Type} {l : List γ} {i j : Nat} {a b : γ}
    (h : (l.set i a)[j]? = some b) : (j = i ∧ b = a) ∨ (j ≠ i ∧ l[j]? = some b) := by
  rw [List.getElem?_set] at h
  split at h
  · rename_i hij
    split at h
    · exact .inl ⟨hij.symm, (Option.some.inj h).symm⟩
    · cases h
  · rename_i hij
    exact .inr ⟨Ne.symm hij, h⟩

/-- An entry of the list after an arrival is an old one or the new one. -/
theorem getElem?_concat_cases {γ : Type} {l : List γ} {i : Nat} {a b : γ}
    (h : (l ++ [a])[i]? = some b) : l[i]? = some b ∨ (i = l.length ∧ b = a) := by
  by_cases hi : i < l.length
  · rw [List.getElem?_append_left hi] at h
    exact .inl h
  · rw [List.getElem?_append_right (by omega)] at h
    obtain ⟨hlt, hget⟩ := List.getElem?_eq_some_iff.mp h
    rw [List.length_singleton] at hlt
    rw [List.getElem_singleton] at hget
    exact .inr ⟨by omega, hget.symm⟩

/-- Every call of the pool is somewhere in its handler, in the phase listed for it. -/
def Tracks (T : Φ → σ → Φ → σ → Prop) (post : Φ → Except ε α → Prop) (P : Pool σ ε α ρ)
    (phases : List Φ) : Prop :=
  List.Forall₂ (fun c φ => Follows T post φ c.prog) P.calls phases

namespace Tracks

variable {T : Φ → σ → Φ → σ → Prop} {post : Φ → Except ε α → Prop}
  {S : System σ ε α ρ η} {P Q : Pool σ ε α ρ} {phases : List Φ}

theorem nil (s : σ) : Tracks T post (⟨s, []⟩ : Pool σ ε α ρ) [] := List.Forall₂.nil

/-- The phase of a finished call meets the postcondition. -/
theorem post_of_outcome (h : Tracks T post P phases) {i : Nat} {c : Call σ ε α ρ} {φ : Φ}
    {r : Except ε α} (hc : P.calls[i]? = some c) (hφ : phases[i]? = some φ)
    (hr : c.outcome = some r) : post φ r := by
  obtain ⟨φ', hφ', hf⟩ := forall₂_getElem? h hc
  obtain rfl : φ' = φ := Option.some.inj (hφ'.symm.trans hφ)
  obtain ⟨req, since, prog⟩ := c
  cases prog <;> cases hr <;> exact hf

/-- What one move of a pool can be, in terms of phases. -/
theorem move_cases {m : Move ρ η} (start : ρ → σ → Φ)
    (hstart : ∀ r s, Follows T post (start r s) (S.handler r))
    (h : Tracks T post P phases) (hm : S.move P m = some Q) :
    (∃ r, m = .arrive r ∧ Q = { P with calls := P.calls ++ [⟨r, P.state, S.handler r⟩] } ∧
      Tracks T post Q (phases ++ [start r P.state])) ∨
    (∃ e, m = .env e ∧ Q = { P with state := S.env e P.state } ∧ Tracks T post Q phases) ∨
    (∃ i c φ φ' prog, m = .run i ∧ P.calls[i]? = some c ∧ c.outcome = none ∧
      phases[i]? = some φ ∧ T φ P.state φ' Q.state ∧
      Q.calls = P.calls.set i { c with prog := prog } ∧ Tracks T post Q (phases.set i φ')) := by
  rcases System.move_eq hm with
    ⟨r, rfl, rfl⟩ | ⟨e, rfl, rfl⟩ | ⟨i, c, ready, next, cont, rfl, hc, hprog, hready, rfl⟩
  · exact .inl ⟨r, rfl, rfl, List.rel_append h (.cons (hstart r P.state) .nil)⟩
  · exact .inr (.inl ⟨e, rfl, rfl, h⟩)
  · obtain ⟨φ, hφ, hfol⟩ := forall₂_getElem? h hc
    rw [hprog] at hfol
    obtain ⟨φ', hT, hcont⟩ := hfol P.state hready
    have houtcome : c.outcome = none := by
      unfold Call.outcome
      rw [hprog]
    exact .inr (.inr ⟨i, c, φ, φ', cont P.state, rfl, hc, houtcome, hφ, hT, rfl,
      forall₂_set h hcont⟩)

end Tracks
