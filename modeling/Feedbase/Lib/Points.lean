import Feedbase.Lib.Turns

/-!
# Calls at listed points

Where it matters which statement a call has still to perform, the programs that are left of a
call are listed: each is the program of a point, and every action leads from a point to another.
Then every call of a run stands at a point, and an invariant of the pool and its points is proved
on the actions.

## Main definitions

* `LeadsOn`, `Points` — every action leads from a point to a point
* `Frame` — what stands around the next action of a program
* `AtPoints` — every call stands at its point

## Main results

* `leadsOn_step` — the points after one action
* `Points.inv_of_run` — the induction over runs
-/

variable {σ ε α β ρ η Φ : Type}

/-- The next action of the program leads from the point to another one, by a transition of `T`. -/
def LeadsOn (prog : Φ → Prog σ ε α) (T : Φ → σ → Φ → σ → Prop) (φ : Φ) (p : Prog σ ε α) : Prop :=
  ∀ ready next cont s, p = .act ready next cont → ready s = true →
    ∃ φ', cont s = prog φ' ∧ T φ s φ' (next s)

/-- Every action of the program of a point leads to another point. -/
def Points (prog : Φ → Prog σ ε α) (T : Φ → σ → Φ → σ → Prop) : Prop :=
  ∀ φ, LeadsOn prog T φ (prog φ)

/-- What stands around a program: it waits for the program's actions to be performed. -/
def Frame (K : Prog σ ε β → Prog σ ε α) : Prop :=
  ∀ ready next cont, K (.act ready next cont) = .act ready next fun s => K (cont s)

/-- Every call of the pool stands at the point listed for it. -/
def AtPoints (prog : Φ → Prog σ ε α) (P : Pool σ ε α ρ) (points : List Φ) : Prop :=
  List.Forall₂ (fun c φ => c.prog = prog φ) P.calls points

variable {prog : Φ → Prog σ ε α} {T : Φ → σ → Φ → σ → Prop} {S : System σ ε α ρ η}
  {P Q : Pool σ ε α ρ} {points : List Φ}

theorem leadsOn_ret {φ : Φ} (a : α) : LeadsOn prog T φ (.ret a) :=
  fun _ _ _ _ h => by cases h

theorem leadsOn_fail {φ : Φ} (e : ε) : LeadsOn prog T φ (.fail e) :=
  fun _ _ _ _ h => by cases h

/-- The points after an action are those of its outcomes in the frame. -/
theorem leadsOn_step {φ : Φ} {K : Prog σ ε β → Prog σ ε α} (hK : Frame K) {wait : σ → Bool}
    {f : σ → Except ε β × σ}
    (h : ∀ s, wait s = true →
      ∃ φ', K (Prog.ofExcept (f s).1) = prog φ' ∧ T φ s φ' (f s).2) :
    LeadsOn prog T φ (K (Prog.step wait f)) := by
  intro ready next cont s hprog hready
  rw [Prog.step, hK] at hprog
  cases hprog
  exact h s hready

theorem AtPoints.prog_eq (h : AtPoints prog P points) {i : Nat} {φ : Φ}
    (hφ : points[i]? = some φ) : ∃ c, P.calls[i]? = some c ∧ c.prog = prog φ :=
  forall₂_getElem? h.flip hφ

theorem AtPoints.point_of (h : AtPoints prog P points) {i : Nat} {c : Call σ ε α ρ}
    (hc : P.calls[i]? = some c) : ∃ φ, points[i]? = some φ ∧ c.prog = prog φ :=
  forall₂_getElem? h hc

/-- What an arrival, a step of the environment and an action preserve holds after every run. -/
theorem Points.inv_of_run (start : ρ → Φ) {ok : Pool σ ε α ρ → Pool σ ε α ρ → Prop}
    {I : Pool σ ε α ρ → List Φ → Prop} (hpoints : Points prog T)
    (hstart : ∀ r, S.handler r = prog (start r)) (hat : AtPoints prog P points)
    (hinit : I P points)
    (harrive : ∀ (P : Pool σ ε α ρ) points r, AtPoints prog P points → I P points →
      I { P with calls := P.calls ++ [⟨r, P.state, prog (start r)⟩] } (points ++ [start r]))
    (henv : ∀ (P : Pool σ ε α ρ) points e, I P points →
      I { P with state := S.env e P.state } points)
    (hact : ∀ (P Q : Pool σ ε α ρ) points i c φ φ', AtPoints prog P points → ok P Q →
      P.calls[i]? = some c → points[i]? = some φ → T φ P.state φ' Q.state →
      Q.calls = P.calls.set i { c with prog := prog φ' } → I P points → I Q (points.set i φ'))
    (h : S.Run ok P Q) : ∃ points, AtPoints prog Q points ∧ I Q points := by
  induction h with
  | refl => exact ⟨points, hat, hinit⟩
  | @tail R R' _ hstep ih =>
    obtain ⟨points, hat, hinv⟩ := ih
    obtain ⟨⟨m, hm⟩, hok⟩ := hstep
    rcases System.move_eq hm with
      ⟨r, -, rfl⟩ | ⟨e, -, rfl⟩ | ⟨i, c, ready, next, cont, -, hc, hprog, hready, rfl⟩
    · rw [hstart]
      exact ⟨_, List.rel_append hat (.cons rfl .nil), harrive R points r hat hinv⟩
    · exact ⟨points, hat, henv R points e hinv⟩
    · obtain ⟨φ, hφ, hcφ⟩ := hat.point_of hc
      obtain ⟨φ', hcont, hT⟩ := hpoints φ ready next cont R.state (hcφ.symm.trans hprog) hready
      rw [hcont] at hok ⊢
      exact ⟨_, forall₂_set hat rfl, hact R _ points i c φ φ' hat hok hc hφ hT rfl hinv⟩
