import Feedbase.Lib.Prog

/-!
# Transactions of one connection

The statements of an open transaction change a copy of the database, which `COMMIT` puts in
the place of the committed one and `ROLLBACK` throws away. `Session.transaction` is the usual
shape of a function that runs its statements in a transaction of its own: a statement that
throws rolls back and the exception goes on.

## Main definitions

* `Session` — the committed database and the copy of an open transaction
* `Session.statement`, `beginTransaction`, `commit`, `rollback`
* `Session.transaction`

## Main results

* `exec_transaction_ok_iff` — it returns exactly when its three parts do, and has then
  committed what its body wrote
* `exec_transaction_error` — when it throws, the committed database is as before
-/

namespace Sql

/-- A connection: the committed database, and the copy of an open transaction. -/
structure Session (σ : Type) where
  committed : σ
  working : Option σ := none

namespace Session

variable {σ ε α : Type} {s t : Session σ}

/-- What a statement of the connection sees. -/
def current (s : Session σ) : σ := s.working.getD s.committed

/-- A statement changes the copy of the open transaction; without one it commits by itself. -/
def put (s : Session σ) (x : σ) : Session σ :=
  match s.working with
  | none => { s with committed := x }
  | some _ => { s with working := some x }

@[simp] theorem current_mk_none (x : σ) : (⟨x, none⟩ : Session σ).current = x := rfl

@[simp] theorem current_mk_some (x y : σ) : (⟨x, some y⟩ : Session σ).current = y := rfl

@[simp] theorem put_mk_some (x y z : σ) : (⟨x, some y⟩ : Session σ).put z = ⟨x, some z⟩ := rfl

/-- One statement: it throws `e`, and writes nothing, when it fails. -/
def statement (e : ε) (fails : Bool) (f : σ → Option (α × σ)) : Prog (Session σ) ε α :=
  Prog.attempt e fun s =>
    if fails then none else (f s.current).map fun r => (r.1, s.put r.2)

/-- `START TRANSACTION`; it commits a transaction that is still open. -/
def beginTransaction (e : ε) (fails : Bool) : Prog (Session σ) ε Unit :=
  Prog.attempt e fun s => if fails then none else some ((), ⟨s.current, some s.current⟩)

def commit (e : ε) (fails : Bool) : Prog (Session σ) ε Unit :=
  Prog.attempt e fun s => if fails then none else some ((), ⟨s.current, none⟩)

def rollback : Prog (Session σ) ε Unit := Prog.write fun s => { s with working := none }

/-- `try { begin; body; commit } catch (e) { rollback; throw e }`. -/
def transaction (e : ε) (beginFails commitFails : Bool) (body : Prog (Session σ) ε α) :
    Prog (Session σ) ε α :=
  tryCatch (do
    beginTransaction e beginFails
    let a ← body
    commit e commitFails
    pure a) fun thrown => do
      rollback
      throw thrown

/-! ### What the statements of a transaction leave alone -/

/-- In an open transaction: the transaction stays open, and nothing is committed. -/
def Contained (s t : Session σ) : Prop :=
  s.working.isSome = true → t.working.isSome = true ∧ t.committed = s.committed

theorem Contained.refl (s : Session σ) : Contained s s := fun h => ⟨h, rfl⟩

theorem Contained.trans {u : Session σ} (h : Contained s t) (h' : Contained t u) :
    Contained s u := by
  intro hs
  obtain ⟨ht, hcommitted⟩ := h hs
  obtain ⟨hu, hcommitted'⟩ := h' ht
  exact ⟨hu, hcommitted'.trans hcommitted⟩

theorem contained_put (x : σ) : Contained s (s.put x) := by
  obtain ⟨c, w⟩ := s
  cases w with
  | none => exact fun h => nomatch h
  | some y => exact fun _ => ⟨rfl, rfl⟩

theorem within_statement (e : ε) (fails : Bool) (f : σ → Option (α × σ)) :
    Prog.Within Contained (statement e fails f) := by
  refine Prog.Within.attempt Contained.refl fun s a t h => ?_
  cases fails with
  | true => cases h
  | false =>
    obtain ⟨r, -, hr⟩ := Option.map_eq_some_iff.mp h
    cases hr
    exact contained_put r.2

/-! ### Running a statement -/

theorem exec_statement (e : ε) (fails : Bool) (f : σ → Option (α × σ)) (x y : σ) :
    (statement e fails f).exec ⟨x, some y⟩ = match if fails then none else f y with
      | some (a, z) => (.ok a, ⟨x, some z⟩)
      | none => (.error e, ⟨x, some y⟩) := by
  rw [statement, Prog.exec_attempt]
  cases fails with
  | true => rfl
  | false =>
    have hcurrent : (⟨x, some y⟩ : Session σ).current = y := rfl
    rw [hcurrent]
    cases f y <;> rfl

/-- A statement of a transaction returns exactly when it does not fail. -/
theorem exec_statement_ok_iff {e : ε} {fails : Bool} {f : σ → Option (α × σ)} {x y : σ} {a : α} :
    (statement e fails f).exec ⟨x, some y⟩ = (.ok a, t) ↔
      fails = false ∧ ∃ z, f y = some (a, z) ∧ t = ⟨x, some z⟩ := by
  rw [exec_statement]
  cases fails with
  | true => simp
  | false =>
    rcases f y with _ | ⟨b, z⟩
    · simp
    · constructor
      · intro h
        cases h
        exact ⟨rfl, z, rfl, rfl⟩
      · rintro ⟨-, _, h, rfl⟩
        cases h
        rfl

/-! ### Running a transaction -/

variable {body : Prog (Session σ) ε α} {e : ε} {beginFails commitFails : Bool} {x : σ}

/-- It returns exactly when `BEGIN`, the body and `COMMIT` do. -/
theorem exec_transaction_ok_iff {a : α} (hbody : Prog.Within Contained body) :
    (transaction e beginFails commitFails body).exec ⟨x, none⟩ = (.ok a, t) ↔
      beginFails = false ∧ commitFails = false ∧
        ∃ y, body.exec ⟨x, some x⟩ = (.ok a, ⟨x, some y⟩) ∧ t = ⟨y, none⟩ := by
  have hcontained := hbody.exec Contained.refl (fun _ _ _ => Contained.trans) ⟨x, some x⟩ rfl
  rw [transaction, Prog.exec_tryCatch, Prog.exec_bind, beginTransaction, Prog.exec_attempt]
  cases beginFails with
  | true => simp [rollback, Prog.exec_bind]
  | false =>
    simp only [Bool.false_eq_true, if_false, current_mk_none, Prog.exec_bind, commit,
      Prog.exec_attempt]
    rcases hrun : body.exec ⟨x, some x⟩ with ⟨thrown | b, c, w⟩
    · simp [rollback]
    · rw [hrun] at hcontained
      obtain ⟨hopen, rfl⟩ := hcontained
      obtain ⟨y, rfl⟩ := Option.isSome_iff_exists.mp hopen
      cases commitFails with
      | true => simp [rollback]
      | false =>
        simp only [Bool.false_eq_true, if_false, current_mk_some, Prog.exec_pure, Prod.mk.injEq,
          Except.ok.injEq, true_and]
        constructor
        · rintro ⟨rfl, rfl⟩
          exact ⟨y, ⟨rfl, rfl⟩, rfl⟩
        · rintro ⟨z, ⟨rfl, hz⟩, rfl⟩
          cases hz
          exact ⟨rfl, rfl⟩

/-- When it throws, nothing has been committed and the transaction is closed. -/
theorem exec_transaction_error {thrown : ε} (hbody : Prog.Within Contained body)
    (h : (transaction e beginFails commitFails body).exec ⟨x, none⟩ = (.error thrown, t)) :
    t = ⟨x, none⟩ := by
  have hcontained := hbody.exec Contained.refl (fun _ _ _ => Contained.trans) ⟨x, some x⟩ rfl
  rw [transaction, Prog.exec_tryCatch, Prog.exec_bind, beginTransaction, Prog.exec_attempt] at h
  cases beginFails with
  | true =>
    simp only [rollback, if_true, Prog.exec_bind, Prog.exec_write, Prog.exec_throw] at h
    exact (Prod.mk.inj h).2.symm
  | false =>
    simp only [Bool.false_eq_true, if_false, current_mk_none, Prog.exec_bind, commit,
      Prog.exec_attempt] at h
    rcases hrun : body.exec ⟨x, some x⟩ with ⟨thrown' | b, c, w⟩
    all_goals
      rw [hrun] at h hcontained
      obtain ⟨-, rfl⟩ := hcontained
    · exact (Prod.mk.inj h).2.symm
    · cases commitFails with
      | true => exact (Prod.mk.inj h).2.symm
      | false => cases (Prod.mk.inj h).1

end Session

end Sql
