import Mathlib.Control.Monad.Basic

/-!
# Programs that act on a shared state one atomic step at a time

A `Prog σ ε α` is the text of an asynchronous function still to be run: it has
returned, has thrown, or waits to perform one atomic action on the shared state
`σ`. An action may have to wait (`ready`), for instance for a row lock. Between
two actions other programs may run, so the same value serves both for a run to
completion without a concurrent writer (`Prog.exec`) and for an arbitrary
interleaving.

## Main definitions

* `Prog`, with its monad and exception operations
* `Prog.step`, `Prog.read`, `Prog.write`, `Prog.attempt` — the atomic actions
* `Prog.exec` — the run to completion from a given state
-/

/-- A program over the shared state `σ`, throwing `ε` and returning `α`. -/
inductive Prog (σ ε α : Type) where
  | ret (a : α)
  | fail (e : ε)
  | act (ready : σ → Bool) (next : σ → σ) (cont : σ → Prog σ ε α)

namespace Prog

variable {σ ε α β γ : Type}

/-- Sequential composition. -/
def bind : Prog σ ε α → (α → Prog σ ε β) → Prog σ ε β
  | ret a, f => f a
  | fail e, _ => fail e
  | act ready next cont, f => act ready next fun s => (cont s).bind f

/-- `try p catch h`. -/
def catching : Prog σ ε α → (ε → Prog σ ε α) → Prog σ ε α
  | ret a, _ => ret a
  | fail e, h => h e
  | act ready next cont, h => act ready next fun s => (cont s).catching h

instance : Monad (Prog σ ε) where
  pure := ret
  bind := bind

instance : MonadExceptOf ε (Prog σ ε) where
  throw := fail
  tryCatch := catching

theorem bind_eq (p : Prog σ ε α) (f : α → Prog σ ε β) : p >>= f = p.bind f := rfl

theorem tryCatch_eq (p : Prog σ ε α) (h : ε → Prog σ ε α) : tryCatch p h = p.catching h := rfl

theorem bind_ret (p : Prog σ ε α) : p.bind ret = p := by
  induction p with
  | ret a => rfl
  | fail e => rfl
  | act ready next cont ih => simp only [bind, ih]

theorem bind_assoc (p : Prog σ ε α) (f : α → Prog σ ε β) (g : β → Prog σ ε γ) :
    (p.bind f).bind g = p.bind fun a => (f a).bind g := by
  induction p with
  | ret a => rfl
  | fail e => rfl
  | act ready next cont ih => simp only [bind, ih]

theorem map_eq (f : α → β) (p : Prog σ ε α) : f <$> p = p.bind fun a => ret (f a) := rfl

instance : LawfulMonad (Prog σ ε) :=
  LawfulMonad.mk' (Prog σ ε) bind_ret (fun _ _ => rfl) bind_assoc

/-! ### Atomic actions -/

/-- The outcome of an atomic action as a finished program. -/
def ofExcept : Except ε α → Prog σ ε α
  | .ok a => ret a
  | .error e => fail e

/-- One atomic action, performed once `ready` holds. -/
def step (ready : σ → Bool) (f : σ → Except ε α × σ) : Prog σ ε α :=
  act ready (fun s => (f s).2) fun s => ofExcept (f s).1

/-- An action that always can be performed. -/
def atomic (f : σ → Except ε α × σ) : Prog σ ε α := step (fun _ => true) f

/-- Read from the state. -/
def read (f : σ → α) : Prog σ ε α := atomic fun s => (.ok (f s), s)

/-- Change the state. -/
def write (f : σ → σ) : Prog σ ε Unit := atomic fun s => (.ok (), f s)

/-- Change the state, or throw `e` and leave it as it is. -/
def attempt (e : ε) (f : σ → Option (α × σ)) : Prog σ ε α :=
  atomic fun s => match f s with
    | some (a, t) => (.ok a, t)
    | none => (.error e, s)

/-- The effect of the program's next action; none is left when it has finished. -/
def first : Prog σ ε α → σ → σ
  | act _ next _, s => next s
  | _, s => s

/-! ### Running to completion -/

/-- Run a program with no other program acting in between. -/
def exec : Prog σ ε α → σ → Except ε α × σ
  | ret a, s => (.ok a, s)
  | fail e, s => (.error e, s)
  | act _ next cont, s => exec (cont s) (next s)

@[simp] theorem exec_ret (a : α) (s : σ) : exec (ret a : Prog σ ε α) s = (.ok a, s) := rfl

@[simp] theorem exec_fail (e : ε) (s : σ) : exec (fail e : Prog σ ε α) s = (.error e, s) := rfl

@[simp] theorem exec_pure (a : α) (s : σ) : exec (pure a : Prog σ ε α) s = (.ok a, s) := rfl

@[simp] theorem exec_throw (e : ε) (s : σ) : exec (throw e : Prog σ ε α) s = (.error e, s) := rfl

theorem exec_bind (p : Prog σ ε α) (f : α → Prog σ ε β) (s : σ) :
    exec (p >>= f) s = match exec p s with
      | (.ok a, t) => exec (f a) t
      | (.error e, t) => (.error e, t) := by
  rw [bind_eq]
  induction p generalizing s with
  | ret a => rfl
  | fail e => rfl
  | act ready next cont ih => exact ih s (next s)

theorem exec_tryCatch (p : Prog σ ε α) (h : ε → Prog σ ε α) (s : σ) :
    exec (tryCatch p h) s = match exec p s with
      | (.ok a, t) => (.ok a, t)
      | (.error e, t) => exec (h e) t := by
  rw [tryCatch_eq]
  induction p generalizing s with
  | ret a => rfl
  | fail e => rfl
  | act ready next cont ih => exact ih s (next s)

@[simp] theorem exec_step (ready : σ → Bool) (f : σ → Except ε α × σ) (s : σ) :
    exec (step ready f) s = f s := by
  change exec (ofExcept (f s).1) (f s).2 = f s
  obtain ⟨r, t⟩ := f s
  cases r <;> rfl

@[simp] theorem exec_atomic (f : σ → Except ε α × σ) (s : σ) : exec (atomic f) s = f s :=
  exec_step _ f s

@[simp] theorem exec_read (f : σ → α) (s : σ) :
    exec (read f : Prog σ ε α) s = (.ok (f s), s) := exec_atomic _ s

@[simp] theorem exec_write (f : σ → σ) (s : σ) :
    exec (write f : Prog σ ε Unit) s = (.ok (), f s) := exec_atomic _ s

theorem exec_attempt (e : ε) (f : σ → Option (α × σ)) (s : σ) :
    exec (attempt e f : Prog σ ε α) s = match f s with
      | some (a, t) => (.ok a, t)
      | none => (.error e, s) := exec_atomic _ s

theorem exec_ite (c : Prop) [Decidable c] (p q : Prog σ ε α) (s : σ) :
    exec (if c then p else q) s = if c then exec p s else exec q s := by
  split <;> rfl

/-- Symbolic execution of a read followed by the rest of the program. -/
@[simp] theorem exec_read_bind (f : σ → α) (k : α → Prog σ ε β) (s : σ) :
    exec (read f >>= k) s = exec (k (f s)) s := by
  rw [exec_bind, exec_read]

@[simp] theorem exec_write_bind (f : σ → σ) (k : Unit → Prog σ ε β) (s : σ) :
    exec (write f >>= k) s = exec (k ()) (f s) := by
  rw [exec_bind, exec_write]

/-- A composition returns exactly when both parts do. -/
theorem exec_bind_ok_iff {p : Prog σ ε α} {f : α → Prog σ ε β} {s u : σ} {b : β} :
    exec (p >>= f) s = (.ok b, u) ↔
      ∃ a t, exec p s = (.ok a, t) ∧ exec (f a) t = (.ok b, u) := by
  rw [exec_bind]
  rcases exec p s with ⟨e | a, t⟩
  · simp
  · simp only [Prod.mk.injEq, Except.ok.injEq]
    constructor
    · intro h
      exact ⟨a, t, ⟨rfl, rfl⟩, h⟩
    · rintro ⟨_, _, ⟨rfl, rfl⟩, h⟩
      exact h

/-- What follows leaves the state alone. -/
theorem exec_bind_snd {p : Prog σ ε α} {f : α → Prog σ ε β} {s : σ}
    (h : ∀ a t, (exec (f a) t).2 = t) : (exec (p >>= f) s).2 = (exec p s).2 := by
  rw [exec_bind]
  rcases exec p s with ⟨e | a, t⟩
  · rfl
  · exact h a t

/-- With a handler that only rethrows, the body has returned. -/
theorem exec_tryCatch_ok {p : Prog σ ε α} {h : ε → Prog σ ε α} {s t : σ} {a : α}
    (hthrow : ∀ e u, ∃ e', exec (h e) u = (.error e', u))
    (hrun : exec (tryCatch p h) s = (.ok a, t)) : exec p s = (.ok a, t) := by
  rw [exec_tryCatch] at hrun
  rcases hp : exec p s with ⟨e | b, u⟩
  · rw [hp] at hrun
    obtain ⟨e', he'⟩ := hthrow e u
    dsimp only at hrun
    rw [he'] at hrun
    cases hrun
  · rw [hp] at hrun
    exact hrun

/-- A handler that only rethrows leaves the state to the body. -/
theorem exec_tryCatch_snd {p : Prog σ ε α} {h : ε → Prog σ ε α} {s : σ}
    (hthrow : ∀ e u, ∃ e', exec (h e) u = (.error e', u)) :
    (exec (tryCatch p h) s).2 = (exec p s).2 := by
  rw [exec_tryCatch]
  rcases exec p s with ⟨e | a, t⟩
  · obtain ⟨e', he'⟩ := hthrow e t
    dsimp only
    rw [he']
  · rfl

/-! ### Programs on a part of a larger state -/

section Zoom

variable {τ : Type} {get : τ → σ} {set : τ → σ → τ}

/-- The program on the part of a larger state that `get` reads and `set` replaces. -/
def zoom (get : τ → σ) (set : τ → σ → τ) : Prog σ ε α → Prog τ ε α
  | ret a => ret a
  | fail e => fail e
  | act ready next cont =>
    act (fun t => ready (get t)) (fun t => set t (next (get t))) fun t => (cont (get t)).zoom get set

/-- It runs as it would on the part alone. -/
theorem exec_zoom (hget : ∀ t s, get (set t s) = s) (hset : ∀ t s s', set (set t s) s' = set t s')
    (hself : ∀ t, set t (get t) = t) (p : Prog σ ε α) (t : τ) :
    exec (p.zoom get set) t = ((exec p (get t)).1, set t (exec p (get t)).2) := by
  induction p generalizing t with
  | ret a => exact congrArg (Prod.mk _) (hself t).symm
  | fail e => exact congrArg (Prod.mk _) (hself t).symm
  | act ready next cont ih =>
    change exec ((cont (get t)).zoom get set) (set t (next (get t))) = _
    rw [ih, hget, hset]
    rfl

end Zoom

/-! ### What every action of a program may do -/

/-- Every action of the program, from any state, is a step of `R`. -/
def Within (R : σ → σ → Prop) : Prog σ ε α → Prop
  | ret _ => True
  | fail _ => True
  | act _ next cont => ∀ s, R s (next s) ∧ Within R (cont s)

namespace Within

variable {R : σ → σ → Prop}

theorem pure (a : α) : Within R (Pure.pure a : Prog σ ε α) := trivial

theorem throw (e : ε) : Within R (MonadExcept.throw e : Prog σ ε α) := trivial

theorem bind {p : Prog σ ε α} {f : α → Prog σ ε β} (hp : Within R p) (hf : ∀ a, Within R (f a)) :
    Within R (p >>= f) := by
  rw [bind_eq]
  induction p with
  | ret a => exact hf a
  | fail e => trivial
  | act ready next cont ih => exact fun s => ⟨(hp s).1, ih s (hp s).2⟩

theorem tryCatch {p : Prog σ ε α} {h : ε → Prog σ ε α} (hp : Within R p)
    (hh : ∀ e, Within R (h e)) : Within R (tryCatchThe ε p h) := by
  change Within R (p.catching h)
  induction p with
  | ret a => trivial
  | fail e => exact hh e
  | act ready next cont ih => exact fun s => ⟨(hp s).1, ih s (hp s).2⟩

theorem ofExcept (r : Except ε α) : Within R (Prog.ofExcept r : Prog σ ε α) := by
  cases r <;> trivial

theorem step {ready : σ → Bool} {f : σ → Except ε α × σ} (h : ∀ s, R s (f s).2) :
    Within R (Prog.step ready f) := by
  intro s
  exact ⟨h s, ofExcept _⟩

theorem read (hrefl : ∀ s, R s s) (f : σ → α) : Within R (Prog.read f : Prog σ ε α) :=
  step hrefl

theorem write {f : σ → σ} (h : ∀ s, R s (f s)) : Within R (Prog.write f : Prog σ ε Unit) :=
  step h

theorem attempt (hrefl : ∀ s, R s s) {e : ε} {f : σ → Option (α × σ)}
    (h : ∀ s a t, f s = some (a, t) → R s t) : Within R (Prog.attempt e f) := by
  refine step fun s => ?_
  cases hf : f s with
  | none => exact hrefl s
  | some r => exact h s r.1 r.2 hf

theorem ite {c : Prop} [Decidable c] {p q : Prog σ ε α} (hp : Within R p) (hq : Within R q) :
    Within R (if c then p else q) := by
  split
  · exact hp
  · exact hq

theorem forM {γ : Type} {f : γ → Prog σ ε PUnit} {l : List γ} (hf : ∀ x ∈ l, Within R (f x)) :
    Within R (l.forM f) := by
  induction l with
  | nil => trivial
  | cons x l ih =>
    change Within R (f x >>= fun _ => l.forM f)
    exact bind (hf x List.mem_cons_self) fun _ => ih fun y hy => hf y (List.mem_cons_of_mem _ hy)

theorem mono {R' : σ → σ → Prop} {p : Prog σ ε α} (hp : Within R p) (h : ∀ s t, R s t → R' s t) :
    Within R' p := by
  induction p with
  | ret a => trivial
  | fail e => trivial
  | act ready next cont ih => exact fun s => ⟨h _ _ (hp s).1, ih s (hp s).2⟩

theorem zoom {τ : Type} {get : τ → σ} {set : τ → σ → τ} {R' : τ → τ → Prop} {p : Prog σ ε α}
    (hp : Within R p) (h : ∀ t s, R (get t) s → R' t (set t s)) : Within R' (p.zoom get set) := by
  induction p with
  | ret a => trivial
  | fail e => trivial
  | act ready next cont ih =>
    exact fun t => ⟨h t _ (hp (get t)).1, ih (get t) (hp (get t)).2⟩

/-- A run to completion stays within the closure of its actions. -/
theorem exec (hrefl : ∀ s, R s s) (htrans : ∀ s t u, R s t → R t u → R s u) {p : Prog σ ε α}
    (hp : Within R p) (s : σ) : R s (Prog.exec p s).2 := by
  induction p generalizing s with
  | ret a => exact hrefl s
  | fail e => exact hrefl s
  | act ready next cont ih => exact htrans _ _ _ (hp s).1 (ih s (hp s).2 (next s))

end Within

/-- Every action of the program leaves the state alone. -/
def Reads (p : Prog σ ε α) : Prop := Within (fun s t => t = s) p

theorem reads_read (f : σ → α) : Reads (read f : Prog σ ε α) :=
  Within.read (R := fun s t => t = s) (fun _ => rfl) f

theorem Reads.exec_snd {p : Prog σ ε α} (hp : Reads p) (s : σ) : (exec p s).2 = s :=
  Within.exec (R := fun s t => t = s) (fun _ => rfl) (fun _ _ _ h h' => h'.trans h) hp s

/-- A composition whose first part only reads. -/
theorem Reads.exec_bind {p : Prog σ ε α} (hp : Reads p) (f : α → Prog σ ε β) (s : σ) :
    (∃ e, exec (p >>= f) s = (.error e, s)) ∨ ∃ a, exec (p >>= f) s = exec (f a) s := by
  rw [Prog.exec_bind]
  have hsnd := hp.exec_snd s
  rcases hr : exec p s with ⟨e | a, t⟩
  · rw [hr] at hsnd
    exact .inl ⟨e, by rw [← hsnd]⟩
  · rw [hr] at hsnd
    exact .inr ⟨a, by rw [← hsnd]⟩

/-- Swallowing every exception makes a program that always returns. -/
theorem exec_tryCatch_pure (p : Prog σ ε Unit) (s : σ) :
    Prog.exec (tryCatch p fun _ => pure ()) s = (.ok (), (Prog.exec p s).2) := by
  rw [exec_tryCatch]
  rcases Prog.exec p s with ⟨_ | _, t⟩ <;> rfl

/-- No action of the program ever waits. -/
def NeverWaits : Prog σ ε α → Prop
  | ret _ => True
  | fail _ => True
  | act ready _ cont => ∀ s, ready s = true ∧ NeverWaits (cont s)

namespace NeverWaits

theorem pure (a : α) : NeverWaits (Pure.pure a : Prog σ ε α) := trivial

theorem throw (e : ε) : NeverWaits (MonadExcept.throw e : Prog σ ε α) := trivial

theorem bind {p : Prog σ ε α} {f : α → Prog σ ε β} (hp : NeverWaits p)
    (hf : ∀ a, NeverWaits (f a)) : NeverWaits (p >>= f) := by
  rw [bind_eq]
  induction p with
  | ret a => exact hf a
  | fail e => trivial
  | act ready next cont ih => exact fun s => ⟨(hp s).1, ih s (hp s).2⟩

theorem tryCatch {p : Prog σ ε α} {h : ε → Prog σ ε α} (hp : NeverWaits p)
    (hh : ∀ e, NeverWaits (h e)) : NeverWaits (tryCatchThe ε p h) := by
  change NeverWaits (p.catching h)
  induction p with
  | ret a => trivial
  | fail e => exact hh e
  | act ready next cont ih => exact fun s => ⟨(hp s).1, ih s (hp s).2⟩

theorem atomic (f : σ → Except ε α × σ) : NeverWaits (Prog.atomic f) := by
  intro s
  refine ⟨rfl, ?_⟩
  change NeverWaits (Prog.ofExcept (f s).1)
  cases (f s).1 <;> trivial

theorem read (f : σ → α) : NeverWaits (Prog.read f : Prog σ ε α) := atomic _

theorem attempt (e : ε) (f : σ → Option (α × σ)) : NeverWaits (Prog.attempt e f) := atomic _

theorem ite {c : Prop} [Decidable c] {p q : Prog σ ε α} (hp : NeverWaits p) (hq : NeverWaits q) :
    NeverWaits (if c then p else q) := by
  split
  · exact hp
  · exact hq

theorem forM {γ : Type} {f : γ → Prog σ ε PUnit} {l : List γ} (hf : ∀ x, NeverWaits (f x)) :
    NeverWaits (l.forM f) := by
  induction l with
  | nil => trivial
  | cons x l ih =>
    change NeverWaits (f x >>= fun _ => l.forM f)
    exact bind (hf x) fun _ => ih

end NeverWaits

/-- Every action of the program can be performed in the states that meet `K`. -/
def ReadyIn (K : σ → Prop) : Prog σ ε α → Prop
  | ret _ => True
  | fail _ => True
  | act ready _ cont => (∀ s, K s → ready s = true) ∧ ∀ s, ReadyIn K (cont s)

namespace ReadyIn

variable {K : σ → Prop}

theorem pure (a : α) : ReadyIn K (Pure.pure a : Prog σ ε α) := trivial

theorem throw (e : ε) : ReadyIn K (MonadExcept.throw e : Prog σ ε α) := trivial

theorem bind {p : Prog σ ε α} {f : α → Prog σ ε β} (hp : ReadyIn K p) (hf : ∀ a, ReadyIn K (f a)) :
    ReadyIn K (p >>= f) := by
  rw [bind_eq]
  induction p with
  | ret a => exact hf a
  | fail e => trivial
  | act ready next cont ih => exact ⟨hp.1, fun s => ih s (hp.2 s)⟩

theorem tryCatch {p : Prog σ ε α} {h : ε → Prog σ ε α} (hp : ReadyIn K p)
    (hh : ∀ e, ReadyIn K (h e)) : ReadyIn K (tryCatchThe ε p h) := by
  change ReadyIn K (p.catching h)
  induction p with
  | ret a => trivial
  | fail e => exact hh e
  | act ready next cont ih => exact ⟨hp.1, fun s => ih s (hp.2 s)⟩

theorem step {ready : σ → Bool} {f : σ → Except ε α × σ} (h : ∀ s, K s → ready s = true) :
    ReadyIn K (Prog.step ready f) := by
  refine ⟨h, fun s => ?_⟩
  change ReadyIn K (Prog.ofExcept (f s).1)
  cases (f s).1 <;> trivial

theorem atomic (f : σ → Except ε α × σ) : ReadyIn K (Prog.atomic f) := step fun _ _ => rfl

theorem read (f : σ → α) : ReadyIn K (Prog.read f : Prog σ ε α) := atomic _

theorem attempt (e : ε) (f : σ → Option (α × σ)) : ReadyIn K (Prog.attempt e f) := atomic _

theorem ite {c : Prop} [Decidable c] {p q : Prog σ ε α} (hp : ReadyIn K p) (hq : ReadyIn K q) :
    ReadyIn K (if c then p else q) := by
  split
  · exact hp
  · exact hq

end ReadyIn

end Prog
