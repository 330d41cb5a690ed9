import Feedbase.Common.BootMigrations
import Feedbase.Lib.Waits

/-!
# Workers that boot at the same time

Any number of workers boot, one action at a time in any order. They come and go: a worker may
die at any point, and the server gives its lock to another one.

What a worker knows is that the parts it has looked at are there. Nobody takes parts away, so
a worker that comes to the end has a complete schema in front of it, with the lock or without.
The lock is for the others: without it, a part may appear between the look and the `ALTER`, and
a worker refuses to start although nothing is wrong.

## Main definitions

* `BootPhase`, `BootStep` — how far a worker has come, and its next action

## Main results

* `paced_startServer`
* `listening_complete` — a worker that listens has a complete schema
* `lost_lock_refuses` — a script that outlives its lock makes another worker refuse to start
-/

namespace Feedbase

/-- How far a worker has come. `known` are the parts it has found or added. -/
inductive BootPhase where
  | start
  | connected (conn : Nat)
  | waiting (conn : Nat)
  | holding (conn : Nat) (known : List Part)
  /-- the part of the change was missing -/
  | adding (conn : Nat) (known : List Part) (ch : Change)
  | failing (conn : Nat)
  | skipped
  | done (known : List Part)
  | refused

namespace BootPhase

/-- The connection of a worker that has not finished. -/
def conn : BootPhase → Option Nat
  | .connected c | .waiting c | .holding c _ | .adding c _ _ | .failing c => some c
  | _ => none

def known : BootPhase → List Part
  | .holding _ k | .adding _ k _ | .done k => k
  | _ => []

/-- The worker has been given the lock, and has not released it. -/
def Holds (conn : Nat) : BootPhase → Prop
  | .holding c _ | .adding c _ _ | .failing c => c = conn
  | _ => False

/-- What keeps a worker from acting: it is dead, or somebody else holds the lock. -/
def Waits : BootPhase → BootState → Prop
  | .connected c, s | .holding c _, s | .adding c _ _, s | .failing c, s => s.alive c = false
  | .waiting c, s => s.alive c = false ∨ s.holder ≠ none
  | _, _ => False

variable {φ : BootPhase} {c : Nat}

theorem Holds.conn_eq (h : φ.Holds c) : φ.conn = some c := by
  cases φ <;> first | exact h.elim | exact congrArg some h

/-- Nothing but its own death keeps the holder of the lock from acting. -/
theorem Holds.dead {s : BootState} (h : φ.Holds c) (hwaits : φ.Waits s) : s.alive c = false := by
  cases φ <;> first | exact h.elim | (cases h; exact hwaits)

end BootPhase

/-- Something has gone wrong that is none of the worker's doing. -/
def BootState.Broken (s : BootState) (conn : Nat) : Prop :=
  s.lost.contains conn = true ∨ ∃ t, s.fails t = true

/-- One action of a worker. -/
inductive BootStep : BootPhase → BootState → BootPhase → BootState → Prop where
  | connects {s : BootState} :
    BootStep .start s (.connected s.nextConn) { s with nextConn := s.nextConn + 1 }
  | noConnection {s : BootState} (h : s.fails .connections = true) : BootStep .start s .refused s
  | asks {s : BootState} {c : Nat} (alive : s.alive c = true) :
    BootStep (.connected c) s (.waiting c) { s with waiting := s.waiting ++ [⟨c, s.now⟩] }
  | askFails {s : BootState} {c : Nat} (h : s.Broken c) : BootStep (.connected c) s .refused s
  | locks {s : BootState} {c : Nat} (alive : s.alive c = true) (free : s.holder = none) :
    BootStep (.waiting c) s (.holding c []) { s.stopWaiting c with holder := some c }
  | givesUp {s : BootState} {c : Nat} (h : s.lost.contains c = true ∨ s.timedOut c = true) :
    BootStep (.waiting c) s .refused (s.stopWaiting c)
  | finds {s : BootState} {c : Nat} {known : List Part} {p : Part} (found : p ∈ s.schema) :
    BootStep (.holding c known) s (.holding c (known ++ [p])) s
  | misses {s : BootState} {c : Nat} {known : List Part} {ch : Change} (alive : s.alive c = true)
    (missing : ch.part ∉ s.schema) (needs : ∀ p ∈ ch.needs, p ∈ oldParts ∨ p ∈ known) :
    BootStep (.holding c known) s (.adding c known ch) s
  | adds {s : BootState} {c : Nat} {known : List Part} {ch : Change} (alive : s.alive c = true) :
    BootStep (.adding c known ch) s (.holding c (known ++ [ch.part])) (s.withPart ch.part)
  | addFails {s : BootState} {c : Nat} {known : List Part} {ch : Change} (alive : s.alive c = true)
    (h : s.accepts ch = false ∨ s.Broken c) : BootStep (.adding c known ch) s (.failing c) s
  | scriptFails {s : BootState} {c : Nat} {known : List Part} (h : s.Broken c) :
    BootStep (.holding c known) s (.failing c) s
  | spawns {s : BootState} {c : Nat} {known : List Part} :
    BootStep (.holding c known) s (.holding c known) s
  | logs {s : BootState} {c : Nat} {known : List Part} (console : List (String × List String)) :
    BootStep (.holding c known) s (.holding c known) { s with console := console }
  | unlocks {s : BootState} {c : Nat} {known : List Part} :
    BootStep (.holding c known) s (.done known) (s.unlock c)
  | unlockFails {s : BootState} {c : Nat} {known : List Part} (h : s.Broken c) :
    BootStep (.holding c known) s .refused s
  | fails {s t : BootState} {c : Nat} (h : t = s ∨ t = s.unlock c) :
    BootStep (.failing c) s .refused t

/-! ### Every action of a worker is one of these -/

section Paced

variable {α : Type} {c : Nat} {known : List Part}

/-- A part of a worker's program. -/
abbrev Works (post : BootPhase → Except BootError α → Prop) (φ : BootPhase) (p : Boot α) : Prop :=
  Paced BootPhase.Waits BootStep post φ p

/-- A part of a script comes to know `known'`, or fails. -/
abbrev Learns (c : Nat) (known' : List Part) : BootPhase → Except BootError α → Prop :=
  Outcome (fun φ _ => φ = .holding c known') (· = .failing c)

/-- A statement of a script either fails for a reason of its own, or does what it says. -/
theorem works_inScript {f : BootState → Except BootError α × BootState} {φ : BootPhase}
    {post : BootPhase → Except BootError α → Prop} (hwait : ∀ s, s.alive c = false → φ.Waits s)
    (hbroken : ∀ s, s.alive c = true → s.Broken c →
      ∃ φ', BootStep φ s φ' s ∧ post φ' (.error .rejected))
    (h : ∀ s, s.alive c = true → ∃ φ', BootStep φ s φ' (f s).2 ∧ post φ' (f s).1) :
    Works post φ (inScript c f) := by
  refine Paced.step hwait fun s alive => ?_
  by_cases hfails : s.fails .statements = true
  · rw [if_pos hfails]
    exact hbroken s alive (.inr ⟨_, hfails⟩)
  · rw [if_neg hfails]
    exact h s alive

/-- The same for a statement on the connection of the lock. -/
theorem works_onConn {f : BootState → Except BootError α × BootState} {φ : BootPhase}
    {post : BootPhase → Except BootError α → Prop} (hwait : ∀ s, s.alive c = false → φ.Waits s)
    (hbroken : ∀ s, s.Broken c → ∃ φ', BootStep φ s φ' s ∧ ∀ e, post φ' (.error e))
    (h : ∀ s, s.alive c = true → ∃ φ', BootStep φ s φ' (f s).2 ∧ post φ' (f s).1) :
    Works post φ (onConn c f) := by
  refine Paced.step hwait fun s alive => ?_
  by_cases hlost : s.lost.contains c = true
  · rw [if_pos hlost]
    obtain ⟨φ', hstep, hpost⟩ := hbroken s (.inl hlost)
    exact ⟨φ', hstep, hpost _⟩
  rw [if_neg hlost]
  by_cases hfails : s.fails .statements = true
  · rw [if_pos hfails]
    obtain ⟨φ', hstep, hpost⟩ := hbroken s (.inr ⟨_, hfails⟩)
    exact ⟨φ', hstep, hpost _⟩
  · rw [if_neg hfails]
    exact h s alive

theorem works_alterTable {ch : Change} :
    Works (Learns c (known ++ [ch.part])) (.adding c known ch) (alterTable c ch) := by
  refine works_inScript (fun s hwait => hwait) (fun s alive h => ⟨_, .addFails alive (.inr h), rfl⟩)
    fun s alive => ?_
  by_cases haccepts : s.accepts ch = true
  · rw [if_pos haccepts]
    exact ⟨_, .adds alive, rfl⟩
  · rw [if_neg haccepts]
    exact ⟨_, .addFails alive (.inl (by simpa using haccepts)), rfl⟩

/-- A part that is there is known from now on, and one that is not is about to be added. -/
theorem works_hasPart {ch : Change} (hneeds : ∀ p ∈ ch.needs, p ∈ oldParts ∨ p ∈ known) :
    Works (Outcome (fun φ found =>
        φ = if found then .holding c (known ++ [ch.part]) else .adding c known ch)
      (· = .failing c)) (.holding c known) (hasPart c ch.part) := by
  refine works_inScript (fun s hwait => hwait) (fun s _ h => ⟨_, .scriptFails h, rfl⟩)
    fun s alive => ?_
  by_cases hfound : ch.part ∈ s.schema
  · exact ⟨_, .finds hfound, by simp [hfound]⟩
  · exact ⟨_, .misses alive hfound hneeds, by simp [hfound]⟩

theorem works_addPart {ch : Change} (hneeds : ∀ p ∈ ch.needs, p ∈ oldParts ∨ p ∈ known) :
    Works (Learns c (known ++ [ch.part])) (.holding c known) (addPart c ch) := by
  refine Paced.bind (works_hasPart hneeds) (fun φ found hφ => ?_) fun _ _ h => h
  cases found with
  | true =>
    subst hφ
    exact Paced.ret rfl
  | false =>
    subst hφ
    exact Paced.bind works_alterTable (fun _ _ h => Paced.ret h) fun _ _ h => h

theorem works_addParts {changes : List Change} (horder : NeedsMet known changes) :
    Works (Learns c (known ++ changes.map (·.part))) (.holding c known) (addParts c changes) := by
  induction changes generalizing known with
  | nil =>
    refine Paced.ret ?_
    change BootPhase.holding c known = .holding c (known ++ [])
    rw [List.append_nil]
  | cons ch changes ih =>
    refine Paced.bind (works_addPart horder.1) (fun φ _ hφ => ?_) fun _ _ h => h
    have hrest := ih horder.2
    rw [List.append_assoc] at hrest
    rw [show φ = .holding c (known ++ [ch.part]) from hφ]
    exact Paced.bind hrest (fun _ _ h => Paced.ret h) fun _ _ h => h

theorem works_runScript {file : String} {changes : List Change} (horder : NeedsMet known changes) :
    Works (Learns c (known ++ changes.map (·.part))) (.holding c known)
      (runScript c file changes) := by
  have hspawn : Works (Learns c known) (.holding c known)
      (Prog.step (·.alive c) fun s =>
        if s.fails .processes then (.error .spawnFailed, s) else (.ok s.banner, s)) := by
    refine Paced.step (fun s hwait => hwait) fun s _ => ?_
    by_cases hfails : s.fails .processes = true
    · rw [if_pos hfails]
      exact ⟨_, .scriptFails (.inr ⟨_, hfails⟩), rfl⟩
    · rw [if_neg hfails]
      exact ⟨_, .spawns, rfl⟩
  refine Paced.bind hspawn (fun φ out hφ => ?_) fun _ _ h => h
  rw [show φ = .holding c known from hφ]
  refine Paced.catching (Paced.bind (works_addParts horder) (fun _ _ h => Paced.ret h)
    fun _ _ h => h) (fun _ _ h => h) fun _ _ h => Paced.throw h

theorem works_logChanges {file : String} {out : List String} :
    Works (Learns c known) (.holding c known) (logChanges c file out) := by
  unfold logChanges
  by_cases hnone : out.filter isChange = []
  · rw [if_pos hnone]
    exact Paced.ret rfl
  · rw [if_neg hnone]
    exact Paced.step (fun s hwait => hwait) fun s _ => ⟨_, .logs _, rfl⟩

/-- The scripts that are left run in their order. -/
def ScriptsLeft (c : Nat) (left : List (String × List Change)) (φ : BootPhase) : Prop :=
  ∃ known, φ = .holding c known ∧ NeedsMet known (left.flatMap (·.2)) ∧
    known ++ left.flatMap (fun m => m.2.map (·.part)) = migratedParts

theorem works_migrateAll : Works (Learns c migratedParts) (.holding c []) (migrateAll c) := by
  have hall : Works (Outcome (fun φ _ => ScriptsLeft c [] φ) (· = .failing c)) (.holding c [])
      (migrateAll c) := by
    refine Paced.forM (I := ScriptsLeft c) ?_ ⟨[], rfl, needsMet_migrations, rfl⟩
    rintro m left φ ⟨known, rfl, horder, hknown⟩
    rw [List.flatMap_cons, needsMet_append] at horder
    rw [List.flatMap_cons, ← List.append_assoc] at hknown
    refine Paced.bind (works_runScript horder.1) (fun φ out hφ => ?_) fun _ _ h => h
    rw [show φ = .holding c (known ++ m.2.map (·.part)) from hφ]
    refine Paced.mono works_logChanges fun φ' r hr => ?_
    cases r with
    | ok _ => exact ⟨_, hr, horder.2, hknown⟩
    | error _ => exact hr
  refine Paced.mono hall fun φ r hr => ?_
  cases r with
  | ok _ =>
    obtain ⟨known, rfl, -, hknown⟩ := hr
    rw [List.flatMap_nil, List.append_nil] at hknown
    rw [hknown]
    rfl
  | error _ => exact hr

/-- `GET_LOCK` gives the lock, or the worker refuses to start. -/
theorem works_getLock :
    Works (Outcome (fun φ got => φ = if got then .holding c [] else .refused) (· = .refused))
      (.connected c) (getLock c) := by
  have hask : Works (Outcome (fun φ _ => φ = .waiting c) (· = .refused)) (.connected c)
      (onConn c fun s => (.ok (), { s with waiting := s.waiting ++ [⟨c, s.now⟩] })) := by
    exact works_onConn (fun s hwait => hwait) (fun s h => ⟨_, .askFails h, fun _ => rfl⟩)
      fun s alive => ⟨_, .asks alive, rfl⟩
  -- the worker asks, and waits until the lock is its own or the time is over
  refine Paced.bind hask (fun φ _ hφ => ?_) fun _ _ h => h
  rw [show φ = .waiting c from hφ]
  refine Paced.step (fun s hwait => ?_) fun s hready => ?_
  · by_contra hW
    obtain ⟨halive, hfree⟩ : s.alive c = true ∧ s.holder = none := by
      simpa [BootPhase.Waits] using hW
    simp [halive, hfree] at hwait
  · obtain ⟨alive, hanswer⟩ := Bool.and_eq_true_iff.mp hready
    by_cases hlost : s.lost.contains c = true
    · rw [if_pos hlost]
      exact ⟨_, .givesUp (.inl hlost), rfl⟩
    rw [if_neg hlost]
    by_cases hfree : s.holder = none
    · rw [hfree]
      exact ⟨_, .locks alive hfree, rfl⟩
    · have hsome : s.holder.isNone = false := by
        rw [← Bool.not_eq_true, Option.isNone_iff_eq_none]
        exact hfree
      have hlate : s.timedOut c = true := by
        rw [Bool.not_eq_true] at hlost
        rwa [hlost, hsome, Bool.false_or, Bool.false_or] at hanswer
      rw [if_neg (by simp [hsome])]
      exact ⟨_, .givesUp (.inr hlate), rfl⟩

theorem works_releaseLock :
    Works (Outcome (fun φ _ => φ = .done known) (· = .refused)) (.holding c known)
      (releaseLock c) :=
  works_onConn (fun _ hwait => hwait) (fun _ h => ⟨_, .unlockFails h, fun _ => rfl⟩)
    fun _ _ => ⟨_, .unlocks, rfl⟩

/-- After a failure it makes no difference whether the lock can still be released. -/
theorem works_releaseLock_failing :
    Works (fun φ _ => φ = .refused) (.failing c) (releaseLock c) :=
  works_onConn (fun _ hwait => hwait) (fun _ _ => ⟨_, .fails (.inl rfl), fun _ => rfl⟩)
    fun _ _ => ⟨_, .fails (.inr rfl), rfl⟩

/-- How a worker ends. -/
def BootEnds : BootPhase → Except BootError Bool → Prop
  | φ, .ok true => φ = .done migratedParts
  | φ, _ => φ = .refused

theorem works_migrateLocked : Works BootEnds (.connected c) (migrateLocked c) := by
  refine Paced.bind works_getLock (fun φ got hφ => ?_) fun _ _ h => h
  cases got with
  | false => exact Paced.ret hφ
  | true =>
    rw [show φ = .holding c [] from hφ]
    have hbody : Works (Outcome (fun φ (failed : Option BootError) =>
        (failed = none ∧ φ = .holding c migratedParts) ∨ (failed.isSome = true ∧ φ = .failing c))
        fun _ => False) (.holding c [])
        (tryCatch (do migrateAll c; pure none) fun e => pure (some e)) := by
      have hnone : Works (Outcome (fun φ (failed : Option BootError) =>
          failed = none ∧ φ = .holding c migratedParts) (· = .failing c)) (.holding c [])
          (do migrateAll c; pure none) :=
        Paced.bind works_migrateAll (fun _ _ h => Paced.ret ⟨rfl, h⟩) fun _ _ h => h
      exact Paced.catching hnone (fun _ _ h => .inl h) fun _ _ h => Paced.ret (.inr ⟨rfl, h⟩)
    refine Paced.bind hbody (fun φ failed hφ => ?_) fun _ _ h => h.elim
    rcases hφ with ⟨rfl, rfl⟩ | ⟨hfailed, rfl⟩
    · exact Paced.bind works_releaseLock (fun _ _ h => Paced.ret h) fun _ _ h => h
    · obtain ⟨e, rfl⟩ := Option.isSome_iff_exists.mp hfailed
      exact Paced.bind works_releaseLock_failing (fun _ _ h => Paced.throw h) fun _ _ h => h

/-- Where a process starts. -/
def startPhase (skip : Bool) : BootPhase := if skip then .skipped else .start

/-- It listens when it skips the migrations or has done them all, and never throws. -/
def StartEnds : BootPhase → Except BootError Started → Prop
  | φ, .ok .listening => φ = .skipped ∨ φ = .done migratedParts
  | φ, .ok .exited => φ = .refused
  | _, .error _ => False

theorem StartEnds.conn {φ : BootPhase} {r : Except BootError Started} (h : StartEnds φ r) :
    φ.conn = none := by
  rcases r with e | started
  · exact h.elim
  · cases started with
    | listening => rcases h with rfl | rfl <;> rfl
    | exited =>
      rw [show φ = .refused from h]
      rfl

theorem works_getConnection :
    Works (Outcome (fun φ c => φ = .connected c) (· = .refused)) .start getConnection := by
  refine Paced.step (fun s hwait => by cases hwait) fun s _ => ?_
  dsimp only
  by_cases hfails : s.fails .connections = true
  · rw [if_pos hfails]
    exact ⟨_, .noConnection hfails, rfl⟩
  · rw [if_neg hfails]
    exact ⟨_, .connects, rfl⟩

/-- `runBootMigrations` says whether the server may listen, and never throws. -/
theorem works_runBootMigrations (skip : Bool) :
    Works (Outcome (fun φ ok =>
        if ok then φ = .skipped ∨ φ = .done migratedParts else φ = .refused) fun _ => False)
      (startPhase skip) (runBootMigrations skip) := by
  cases skip with
  | true => exact Paced.ret (.inl rfl)
  | false =>
    have hsome : Works (Outcome (fun φ (conn : Option Nat) => ∃ c, conn = some c ∧
        φ = .connected c) (· = .refused)) .start (some <$> getConnection) :=
      Paced.bind works_getConnection (fun _ c h => Paced.ret ⟨c, rfl, h⟩) fun _ _ h => h
    have hconn : Works (Outcome (fun φ (conn : Option Nat) =>
        (∃ c, conn = some c ∧ φ = .connected c) ∨ (conn = none ∧ φ = .refused)) fun _ => False)
        .start (tryCatch (some <$> getConnection) fun _ => pure none) :=
      Paced.catching hsome (fun _ _ h => .inl h) fun _ _ h => Paced.ret (.inr ⟨rfl, h⟩)
    refine Paced.bind hconn (fun φ conn hφ => ?_) fun _ _ h => h.elim
    rcases hφ with ⟨c, rfl, rfl⟩ | ⟨rfl, rfl⟩
    · refine Paced.catching works_migrateLocked ?_ fun _ _ h => Paced.ret h
      rintro φ (_ | _) h
      · exact h
      · exact .inr h
    · exact Paced.ret rfl

/-- What `startServer` does, action by action. -/
theorem paced_startServer (skip : Bool) :
    Works StartEnds (startPhase skip) (startServer skip) := by
  refine Paced.bind (works_runBootMigrations skip) (fun φ ok hφ => ?_) fun _ _ h => h.elim
  cases ok with
  | true => exact Paced.ret hφ
  | false => exact Paced.ret hφ

end Paced

/-! ### What a worker knows stays true -/

section Steps

variable {φ φ' ψ : BootPhase} {s t : BootState} {c : Nat}

theorem BootStep.schema_subset (h : BootStep φ s φ' t) {p : Part} (hp : p ∈ s.schema) :
    p ∈ t.schema := by
  cases h with
  | adds => exact BootState.mem_withPart.mpr (.inl hp)
  | fails h =>
    rcases h with rfl | rfl
    · exact hp
    · exact hp
  | _ => exact hp

theorem BootStep.known (h : BootStep φ s φ' t) (hknown : ∀ p ∈ φ.known, p ∈ s.schema) :
    ∀ p ∈ φ'.known, p ∈ t.schema := by
  intro p hp
  cases h with
  | finds found =>
    rcases List.mem_append.mp hp with hp | hp
    · exact hknown p hp
    · rwa [List.mem_singleton.mp hp]
  | adds =>
    rw [BootState.mem_withPart]
    rcases List.mem_append.mp hp with hp | hp
    · exact .inl (hknown p hp)
    · exact .inr (List.mem_singleton.mp hp)
  | misses => exact hknown p hp
  | spawns => exact hknown p hp
  | logs => exact hknown p hp
  | unlocks => exact hknown p hp
  | _ => exact absurd hp List.not_mem_nil

theorem BootStep.ne_skipped (h : BootStep φ s φ' t) : φ' ≠ .skipped := by
  cases h <;> simp

theorem BootState.schema_after {e : BootEvent} {p : Part} (hp : p ∈ s.schema) :
    p ∈ (s.after e).schema := by
  cases e with
  | alter q => exact BootState.mem_withPart.mpr (.inl hp)
  | vote v =>
    simp only [BootState.after, BootState.castVote]
    split_ifs <;> exact hp
  | _ => exact hp

end Steps

/-- A pool of workers. -/
abbrev Workers := Pool BootState BootError Started Bool

/-- What the workers have found or added is there, and nobody skips the migrations unasked. -/
structure Informed (P : Workers) (phases : List BootPhase) : Prop where
  known : ∀ φ ∈ phases, ∀ p ∈ φ.known, p ∈ P.state.schema
  skipped : ∀ (i : Nat) c, P.calls[i]? = some c → phases[i]? = some .skipped → c.request = true

namespace Informed

variable {P Q : Workers} {phases : List BootPhase} {φ φ' : BootPhase} {i : Nat}

theorem nil (s : BootState) : Informed ⟨s, []⟩ [] :=
  ⟨fun _ h => absurd h List.not_mem_nil, fun _ _ h => by simp at h⟩

theorem arrive (h : Informed P phases) (hlength : P.calls.length = phases.length) (skip : Bool) :
    Informed { P with calls := P.calls ++ [⟨skip, P.state, startServer skip⟩] }
      (phases ++ [startPhase skip]) := by
  constructor
  · intro φ hφ p hp
    rcases List.mem_append.mp hφ with hφ | hφ
    · exact h.known φ hφ p hp
    · rw [List.mem_singleton.mp hφ] at hp
      cases skip <;> exact absurd hp List.not_mem_nil
  · intro i c hc hskipped
    rcases getElem?_concat_cases hc with hc | ⟨rfl, rfl⟩
    · have hi : i < phases.length := hlength ▸ (List.getElem?_eq_some_iff.mp hc).1
      rw [List.getElem?_append_left hi] at hskipped
      exact h.skipped i c hc hskipped
    · rw [hlength, List.getElem?_concat_length, Option.some.injEq] at hskipped
      cases skip with
      | true => rfl
      | false => cases hskipped

theorem env (h : Informed P phases) (e : BootEvent) :
    Informed { P with state := P.state.after e } phases :=
  ⟨fun φ hφ p hp => BootState.schema_after (h.known φ hφ p hp), h.skipped⟩

theorem step (h : Informed P phases) {c : Call BootState BootError Started Bool}
    {prog : Boot Started} (hc : P.calls[i]? = some c) (hφ : phases[i]? = some φ)
    (hstep : BootStep φ P.state φ' Q.state)
    (hcalls : Q.calls = P.calls.set i { c with prog := prog }) :
    Informed Q (phases.set i φ') := by
  constructor
  · intro ψ hψ p hp
    rcases List.mem_or_eq_of_mem_set hψ with hψ | rfl
    · exact hstep.schema_subset (h.known ψ hψ p hp)
    · exact hstep.known (h.known φ (List.mem_of_getElem? hφ)) p hp
  · intro j d hd hskipped
    rw [hcalls] at hd
    rcases getElem?_set_cases hskipped with ⟨-, heq⟩ | ⟨hne, hskipped⟩
    · exact absurd heq.symm hstep.ne_skipped
    · rcases getElem?_set_cases hd with ⟨rfl, -⟩ | ⟨-, hd⟩
      · exact absurd rfl hne
      · exact h.skipped j d hd hskipped

/-- A worker that listens and has not skipped the migrations has seen all their parts. -/
theorem complete (h : Informed P phases)
    (hpaced : List.Forall₂ (fun (c : Call BootState BootError Started Bool) φ =>
      Works StartEnds φ c.prog) P.calls phases)
    {c : Call BootState BootError Started Bool} (hc : c ∈ P.calls) (hreq : c.request = false)
    (hout : c.outcome = some (.ok .listening)) : ∀ p ∈ migratedParts, p ∈ P.state.schema := by
  obtain ⟨i, hi⟩ := List.getElem?_of_mem hc
  obtain ⟨φ, hφ, hcall⟩ := forall₂_getElem? hpaced hi
  rcases hcall.post_of_outcome hout with rfl | rfl
  · have hskip := h.skipped i c hi hφ
    rw [hreq] at hskip
    cases hskip
  · exact h.known _ (List.mem_of_getElem? hφ)

end Informed

/-- Whatever else happens, lost locks and failing statements included: a worker that listens
without having been told to skip the migrations has a complete schema. -/
theorem listening_complete {ok : Workers → Workers → Prop} {s₀ : BootState} {Q : Workers}
    (h : bootSystem.Run ok ⟨s₀, []⟩ Q) {c : Call BootState BootError Started Bool}
    (hc : c ∈ Q.calls) (hreq : c.request = false) (hout : c.outcome = some (.ok .listening)) :
    ∀ p ∈ migratedParts, p ∈ Q.state.schema := by
  obtain ⟨phases, hpaced, hinformed⟩ := Paced.inv_of_run (I := Informed)
    (fun r _ => paced_startServer r) (Informed.nil s₀) (fun P phases r hlength h => h.arrive hlength r)
    (fun P phases e _ _ h => h.env e)
    (fun P Q phases i c φ φ' prog _ hc hφ hstep hcalls h => h.step hc hφ hstep hcalls) h
  exact hinformed.complete hpaced hc hreq hout

/-! A worker loses the connection that holds the lock while its script goes on. The next one
finds a column missing that the script adds a moment later, and its own `ALTER` fails. The third
does the rest. -/

def Call.listens (c : Call BootState BootError Started Bool) : Bool :=
  match c.outcome with
  | some (.ok .listening) => true
  | _ => false

def Call.exits (c : Call BootState BootError Started Bool) : Bool :=
  match c.outcome with
  | some (.ok .exited) => true
  | _ => false

theorem Call.outcome_of_listens {c : Call BootState BootError Started Bool}
    (h : Call.listens c = true) : c.outcome = some (.ok .listening) := by
  unfold Call.listens at h
  split at h
  · assumption
  · cases h

theorem Call.outcome_of_exits {c : Call BootState BootError Started Bool}
    (h : Call.exits c = true) : c.outcome = some (.ok .exited) := by
  unfold Call.exits at h
  split at h
  · assumption
  · cases h

/-- The worker acts a number of times. -/
def turns (i n : Nat) : List (Move Bool BootEvent) := List.replicate n (.run i)

def lostLock : List (Move Bool BootEvent) :=
  [.arrive false, .arrive false, .arrive false] ++ turns 0 5 ++ [.env (.lose 0)] ++ turns 1 5 ++
    turns 0 1 ++ turns 1 2 ++ turns 2 45

theorem schedule_lostLock :
    bootSystem.schedule ⟨oldBoard, []⟩ lostLock =
      some (bootSystem.poolAfter ⟨oldBoard, []⟩ lostLock) :=
  System.schedule_eq_poolAfter (by decide +kernel)

theorem listening_lostLock :
    migratedParts.all (bootSystem.poolAfter ⟨oldBoard, []⟩ lostLock).state.schema.contains =
      true := by
  have hany : (bootSystem.poolAfter ⟨oldBoard, []⟩ lostLock).calls.any
      (fun c => !c.request && Call.listens c) = true := by decide +kernel
  obtain ⟨c, hc, hlistens⟩ := List.any_eq_true.mp hany
  obtain ⟨hreq, hout⟩ := Bool.and_eq_true_iff.mp hlistens
  have hcomplete := listening_complete (System.run_of_schedule schedule_lostLock) hc
    (by simpa using hreq) (Call.outcome_of_listens hout)
  exact List.all_eq_true.mpr fun p hp => List.contains_iff_mem.mpr (hcomplete p hp)

/-- Without its lock a script makes another worker refuse to start, although no statement fails
for a reason of its own. -/
theorem lost_lock_refuses :
    ∃ Q : Workers, bootSystem.Run (fun _ _ => True) ⟨oldBoard, []⟩ Q ∧
      (∃ c ∈ Q.calls, c.outcome = some (.ok .exited)) ∧ ∀ t, Q.state.fails t = false := by
  refine ⟨_, System.run_of_schedule schedule_lostLock, ?_, ?_⟩
  · have hany : (bootSystem.poolAfter ⟨oldBoard, []⟩ lostLock).calls.any Call.exits = true := by
      decide +kernel
    obtain ⟨c, hc, hexits⟩ := List.any_eq_true.mp hany
    exact ⟨c, hc, Call.outcome_of_exits hexits⟩
  · intro t
    cases t <;> decide +kernel

end Feedbase
