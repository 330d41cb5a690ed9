import Feedbase.Common.Sessions
import Feedbase.Lib.Pool

/-!
# One device at a time

Any number of `startSession` calls interleave at every statement. Each clears the
sessions of the account before it inserts its own, so one of them ends up alone as long
as no other insert falls between the two statements.

## Main definitions

* `unrevoked` — the unrevoked sessions of an account
* `StartRequest.At` — where a call can be in `startSession`
* `AtInsert`, `InsertsAlone` — no call inserts while another is about to

## Main results

* `oneDevice_of_run` — at most one session is unrevoked
* `overlapping_inserts` — two calls that are about to insert leave two
-/

namespace Feedbase

variable {w w' : World} {email : String}

/-- How many sessions of the account are unrevoked. -/
def unrevoked (db : Db) (email : String) : Nat :=
  db.userSessions.rows.countP fun s => s.email == email && s.revokedAt.isNone

/-! ### The two statements -/

/-- Revoking sessions adds none. -/
theorem unrevoked_update_le {sessions : Sql.Table UserSession} {p : UserSession → Bool} {now : Time} :
    (sessions.update p (UserSession.revoke now) (UserSession.keyless_revoke now)).rows.countP
        (fun s => s.email == email && s.revokedAt.isNone) ≤
      sessions.rows.countP fun s => s.email == email && s.revokedAt.isNone := by
  rw [Sql.Table.rows_update, List.countP_map]
  refine List.countP_mono_left fun s _ hs => ?_
  by_cases hp : p s
  · simp [hp, UserSession.revoke] at hs
  · simpa [hp] using hs

theorem unrevoked_sessionsRevoked_le (email' : String) :
    unrevoked (w.sessionsRevoked email').db email ≤ unrevoked w.db email := unrevoked_update_le

/-- `revokeSessionsForEmail` leaves no session of the account. -/
theorem unrevoked_sessionsRevoked : unrevoked (w.sessionsRevoked email).db email = 0 := by
  refine List.countP_eq_zero.mpr fun s hs => ?_
  obtain ⟨t, -, rfl⟩ := List.mem_map.mp hs
  by_cases hp : t.email == email && t.revokedAt.isNone
  · simp [hp, UserSession.revoke]
  · rw [if_neg hp]
    exact hp

/-- An insert adds one session, of its own account. -/
theorem unrevoked_insert (email : String) {email' sessionId : String} {sessions : Sql.Table UserSession}
    (h : w.db.userSessions.insert? (newSession email' sessionId w.now) = some sessions) :
    unrevoked (w.setSessions sessions).db email =
      unrevoked w.db email + if email' = email then 1 else 0 := by
  change sessions.rows.countP _ = _
  rw [Sql.Table.insert?_rows h, List.countP_append]
  congr 1
  simp [newSession, List.countP_cons]

/-! ### Where a call can be -/

/-- One `startSession` call. -/
structure StartRequest where
  email : String
  tenantId : Option Nat
  force : Bool
  sessionId : String
  deriving DecidableEq

/-- The points of `startSession` at which a call may wait. -/
inductive StartRequest.At (r : StartRequest) : Handler SessionStart → Prop where
  | plan (id : Nat) (h : r.tenantId = some id) :
      r.At (startSession r.email r.tenantId r.force r.sessionId)
  | single : r.At (startSingle r.email r.force r.sessionId)
  | takeOver : r.At (takeOver r.email r.sessionId)
  | insert : r.At (openSession r.email r.sessionId)
  | ret (a : SessionStart) : r.At (.ret a)
  | fail (e : Failure) : r.At (.fail e)

theorem StartRequest.at_startSession (r : StartRequest) :
    r.At (startSession r.email r.tenantId r.force r.sessionId) := by
  cases h : r.tenantId with
  | none => exact .single
  | some id =>
    rw [← h]
    exact .plan id h

/-- What one step of a call does, from the program `p` to the program `p'`. -/
inductive SessionStep (r : StartRequest) (p : Handler SessionStart) (w w' : World)
    (p' : Handler SessionStart) : Prop where
  | multiDevice (id : Nat) (htenant : r.tenantId = some id)
      (hallows : allows w.db id .multiDevice = true) (hw : w' = w)
      (hp' : p' = openSession r.email r.sessionId)
  | read (hw : w' = w) (hp' : p' = startSingle r.email r.force r.sessionId ∨
      p' = takeOver r.email r.sessionId ∨ ∃ a, p' = .ret a)
  | revoke (hw : w' = w.sessionsRevoked r.email) (hp' : p' = openSession r.email r.sessionId)
  | insert (hp : p = openSession r.email r.sessionId) (sessions : Sql.Table UserSession)
      (hins : w.db.userSessions.insert? (newSession r.email r.sessionId w.now) = some sessions)
      (hw : w' = w.setSessions sessions) (hp' : p' = .ret (.started r.sessionId))
  | duplicate (hp : p = openSession r.email r.sessionId) (hw : w' = w)
      (hp' : p' = .fail .duplicate)

/-- The first step of a take-over is the revocation. -/
theorem sessionStep_takeOver {r : StartRequest} {p : Handler SessionStart}
    {ready : World → Bool} {next : World → World} {cont : World → Handler SessionStart}
    (h : takeOver r.email r.sessionId = .act ready next cont) :
    SessionStep r p w (next w) (cont w) := by
  obtain ⟨-, rfl, rfl⟩ := Prog.act.inj h
  exact .revoke rfl rfl

theorem sessionStep_startSingle {r : StartRequest} {p : Handler SessionStart}
    {ready : World → Bool} {next : World → World} {cont : World → Handler SessionStart}
    (h : startSingle r.email r.force r.sessionId = .act ready next cont) :
    SessionStep r p w (next w) (cont w) := by
  unfold startSingle at h
  split at h
  · exact sessionStep_takeOver h
  · obtain ⟨-, rfl, rfl⟩ := Prog.act.inj h
    refine .read rfl (.inr ?_)
    cases hlive : ((w.db.userSessions.rows.filter fun s =>
        s.email == r.email && s.isLive w.now).insertionSort
          fun a b => b.lastSeenAt ≤ a.lastSeenAt).head? with
    | none =>
      refine .inl ?_
      dsimp only
      rw [hlive]
      rfl
    | some live =>
      refine .inr ⟨.blocked live, ?_⟩
      dsimp only
      rw [hlive]
      rfl

theorem sessionStep_openSession {r : StartRequest} {ready : World → Bool} {next : World → World}
    {cont : World → Handler SessionStart}
    (h : openSession r.email r.sessionId = .act ready next cont) :
    SessionStep r (.act ready next cont) w (next w) (cont w) := by
  rw [← h]
  obtain ⟨-, rfl, rfl⟩ := Prog.act.inj h
  cases hins : w.db.userSessions.insert? (newSession r.email r.sessionId w.now) with
  | none =>
    refine .duplicate rfl ?_ ?_
    · dsimp only
      rw [hins]
      rfl
    · dsimp only
      rw [hins]
      rfl
  | some sessions =>
    refine .insert rfl sessions hins ?_ ?_
    · dsimp only
      rw [hins]
      rfl
    · dsimp only
      rw [hins]
      rfl

/-- Every step of a call is one of the five kinds. -/
theorem StartRequest.At.step {r : StartRequest} {ready : World → Bool} {next : World → World}
    {cont : World → Handler SessionStart} (h : r.At (.act ready next cont)) (w : World) :
    SessionStep r (.act ready next cont) w (next w) (cont w) := by
  generalize hp : Prog.act ready next cont = p at h
  cases h with
  | plan id htenant =>
    unfold startSession allowsMultiDevice at hp
    rw [htenant] at hp
    obtain ⟨-, rfl, rfl⟩ := Prog.act.inj hp
    change SessionStep r _ w w (if allows w.db id .multiDevice then openSession r.email r.sessionId
      else startSingle r.email r.force r.sessionId)
    split
    · exact .multiDevice id htenant ‹_› rfl rfl
    · exact .read rfl (.inl rfl)
  | single =>
    exact sessionStep_startSingle hp.symm
  | takeOver => exact sessionStep_takeOver hp.symm
  | insert =>
    exact hp ▸ sessionStep_openSession hp.symm
  | ret a => cases hp
  | fail e => cases hp

theorem SessionStep.point {r : StartRequest} {p p' : Handler SessionStart}
    (h : SessionStep r p w w' p') : r.At p' := by
  cases h with
  | multiDevice id htenant hallows hw hp' => exact hp' ▸ .insert
  | read hw hp' =>
    rcases hp' with rfl | rfl | ⟨a, rfl⟩
    · exact .single
    · exact .takeOver
    · exact .ret a
  | revoke hw hp' => exact hp' ▸ .insert
  | insert hp sessions hins hw hp' => exact hp' ▸ .ret _
  | duplicate hp hw hp' => exact hp' ▸ .fail _

/-! ### The insert is the only statement that adds a session -/

theorem first_openSession {sessionId : String} {sessions : Sql.Table UserSession}
    (h : w.db.userSessions.insert? (newSession email sessionId w.now) = some sessions) :
    (openSession email sessionId).first w = w.setSessions sessions := by
  have hact : openSession email sessionId = .act _ _ _ := rfl
  rw [hact]
  dsimp only [Prog.first]
  rw [h]
  rfl

/-- A program whose first statement adds no session to an empty table does not insert. -/
theorem ne_openSession {sessionId : String} {p : Handler SessionStart}
    (h : unrevoked (p.first {}).db email = 0) : p ≠ openSession email sessionId := by
  rintro rfl
  cases hins : (Sql.Table.empty : Sql.Table UserSession).insert? (newSession email sessionId 0) with
  | none =>
    obtain ⟨s, hs, -⟩ := Sql.Table.insert?_eq_none_iff.mp hins
    exact Sql.Table.not_mem_empty hs
  | some sessions =>
    rw [first_openSession (w := {}) hins, unrevoked_insert (w := {}) email hins, if_pos rfl] at h
    omega

theorem takeOver_ne {sessionId : String} :
    takeOver email sessionId ≠ openSession email sessionId := ne_openSession rfl

theorem startSingle_ne {force : Bool} {sessionId : String} :
    startSingle email force sessionId ≠ openSession email sessionId := by
  cases force
  · exact ne_openSession rfl
  · exact takeOver_ne

theorem startSession_ne {tenantId : Option Nat} {force : Bool} {sessionId : String} :
    startSession email tenantId force sessionId ≠ openSession email sessionId := by
  cases tenantId with
  | none => exact startSingle_ne
  | some id => exact ne_openSession rfl

/-! ### Interleavings -/

/-- What happens between the statements of the calls: time passes, devices are signed out
or seen again, and other accounts change. -/
def SessionEnv : Type :=
  { f : World → World // ∀ w email, unrevoked (f w).db email ≤ unrevoked w.db email }

theorem unrevoked_revokeSession_le (sessionId : String) (w : World) (email : String) :
    unrevoked ((revokeSession sessionId).exec w).2.db email ≤ unrevoked w.db email :=
  unrevoked_update_le

/-- A device signs out. -/
def SessionEnv.logout (sessionId : String) : SessionEnv :=
  ⟨fun w => ((revokeSession sessionId).exec w).2, unrevoked_revokeSession_le sessionId⟩

/-- Time passes. -/
def SessionEnv.elapse (seconds : Time) : SessionEnv :=
  ⟨fun w => { w with now := w.now + seconds }, fun _ _ => Nat.le_refl _⟩

def sessionSystem : System World Failure SessionStart StartRequest SessionEnv where
  handler r := startSession r.email r.tenantId r.force r.sessionId
  env e := e.1

abbrev SessionPool := Pool World Failure SessionStart StartRequest

/-- The next statement of the call inserts a session of the account. -/
def AtInsert (email : String) (c : Call World Failure SessionStart StartRequest) : Prop :=
  c.request.email = email ∧ c.prog = openSession email c.request.sessionId

/-- The account signs in to workspaces without `multiDevice` only. -/
def SingleDevice (email : String) (P : SessionPool) : Prop :=
  ∀ c ∈ P.calls, c.request.email = email → ∀ id, c.request.tenantId = some id →
    allows P.state.db id .multiDevice = false

/-- At most one call is between its revocation and its insert. -/
def InsertsAlone (email : String) (P : SessionPool) : Prop :=
  ∀ (i j : Nat) c d, P.calls[i]? = some c → P.calls[j]? = some d →
    AtInsert email c → AtInsert email d → i = j

/-- What holds of every state: a call that is about to insert finds no session. -/
structure OneDevice (email : String) (P : SessionPool) : Prop where
  points : ∀ c ∈ P.calls, c.request.At c.prog
  unrevoked_le : unrevoked P.state.db email ≤ 1
  cleared : (∃ c ∈ P.calls, AtInsert email c) → unrevoked P.state.db email = 0

/-- A step for another account adds no session to this one. -/
theorem SessionStep.unrevoked_le {r : StartRequest} {p p' : Handler SessionStart}
    (h : SessionStep r p w w' p') (hne : r.email ≠ email) :
    unrevoked w'.db email ≤ unrevoked w.db email := by
  cases h with
  | multiDevice id htenant hallows hw hp' => exact hw ▸ Nat.le_refl _
  | read hw hp' => exact hw ▸ Nat.le_refl _
  | revoke hw hp' => exact hw ▸ unrevoked_sessionsRevoked_le r.email
  | insert hp sessions hins hw hp' => rw [hw, unrevoked_insert email hins, if_neg hne, Nat.add_zero]
  | duplicate hp hw hp' => exact hw ▸ Nat.le_refl _

/-- A call that is about to insert after a write of another call was so before. -/
theorem AtInsert.of_set {calls : List (Call World Failure SessionStart StartRequest)} {i : Nat}
    {c : Call World Failure SessionStart StartRequest} {p' : Handler SessionStart}
    (hp' : ¬ AtInsert email { c with prog := p' })
    (h : ∃ d ∈ calls.set i { c with prog := p' }, AtInsert email d) :
    ∃ j d, j ≠ i ∧ calls[j]? = some d ∧ AtInsert email d := by
  obtain ⟨d, hd, hat⟩ := h
  obtain ⟨j, hj⟩ := List.getElem?_of_mem hd
  rcases getElem?_set_cases hj with ⟨-, rfl⟩ | ⟨hne, hj⟩
  · exact absurd hat hp'
  · exact ⟨j, d, hne, hj, hat⟩

/-- One step of a call keeps the account on one device, if no other call is about to
insert. -/
theorem OneDevice.run {P : SessionPool} (h : OneDevice email P) (hsingle : SingleDevice email P)
    (halone : InsertsAlone email P) {i : Nat} {c : Call World Failure SessionStart StartRequest}
    (hc : P.calls[i]? = some c) {p' : Handler SessionStart}
    (hstep : SessionStep c.request c.prog P.state w' p') :
    OneDevice email ⟨w', P.calls.set i { c with prog := p' }⟩ := by
  have hmem : c ∈ P.calls := List.mem_of_getElem? hc
  have hat : ∀ d ∈ P.calls.set i { c with prog := p' }, d.request.At d.prog := by
    intro d hd
    rcases List.mem_or_eq_of_mem_set hd with hd | rfl
    · exact h.points d hd
    · exact hstep.point
  -- a step after which the call is not about to insert leaves only the others to look at
  have hother (hle : unrevoked w'.db email ≤ unrevoked P.state.db email)
      (hp' : ¬ AtInsert email { c with prog := p' }) :
      OneDevice email ⟨w', P.calls.set i { c with prog := p' }⟩ := by
    refine ⟨hat, hle.trans h.unrevoked_le, fun hins => ?_⟩
    obtain ⟨j, d, -, hj, hd⟩ := AtInsert.of_set hp' hins
    have hzero := h.cleared ⟨d, List.mem_of_getElem? hj, hd⟩
    dsimp only
    omega
  by_cases hemail : c.request.email = email
  · cases hstep with
    -- an account of a plan with many devices: not this one
    | multiDevice id htenant hallows hw hp' =>
      rw [hsingle c hmem hemail id htenant] at hallows
      cases hallows
    | read hw hp' =>
      refine hother (hw ▸ Nat.le_refl _) fun hins => ?_
      obtain ⟨-, hprog⟩ := hins
      subst hemail
      rcases hp' with rfl | rfl | ⟨a, rfl⟩
      · exact startSingle_ne hprog
      · exact takeOver_ne hprog
      · cases hprog
    | revoke hw hp' =>
      have hzero : unrevoked w'.db email = 0 := by
        rw [hw, hemail]
        exact unrevoked_sessionsRevoked
      exact ⟨hat, by dsimp only; omega, fun _ => hzero⟩
    -- after the sessions were revoked this insert leaves one, and nobody else is about to insert
    | insert hp sessions hins hw hp' =>
      have hinsert : AtInsert email c := ⟨hemail, hemail ▸ hp⟩
      have hzero := h.cleared ⟨c, hmem, hinsert⟩
      have hone : unrevoked w'.db email = 1 := by
        rw [hw, unrevoked_insert email hins, hzero, if_pos hemail]
      refine ⟨hat, Nat.le_of_eq hone, fun hothers => ?_⟩
      have hdone : ¬ AtInsert email { c with prog := p' } := by
        rintro ⟨-, hprog⟩
        rw [hp'] at hprog
        cases hprog
      obtain ⟨j, d, hne, hj, hd⟩ := AtInsert.of_set hdone hothers
      exact absurd (halone j i d c hj hc hd hinsert) hne
    | duplicate hp hw hp' =>
      refine hother (hw ▸ Nat.le_refl _) ?_
      rintro ⟨-, hprog⟩
      rw [hp'] at hprog
      cases hprog
  · -- a call about another address
    exact hother (hstep.unrevoked_le hemail) fun hins => hemail hins.1

/-- One move of the pool keeps the account on one device. -/
theorem OneDevice.move {P Q : SessionPool} (h : OneDevice email P)
    (hsingle : SingleDevice email P) (halone : InsertsAlone email P)
    {m : Move StartRequest SessionEnv} (hm : sessionSystem.move P m = some Q) :
    OneDevice email Q := by
  rcases System.move_eq hm with
    ⟨r, -, rfl⟩ | ⟨e, -, rfl⟩ | ⟨i, c, ready, next, cont, -, hc, hprog, -, rfl⟩
  · refine ⟨fun d hd => ?_, h.unrevoked_le, ?_⟩
    · rcases List.mem_append.mp hd with hd | hd
      · exact h.points d hd
      · rw [List.mem_singleton.mp hd]
        exact r.at_startSession
    · rintro ⟨d, hd, hins⟩
      rcases List.mem_append.mp hd with hd | hd
      · exact h.cleared ⟨d, hd, hins⟩
      · -- a call that has just arrived has not come to its insert
        rw [List.mem_singleton.mp hd] at hins
        obtain ⟨rfl, hstart⟩ := hins
        exact absurd hstart startSession_ne
  · have hle := e.2 P.state email
    refine ⟨h.points, hle.trans h.unrevoked_le, fun hins => ?_⟩
    have hzero := h.cleared hins
    exact Nat.eq_zero_of_le_zero (hzero ▸ hle)
  · have hat := h.points c (List.mem_of_getElem? hc)
    rw [hprog] at hat
    exact h.run hsingle halone hc (hprog ▸ hat.step P.state)

/-- In every run in which no two calls of the account are about to insert at the same
time, at most one session of the account is unrevoked. -/
theorem oneDevice_of_run {w₀ : World} (hstart : unrevoked w₀.db email ≤ 1) {Q : SessionPool}
    (hrun : sessionSystem.Run (fun P _ => SingleDevice email P ∧ InsertsAlone email P) ⟨w₀, []⟩ Q) :
    unrevoked Q.state.db email ≤ 1 := by
  have hone : OneDevice email Q := by
    induction hrun with
    | refl => exact ⟨by simp, hstart, by simp⟩
    | tail _ hstep ih =>
      obtain ⟨⟨m, hm⟩, hsingle, halone⟩ := hstep
      exact ih.move hsingle halone hm
  exact hone.unrevoked_le

/-- A session id of its own is inserted. -/
theorem insert_fresh {sessions : Sql.Table UserSession} {sessionId : String} {now : Time}
    (hfresh : ∀ s ∈ sessions, s.sessionId ≠ sessionId) :
    ∃ sessions', sessions.insert? (newSession email sessionId now) = some sessions' := by
  refine Option.ne_none_iff_exists'.mp fun hnone => ?_
  obtain ⟨s, hs, hclash⟩ := Sql.Table.insert?_eq_none_iff.mp hnone
  exact hfresh s hs (beq_iff_eq.mp hclash)

/-- The move of a call that is about to insert. -/
theorem move_insert {P : SessionPool} {i : Nat} {c : Call World Failure SessionStart StartRequest}
    {sessions : Sql.Table UserSession} (hc : P.calls[i]? = some c) (hat : AtInsert email c)
    (hins : P.state.db.userSessions.insert?
      (newSession email c.request.sessionId P.state.now) = some sessions) :
    ∃ p', sessionSystem.move P (.run i) =
      some ⟨P.state.setSessions sessions, P.calls.set i { c with prog := p' }⟩ := by
  obtain ⟨ready, next, cont, hact, hready⟩ : ∃ ready next cont,
      openSession email c.request.sessionId = .act ready next cont ∧ ready P.state = true :=
    ⟨_, _, _, rfl, rfl⟩
  have hnext := first_openSession hins
  rw [hact] at hnext
  dsimp only [Prog.first] at hnext
  have hmove := System.move_run (S := sessionSystem) hc (hat.2.trans hact) hready
  rw [hnext] at hmove
  exact ⟨_, hmove⟩

/-- The condition is exact: two calls that are about to insert, with session ids of their
own, can go on to leave two sessions. -/
theorem overlapping_inserts {P : SessionPool} {i j : Nat}
    {c d : Call World Failure SessionStart StartRequest} (hne : i ≠ j) (hc : P.calls[i]? = some c)
    (hd : P.calls[j]? = some d) (hcat : AtInsert email c) (hdat : AtInsert email d)
    (hfresh : ∀ s ∈ P.state.db.userSessions,
      s.sessionId ≠ c.request.sessionId ∧ s.sessionId ≠ d.request.sessionId)
    (hids : c.request.sessionId ≠ d.request.sessionId) :
    ∃ Q, sessionSystem.schedule P [.run i, .run j] = some Q ∧ 2 ≤ unrevoked Q.state.db email := by
  obtain ⟨sessions, hins⟩ : ∃ sessions, P.state.db.userSessions.insert?
      (newSession email c.request.sessionId P.state.now) = some sessions :=
    insert_fresh fun s hs => (hfresh s hs).1
  obtain ⟨sessions', hins'⟩ : ∃ sessions', sessions.insert?
      (newSession email d.request.sessionId P.state.now) = some sessions' := by
    refine insert_fresh fun s hs => ?_
    rcases (Sql.Table.mem_insert? hins).mp hs with hs | rfl
    · exact (hfresh s hs).2
    · exact hids
  obtain ⟨p, hmove⟩ := move_insert hc hcat hins
  have hd' : (P.calls.set i { c with prog := p })[j]? = some d := by
    rw [List.getElem?_set_ne hne, hd]
  obtain ⟨p', hmove'⟩ := move_insert
    (P := ⟨P.state.setSessions sessions, P.calls.set i { c with prog := p }⟩) hd' hdat hins'
  refine ⟨_, System.schedule_cons hmove (System.schedule_cons hmove' rfl), ?_⟩
  have hone := unrevoked_insert email hins
  have htwo := unrevoked_insert (w := P.state.setSessions sessions) email hins'
  rw [if_pos rfl] at hone htwo
  dsimp only
  omega

/-! ### Runs on one account -/

/-- A sign-in of an account that has no workspace. -/
def signIn (sessionId : String) (force : Bool) : StartRequest where
  email := "ada@example.com"
  tenantId := none
  force := force
  sessionId := sessionId

/-- One call at a time. -/
theorem alone_of_inFlight {P : SessionPool}
    (h : (P.calls.all (·.request.tenantId.isNone) && decide (P.inFlight ≤ 1)) = true) :
    SingleDevice email P ∧ InsertsAlone email P := by
  rw [Bool.and_eq_true, decide_eq_true_iff, List.all_eq_true] at h
  obtain ⟨hnone, hone⟩ := h
  refine ⟨fun c hc _ id hid => ?_, fun i j c d hc hd hcat hdat => ?_⟩
  · have htenant := hnone c hc
    rw [hid] at htenant
    cases htenant
  · have hflying {c : Call World Failure SessionStart StartRequest} (hat : AtInsert email c) :
        c.outcome.isNone = true := by
      obtain ⟨r, since, p⟩ := c
      obtain ⟨-, rfl⟩ : r.email = email ∧ p = openSession email r.sessionId := hat
      rfl
    exact eq_of_countP_le_one hone hc hd (hflying hcat) (hflying hdat)

/-- A sign-in, twenty idle minutes, a sign-in on another device, and a forced one. -/
theorem oneDevice_of_run_alone : ∃ Q : SessionPool, Q.Quiescent ∧ Q.calls.length = 3 ∧
    unrevoked Q.state.db "ada@example.com" ≤ 1 := by
  let run := sessionSystem.scheduleWhile
    (fun P => P.calls.all (·.request.tenantId.isNone) && decide (P.inFlight ≤ 1)) ⟨{}, []⟩
    [.arrive (signIn "phone" false), .run 0, .run 0, .run 0, .env (.elapse 1200),
      .arrive (signIn "laptop" false), .run 1, .run 1, .run 1,
      .arrive (signIn "tablet" true), .run 2, .run 2]
  have hend : run.map (fun Q => (Q.calls.all (·.outcome.isSome), Q.calls.length)) =
      some (true, 3) := by decide +kernel
  obtain ⟨Q, hrun, hQ⟩ := Option.map_eq_some_iff.mp hend
  obtain ⟨hdone, hcalls⟩ := Prod.mk.inj hQ
  have hempty : unrevoked ({} : World).db "ada@example.com" ≤ 1 := by decide
  exact ⟨Q, fun c hc => List.all_eq_true.mp hdone c hc, hcalls,
    oneDevice_of_run hempty
      (System.run_of_scheduleWhile (fun _ _ => alone_of_inFlight) hrun)⟩

/-- Two sign-ins that both find nothing live, revoke, and then insert. -/
theorem interleaved_signIns_leave_two : ∃ (w₀ : World) (Q : SessionPool),
    unrevoked w₀.db "ada@example.com" ≤ 1 ∧
      sessionSystem.Run (fun P _ => SingleDevice "ada@example.com" P) ⟨w₀, []⟩ Q ∧ Q.Quiescent ∧
        unrevoked Q.state.db "ada@example.com" = 2 := by
  let run := sessionSystem.scheduleWhile
    (fun P => P.calls.all (·.request.tenantId.isNone)) ⟨{}, []⟩
    [.arrive (signIn "phone" false), .arrive (signIn "laptop" false), .run 0, .run 1,
      .run 0, .run 1, .run 0, .run 1]
  have hend : run.map (fun Q =>
      (unrevoked Q.state.db "ada@example.com", Q.calls.all (·.outcome.isSome))) =
        some (2, true) := by decide +kernel
  obtain ⟨Q, hrun, hQ⟩ := Option.map_eq_some_iff.mp hend
  obtain ⟨htwo, hdone⟩ := Prod.mk.inj hQ
  refine ⟨{}, Q, by decide, System.run_of_scheduleWhile (fun P _ hP c hc _ id hid => ?_) hrun,
    fun c hc => List.all_eq_true.mp hdone c hc, htwo⟩
  have hnone := List.all_eq_true.mp hP c hc
  rw [hid] at hnone
  cases hnone

end Feedbase
