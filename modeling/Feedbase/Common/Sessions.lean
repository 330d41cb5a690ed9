import Feedbase.Common.PlanGuard

/-!
# Device sessions

On a plan without `multiDevice` a login is refused while a session of the account is
live, and clears what is abandoned before it opens its own. The gate, the revocation and
the insert are three statements.

## Main definitions

* `getLiveSessionForEmail`, `revokeSessionsForEmail`, `revokeSession`, `createSession`
* `isSessionActive`, `touchSession`
* `startSession`, through `startSingle`, `takeOver` and `openSession`
-/

namespace Feedbase

/-- `IDLE_MINUTES`, in seconds. -/
def idleSeconds : Time := 15 * 60

/-- `LIVE_WHERE`: neither revoked nor abandoned. -/
def UserSession.isLive (s : UserSession) (now : Time) : Bool :=
  s.revokedAt.isNone && decide (now < s.lastSeenAt + idleSeconds)

/-- The world with another `user_sessions` table. -/
def World.setSessions (w : World) (sessions : Sql.Table UserSession) : World :=
  { w with db := { w.db with userSessions := sessions } }

/-- The most recently seen live session of an account. -/
def getLiveSessionForEmail (email : String) : Handler (Option UserSession) :=
  Prog.read fun w =>
    ((w.db.userSessions.rows.filter fun s => s.email == email && s.isLive w.now).insertionSort
      fun a b => b.lastSeenAt ≤ a.lastSeenAt).head?

/-- `SET revoked_at = NOW()`. -/
def UserSession.revoke (now : Time) (s : UserSession) : UserSession := { s with revokedAt := some now }

theorem UserSession.keyless_revoke (now : Time) : Sql.Table.Keyless (UserSession.revoke now) :=
  ⟨fun _ => rfl, fun _ _ => rfl⟩

/-- The world after every session of the account has been revoked. -/
def World.sessionsRevoked (w : World) (email : String) : World :=
  w.setSessions (w.db.userSessions.update (fun s => s.email == email && s.revokedAt.isNone)
    (UserSession.revoke w.now) (UserSession.keyless_revoke w.now))

def revokeSessionsForEmail (email : String) : Handler Unit :=
  Prog.write fun w => w.sessionsRevoked email

/-- Sign one device out. -/
def revokeSession (sessionId : String) : Handler Unit :=
  Prog.write fun w =>
    w.setSessions (w.db.userSessions.update
      (fun s => s.sessionId == sessionId && s.revokedAt.isNone)
      (UserSession.revoke w.now) (UserSession.keyless_revoke w.now))

/-- The row of a new session. -/
def newSession (email sessionId : String) (now : Time) (id : Nat) : UserSession where
  id := id
  sessionId := sessionId
  email := email
  lastSeenAt := now

/-- `createSession`; the session id is random. -/
def createSession (email sessionId : String) : Handler String :=
  Prog.attempt .duplicate fun w =>
    (w.db.userSessions.insert? (newSession email sessionId w.now)).map fun sessions =>
      (sessionId, w.setSessions sessions)

/-- An account with no workspace yet is treated as free. -/
def allowsMultiDevice (tenantId : Option Nat) : Handler Bool :=
  match tenantId with
  | none => pure false
  | some id => planAllows id .multiDevice

/-- Revoked is dead, idle is not. -/
def isSessionActive (sessionId : String) : Handler Bool :=
  query fun db => sessionId != "" &&
    db.userSessions.rows.any fun s => s.sessionId == sessionId && s.revokedAt.isNone

/-- Keep a session alive; at most one write a minute. -/
def touchSession (sessionId : String) : Handler Unit :=
  Prog.write fun w =>
    w.setSessions (w.db.userSessions.update
      (fun s => s.sessionId == sessionId && s.revokedAt.isNone &&
        decide (s.lastSeenAt + 60 < w.now))
      fun s => { s with lastSeenAt := w.now })

/-- What `startSession` resolves with. -/
inductive SessionStart where
  | blocked (session : UserSession)
  | started (sessionId : String)
  deriving DecidableEq

/-- The insert. -/
def openSession (email sessionId : String) : Handler SessionStart := do
  let sessionId ← createSession email sessionId
  return .started sessionId

/-- Revoke whatever is there, then insert. -/
def takeOver (email sessionId : String) : Handler SessionStart := do
  revokeSessionsForEmail email
  openSession email sessionId

/-- The gate of a plan without `multiDevice`. -/
def startSingle (email : String) (force : Bool) (sessionId : String) : Handler SessionStart :=
  if force then takeOver email sessionId
  else do
    match ← getLiveSessionForEmail email with
    | some live => return .blocked live
    | none => takeOver email sessionId

def startSession (email : String) (tenantId : Option Nat) (force : Bool) (sessionId : String) :
    Handler SessionStart := do
  let multiDevice ← allowsMultiDevice tenantId
  if multiDevice then openSession email sessionId else startSingle email force sessionId

/-! ### What a sign-in does to the state -/

section Within

variable {R : World → World → Prop} {email : String}

theorem within_createSession (hrefl : ∀ w, R w w) {sessionId : String}
    (hopen : ∀ w sessions,
      w.db.userSessions.insert? (newSession email sessionId w.now) = some sessions →
        R w (w.setSessions sessions)) : Prog.Within R (createSession email sessionId) := by
  refine .attempt hrefl fun w a w' hw => ?_
  obtain ⟨sessions, hins, heq⟩ := Option.map_eq_some_iff.mp hw
  obtain ⟨-, rfl⟩ := Prod.mk.inj heq
  exact hopen w sessions hins

/-- A sign-in reads, revokes the sessions of its account, and inserts one. -/
theorem within_startSession (hrefl : ∀ w, R w w) (hrevoke : ∀ w, R w (w.sessionsRevoked email))
    {sessionId : String} (hopen : ∀ w sessions,
      w.db.userSessions.insert? (newSession email sessionId w.now) = some sessions →
        R w (w.setSessions sessions)) (tenantId : Option Nat) (force : Bool) :
    Prog.Within R (startSession email tenantId force sessionId) := by
  have hinsert : Prog.Within R (openSession email sessionId) :=
    .bind (within_createSession hrefl hopen) fun _ => .pure _
  have htakeOver : Prog.Within R (takeOver email sessionId) :=
    .bind (.write hrevoke) fun _ => hinsert
  refine .bind ?_ fun multiDevice => .ite hinsert (.ite htakeOver ?_)
  · cases tenantId with
    | none => exact .pure _
    | some id => exact .read hrefl _
  · refine .bind (.read hrefl _) fun live => ?_
    cases live with
    | none => exact htakeOver
    | some live => exact .pure _

end Within

end Feedbase
