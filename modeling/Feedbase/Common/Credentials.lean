import Feedbase.Common.Sessions

/-!
# Credentials

What the sign-in handlers use of `bcrypt`, `crypto` and the mailer, and the claims of the
token they issue. Random values (session ids, reset tokens, salts) are arguments of the
handlers that draw them.

## Main definitions

* `Crypto` — the hash functions
* `MailEnv`, `sendEmail`
* `Token`, `SignedIn` — what a successful sign-in returns
* `authenticateToken`, `finishSignIn`
-/

namespace Feedbase

/-- The hash functions; `hash` takes the salt first. -/
structure Crypto where
  hashToken : String → String
  hash : String → String → String
  compare : String → String → Bool

/-- The variables of the process environment that the mailer reads. -/
structure MailEnv where
  resendApiKey : Option String := none
  smtpHost : Option String := none
  smtpUser : Option String := none
  smtpPass : Option String := none

def isResendConfigured (env : MailEnv) : Bool := (orNull env.resendApiKey).isSome

def isSmtpConfigured (env : MailEnv) : Bool :=
  (orNull env.smtpHost).isSome && (orNull env.smtpUser).isSome && (orNull env.smtpPass).isSome

def isMailConfigured (env : MailEnv) : Bool := isResendConfigured env || isSmtpConfigured env

/-- Whether the mail was sent; a failure of the provider is not an error. -/
def sendEmail (env : MailEnv) : Handler Bool :=
  Prog.read fun w => isMailConfigured env && !w.fails .sendEmail

/-- The claims of an access token. -/
structure Token where
  id : Nat
  email : String
  tenantId : Option Nat
  role : Role
  sid : String
  deriving DecidableEq

/-- `generateToken`. -/
def generateToken (user : User) (sid : String) : Token where
  id := user.id
  email := user.email
  tenantId := user.tenantId
  role := user.role
  sid := sid

/-- The token and the account a sign-in returns; the other fields repeat the token's. -/
structure SignedIn where
  token : Token
  fullName : String
  imageUrl : Option String
  isPlatformAdmin : Bool
  deriving DecidableEq

/-- An active row of the account. -/
def getActiveUser (db : Db) (id : Nat) (email : String) : Option User :=
  db.users.rows.find? fun u => u.id == id && u.email == email && u.isActive

/-- `authenticateToken` on the claims of a verified token: the session must be there, and
the row must still be active. -/
def authenticateToken (claims : Token) : Handler AuthData := do
  let live ← isSessionActive claims.sid
  if live = false then reject 401 "Session ended"
  else
    match ← query fun db => getActiveUser db claims.id claims.email with
    | none => reject 400 "Invalid user"
    | some user => do
      touchSession claims.sid
      return { id := user.id, tenantId := user.tenantId, role := user.role, email := user.email }

def signedIn (user : User) (sid : String) : SignedIn where
  token := generateToken user sid
  fullName := user.fullName
  imageUrl := user.avatarUrl
  isPlatformAdmin := user.isPlatformAdmin

/-- The device session and the token of an account that has proven its identity. -/
def finishSignIn (user : User) (force : Bool) (sessionId msgKey : String) :
    Handler (Reply SignedIn) := do
  match ← startSession user.email user.tenantId force sessionId with
  | .blocked _ => reject 409 "already_logged_in_elsewhere"
  | .started sid => resolve 200 msgKey (signedIn user sid)

theorem within_finishSignIn {R : World → World → Prop} (hrefl : ∀ w, R w w) {user : User}
    (hrevoke : ∀ w, R w (w.sessionsRevoked user.email)) {sessionId : String}
    (hopen : ∀ w sessions,
      w.db.userSessions.insert? (newSession user.email sessionId w.now) = some sessions →
        R w (w.setSessions sessions)) (force : Bool) (msgKey : String) :
    Prog.Within R (finishSignIn user force sessionId msgKey) := by
  refine .bind (within_startSession hrefl hrevoke hopen user.tenantId force) fun start => ?_
  cases start with
  | blocked live => exact .throw _
  | started sid => exact .pure _

/-- Users are none of a sign-in's business. -/
def KeepsUsers (w w' : World) : Prop := w'.db.users = w.db.users

theorem KeepsUsers.trans {w w' w'' : World} (h : KeepsUsers w w') (h' : KeepsUsers w' w'') :
    KeepsUsers w w'' := Eq.trans h' h

theorem users_finishSignIn (user : User) (force : Bool) (sessionId msgKey : String) (w : World) :
    ((finishSignIn user force sessionId msgKey).exec w).2.db.users = w.db.users := by
  have hwithin : Prog.Within KeepsUsers (finishSignIn user force sessionId msgKey) :=
    within_finishSignIn (R := KeepsUsers) (fun _ => rfl) (fun _ => rfl) (fun _ _ _ => rfl) force
      msgKey
  exact Prog.Within.exec (R := KeepsUsers) (fun _ => rfl) (fun _ _ _ => .trans) hwithin w

/-- A token that is let through names an active row, and nothing but its session is
touched. -/
theorem exec_authenticateToken (claims : Token) (w : World) :
    ((authenticateToken claims).exec w).2.db.users = w.db.users ∧
      ∀ auth, ((authenticateToken claims).exec w).1 = .ok auth →
        ∃ u ∈ w.db.users, u.id = auth.id ∧ u.email = auth.email ∧ u.isActive = true := by
  unfold authenticateToken isSessionActive
  rw [exec_query_bind]
  split
  · exact ⟨rfl, fun auth hok => by cases hok⟩
  rw [exec_query_bind]
  cases huser : getActiveUser w.db claims.id claims.email with
  | none => exact ⟨rfl, fun auth hok => by cases hok⟩
  | some user =>
    refine ⟨rfl, fun auth hok => ?_⟩
    have hp := List.find?_some huser
    simp only [Bool.and_eq_true] at hp
    cases hok
    exact ⟨user, List.mem_of_find?_eq_some huser, rfl, rfl, hp.2⟩

end Feedbase
