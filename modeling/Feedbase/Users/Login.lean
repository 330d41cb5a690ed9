import Feedbase.Common.Credentials
import Feedbase.Users.Members

/-!
# Signing in

With a password, or with an identity that a social provider has verified. The first needs
an active row of the account. The second looks for an active row too, and signs the
account up when it finds none. `last_login_at` is left out.

## Main definitions

* `userLogin`, `userLoginQuery`
* `oauthLogin`, `findAccountRow`, `provision`
-/

namespace Feedbase

/-! ### Password -/

/-- The body of `userLogin`, with the tenant id parsed. -/
structure LoginData where
  email : String
  password : String
  tenantId : Option Nat := none
  force : Bool := false
  deriving DecidableEq

/-- An active row of the account, in the workspace if one is named. -/
def userLoginQuery (db : Db) (email : String) (tenantId : Option Nat) : Option User :=
  db.users.rows.find? fun u =>
    u.email == email && (tenantId.isNone || u.tenantId == tenantId) && u.isActive

/-- `bcrypt.compare` throws on a missing hash. -/
def isPasswordCorrect (crypto : Crypto) (password : String) (user : User) : Bool :=
  user.passwordHash.any fun hash => crypto.compare password hash

def userLogin (crypto : Crypto) (data : LoginData) (sessionId : String) :
    Handler (Reply SignedIn) := do
  match ← query fun db => userLoginQuery db data.email data.tenantId with
  | none => reject 400 "invalid_email_or_password"
  | some user =>
    if isPasswordCorrect crypto data.password user = false then
      reject 400 "invalid_email_or_password"
    else finishSignIn user data.force sessionId "user_logged_in_successfully"

/-! ### Social provider -/

/-- `VALID_PROVIDERS`. -/
def VALID_PROVIDERS : List String := ["google", "facebook", "github", "microsoft"]

/-- The body of `oauthLogin`. -/
structure OauthData where
  provider : String
  providerUserId : String
  email : String
  fullName : String := ""
  avatarUrl : Option String := none
  emailVerified : Bool := false
  force : Bool := false
  deriving DecidableEq

/-- The active row to sign the account in as: one with a workspace first, then by id. -/
def findAccountRow (db : Db) (email : String) : Option User :=
  let rows := db.users.rows.filter fun u => u.email == email && u.isActive
  (rows.find? (·.tenantId.isSome)).or rows.head?

/-- The link of a provider identity. -/
def oauthLink (db : Db) (provider providerUserId : String) : Option OauthAccount :=
  db.oauthAccounts.rows.find? fun a =>
    a.provider == provider && a.providerUserId == providerUserId

/-- The account of an identity: the stored address wins over the presented one. -/
def linkedEmail (link : Option OauthAccount) (email : String) : String :=
  (orNull (link.map OauthAccount.email)).getD email

/-- The row of an account that signs up with a social provider. -/
def provisionedRow (email fullName avatarUrl : String) (id : Nat) : User where
  id := id
  email := email
  fullName := fullName
  avatarUrl := some avatarUrl

/-- `INSERT INTO users`; the id of the row. -/
def provision (email fullName avatarUrl : String) : Handler Nat :=
  Prog.attempt .duplicate fun w =>
    (w.db.users.insert? (provisionedRow email fullName avatarUrl)).map fun users =>
      (w.db.users.next, { w with db := { w.db with users := users } })

/-- The row to sign in as, provisioned if the account has no active one. -/
def findOrProvision (email fullName avatarUrl : String) : Handler (Option User) := do
  match ← query fun db => findAccountRow db email with
  | some user => return some user
  | none => do
    let id ← provision email fullName avatarUrl
    query fun db => db.users.rows.find? fun u => u.id == id && u.isActive

/-- `INSERT IGNORE INTO oauth_accounts`. -/
def rememberLink (email provider providerUserId : String) (db : Db) : Db :=
  match db.oauthAccounts.insert? fun id => ⟨id, email, provider, providerUserId⟩ with
  | some accounts => { db with oauthAccounts := accounts }
  | none => db

/-- The part of `oauthLogin` behind its validation. -/
def oauthSignIn (provider providerUserId email fullName avatarUrl : String) (force : Bool)
    (sessionId : String) : Handler (Reply SignedIn) := do
  let link ← query fun db => oauthLink db provider providerUserId
  match ← findOrProvision (linkedEmail link email) fullName avatarUrl with
  | none => reject 400 "failed_to_process_oauth_login"
  | some user => do
    if link.isNone then
      update (rememberLink (linkedEmail link email) provider providerUserId)
    finishSignIn user force sessionId "oauth_login_successful"

/-- The address that is presented. -/
def OauthData.address (d : OauthData) : String := toLowerCase (trim d.email)

def OauthData.name (d : OauthData) : String :=
  (orNull (some (trim d.fullName))).getD d.address

def OauthData.avatar (d : OauthData) : String := (orNull d.avatarUrl).getD placeholderImagePath

/-- What `oauthLogin` checks before it touches the database. -/
def OauthData.invalid? (d : OauthData) : Option String :=
  if VALID_PROVIDERS.contains (toLowerCase d.provider) = false then some "invalid_oauth_provider"
  else if d.providerUserId = "" ∨ d.address = "" then some "oauth_provider_is_required"
  else if d.emailVerified = false then some "oauth_email_unverified"
  else none

def oauthLogin (data : OauthData) (sessionId : String) : Handler (Reply SignedIn) :=
  match data.invalid? with
  | some msgKey => reject 400 msgKey
  | none =>
    tryCatch
      (oauthSignIn (toLowerCase data.provider) data.providerUserId data.address data.name
        data.avatar data.force sessionId)
      (failWith "failed_to_process_oauth_login")

/-- The account an identity signs in to. -/
def OauthData.account (d : OauthData) (db : Db) : String :=
  linkedEmail (oauthLink db (toLowerCase d.provider) d.providerUserId) d.address

/-- An accepted identity of an account without an active row is signed up. -/
def OauthData.Provisions (d : OauthData) (db : Db) : Prop :=
  d.invalid? = none ∧ findAccountRow db (d.account db) = none

instance (d : OauthData) (db : Db) : Decidable (d.Provisions db) :=
  inferInstanceAs (Decidable (_ ∧ _))

/-! ### What a social sign-in does to the users -/

variable {w : World}

theorem users_rememberLink (email provider providerUserId : String) (db : Db) :
    (rememberLink email provider providerUserId db).users = db.users := by
  unfold rememberLink
  split <;> rfl

/-- A row without a workspace clashes with none. -/
theorem insert_workspaceless (users : Sql.Table User) {mk : Nat → User}
    {hmk : ∀ n, Sql.Row.id (mk n) = n} (h : ∀ n, (mk n).tenantId = none) :
    ∃ users', users.insert? mk hmk = some users' := by
  refine Option.ne_none_iff_exists'.mp fun hnone => ?_
  obtain ⟨u, -, hclash⟩ := Sql.Table.insert?_eq_none_iff.mp hnone
  simp [Sql.Row.clash, h] at hclash

/-- An account without an active row gets one, without a password. -/
theorem exec_findOrProvision {email : String} (fullName avatarUrl : String)
    (hnone : findAccountRow w.db email = none) :
    ∃ users, w.db.users.insert? (provisionedRow email fullName avatarUrl) = some users ∧
      (findOrProvision email fullName avatarUrl).exec w =
        (.ok (some (provisionedRow email fullName avatarUrl w.db.users.next)),
          { w with db := { w.db with users := users } }) := by
  have hfree : ∀ n, (provisionedRow email fullName avatarUrl n).tenantId = none := fun _ => rfl
  obtain ⟨users, hins⟩ := insert_workspaceless w.db.users hfree
  refine ⟨users, hins, ?_⟩
  have hrow : provisionedRow email fullName avatarUrl w.db.users.next ∈ users :=
    (Sql.Table.mem_insert? hins).mpr (.inr rfl)
  have hfind : users.rows.find? (fun u => u.id == w.db.users.next && u.isActive) =
      some (provisionedRow email fullName avatarUrl w.db.users.next) := by
    cases hfound : users.rows.find? fun u => u.id == w.db.users.next && u.isActive with
    | none =>
      have hnot := List.find?_eq_none.mp hfound _ hrow
      simp [provisionedRow] at hnot
    | some u =>
      have hp := List.find?_some hfound
      simp only [Bool.and_eq_true, beq_iff_eq] at hp
      rw [Sql.Table.eq_of_id (List.mem_of_find?_eq_some hfound) hrow hp.1]
  unfold findOrProvision
  rw [exec_query_bind, hnone]
  dsimp only
  rw [Prog.exec_bind, provision, Prog.exec_attempt, hins]
  dsimp only [Option.map_some]
  rw [exec_query]
  dsimp only
  rw [hfind]

theorem findAccountRow_eq_some {db : Db} {email : String} {user : User}
    (h : findAccountRow db email = some user) :
    user ∈ db.users ∧ user.email = email ∧ user.isActive = true := by
  have hmem : user ∈ db.users.rows.filter fun u => u.email == email && u.isActive := by
    rcases Option.or_eq_some_iff.mp h with hfind | ⟨-, hhead⟩
    · exact List.mem_of_find?_eq_some hfind
    · exact List.mem_of_head? hhead
  obtain ⟨hrow, hp⟩ := List.mem_filter.mp hmem
  obtain ⟨hemail, hactive⟩ := Bool.and_eq_true_iff.mp hp
  exact ⟨hrow, beq_iff_eq.mp hemail, hactive⟩

/-- An active row of the account is found. -/
theorem findAccountRow_ne_none {db : Db} {u : User} (hu : u ∈ db.users)
    (hactive : u.isActive = true) : findAccountRow db u.email ≠ none := by
  intro hnone
  have hhead := (Option.or_eq_none_iff.mp hnone).2
  have hrow : u ∈ db.users.rows.filter fun v => v.email == u.email && v.isActive :=
    List.mem_filter.mpr ⟨hu, by simp [hactive]⟩
  rw [List.head?_eq_none_iff.mp hhead] at hrow
  cases hrow

theorem exec_findOrProvision_some {email fullName avatarUrl : String} {user : User}
    (hfound : findAccountRow w.db email = some user) :
    (findOrProvision email fullName avatarUrl).exec w = (.ok (some user), w) := by
  unfold findOrProvision
  rw [exec_query_bind, hfound]
  rfl

/-- Behind the lookup a social sign-in changes no user. -/
theorem users_oauthSignIn {provider providerUserId email fullName avatarUrl sessionId : String}
    {force : Bool} {user : User} {w' : World}
    (hfound : (findOrProvision (linkedEmail (oauthLink w.db provider providerUserId) email) fullName
      avatarUrl).exec w = (.ok (some user), w')) :
    ((oauthSignIn provider providerUserId email fullName avatarUrl force sessionId).exec
      w).2.db.users = w'.db.users := by
  unfold oauthSignIn
  rw [exec_query_bind, Prog.exec_bind, hfound]
  dsimp only
  split
  · rw [update, Prog.exec_write_bind, users_finishSignIn]
    exact users_rememberLink _ _ _ _
  · rw [users_finishSignIn]

/-- Rejecting what was thrown leaves the state as it is. -/
theorem exec_oauthLogin_snd {data : OauthData} (hvalid : data.invalid? = none) (sessionId : String) :
    ((oauthLogin data sessionId).exec w).2 =
      ((oauthSignIn (toLowerCase data.provider) data.providerUserId data.address data.name
        data.avatar data.force sessionId).exec w).2 := by
  unfold oauthLogin
  rw [hvalid]
  exact Prog.exec_tryCatch_snd (exec_failWith _)

/-- An account without an active row is signed up, without a password. -/
theorem users_oauthLogin_of_provisions {data : OauthData} (h : data.Provisions w.db)
    (sessionId : String) :
    w.db.users.insert? (provisionedRow (data.account w.db) data.name data.avatar) =
      some ((oauthLogin data sessionId).exec w).2.db.users := by
  obtain ⟨users, hins, hexec⟩ := exec_findOrProvision data.name data.avatar h.2
  rw [exec_oauthLogin_snd h.1, users_oauthSignIn hexec, hins]

/-- Otherwise no user changes. -/
theorem users_oauthLogin_of_not {data : OauthData} (h : ¬ data.Provisions w.db)
    (sessionId : String) : ((oauthLogin data sessionId).exec w).2.db.users = w.db.users := by
  cases hvalid : data.invalid? with
  | some msgKey =>
    unfold oauthLogin
    rw [hvalid]
    rfl
  | none =>
    obtain ⟨user, hfound⟩ : ∃ user, findAccountRow w.db (data.account w.db) = some user :=
      Option.ne_none_iff_exists'.mp fun hnone => h ⟨hvalid, hnone⟩
    rw [exec_oauthLogin_snd hvalid, users_oauthSignIn (exec_findOrProvision_some hfound)]

end Feedbase
