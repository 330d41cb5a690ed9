import Feedbase.Common.Credentials
import Feedbase.Common.PlanGuard
import Feedbase.Common.Strings

/-!
# Accepting an invitation

As a person without an account, or as a signed-in one. The transaction of each is one
action; the token for a signed-in account is left out of its reply.

## Main definitions

* `acceptInvitationAsNewUser`, `acceptInvitationAsExistingUser`
-/

namespace Feedbase

/-- A pending, unexpired invitation of an existing workspace. -/
def openInvitation (db : Db) (now : Time) (token : String) : Option (Invitation × Tenant) := do
  let inv ← db.invitations.rows.find? fun i =>
    i.token == token && i.status == .pending && decide (now < i.expiresAt)
  let tenant ← db.tenants.byId inv.tenantId
  return (inv, tenant)

/-- `SET status = 'accepted', accepted_by_user_id = ?`. -/
def Invitation.accept (memberId : Nat) (i : Invitation) : Invitation :=
  { i with status := .accepted, acceptedByUserId := some memberId }

/-- The member row and the accepted invitation; `none` on a duplicate key. -/
def joinWorkspace (inv : Invitation) (fullName : String) (passwordHash avatarUrl : Option String)
    (db : Db) : Option Db :=
  (db.users.insert? fun id =>
    { id := id
      tenantId := some inv.tenantId
      email := inv.email
      passwordHash := passwordHash
      fullName := fullName
      avatarUrl := orNull avatarUrl }).map fun users =>
    { db with
      users := users
      invitations := db.invitations.update (fun i => i.id == inv.id && i.status == .pending)
        (Invitation.accept db.users.next) }

/-- The only new row is the member's. -/
theorem mem_joinWorkspace {inv : Invitation} {fullName : String}
    {passwordHash avatarUrl : Option String} {db db' : Db}
    (h : joinWorkspace inv fullName passwordHash avatarUrl db = some db') :
    db'.userSessions = db.userSessions ∧ ∃ row, row.email = inv.email ∧
      row.passwordHash = passwordHash ∧ ∀ u, u ∈ db'.users ↔ u ∈ db.users ∨ u = row := by
  obtain ⟨users, hins, rfl⟩ := Option.map_eq_some_iff.mp h
  exact ⟨rfl, _, rfl, rfl, fun _ => Sql.Table.mem_insert? hins⟩

/-- Who has joined which workspace. -/
structure Joined where
  memberId : Nat
  fullName : String
  email : String
  tenantId : Nat
  tenantName : String
  imageUrl : Option String
  deriving DecidableEq

/-- The transaction of `acceptInvitationAsNewUser`. -/
def joinAsNewUserTx (token fullName passwordHash : String) (now : Time) (db : Db) :
    Except Failure (Joined × Db) :=
  match openInvitation db now token with
  | none => .error (.rejected 400 "invitation_invalid")
  | some (inv, tenant) =>
    if db.users.rows.any (·.email == inv.email) then
      .error (.rejected 400 "account_exists_please_login")
    else
      match joinWorkspace inv fullName (some passwordHash) none db with
      | none => .error (.rejected 500 "failed_to_accept_invitation")
      | some db' => .ok (⟨db.users.next, fullName, inv.email, tenant.id, tenant.name, none⟩, db')

theorem joinAsNewUserTx_ok {token fullName passwordHash : String} {now : Time} {db db' : Db}
    {joined : Joined} (h : joinAsNewUserTx token fullName passwordHash now db = .ok (joined, db')) :
    ∃ inv tenant, openInvitation db now token = some (inv, tenant) ∧ joined.email = inv.email ∧
      (∀ u ∈ db.users, u.email ≠ inv.email) ∧
        joinWorkspace inv fullName (some passwordHash) none db = some db' := by
  unfold joinAsNewUserTx at h
  split at h
  · cases h
  rename_i inv tenant hopen
  split at h
  · cases h
  rename_i hnew
  split at h
  · cases h
  rename_i db'' hjoin
  cases h
  refine ⟨inv, tenant, hopen, rfl, fun u hu hemail => hnew ?_, hjoin⟩
  exact List.any_eq_true.mpr ⟨u, hu, beq_iff_eq.mpr hemail⟩

/-- `acceptInvitationAsNewUser`; the first sign-in of the account opens a session. The
salt and the session id are random. -/
def acceptInvitationAsNewUser (crypto : Crypto) (token fullName password salt sessionId : String) :
    Handler (Reply (Token × Joined)) :=
  let fullName := trim fullName
  if fullName = "" then reject 400 "full_name_required"
  else if lengthUnits password < 8 then reject 400 "password_too_short"
  else
    tryCatch
      (do
        let joined ← timedTransaction
          (joinAsNewUserTx token fullName (crypto.hash salt password))
        let sid ← createSession joined.email sessionId
        resolve 201 "invitation_accepted"
          (⟨joined.memberId, joined.email, some joined.tenantId, .user, sid⟩, joined))
      (failWith "failed_to_accept_invitation")

/-- The transaction of `acceptInvitationAsExistingUser`: the row the caller is signed in
as is cloned. Two addresses whose lower case agrees are one under the collation. -/
def joinAsExistingUserTx (token : String) (auth : AuthData) (now : Time) (db : Db) :
    Except Failure (Joined × Db) :=
  match openInvitation db now token with
  | none => .error (.rejected 400 "invitation_invalid")
  | some (inv, tenant) =>
    if auth.email ≠ inv.email then
      .error (.rejected 403 "invitation_wrong_account")
    else if db.users.rows.any fun u => u.tenantId == some inv.tenantId && u.email == inv.email then
      .error (.rejected 400 "already_a_member")
    else if (accountWorkspaceUsage db inv.email).canJoin = false then
      .error (.rejected 402 "plan_limit_workspaces_join")
    else
      match db.users.byId auth.id with
      | none => .error (.rejected 500 "failed_to_accept_invitation")
      | some account =>
        match joinWorkspace inv account.fullName account.passwordHash account.avatarUrl db with
        | none => .error (.rejected 500 "failed_to_accept_invitation")
        | some db' =>
          .ok (⟨db.users.next, account.fullName, inv.email, tenant.id, tenant.name,
            account.avatarUrl⟩, db')

theorem joinAsExistingUserTx_ok {token : String} {auth : AuthData} {now : Time} {db db' : Db}
    {joined : Joined} (h : joinAsExistingUserTx token auth now db = .ok (joined, db')) :
    ∃ inv tenant account, openInvitation db now token = some (inv, tenant) ∧
      auth.email = inv.email ∧ db.users.byId auth.id = some account ∧
        joinWorkspace inv account.fullName account.passwordHash account.avatarUrl db =
          some db' := by
  unfold joinAsExistingUserTx at h
  split at h
  · cases h
  rename_i inv tenant hopen
  split at h
  · cases h
  rename_i hemail
  split at h
  · cases h
  split at h
  · cases h
  split at h
  · cases h
  rename_i account haccount
  split at h
  · cases h
  rename_i db'' hjoin
  cases h
  exact ⟨inv, tenant, account, hopen, not_not.mp hemail, haccount, hjoin⟩

def acceptInvitationAsExistingUser (token : String) (auth : AuthData) : Handler (Reply Joined) := do
  let joined ← timedTransaction (joinAsExistingUserTx token auth)
  resolve 200 "invitation_accepted" joined

theorem createSession_snd (email sessionId : String) (w : World) :
    ∃ sessions, ((createSession email sessionId).exec w).2 = w.setSessions sessions := by
  unfold createSession
  rw [Prog.exec_attempt]
  cases w.db.userSessions.insert? (newSession email sessionId w.now) with
  | none => exact ⟨w.db.userSessions, rfl⟩
  | some sessions => exact ⟨sessions, rfl⟩

/-- A new user's acceptance changes nothing, or adds the first row of its address
and may open a session. -/
theorem acceptInvitationAsNewUser_cases (crypto : Crypto)
    (token fullName password salt sessionId : String) (w : World) :
    ((acceptInvitationAsNewUser crypto token fullName password salt sessionId).exec w).2 = w ∨
      ∃ inv tenant hash db' sessions, openInvitation w.db w.now token = some (inv, tenant) ∧
        (∀ u ∈ w.db.users, u.email ≠ inv.email) ∧
        joinWorkspace inv (trim fullName) (some hash) none w.db = some db' ∧
          ((acceptInvitationAsNewUser crypto token fullName password salt sessionId).exec w).2 =
            { w with db := { db' with userSessions := sessions } } := by
  unfold acceptInvitationAsNewUser
  dsimp only
  split
  · exact .inl rfl
  split
  · exact .inl rfl
  rw [Prog.exec_tryCatch_snd (exec_failWith _), Prog.exec_bind, exec_timedTransaction]
  cases htx : joinAsNewUserTx token (trim fullName) (crypto.hash salt password) w.now w.db with
  | error e => exact .inl rfl
  | ok r =>
    obtain ⟨joined, db'⟩ := r
    obtain ⟨inv, tenant, hopen, -, hnew, hjoin⟩ := joinAsNewUserTx_ok htx
    -- the session is opened after the commit, and may fail
    obtain ⟨sessions, hsessions⟩ := createSession_snd joined.email sessionId { w with db := db' }
    refine .inr ⟨inv, tenant, _, db', sessions, hopen, hnew, hjoin, ?_⟩
    dsimp only
    rw [Prog.exec_bind]
    rcases hsession : (createSession joined.email sessionId).exec { w with db := db' } with
      ⟨e | sid, w'⟩
    · rw [hsession] at hsessions
      exact hsessions
    · rw [hsession] at hsessions
      exact hsessions

/-- A signed-in account's acceptance changes nothing, or adds a clone of its row. -/
theorem acceptInvitationAsExistingUser_cases (token : String) (auth : AuthData) (w : World) :
    ((acceptInvitationAsExistingUser token auth).exec w).2 = w ∨
      ∃ inv tenant account db', openInvitation w.db w.now token = some (inv, tenant) ∧
        auth.email = inv.email ∧ w.db.users.byId auth.id = some account ∧
        joinWorkspace inv account.fullName account.passwordHash account.avatarUrl w.db = some db' ∧
          ((acceptInvitationAsExistingUser token auth).exec w).2 = { w with db := db' } := by
  unfold acceptInvitationAsExistingUser
  rw [Prog.exec_bind, exec_timedTransaction]
  cases htx : joinAsExistingUserTx token auth w.now w.db with
  | error e => exact .inl rfl
  | ok r =>
    obtain ⟨joined, db'⟩ := r
    obtain ⟨inv, tenant, account, hopen, hemail, haccount, hjoin⟩ := joinAsExistingUserTx_ok htx
    exact .inr ⟨inv, tenant, account, db', hopen, hemail, haccount, hjoin, rfl⟩

end Feedbase
