import Feedbase.Users.Invitations

/-!
# Accepting an invitation, statement by statement

The two acceptances as the server performs them: the `FOR UPDATE` read locks the
invitation and its workspace until the transaction ends, and other calls act between
its statements. Its writes become visible with the `COMMIT`, so they are one action.
Without a concurrent call each acceptance does what its transaction does.

## Main definitions

* `lockInvitation`, `rollbackJoin`, `commitMember`
* `newUserSteps`, `existingUserSteps`

## Main results

* `exec_newUserSteps`, `exec_existingUserSteps`
-/

namespace Feedbase

/-! ### Row locks -/

/-- No transaction has locked one of the rows. -/
def World.free (w : World) (locks : List RowLock) : Bool := locks.all fun l => l ∉ w.rowLocks

def World.locked (w : World) (locks : List RowLock) : World :=
  { w with rowLocks := locks ++ w.rowLocks }

/-- A transaction that ends gives its locks back. -/
def World.released (w : World) (locks : List RowLock) : World :=
  { w with rowLocks := w.rowLocks.filter (· ∉ locks) }

/-- The rows of an open invitation. -/
def locksOf (inv : Invitation) (tenant : Tenant) : List RowLock :=
  [.invitation inv.id, .tenant tenant.id]

/-- The rows the locking read has to wait for: the one with the token, and the workspace of
an invitation that is open. -/
def locksFor (db : Db) (now : Time) (token : String) : List RowLock :=
  match openInvitation db now token with
  | some (inv, tenant) => locksOf inv tenant
  | none => (db.invitations.rows.filter (·.token == token)).map fun i => .invitation i.id

variable {w : World}

theorem released_locked {locks : List RowLock} (h : w.free locks = true) :
    (w.locked locks).released locks = w := by
  have hfilter : (locks ++ w.rowLocks).filter (· ∉ locks) = w.rowLocks := by
    rw [List.filter_append, List.filter_eq_nil_iff.mpr (by simp), List.nil_append,
      List.filter_eq_self]
    intro l hl
    have hfree := List.all_eq_true.mp h
    exact decide_eq_true fun hmem => of_decide_eq_true (hfree l hmem) hl
  exact congrArg (fun l => { w with rowLocks := l }) hfilter

/-! ### The statements -/

/-- `SELECT … FOR UPDATE`; without an open invitation the transaction is over. -/
def lockInvitation (token : String) : Handler (Option (Invitation × Tenant)) :=
  Prog.step (fun w => w.free (locksFor w.db w.now token)) fun w =>
    match openInvitation w.db w.now token with
    | none => (.ok none, w)
    | some (inv, tenant) => (.ok (some (inv, tenant)), w.locked (locksOf inv tenant))

def rollbackJoin (inv : Invitation) (tenant : Tenant) : Handler Unit :=
  Prog.write fun w => w.released (locksOf inv tenant)

/-- The writes of `joinWorkspace` with the `COMMIT`, or the rollback after a duplicate key. -/
def commitMember (inv : Invitation) (tenant : Tenant) (fullName : String)
    (passwordHash avatarUrl : Option String) : Handler Nat :=
  Prog.atomic fun w =>
    match joinWorkspace inv fullName passwordHash avatarUrl w.db with
    | some db => (.ok w.db.users.next, { w with db := db }.released (locksOf inv tenant))
    | none => (.error .duplicate, w.released (locksOf inv tenant))

/-! ### The acceptances -/

/-- The part of `acceptInvitationAsNewUser` behind its locking read. -/
def joinAsNewUser (inv : Invitation) (tenant : Tenant) (fullName passwordHash sessionId : String) :
    Handler (Reply (Token × Joined)) := do
  if ← query fun db => db.users.rows.any (·.email == inv.email) then do
    rollbackJoin inv tenant
    reject 400 "account_exists_please_login"
  else do
    let memberId ← commitMember inv tenant fullName (some passwordHash) none
    let sid ← createSession inv.email sessionId
    resolve 201 "invitation_accepted"
      (⟨memberId, inv.email, some tenant.id, .user, sid⟩,
        ⟨memberId, fullName, inv.email, tenant.id, tenant.name, none⟩)

/-- `acceptInvitationAsNewUser`. -/
def newUserSteps (crypto : Crypto) (token fullName password salt sessionId : String) :
    Handler (Reply (Token × Joined)) :=
  let fullName := trim fullName
  if fullName = "" then reject 400 "full_name_required"
  else if lengthUnits password < 8 then reject 400 "password_too_short"
  else
    tryCatch
      (do
        match ← lockInvitation token with
        | none => reject 400 "invitation_invalid"
        | some (inv, tenant) =>
          joinAsNewUser inv tenant fullName (crypto.hash salt password) sessionId)
      (failWith "failed_to_accept_invitation")

/-- The part of `acceptInvitationAsExistingUser` behind its checks. The account is read from
the snapshot that the first read of the transaction has taken. -/
def joinAsExistingUser (inv : Invitation) (tenant : Tenant) (account : Option User) :
    Handler (Reply Joined) :=
  match account with
  | none => do
    rollbackJoin inv tenant
    throw .error
  | some account => do
    let memberId ← commitMember inv tenant account.fullName account.passwordHash account.avatarUrl
    resolve 200 "invitation_accepted"
      ⟨memberId, account.fullName, inv.email, tenant.id, tenant.name, account.avatarUrl⟩

/-- The part of `acceptInvitationAsExistingUser` behind its locking read. -/
def checkExistingUser (inv : Invitation) (tenant : Tenant) (auth : AuthData) :
    Handler (Reply Joined) :=
  if auth.email ≠ inv.email then do
    rollbackJoin inv tenant
    reject 403 "invitation_wrong_account"
  else do
    let (already, account) ← query fun db =>
      (db.users.rows.any (fun u => u.tenantId == some inv.tenantId && u.email == inv.email),
        db.users.byId auth.id)
    if already then do
      rollbackJoin inv tenant
      reject 400 "already_a_member"
    else do
      let usage ← getAccountWorkspaceUsage inv.email
      if usage.canJoin = false then do
        rollbackJoin inv tenant
        reject 402 "plan_limit_workspaces_join"
      else joinAsExistingUser inv tenant account

/-- `acceptInvitationAsExistingUser`. -/
def existingUserSteps (token : String) (auth : AuthData) : Handler (Reply Joined) :=
  tryCatch
    (do
      match ← lockInvitation token with
      | none => reject 400 "invitation_invalid"
      | some (inv, tenant) => checkExistingUser inv tenant auth)
    (failWith "failed_to_accept_invitation")

/-! ### Without a concurrent call -/

theorem exec_lockInvitation (token : String) :
    (lockInvitation token).exec w = match openInvitation w.db w.now token with
      | none => (.ok none, w)
      | some (inv, tenant) => (.ok (some (inv, tenant)), w.locked (locksOf inv tenant)) :=
  Prog.exec_step _ _ _

theorem exec_rollbackJoin {inv : Invitation} {tenant : Tenant}
    (hfree : w.free (locksOf inv tenant) = true) :
    (rollbackJoin inv tenant).exec (w.locked (locksOf inv tenant)) = (.ok (), w) := by
  rw [rollbackJoin, Prog.exec_write, released_locked hfree]

theorem exec_commitMember {inv : Invitation} {tenant : Tenant} (fullName : String)
    (passwordHash avatarUrl : Option String) (hfree : w.free (locksOf inv tenant) = true) :
    (commitMember inv tenant fullName passwordHash avatarUrl).exec
        (w.locked (locksOf inv tenant)) =
      match joinWorkspace inv fullName passwordHash avatarUrl w.db with
      | some db => (.ok w.db.users.next, { w with db := db })
      | none => (.error .duplicate, w) := by
  rw [commitMember, Prog.exec_atomic]
  have hdb : (w.locked (locksOf inv tenant)).db = w.db := rfl
  rw [hdb]
  cases joinWorkspace inv fullName passwordHash avatarUrl w.db with
  | none => exact congrArg (Prod.mk _) (released_locked hfree)
  | some db =>
    exact congrArg (Prod.mk _) (released_locked (w := { w with db := db }) hfree)

theorem exec_newUserSteps (crypto : Crypto) (token fullName password salt sessionId : String)
    (hfree : w.free (locksFor w.db w.now token) = true) :
    (newUserSteps crypto token fullName password salt sessionId).exec w =
      (acceptInvitationAsNewUser crypto token fullName password salt sessionId).exec w := by
  unfold newUserSteps acceptInvitationAsNewUser
  dsimp only
  split
  · rfl
  split
  · rfl
  rw [Prog.exec_tryCatch, Prog.exec_tryCatch, Prog.exec_bind, Prog.exec_bind, exec_lockInvitation,
    exec_timedTransaction, joinAsNewUserTx]
  cases hopen : openInvitation w.db w.now token with
  | none => rfl
  | some r =>
    obtain ⟨inv, tenant⟩ := r
    -- a call that runs alone waits for no lock, so its statements are the transaction
    have hrows : w.free (locksOf inv tenant) = true := by
      rw [locksFor, hopen] at hfree
      exact hfree
    dsimp only
    rw [joinAsNewUser, exec_query_bind]
    have hdb : (w.locked (locksOf inv tenant)).db = w.db := rfl
    rw [hdb]
    by_cases hknown : (w.db.users.rows.any (·.email == inv.email)) = true
    · rw [if_pos hknown, if_pos hknown, Prog.exec_bind, exec_rollbackJoin hrows]
      rfl
    · rw [if_neg hknown, if_neg hknown, Prog.exec_bind, exec_commitMember _ _ _ hrows]
      cases joinWorkspace inv (trim fullName) (some (crypto.hash salt password)) none w.db with
      | none => rfl
      | some db => rfl

theorem exec_existingUserSteps (token : String) (auth : AuthData)
    (hfree : w.free (locksFor w.db w.now token) = true) :
    (existingUserSteps token auth).exec w =
      (acceptInvitationAsExistingUser token auth).exec w := by
  unfold existingUserSteps acceptInvitationAsExistingUser
  rw [Prog.exec_tryCatch, Prog.exec_bind, Prog.exec_bind, exec_lockInvitation,
    exec_timedTransaction, joinAsExistingUserTx]
  cases hopen : openInvitation w.db w.now token with
  | none => rfl
  | some r =>
    obtain ⟨inv, tenant⟩ := r
    have hrows : w.free (locksOf inv tenant) = true := by
      rw [locksFor, hopen] at hfree
      exact hfree
    have hdb : (w.locked (locksOf inv tenant)).db = w.db := rfl
    dsimp only
    rw [checkExistingUser]
    by_cases hother : auth.email ≠ inv.email
    · rw [if_pos hother, if_pos hother, Prog.exec_bind, exec_rollbackJoin hrows]
      rfl
    rw [if_neg hother, if_neg hother, exec_query_bind, hdb]
    dsimp only
    by_cases halready :
        (w.db.users.rows.any fun u => u.tenantId == some inv.tenantId && u.email == inv.email) = true
    · rw [if_pos halready, if_pos halready, Prog.exec_bind, exec_rollbackJoin hrows]
      rfl
    rw [if_neg halready, if_neg halready, Prog.exec_bind, exec_getAccountWorkspaceUsage, hdb]
    dsimp only
    by_cases hfull : (accountWorkspaceUsage w.db inv.email).canJoin = false
    · rw [if_pos hfull, if_pos hfull, Prog.exec_bind, exec_rollbackJoin hrows]
      rfl
    rw [if_neg hfull, if_neg hfull]
    cases w.db.users.byId auth.id with
    | none =>
      dsimp only [joinAsExistingUser]
      rw [Prog.exec_bind, exec_rollbackJoin hrows]
      rfl
    | some account =>
      dsimp only [joinAsExistingUser]
      rw [Prog.exec_bind, exec_commitMember _ _ _ hrows]
      cases joinWorkspace inv account.fullName account.passwordHash account.avatarUrl w.db with
      | none => rfl
      | some db => rfl

end Feedbase
