import Feedbase.Billing.RedeemPromo
import Feedbase.Schema.Cascade

/-!
# Deleting accounts and workspaces

`purgeAccount` cancels the subscription, and in one transaction leaves the workspaces the
account has joined, deletes those it owns, and deletes every row keyed by its email.
`deleteWorkspace` of the admin area is a single `DELETE`.

## Main definitions

* `ownedTenantIds`, `memberRows`
* `repair`, `leaveWorkspace`, `purgeTx`, `purgeAccount`
* `deleteWorkspace`
-/

namespace Feedbase

open Sql

/-! ### The transaction -/

/-- `SELECT id, tenant_id, role FROM users WHERE email = ?`. -/
def accountRows (db : Db) (email : String) : List User :=
  db.users.rows.filter (·.email == email)

/-- The workspaces the account owns. -/
def ownedTenantIds (rows : List User) : List Nat :=
  rows.filterMap fun u => if u.role = .owner then u.tenantId else none

/-- The rows of the workspaces it has joined. -/
def memberRows (rows : List User) : List User :=
  rows.filter fun u => u.role != .owner && u.tenantId.isSome

/-- The owner of the member's workspace. -/
def ownerOf (db : Db) (m : User) : Option Nat :=
  (db.users.rows.find? fun u => u.tenantId == m.tenantId && u.role == .owner).map (·.id)

/-- Nullable authorship is anonymised. -/
def anonymise (db : Db) (userId : Nat) : Db :=
  { db with
    posts := db.posts.update (fun p => p.authorId == some userId) fun p =>
      { p with authorId := none }
    comments := db.comments.update (fun c => c.authorId == some userId) fun c =>
      { c with authorId := none } }

/-- The other rows are handed over. -/
def handOver (db : Db) (userId ownerId : Nat) : Db :=
  { db with
    changelogEntries := db.changelogEntries.update (fun e => e.createdBy == userId) fun e =>
      { e with createdBy := ownerId }
    apiKeys := db.apiKeys.update (fun k => k.createdBy == userId) fun k =>
      { k with createdBy := ownerId }
    fileUploads := db.fileUploads.update (fun f => f.uploadedBy == userId) fun f =>
      { f with uploadedBy := ownerId } }

/-- The references to the member's row are repaired. -/
def repair (db : Db) (m : User) : Db :=
  match ownerOf db m with
  | some ownerId => handOver (anonymise db m.id) m.id ownerId
  | none => anonymise db m.id

/-- A joined workspace loses the member's row. -/
def leaveWorkspace (db : Db) (m : User) : Option Db :=
  (repair db m).erase { user := fun u => u.id == m.id }

/-- Every table that is keyed by the email, but `users`. -/
def forgetEmail (db : Db) (email : String) : Db :=
  { db with
    billingAccounts := db.billingAccounts.delete (·.email == email)
    userSessions := db.userSessions.delete (·.email == email)
    passwordResets := db.passwordResets.delete (·.email == email)
    invitations := db.invitations.delete (·.email == email)
    oauthAccounts := db.oauthAccounts.delete (·.email == email) }

/-- `DELETE FROM tenants WHERE id IN (?)`, unless there is none. -/
def deleteOwned (db : Db) (owned : List Nat) : Option Db :=
  if owned = [] then some db else db.erase { tenant := fun t => owned.contains t.id }

/-- The statements of the transaction; `none` when a foreign key refuses one. -/
def purgeTx (email : String) (rows : List User) (db : Db) : Option Db := do
  let db ← (memberRows rows).foldlM leaveWorkspace db
  let db ← deleteOwned db (ownedTenantIds rows)
  let db ← db.erase { user := fun u => u.email == email }
  return forgetEmail db email

/-! ### purgeAccount -/

/-- The errors that carry a `code`, on which the callers decide. -/
inductive PurgeError where
  | platformAdminUndeletable
  | userNotFound
  deriving DecidableEq

structure PurgeResult where
  email : String
  deletedWorkspaces : Nat
  leftWorkspaces : Nat
  deriving DecidableEq

def isPlatformAdminEmail (db : Db) (email : String) : Bool :=
  db.users.rows.any fun u => u.email == email && u.isPlatformAdmin

/-- No open claim is about to record a redemption of one of the workspaces; its foreign
key holds the workspace's row lock. -/
def World.deletable (w : World) (ids : List Nat) : Bool :=
  w.claims.all fun c => c.pending.all fun r => !ids.contains r.tenantId

/-- A transaction that deletes workspaces, and waits for their row locks. -/
def deletion {α : Type} (ids : List Nat) (f : Db → Except Failure (α × Db)) : Handler α :=
  Prog.step (·.deletable ids) fun w => match f w.db with
    | .ok (a, db) => (.ok a, { w with db := db })
    | .error e => (.error e, w)

def purgeAccount (cfg : Config) (email : String) (allowPlatformAdmin : Bool := false) :
    Handler (Except PurgeError PurgeResult) := do
  let admin ← query fun db => !allowPlatformAdmin && isPlatformAdminEmail db email
  if admin then return .error .platformAdminUndeletable
  else do
    let rows ← query fun db => accountRows db email
    if rows = [] then return .error .userNotFound
    else do
      -- outside the transaction: a rollback must not undo it
      cancelActiveSubscription cfg email
      deletion (ownedTenantIds rows) fun db =>
        match purgeTx email rows db with
        | some db => .ok ((), db)
        | none => .error .error
      return .ok ⟨email, (ownedTenantIds rows).length, (memberRows rows).length⟩

/-! ### deleteWorkspace -/

/-- `deleteWorkspace` of the admin area. -/
def deleteWorkspace (id : Nat) : Handler (Reply Unit) :=
  tryCatch
    (do
      let found ← deletion [id] fun db =>
        match db.erase { tenant := fun t => t.id == id } with
        | some db' => .ok ((db.tenants.byId id).isSome, db')
        | none => .error .error
      if found then resolve 200 "workspace_deleted" () else reject 404 "tenant_not_found")
    internalError

end Feedbase
