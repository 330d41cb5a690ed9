import Feedbase.Common.AccountBilling

/-!
# Plan enforcement

What the enforcement points read: the plan mirrored onto a tenant, and the plan of an
account. None of them looks at `current_period_end`.

## Main definitions

* `tenantPlan`, `planAllows` — a workspace's plan and capabilities
* `accountTier`, `workspaceUsage` — an account's plan and its workspace caps
-/

namespace Feedbase

/-- `rows[0]?.plan_name || "free"` for a tenant. -/
def tenantPlan (db : Db) (tenantId : Nat) : String :=
  (orNull ((db.tenants.byId tenantId).map fun t => t.planName)).getD "free"

def getTenantPlan (tenantId : Nat) : Handler String := query fun db => tenantPlan db tenantId

/-- `rows[0]?.plan_name || "free"` for an account. -/
def accountTier (db : Db) (email : String) : String :=
  if email = "" then "free"
  else (orNull ((accountRow db email).map fun a => a.planName)).getD "free"

def getAccountTier (email : String) : Handler String := query fun db => accountTier db email

/-- How many workspaces an account owns and has joined, and its caps. -/
structure WorkspaceUsage where
  tier : String
  ownedCount : Nat
  memberCount : Nat
  ownLimit : Option Nat
  joinLimit : Option Nat
  canCreate : Bool
  canJoin : Bool
  deriving DecidableEq

/-- The active memberships of an account in active tenants. -/
def activeMemberships (db : Db) (email : String) : List User :=
  db.users.rows.filter fun u =>
    u.email == email && u.isActive &&
      db.tenants.rows.any fun t => u.tenantId == some t.id && t.isActive

/-- The usage of an account with the given memberships and tier; no limit is `none`. -/
def workspaceUsage (rows : List User) (tier : String) : WorkspaceUsage :=
  let ownedCount := (rows.filter fun u => u.role = .owner).length
  let memberCount := rows.length - ownedCount
  let limits := getPlanLimits tier
  { tier := tier
    ownedCount := ownedCount
    memberCount := memberCount
    ownLimit := limits.ownWorkspaces
    joinLimit := limits.joinWorkspaces
    canCreate := limits.ownWorkspaces.all (ownedCount < ·)
    canJoin := limits.joinWorkspaces.all (memberCount < ·) }

/-- `getAccountWorkspaceUsage`: the memberships and the tier are two statements. -/
def getAccountWorkspaceUsage (email : String) : Handler WorkspaceUsage := do
  let rows ← query fun db => activeMemberships db email
  let tier ← getAccountTier email
  return workspaceUsage rows tier

theorem reads_getAccountWorkspaceUsage (email : String) :
    Prog.Reads (getAccountWorkspaceUsage email) :=
  .bind (reads_query _) fun _ => .bind (reads_query _) fun _ => .pure _

/-- The usage read from one database state. -/
def accountWorkspaceUsage (db : Db) (email : String) : WorkspaceUsage :=
  workspaceUsage (activeMemberships db email) (accountTier db email)

theorem exec_getAccountWorkspaceUsage (email : String) (w : World) :
    (getAccountWorkspaceUsage email).exec w = (.ok (accountWorkspaceUsage w.db email), w) := by
  simp only [getAccountWorkspaceUsage, getAccountTier, exec_query_bind]
  rfl

/-- `Boolean(getPlanLimits(plan)[capability])` for a tenant. -/
def allows (db : Db) (tenantId : Nat) (capability : Capability) : Bool :=
  (getPlanLimits (tenantPlan db tenantId)).allows capability

def planAllows (tenantId : Nat) (capability : Capability) : Handler Bool :=
  query fun db => allows db tenantId capability

end Feedbase
