import Feedbase.Common.PlanGuard
import Feedbase.Common.Strings

/-!
# Workspaces

Creating a workspace, and the two endpoints that change one: the owner's settings and
the platform admin's. The portal cache and the access token of the reply are left out.

## Main definitions

* `isSubdomain` — the pattern and the reserved names of a subdomain
* `createWorkspace`, `updateTenant`, `updateWorkspace`
-/

namespace Feedbase

/-! ### Subdomains -/

/-- `RESERVED_SUBDOMAINS`. -/
def RESERVED_SUBDOMAINS : List String := ["www", "app", "admin", "dashboard", "api", "public"]

/-- `[a-z0-9]`. -/
def isLowerAlnum (c : Char) : Bool := c.isLower || c.isDigit

/-- `SUBDOMAIN_RE`: one letter or digit, or three to forty characters with hyphens
inside. -/
def matchesSubdomain (s : String) : Bool :=
  let cs := s.toList
  cs.all (fun c => isLowerAlnum c || c == '-') && cs.head?.any isLowerAlnum &&
    cs.getLast?.any isLowerAlnum && (cs.length == 1 || (3 ≤ cs.length && cs.length ≤ 40))

def isSubdomain (s : String) : Bool := matchesSubdomain s && !RESERVED_SUBDOMAINS.contains s

/-! ### createWorkspace -/

/-- What the reply names. -/
structure NewWorkspace where
  ownerUserId : Nat
  tenantId : Nat
  name : String
  subdomain : String
  deriving DecidableEq

/-- The user row of the new workspace's owner: a row without a workspace is claimed, any
other account gets a fresh row. -/
def claimOwner (users : Sql.Table User) (account : User) (tenantId : Nat) :
    Option (Nat × Sql.Table User) :=
  if account.tenantId = none then
    (users.update? (fun u => u.id == account.id)
      fun u => { u with tenantId := some tenantId, role := .owner }).map (account.id, ·)
  else
    (users.insert? fun id =>
      { id := id
        tenantId := some tenantId
        email := account.email
        passwordHash := account.passwordHash
        fullName := account.fullName
        role := .owner
        avatarUrl := account.avatarUrl }).map (users.next, ·)

/-- The default roadmap columns. -/
def seedColumns (columns : Sql.Table RoadmapColumn) (tenantId : Nat) :
    Option (Sql.Table RoadmapColumn) := do
  let columns ← columns.insert? fun id => ⟨id, tenantId, "Planned", "planned", 1⟩
  let columns ← columns.insert? fun id => ⟨id, tenantId, "In Progress", "in_progress", 2⟩
  columns.insert? fun id => ⟨id, tenantId, "Completed", "completed", 3⟩

/-- The writes of the transaction; `none` on a duplicate key. -/
def insertWorkspace (name subdomain : String) (website : Option String) (account : User)
    (db : Db) : Option (NewWorkspace × Db) := do
  let tenantId := db.tenants.next
  let tenants ← db.tenants.insert? fun id =>
    { id := id, name := name, slug := subdomain, subdomain := subdomain, website := website
      brandingPrimaryColor := some "#c74959" }
  let (ownerUserId, users) ← claimOwner db.users account tenantId
  let db := insertIgnoreAccount { db with tenants := tenants, users := users } account.email
  let db := mirrorAccountToTenants db account.email
  let columns ← seedColumns db.roadmapColumns tenantId
  return (⟨ownerUserId, tenantId, name, subdomain⟩, { db with roadmapColumns := columns })

/-- The transaction of `createWorkspace`. -/
def createWorkspaceTx (name subdomain : String) (website : Option String) (userId : Nat)
    (db : Db) : Except Failure (NewWorkspace × Db) :=
  if db.tenants.rows.any fun t => t.subdomain == subdomain || t.slug == subdomain then
    .error (.rejected 409 "subdomain_taken")
  else
    match db.users.byId userId with
    | none => .error (.rejected 400 "user_not_found")
    | some account =>
      -- `ensureAccount` throws without an email
      if account.email = "" then .error (.rejected 500 "failed_to_create_tenant")
      else
        match insertWorkspace name subdomain website account db with
        | none => .error (.rejected 409 "subdomain_taken")
        | some r => .ok r

/-- The body of `createWorkspace`. -/
structure WorkspaceData where
  name : String
  subdomain : String
  website : String := ""
  deriving DecidableEq

def createWorkspace (data : WorkspaceData) (auth : AuthData) : Handler (Reply NewWorkspace) := do
  let name := trim data.name
  let subdomain := toLowerCase (trim data.subdomain)
  let website := orNull (some (trim data.website))
  if name = "" then reject 400 "workspace_name_required"
  else if isSubdomain subdomain = false then reject 400 "invalid_subdomain"
  else do
    let usage ← getAccountWorkspaceUsage auth.email
    if usage.canCreate = false then reject 402 "plan_limit_workspaces_own"
    else do
      let created ← transaction (createWorkspaceTx name subdomain website auth.id)
      resolve 201 "workspace_created_successfully" created

variable {db : Db}

theorem createWorkspaceTx_ok {name subdomain : String} {website : Option String} {userId : Nat}
    {r : NewWorkspace × Db} (h : createWorkspaceTx name subdomain website userId db = .ok r) :
    ∃ account, db.users.byId userId = some account ∧ account.email ≠ "" ∧
      insertWorkspace name subdomain website account db = some r := by
  unfold createWorkspaceTx at h
  split at h
  · cases h
  split at h
  · cases h
  rename_i account haccount
  split at h
  · cases h
  rename_i hemail
  split at h
  · cases h
  rename_i r' hinsert
  cases h
  exact ⟨account, haccount, hemail, hinsert⟩

/-- Every row is an old one, or the new workspace's owner row of the same account. -/
theorem mem_claimOwner {users U : Sql.Table User} {account u : User} {tenantId i : Nat}
    (haccount : account ∈ users) (h : claimOwner users account tenantId = some (i, U))
    (hu : u ∈ U) :
    u ∈ users ∨ (u.tenantId = some tenantId ∧ u.email = account.email) := by
  unfold claimOwner at h
  split at h
  · obtain ⟨T, hT, heq⟩ := Option.map_eq_some_iff.mp h
    cases heq
    obtain ⟨v, hv, rfl⟩ := (Sql.Table.mem_update? hT).mp hu
    by_cases hid : v.id = account.id
    · have hv : v = account := Sql.Table.eq_of_id hv haccount hid
      rw [if_pos (beq_iff_eq.mpr hid), hv]
      exact .inr ⟨rfl, rfl⟩
    · rw [if_neg (by simpa using hid)]
      exact .inl hv
  · obtain ⟨T, hT, heq⟩ := Option.map_eq_some_iff.mp h
    cases heq
    rcases (Sql.Table.mem_insert? hT).mp hu with hu | rfl
    · exact .inl hu
    · exact .inr ⟨rfl, rfl⟩

/-- The committed transaction: a new tenant, its owner row, the account, the mirror and
the columns. -/
theorem insertWorkspace_spec {name subdomain : String} {website : Option String} {account : User}
    {r : NewWorkspace} {db' : Db}
    (h : insertWorkspace name subdomain website account db = some (r, db')) :
    ∃ T U C, (∀ t, t ∈ T ↔ t ∈ db.tenants ∨
        t = { id := db.tenants.next, name := name, slug := subdomain, subdomain := subdomain
              website := website, brandingPrimaryColor := some "#c74959" }) ∧
      claimOwner db.users account db.tenants.next = some (r.ownerUserId, U) ∧
      db' = { mirrorAccountToTenants
        (insertIgnoreAccount { db with tenants := T, users := U } account.email) account.email with
        roadmapColumns := C } := by
  unfold insertWorkspace at h
  obtain ⟨T, hT, h⟩ := Option.bind_eq_some_iff.mp h
  obtain ⟨⟨i, U⟩, hU, h⟩ := Option.bind_eq_some_iff.mp h
  obtain ⟨C, hC, h⟩ := Option.bind_eq_some_iff.mp h
  cases h
  exact ⟨T, U, C, fun t => Sql.Table.mem_insert? hT, hU, rfl⟩

/-- `createWorkspace` is rejected, or commits its transaction. -/
theorem createWorkspace_cases (data : WorkspaceData) (auth : AuthData) (w : World) :
    ((createWorkspace data auth).exec w).2 = w ∨
      ∃ name subdomain website account r db', w.db.users.byId auth.id = some account ∧
        account.email ≠ "" ∧ insertWorkspace name subdomain website account w.db = some (r, db') ∧
        ((createWorkspace data auth).exec w).2 = { w with db := db' } := by
  unfold createWorkspace
  dsimp only
  generalize trim data.name = name
  generalize toLowerCase (trim data.subdomain) = subdomain
  generalize orNull (some (trim data.website)) = website
  split
  · exact .inl rfl
  split
  · exact .inl rfl
  rcases (reads_getAccountWorkspaceUsage auth.email).exec_bind _ w with ⟨e, h⟩ | ⟨usage, h⟩
  · exact .inl (congrArg Prod.snd h)
  rw [h]
  split
  · exact .inl rfl
  rw [Prog.exec_bind, exec_transaction]
  cases htx : createWorkspaceTx name subdomain website auth.id w.db with
  | error e => exact .inl rfl
  | ok r =>
    obtain ⟨account, haccount, hemail, hinsert⟩ := createWorkspaceTx_ok htx
    exact .inr ⟨name, subdomain, website, account, r.1, r.2, haccount, hemail, hinsert, rfl⟩

/-! ### The owner's settings -/

/-- The body of `updateTenant`; an absent field is left alone. An empty branding value
stands for `null` too. -/
structure TenantData where
  name : Option String := none
  brandingLogoUrl : Option String := none
  brandingPrimaryColor : Option String := none
  subdomain : Option String := none
  isActive : Option Bool := none
  requireAuthToPost : Option Bool := none
  deriving DecidableEq

/-- The row after the `UPDATE`, with the new subdomain when it changes. -/
def TenantData.apply (d : TenantData) (subdomain : Option String) (t : Tenant) : Tenant :=
  { t with
    name := d.name.getD t.name
    subdomain := subdomain.getD t.subdomain
    slug := subdomain.getD t.slug
    brandingLogoUrl := (d.brandingLogoUrl.map fun v => orNull (some v)).getD t.brandingLogoUrl
    brandingPrimaryColor :=
      (d.brandingPrimaryColor.map fun v => orNull (some v)).getD t.brandingPrimaryColor
    requireAuthToPost := d.requireAuthToPost.getD t.requireAuthToPost
    isActive := d.isActive.getD t.isActive }

theorem TenantData.id_apply (d : TenantData) (subdomain : Option String) (t : Tenant) :
    (d.apply subdomain t).id = t.id := rfl

/-- The subdomain to write, once it has been validated; `none` when it stays. -/
def newSubdomain (id : Nat) (sub : String) : Handler (Option String) := do
  match ← query fun db => db.tenants.byId id with
  | none => reject 404 "tenant_not_found"
  | some current =>
    if sub = current.subdomain then pure none
    else if isSubdomain sub = false then reject 400 "invalid_subdomain"
    else do
      let taken ← query fun db => db.tenants.rows.any fun t =>
        (t.subdomain == sub || t.slug == sub) && t.id != id
      if taken then reject 409 "subdomain_taken" else pure (some sub)

def changedSubdomain (id : Nat) (subdomain : Option String) : Handler (Option String) :=
  match subdomain with
  | none => pure none
  | some raw => newSubdomain id (toLowerCase (trim raw))

theorem reads_newSubdomain (id : Nat) (sub : String) : Prog.Reads (newSubdomain id sub) := by
  refine .bind (reads_query _) fun current => ?_
  split
  · exact reads_reject _ _
  · refine .ite (.pure _) (.ite (reads_reject _ _) (.bind (reads_query _) fun taken => ?_))
    exact .ite (reads_reject _ _) (.pure _)

theorem reads_changedSubdomain (id : Nat) (subdomain : Option String) :
    Prog.Reads (changedSubdomain id subdomain) := by
  cases subdomain with
  | none => exact .pure _
  | some raw => exact reads_newSubdomain id _

/-- `UPDATE tenants SET … WHERE id = ?`. -/
def setTenant (id : Nat) (f : Tenant → Tenant) (hid : ∀ t, (f t).id = t.id) : Db → Option Db :=
  fun db => (db.tenants.update? (fun t => t.id == id) f hid).map fun tenants =>
    { db with tenants := tenants }

/-- Turning the sign-in requirement on needs the plan's capability, turning it off
does not. -/
def mayRequireSignIn (id : Nat) (requireAuthToPost : Option Bool) : Handler Bool :=
  if requireAuthToPost = some true then planAllows id .restrictAnonymousPosting else pure true

def updateTenant (id : Nat) (data : TenantData) : Handler (Reply Unit) := do
  let sub ← changedSubdomain id data.subdomain
  let allowed ← mayRequireSignIn id data.requireAuthToPost
  if allowed = false then reject 402 "plan_limit_require_signin"
  else if sub = none ∧ { data with subdomain := none } = {} then
    resolve 200 "tenant_updated_successfully" ()
  else do
    tryCatch (keyed (setTenant id (data.apply sub) (data.id_apply sub))) fun
      | .duplicate => reject 409 "subdomain_taken"
      | _ => reject 500 "failed_to_update_tenant"
    resolve 200 "tenant_updated_successfully" ()

/-- `updateTenant` is rejected, has nothing to do, or is one `UPDATE`. -/
theorem updateTenant_cases (id : Nat) (data : TenantData) (w : World) :
    ((updateTenant id data).exec w).2 = w ∨
      ∃ sub T, w.db.tenants.update? (fun t => t.id == id) (data.apply sub) = some T ∧
        ((updateTenant id data).exec w).2 = { w with db := { w.db with tenants := T } } := by
  unfold updateTenant
  rcases (reads_changedSubdomain id data.subdomain).exec_bind _ w with ⟨e, h⟩ | ⟨sub, h⟩
  · exact .inl (congrArg Prod.snd h)
  rw [h]
  have hallowed : Prog.Reads (mayRequireSignIn id data.requireAuthToPost) :=
    .ite (reads_query _) (.pure _)
  rcases hallowed.exec_bind _ w with ⟨e, h⟩ | ⟨allowed, h⟩
  · exact .inl (congrArg Prod.snd h)
  rw [h]
  split
  · exact .inl rfl
  split
  · exact .inl rfl
  rw [Prog.exec_bind, Prog.exec_tryCatch, keyed, Prog.exec_attempt]
  dsimp only [setTenant]
  cases hT : w.db.tenants.update? (fun t => t.id == id) (data.apply sub) with
  | none => exact .inl rfl
  | some T => exact .inr ⟨sub, T, hT, rfl⟩

/-! ### The platform admin's settings -/

/-- The body of `updateWorkspace`. -/
structure WorkspaceChange where
  name : Option String := none
  isActive : Option Bool := none
  deriving DecidableEq

/-- The row after the `UPDATE`. -/
def WorkspaceChange.apply (d : WorkspaceChange) (t : Tenant) : Tenant :=
  { t with name := (d.name.map trim).getD t.name, isActive := d.isActive.getD t.isActive }

/-- `updateWorkspace` of the admin area. -/
def updateWorkspace (id : Nat) (data : WorkspaceChange) : Handler (Reply Unit) :=
  if data = {} then reject 400 "nothing_to_update"
  else do
    let found ← Prog.atomic fun w =>
      (.ok (w.db.tenants.byId id).isSome,
        { w with
          db := { w.db with
            tenants := w.db.tenants.update (fun t => t.id == id) data.apply } })
    if found then resolve 200 "workspace_updated" () else reject 404 "tenant_not_found"

theorem updateWorkspace_cases (id : Nat) (data : WorkspaceChange) (w : World) :
    ((updateWorkspace id data).exec w).2 = w ∨
      ((updateWorkspace id data).exec w).2 =
        { w with
          db := { w.db with
            tenants := w.db.tenants.update (fun t => t.id == id) data.apply } } := by
  unfold updateWorkspace
  split
  · exact .inl rfl
  · rw [Prog.exec_bind, Prog.exec_atomic]
    dsimp only
    split
    · exact .inr rfl
    · exact .inr rfl

end Feedbase
