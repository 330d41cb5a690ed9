import Feedbase.Common.AccountDeletion
import Feedbase.Common.Cache
import Feedbase.Lib.Points
import Feedbase.Users.Workspaces

/-!
# The cached portal record

Every request of the public portal looks up the workspace of its subdomain, and the record is
kept in the cache of the process. Changing the workspace's settings drops the record; renaming a
workspace drops it under the old and the new subdomain. The administrator's changes and a change
of the plan drop nothing.

Statements on the database are counted, and a record carries the number of the statement that has
read it. No handler looks at these numbers: they say which records are older than a change.

## Main definitions

* `PortalRow`, `Loaded`, `PublicTenant` — the record as it is read, cached and shown
* `Portal`, `onWorld` — the database and the cache of one process
* `resolvePublicTenant`, `invalidateTenantCache`, `updateTenantCached`
* `PortalRequest`, `portalSystem`

## Main results

* `updateTenantCached_world` — to the database it is `updateTenant`
-/

namespace Feedbase

/-! ### The record -/

/-- The columns that `resolvePublicTenant` selects. -/
structure PortalRow where
  id : Nat
  name : String
  slug : String
  subdomain : String
  brandingLogoUrl : Option String
  brandingPrimaryColor : Option String
  planName : String
  requireAuthToPost : Bool
  deriving DecidableEq

def Tenant.portalRow (t : Tenant) : PortalRow where
  id := t.id
  name := t.name
  slug := t.slug
  subdomain := t.subdomain
  brandingLogoUrl := t.brandingLogoUrl
  brandingPrimaryColor := t.brandingPrimaryColor
  planName := t.planName
  requireAuthToPost := t.requireAuthToPost

/-- `SELECT … FROM tenants WHERE is_active = 1 AND subdomain = ? LIMIT 1`. -/
def Db.portalRow (db : Db) (subdomain : String) : Option PortalRow :=
  (db.tenants.rows.find? fun t => t.isActive && t.subdomain == subdomain).map Tenant.portalRow

/-- A record and the number of the statement that has read it. -/
structure Loaded where
  row : PortalRow
  readAt : Nat
  deriving DecidableEq

/-- What the portal is told; `readAt` stands for nothing that it is told. -/
structure PublicTenant where
  id : Nat
  name : String
  slug : String
  subdomain : String
  brandingLogoUrl : Option String
  brandingPrimaryColor : Option String
  attachmentsEnabled : Bool
  ownerBadgeEnabled : Bool
  ownerPrivacyEnabled : Bool
  requireSigninToPost : Bool
  readAt : Nat
  deriving DecidableEq

def publicTenant (l : Loaded) : PublicTenant :=
  let limits := getPlanLimits l.row.planName
  { id := l.row.id
    name := l.row.name
    slug := l.row.slug
    subdomain := l.row.subdomain
    brandingLogoUrl := l.row.brandingLogoUrl
    brandingPrimaryColor := l.row.brandingPrimaryColor
    attachmentsEnabled := limits.attachments
    ownerBadgeEnabled := limits.ownerBadge
    ownerPrivacyEnabled := limits.ownerPrivacy
    requireSigninToPost := l.row.requireAuthToPost && limits.restrictAnonymousPosting
    readAt := l.readAt }

/-! ### The process -/

/-- The database, the cache of the process, the time in milliseconds, and the number of
statements so far. -/
structure Portal where
  world : World
  cache : Cache.Store Loaded := .empty
  millis : Nat := 0
  statements : Nat := 0

namespace Portal

/-- After a statement on the database. -/
def after (s : Portal) (w : World) : Portal :=
  { s with world := w, statements := s.statements + 1 }

/-- After a look-up in the cache. -/
def looked (s : Portal) (key : Text) : Portal :=
  { s with cache := (Cache.get s.millis key s.cache).2 }

end Portal

/-- What is asked of the environment: the size of the cache, and how long a record is kept. -/
structure CacheConfig where
  maxEntries : JsNum
  ttlTenant : JsNum

namespace Portal

/-- After a record has been kept. -/
def kept (s : Portal) (cfg : CacheConfig) (key : Text) (l : Loaded) : Portal :=
  { s with cache := Cache.set cfg.maxEntries s.millis key (some l) cfg.ttlTenant s.cache }

/-- After keys have been dropped. -/
def dropped (s : Portal) (keys : List Text) : Portal :=
  { s with cache := keys.foldl (fun store key => Cache.invalidate key store) s.cache }

end Portal

abbrev PortalProg (α : Type) := Prog Portal Failure α

/-- A handler that does not know of the cache. -/
def onWorld {α : Type} (p : Handler α) : PortalProg α := p.zoom Portal.world Portal.after

/-- `tenant:${value}`. -/
def portalKey (value : String) : Text := Text.ofString ("tenant:" ++ value)

/-- `(identifier || "").trim().toLowerCase()`. -/
def portalName (identifier : Option String) : String := toLowerCase (trim (identifier.getD ""))

def cacheGet (key : Text) : PortalProg (Option Loaded) :=
  Prog.atomic fun s => (.ok (Cache.get s.millis key s.cache).1, s.looked key)

def cacheSet (cfg : CacheConfig) (key : Text) (l : Loaded) : PortalProg Unit :=
  Prog.write fun s => s.kept cfg key l

/-- The loader. -/
def selectPortalRow (value : String) : PortalProg (Option Loaded) :=
  Prog.atomic fun s =>
    if s.world.fails .tenantsSelect then (.error .error, s.after s.world)
    else (.ok ((s.world.db.portalRow value).map fun row => ⟨row, s.statements + 1⟩),
      s.after s.world)

def answerTenant : Option Loaded → PortalProg (Reply PublicTenant)
  | none => throw (.rejected 404 "tenant_not_found")
  | some l => return ⟨200, "tenant_retrieved_successfully", publicTenant l⟩

def tenantFailure : Failure → PortalProg (Reply PublicTenant)
  | .rejected code key => throw (.rejected code key)
  | _ => throw (.rejected 500 "failed_to_get_tenant")

def resolvePublicTenant (cfg : CacheConfig) (identifier : Option String) :
    PortalProg (Reply PublicTenant) :=
  let value := portalName identifier
  if value = "" then throw (.rejected 400 "tenant_not_found")
  else
    tryCatch (do
      let rows ← Cache.wrap (cacheGet (portalKey value)) (cacheSet cfg (portalKey value))
        (selectPortalRow value)
      answerTenant rows) tenantFailure

/-- The keys that are dropped for subdomains; an empty one is passed over. -/
def invalidatedKeys (subdomains : List String) : List Text :=
  (subdomains.filter (· ≠ "")).map fun sub => portalKey (toLowerCase (trim sub))

def invalidateTenantCache (subdomains : List String) : PortalProg Unit :=
  Prog.write fun s => s.dropped (invalidatedKeys subdomains)

/-! ### The owner's settings, with the cache -/

/-- The subdomains that a change of the subdomain touches, and the one to write. -/
def touchSubdomain (id : Nat) (sub : String) : Handler (List String × Option String) := do
  match ← query fun db => db.tenants.byId id with
  | none => reject 404 "tenant_not_found"
  | some current =>
    if sub = current.subdomain then pure ([current.subdomain, sub], none)
    else if isSubdomain sub = false then reject 400 "invalid_subdomain"
    else do
      let taken ← query fun db => db.tenants.rows.any fun t =>
        (t.subdomain == sub || t.slug == sub) && t.id != id
      if taken then reject 409 "subdomain_taken" else pure ([current.subdomain, sub], some sub)

def touchedSubdomains (id : Nat) : Option String → Handler (List String × Option String)
  | none => pure ([], none)
  | some raw => touchSubdomain id (toLowerCase (trim raw))

/-- The subdomain is looked up where none was touched. -/
def lookUpTouched (id : Nat) (touched : List String) : Handler (List String) :=
  if touched = [] then query fun db => ((db.tenants.byId id).map Tenant.subdomain).toList
  else pure touched

def updateFailure : Failure → PortalProg (Reply Unit)
  | .duplicate => throw (.rejected 409 "subdomain_taken")
  | _ => throw (.rejected 500 "failed_to_update_tenant")

def updateTenantCached (id : Nat) (data : TenantData) : PortalProg (Reply Unit) := do
  let (touched, sub) ← onWorld (touchedSubdomains id data.subdomain)
  let allowed ← onWorld (mayRequireSignIn id data.requireAuthToPost)
  if allowed = false then throw (.rejected 402 "plan_limit_require_signin")
  else if sub = none ∧ { data with subdomain := none } = {} then
    return ⟨200, "tenant_updated_successfully", ()⟩
  else
    tryCatch (do
      onWorld (keyed (setTenant id (data.apply sub) (data.id_apply sub)))
      let touched ← onWorld (lookUpTouched id touched)
      invalidateTenantCache touched
      return ⟨200, "tenant_updated_successfully", ()⟩) updateFailure

/-! ### The system -/

inductive PortalRequest where
  | resolvePublicTenant (identifier : Option String)
  | updateTenant (id : Nat) (data : TenantData)
  | updateWorkspace (id : Nat) (data : WorkspaceChange)
  | deleteWorkspace (id : Nat)
  | setAccountPlan (email : String) (fields : AccountFields)

/-- A call that goes on after its last statement without a look at the cache. -/
def thenResumes {α : Type} (p : Handler α) : PortalProg (Option PublicTenant) := do
  let _ ← onWorld p
  Prog.read fun _ => none

def portalHandler (cfg : CacheConfig) : PortalRequest → PortalProg (Option PublicTenant)
  | .resolvePublicTenant identifier => do
    let reply ← resolvePublicTenant cfg identifier
    return some reply.result
  | .updateTenant id data => do
    let _ ← updateTenantCached id data
    return none
  | .updateWorkspace id data => thenResumes (updateWorkspace id data)
  | .deleteWorkspace id => thenResumes (deleteWorkspace id)
  | .setAccountPlan email fields => thenResumes (setAccountPlan email fields)

/-- The clock goes on, and other requests do to the database what they like. -/
structure PortalEnv where
  millis : Nat
  world : World → World

def portalSystem (cfg : CacheConfig) :
    System Portal Failure (Option PublicTenant) PortalRequest PortalEnv where
  handler := portalHandler cfg
  env e s := { s with millis := s.millis + e.millis, world := e.world s.world }

abbrev PortalPool := Pool Portal Failure (Option PublicTenant) PortalRequest

/-! ### To the database -/

/-- On the world a handler does what it does without the cache, and it leaves the cache alone. -/
theorem exec_onWorld {α : Type} (p : Handler α) (s : Portal) :
    ∃ n, (onWorld p).exec s =
      ((p.exec s.world).1, { s with world := (p.exec s.world).2, statements := n }) := by
  unfold onWorld
  induction p generalizing s with
  | ret a => exact ⟨s.statements, rfl⟩
  | fail e => exact ⟨s.statements, rfl⟩
  | act ready next cont ih => exact ih s.world (s.after (next s.world))

theorem newSubdomain_eq (id : Nat) (sub : String) :
    newSubdomain id sub = touchSubdomain id sub >>= fun r => pure r.2 := by
  unfold newSubdomain touchSubdomain
  rw [bind_assoc]
  congr 1
  funext current
  cases current with
  | none => rfl
  | some t =>
    dsimp only
    by_cases hsame : sub = t.subdomain
    · rw [if_pos hsame, if_pos hsame]
      rfl
    rw [if_neg hsame, if_neg hsame]
    by_cases hvalid : isSubdomain sub = false
    · rw [if_pos hvalid, if_pos hvalid]
      rfl
    rw [if_neg hvalid, if_neg hvalid, bind_assoc]
    congr 1
    funext taken
    cases taken with
    | true => rfl
    | false => rfl

theorem changedSubdomain_eq (id : Nat) (subdomain : Option String) :
    changedSubdomain id subdomain = touchedSubdomains id subdomain >>= fun r => pure r.2 := by
  cases subdomain with
  | none => rfl
  | some raw => exact newSubdomain_eq id _

/-- To the database it is `updateTenant`. -/
theorem updateTenantCached_world (id : Nat) (data : TenantData) (s : Portal) :
    ((updateTenantCached id data).exec s).2.world = ((updateTenant id data).exec s.world).2 := by
  unfold updateTenantCached updateTenant
  rw [changedSubdomain_eq, bind_assoc, Prog.exec_bind, Prog.exec_bind]
  -- the two run the same statements, and only the cache and the count of statements differ
  obtain ⟨n, htouched⟩ := exec_onWorld (touchedSubdomains id data.subdomain) s
  rw [htouched]
  rcases (touchedSubdomains id data.subdomain).exec s.world with ⟨e | ⟨touched, sub⟩, w⟩
  · rfl
  dsimp only
  rw [pure_bind, Prog.exec_bind, Prog.exec_bind]
  obtain ⟨m, hallowed⟩ := exec_onWorld (mayRequireSignIn id data.requireAuthToPost)
    { s with world := w, statements := n }
  rw [hallowed]
  rcases (mayRequireSignIn id data.requireAuthToPost).exec w with ⟨e | allowed, w'⟩
  · rfl
  dsimp only
  by_cases hrefused : allowed = false
  · rw [if_pos hrefused, if_pos hrefused]
    rfl
  rw [if_neg hrefused, if_neg hrefused]
  by_cases hnothing : sub = none ∧ { data with subdomain := none } = {}
  · rw [if_pos hnothing, if_pos hnothing]
    rfl
  rw [if_neg hnothing, if_neg hnothing, Prog.exec_tryCatch, Prog.exec_bind, Prog.exec_bind,
    Prog.exec_tryCatch]
  obtain ⟨k, hkeyed⟩ := exec_onWorld (keyed (setTenant id (data.apply sub) fun _ => rfl))
    { s with world := w', statements := m }
  rw [hkeyed, exec_keyed]
  cases setTenant id (data.apply sub) (fun _ => rfl) w'.db with
  | none => rfl
  | some db =>
    dsimp only
    rw [Prog.exec_bind]
    by_cases hempty : touched = []
    · rw [lookUpTouched, if_pos hempty]
      rfl
    · rw [lookUpTouched, if_neg hempty]
      rfl

end Feedbase
