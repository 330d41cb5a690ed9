import Feedbase.Billing.Mirror
import Feedbase.Users.InvitationSteps
import Feedbase.Users.Ownership

/-!
# Creating a workspace, statement by statement

`createWorkspace` counts the account's workspaces in two statements before its transaction,
whose reads see one snapshot and whose writes are one action with the `COMMIT`. What the
writes do is said in terms of an account's memberships.

## Main definitions

* `memberships` — the active workspaces an account owns, or has joined
* `createWorkspaceSteps`

## Main results

* `exec_createWorkspaceSteps` — without a concurrent call it is `createWorkspace`
* `memberships_insertWorkspace`, `mem_users_of_own`
-/

namespace Feedbase

open Sql

variable {email : String} {w w' : World} {db db' : Db}

/-! ### Memberships -/

/-- A user's workspace is active. -/
def inActiveTenant (db : Db) (tenantId : Option Nat) : Bool :=
  db.tenants.rows.any fun t => tenantId == some t.id && t.isActive

/-- The active memberships of the account, as an owner or not. -/
def User.isMembership (db : Db) (email : String) (owner : Bool) (u : User) : Bool :=
  u.email == email && u.isActive && inActiveTenant db u.tenantId && (u.role == .owner) == owner

/-- How many active workspaces the account owns, or has joined. -/
def memberships (db : Db) (email : String) (owner : Bool) : Nat :=
  db.users.rows.countP (User.isMembership db email owner)

theorem length_ownedRows (db : Db) (email : String) :
    ((activeMemberships db email).filter fun u => u.role = .owner).length =
      memberships db email true := by
  rw [activeMemberships, List.filter_filter, ← List.countP_eq_length_filter, memberships]
  refine List.countP_congr fun u _ => ?_
  simp [User.isMembership, inActiveTenant, and_comm]

theorem length_joinedRows (db : Db) (email : String) :
    (activeMemberships db email).length -
      ((activeMemberships db email).filter fun u => u.role = .owner).length =
        memberships db email false := by
  have hsplit := List.length_eq_countP_add_countP (fun u : User => decide (u.role = .owner))
    (l := activeMemberships db email)
  rw [← List.countP_eq_length_filter, hsplit, Nat.add_sub_cancel_left, activeMemberships,
    List.countP_filter, memberships]
  refine List.countP_congr fun u _ => ?_
  simp [User.isMembership, inActiveTenant, and_comm]

theorem ownedCount_eq (db : Db) (email tier : String) :
    (workspaceUsage (activeMemberships db email) tier).ownedCount = memberships db email true :=
  length_ownedRows db email

theorem memberCount_eq (db : Db) (email tier : String) :
    (workspaceUsage (activeMemberships db email) tier).memberCount = memberships db email false :=
  length_joinedRows db email

theorem canCreate_eq (db : Db) (email tier : String) :
    (workspaceUsage (activeMemberships db email) tier).canCreate =
      (getPlanLimits tier).ownWorkspaces.all (memberships db email true < ·) := by
  rw [← length_ownedRows]
  rfl

theorem canJoin_eq (db : Db) (email tier : String) :
    (workspaceUsage (activeMemberships db email) tier).canJoin =
      (getPlanLimits tier).joinWorkspaces.all (memberships db email false < ·) := by
  rw [← length_joinedRows]
  rfl

/-! ### The statements -/

/-- The tenants whose plan columns the transaction writes. -/
def ownedLocks (db : Db) (email : String) : List RowLock :=
  (db.tenants.rows.filter fun t => t.isActive && ownsTenant db email t.id).map fun t =>
    .tenant t.id

/-- The writes of the transaction with its `COMMIT`, or the rollback after a duplicate key.
The account's row is the one its snapshot has shown. -/
def commitWorkspace (name subdomain : String) (website : Option String) (account : User) :
    Handler NewWorkspace :=
  Prog.step (fun w => w.free (ownedLocks w.db account.email)) fun w =>
    match insertWorkspace name subdomain website account w.db with
    | some (r, db) => (.ok r, { w with db := db })
    | none => (.error (.rejected 409 "subdomain_taken"), w)

/-- The transaction of `createWorkspace`: the two reads see one snapshot. -/
def openWorkspace (name subdomain : String) (website : Option String) (userId : Nat) :
    Handler (Reply NewWorkspace) := do
  let (taken, account) ← query fun db =>
    (db.tenants.rows.any fun t => t.subdomain == subdomain || t.slug == subdomain,
      db.users.byId userId)
  if taken then reject 409 "subdomain_taken"
  else
    match account with
    | none => reject 400 "user_not_found"
    | some account =>
      -- `ensureAccount` throws without an email, and the transaction rolls back
      if account.email = "" then reject 500 "failed_to_create_tenant"
      else do
        let created ← commitWorkspace name subdomain website account
        resolve 201 "workspace_created_successfully" created

/-- `createWorkspace`. -/
def createWorkspaceSteps (data : WorkspaceData) (auth : AuthData) :
    Handler (Reply NewWorkspace) := do
  let name := trim data.name
  let subdomain := toLowerCase (trim data.subdomain)
  let website := orNull (some (trim data.website))
  if name = "" then reject 400 "workspace_name_required"
  else if isSubdomain subdomain = false then reject 400 "invalid_subdomain"
  else do
    let usage ← getAccountWorkspaceUsage auth.email
    if usage.canCreate = false then reject 402 "plan_limit_workspaces_own"
    else openWorkspace name subdomain website auth.id

/-- Without a concurrent call the statements are the one action `createWorkspace` has for its
transaction. -/
theorem exec_createWorkspaceSteps (data : WorkspaceData) (auth : AuthData) :
    (createWorkspaceSteps data auth).exec w = (createWorkspace data auth).exec w := by
  unfold createWorkspaceSteps createWorkspace
  dsimp only
  split
  · rfl
  split
  · rfl
  rw [Prog.exec_bind, Prog.exec_bind, exec_getAccountWorkspaceUsage]
  dsimp only
  split
  · rfl
  rw [openWorkspace, exec_query_bind, Prog.exec_bind, exec_transaction, createWorkspaceTx]
  dsimp only
  split
  · rfl
  cases w.db.users.byId auth.id with
  | none => rfl
  | some account =>
    dsimp only
    split
    · rfl
    rw [Prog.exec_bind, commitWorkspace, Prog.exec_step]
    cases insertWorkspace (trim data.name) (toLowerCase (trim data.subdomain))
      (orNull (some (trim data.website))) account w.db with
    | none => rfl
    | some r => rfl

/-! ### What the writes do to the memberships -/

/-- Users, workspaces and tiers are the same. -/
structure SameCaps (w w' : World) : Prop where
  users : w'.db.users = w.db.users
  tenants : w'.db.tenants = w.db.tenants
  tier : ∀ email, accountTier w'.db email = accountTier w.db email

theorem SameCaps.refl (w : World) : SameCaps w w := ⟨rfl, rfl, fun _ => rfl⟩

theorem memberships_congr (husers : db'.users = db.users) (htenants : db'.tenants = db.tenants)
    (email : String) (owner : Bool) :
    memberships db' email owner = memberships db email owner := by
  unfold memberships User.isMembership inActiveTenant
  rw [husers, htenants]

/-- A new member joins one workspace, and owns none. -/
theorem memberships_joinWorkspace {inv : Invitation} {fullName : String}
    {passwordHash avatarUrl : Option String} (email : String) (owner : Bool)
    (h : joinWorkspace inv fullName passwordHash avatarUrl db = some db') :
    memberships db' email owner ≤
      memberships db email owner + if inv.email = email ∧ owner = false then 1 else 0 := by
  obtain ⟨users, hins, rfl⟩ := Option.map_eq_some_iff.mp h
  change users.rows.countP (User.isMembership db email owner) ≤ _
  rw [Table.insert?_rows hins, List.countP_append, memberships]
  refine Nat.add_le_add_left ?_ _
  by_cases hmine : inv.email = email ∧ owner = false
  · rw [if_pos hmine]
    exact List.countP_le_length
  · rw [if_neg hmine, Nat.le_zero, List.countP_eq_zero]
    intro u hu hmember
    rw [List.mem_singleton.mp hu] at hmember
    simp [User.isMembership] at hmember
    exact hmine ⟨hmember.1.1, hmember.2.symm.trans rfl⟩

theorem accountTier_eq_columns (db : Db) (email : String) :
    accountTier db email = if email = "" then "free" else
      (orNull (some (accountColumns db email).planName)).getD "free" := by
  unfold accountTier accountColumns
  cases accountRow db email with
  | none => rfl
  | some a => rfl

section NewWorkspace

variable {name subdomain : String} {website : Option String} {account : User} {r : NewWorkspace}

/-- Only the new workspace becomes active. -/
theorem inActiveTenant_insertWorkspace {tenantId : Option Nat}
    (h : insertWorkspace name subdomain website account db = some (r, db'))
    (hold : tenantId ≠ some db.tenants.next) :
    inActiveTenant db' tenantId = inActiveTenant db tenantId := by
  obtain ⟨T, U, C, hT, -, rfl⟩ := insertWorkspace_spec h
  refine Bool.eq_iff_iff.mpr ?_
  simp only [inActiveTenant, List.any_eq_true, Bool.and_eq_true, beq_iff_eq]
  constructor
  · rintro ⟨t, ht, rfl, hactive⟩
    obtain ⟨s, hs, rfl⟩ := mem_tenants_mirror.mp ht
    rw [apply_ite Tenant.isActive, Tenant.setPlan_isActive, ite_self] at hactive
    rw [apply_ite Tenant.id, Tenant.setPlan_id, ite_self] at hold ⊢
    rcases (hT s).mp hs with hs | rfl
    · exact ⟨s, hs, rfl, hactive⟩
    · exact absurd rfl hold
  · rintro ⟨t, ht, rfl, hactive⟩
    refine ⟨_, mem_tenants_mirror.mpr ⟨t, (hT t).mpr (.inl ht), rfl⟩, ?_, ?_⟩
    · rw [apply_ite Tenant.id, Tenant.setPlan_id, ite_self]
    · rwa [apply_ite Tenant.isActive, Tenant.setPlan_isActive, ite_self]

theorem users_insertWorkspace
    (h : insertWorkspace name subdomain website account db = some (r, db')) :
    claimOwner db.users account db.tenants.next = some (r.ownerUserId, db'.users) ∧
      r.tenantId = db.tenants.next := by
  unfold insertWorkspace at h
  obtain ⟨T, hT, h⟩ := Option.bind_eq_some_iff.mp h
  obtain ⟨⟨i, U⟩, hU, h⟩ := Option.bind_eq_some_iff.mp h
  obtain ⟨C, hC, h⟩ := Option.bind_eq_some_iff.mp h
  cases h
  exact ⟨hU, rfl⟩

theorem tier_insertWorkspace
    (h : insertWorkspace name subdomain website account db = some (r, db')) (email : String) :
    accountTier db' email = accountTier db email := by
  obtain ⟨T, U, C, -, -, rfl⟩ := insertWorkspace_spec h
  have hcolumns := accountColumns_insertIgnoreAccount { db with tenants := T, users := U }
    account.email email
  rw [accountTier_eq_columns, accountTier_eq_columns]
  exact congrArg (fun c : PlanColumns => if email = "" then "free" else
    (orNull (some c.planName)).getD "free") hcolumns

/-- The rows after a workspace has got its owner: the ones with the account's id become the
owner, or there is a new row. -/
theorem rows_claimOwner {users U : Table User} {n i : Nat}
    (h : claimOwner users account n = some (i, U)) :
    (U.rows = users.rows.map fun u =>
        if u.id == account.id then { u with tenantId := some n, role := .owner } else u) ∨
      ∃ row : User, row.email = account.email ∧ row.OwnerOf n ∧ U.rows = users.rows ++ [row] := by
  unfold claimOwner at h
  split at h
  · obtain ⟨T, hT, heq⟩ := Option.map_eq_some_iff.mp h
    cases heq
    exact .inl (Table.update?_rows hT)
  · obtain ⟨T, hT, heq⟩ := Option.map_eq_some_iff.mp h
    cases heq
    refine .inr ⟨_, ?_, ?_, Table.insert?_rows hT⟩
    · rfl
    · exact ⟨rfl, rfl⟩

/-- A new workspace is owned by the account it is created for, and joined by nobody. -/
theorem memberships_insertWorkspace (email : String) (owner : Bool)
    (hrefer : UsersReferTenants db)
    (hrow : ∃ u ∈ db.users, u.id = account.id ∧ u.email = account.email)
    (h : insertWorkspace name subdomain website account db = some (r, db')) :
    memberships db' email owner ≤
      memberships db email owner + if account.email = email ∧ owner = true then 1 else 0 := by
  obtain ⟨v, hv, hid, hemail⟩ := hrow
  have hsame : ∀ u ∈ db.users, User.isMembership db' email owner u =
      User.isMembership db email owner u := by
    intro u hu
    unfold User.isMembership
    rw [inActiveTenant_insertWorkspace h fun htenant => ?_]
    obtain ⟨t, ht, hid⟩ := hrefer u hu _ htenant
    exact Nat.ne_of_lt (db.tenants.id_lt t ht) hid
  unfold memberships
  rcases rows_claimOwner (users_insertWorkspace h).1 with hrows | ⟨row, hrow, howner, hrows⟩
  · rw [hrows, List.countP_map]
    by_cases hcounted : User.isMembership db' email owner
        { v with tenantId := some db.tenants.next, role := .owner } = true
    · -- the claimed row counts, so it is the account's and counts as an owner's
      have hmine : account.email = email ∧ owner = true := by
        simp only [User.isMembership, Bool.and_eq_true, beq_iff_eq] at hcounted
        exact ⟨hemail.symm.trans hcounted.1.1.1, hcounted.2.symm.trans rfl⟩
      rw [if_pos hmine, Table.countP_eq_add_one hv (by
        rw [Function.comp_apply, if_pos (beq_iff_eq.mpr hid)]
        exact hcounted)]
      refine Nat.add_le_add_right (List.countP_mono_left fun u hu hu' => ?_) 1
      rw [Bool.and_eq_true, bne_iff_ne] at hu'
      have hne : u.id ≠ account.id := fun heq => hu'.2 (heq.trans hid.symm)
      rw [Function.comp_apply, if_neg (by simpa using hne)] at hu'
      rw [← hsame u hu]
      exact hu'.1
    · refine (List.countP_mono_left fun u hu hu' => ?_).trans (Nat.le_add_right _ _)
      by_cases huid : u.id = account.id
      · obtain rfl : u = v := Table.eq_of_id hu hv (huid.trans hid.symm)
        rw [Function.comp_apply, if_pos (beq_iff_eq.mpr huid)] at hu'
        exact absurd hu' hcounted
      · rw [Function.comp_apply, if_neg (by simpa using huid)] at hu'
        rw [← hsame u hu]
        exact hu'
  · -- a new row is added for the account, and it is an owner's
    rw [hrows, List.countP_append, List.countP_congr fun u hu => by rw [hsame u hu]]
    refine Nat.add_le_add_left ?_ _
    by_cases hmine : account.email = email ∧ owner = true
    · rw [if_pos hmine]
      exact List.countP_le_length
    · rw [if_neg hmine, Nat.le_zero, List.countP_eq_zero]
      intro u hu hcounted
      rw [List.mem_singleton.mp hu] at hcounted
      simp only [User.isMembership, Bool.and_eq_true, beq_iff_eq] at hcounted
      rw [howner.2] at hcounted
      exact hmine ⟨hrow.symm.trans hcounted.1.1.1, hcounted.2.symm.trans rfl⟩

/-- A row is an old one, or of the new workspace. -/
theorem tenantId_claimOwner {users U : Table User} {n i : Nat}
    (h : claimOwner users account n = some (i, U)) {u : User} (hu : u ∈ U) :
    u ∈ users ∨ u.tenantId = some n := by
  rw [Table.mem_def] at hu ⊢
  rcases rows_claimOwner h with hrows | ⟨row, -, howner, hrows⟩
  · rw [hrows] at hu
    obtain ⟨v, hv, rfl⟩ := List.mem_map.mp hu
    split
    · exact .inr rfl
    · exact .inl hv
  · rw [hrows] at hu
    rcases List.mem_append.mp hu with hu | hu
    · exact .inl hu
    · rw [List.mem_singleton.mp hu]
      exact .inr howner.1

/-- No workspace goes away. -/
theorem tenants_insertWorkspace
    (h : insertWorkspace name subdomain website account db = some (r, db')) {n : Nat}
    (hn : n = db.tenants.next ∨ ∃ t ∈ db.tenants, t.id = n) : ∃ t ∈ db'.tenants, t.id = n := by
  obtain ⟨T, U, C, hT, -, rfl⟩ := insertWorkspace_spec h
  have hold : ∃ t ∈ T, t.id = n := by
    rcases hn with rfl | ⟨t, ht, hid⟩
    · exact ⟨_, (hT _).mpr (.inr rfl), rfl⟩
    · exact ⟨t, (hT t).mpr (.inl ht), hid⟩
  obtain ⟨t, ht, hid⟩ := hold
  refine ⟨_, mem_tenants_mirror.mpr ⟨t, ht, rfl⟩, ?_⟩
  rw [apply_ite Tenant.id, Tenant.setPlan_id, ite_self, hid]

/-- The snapshot of the account may be an old one. -/
theorem refer_insertWorkspace_stale (hrefer : UsersReferTenants db)
    (h : insertWorkspace name subdomain website account db = some (r, db')) :
    UsersReferTenants db' := by
  intro u hu n hn
  rcases tenantId_claimOwner (users_insertWorkspace h).1 hu with hu | hnew
  · exact tenants_insertWorkspace h (.inr (hrefer u hu n hn))
  · exact tenants_insertWorkspace h (.inl (Option.some.inj (hn.symm.trans hnew)))

/-- The workspace of another account leaves the rows of this one as they are. -/
theorem mem_users_of_other
    (h : insertWorkspace name subdomain website account db = some (r, db'))
    (hother : account.email ≠ email)
    (hrow : ∃ u ∈ db.users, u.id = account.id ∧ u.email = account.email) {u : User}
    (hu : u ∈ db.users) (hemail : u.email = email) : u ∈ db'.users := by
  obtain ⟨v, hv, hid, hvemail⟩ := hrow
  have hne : u.id ≠ account.id := fun heq => by
    obtain rfl : u = v := Table.eq_of_id hu hv (heq.trans hid.symm)
    exact hother (hvemail.symm.trans hemail)
  rw [Table.mem_def]
  rcases rows_claimOwner (users_insertWorkspace h).1 with hrows | ⟨row, -, -, hrows⟩
  · rw [hrows]
    exact List.mem_map.mpr ⟨u, hu, by rw [if_neg (by simpa using hne)]⟩
  · rw [hrows]
    exact List.mem_append_left _ hu

/-- With the account's row as its snapshot has shown it, the new workspace has an owner row
of the account, and no row leaves a workspace. -/
theorem mem_users_of_own (hrefer : UsersReferTenants db) (haccount : account ∈ db.users)
    (h : insertWorkspace name subdomain website account db = some (r, db')) :
    (∃ o ∈ db'.users, o.email = account.email ∧ o.OwnerOf r.tenantId) ∧
      ∀ u ∈ db.users, u.tenantId ≠ none → u ∈ db'.users := by
  obtain ⟨hclaim, hid⟩ := users_insertWorkspace h
  obtain ⟨o, howner, hmem⟩ := claimOwner_spec haccount hclaim
  have ho : o ∈ db'.users := (hmem o).mpr (.inr rfl)
  rw [hid]
  refine ⟨⟨o, ho, ?_, howner⟩, fun u hu htenant => (hmem u).mpr (.inl ⟨hu, ?_⟩)⟩
  · rcases mem_claimOwner haccount hclaim ho with hold | ⟨-, hemail⟩
    · obtain ⟨t, ht, hid⟩ := hrefer o hold _ howner.1
      exact absurd hid (Nat.ne_of_lt (db.tenants.id_lt t ht))
    · exact hemail
  · rintro rfl
    exact htenant

end NewWorkspace

end Feedbase
