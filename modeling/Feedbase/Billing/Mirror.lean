import Feedbase.Users.Members
import Mathlib.Logic.Relation

/-!
# The plan mirror

Every active workspace of an active owner is to carry the plan columns of the owner's
account. `setAccountPlan` and `createWorkspace` run the mirror, which skips inactive
workspaces; re-activating a workspace, or making someone its owner, does not run it.

## Main definitions

* `Mirrored` — no active workspace differs from its owner's account
* `MirrorOp`, `MirrorOp.run` — the operations that touch workspaces, owners or accounts
* `MirrorOp.Keeps` — what an operation may assume of the state before it

## Main results

* `mirrored_run` — an operation that meets its condition keeps the mirror
* `mirrored_of_reachable`
* `reactivated_workspace_keeps_old_plan`
-/

namespace Feedbase

variable {db db' : Db} {w w' : World} {email : String} {t : Tenant} {u : User}

/-- The user row is an active owner of the workspace. -/
structure Owns (u : User) (t : Tenant) : Prop where
  tenant : u.tenantId = some t.id
  role : u.role = .owner
  active : u.isActive = true

instance (u : User) (t : Tenant) : Decidable (Owns u t) :=
  decidable_of_iff (u.tenantId = some t.id ∧ u.role = .owner ∧ u.isActive = true)
    ⟨fun h => ⟨h.1, h.2.1, h.2.2⟩, fun h => ⟨h.tenant, h.role, h.active⟩⟩

/-- The plan columns of an account's row; free and `NULL` when there is none. -/
def accountColumns (db : Db) (email : String) : PlanColumns :=
  ((accountRow db email).map BillingAccount.toPlanColumns).getD {}

/-- The tenant carries the columns of each of its active owners' accounts. -/
def InLine (db : Db) (t : Tenant) : Prop :=
  ∀ u ∈ db.users, Owns u t → t.toPlanColumns = accountColumns db u.email

instance (db : Db) (t : Tenant) : Decidable (InLine db t) :=
  inferInstanceAs (Decidable (∀ u ∈ db.users, _ → _))

def Mirrored (db : Db) : Prop := ∀ t ∈ db.tenants, t.isActive → InLine db t

instance (db : Db) : Decidable (Mirrored db) :=
  inferInstanceAs (Decidable (∀ t ∈ db.tenants, t.isActive → InLine db t))

/-- `fk_users_tenant`. -/
def UsersReferTenants (db : Db) : Prop :=
  ∀ u ∈ db.users, ∀ n ∈ u.tenantId, ∃ t ∈ db.tenants, t.id = n

instance (db : Db) : Decidable (UsersReferTenants db) :=
  inferInstanceAs (Decidable (∀ u ∈ db.users, _))

/-! ### The columns of an account -/

theorem accountColumns_eq (h : email ≠ "") :
    accountColumns db email = (accountOf db email).toPlanColumns := by
  rw [accountOf_of_ne h, accountColumns]
  cases accountRow db email <;> rfl

/-- No column holds the empty string, which the mirror would replace. -/
def PlanColumns.NoEmpty (c : PlanColumns) : Prop :=
  c.planName ≠ "" ∧ c.subscriptionStatus ≠ some "" ∧ c.pendingPlan ≠ some ""

instance (c : PlanColumns) : Decidable c.NoEmpty :=
  inferInstanceAs (Decidable (_ ∧ _ ∧ _))

theorem orNull_eq_self {v : Option String} (h : v ≠ some "") : orNull v = v := by
  cases v with
  | none => rfl
  | some s => exact orNull_eq_some_iff.mpr ⟨rfl, fun hs => h (congrArg some hs)⟩

theorem PlanColumns.NoEmpty.mirrored_eq {c : PlanColumns} (h : c.NoEmpty) : c.mirrored = c := by
  obtain ⟨hplan, hstatus, hpending⟩ := h
  have hname : orNull (some c.planName) = some c.planName := orNull_eq_self (by simpa using hplan)
  simp only [mirrored, hname, orNull_eq_self hstatus, orNull_eq_self hpending, Option.getD_some]

/-! ### Writing one table -/

/-- Rows of `tenants` are rewritten without touching a plan column. -/
theorem mirrored_of_tenants {f : Tenant → Tenant}
    (hcolumns : ∀ t, (f t).toPlanColumns = t.toPlanColumns) (hid : ∀ t, (f t).id = t.id)
    (hmirrored : Mirrored db) {id : Nat} {T : Sql.Table Tenant}
    (hT : ∀ t, t ∈ T ↔ ∃ s ∈ db.tenants, t = if s.id == id then f s else s)
    (hactive : ∀ t ∈ db.tenants, t.id = id → (f t).isActive → t.isActive = false → InLine db t) :
    Mirrored { db with tenants := T } := by
  intro t ht hact u hu howns
  obtain ⟨s, hs, rfl⟩ := (hT t).mp ht
  by_cases hsid : s.id = id
  · rw [if_pos (beq_iff_eq.mpr hsid)] at hact howns ⊢
    have hinLine : InLine db s := by
      cases hold : s.isActive with
      | true => exact hmirrored s hs hold
      | false => exact hactive s hs hsid hact hold
    rw [hcolumns]
    exact hinLine u hu ⟨howns.tenant.trans (congrArg some (hid s)), howns.role, howns.active⟩
  · rw [if_neg (by simpa using hsid)] at hact howns ⊢
    exact hmirrored s hs hact u hu howns

/-- Rows of `users` are rewritten without touching the workspace or the email. -/
theorem mirrored_of_users {p : User → Bool} {f : User → User} {hf : Sql.Table.Keyless f}
    (hemail : ∀ u, (f u).email = u.email) (hmirrored : Mirrored db)
    (howner : ∀ u ∈ db.users, p u = true → ∀ t ∈ db.tenants, t.isActive → Owns (f u) t →
      ¬ Owns u t → t.toPlanColumns = accountColumns db u.email) :
    Mirrored { db with users := db.users.update p f hf } := by
  intro t ht hact u hu howns
  simp only [Sql.Table.mem_update] at hu
  obtain ⟨v, hv, rfl⟩ := hu
  split at howns
  · rename_i hp
    rw [if_pos hp, hemail]
    by_cases hold : Owns v t
    · exact hmirrored t ht hact v hv hold
    · exact howner v hv hp t ht hact howns hold
  · rename_i hp
    rw [if_neg hp]
    exact hmirrored t ht hact v hv howns

/-- After the mirror the account's own workspaces carry its columns, the others are as
before. -/
theorem mirrored_mirror
    (howned : ∀ t ∈ db.tenants, t.isActive → ownsTenant db email t.id = true →
      ∀ u ∈ db.users, Owns u t →
        (accountOf db email).toPlanColumns.mirrored = accountColumns db u.email)
    (hother : ∀ t ∈ db.tenants, t.isActive → ownsTenant db email t.id = false → InLine db t) :
    Mirrored (mirrorAccountToTenants db email) := by
  intro t ht hact u hu howns
  obtain ⟨s, hs, rfl⟩ := mem_tenants_mirror.mp ht
  split at howns
  · rename_i hown
    obtain ⟨hsact, hown⟩ := Bool.and_eq_true_iff.mp hown
    rw [if_pos (Bool.and_eq_true_iff.mpr ⟨hsact, hown⟩)]
    exact howned s hs hsact hown u hu ⟨howns.tenant, howns.role, howns.active⟩
  · rename_i hown
    rw [if_neg hown] at hact ⊢
    refine hother s hs hact ?_ u hu howns
    simpa [hact] using hown

/-! ### Writing the account -/

/-- The condition of a write to the account: an active workspace it owns has no owner
with different columns, and none of the new columns is empty. -/
def KeepsPlan (db : Db) (email : String) (fields : AccountFields) : Prop :=
  ∀ t ∈ db.tenants, t.isActive → ownsTenant db email t.id = true →
    (fields.apply (ensuredAccount db email)).NoEmpty ∧
      ∀ u ∈ db.users, Owns u t → u.email ≠ email →
        accountColumns db u.email = (fields.apply (ensuredAccount db email)).toPlanColumns

theorem ownsTenant_of_owns (hu : u ∈ db.users) (h : Owns u t) :
    ownsTenant db u.email t.id = true :=
  ownsTenant_iff.mpr ⟨u, hu, h.tenant, h.role, h.active, rfl⟩

theorem mirrored_setAccountPlanTx {f : AccountFields} (hne : email ≠ "") (hmirrored : Mirrored db)
    (hkeeps : KeepsPlan db email f) (h : setAccountPlanTx email f db = some db') :
    Mirrored db' := by
  have hrow := accountRow_setAccountPlanTx h
  have hothers : ∀ e, e ≠ email → accountColumns db' e = accountColumns db e := by
    intro e he
    simp only [accountColumns, accountRow_setAccountPlanTx_of_ne he h]
  have hcolumns : accountColumns db' email = (f.apply (ensuredAccount db email)).toPlanColumns := by
    rw [accountColumns, hrow]
    rfl
  obtain ⟨accounts, rfl⟩ := setAccountPlanTx_eq_mirror h
  have hacct : (accountOf { db with billingAccounts := accounts } email).toPlanColumns =
      (f.apply (ensuredAccount db email)).toPlanColumns := (accountColumns_eq hne).symm.trans hcolumns
  refine mirrored_mirror (fun t ht hact hown u hu howns => ?_) fun t ht hact hown u hu howns => ?_
  · obtain ⟨hempty, hsame⟩ := hkeeps t ht hact hown
    rw [hacct, hempty.mirrored_eq]
    by_cases hemail : u.email = email
    · rw [hemail]
      exact hcolumns.symm
    · exact ((hothers _ hemail).trans (hsame u hu howns hemail)).symm
  · have hemail : u.email ≠ email := by
      rintro rfl
      have hown' : ownsTenant { db with billingAccounts := accounts } u.email t.id = true :=
        ownsTenant_of_owns hu howns
      rw [hown] at hown'
      cases hown'
    exact (hmirrored t ht hact u hu howns).trans (hothers _ hemail).symm

/-! ### Creating a workspace -/

/-- A missing row counts as free, so creating it changes no account's columns. -/
theorem accountColumns_insertIgnoreAccount (db : Db) (email e : String) :
    accountColumns (insertIgnoreAccount db email) e = accountColumns db e := by
  rw [accountColumns, accountRow_insertIgnoreAccount]
  split
  · rename_i he
    rw [he, accountColumns, ensuredAccount]
    cases accountRow db email <;> rfl
  · rfl

theorem mirrored_insertWorkspace {name subdomain : String} {website : Option String}
    {account : User} {r : NewWorkspace} (hrefer : UsersReferTenants db) (hmirrored : Mirrored db)
    (haccount : account ∈ db.users) (hne : account.email ≠ "")
    (hkeeps : (accountColumns db account.email).NoEmpty)
    (h : insertWorkspace name subdomain website account db = some (r, db')) : Mirrored db' := by
  obtain ⟨T, U, C, hT, hU, rfl⟩ := insertWorkspace_spec h
  change Mirrored (mirrorAccountToTenants
    (insertIgnoreAccount { db with tenants := T, users := U } account.email) account.email)
  have hcolumns : ∀ e, accountColumns (insertIgnoreAccount
      { db with tenants := T, users := U } account.email) e = accountColumns db e :=
    accountColumns_insertIgnoreAccount { db with tenants := T, users := U } account.email
  have hacct : (accountOf (insertIgnoreAccount { db with tenants := T, users := U } account.email)
      account.email).toPlanColumns.mirrored = accountColumns db account.email := by
    rw [← accountColumns_eq hne, hcolumns, hkeeps.mirrored_eq]
  -- the owners of an old workspace are as before, the new one has the account alone
  have hold : ∀ t ∈ db.tenants, ∀ u ∈ U, Owns u t → u ∈ db.users := by
    intro t ht u hu howns
    rcases mem_claimOwner haccount hU hu with hu | ⟨hnew, -⟩
    · exact hu
    · have hid : t.id = db.tenants.next := Option.some.inj (howns.tenant.symm.trans hnew)
      exact absurd hid (Nat.ne_of_lt (db.tenants.id_lt t ht))
  have hnew : ∀ u ∈ U, u.tenantId = some db.tenants.next → u.email = account.email := by
    intro u hu htenant
    rcases mem_claimOwner haccount hU hu with hu | ⟨-, hemail⟩
    · obtain ⟨t, ht, hid⟩ := hrefer u hu _ htenant
      exact absurd hid (Nat.ne_of_lt (db.tenants.id_lt t ht))
    · exact hemail
  -- the mirror writes the workspaces the account owns, and the others keep what they had
  refine mirrored_mirror (fun t ht hact hown u hu howns => ?_) fun t ht hact hown u hu howns => ?_
  · rw [hacct, hcolumns]
    rcases (hT t).mp ht with ht | rfl
    · obtain ⟨v, hv, hvt, hvr, hva, hvemail⟩ := ownsTenant_iff.mp hown
      have hvowns : Owns v t := ⟨hvt, hvr, hva⟩
      rw [← hvemail, ← hmirrored t ht hact v (hold t ht v hv hvowns) hvowns]
      exact hmirrored t ht hact u (hold t ht u hu howns) howns
    · rw [hnew u hu howns.tenant]
  · rw [hcolumns]
    rcases (hT t).mp ht with ht | rfl
    · exact hmirrored t ht hact u (hold t ht u hu howns) howns
    · have hemail := hnew u hu howns.tenant
      have hown' : ownsTenant _ u.email _ = true := ownsTenant_of_owns hu howns
      rw [hemail, hown] at hown'
      cases hown'

/-! ### The foreign key of a user -/

theorem refer_of_tenants {T : Sql.Table Tenant} (h : UsersReferTenants db)
    (hT : ∀ t ∈ db.tenants, ∃ s ∈ T, s.id = t.id) :
    UsersReferTenants { db with tenants := T } := by
  intro u hu n hn
  obtain ⟨t, ht, rfl⟩ := h u hu n hn
  exact hT t ht

theorem refer_of_users {p : User → Bool} {f : User → User} {hf : Sql.Table.Keyless f}
    (htenant : ∀ u, (f u).tenantId = u.tenantId) (h : UsersReferTenants db) :
    UsersReferTenants { db with users := db.users.update p f hf } := by
  intro u hu n hn
  simp only [Sql.Table.mem_update] at hu
  obtain ⟨v, hv, rfl⟩ := hu
  refine h v hv n ?_
  split at hn
  · rwa [htenant] at hn
  · exact hn

theorem refer_mirror (db : Db) (h : UsersReferTenants db) :
    UsersReferTenants (mirrorAccountToTenants db email) := by
  refine refer_of_tenants h fun t ht => ?_
  refine ⟨_, mem_tenants_mirror.mpr ⟨t, ht, rfl⟩, ?_⟩
  split <;> rfl

theorem refer_insertWorkspace {name subdomain : String} {website : Option String}
    {account : User} {r : NewWorkspace} (hrefer : UsersReferTenants db)
    (haccount : account ∈ db.users)
    (h : insertWorkspace name subdomain website account db = some (r, db')) :
    UsersReferTenants db' := by
  obtain ⟨T, U, C, hT, hU, rfl⟩ := insertWorkspace_spec h
  refine refer_mirror (insertIgnoreAccount { db with tenants := T, users := U } account.email)
    fun u hu n hn => ?_
  rcases mem_claimOwner haccount hU hu with hu | ⟨hnew, -⟩
  · obtain ⟨t, ht, hid⟩ := hrefer u hu n hn
    exact ⟨t, (hT t).mpr (.inl ht), hid⟩
  · exact ⟨_, (hT _).mpr (.inr rfl), Option.some.inj (hnew.symm.trans hn)⟩

/-! ### Runs -/

/-- The operations that touch which workspaces are active, who owns them, or an
account's plan. -/
inductive MirrorOp where
  | setAccountPlan (email : String) (fields : AccountFields)
  | resetAccountToFree (email : String) (status : Option String)
  | createWorkspace (data : WorkspaceData) (auth : AuthData)
  | updateTenant (id : Nat) (data : TenantData)
  | updateWorkspace (id : Nat) (data : WorkspaceChange)
  | updateUser (id : Nat) (data : UserChange)
  | updateUserRole (userId : PathId) (role : String) (auth : AuthData)

/-- The world after the operation has run to completion. -/
def MirrorOp.run (w : World) : MirrorOp → World
  | .setAccountPlan email fields => ((Feedbase.setAccountPlan email fields).exec w).2
  | .resetAccountToFree email status => ((Feedbase.resetAccountToFree email status).exec w).2
  | .createWorkspace data auth => ((Feedbase.createWorkspace data auth).exec w).2
  | .updateTenant id data => ((Feedbase.updateTenant id data).exec w).2
  | .updateWorkspace id data => ((Feedbase.updateWorkspace id data).exec w).2
  | .updateUser id data => ((Feedbase.updateUser id data).exec w).2
  | .updateUserRole userId role auth => ((Feedbase.updateUserRole userId role auth).exec w).2

/-- A row that `f` turns into an active owner of an active workspace joins it with the
columns the workspace already has. -/
def KeepsOwner (db : Db) (id : Nat) (f : User → User) : Prop :=
  ∀ u ∈ db.users, u.id = id → ∀ t ∈ db.tenants, t.isActive → Owns (f u) t →
    t.toPlanColumns = accountColumns db u.email

/-- A workspace that is switched on already agrees with its owners' accounts. -/
def KeepsActive (db : Db) (id : Nat) (isActive : Option Bool) : Prop :=
  isActive = some true → ∀ t ∈ db.tenants, t.id = id → InLine db t

/-- What the operation may assume of the state before it. -/
def MirrorOp.Keeps (db : Db) : MirrorOp → Prop
  | .setAccountPlan email fields => KeepsPlan db email fields
  | .resetAccountToFree email status => KeepsPlan db email (resetFields status)
  | .createWorkspace _ auth =>
    ∀ account ∈ db.users.byId auth.id, (accountColumns db account.email).NoEmpty
  | .updateTenant id data => KeepsActive db id data.isActive
  | .updateWorkspace id data => KeepsActive db id data.isActive
  | .updateUser id data => KeepsOwner db id data.apply
  | .updateUserRole userId role _ =>
    ∀ newRole ∈ tenantRole? role, ∀ id ∈ userId.number,
      KeepsOwner db id fun u => { u with role := newRole }

theorem mirrored_setAccountPlan {f : AccountFields} (hrefer : UsersReferTenants w.db)
    (hmirrored : Mirrored w.db) (hkeeps : KeepsPlan w.db email f) :
    UsersReferTenants ((setAccountPlan email f).exec w).2.db ∧
      Mirrored ((setAccountPlan email f).exec w).2.db := by
  rcases hr : (setAccountPlan email f).exec w with ⟨e | _, w'⟩
  · rw [exec_setAccountPlan_error hr]
    exact ⟨hrefer, hmirrored⟩
  · obtain ⟨hne, -, db', htx, rfl⟩ := exec_setAccountPlan_ok_iff.mp hr
    refine ⟨?_, mirrored_setAccountPlanTx hne hmirrored hkeeps htx⟩
    obtain ⟨accounts, rfl⟩ := setAccountPlanTx_eq_mirror htx
    exact refer_mirror { w.db with billingAccounts := accounts } hrefer

/-- One workspace is rewritten, its plan columns apart. -/
theorem mirrored_setActive {f : Tenant → Tenant} {id : Nat} {isActive : Option Bool}
    (hcolumns : ∀ t, (f t).toPlanColumns = t.toPlanColumns) (hid : ∀ t, (f t).id = t.id)
    (hf : ∀ t, (f t).isActive = isActive.getD t.isActive) (hrefer : UsersReferTenants db)
    (hmirrored : Mirrored db) (hkeeps : KeepsActive db id isActive) {T : Sql.Table Tenant}
    (hT : ∀ t, t ∈ T ↔ ∃ s ∈ db.tenants, t = if s.id == id then f s else s) :
    UsersReferTenants { db with tenants := T } ∧ Mirrored { db with tenants := T } := by
  constructor
  · refine refer_of_tenants hrefer fun t ht => ⟨_, (hT _).mpr ⟨t, ht, rfl⟩, ?_⟩
    split
    · exact hid t
    · rfl
  · refine mirrored_of_tenants hcolumns hid hmirrored hT fun t ht htid hact hold => ?_
    refine hkeeps ?_ t ht htid
    rw [hf, hold] at hact
    cases isActive with
    | none => cases hact
    | some b => exact congrArg some hact

/-- An operation that meets its condition keeps the mirror. -/
theorem mirrored_run {op : MirrorOp} (hrefer : UsersReferTenants w.db) (hmirrored : Mirrored w.db)
    (hkeeps : op.Keeps w.db) : UsersReferTenants (op.run w).db ∧ Mirrored (op.run w).db := by
  cases op with
  | setAccountPlan email fields => exact mirrored_setAccountPlan hrefer hmirrored hkeeps
  | resetAccountToFree email status => exact mirrored_setAccountPlan hrefer hmirrored hkeeps
  | createWorkspace data auth =>
    simp only [MirrorOp.run]
    rcases createWorkspace_cases data auth w with
      h | ⟨name, subdomain, website, account, r, db', hbyId, hne, hinsert, h⟩
    · rw [h]
      exact ⟨hrefer, hmirrored⟩
    · rw [h]
      have haccount : account ∈ w.db.users := (Sql.Table.byId_eq_some_iff.mp hbyId).1
      exact ⟨refer_insertWorkspace hrefer haccount hinsert,
        mirrored_insertWorkspace hrefer hmirrored haccount hne (hkeeps account hbyId) hinsert⟩
  | updateTenant id data =>
    simp only [MirrorOp.run]
    rcases updateTenant_cases id data w with h | ⟨sub, T, hT, h⟩
    · rw [h]
      exact ⟨hrefer, hmirrored⟩
    · rw [h]
      exact mirrored_setActive (f := data.apply sub) (fun _ => rfl) (fun _ => rfl) (fun _ => rfl)
        hrefer hmirrored hkeeps fun _ => Sql.Table.mem_update? hT
  | updateWorkspace id data =>
    simp only [MirrorOp.run]
    rcases updateWorkspace_cases id data w with h | h
    · rw [h]
      exact ⟨hrefer, hmirrored⟩
    · rw [h]
      refine mirrored_setActive (f := data.apply) (fun _ => rfl) (fun _ => rfl) (fun _ => rfl)
        hrefer hmirrored hkeeps fun t => ?_
      simp only [Sql.Table.mem_update]
  | updateUser id data =>
    simp only [MirrorOp.run]
    rcases updateUser_cases id data w with h | h
    · rw [h]
      exact ⟨hrefer, hmirrored⟩
    · rw [h]
      refine ⟨refer_of_users (fun _ => rfl) hrefer, ?_⟩
      refine mirrored_of_users (fun _ => rfl) hmirrored fun u hu hp t ht hact howns _ => ?_
      exact hkeeps u hu (beq_iff_eq.mp hp) t ht hact howns
  | updateUserRole userId role auth =>
    simp only [MirrorOp.run]
    rcases updateUserRole_cases userId role auth w with h | ⟨newRole, hrole, -, -, h⟩
    · rw [h]
      exact ⟨hrefer, hmirrored⟩
    · rw [h]
      refine ⟨refer_of_users (fun _ => rfl) hrefer, ?_⟩
      refine mirrored_of_users (fun _ => rfl) hmirrored fun u hu hp t ht hact howns _ => ?_
      have hnumber : userId.number = some u.id := beq_iff_eq.mp (Bool.and_eq_true_iff.mp hp).1
      exact hkeeps newRole hrole u.id hnumber u hu rfl t ht hact howns

/-- One operation, whatever statement of it fails; if it changes anything, its condition
is met. -/
inductive MirrorStep (w : World) : World → Prop where
  | run (op : MirrorOp) (fails : Site → Bool)
    (keeps : (op.run { w with fails := fails }).db ≠ w.db → op.Keeps w.db) :
    MirrorStep w (op.run { w with fails := fails })

/-- The mirror holds in every state reached by operations that meet their conditions. -/
theorem mirrored_of_reachable (hrefer : UsersReferTenants w.db) (hmirrored : Mirrored w.db)
    (hrun : Relation.ReflTransGen MirrorStep w w') : Mirrored w'.db := by
  have hboth : UsersReferTenants w'.db ∧ Mirrored w'.db := by
    induction hrun with
    | refl => exact ⟨hrefer, hmirrored⟩
    | @tail u v _ hstep ih =>
      cases hstep with
      | run op fails keeps =>
        by_cases hsame : (op.run { u with fails := fails }).db = u.db
        · rw [hsame]
          exact ih
        · exact mirrored_run (w := { u with fails := fails }) ih.1 ih.2 (keeps hsame)
  exact hboth.2

/-! ### Off and on again -/

/-- Ada has signed up. -/
def adaSignedUp : World :=
  ((registerNewUser { fullName := "Ada", email := "ada@example.com", password := "$2b$10$" }).exec
    {}).2

def adaNewcomer : AuthData :=
  { id := 1, tenantId := none, role := .user, email := "ada@example.com" }

def createAcme : MirrorOp := .createWorkspace { name := "Acme", subdomain := "acme" } adaNewcomer

def upgradeToPro : MirrorOp :=
  .setAccountPlan "ada@example.com"
    { planName := some (some "pro"), subscriptionStatus := some (some "active") }

/-- The plan changes while the workspace is off, and switching it on runs no mirror. -/
theorem reactivated_workspace_keeps_old_plan :
    UsersReferTenants adaSignedUp.db ∧ Mirrored adaSignedUp.db ∧
      ¬ Mirrored ([createAcme, .updateTenant 1 { isActive := some false }, upgradeToPro,
        .updateTenant 1 { isActive := some true }].foldl MirrorOp.run adaSignedUp).db := by
  decide

/-- With the workspace on all along the upgrade reaches it. -/
theorem mirrored_of_reachable_upgrade :
    Mirrored (upgradeToPro.run (createAcme.run adaSignedUp)).db := by
  have hcreate : createAcme.Keeps adaSignedUp.db := by
    simp only [createAcme, MirrorOp.Keeps]
    decide
  have hupgrade : upgradeToPro.Keeps (createAcme.run adaSignedUp).db := by
    simp only [upgradeToPro, MirrorOp.Keeps, KeepsPlan]
    decide
  refine mirrored_of_reachable (w := adaSignedUp) (by decide) (by decide) ?_
  exact .tail (.single (.run createAcme adaSignedUp.fails fun _ => hcreate))
    (.run upgradeToPro (createAcme.run adaSignedUp).fails fun _ => hupgrade)

end Feedbase
