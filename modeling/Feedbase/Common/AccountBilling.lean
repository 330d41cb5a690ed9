import Feedbase.Server

/-!
# Account-level billing

`billing_accounts`, keyed by email, is the source of truth; the account's plan is
mirrored onto every active workspace the account owns. `setAccountPlan` is one
transaction, so it is one action of a handler: it writes the given columns of the
account and runs the mirror, or does nothing and throws.

## Main definitions

* `accountOf`, `getAccount` — the row of an email, or the free default
* `mirrorAccountToTenants`
* `AccountFields`, `setAccountPlan`, `resetAccountToFree`

## Main results

* `accountOf_setAccountPlanTx` — what `setAccountPlan` leaves in the account
* `accountOf_setAccountPlanTx_of_ne` — every other account is untouched
* `mem_tenants_setAccountPlanTx` — the tenants after the mirror
-/

namespace Feedbase

open Sql

variable {db db' : Db} {email : String}

/-! ### The account row -/

/-- `SELECT * FROM billing_accounts WHERE email = ?`. -/
def accountRow (db : Db) (email : String) : Option BillingAccount :=
  db.billingAccounts.rows.find? (·.email == email)

/-- What `getAccount` synthesizes for an email without a row. -/
def freeAccount (email : String) : BillingAccount := { id := 0, email := email }

/-- `getAccount`. -/
def accountOf (db : Db) (email : String) : BillingAccount :=
  if email = "" then freeAccount "" else (accountRow db email).getD (freeAccount email)

def getAccount (email : String) : Handler BillingAccount := query fun db => accountOf db email

theorem accountRow_eq_some_iff {a : BillingAccount} :
    accountRow db email = some a ↔ a ∈ db.billingAccounts ∧ a.email = email := by
  constructor
  · intro h
    exact ⟨List.mem_of_find?_eq_some h, by simpa using List.find?_some h⟩
  · rintro ⟨ha, rfl⟩
    cases hb : accountRow db a.email with
    | none => simpa using List.find?_eq_none.mp hb a ha
    | some b =>
      have hemail : b.email = a.email := by simpa using List.find?_some hb
      have hclash : Row.clash b a = true := by simpa [Row.clash] using hemail
      rw [Table.eq_of_clash (List.mem_of_find?_eq_some hb) ha hclash]

theorem accountRow_eq_none_iff :
    accountRow db email = none ↔ ∀ a ∈ db.billingAccounts, a.email ≠ email := by
  simp [accountRow, Table.mem_def]

@[simp] theorem accountOf_empty : accountOf db "" = freeAccount "" := by simp [accountOf]

theorem accountOf_of_ne (h : email ≠ "") :
    accountOf db email = (accountRow db email).getD (freeAccount email) := by
  simp [accountOf, h]

@[simp] theorem accountOf_email : (accountOf db email).email = email := by
  unfold accountOf
  split
  · rename_i h
    rw [h]
    rfl
  · cases ha : accountRow db email with
    | none => rfl
    | some a => exact (accountRow_eq_some_iff.mp ha).2

theorem accountOf_mem {a : BillingAccount} (ha : a ∈ db.billingAccounts) (h : a.email ≠ "") :
    accountOf db a.email = a := by
  rw [accountOf_of_ne h, accountRow_eq_some_iff.mpr ⟨ha, rfl⟩]
  rfl

/-- `INSERT IGNORE INTO billing_accounts (email, plan_name) VALUES (?, 'free')`. -/
def insertIgnoreAccount (db : Db) (email : String) : Db :=
  { db with
    billingAccounts :=
      (db.billingAccounts.insert? fun id => { id := id, email := email }).getD
        db.billingAccounts }

/-! ### The mirror -/

/-- The parameters the mirror writes. -/
def PlanColumns.mirrored (c : PlanColumns) : PlanColumns :=
  { c with
    planName := (orNull (some c.planName)).getD "free"
    subscriptionStatus := orNull c.subscriptionStatus
    pendingPlan := orNull c.pendingPlan }

/-- The account is an active owner of the tenant. -/
def ownsTenant (db : Db) (email : String) (tenantId : Nat) : Bool :=
  db.users.rows.any fun u =>
    u.tenantId == some tenantId && u.role == .owner && u.isActive && u.email == email

theorem ownsTenant_iff {tenantId : Nat} :
    ownsTenant db email tenantId = true ↔
      ∃ u ∈ db.users, u.tenantId = some tenantId ∧ u.role = .owner ∧ u.isActive ∧
        u.email = email := by
  simp [ownsTenant, Table.mem_def, and_assoc]

/-- Write the plan columns; the legacy Stripe ids are cleared. -/
def Tenant.setPlan (t : Tenant) (c : PlanColumns) : Tenant :=
  { t with toPlanColumns := c, stripeCustomerId := none, stripeSubscriptionId := none }

@[simp] theorem Tenant.setPlan_toPlanColumns (t : Tenant) (c : PlanColumns) :
    (t.setPlan c).toPlanColumns = c := rfl

@[simp] theorem Tenant.setPlan_id (t : Tenant) (c : PlanColumns) : (t.setPlan c).id = t.id := rfl

@[simp] theorem Tenant.setPlan_isActive (t : Tenant) (c : PlanColumns) :
    (t.setPlan c).isActive = t.isActive := rfl

/-- The `UPDATE` of every active tenant the account owns. -/
def mirrorAccountToTenants (db : Db) (email : String) : Db :=
  { db with
    tenants := db.tenants.update (fun t => t.isActive && ownsTenant db email t.id)
      fun t => t.setPlan (accountOf db email).mirrored }

theorem mem_tenants_mirror {t : Tenant} :
    t ∈ (mirrorAccountToTenants db email).tenants ↔
      ∃ s ∈ db.tenants, t = if s.isActive && ownsTenant db email s.id then
        s.setPlan (accountOf db email).mirrored else s := by
  simp only [mirrorAccountToTenants, Table.mem_update]

/-! ### setAccountPlan -/

/-- The `fields` argument: a column is absent, or present with a value or `NULL`. -/
structure AccountFields where
  planName : Option (Option String) := none
  stripeCustomerId : Option (Option String) := none
  stripeSubscriptionId : Option (Option String) := none
  paddleCustomerId : Option (Option String) := none
  paddleSubscriptionId : Option (Option String) := none
  subscriptionStatus : Option (Option String) := none
  billingInterval : Option (Option Interval) := none
  currentPeriodEnd : Option (Option Time) := none
  pendingPlan : Option (Option String) := none
  pendingInterval : Option (Option Interval) := none
  pendingEffectiveAt : Option (Option Time) := none
  deriving DecidableEq

/-- The row after `UPDATE billing_accounts SET …`; an absent column stays. -/
def AccountFields.apply (f : AccountFields) (a : BillingAccount) : BillingAccount :=
  { a with
    planName := f.planName.join.getD a.planName
    stripeCustomerId := f.stripeCustomerId.getD a.stripeCustomerId
    stripeSubscriptionId := f.stripeSubscriptionId.getD a.stripeSubscriptionId
    paddleCustomerId := f.paddleCustomerId.getD a.paddleCustomerId
    paddleSubscriptionId := f.paddleSubscriptionId.getD a.paddleSubscriptionId
    subscriptionStatus := f.subscriptionStatus.getD a.subscriptionStatus
    billingInterval := f.billingInterval.getD a.billingInterval
    currentPeriodEnd := f.currentPeriodEnd.getD a.currentPeriodEnd
    pendingPlan := f.pendingPlan.getD a.pendingPlan
    pendingInterval := f.pendingInterval.getD a.pendingInterval
    pendingEffectiveAt := f.pendingEffectiveAt.getD a.pendingEffectiveAt }

@[simp] theorem AccountFields.apply_email (f : AccountFields) (a : BillingAccount) :
    (f.apply a).email = a.email := rfl

/-- The row `INSERT IGNORE` leaves for the email. -/
def ensuredAccount (db : Db) (email : String) : BillingAccount :=
  (accountRow db email).getD { freeAccount email with id := db.billingAccounts.next }

@[simp] theorem ensuredAccount_email : (ensuredAccount db email).email = email := by
  unfold ensuredAccount
  cases ha : accountRow db email with
  | none => rfl
  | some a => exact (accountRow_eq_some_iff.mp ha).2

theorem mem_insertIgnoreAccount {a : BillingAccount} :
    a ∈ (insertIgnoreAccount db email).billingAccounts ↔
      a ∈ db.billingAccounts ∨ (a = ensuredAccount db email) := by
  unfold insertIgnoreAccount ensuredAccount
  cases hins : db.billingAccounts.insert? fun id => ({ id := id, email := email } : BillingAccount) with
  | none =>
    obtain ⟨b, hb, hclash⟩ := Table.insert?_eq_none_iff.mp hins
    have hemail : b.email = email := by simpa [Row.clash] using hclash
    rw [accountRow_eq_some_iff.mpr ⟨hb, hemail⟩]
    constructor
    · exact Or.inl
    · rintro (ha | rfl)
      · exact ha
      · exact hb
  | some T =>
    have hnone : accountRow db email = none := by
      refine accountRow_eq_none_iff.mpr fun b hb hemail => ?_
      have hclash : Row.clash b ({ id := db.billingAccounts.next, email := email } : BillingAccount)
          = true := by simpa [Row.clash] using hemail
      rw [Table.insert?_eq_none_iff.mpr ⟨b, hb, hclash⟩] at hins
      cases hins
    rw [hnone]
    exact Table.mem_insert? hins

theorem accountRow_insertIgnoreAccount (db : Db) (email e : String) :
    accountRow (insertIgnoreAccount db email) e =
      if e = email then some (ensuredAccount db email) else accountRow db e := by
  refine Option.ext fun a => ?_
  rw [accountRow_eq_some_iff, mem_insertIgnoreAccount]
  by_cases he : e = email
  · subst he
    rw [if_pos rfl, Option.some.injEq]
    constructor
    · rintro ⟨ha | rfl, hemail⟩
      · rw [ensuredAccount, accountRow_eq_some_iff.mpr ⟨ha, hemail⟩]
        rfl
      · rfl
    · rintro rfl
      exact ⟨.inr rfl, ensuredAccount_email⟩
  · rw [if_neg he, accountRow_eq_some_iff]
    constructor
    · rintro ⟨ha | rfl, hemail⟩
      · exact ⟨ha, hemail⟩
      · exact absurd (hemail.symm.trans ensuredAccount_email) he
    · rintro ⟨ha, hemail⟩
      exact ⟨.inl ha, hemail⟩

/-- The transaction of `setAccountPlan`; `plan_name` is `NOT NULL`. -/
def setAccountPlanTx (email : String) (fields : AccountFields) (db : Db) : Option Db :=
  if fields.planName = some none then none
  else
    let db₁ := insertIgnoreAccount db email
    let db₂ := { db₁ with
      billingAccounts := db₁.billingAccounts.update (·.email == email) fields.apply }
    some (mirrorAccountToTenants db₂ email)

theorem mem_billingAccounts_setAccountPlanTx {f : AccountFields} {a : BillingAccount}
    (h : setAccountPlanTx email f db = some db') :
    a ∈ db'.billingAccounts ↔ (a ∈ db.billingAccounts ∧ a.email ≠ email) ∨
      a = f.apply (ensuredAccount db email) := by
  unfold setAccountPlanTx at h
  split at h
  · cases h
  · cases h
    simp only [mirrorAccountToTenants, Table.mem_update, mem_insertIgnoreAccount, beq_iff_eq]
    constructor
    · rintro ⟨b, hb | rfl, rfl⟩
      · split
        · rename_i hemail
          rw [ensuredAccount, accountRow_eq_some_iff.mpr ⟨hb, hemail⟩]
          exact Or.inr rfl
        · exact Or.inl ⟨hb, ‹_›⟩
      · rw [if_pos ensuredAccount_email]
        exact Or.inr rfl
    · rintro (⟨ha, hne⟩ | rfl)
      · exact ⟨a, Or.inl ha, by rw [if_neg hne]⟩
      · exact ⟨_, Or.inr rfl, by rw [if_pos ensuredAccount_email]⟩

theorem accountRow_setAccountPlanTx {f : AccountFields}
    (h : setAccountPlanTx email f db = some db') :
    accountRow db' email = some (f.apply (ensuredAccount db email)) :=
  accountRow_eq_some_iff.mpr
    ⟨(mem_billingAccounts_setAccountPlanTx h).mpr (Or.inr rfl), ensuredAccount_email⟩

/-- The account holds exactly the fields it was given, and the rest of what it held. -/
theorem accountOf_setAccountPlanTx {f : AccountFields} (hne : email ≠ "")
    (h : setAccountPlanTx email f db = some db') :
    accountOf db' email = f.apply { accountOf db email with id := (accountOf db' email).id } := by
  have hrow := accountRow_setAccountPlanTx h
  rw [accountOf_of_ne hne, hrow, accountOf_of_ne hne, ensuredAccount]
  cases accountRow db email <;> rfl

theorem accountRow_setAccountPlanTx_of_ne {f : AccountFields} {email' : String}
    (hne : email' ≠ email) (h : setAccountPlanTx email f db = some db') :
    accountRow db' email' = accountRow db email' := by
  refine Option.ext fun a => ?_
  rw [accountRow_eq_some_iff, accountRow_eq_some_iff, mem_billingAccounts_setAccountPlanTx h]
  constructor
  · rintro ⟨⟨ha, -⟩ | rfl, rfl⟩
    · exact ⟨ha, rfl⟩
    · exact absurd ensuredAccount_email hne
  · rintro ⟨ha, rfl⟩
    exact ⟨Or.inl ⟨ha, hne⟩, rfl⟩

/-- Every other account is untouched. -/
theorem accountOf_setAccountPlanTx_of_ne {f : AccountFields} {email' : String}
    (hne : email' ≠ email) (h : setAccountPlanTx email f db = some db') :
    accountOf db' email' = accountOf db email' := by
  simp only [accountOf, accountRow_setAccountPlanTx_of_ne hne h]

theorem setAccountPlanTx_eq_mirror {f : AccountFields}
    (h : setAccountPlanTx email f db = some db') :
    ∃ accounts, db' = mirrorAccountToTenants { db with billingAccounts := accounts } email := by
  unfold setAccountPlanTx at h
  split at h
  · cases h
  · cases h
    exact ⟨_, rfl⟩

@[simp] theorem users_mirror : (mirrorAccountToTenants db email).users = db.users := rfl

theorem users_setAccountPlanTx {f : AccountFields} (h : setAccountPlanTx email f db = some db') :
    db'.users = db.users := by
  obtain ⟨accounts, rfl⟩ := setAccountPlanTx_eq_mirror h
  rfl

/-- The tenants after the mirror carry the account's new columns. -/
theorem mem_tenants_setAccountPlanTx {f : AccountFields} {t : Tenant}
    (h : setAccountPlanTx email f db = some db') :
    t ∈ db'.tenants ↔
      ∃ s ∈ db.tenants, t = if s.isActive && ownsTenant db email s.id then
        s.setPlan (accountOf db' email).mirrored else s := by
  obtain ⟨accounts, rfl⟩ := setAccountPlanTx_eq_mirror h
  exact mem_tenants_mirror

def setAccountPlan (email : String) (fields : AccountFields) : Handler Unit :=
  if email = "" then throw .error
  else call .setAccountPlan fun w =>
    (setAccountPlanTx email fields w.db).map fun db => ((), { w with db := db })

/-- `setAccountPlan` returns exactly when its transaction commits. -/
theorem exec_setAccountPlan_ok_iff {f : AccountFields} {w w' : World} :
    (setAccountPlan email f).exec w = (.ok (), w') ↔
      email ≠ "" ∧ w.fails .setAccountPlan = false ∧
        ∃ db', setAccountPlanTx email f w.db = some db' ∧ w' = { w with db := db' } := by
  unfold setAccountPlan
  split
  · simp_all
  · rename_i hne
    rw [call, Prog.exec_attempt]
    cases hfail : w.fails .setAccountPlan
    · cases htx : setAccountPlanTx email f w.db with
      | none => simp
      | some db' => simp [hne, eq_comm]
    · simp

theorem exec_setAccountPlan_error {f : AccountFields} {w w' : World} {e : Failure}
    (h : (setAccountPlan email f).exec w = (.error e, w')) : w' = w := by
  unfold setAccountPlan at h
  split at h
  · cases h
    rfl
  · rw [exec_call] at h
    split at h
    · cases h
    · cases h
      rfl

/-- Fields that do not write `NULL` to `plan_name` are written, unless the transaction
fails. -/
theorem exec_setAccountPlan_cases {f : AccountFields} (w : World) (hne : email ≠ "")
    (hplan : f.planName ≠ some none) :
    (w.fails .setAccountPlan = true ∧ (setAccountPlan email f).exec w = (.error .error, w)) ∨
      (w.fails .setAccountPlan = false ∧ ∃ db', setAccountPlanTx email f w.db = some db' ∧
        (setAccountPlan email f).exec w = (.ok (), { w with db := db' })) := by
  unfold setAccountPlan
  rw [if_neg hne, exec_call]
  cases hfail : w.fails .setAccountPlan with
  | true => exact .inl ⟨rfl, rfl⟩
  | false =>
    refine .inr ⟨rfl, ?_⟩
    unfold setAccountPlanTx
    rw [if_neg hplan]
    exact ⟨_, rfl, rfl⟩

/-- The fields `resetAccountToFree` writes; the Paddle ids are not among them. -/
def resetFields (status : Option String) : AccountFields where
  planName := some (some "free")
  subscriptionStatus := some status
  billingInterval := some none
  stripeSubscriptionId := some none
  currentPeriodEnd := some none
  pendingPlan := some none
  pendingInterval := some none
  pendingEffectiveAt := some none

def resetAccountToFree (email : String) (status : Option String) : Handler Unit :=
  setAccountPlan email (resetFields status)

/-- `SELECT email FROM users WHERE tenant_id = ? AND role = 'owner' AND is_active = 1`. -/
def ownerEmailOfTenant (tenantId : Nat) : Handler (Option String) :=
  query fun db => (db.users.rows.find? fun u =>
    u.tenantId == some tenantId && u.role == .owner && u.isActive).map User.email

end Feedbase
