import Feedbase.Admin.Accounts
import Feedbase.Billing.Mirror
import Feedbase.Billing.WebhookConcurrency

/-!
# A comp that has ended

Nothing runs when a comp ends. What an account and its workspaces may do is read from the stored
plan, the sweep passes comped accounts over, and an ended comp is reset when the account is
reconciled the next time. Until then it grants what it granted before. So ended comps grant nothing
as long as time passes the end of a comp only when the account and its workspaces are on the free
plan already, and no write puts them on another plan afterwards.

## Main definitions

* `FreeLimits` — an account and its workspaces have the limits of the free plan
* `EndedCompsGrantNothing` — so it is with every account whose comp has ended
* `EndsOnFree` — nothing but the free plan is left when a comp ends
* `CompStep` — the writes that touch plans, accounts or owners, and time

## Main results

* `endedCompsGrantNothing_iff` — what this says about the stored plans
* `endedCompsGrantNothing_of_run`
* `CompStep.of_run`, `CompStep.of_billingStep` — the operations perform such writes
* `comp_outlives_its_end`
-/

namespace Feedbase

variable {db db' : Db} {w w' : World} {email : String} {now : Time} {t : Tenant}

/-- The plan has the limits of the free one. -/
def IsFreePlan (plan : String) : Prop := getPlanLimits plan = getPlanLimits "free"

/-- The account is comped, and the comp ended before the instant. -/
structure BillingAccount.CompEndedBefore (a : BillingAccount) (instant : ℚ) : Prop where
  status : a.subscriptionStatus = some "comped"
  ended : ∃ e ∈ a.currentPeriodEnd, (e : ℚ) < instant

/-- The account is comped, and the comp has ended or ends in the second of the clock. -/
structure BillingAccount.CompEnded (a : BillingAccount) (now : Time) : Prop where
  status : a.subscriptionStatus = some "comped"
  ended : a.currentPeriodEnd.any (· ≤ now) = true

instance (a : BillingAccount) (now : Time) : Decidable (a.CompEnded now) :=
  decidable_of_iff (a.subscriptionStatus = some "comped" ∧ a.currentPeriodEnd.any (· ≤ now) = true)
    ⟨fun h => ⟨h.1, h.2⟩, fun h => ⟨h.status, h.ended⟩⟩

/-- A comp ends on a whole second, and that second has instants after it. -/
theorem BillingAccount.exists_compEndedBefore_iff {a : BillingAccount} :
    (∃ instant, ⌊instant⌋₊ = now ∧ a.CompEndedBefore instant) ↔ a.CompEnded now := by
  constructor
  · rintro ⟨instant, rfl, hstatus, e, he, hlt⟩
    refine ⟨hstatus, (Option.any_eq_true _ _).mpr ⟨e, he, decide_eq_true ?_⟩⟩
    exact Nat.le_floor hlt.le
  · rintro ⟨hstatus, hended⟩
    obtain ⟨e, he, hle⟩ := (Option.any_eq_true _ _).mp hended
    have hle' : (e : ℚ) ≤ now := Nat.cast_le.mpr (of_decide_eq_true hle)
    refine ⟨now + 1 / 2, (Nat.floor_eq_iff (by positivity)).mpr ⟨?_, ?_⟩, hstatus, e, he, ?_⟩
    · linarith
    · linarith
    · linarith

/-- Whoever asks what the account may do, or a workspace it owns, is told the limits of the free
plan. -/
structure FreeLimits (db : Db) (email : String) : Prop where
  tier : getPlanLimits (accountTier db email) = getPlanLimits "free"
  usage : (accountWorkspaceUsage db email).ownLimit = (getPlanLimits "free").ownWorkspaces ∧
    (accountWorkspaceUsage db email).joinLimit = (getPlanLimits "free").joinWorkspaces
  planAllows : ∀ t ∈ db.tenants, ownsTenant db email t.id = true → ∀ capability,
    allows db t.id capability = (getPlanLimits "free").allows capability
  seats : ∀ t ∈ db.tenants, ownsTenant db email t.id = true →
    (getPlanLimits (tenantPlan db t.id)).seats = (getPlanLimits "free").seats

/-- At every instant at which the clock shows what it shows, a comp that ended before it grants
nothing. -/
def EndedCompsGrantNothing (w : World) : Prop :=
  ∀ instant : ℚ, ⌊instant⌋₊ = w.now → ∀ a ∈ w.db.billingAccounts, a.CompEndedBefore instant →
    FreeLimits w.db a.email

/-- An account whose comp has ended is on the free plan, and so is what it owns. -/
def EndedFree (now : Time) (db : Db) : Prop :=
  ∀ a ∈ db.billingAccounts, a.CompEnded now → IsFreePlan a.planName ∧
    ∀ t ∈ db.tenants, ownsTenant db a.email t.id = true → IsFreePlan t.planName

/-- An account whose comp ends meanwhile is on the free plan already, and so is what it owns. -/
def EndsOnFree (now later : Time) (db : Db) : Prop :=
  ∀ a ∈ db.billingAccounts, ¬ a.CompEnded now → a.CompEnded later → IsFreePlan a.planName ∧
    ∀ t ∈ db.tenants, ownsTenant db a.email t.id = true → IsFreePlan t.planName

/-! ### The stored plans -/

/-- The plans differ in their seats. -/
theorem isFreePlan_of_seats {plan : String}
    (h : (getPlanLimits plan).seats = (getPlanLimits "free").seats) : IsFreePlan plan := by
  revert h
  unfold IsFreePlan
  rw [getPlanLimits_free, getPlanLimits]
  cases hp : planOfKey {} plan with
  | none => exact fun _ => rfl
  | some p =>
    have hlimits : ∀ q ∈ PLANS {}, q.limits.seats = freeLimits.seats → q.limits = freeLimits := by
      decide
    exact hlimits p (List.mem_of_find?_eq_some hp)

theorem isFreePlan_getD {plan : String} :
    IsFreePlan ((orNull (some plan)).getD "free") ↔ IsFreePlan plan := by
  by_cases hempty : plan = ""
  · -- an empty plan is read as the free one, and is no key of its own either
    subst hempty
    exact iff_of_true rfl (show getPlanLimits "" = getPlanLimits "free" by decide)
  · rw [orNull_eq_self (fun h => hempty (Option.some.inj h)), Option.getD_some]

theorem tenantPlan_eq (ht : t ∈ db.tenants) :
    tenantPlan db t.id = (orNull (some t.planName)).getD "free" := by
  have hbyId : db.tenants.byId t.id = some t := Sql.Table.byId_eq_some_iff.mpr ⟨ht, rfl⟩
  rw [tenantPlan, hbyId, Option.map_some]

theorem accountTier_eq {a : BillingAccount} (ha : a ∈ db.billingAccounts) (hne : a.email ≠ "") :
    accountTier db a.email = (orNull (some a.planName)).getD "free" := by
  rw [accountTier, if_neg hne, accountRow_eq_some_iff.mpr ⟨ha, rfl⟩, Option.map_some]

/-- Stored plans with the limits of the free one are all that is asked. -/
theorem freeLimits_of_stored {a : BillingAccount} (ha : a ∈ db.billingAccounts)
    (hplan : IsFreePlan a.planName)
    (howned : ∀ t ∈ db.tenants, ownsTenant db a.email t.id = true → IsFreePlan t.planName) :
    FreeLimits db a.email := by
  have htier : getPlanLimits (accountTier db a.email) = getPlanLimits "free" := by
    -- nobody is asked about without an email
    by_cases hne : a.email = ""
    · rw [accountTier, if_pos hne]
    · rw [accountTier_eq ha hne]
      exact isFreePlan_getD.mpr hplan
  have htenant : ∀ t ∈ db.tenants, ownsTenant db a.email t.id = true →
      getPlanLimits (tenantPlan db t.id) = getPlanLimits "free" := by
    intro t ht howns
    rw [tenantPlan_eq ht]
    exact isFreePlan_getD.mpr (howned t ht howns)
  refine ⟨htier, ⟨?_, ?_⟩, fun t ht howns c => ?_, fun t ht howns => ?_⟩
  · exact congrArg Limits.ownWorkspaces htier
  · exact congrArg Limits.joinWorkspaces htier
  · exact congrArg (Limits.allows · c) (htenant t ht howns)
  · exact congrArg Limits.seats (htenant t ht howns)

theorem EndedFree.grantNothing (h : EndedFree w.now w.db) : EndedCompsGrantNothing w := by
  intro instant hfloor a ha hbefore
  have hended := BillingAccount.exists_compEndedBefore_iff.mp ⟨instant, hfloor, hbefore⟩
  exact freeLimits_of_stored ha (h a ha hended).1 (h a ha hended).2

/-- Nothing else would do: the limits of another plan are told at once. -/
theorem endedCompsGrantNothing_iff (hemail : ∀ a ∈ w.db.billingAccounts, a.email ≠ "") :
    EndedCompsGrantNothing w ↔ EndedFree w.now w.db := by
  refine ⟨fun h a ha hended => ?_, EndedFree.grantNothing⟩
  obtain ⟨instant, hfloor, hbefore⟩ := BillingAccount.exists_compEndedBefore_iff.mpr hended
  have hlimits := h instant hfloor a ha hbefore
  have htier := hlimits.tier
  rw [accountTier_eq ha (hemail a ha)] at htier
  refine ⟨isFreePlan_getD.mp htier, fun t ht howns => ?_⟩
  have hseats := hlimits.seats t ht howns
  rw [tenantPlan_eq ht] at hseats
  exact isFreePlan_getD.mp (isFreePlan_of_seats hseats)

/-- An ended comp stays ended, so only those that end meanwhile count. -/
theorem endedFree_later_iff {later : Time} (h : EndedFree now db) :
    EndedFree later db ↔ EndsOnFree now later db := by
  refine ⟨fun hlater a ha _ hended => hlater a ha hended, fun hends a ha hended => ?_⟩
  -- time undoes no end: what has ended before is on the free plan by `h`
  by_cases hbefore : a.CompEnded now
  · exact h a ha hbefore
  · exact hends a ha hbefore hended

/-! ### Writes -/

/-- If the account is given a paid plan, no workspace that takes it over has another owner whose
comp has ended. -/
def SharesNoEnded (now : Time) (db : Db) (email plan : String) : Prop :=
  ¬ IsFreePlan plan → ∀ t ∈ db.tenants, t.isActive → ownsTenant db email t.id = true →
    ∀ a ∈ db.billingAccounts, a.email ≠ email → ownsTenant db a.email t.id = true →
      ¬ a.CompEnded now

/-- What is written to the account is no ended comp, unless of the free plan for an account none of
whose inactive workspaces is on another plan. -/
def WritesNoEnded (now : Time) (db : Db) (email : String) (a : BillingAccount) : Prop :=
  a.CompEnded now → IsFreePlan a.planName ∧
    ∀ t ∈ db.tenants, t.isActive = false → ownsTenant db email t.id = true → IsFreePlan t.planName

/-- A row that becomes an owner's belongs to an account whose comp has not ended, unless the
workspace is on the free plan. -/
def PromotesNoEnded (now : Time) (db : Db) (p : User → Bool) (f : User → User) : Prop :=
  ∀ u ∈ db.users, p u = true → ∀ t ∈ db.tenants, Owns (f u) t → ∀ a ∈ db.billingAccounts,
    a.email = u.email → a.CompEnded now → IsFreePlan t.planName

/-- Accounts and workspaces keep their plans, but for accounts that are not comped and workspaces
that nobody owns, and nobody becomes an owner. -/
structure AddsNoPlan (db db' : Db) : Prop where
  accounts : ∀ a ∈ db'.billingAccounts,
    (∃ b ∈ db.billingAccounts, b.email = a.email ∧ b.toPlanColumns = a.toPlanColumns) ∨
      a.email ≠ "" ∧ a.subscriptionStatus ≠ some "comped"
  tenants : ∀ t ∈ db'.tenants,
    (∃ s ∈ db.tenants, s.id = t.id ∧ s.planName = t.planName) ∨
      ∀ email, ownsTenant db' email t.id = false
  owners : ∀ email n, ownsTenant db' email n = true → ownsTenant db email n = true
  refer : UsersReferTenants db → UsersReferTenants db'

/-- The active workspaces of the account are given the plan. -/
def Db.mirrorColumns (db : Db) (email : String) (columns : PlanColumns) : Db :=
  { db with
    tenants := db.tenants.update (fun t => t.isActive && ownsTenant db email t.id)
      fun t => t.setPlan columns.mirrored }

/-- One write to the plans, the accounts or the owners, or the passing of time, with what it may
assume of the state before it. -/
inductive CompStep (w : World) : World → Prop where
  | setAccountPlan {email : String} {fields : AccountFields} {db : Db} (hne : email ≠ "")
      (htx : setAccountPlanTx email fields w.db = some db)
      (hwrites : WritesNoEnded w.now w.db email (fields.apply (ensuredAccount w.db email)))
      (hshares : SharesNoEnded w.now w.db email
        (fields.apply (ensuredAccount w.db email)).planName) :
      CompStep w { w with db := db }
  | insertWorkspace {name subdomain : String} {website : Option String} {account : User}
      {r : NewWorkspace} {db : Db} (haccount : account ∈ w.db.users) (hne : account.email ≠ "")
      (hinsert : Feedbase.insertWorkspace name subdomain website account w.db = some (r, db))
      (hshares : SharesNoEnded w.now w.db account.email
        (accountColumns w.db account.email).planName) :
      CompStep w { w with db := db }
  -- the columns may have been read some time before
  | mirror {email : String} {columns : PlanColumns}
      (hmine : ∀ a ∈ w.db.billingAccounts, a.email = email → a.CompEnded w.now →
        IsFreePlan columns.planName)
      (hshares : SharesNoEnded w.now w.db email columns.planName) :
      CompStep w { w with db := w.db.mirrorColumns email columns }
  | updateUsers {p : User → Bool} {f : User → User} {hf : Sql.Table.Keyless f}
      (hemail : ∀ u, (f u).email = u.email) (htenant : ∀ u, (f u).tenantId = u.tenantId)
      (hpromotes : PromotesNoEnded w.now w.db p f) :
      CompStep w { w with db := { w.db with users := w.db.users.update p f hf } }
  | other {v : World} (hnow : v.now = w.now) (h : AddsNoPlan w.db v.db) : CompStep w v
  | elapse (seconds : Time) (hends : EndsOnFree w.now (w.now + seconds) w.db) :
    CompStep w { w with now := w.now + seconds }

theorem mem_tenants_mirrorColumns {columns : PlanColumns} :
    t ∈ (db.mirrorColumns email columns).tenants ↔
      ∃ s ∈ db.tenants, t = if s.isActive && ownsTenant db email s.id then
        s.setPlan columns.mirrored else s := by
  simp only [Db.mirrorColumns, Sql.Table.mem_update]

/-- After the mirror the workspaces of the account carry its plan, the others keep theirs. -/
theorem endedFree_mirrorColumns {columns : PlanColumns}
    (haccounts : ∀ a ∈ db.billingAccounts, a.CompEnded now → IsFreePlan a.planName)
    (howned : ∀ t ∈ db.tenants, t.isActive → ownsTenant db email t.id = true →
      ∀ a ∈ db.billingAccounts, a.CompEnded now → ownsTenant db a.email t.id = true →
        IsFreePlan columns.planName)
    (hother : ∀ t ∈ db.tenants, (t.isActive && ownsTenant db email t.id) = false →
      ∀ a ∈ db.billingAccounts, a.CompEnded now → ownsTenant db a.email t.id = true →
        IsFreePlan t.planName) :
    EndedFree now (db.mirrorColumns email columns) := by
  refine fun a ha hended => ⟨haccounts a ha hended, fun t ht howns => ?_⟩
  obtain ⟨s, hs, rfl⟩ := mem_tenants_mirrorColumns.mp ht
  by_cases hmine : (s.isActive && ownsTenant db email s.id) = true
  · rw [if_pos hmine] at howns ⊢
    obtain ⟨hactive, hown⟩ := Bool.and_eq_true_iff.mp hmine
    exact isFreePlan_getD.mpr (howned s hs hactive hown a ha hended howns)
  · rw [if_neg hmine] at howns ⊢
    exact hother s hs (eq_false_of_ne_true hmine) a ha hended howns

theorem endedFree_setAccountPlanTx {fields : AccountFields} (h : EndedFree now db)
    (hne : email ≠ "") (htx : setAccountPlanTx email fields db = some db')
    (hwrites : WritesNoEnded now db email (fields.apply (ensuredAccount db email)))
    (hshares : SharesNoEnded now db email (fields.apply (ensuredAccount db email)).planName) :
    EndedFree now db' := by
  have hmem : ∀ a ∈ db'.billingAccounts, (a ∈ db.billingAccounts ∧ a.email ≠ email) ∨
      a = fields.apply (ensuredAccount db email) :=
    fun a => (mem_billingAccounts_setAccountPlanTx htx).mp
  have hplan : (accountOf db' email).planName =
      (fields.apply (ensuredAccount db email)).planName := by
    rw [accountOf_of_ne hne, accountRow_setAccountPlanTx htx, Option.getD_some]
  have hwritten : (fields.apply (ensuredAccount db email)).email = email := ensuredAccount_email
  obtain ⟨accounts, rfl⟩ := setAccountPlanTx_eq_mirror htx
  refine endedFree_mirrorColumns (fun a ha hended => ?_)
    (fun t ht hactive hown a ha hended howns => ?_) fun t ht hnot a ha hended howns => ?_
  · rcases hmem a ha with ⟨ha, -⟩ | rfl
    · exact (h a ha hended).1
    · exact (hwrites hended).1
  · -- the plan that is mirrored is the one that was written
    have hmirrored : (accountOf { db with billingAccounts := accounts } email).planName =
        (fields.apply (ensuredAccount db email)).planName := hplan
    rw [hmirrored]
    rcases hmem a ha with ⟨ha, hemail⟩ | rfl
    · by_contra hpaid
      exact hshares hpaid t ht hactive hown a ha hemail howns hended
    · exact (hwrites hended).1
  · rcases hmem a ha with ⟨ha, -⟩ | rfl
    · exact (h a ha hended).2 t ht howns
    · -- a workspace of the account that the mirror passes over is inactive
      rw [hwritten] at howns
      have hown : ownsTenant db email t.id = true := howns
      refine (hwrites hended).2 t ht ?_ hown
      have hnot' : (t.isActive && ownsTenant db email t.id) = false := hnot
      rwa [hown, Bool.and_true] at hnot'

/-- A missing row is added on the free plan, and nothing ends with it. -/
theorem mem_of_compEnded_insertIgnore {a : BillingAccount}
    (ha : a ∈ (insertIgnoreAccount db email).billingAccounts) (hended : a.CompEnded now) :
    a ∈ db.billingAccounts := by
  rcases mem_insertIgnoreAccount.mp ha with ha | rfl
  · exact ha
  · cases hrow : accountRow db email with
    | some b =>
      rw [ensuredAccount, hrow, Option.getD_some]
      exact (accountRow_eq_some_iff.mp hrow).1
    | none =>
      have hstatus := hended.status
      rw [ensuredAccount, hrow] at hstatus
      cases hstatus

theorem endedFree_insertWorkspace {name subdomain : String} {website : Option String}
    {account : User} {r : NewWorkspace} (h : EndedFree now db) (hrefer : UsersReferTenants db)
    (haccount : account ∈ db.users) (hne : account.email ≠ "")
    (hinsert : insertWorkspace name subdomain website account db = some (r, db'))
    (hshares : SharesNoEnded now db account.email (accountColumns db account.email).planName) :
    EndedFree now db' := by
  obtain ⟨T, U, C, hT, hU, rfl⟩ := insertWorkspace_spec hinsert
  change EndedFree now ((insertIgnoreAccount { db with tenants := T, users := U }
    account.email).mirrorColumns account.email _)
  -- the owners of an old workspace are as before, the new one has the account alone
  have hold : ∀ t ∈ db.tenants, ∀ e, ownsTenant { db with users := U } e t.id = true →
      ownsTenant db e t.id = true := by
    intro t ht e howns
    obtain ⟨u, hu, htenant, hrest⟩ := ownsTenant_iff.mp howns
    rcases mem_claimOwner haccount hU hu with hu | ⟨hnew, -⟩
    · exact ownsTenant_iff.mpr ⟨u, hu, htenant, hrest⟩
    · have hid : t.id = db.tenants.next := Option.some.inj (htenant.symm.trans hnew)
      exact absurd hid (Nat.ne_of_lt (db.tenants.id_lt t ht))
  have hnew : ∀ e, ownsTenant { db with users := U } e db.tenants.next = true →
      e = account.email := by
    intro e howns
    obtain ⟨u, hu, htenant, -, -, rfl⟩ := ownsTenant_iff.mp howns
    rcases mem_claimOwner haccount hU hu with hu | ⟨-, hemail⟩
    · obtain ⟨t, ht, hid⟩ := hrefer u hu _ htenant
      exact absurd hid (Nat.ne_of_lt (db.tenants.id_lt t ht))
    · exact hemail
  have hplan : (accountOf (insertIgnoreAccount { db with tenants := T, users := U } account.email)
      account.email).planName = (accountColumns db account.email).planName := by
    have hcolumns := accountColumns_insertIgnoreAccount { db with tenants := T, users := U }
      account.email account.email
    rw [accountColumns_eq hne] at hcolumns
    exact congrArg PlanColumns.planName hcolumns
  -- the plan of the account is free, if its own comp has ended
  have hmine : ∀ a ∈ db.billingAccounts, a.CompEnded now → a.email = account.email →
      IsFreePlan (accountColumns db account.email).planName := by
    intro a ha hended hemail
    rw [accountColumns, ← hemail, accountRow_eq_some_iff.mpr ⟨ha, rfl⟩]
    exact (h a ha hended).1
  refine endedFree_mirrorColumns (fun a ha hended => ?_)
    (fun t ht hactive hown a ha hended howns => ?_) fun t ht hnot a ha hended howns => ?_
  · exact (h a (mem_of_compEnded_insertIgnore ha hended) hended).1
  · have ha' : a ∈ db.billingAccounts := mem_of_compEnded_insertIgnore ha hended
    rw [hplan]
    by_cases hemail : a.email = account.email
    · exact hmine a ha' hended hemail
    · rcases (hT t).mp ht with ht | rfl
      · by_contra hpaid
        exact hshares hpaid t ht hactive (hold t ht _ hown) a ha' hemail (hold t ht _ howns) hended
      · exact absurd (hnew _ howns) hemail
  · have ha' : a ∈ db.billingAccounts := mem_of_compEnded_insertIgnore ha hended
    rcases (hT t).mp ht with ht | rfl
    · exact (h a ha' hended).2 t ht (hold t ht _ howns)
    · -- the new workspace is the account's
      have hemail := hnew _ howns
      rw [hemail] at howns
      rw [Bool.and_eq_false_imp] at hnot
      rw [hnot rfl] at howns
      cases howns

/-- What every run keeps. -/
structure CompInv (w : World) : Prop where
  refer : UsersReferTenants w.db
  emails : ∀ a ∈ w.db.billingAccounts, a.email ≠ ""
  free : EndedFree w.now w.db

/-- One write, or the passing of time: what has ended stays on the free plan. -/
theorem CompStep.inv (hstep : CompStep w w') (h : CompInv w) : CompInv w' := by
  cases hstep with
  | @setAccountPlan email fields db hne htx hwrites hshares =>
    refine ⟨?_, fun a ha => ?_, endedFree_setAccountPlanTx h.free hne htx hwrites hshares⟩
    · obtain ⟨accounts, rfl⟩ := setAccountPlanTx_eq_mirror htx
      exact refer_mirror { w.db with billingAccounts := accounts } h.refer
    · rcases (mem_billingAccounts_setAccountPlanTx htx).mp ha with ⟨ha, -⟩ | rfl
      · exact h.emails a ha
      · rw [AccountFields.apply_email, ensuredAccount_email]
        exact hne
  | @insertWorkspace name subdomain website account r db haccount hne hinsert hshares =>
    refine ⟨refer_insertWorkspace h.refer haccount hinsert, fun a ha => ?_,
      endedFree_insertWorkspace h.free h.refer haccount hne hinsert hshares⟩
    obtain ⟨T, U, C, -, -, rfl⟩ := insertWorkspace_spec hinsert
    change a ∈ (insertIgnoreAccount { w.db with tenants := T, users := U }
      account.email).billingAccounts at ha
    rcases mem_insertIgnoreAccount.mp ha with ha | rfl
    · exact h.emails a ha
    · rw [ensuredAccount_email]
      exact hne
  | @mirror email columns hmine hshares =>
    refine ⟨?_, h.emails, endedFree_mirrorColumns (fun a ha hended => (h.free a ha hended).1) ?_
      fun t ht _ a ha hended howns => (h.free a ha hended).2 t ht howns⟩
    · refine refer_of_tenants h.refer fun t ht => ?_
      refine ⟨_, mem_tenants_mirrorColumns.mpr ⟨t, ht, rfl⟩, ?_⟩
      split <;> rfl
    · intro t ht hactive hown a ha hended howns
      by_cases hemail : a.email = email
      · exact hmine a ha hemail hended
      · by_contra hpaid
        exact hshares hpaid t ht hactive hown a ha hemail howns hended
  | @updateUsers p f hf hemail htenant hpromotes =>
    refine ⟨refer_of_users htenant h.refer, h.emails, fun a ha hended => ?_⟩
    refine ⟨(h.free a ha hended).1, fun t ht howns => ?_⟩
    obtain ⟨u, hu, hut, hur, hua, hue⟩ := ownsTenant_iff.mp howns
    simp only [Sql.Table.mem_update] at hu
    obtain ⟨v, hv, rfl⟩ := hu
    -- the owner's row was written just now, or made them the owner before
    by_cases hp : p v = true
    · rw [if_pos hp] at hut hur hua hue
      exact hpromotes v hv hp t ht ⟨hut, hur, hua⟩ a ha (hue.symm.trans (hemail v)) hended
    · rw [if_neg hp] at hut hur hua hue
      exact (h.free a ha hended).2 t ht (ownsTenant_iff.mpr ⟨v, hv, hut, hur, hua, hue⟩)
  | other hnow hadds =>
    refine ⟨hadds.refer h.refer, fun a ha => ?_, fun a ha hended => ?_⟩
    · rcases hadds.accounts a ha with ⟨b, hb, hemail, -⟩ | ⟨hne, -⟩
      · exact hemail ▸ h.emails b hb
      · exact hne
    · -- a comp that is there afterwards was there before
      obtain ⟨b, hb, hemail, hcolumns⟩ := (hadds.accounts a ha).resolve_right fun hnot =>
        hnot.2 hended.status
      have hended' : b.CompEnded w.now := by
        refine ⟨?_, ?_⟩
        · rw [hcolumns]
          exact hended.status
        · rw [hcolumns, ← hnow]
          exact hended.ended
      have hfree := h.free b hb hended'
      rw [hemail, hcolumns] at hfree
      refine ⟨hfree.1, fun t ht howns => ?_⟩
      rcases hadds.tenants t ht with ⟨s, hs, hid, hplan⟩ | hnobody
      · rw [← hplan]
        exact hfree.2 s hs (hid ▸ hadds.owners _ _ howns)
      · rw [hnobody] at howns
        cases howns
  | elapse seconds hends =>
    exact ⟨h.refer, h.emails, (endedFree_later_iff h.free).mpr hends⟩

/-- In every run whose steps meet their conditions an ended comp grants nothing. What is asked of
the passing of time is exact: a comp that ends on a paid plan goes on granting it. -/
theorem endedCompsGrantNothing_of_run (h : CompInv w)
    (hrun : Relation.ReflTransGen CompStep w w') :
    EndedCompsGrantNothing w' ∧ ∀ seconds,
      EndedCompsGrantNothing { w' with now := w'.now + seconds } ↔
        EndsOnFree w'.now (w'.now + seconds) w'.db := by
  have hinv : CompInv w' := by
    induction hrun with
    | refl => exact h
    | tail _ hstep ih => exact hstep.inv ih
  refine ⟨hinv.free.grantNothing, fun seconds => ?_⟩
  calc EndedCompsGrantNothing { w' with now := w'.now + seconds }
      ↔ EndedFree (w'.now + seconds) w'.db := endedCompsGrantNothing_iff hinv.emails
    _ ↔ EndsOnFree w'.now (w'.now + seconds) w'.db :=
      endedFree_later_iff hinv.free

/-! ### The writers -/

/-- A write of another status ends no comp. -/
theorem writesNoEnded_of_status {fields : AccountFields} {status : Option String}
    (hstatus : fields.subscriptionStatus = some status) (hne : status ≠ some "comped") :
    WritesNoEnded now db email (fields.apply (ensuredAccount db email)) := by
  intro hended
  have hcomped : fields.subscriptionStatus.getD _ = some "comped" := hended.status
  rw [hstatus] at hcomped
  exact absurd hcomped hne

/-- A grant writes a comp that has yet to end. -/
theorem writesNoEnded_comp {plan : Option String} {periodEnd : Option Time}
    (h : ∀ e ∈ periodEnd, now < e) :
    WritesNoEnded now db email ((compFields plan periodEnd).apply (ensuredAccount db email)) := by
  intro hended
  have hend : periodEnd.any (· ≤ now) = true := hended.ended
  obtain ⟨e, rfl, hle⟩ := (Option.any_eq_true _ _).mp hend
  exact absurd (h e rfl) (Nat.not_lt.mpr (of_decide_eq_true hle))

theorem writesNoEnded_of_reconcileWrites {fields : AccountFields} (h : EndedFree now db)
    (hfields : ReconcileWrites fields) :
    WritesNoEnded now db email (fields.apply (ensuredAccount db email)) := by
  -- an id is written beside a comp that the account has had before
  have hid : ∀ a : BillingAccount, a.toPlanColumns = (ensuredAccount db email).toPlanColumns →
      WritesNoEnded now db email a := by
    intro a hcolumns hended
    cases hrow : accountRow db email with
    | none =>
      have hstatus := hended.status
      rw [hcolumns, ensuredAccount, hrow] at hstatus
      cases hstatus
    | some b =>
      rw [ensuredAccount, hrow, Option.getD_some] at hcolumns
      obtain ⟨hb, rfl⟩ := accountRow_eq_some_iff.mp hrow
      have hfree := h b hb ⟨hcolumns ▸ hended.status, hcolumns ▸ hended.ended⟩
      exact ⟨hcolumns ▸ hfree.1, fun t ht _ howns => hfree.2 t ht howns⟩
  cases hfields with
  | customer id => exact hid _ rfl
  | subscription id => exact hid _ rfl
  | reset status =>
    refine writesNoEnded_of_status rfl fun hstatus => ?_
    obtain ⟨s, -, htext⟩ := Option.map_eq_some_iff.mp hstatus
    exact s.text_ne_comped htext
  | held acct sub =>
    exact writesNoEnded_of_status rfl fun hstatus =>
      sub.status.text_ne_comped (Option.some.inj hstatus)
  | live sub =>
    exact writesNoEnded_of_status rfl fun hstatus =>
      sub.status.text_ne_comped (Option.some.inj hstatus)

theorem AddsNoPlan.of_eq (h : db' = db) : AddsNoPlan db db' := by
  subst h
  exact ⟨fun a ha => .inl ⟨a, ha, rfl, rfl⟩, fun t ht => .inl ⟨t, ht, rfl, rfl⟩, fun _ _ h => h, id⟩

/-- A step of a reconciliation, and so of a webhook, is one of the writes; only what it mirrors onto
shared workspaces is subject to a condition. -/
theorem CompStep.of_billingStep {P : Paddle → Paddle → Prop} (h : CompInv w) (hne : email ≠ "")
    (hstep : BillingStep (fun e f => e = email ∧ ReconcileWrites f) P w w')
    (hshares : ∀ f, ReconcileWrites f → SharesNoEnded w.now w.db email
      (f.apply (ensuredAccount w.db email)).planName) : CompStep w w' := by
  cases hstep with
  | quiet hsame => exact hsame ▸ .other rfl (.of_eq rfl)
  | account e fields db hA htx hdb =>
    obtain ⟨rfl, hfields⟩ := hA
    exact hdb ▸ .setAccountPlan hne htx (writesNoEnded_of_reconcileWrites h.free hfields)
      (hshares fields hfields)
  | paddle p hP hp => exact hp ▸ .other rfl (.of_eq rfl)
  | stripe s hs => exact hs ▸ .other rfl (.of_eq rfl)

/-- What an operation may assume while comps have ended. -/
def MirrorOp.KeepsEnded (now : Time) (db : Db) : MirrorOp → Prop
  | .setAccountPlan email fields =>
    WritesNoEnded now db email (fields.apply (ensuredAccount db email)) ∧
      SharesNoEnded now db email (fields.apply (ensuredAccount db email)).planName
  | .resetAccountToFree _ status => status ≠ some "comped"
  | .createWorkspace _ auth => ∀ account ∈ db.users.byId auth.id,
    SharesNoEnded now db account.email (accountColumns db account.email).planName
  | .updateTenant .. | .updateWorkspace .. => True
  | .updateUser id data => PromotesNoEnded now db (fun u => u.id == id) data.apply
  | .updateUserRole userId role auth => ∀ newRole ∈ tenantRole? role,
    PromotesNoEnded now db (fun u => userId.selects u && inTenant auth.tenantId u)
      fun u => { u with role := newRole }

/-- One workspace is rewritten, its plan apart. -/
theorem addsNoPlan_of_tenants {f : Tenant → Tenant} {n : Nat} {T : Sql.Table Tenant}
    (hplan : ∀ t, (f t).planName = t.planName) (hid : ∀ t, (f t).id = t.id)
    (hT : ∀ t, t ∈ T ↔ ∃ s ∈ db.tenants, t = if s.id == n then f s else s) :
    AddsNoPlan db { db with tenants := T } where
  accounts a ha := .inl ⟨a, ha, rfl, rfl⟩
  tenants t ht := by
    obtain ⟨s, hs, rfl⟩ := (hT t).mp ht
    refine .inl ⟨s, hs, ?_⟩
    split
    · exact ⟨(hid s).symm, (hplan s).symm⟩
    · exact ⟨rfl, rfl⟩
  owners _ _ h := h
  refer h := by
    refine refer_of_tenants h fun t ht => ⟨_, (hT _).mpr ⟨t, ht, rfl⟩, ?_⟩
    split
    · exact hid t
    · rfl

theorem compStep_setAccountPlan {fields : AccountFields}
    (hwrites : WritesNoEnded w.now w.db email (fields.apply (ensuredAccount w.db email)))
    (hshares : SharesNoEnded w.now w.db email (fields.apply (ensuredAccount w.db email)).planName) :
    ((setAccountPlan email fields).exec w).2 = w ∨
      CompStep w ((setAccountPlan email fields).exec w).2 := by
  rcases hr : (setAccountPlan email fields).exec w with ⟨e | _, w'⟩
  · exact .inl (exec_setAccountPlan_error hr)
  · obtain ⟨hne, -, db', htx, rfl⟩ := exec_setAccountPlan_ok_iff.mp hr
    exact .inr (.setAccountPlan hne htx hwrites hshares)

/-- An operation changes nothing or performs one of the writes. -/
theorem CompStep.of_run (op : MirrorOp) (hkeeps : op.KeepsEnded w.now w.db) :
    op.run w = w ∨ CompStep w (op.run w) := by
  cases op with
  | setAccountPlan email fields => exact compStep_setAccountPlan hkeeps.1 hkeeps.2
  | resetAccountToFree email status =>
    -- the reset writes the free plan, so it shares no other
    refine compStep_setAccountPlan (writesNoEnded_of_status rfl hkeeps) fun hpaid => ?_
    exact absurd rfl hpaid
  | createWorkspace data auth =>
    simp only [MirrorOp.run]
    rcases createWorkspace_cases data auth w with
      h | ⟨name, subdomain, website, account, r, db', hbyId, hne, hinsert, h⟩
    · exact .inl h
    · rw [h]
      have haccount : account ∈ w.db.users := (Sql.Table.byId_eq_some_iff.mp hbyId).1
      exact .inr (.insertWorkspace haccount hne hinsert (hkeeps account hbyId))
  | updateTenant id data =>
    simp only [MirrorOp.run]
    rcases updateTenant_cases id data w with h | ⟨sub, T, hT, h⟩
    · exact .inl h
    · rw [h]
      exact .inr (.other rfl (addsNoPlan_of_tenants (f := data.apply sub) (fun _ => rfl)
        (fun _ => rfl) fun _ => Sql.Table.mem_update? hT))
  | updateWorkspace id data =>
    simp only [MirrorOp.run]
    rcases updateWorkspace_cases id data w with h | h
    · exact .inl h
    · rw [h]
      refine .inr (.other rfl (addsNoPlan_of_tenants (f := data.apply) (n := id) (fun _ => rfl)
        (fun _ => rfl) fun t => ?_))
      simp only [Sql.Table.mem_update]
  | updateUser id data =>
    simp only [MirrorOp.run]
    rcases updateUser_cases id data w with h | h
    · exact .inl h
    · rw [h]
      exact .inr (.updateUsers (fun _ => rfl) (fun _ => rfl) hkeeps)
  | updateUserRole userId role auth =>
    simp only [MirrorOp.run]
    rcases updateUserRole_cases userId role auth w with h | ⟨newRole, hrole, -, -, h⟩
    · exact .inl h
    · rw [h]
      exact .inr (.updateUsers (fun _ => rfl) (fun _ => rfl) (hkeeps newRole hrole))

/-! ### A month on Business -/

/-- Ada owns Acme. -/
def adaAtAcmeOnly : World := createAcme.run adaSignedUp

/-- The admin comps her Business for a month. -/
def compForMonth : Handler (Reply Unit) :=
  setAccountPlanAdmin .paddleDemo "ada@example.com" "business" (some 1)

/-- The day after the month the sweep has run, and nobody has opened the Billing tab. -/
def dayAfterMonth : World :=
  ((applyDuePendingChanges .paddleDemo (6 * 3600)).exec
    { (compForMonth.exec adaAtAcmeOnly).2 with now := 31 * daySeconds }).2

/-- The account and its workspace are still told what Business allows. -/
theorem comp_outlives_its_end :
    (compForMonth.exec adaAtAcmeOnly).1 = .ok ⟨200, "plan_updated", ()⟩ ∧
      accountTier dayAfterMonth.db "ada@example.com" = "business" ∧
      allows dayAfterMonth.db 1 .customDomain = true ∧ ¬ EndedCompsGrantNothing dayAfterMonth := by
  have htier : accountTier dayAfterMonth.db "ada@example.com" = "business" := by decide +kernel
  refine ⟨by decide +kernel, htier, by decide +kernel, fun h => ?_⟩
  have hrow : (accountRow dayAfterMonth.db "ada@example.com").any
      (fun a => decide (a.CompEnded dayAfterMonth.now)) = true := by
    decide +kernel
  obtain ⟨a, ha, hended⟩ := (Option.any_eq_true _ _).mp hrow
  obtain ⟨hmem, hemail⟩ := accountRow_eq_some_iff.mp ha
  obtain ⟨instant, hfloor, hbefore⟩ :=
    BillingAccount.exists_compEndedBefore_iff.mpr (of_decide_eq_true hended)
  have hlimits := (h instant hfloor a hmem hbefore).tier
  rw [hemail, htier, getPlanLimits_business, getPlanLimits_free] at hlimits
  have hseats := congrArg Limits.seats hlimits
  cases hseats

/-- The write of that grant, ten days before. -/
def grantOp : MirrorOp :=
  .setAccountPlan "ada@example.com" (compFields (some "business") (some (30 * daySeconds)))

def tenDaysIn : World :=
  { grantOp.run adaAtAcmeOnly with now := (grantOp.run adaAtAcmeOnly).now + 10 * daySeconds }

/-- The comp lasts, and goes on lasting after its end. -/
theorem endedCompsGrantNothing_of_run_tenDaysIn :
    EndedCompsGrantNothing tenDaysIn ∧
      EndedCompsGrantNothing { tenDaysIn with now := tenDaysIn.now + 15 * daySeconds } ∧
      ¬ EndedCompsGrantNothing { tenDaysIn with now := tenDaysIn.now + 25 * daySeconds } := by
  have hstart : CompInv adaAtAcmeOnly := by
    have hnone : ∀ a ∈ adaAtAcmeOnly.db.billingAccounts, ¬ a.CompEnded adaAtAcmeOnly.now := by
      decide
    exact ⟨by decide, by decide, fun a ha hended => absurd hended (hnone a ha)⟩
  have hgrant : grantOp.KeepsEnded adaAtAcmeOnly.now adaAtAcmeOnly.db := by
    refine ⟨writesNoEnded_comp fun e he => ?_, fun _ t _ _ _ a ha hne _ => ?_⟩
    · cases he
      decide
    · have honly : ∀ b ∈ adaAtAcmeOnly.db.billingAccounts, b.email = "ada@example.com" := by decide
      exact absurd (honly a ha) hne
  have hunended : ∀ seconds ∈ [10 * daySeconds, 25 * daySeconds],
      ∀ a ∈ (grantOp.run adaAtAcmeOnly).db.billingAccounts,
        ¬ a.CompEnded ((grantOp.run adaAtAcmeOnly).now + seconds) := by
    decide +kernel
  have hrun : Relation.ReflTransGen CompStep adaAtAcmeOnly tenDaysIn := by
    have helapse : CompStep (grantOp.run adaAtAcmeOnly) tenDaysIn :=
      .elapse (10 * daySeconds) fun a ha _ hended =>
        absurd hended (hunended _ (List.mem_cons_self ..) a ha)
    rcases CompStep.of_run grantOp hgrant with hsame | hstep
    · rw [hsame] at helapse
      exact .single (hsame ▸ helapse)
    · exact .tail (.single hstep) helapse
  obtain ⟨hnow, hlater⟩ := endedCompsGrantNothing_of_run hstart hrun
  refine ⟨hnow, (hlater _).mpr fun a ha _ hended => ?_, fun h => ?_⟩
  · exact absurd hended (hunended (25 * daySeconds) (by simp) a ha)
  · have hrow : (accountRow tenDaysIn.db "ada@example.com").any (fun a => decide
        (a.CompEnded (tenDaysIn.now + 25 * daySeconds) ∧ a.planName = "business")) = true := by
      decide +kernel
    obtain ⟨a, ha, hboth⟩ := (Option.any_eq_true _ _).mp hrow
    obtain ⟨hended, hplan⟩ := of_decide_eq_true hboth
    have hmem := (accountRow_eq_some_iff.mp ha).1
    have hbefore : ¬ a.CompEnded tenDaysIn.now := hunended _ (List.mem_cons_self ..) a hmem
    have hfree := ((hlater _).mp h a hmem hbefore hended).1
    rw [hplan, IsFreePlan, getPlanLimits_business, getPlanLimits_free] at hfree
    have hseats := congrArg Limits.seats hfree
    cases hseats

end Feedbase
