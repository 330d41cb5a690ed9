import Feedbase.Common.AccountBilling
import Feedbase.Common.Strings
import Feedbase.Lib.Transaction

/-!
# setAccountPlan, statement by statement

The one write path of all billing state, as the statements it sends: an `INSERT IGNORE`, an
`UPDATE` of the columns that are present in `fields`, and the mirror's `SELECT` and `UPDATE`,
in a transaction of their own. Any statement may fail.

The columns the server maintains by itself are part of the state here: `created_at`, and
`updated_at`, which an `UPDATE` that changes a row sets to the current time.

## Main definitions

* `Column`, `Entry`, `Fields`, `assignments` — the `fields` argument and the dynamic column list
* `Stored` — the database with the times of its rows
* `setAccountPlan`
* `Written` — what a call is to leave behind

## Main results

* `setAccountPlan_atomic` — a call that resolves has written what it was given and nothing
  else; one of which a statement fails rejects and leaves the database as it was
* `Updates.setAccountPlanTx_eq` — on the database, a call that resolves is the one action
  `setAccountPlanTx`
-/

namespace Feedbase.AccountWrites

open Sql

/-! ### The `fields` argument -/

/-- The columns `setAccountPlan` may write. -/
inductive Column where
  | planName
  | stripeCustomerId
  | stripeSubscriptionId
  | paddleCustomerId
  | paddleSubscriptionId
  | subscriptionStatus
  | billingInterval
  | currentPeriodEnd
  | pendingPlan
  | pendingInterval
  | pendingEffectiveAt
  deriving DecidableEq, Repr

namespace Column

/-- The values of the column, `NULL` apart. -/
abbrev Value : Column → Type
  | billingInterval | pendingInterval => Interval
  | currentPeriodEnd | pendingEffectiveAt => Time
  | planName | stripeCustomerId | stripeSubscriptionId | paddleCustomerId | paddleSubscriptionId
  | subscriptionStatus | pendingPlan => String

/-- The column of a row. -/
def get : (c : Column) → BillingAccount → Option c.Value
  | planName, a => some a.planName
  | stripeCustomerId, a => a.stripeCustomerId
  | stripeSubscriptionId, a => a.stripeSubscriptionId
  | paddleCustomerId, a => a.paddleCustomerId
  | paddleSubscriptionId, a => a.paddleSubscriptionId
  | subscriptionStatus, a => a.subscriptionStatus
  | billingInterval, a => a.billingInterval
  | currentPeriodEnd, a => a.currentPeriodEnd
  | pendingPlan, a => a.pendingPlan
  | pendingInterval, a => a.pendingInterval
  | pendingEffectiveAt, a => a.pendingEffectiveAt

/-- `SET column = ?`. -/
def write : (c : Column) → Option c.Value → BillingAccount → BillingAccount
  | planName, v, a => { a with planName := v.getD a.planName }
  | stripeCustomerId, v, a => { a with stripeCustomerId := v }
  | stripeSubscriptionId, v, a => { a with stripeSubscriptionId := v }
  | paddleCustomerId, v, a => { a with paddleCustomerId := v }
  | paddleSubscriptionId, v, a => { a with paddleSubscriptionId := v }
  | subscriptionStatus, v, a => { a with subscriptionStatus := v }
  | billingInterval, v, a => { a with billingInterval := v }
  | currentPeriodEnd, v, a => { a with currentPeriodEnd := v }
  | pendingPlan, v, a => { a with pendingPlan := v }
  | pendingInterval, v, a => { a with pendingInterval := v }
  | pendingEffectiveAt, v, a => { a with pendingEffectiveAt := v }

/-- What the column takes in strict mode: `plan_name` is `NOT NULL`, and a text has to fit. -/
def storable : (c : Column) → Option c.Value → Bool
  | planName, v => v.any (String.length · ≤ 50)
  | stripeCustomerId, v | stripeSubscriptionId, v | paddleCustomerId, v
  | paddleSubscriptionId, v => v.all (String.length · ≤ 255)
  | subscriptionStatus, v => v.all (String.length · ≤ 50)
  | pendingPlan, v => v.all (String.length · ≤ 20)
  | billingInterval, _ | currentPeriodEnd, _ | pendingInterval, _ | pendingEffectiveAt, _ => true

variable {c d : Column} {a b : BillingAccount}

@[simp] theorem write_id (v : Option c.Value) : (c.write v a).id = a.id := by cases c <;> rfl

@[simp] theorem write_email (v : Option c.Value) : (c.write v a).email = a.email := by
  cases c <;> rfl

theorem get_write {v : Option c.Value} (h : c.storable v = true) : c.get (c.write v a) = v := by
  cases c with
  | planName =>
    cases v with
    | none => cases h
    | some v => rfl
  | _ => rfl

theorem get_write_of_ne (h : c ≠ d) (v : Option d.Value) : c.get (d.write v a) = c.get a := by
  cases c <;> cases d <;> first | rfl | exact absurd rfl h

/-- A row is its key, its email and these columns. -/
theorem ext_get (hid : a.id = b.id) (hemail : a.email = b.email) (h : ∀ c, get c a = get c b) :
    a = b := by
  obtain ⟨⟨_, _, _, _, _, _, _⟩, _, _, _, _, _, _⟩ := a
  obtain ⟨⟨_, _, _, _, _, _, _⟩, _, _, _, _, _, _⟩ := b
  cases hid
  cases hemail
  cases h planName
  cases h stripeCustomerId
  cases h stripeSubscriptionId
  cases h paddleCustomerId
  cases h paddleSubscriptionId
  cases h subscriptionStatus
  cases h billingInterval
  cases h currentPeriodEnd
  cases h pendingPlan
  cases h pendingInterval
  cases h pendingEffectiveAt
  rfl

end Column

/-- What `fields` holds under a key. -/
inductive Entry (α : Type) where
  | absent
  | undefined
  | null
  | value (a : α)
  deriving DecidableEq

/-- Whether the key is in `fields`, and the parameter it makes: `undefined` is `NULL`. -/
def Entry.val {α : Type} : Entry α → Option (Option α)
  | absent => none
  | undefined | null => some none
  | value a => some (some a)

abbrev Fields := (c : Column) → Entry c.Value

def allowed : List Column :=
  [.planName, .stripeCustomerId, .stripeSubscriptionId, .paddleCustomerId, .paddleSubscriptionId,
    .subscriptionStatus, .billingInterval, .currentPeriodEnd, .pendingPlan, .pendingInterval,
    .pendingEffectiveAt]

theorem mem_allowed (c : Column) : c ∈ allowed := by cases c <;> decide

theorem nodup_allowed : allowed.Nodup := by decide

/-- One `column = ?` with its parameter. -/
abbrev Assignment := (c : Column) × Option c.Value

/-- `sets` and `vals`: what the loop over `allowed` collects. -/
def assignments (fields : Fields) : List Assignment :=
  allowed.filterMap fun c => (fields c).val.map fun v => ⟨c, v⟩

/-- The row with every assignment made. -/
def assign (sets : List Assignment) (a : BillingAccount) : BillingAccount :=
  sets.foldl (fun a p => p.1.write p.2 a) a

/-- The same fields as one record. -/
def accountFields (fields : Fields) : AccountFields where
  planName := (fields .planName).val
  stripeCustomerId := (fields .stripeCustomerId).val
  stripeSubscriptionId := (fields .stripeSubscriptionId).val
  paddleCustomerId := (fields .paddleCustomerId).val
  paddleSubscriptionId := (fields .paddleSubscriptionId).val
  subscriptionStatus := (fields .subscriptionStatus).val
  billingInterval := (fields .billingInterval).val
  currentPeriodEnd := (fields .currentPeriodEnd).val
  pendingPlan := (fields .pendingPlan).val
  pendingInterval := (fields .pendingInterval).val
  pendingEffectiveAt := (fields .pendingEffectiveAt).val

section Assign

variable {fields : Fields} {sets : List Assignment} {a : BillingAccount}

theorem mem_assignments {p : Assignment} :
    p ∈ assignments fields ↔ (fields p.1).val = some p.2 := by
  rw [assignments, List.mem_filterMap]
  constructor
  · rintro ⟨c, -, h⟩
    obtain ⟨v, hv, rfl⟩ := Option.map_eq_some_iff.mp h
    exact hv
  · intro h
    exact ⟨p.1, mem_allowed p.1, by rw [h]; rfl⟩

@[simp] theorem assign_id : (assign sets a).id = a.id := by
  induction sets generalizing a with
  | nil => rfl
  | cons p sets ih => exact ih.trans (Column.write_id p.2)

@[simp] theorem assign_email : (assign sets a).email = a.email := by
  induction sets generalizing a with
  | nil => rfl
  | cons p sets ih => exact ih.trans (Column.write_email p.2)

theorem keyless_assign : Table.Keyless (assign sets) where
  id_eq _ := assign_id
  clash_eq a b := by
    change ((assign sets a).email == b.email) = (a.email == b.email)
    rw [assign_email]

/-- A column nothing is assigned to stays. -/
theorem get_assign_of_notMem {c : Column} (h : ∀ p ∈ sets, p.1 ≠ c) :
    c.get (assign sets a) = c.get a := by
  induction sets generalizing a with
  | nil => rfl
  | cons p sets ih =>
    have hrest := ih (a := p.1.write p.2 a) fun q hq => h q (List.mem_cons_of_mem p hq)
    exact hrest.trans (Column.get_write_of_ne (h p List.mem_cons_self).symm p.2)

/-- A column assigned to once has the value. -/
theorem get_assign_of_mem (hnodup : (sets.map Sigma.fst).Nodup) {p : Assignment} (hp : p ∈ sets)
    (hstorable : p.1.storable p.2 = true) : p.1.get (assign sets a) = p.2 := by
  induction sets generalizing a with
  | nil => cases hp
  | cons q sets ih =>
    rw [List.map_cons, List.nodup_cons] at hnodup
    rcases List.mem_cons.mp hp with rfl | hp
    · have hrest : ∀ r ∈ sets, r.1 ≠ p.1 := fun r hr heq =>
        hnodup.1 (heq ▸ List.mem_map_of_mem hr)
      exact (get_assign_of_notMem hrest).trans (Column.get_write hstorable)
    · exact ih hnodup.2 hp

theorem nodup_assignments : ((assignments fields).map Sigma.fst).Nodup := by
  refine nodup_allowed.sublist ?_
  rw [assignments, List.map_filterMap]
  have hfst : ∀ c, ((fields c).val.map fun v => (⟨c, v⟩ : Assignment)).map Sigma.fst =
      (fields c).val.map fun _ => c := by
    intro c
    cases (fields c).val <;> rfl
  simp only [hfst]
  induction allowed with
  | nil => exact .slnil
  | cons c l ih =>
    rw [List.filterMap_cons]
    cases (fields c).val with
    | none => exact ih.cons c
    | some v => exact ih.cons_cons c

/-- The columns in `fields` have the values given, if the server takes them. -/
theorem get_assign_given (hstorable : ∀ p ∈ assignments fields, p.1.storable p.2 = true)
    {c : Column} {v : Option c.Value} (h : (fields c).val = some v) :
    c.get (assign (assignments fields) a) = v :=
  have hmem : (⟨c, v⟩ : Assignment) ∈ assignments fields := mem_assignments.mpr h
  get_assign_of_mem nodup_assignments hmem (hstorable _ hmem)

/-- The others are as they were. -/
theorem get_assign_kept {c : Column} (h : (fields c).val = none) :
    c.get (assign (assignments fields) a) = c.get a := by
  refine get_assign_of_notMem fun p hp heq => ?_
  subst heq
  rw [mem_assignments, h] at hp
  cases hp

/-- The loop and the record say the same. -/
theorem assign_assignments (hstorable : ∀ p ∈ assignments fields, p.1.storable p.2 = true) :
    assign (assignments fields) a = (accountFields fields).apply a := by
  have hplan : (accountFields fields).planName ≠ some none := fun h =>
    Bool.false_ne_true (hstorable ⟨.planName, none⟩ (mem_assignments.mpr h))
  refine Column.ext_get assign_id assign_email fun c => ?_
  cases hval : (fields c).val with
  | none =>
    rw [get_assign_kept hval]
    cases c <;> simp_all [Column.get, AccountFields.apply, accountFields]
  | some v =>
    rw [get_assign_given hstorable hval]
    cases c with
    | planName =>
      cases v with
      | none => exact absurd hval hplan
      | some v => simp_all [Column.get, AccountFields.apply, accountFields]
    | _ => simp_all [Column.get, AccountFields.apply, accountFields]

end Assign

/-! ### The statements -/

/-- The database, with the times of the rows of `billing_accounts` and `tenants` by their id. -/
structure Stored where
  db : Db
  accountCreatedAt : Nat → Time
  accountUpdatedAt : Nat → Time
  tenantUpdatedAt : Nat → Time

/-- `ON UPDATE CURRENT_TIMESTAMP`: the time of a row changes when the row does. -/
def touched {ρ : Type} [Row ρ] [DecidableEq ρ] (T : Table ρ) (p : ρ → Bool) (f : ρ → ρ)
    (now : Time) (times : Nat → Time) (id : Nat) : Time :=
  if (T.byId id).any fun r => p r && f r ≠ r then now else times id

theorem touched_of_not {ρ : Type} [Row ρ] [DecidableEq ρ] {T : Table ρ} {p : ρ → Bool} {r : ρ}
    (hr : r ∈ T) (hp : p r = false) (f : ρ → ρ) (now : Time) (times : Nat → Time) :
    touched T p f now times (Row.id r) = times (Row.id r) := by
  rw [touched, Table.byId_id hr]
  simp [hp]

namespace Stored

/-- `INSERT IGNORE INTO billing_accounts (email, plan_name) VALUES (?, 'free')`. With `IGNORE`,
a text too long for the column is cut. -/
def insertIgnore (now : Time) (email : String) (s : Stored) : Stored :=
  let column := sliceTo 190 email
  if (accountRow s.db column).isSome then s
  else
    { s with
      db := insertIgnoreAccount s.db column
      accountCreatedAt := Function.update s.accountCreatedAt s.db.billingAccounts.next now
      accountUpdatedAt := Function.update s.accountUpdatedAt s.db.billingAccounts.next now }

/-- `UPDATE billing_accounts SET … WHERE email = ?`; `none` when a value does not fit. -/
def updateAccount (now : Time) (sets : List Assignment) (email : String) (s : Stored) :
    Option Stored :=
  if (accountRow s.db email).isSome && !sets.all (fun p => p.1.storable p.2) then none
  else some
    { s with
      db := { s.db with
        billingAccounts := s.db.billingAccounts.update (·.email == email) (assign sets)
          keyless_assign }
      accountUpdatedAt := touched s.db.billingAccounts (·.email == email) (assign sets) now
        s.accountUpdatedAt }

/-- `UPDATE tenants t JOIN users u … SET …`. -/
def updateTenants (now : Time) (email : String) (columns : PlanColumns) (s : Stored) : Stored :=
  { s with
    db := { s.db with
      tenants := s.db.tenants.update (fun t => t.isActive && ownsTenant s.db email t.id)
        fun t => t.setPlan columns }
    tenantUpdatedAt := touched s.db.tenants (fun t => t.isActive && ownsTenant s.db email t.id)
      (fun t => t.setPlan columns) now s.tenantUpdatedAt }

end Stored

/-- What a call sends to the server, in order. -/
inductive Statement where
  | connect
  | begin
  | insertIgnore
  | update
  | select
  | mirror
  | commit
  deriving DecidableEq, Repr

/-- Which statements fail, and when each is run. -/
structure Server where
  fails : Statement → Bool := fun _ => false
  now : Statement → Time

variable (server : Server) (email : String) (fields : Fields)

def mirrorAccountToTenants : Prog (Session Stored) Failure Unit := do
  let acct ← Session.statement .error (server.fails .select) fun s => some (accountOf s.db email, s)
  Session.statement .error (server.fails .mirror) fun s =>
    some ((), s.updateTenants (server.now .mirror) email acct.mirrored)

/-- The `UPDATE` of the columns in `fields`, if there are any. -/
def updateGiven : Prog (Session Stored) Failure Unit :=
  if assignments fields = [] then pure ()
  else Session.statement .error (server.fails .update) fun s =>
    (s.updateAccount (server.now .update) (assignments fields) email).map ((), ·)

/-- What `setAccountPlan` runs between `beginTransaction` and `commit`. -/
def writeAccount : Prog (Session Stored) Failure Unit := do
  Session.statement .error (server.fails .insertIgnore) fun s =>
    some ((), s.insertIgnore (server.now .insertIgnore) email)
  updateGiven server email fields
  mirrorAccountToTenants server email

/-- `pool.getConnection()`. -/
def getConnection : Prog (Session Stored) Failure Unit :=
  Prog.attempt .error fun s => if server.fails .connect then none else some ((), s)

/-- `setAccountPlan` without an outer connection. -/
def setAccountPlan : Prog (Session Stored) Failure Unit :=
  if email = "" then throw .error
  else do
    getConnection server
    Session.transaction .error (server.fails .begin) (server.fails .commit)
      (writeAccount server email fields)

/-- The statements of a call. -/
def statements : List Statement :=
  [.connect, .begin, .insertIgnore] ++ (if assignments fields = [] then [] else [.update]) ++
    [.select, .mirror, .commit]

/-! ### What a call leaves behind -/

/-- The call has written the account's row `a` and the workspaces the account owns, each with
what it was given, and nothing else. -/
structure Written (s t : Stored) (a : BillingAccount) : Prop where
  mem : a ∈ t.db.billingAccounts
  email_eq : a.email = email
  given : ∀ c v, (fields c).val = some v → c.get a = v
  kept : ∀ c, (fields c).val = none →
    c.get a = c.get ((accountRow s.db email).getD (freeAccount email))
  same : ∀ b ∈ s.db.billingAccounts, b.email = email →
    a.id = b.id ∧ t.accountCreatedAt a.id = s.accountCreatedAt b.id
  mirrored : ∀ u ∈ t.db.tenants, u.isActive = true → ownsTenant t.db email u.id = true →
    u.toPlanColumns = a.mirrored ∧ u.stripeCustomerId = none ∧ u.stripeSubscriptionId = none
  owned : ∀ u ∈ s.db.tenants, u.isActive = true → ownsTenant s.db email u.id = true →
    u.setPlan a.mirrored ∈ t.db.tenants
  otherTenants : ∀ u, ¬ (u.isActive = true ∧ ownsTenant s.db email u.id = true) →
    (u ∈ t.db.tenants ↔ u ∈ s.db.tenants) ∧
      (u ∈ s.db.tenants → t.tenantUpdatedAt u.id = s.tenantUpdatedAt u.id)
  otherAccounts : ∀ b, b.email ≠ email →
    (b ∈ t.db.billingAccounts ↔ b ∈ s.db.billingAccounts) ∧
      (b ∈ s.db.billingAccounts → t.accountCreatedAt b.id = s.accountCreatedAt b.id ∧
        t.accountUpdatedAt b.id = s.accountUpdatedAt b.id)
  rest : { t.db with tenants := s.db.tenants, billingAccounts := s.db.billingAccounts } = s.db

/-- `updated_at` of the account's row is as before, when the row is not new. -/
def KeepsUpdatedAt (s t : Stored) : Prop :=
  ∀ b ∈ s.db.billingAccounts, b.email = email → t.accountUpdatedAt b.id = s.accountUpdatedAt b.id

/-- A statement of the call fails: the server says so, or it does not take a value. -/
def StatementFails : Prop :=
  (∃ st ∈ statements fields, server.fails st = true) ∨
    email.length ≤ 190 ∧ ∃ p ∈ assignments fields, p.1.storable p.2 = false

/-! ### Running a call -/

variable {server email fields}

theorem within_writeAccount :
    Prog.Within Session.Contained (writeAccount server email fields) := by
  have hupdate : Prog.Within Session.Contained (updateGiven server email fields) :=
    Prog.Within.ite (Prog.Within.pure _) (Session.within_statement _ _ _)
  have hmirror : Prog.Within Session.Contained (mirrorAccountToTenants server email) :=
    Prog.Within.bind (Session.within_statement _ _ _) fun _ => Session.within_statement _ _ _
  exact Prog.Within.bind (Session.within_statement _ _ _) fun _ =>
    Prog.Within.bind hupdate fun _ => hmirror

/-- What the `UPDATE` of the columns in `fields` makes of the transaction's copy. -/
def Updates (server : Server) (email : String) (fields : Fields) (s t : Stored) : Prop :=
  if assignments fields = [] then t = s
  else server.fails .update = false ∧
    s.updateAccount (server.now .update) (assignments fields) email = some t

/-- What the mirror makes of it. -/
def mirror (server : Server) (email : String) (s : Stored) : Stored :=
  s.updateTenants (server.now .mirror) email (accountOf s.db email).mirrored

theorem exec_updateGiven_ok_iff {x y : Stored} {t : Session Stored} :
    (updateGiven server email fields).exec ⟨x, some y⟩ = (.ok (), t) ↔
      ∃ u, Updates server email fields y u ∧ t = ⟨x, some u⟩ := by
  unfold updateGiven Updates
  split
  · constructor
    · intro h
      exact ⟨y, rfl, (Prod.mk.inj h).2.symm⟩
    · rintro ⟨u, rfl, rfl⟩
      rfl
  · rw [Session.exec_statement_ok_iff]
    simp [and_assoc]

theorem exec_mirror_ok_iff {x y : Stored} {t : Session Stored} :
    (mirrorAccountToTenants server email).exec ⟨x, some y⟩ = (.ok (), t) ↔
      server.fails .select = false ∧ server.fails .mirror = false ∧
        t = ⟨x, some (mirror server email y)⟩ := by
  simp only [mirrorAccountToTenants, Prog.exec_bind_ok_iff, Session.exec_statement_ok_iff]
  constructor
  · rintro ⟨acct, _, ⟨hselect, z, hz, rfl⟩, hrun⟩
    cases hz
    obtain ⟨hmirror, z, hz, rfl⟩ := Session.exec_statement_ok_iff.mp hrun
    cases hz
    exact ⟨hselect, hmirror, rfl⟩
  · rintro ⟨hselect, hmirror, rfl⟩
    exact ⟨_, _, ⟨hselect, y, rfl, rfl⟩, Session.exec_statement_ok_iff.mpr ⟨hmirror, _, rfl, rfl⟩⟩

theorem exec_writeAccount_ok_iff {x : Stored} {t : Session Stored} :
    (writeAccount server email fields).exec ⟨x, some x⟩ = (.ok (), t) ↔
      server.fails .insertIgnore = false ∧ server.fails .select = false ∧
        server.fails .mirror = false ∧ ∃ u,
          Updates server email fields (x.insertIgnore (server.now .insertIgnore) email) u ∧
            t = ⟨x, some (mirror server email u)⟩ := by
  simp only [writeAccount, Prog.exec_bind_ok_iff, Session.exec_statement_ok_iff]
  constructor
  · rintro ⟨⟨⟩, _, ⟨hinsert, z, hz, rfl⟩, ⟨⟩, _, hupdate, hrun⟩
    cases hz
    obtain ⟨u, hu, rfl⟩ := exec_updateGiven_ok_iff.mp hupdate
    obtain ⟨hselect, hmirror, rfl⟩ := exec_mirror_ok_iff.mp hrun
    exact ⟨hinsert, hselect, hmirror, u, hu, rfl⟩
  · rintro ⟨hinsert, hselect, hmirror, u, hu, rfl⟩
    exact ⟨(), _, ⟨hinsert, _, rfl, rfl⟩, (), _, exec_updateGiven_ok_iff.mpr ⟨u, hu, rfl⟩,
      exec_mirror_ok_iff.mpr ⟨hselect, hmirror, rfl⟩⟩

/-- The call returns exactly when none of its statements fails. -/
theorem exec_setAccountPlan_ok_iff {s : Stored} {t : Session Stored} :
    (setAccountPlan server email fields).exec ⟨s, none⟩ = (.ok (), t) ↔
      email ≠ "" ∧ (∀ st ∈ [Statement.connect, .begin, .insertIgnore, .select, .mirror, .commit],
        server.fails st = false) ∧
      ∃ u, Updates server email fields (s.insertIgnore (server.now .insertIgnore) email) u ∧
        t = ⟨mirror server email u, none⟩ := by
  have hconnect : ∀ t' : Session Stored,
      (getConnection server).exec ⟨s, none⟩ = (.ok (), t') ↔
        server.fails .connect = false ∧ t' = ⟨s, none⟩ := by
    intro t'
    rw [getConnection, Prog.exec_attempt]
    cases server.fails .connect <;> simp [eq_comm]
  unfold setAccountPlan
  split
  · rename_i hempty
    simp [hempty]
  · rename_i hne
    simp only [Prog.exec_bind_ok_iff, hconnect, List.forall_mem_cons]
    constructor
    · rintro ⟨⟨⟩, _, ⟨hc, rfl⟩, hrun⟩
      obtain ⟨hbegin, hcommit, y, hwrite, rfl⟩ :=
        (Session.exec_transaction_ok_iff within_writeAccount).mp hrun
      obtain ⟨hinsert, hselect, hmirror, u, hu, hy⟩ := exec_writeAccount_ok_iff.mp hwrite
      cases hy
      exact ⟨hne, ⟨hc, hbegin, hinsert, hselect, hmirror, hcommit, nofun⟩, u, hu, rfl⟩
    · rintro ⟨-, ⟨hc, hbegin, hinsert, hselect, hmirror, hcommit, -⟩, u, hu, rfl⟩
      have hwrite := exec_writeAccount_ok_iff.mpr ⟨hinsert, hselect, hmirror, u, hu, rfl⟩
      exact ⟨(), _, ⟨hc, rfl⟩, (Session.exec_transaction_ok_iff within_writeAccount).mpr
        ⟨hbegin, hcommit, _, hwrite, rfl⟩⟩

/-- When the call rejects, nothing has been committed. -/
theorem exec_setAccountPlan_error {s : Stored} {t : Session Stored} {e : Failure}
    (h : (setAccountPlan server email fields).exec ⟨s, none⟩ = (.error e, t)) : t = ⟨s, none⟩ := by
  unfold setAccountPlan at h
  split at h
  · exact (Prod.mk.inj h).2.symm
  · rw [Prog.exec_bind, getConnection, Prog.exec_attempt] at h
    cases hfails : server.fails .connect with
    | true =>
      rw [hfails] at h
      exact (Prod.mk.inj h).2.symm
    | false =>
      rw [hfails] at h
      exact Session.exec_transaction_error within_writeAccount h

/-! ### The statements and the one action -/

variable {s t : Stored}

theorem sliceTo_of_le {n : Nat} {x : String} (h : x.length ≤ n) : sliceTo n x = x := by
  rw [sliceTo, List.take_of_length_le (by rwa [String.length_toList]), String.ofList_toList]

theorem insertIgnoreAccount_of_isSome {db : Db} (h : (accountRow db email).isSome = true) :
    insertIgnoreAccount db email = db := by
  obtain ⟨b, hb⟩ := Option.isSome_iff_exists.mp h
  obtain ⟨hmem, hemail⟩ := accountRow_eq_some_iff.mp hb
  have hclash : Row.clash b ({ id := db.billingAccounts.next, email := email } : BillingAccount)
      = true := by simpa [Row.clash] using hemail
  unfold insertIgnoreAccount
  rw [Table.insert?_eq_none_iff.mpr ⟨b, hmem, hclash⟩]
  rfl

theorem db_insertIgnore (hfits : email.length ≤ 190) (now : Time) :
    (s.insertIgnore now email).db = insertIgnoreAccount s.db email := by
  unfold Stored.insertIgnore
  rw [sliceTo_of_le hfits]
  dsimp only
  split
  · rw [insertIgnoreAccount_of_isSome ‹_›]
  · rfl

/-- What the server has taken, when the account has a row. -/
theorem Updates.storable (h : Updates server email fields s t)
    (hrow : (accountRow s.db email).isSome = true) :
    ∀ p ∈ assignments fields, p.1.storable p.2 = true := by
  unfold Updates at h
  split at h
  · rename_i hnil
    rw [hnil]
    nofun
  · obtain ⟨-, h⟩ := h
    unfold Stored.updateAccount at h
    rw [hrow] at h
    split at h
    · cases h
    · rename_i hall
      intro p hp
      simp only [Bool.true_and, Bool.not_eq_true, Bool.not_eq_false'] at hall
      exact List.all_eq_true.mp hall p hp

/-- The rows after the `UPDATE`. -/
theorem Updates.db_eq (h : Updates server email fields s t)
    (hstorable : ∀ p ∈ assignments fields, p.1.storable p.2 = true) :
    t.db = { s.db with
      billingAccounts := s.db.billingAccounts.update (·.email == email)
        (accountFields fields).apply } := by
  have hassign : assign (assignments fields) = (accountFields fields).apply :=
    funext fun a => assign_assignments hstorable
  have htable : s.db.billingAccounts.update (·.email == email) (accountFields fields).apply =
      s.db.billingAccounts.update (·.email == email) (assign (assignments fields))
        keyless_assign :=
    Table.ext (by rw [Table.rows_update, Table.rows_update, hassign]) rfl
  unfold Updates at h
  split at h
  · rename_i hnil
    subst h
    rw [htable, Table.update_eq_self]
    intro r _ _
    rw [hnil]
    rfl
  · obtain ⟨-, h⟩ := h
    unfold Stored.updateAccount at h
    split at h
    · cases h
    · cases h
      rw [htable]

theorem Updates.times (h : Updates server email fields s t) :
    t.accountCreatedAt = s.accountCreatedAt ∧ t.tenantUpdatedAt = s.tenantUpdatedAt ∧
      ∀ b ∈ s.db.billingAccounts, b.email ≠ email →
        t.accountUpdatedAt b.id = s.accountUpdatedAt b.id := by
  unfold Updates at h
  split at h
  · subst h
    exact ⟨rfl, rfl, fun _ _ _ => rfl⟩
  · obtain ⟨-, h⟩ := h
    unfold Stored.updateAccount at h
    split at h
    · cases h
    · cases h
      exact ⟨rfl, rfl, fun b hb hne => touched_of_not hb (by simpa using hne) _ _ _⟩

/-! ### A call that resolves -/

theorem insertIgnore_times (hfits : email.length ≤ 190) (now : Time) :
    (s.insertIgnore now email).tenantUpdatedAt = s.tenantUpdatedAt ∧
      ∀ b ∈ s.db.billingAccounts,
        (s.insertIgnore now email).accountCreatedAt b.id = s.accountCreatedAt b.id ∧
          (s.insertIgnore now email).accountUpdatedAt b.id = s.accountUpdatedAt b.id := by
  unfold Stored.insertIgnore
  rw [sliceTo_of_le hfits]
  dsimp only
  split
  · exact ⟨rfl, fun _ _ => ⟨rfl, rfl⟩⟩
  · refine ⟨rfl, fun b hb => ?_⟩
    -- the new row has an id of its own
    have hne : b.id ≠ s.db.billingAccounts.next := Nat.ne_of_lt (s.db.billingAccounts.id_lt b hb)
    exact ⟨Function.update_of_ne hne _ _, Function.update_of_ne hne _ _⟩

/-- The account's row after the call. -/
def writtenRow (email : String) (fields : Fields) (s : Stored) : BillingAccount :=
  (accountFields fields).apply (ensuredAccount s.db email)

section Resolved

variable {now : Time} (hfits : email.length ≤ 190)
  (h : Updates server email fields (s.insertIgnore now email) t)
include hfits h

theorem Updates.given_storable : ∀ p ∈ assignments fields, p.1.storable p.2 = true := by
  refine h.storable ?_
  rw [db_insertIgnore hfits, accountRow_insertIgnoreAccount, if_pos rfl]
  rfl

/-- On the database, a call that resolves is the one action. -/
theorem Updates.setAccountPlanTx_eq :
    setAccountPlanTx email (accountFields fields) s.db = some (mirror server email t).db := by
  have hstorable := h.given_storable hfits
  have hplan : (accountFields fields).planName ≠ some none := fun hnull =>
    Bool.false_ne_true (hstorable ⟨.planName, none⟩ (mem_assignments.mpr hnull))
  have hdb := h.db_eq hstorable
  rw [db_insertIgnore hfits] at hdb
  rw [setAccountPlanTx, if_neg hplan]
  dsimp only
  rw [← hdb]
  rfl

/-- The row has the values given, and what it held in its other columns. -/
theorem Updates.get_writtenRow (c : Column) :
    (∀ v, (fields c).val = some v → c.get (writtenRow email fields s) = v) ∧
      ((fields c).val = none → c.get (writtenRow email fields s) =
        c.get ((accountRow s.db email).getD (freeAccount email))) := by
  have hstorable := h.given_storable hfits
  rw [writtenRow, ← assign_assignments hstorable]
  refine ⟨fun v hv => get_assign_given hstorable hv, fun hnone => ?_⟩
  rw [get_assign_kept hnone, ensuredAccount]
  cases accountRow s.db email with
  | none => cases c <;> rfl
  | some b => rfl

theorem Updates.accountOf_mirror (hne : email ≠ "") :
    accountOf (mirror server email t).db email = writtenRow email fields s := by
  rw [accountOf_of_ne hne, accountRow_setAccountPlanTx (h.setAccountPlanTx_eq hfits)]
  rfl

theorem Updates.mem_tenants_mirror (hne : email ≠ "") {u : Tenant} :
    u ∈ (mirror server email t).db.tenants ↔ ∃ v ∈ s.db.tenants,
      u = if v.isActive && ownsTenant s.db email v.id then
        v.setPlan (writtenRow email fields s).mirrored else v := by
  rw [mem_tenants_setAccountPlanTx (h.setAccountPlanTx_eq hfits), h.accountOf_mirror hfits hne]

theorem Updates.ownsTenant_mirror (id : Nat) :
    ownsTenant (mirror server email t).db email id = ownsTenant s.db email id := by
  unfold ownsTenant
  rw [users_setAccountPlanTx (h.setAccountPlanTx_eq hfits)]

/-- The times of the other rows. -/
theorem Updates.times_mirror :
    (∀ u ∈ s.db.tenants, ¬ (u.isActive = true ∧ ownsTenant s.db email u.id = true) →
      (mirror server email t).tenantUpdatedAt u.id = s.tenantUpdatedAt u.id) ∧
    (∀ b ∈ s.db.billingAccounts,
      (mirror server email t).accountCreatedAt b.id = s.accountCreatedAt b.id) ∧
    ∀ b ∈ s.db.billingAccounts, b.email ≠ email →
      (mirror server email t).accountUpdatedAt b.id = s.accountUpdatedAt b.id := by
  obtain ⟨hcreated, htenants, hupdated⟩ := h.times
  obtain ⟨htenants', haccounts⟩ := insertIgnore_times (s := s) hfits now
  have hdb := h.db_eq (h.given_storable hfits)
  rw [db_insertIgnore hfits] at hdb
  refine ⟨fun u hu hnot => ?_, fun b hb => ?_, fun b hb hne => ?_⟩
  · have hmem : u ∈ t.db.tenants := by rw [hdb]; exact hu
    have hout : (u.isActive && ownsTenant t.db email u.id) = false := by
      rw [hdb]
      exact Bool.eq_false_iff.mpr fun hin => hnot (Bool.and_eq_true_iff.mp hin)
    exact (touched_of_not hmem hout _ _ _).trans (congrFun (htenants.trans htenants') _)
  · exact (congrFun hcreated _).trans (haccounts b hb).1
  · have hmem : b ∈ (s.insertIgnore now email).db.billingAccounts := by
      rw [db_insertIgnore hfits]
      exact mem_insertIgnoreAccount.mpr (.inl hb)
    exact (hupdated b hmem hne).trans (haccounts b hb).2

theorem written_of_updates (hne : email ≠ "") :
    Written email fields s (mirror server email t) (writtenRow email fields s) := by
  have htx := h.setAccountPlanTx_eq hfits
  obtain ⟨htenants, hcreated, hupdated⟩ := h.times_mirror hfits
  have hrow := accountRow_eq_some_iff.mp (accountRow_setAccountPlanTx htx)
  constructor
  case mem => exact hrow.1
  case email_eq => exact hrow.2
  case given => exact fun c => (h.get_writtenRow hfits c).1
  case kept => exact fun c => (h.get_writtenRow hfits c).2
  -- an account that was there before keeps its id and its time of creation
  case same =>
    intro b hb hemail
    have hid : (writtenRow email fields s).id = b.id := by
      change (ensuredAccount s.db email).id = b.id
      rw [ensuredAccount, accountRow_eq_some_iff.mpr ⟨hb, hemail⟩]
      rfl
    exact ⟨hid, hid ▸ hcreated b hb⟩
  case mirrored =>
    intro u hu hactive howns
    obtain ⟨v, hv, rfl⟩ := (h.mem_tenants_mirror hfits hne).mp hu
    rw [h.ownsTenant_mirror hfits] at howns
    split
    · exact ⟨rfl, rfl, rfl⟩
    · rename_i hnot
      rw [if_neg hnot] at hactive howns
      exact absurd (Bool.and_eq_true_iff.mpr ⟨hactive, howns⟩) hnot
  case owned =>
    intro u hu hactive howns
    refine (h.mem_tenants_mirror hfits hne).mpr ⟨u, hu, ?_⟩
    rw [if_pos (Bool.and_eq_true_iff.mpr ⟨hactive, howns⟩)]
  -- a workspace that is inactive, or of another owner, is no row of the mirror
  case otherTenants =>
    intro u hnot
    have hfalse : (u.isActive && ownsTenant s.db email u.id) ≠ true := fun hin =>
      hnot (Bool.and_eq_true_iff.mp hin)
    refine ⟨?_, fun hu => htenants u hu hnot⟩
    rw [h.mem_tenants_mirror hfits hne]
    constructor
    · rintro ⟨v, hv, rfl⟩
      by_cases hin : (v.isActive && ownsTenant s.db email v.id) = true
      · rw [if_pos hin] at hfalse
        exact absurd hin hfalse
      · rwa [if_neg hin]
    · intro hu
      exact ⟨u, hu, (if_neg hfalse).symm⟩
  case otherAccounts =>
    intro b hb
    refine ⟨?_, fun hmem => ⟨hcreated b hmem, hupdated b hmem hb⟩⟩
    rw [mem_billingAccounts_setAccountPlanTx htx]
    constructor
    · rintro (⟨hmem, -⟩ | rfl)
      · exact hmem
      · exact absurd hrow.2 hb
    · exact fun hmem => .inl ⟨hmem, hb⟩
  case rest =>
    obtain ⟨accounts, heq⟩ := setAccountPlanTx_eq_mirror htx
    rw [heq]
    rfl

end Resolved

/-! ### All or nothing -/

theorem not_statementFails_of_ok {r : Session Stored}
    (hrun : (setAccountPlan server email fields).exec ⟨s, none⟩ = (.ok (), r)) :
    ¬ StatementFails server email fields := by
  obtain ⟨-, hnone, t, hupdates, -⟩ := exec_setAccountPlan_ok_iff.mp hrun
  rintro (⟨st, hst, hfails⟩ | ⟨hfits, p, hp, hrefused⟩)
  · cases st with
    | update =>
      -- the statement is only sent when there is something to set
      unfold statements at hst
      unfold Updates at hupdates
      split at hupdates
      · rename_i hnil
        rw [if_pos hnil] at hst
        revert hst
        decide
      · exact Bool.false_ne_true (hupdates.1.symm.trans hfails)
    | _ => exact Bool.false_ne_true ((hnone _ (by decide)).symm.trans hfails)
  · exact Bool.false_ne_true (hrefused.symm.trans (hupdates.given_storable hfits p hp))

/-- A call that resolves has written what it was given and nothing else. A call of which a
statement fails rejects, and one that rejects leaves the database as it was. -/
theorem setAccountPlan_atomic (server : Server) (email : String) (fields : Fields) (s : Stored) :
    (∀ t, (setAccountPlan server email fields).exec ⟨s, none⟩ = (.ok (), t) →
      email.length ≤ 190 → ∃ a, Written email fields s t.committed a) ∧
    (StatementFails server email fields →
      ∃ e, (setAccountPlan server email fields).exec ⟨s, none⟩ = (.error e, ⟨s, none⟩)) ∧
    ∀ e t, (setAccountPlan server email fields).exec ⟨s, none⟩ = (.error e, t) → t = ⟨s, none⟩ := by
  refine ⟨fun t hrun hfits => ?_, fun hfails => ?_, fun e t => exec_setAccountPlan_error⟩
  · obtain ⟨hne, -, u, hupdates, rfl⟩ := exec_setAccountPlan_ok_iff.mp hrun
    exact ⟨_, written_of_updates hfits hupdates hne⟩
  · rcases hrun : (setAccountPlan server email fields).exec ⟨s, none⟩ with ⟨e | ⟨⟩, t⟩
    · exact ⟨e, by rw [exec_setAccountPlan_error hrun]⟩
    · exact absurd hfails (not_statementFails_of_ok hrun)

theorem resolves_of_storable (hne : email ≠ "")
    (hok : ∀ st ∈ statements fields, server.fails st = false)
    (hstorable : (assignments fields).all (fun p => p.1.storable p.2) = true) :
    ∃ t, (setAccountPlan server email fields).exec ⟨s, none⟩ = (.ok (), t) := by
  have hupdates : ∃ t, Updates server email fields
      (s.insertIgnore (server.now .insertIgnore) email) t := by
    unfold Updates
    by_cases hnil : assignments fields = []
    · simp [hnil]
    · have hupdate : server.fails .update = false := hok .update (by simp [statements, hnil])
      simp [hnil, hupdate, Stored.updateAccount, hstorable]
  obtain ⟨t, ht⟩ := hupdates
  refine ⟨_, exec_setAccountPlan_ok_iff.mpr ⟨hne, fun st hst => hok st ?_, t, ht, rfl⟩⟩
  simp only [statements, List.mem_append, List.mem_cons] at hst ⊢
  tauto

/-- A call for an email that fits resolves unless one of its statements fails. -/
theorem resolves_of_not_statementFails (hne : email ≠ "") (hfits : email.length ≤ 190)
    (hnot : ¬ StatementFails server email fields) :
    ∃ t, (setAccountPlan server email fields).exec ⟨s, none⟩ = (.ok (), t) := by
  refine resolves_of_storable hne (fun st hst => ?_) (List.all_eq_true.mpr fun p hp => ?_)
  · exact Bool.eq_false_iff.mpr fun hfails => hnot (.inl ⟨st, hst, hfails⟩)
  · by_contra hrefused
    exact hnot (.inr ⟨hfits, p, hp, Bool.eq_false_iff.mpr hrefused⟩)

/-! ### `updated_at`, and an email that does not fit -/

/-- `INSERT IGNORE` cuts an email that is too long, so that no row has it. -/
theorem email_ne_of_long (hlong : 190 < email.length)
    (hshort : ∀ a ∈ s.db.billingAccounts, a.email.length ≤ 190) {now : Time}
    (h : Updates server email fields (s.insertIgnore now email) t) :
    ∀ a ∈ (mirror server email t).db.billingAccounts, a.email ≠ email := by
  have hcut : (sliceTo 190 email).length ≤ 190 := by
    rw [sliceTo, ← String.length_toList, String.toList_ofList]
    exact (List.length_take_le ..)
  have hinserted : ∀ a ∈ (s.insertIgnore now email).db.billingAccounts, a.email.length ≤ 190 := by
    intro a ha
    unfold Stored.insertIgnore at ha
    dsimp only at ha
    split at ha
    · exact hshort a ha
    · rcases mem_insertIgnoreAccount.mp ha with ha | rfl
      · exact hshort a ha
      · rwa [ensuredAccount_email]
  intro a ha heq
  -- the update renames no account
  have hmem : ∃ b ∈ (s.insertIgnore now email).db.billingAccounts, b.email = a.email := by
    change a ∈ t.db.billingAccounts at ha
    unfold Updates at h
    split at h
    · subst h
      exact ⟨a, ha, rfl⟩
    · obtain ⟨-, h⟩ := h
      unfold Stored.updateAccount at h
      split at h
      · cases h
      · cases h
        simp only [Table.mem_update] at ha
        obtain ⟨b, hb, rfl⟩ := ha
        refine ⟨b, hb, ?_⟩
        split
        · exact assign_email.symm
        · rfl
  obtain ⟨b, hb, hemail⟩ := hmem
  have hle := hinserted b hb
  rw [hemail, heq] at hle
  omega

/-- `{ plan_name: "pro" }`. -/
def toPro : Fields
  | .planName => .value "pro"
  | _ => .absent

/-- A server on which everything goes well, at the ninth second. -/
def Server.ninth : Server where
  now _ := 9

/-- One free account, written at the start. -/
def adaStored : Stored where
  db := insertIgnoreAccount {} "ada@example.com"
  accountCreatedAt _ := 0
  accountUpdatedAt _ := 0
  tenantUpdatedAt _ := 0

/-- An email of 203 characters. -/
def longEmail : String := String.ofList (List.replicate 191 'a' ++ "@example.com".toList)

theorem length_longEmail : 190 < longEmail.length := by
  have hlist : longEmail.toList = List.replicate 191 'a' ++ "@example.com".toList :=
    String.toList_ofList
  rw [← String.length_toList, hlist, List.length_append, List.length_replicate]
  exact Nat.lt_add_right _ (by decide)

/-- Writing a plan moves `updated_at`; and a call for an email of 203 characters resolves
though the account gets no row. -/
theorem resolved_call_moves_updated_at_and_cuts_email :
    (∃ t, (setAccountPlan .ninth "ada@example.com" toPro).exec ⟨adaStored, none⟩ = (.ok (), t) ∧
      ¬ KeepsUpdatedAt "ada@example.com" adaStored t.committed) ∧
    ∃ t, (setAccountPlan .ninth longEmail toPro).exec ⟨adaStored, none⟩ = (.ok (), t) ∧
      ¬ ∃ a, Written longEmail toPro adaStored t.committed a := by
  have hrow : adaStored.db.billingAccounts.rows = [{ id := 1, email := "ada@example.com" }] := by
    decide +kernel
  constructor
  · -- the stored columns are as asked for, and the time of the update still moves
    let r := (setAccountPlan .ninth "ada@example.com" toPro).exec ⟨adaStored, none⟩
    have hok : r.1.toOption = some () := by decide +kernel
    have htime : r.2.committed.accountUpdatedAt 1 = 9 := by decide +kernel
    refine ⟨r.2, ?_, fun hkeeps => ?_⟩
    · rcases hr : r with ⟨e | ⟨⟩, t⟩
      · rw [hr] at hok
        cases hok
      · exact hr
    · have hsame := hkeeps { id := 1, email := "ada@example.com" }
        (Table.mem_def.mpr (hrow ▸ List.mem_cons_self)) rfl
      rw [htime] at hsame
      cases hsame
  · -- the insert is cut to the column, and the update finds nothing under the whole address
    have hne : longEmail ≠ "" := fun hempty =>
      absurd (hempty ▸ length_longEmail) (by decide)
    have hresolves : ∃ t,
        (setAccountPlan .ninth longEmail toPro).exec ⟨adaStored, none⟩ = (.ok (), t) :=
      resolves_of_storable hne (fun _ _ => rfl) (by decide +kernel)
    obtain ⟨t, ht⟩ := hresolves
    refine ⟨t, ht, fun ⟨a, ha⟩ => ?_⟩
    obtain ⟨-, -, u, hupdates, rfl⟩ := exec_setAccountPlan_ok_iff.mp ht
    have hshort : ∀ a ∈ adaStored.db.billingAccounts, a.email.length ≤ 190 := by
      intro a ha
      rw [Table.mem_def, hrow, List.mem_singleton] at ha
      rw [ha]
      decide
    exact email_ne_of_long (s := adaStored) length_longEmail hshort hupdates a ha.mem ha.email_eq

end Feedbase.AccountWrites
