import Feedbase.Billing.StripeEvents

/-!
# When Stripe's pending markers are cleared

A scheduled change is noted in the three `pending_*` columns until it takes effect. Two
functions clear them: `reconcileAccount` on the account, and the older
`reconcileTenantSubscription` on one workspace. Both compare the plan they have just written
with the pending plan, and neither looks at the interval.

## Main definitions

* `reconcileTenantSubscription`
* `ChangeIsOver` — the markers may go
* `ClearsEarly` — they go although they should not

## Main results

* `markersHonoured_iff`
-/

namespace Feedbase

open Sql

variable {cfg : Config} {w : World} {email : String} {tenantId : Nat} {sub : StripeSub}

/-! ### The workspace's own reconciliation -/

/-- `WHERE id = ?` if the metadata names a workspace, else `WHERE stripe_customer_id = ?`. -/
def StripeSub.tenantFilter (sub : StripeSub) : Option (Tenant → Bool) :=
  match sub.tenantId with
  | some id => some fun t => t.id == id
  | none => (orNull sub.customer).map fun customerId t => t.stripeCustomerId == some customerId

/-- The interval a subscription stands for. -/
def StripeSub.interval (sub : StripeSub) : Option Interval :=
  if sub.status.isActive then some (if sub.isYearly then .year else .month) else none

/-- The row after `applySubscription`. -/
def Tenant.subscribed (env : Env) (sub : StripeSub) (t : Tenant) : Tenant :=
  { t with
    planName := sub.planName env
    subscriptionStatus := some sub.status.text
    billingInterval := sub.interval
    stripeSubscriptionId := some sub.id
    currentPeriodEnd := sub.currentPeriodEnd.filter (· ≠ 0) }

/-- The row after `resetToFree`. -/
def Tenant.unsubscribed (status : Option String) (t : Tenant) : Tenant :=
  { t with
    planName := "free"
    subscriptionStatus := status
    billingInterval := none
    stripeSubscriptionId := none
    currentPeriodEnd := none }

/-- The row of a workspace whose comp has ended. -/
def Tenant.uncomped (t : Tenant) : Tenant :=
  { t with
    planName := "free"
    subscriptionStatus := none
    billingInterval := none
    currentPeriodEnd := none }

def Tenant.unmarked (t : Tenant) : Tenant :=
  { t with pendingPlan := none, pendingInterval := none, pendingEffectiveAt := none }

theorem keyless_subscribed (env : Env) (sub : StripeSub) :
    Table.Keyless (Tenant.subscribed env sub) := ⟨fun _ => rfl, fun _ _ => rfl⟩

theorem keyless_unsubscribed (status : Option String) :
    Table.Keyless (Tenant.unsubscribed status) := ⟨fun _ => rfl, fun _ _ => rfl⟩

theorem keyless_uncomped : Table.Keyless Tenant.uncomped := ⟨fun _ => rfl, fun _ _ => rfl⟩

theorem keyless_unmarked : Table.Keyless Tenant.unmarked := ⟨fun _ => rfl, fun _ _ => rfl⟩

/-- `UPDATE tenants SET … WHERE …`. -/
def updateTenants (p : Tenant → Bool) (f : Tenant → Tenant) (hf : Table.Keyless f) :
    Handler Unit :=
  update fun db => { db with tenants := db.tenants.update p f hf }

/-- `applySubscription`. -/
def applySubscription (cfg : Config) (sub : StripeSub) : Handler Unit :=
  match sub.tenantFilter with
  | none => pure ()
  | some p => updateTenants p (Tenant.subscribed cfg.env sub) (keyless_subscribed _ _)

/-- `resetToFree`; no status of Stripe is empty. -/
def resetToFree (sub : StripeSub) : Handler Unit :=
  match sub.tenantFilter with
  | none => pure ()
  | some p =>
    updateTenants p (Tenant.unsubscribed (some sub.status.text)) (keyless_unsubscribed _)

/-- The subscription has ended for good. -/
def StripeSub.isOver (sub : StripeSub) : Bool :=
  sub.status == .canceled || sub.status == .incompleteExpired

/-- Carry a workspace over to a subscription that names none. -/
def StripeSub.orTenant (sub : StripeSub) (tenantId : Nat) : StripeSub :=
  if sub.tenantId.isNone then { sub with tenantId := some tenantId } else sub

/-- `WHERE id = ? AND pending_plan IS NOT NULL AND (plan_name = pending_plan OR ? = 0)`. -/
def Tenant.clearable (tenantId : Nat) (hasSchedule : Bool) (t : Tenant) : Bool :=
  t.id == tenantId && t.pendingPlan.isSome && (some t.planName == t.pendingPlan || !hasSchedule)

/-- A workspace that is not comped. -/
def reconcileTenantStripe (cfg : Config) (tenantId : Nat) (customer : Option String) :
    Handler Unit :=
  match orNull customer with
  | none => pure ()
  | some customerId => do
    let subs ← stripeSubscriptionsList customerId
    match chooseSubscription subs with
    | none =>
      updateTenants (·.id == tenantId) (Tenant.unsubscribed none) (keyless_unsubscribed none)
    | some sub => do
      let chosen := sub.orTenant tenantId
      if chosen.isOver then resetToFree chosen else applySubscription cfg chosen
      updateTenants (Tenant.clearable tenantId chosen.hasSchedule) Tenant.unmarked
        keyless_unmarked

/-- `reconcileTenantSubscription`. -/
def reconcileTenantSubscription (cfg : Config) (tenantId : Nat) : Handler Unit :=
  if isStripeConfigured cfg.env = false then pure ()
  else do
    let row ← query fun db => db.tenants.byId tenantId
    let now ← getNow
    if row.bind (·.subscriptionStatus) = some "comped" then
      if (row.bind (·.currentPeriodEnd)).any (· < now) then
        updateTenants (·.id == tenantId) Tenant.uncomped keyless_uncomped
      else pure ()
    else reconcileTenantStripe cfg tenantId (row.bind (·.stripeCustomerId))

/-! ### When the markers may go -/

/-- The markers of a scheduled change. -/
def PlanColumns.markers (c : PlanColumns) : Option String × Option Interval × Option Time :=
  (c.pendingPlan, c.pendingInterval, c.pendingEffectiveAt)

/-- What the customer's listing holds, unless the call fails. -/
def listedSubscriptions (w : World) (customer : Option String) : Option (List StripeSub) :=
  (orNull customer).bind fun customerId =>
    if w.fails .stripeSubscriptionsList then none
    else some
      ((newestFirst (w.stripe.subscriptions.filter (·.customer == some customerId))).take 10)

/-- The plan is reset to free: a comp has ended, there is no subscription, or it is over. -/
def ResetsToFree (w : World) (c : PlanColumns) (customer : Option String) : Prop :=
  if c.subscriptionStatus = some "comped" then c.currentPeriodEnd.any (· < w.now) = true
  else ∃ subs, listedSubscriptions w customer = some subs ∧
    ∀ sub, chooseSubscription subs = some sub → sub.isOver = true

/-- The subscription that is chosen, if the plan is not comped. -/
def Chooses (w : World) (c : PlanColumns) (customer : Option String) (sub : StripeSub) : Prop :=
  c.subscriptionStatus ≠ some "comped" ∧
    ∃ subs, listedSubscriptions w customer = some subs ∧ chooseSubscription subs = some sub

/-- The scheduled change has taken effect, or its schedule is gone. -/
def ChangeIsOver (env : Env) (c : PlanColumns) (sub : StripeSub) : Prop :=
  sub.hasSchedule = false ∨
    (c.pendingPlan = some (sub.planName env) ∧ c.pendingInterval = sub.interval)

/-- In the state that was read, the markers may go. -/
def MayClear (env : Env) (w : World) (c : PlanColumns) (customer : Option String) : Prop :=
  ResetsToFree w c customer ∨ ∃ sub, Chooses w c customer sub ∧ ChangeIsOver env c sub

/-- The chosen subscription is not over and its schedule is in place, the plan that is
compared is the pending one, and yet its plan or its interval is not what is pending. -/
structure ClearsEarly (env : Env) (w : World) (c : PlanColumns) (customer : Option String)
    (sub : StripeSub) (compared : String) : Prop where
  chosen : Chooses w c customer sub
  notOver : sub.isOver = false
  scheduled : sub.hasSchedule = true
  compared : c.pendingPlan = some compared
  differs : ¬ (c.pendingPlan = some (sub.planName env) ∧ c.pendingInterval = sub.interval)

/-! ### The account -/

/-- The plan `reconcileAccount` compares: the live one, unless the subscription's metadata
names another account, to which it is applied instead. -/
def comparedPlan (env : Env) (email : String) (acct : BillingAccount) (sub : StripeSub) :
    String :=
  if (sub.orNamed (some email)).accountEmail = some email then sub.planName env
  else acct.planName

/-- `reconcileAccount` leaves the markers of the account, unless they may go. -/
def AccountMarkersHonoured (cfg : Config) (email : String) (w : World) : Prop :=
  MayClear cfg.env w (accountOf w.db email).toPlanColumns (accountOf w.db email).stripeCustomerId ∨
    (accountOf ((reconcileAccount cfg email).exec w).2.db email).markers =
      (accountOf w.db email).markers

/-- The subscription of a named account is applied to it. -/
theorem attributedEmail_orNamed (db : Db) (sub : StripeSub) (hne : email ≠ "") :
    ∃ e, attributedEmail db (sub.orNamed (some email)) = some e ∧
      (sub.orNamed (some email)).accountEmail = some e ∧ e ≠ "" := by
  have hsome : ∃ e, orNull (sub.orNamed (some email)).accountEmail = some e := by
    unfold StripeSub.orNamed
    cases hnamed : orNull sub.accountEmail with
    | none =>
      have hemail : orNull (some email) = some email := orNull_eq_some_iff.mpr ⟨rfl, hne⟩
      exact ⟨email, by simp [hemail]⟩
    | some e => exact ⟨e, by simp [hnamed]⟩
  obtain ⟨e, he⟩ := hsome
  obtain ⟨hnamed, hempty⟩ := orNull_eq_some_iff.mp he
  refine ⟨e, ?_, hnamed, hempty⟩
  unfold attributedEmail
  rw [he]
  rfl

@[simp] theorem planName_orNamed (env : Env) (sub : StripeSub) (accountEmail : Option String) :
    (sub.orNamed accountEmail).planName env = sub.planName env := by
  unfold StripeSub.orNamed
  split <;> rfl

/-- Applying the chosen subscription sets the compared plan and leaves the markers. -/
theorem accountOf_applied (cfg : Config) (sub : StripeSub) (hne : email ≠ "")
    (hfails : w.fails .setAccountPlan = false) :
    ∃ db, (applyAccountSubscription cfg (sub.orNamed (some email))).exec w =
        (.ok (), { w with db := db }) ∧
      (accountOf db email).planName = comparedPlan cfg.env email (accountOf w.db email) sub ∧
        (accountOf db email).markers = (accountOf w.db email).markers := by
  obtain ⟨e, hattributed, hnamed, hempty⟩ := attributedEmail_orNamed w.db sub hne
  rw [exec_applyAccountSubscription, hattributed]
  dsimp only
  rcases exec_setAccountPlan_cases (f := subscriptionFields cfg.env (sub.orNamed (some email))) w
    hempty (by simp [subscriptionFields]) with ⟨hfails', -⟩ | ⟨-, db, htx, hexec⟩
  · rw [hfails] at hfails'
    cases hfails'
  refine ⟨db, hexec, ?_⟩
  unfold comparedPlan
  by_cases he : e = email
  · subst he
    rw [if_pos hnamed, accountOf_setAccountPlanTx hne htx]
    exact ⟨planName_orNamed _ _ _, rfl⟩
  · have hother : ¬ (sub.orNamed (some email)).accountEmail = some email := by
      rw [hnamed]
      exact fun heq => he (Option.some.inj heq)
    rw [if_neg hother, accountOf_setAccountPlanTx_of_ne (Ne.symm he) htx]
    exact ⟨rfl, rfl⟩

/-- The columns that clear the markers. -/
def clearedFields : AccountFields where
  pendingPlan := some none
  pendingInterval := some none
  pendingEffectiveAt := some none

theorem markers_clearPending (chosen : StripeSub) (hne : email ≠ "")
    (hfails : w.fails .setAccountPlan = false) :
    (accountOf ((clearPending email chosen).exec w).2.db email).markers =
      if (orNull (accountOf w.db email).pendingPlan).isSome ∧
          (some (accountOf w.db email).planName = (accountOf w.db email).pendingPlan ∨
            chosen.hasSchedule = false) then (none, none, none)
      else (accountOf w.db email).markers := by
  unfold clearPending getAccount
  rw [exec_query_bind]
  split
  · rcases exec_setAccountPlan_cases (f := clearedFields) w hne (by simp [clearedFields]) with
      ⟨hfails', -⟩ | ⟨-, db, htx, hexec⟩
    · rw [hfails] at hfails'
      cases hfails'
    · have hexec' : (setAccountPlan email
          { pendingPlan := some none, pendingInterval := some none,
            pendingEffectiveAt := some none }).exec w = (.ok (), { w with db := db }) := hexec
      rw [hexec', accountOf_setAccountPlanTx hne htx]
      rfl
  · rfl

/-- The chosen subscription is the only one. -/
theorem Chooses.unique {c : PlanColumns} {customer : Option String} {sub sub' : StripeSub}
    (h : Chooses w c customer sub) (h' : Chooses w c customer sub') : sub = sub' := by
  obtain ⟨-, subs, hsubs, hchoose⟩ := h
  obtain ⟨-, subs', hsubs', hchoose'⟩ := h'
  rw [hsubs] at hsubs'
  cases hsubs'
  exact Option.some.inj (hchoose.symm.trans hchoose')

theorem Chooses.isOver {c : PlanColumns} {customer : Option String}
    (h : Chooses w c customer sub) (hresets : ResetsToFree w c customer) : sub.isOver = true := by
  obtain ⟨hcomped, subs, hsubs, hchoose⟩ := h
  rw [ResetsToFree, if_neg hcomped] at hresets
  obtain ⟨subs', hsubs', hall⟩ := hresets
  rw [hsubs] at hsubs'
  cases hsubs'
  exact hall sub hchoose

theorem ClearsEarly.not_changeIsOver {env : Env} {c : PlanColumns} {customer : Option String}
    {compared : String} (h : ClearsEarly env w c customer sub compared) :
    ¬ ChangeIsOver env c sub := by
  rintro (hschedule | heffective)
  · rw [h.scheduled] at hschedule
    cases hschedule
  · exact h.differs heffective

/-- Either nothing is listed, the plan is reset, or a subscription that is not over is
chosen. -/
theorem listed_cases (w : World) {c : PlanColumns} (customer : Option String)
    (hcomped : c.subscriptionStatus ≠ some "comped") :
    listedSubscriptions w customer = none ∨ ResetsToFree w c customer ∨
      ∃ sub, Chooses w c customer sub ∧ sub.isOver = false := by
  cases hlisted : listedSubscriptions w customer with
  | none => exact .inl rfl
  | some subs =>
    right
    rw [ResetsToFree, if_neg hcomped]
    by_cases hover : ∀ sub, chooseSubscription subs = some sub → sub.isOver = true
    · exact .inl ⟨subs, hlisted, hover⟩
    · push Not at hover
      obtain ⟨sub, hchoose, hlive⟩ := hover
      exact .inr ⟨sub, ⟨hcomped, subs, hlisted, hchoose⟩, Bool.eq_false_iff.mpr hlive⟩

/-- What becomes of the markers once the chosen subscription has been applied. -/
theorem honoured_iff_of_chooses {env : Env} {c : PlanColumns} {customer : Option String}
    {compared : String} {set good : Prop} [Decidable set]
    {after : Option String × Option Interval × Option Time}
    (hchosen : Chooses w c customer sub) (hlive : sub.isOver = false)
    (hset : c.pendingPlan = some compared → (set ↔ good))
    (hafter : after = if set ∧ (some compared = c.pendingPlan ∨ sub.hasSchedule = false) then
      (none, none, none) else c.markers) :
    (MayClear env w c customer ∨ after = c.markers) ↔
      (good → ¬ ClearsEarly env w c customer sub compared) := by
  by_cases hchange : ChangeIsOver env c sub
  · exact iff_of_true (.inl (.inr ⟨sub, hchosen, hchange⟩))
      fun _ hearly => hearly.not_changeIsOver hchange
  obtain ⟨hschedule, hdiffers⟩ := not_or.mp hchange
  have hmay : ¬ MayClear env w c customer := by
    rintro (hresets | ⟨sub', hchosen', hchange'⟩)
    · have hover := hchosen.isOver hresets
      rw [hlive] at hover
      cases hover
    · exact hchange (hchosen'.unique hchosen ▸ hchange')
  -- no change is over: the markers are cleared exactly where the code compares wrongly
  rw [or_iff_right hmay, hafter]
  constructor
  · intro hkept hgood hearly
    rw [if_pos ⟨(hset hearly.compared).mpr hgood, .inl hearly.compared.symm⟩] at hkept
    have hnone := congrArg Prod.fst hkept
    rw [show c.markers.1 = _ from hearly.compared] at hnone
    cases hnone
  · intro hkept
    refine if_neg ?_
    rintro ⟨hisSet, hplan | hgone⟩
    · exact hkept ((hset hplan.symm).mp hisSet)
        ⟨hchosen, hlive, Bool.not_eq_false _ ▸ hschedule, hplan.symm, hdiffers⟩
    · exact hschedule hgone

/-- The listing as the handlers perform it. -/
theorem exec_stripeSubscriptionsList {α : Type} {customer : Option String} {customerId : String}
    (hcustomer : orNull customer = some customerId) (k : List StripeSub → Handler α) :
    (stripeSubscriptionsList customerId >>= k).exec w =
      match listedSubscriptions w customer with
      | some subs => (k subs).exec w
      | none => (.error .error, w) := by
  unfold listedSubscriptions
  rw [hcustomer, Option.bind_some, Prog.exec_bind, stripeSubscriptionsList, exec_call]
  cases w.fails .stripeSubscriptionsList <;> rfl

theorem orNull_of_listed {customer : Option String} {subs : List StripeSub}
    (h : listedSubscriptions w customer = some subs) :
    ∃ customerId, orNull customer = some customerId := by
  obtain ⟨customerId, hcustomer, -⟩ := Option.bind_eq_some_iff.mp h
  exact ⟨customerId, hcustomer⟩

theorem exec_reconcileAccount (hpaddle : isPaddleActive cfg.env = false)
    (hstripe : isStripeConfigured cfg.env = true) (hne : email ≠ "") :
    (reconcileAccount cfg email).exec w =
      if (accountOf w.db email).subscriptionStatus = some "comped" then
        (reconcileAccountComped email (accountOf w.db email)).exec w
      else (reconcileStripe cfg email (accountOf w.db email)).exec w := by
  unfold reconcileAccount
  rw [if_neg hne, hpaddle, if_neg Bool.false_ne_true, hstripe, if_neg Bool.true_eq_false.mp,
    getAccount, exec_query_bind, Prog.exec_ite]

/-- Without a subscription to look at, the account keeps its markers. -/
theorem markers_of_none (h : listedSubscriptions w (accountOf w.db email).stripeCustomerId = none) :
    ((reconcileStripe cfg email (accountOf w.db email)).exec w).2 = w := by
  unfold reconcileStripe
  cases hcustomer : orNull (accountOf w.db email).stripeCustomerId with
  | none => rfl
  | some customerId =>
    dsimp only
    rw [exec_stripeSubscriptionsList hcustomer, h]

theorem isOver_orNamed (sub : StripeSub) (accountEmail : Option String) :
    (sub.orNamed accountEmail).isOver = sub.isOver ∧
      (sub.orNamed accountEmail).hasSchedule = sub.hasSchedule := by
  unfold StripeSub.orNamed
  split <;> exact ⟨rfl, rfl⟩

/-- With a subscription that is not over, it is applied first. -/
theorem exec_reconcileStripe (hchosen : Chooses w (accountOf w.db email).toPlanColumns
    (accountOf w.db email).stripeCustomerId sub) (hlive : sub.isOver = false) :
    (reconcileStripe cfg email (accountOf w.db email)).exec w =
      (applyAccountSubscription cfg (sub.orNamed (some email)) >>= fun _ =>
        clearPending email (sub.orNamed (some email))).exec w := by
  obtain ⟨-, subs, hlisted, hchoose⟩ := hchosen
  obtain ⟨customerId, hcustomer⟩ := orNull_of_listed hlisted
  have hnot : ¬ ((sub.orNamed (some email)).status = .canceled ∨
      (sub.orNamed (some email)).status = .incompleteExpired) := by
    have hover := (isOver_orNamed sub (some email)).1.trans hlive
    rw [StripeSub.isOver, Bool.or_eq_false_iff] at hover
    rintro (h | h)
    · simp [h] at hover
    · simp [h] at hover
  unfold reconcileStripe
  rw [hcustomer]
  dsimp only
  rw [exec_stripeSubscriptionsList hcustomer, hlisted]
  dsimp only
  rw [hchoose]
  dsimp only
  rw [if_neg hnot]

/-- With one that is not over, they go when the compared plan is the pending one or the
schedule is gone. -/
theorem markers_of_chooses (hne : email ≠ "") (hfails : w.fails .setAccountPlan = false)
    (hchosen : Chooses w (accountOf w.db email).toPlanColumns
      (accountOf w.db email).stripeCustomerId sub) (hlive : sub.isOver = false) :
    (accountOf ((reconcileStripe cfg email (accountOf w.db email)).exec w).2.db email).markers =
      if (orNull (accountOf w.db email).pendingPlan).isSome ∧
          (some (comparedPlan cfg.env email (accountOf w.db email) sub) =
            (accountOf w.db email).pendingPlan ∨ sub.hasSchedule = false) then (none, none, none)
      else (accountOf w.db email).markers := by
  obtain ⟨-, hschedule⟩ := isOver_orNamed sub (some email)
  obtain ⟨db, happlied, hplan, hmarkers⟩ := accountOf_applied cfg sub hne hfails
  rw [exec_reconcileStripe hchosen hlive, Prog.exec_bind, happlied]
  dsimp only
  have hpending : (accountOf db email).pendingPlan = (accountOf w.db email).pendingPlan :=
    congrArg Prod.fst hmarkers
  rw [markers_clearPending (w := { w with db := db }) _ hne hfails]
  dsimp only
  rw [hplan, hmarkers, hschedule, hpending]

/-- When nothing can be written, nothing is. -/
theorem markers_of_fails (hfails : w.fails .setAccountPlan = true) (hne : email ≠ "")
    (hchosen : Chooses w (accountOf w.db email).toPlanColumns
      (accountOf w.db email).stripeCustomerId sub) (hlive : sub.isOver = false) :
    ((reconcileStripe cfg email (accountOf w.db email)).exec w).2 = w := by
  obtain ⟨e, hattributed, -, hempty⟩ := attributedEmail_orNamed w.db sub hne
  have happlied : (applyAccountSubscription cfg (sub.orNamed (some email))).exec w =
      (.error .error, w) := by
    rw [exec_applyAccountSubscription, hattributed]
    dsimp only
    rcases exec_setAccountPlan_cases (f := subscriptionFields cfg.env (sub.orNamed (some email)))
      w hempty (by simp [subscriptionFields]) with ⟨-, hexec⟩ | ⟨hfails', -⟩
    · exact hexec
    · rw [hfails] at hfails'
      cases hfails'
  rw [exec_reconcileStripe hchosen hlive, Prog.exec_bind, happlied]

/-- The markers of an account are honoured unless they are cleared early. -/
theorem accountMarkersHonoured_iff (hpaddle : isPaddleActive cfg.env = false)
    (hstripe : isStripeConfigured cfg.env = true) :
    AccountMarkersHonoured cfg email w ↔
      (w.fails .setAccountPlan = false → ∀ sub,
        comparedPlan cfg.env email (accountOf w.db email) sub ≠ "" →
          ¬ ClearsEarly cfg.env w (accountOf w.db email).toPlanColumns
            (accountOf w.db email).stripeCustomerId sub
            (comparedPlan cfg.env email (accountOf w.db email) sub)) := by
  unfold AccountMarkersHonoured
  -- nothing is stored under the empty address
  by_cases hne : email = ""
  · subst hne
    refine iff_of_true (.inr rfl) fun _ sub _ hearly => ?_
    obtain ⟨-, subs, hlisted, -⟩ := hearly.chosen
    rw [accountOf_empty] at hlisted
    cases hlisted
  -- a comped account is reset when its period has ended, and else only mirrored
  rw [exec_reconcileAccount hpaddle hstripe hne]
  by_cases hcomped : (accountOf w.db email).subscriptionStatus = some "comped"
  · refine iff_of_true ?_ fun _ sub _ hearly => hearly.chosen.1 hcomped
    rw [if_pos hcomped]
    by_cases hended : (accountOf w.db email).currentPeriodEnd.any (· < w.now) = true
    · left
      left
      rw [ResetsToFree, if_pos hcomped]
      exact hended
    · right
      unfold reconcileAccountComped
      rw [exec_getNow_bind, if_neg hended, mirrorAccount, getAccount, exec_query_bind]
      rfl
  rw [if_neg hcomped]
  -- no customer, a subscription that is over, or one that is live
  rcases listed_cases w (accountOf w.db email).stripeCustomerId hcomped with
    hnone | hresets | ⟨sub, hchosen, hlive⟩
  · refine iff_of_true (.inr ?_) fun _ sub _ hearly => ?_
    · rw [markers_of_none hnone]
    · obtain ⟨-, subs, hlisted, -⟩ := hearly.chosen
      rw [hnone] at hlisted
      cases hlisted
  · refine iff_of_true (.inl (.inl hresets)) fun _ sub _ hearly => ?_
    have hover := hearly.chosen.isOver hresets
    rw [hearly.notOver] at hover
    cases hover
  cases hfails : w.fails .setAccountPlan with
  | true =>
    refine iff_of_true (.inr ?_) nofun
    rw [markers_of_fails hfails hne hchosen hlive]
  | false =>
    have hset : (accountOf w.db email).pendingPlan =
        some (comparedPlan cfg.env email (accountOf w.db email) sub) →
        ((orNull (accountOf w.db email).pendingPlan).isSome = true ↔
          comparedPlan cfg.env email (accountOf w.db email) sub ≠ "") := by
      intro hpending
      rw [hpending, Option.isSome_iff_exists]
      constructor
      · rintro ⟨p, hp⟩
        obtain ⟨heq, hplan⟩ := orNull_eq_some_iff.mp hp
        cases heq
        exact hplan
      · exact fun hplan => ⟨_, orNull_eq_some_iff.mpr ⟨rfl, hplan⟩⟩
    rw [honoured_iff_of_chooses hchosen hlive hset (markers_of_chooses hne hfails hchosen hlive)]
    constructor
    · intro h _ sub' hplan hearly
      obtain rfl := hearly.chosen.unique hchosen
      exact h hplan hearly
    · exact fun h => h rfl sub

/-! ### The workspace -/

/-- The plan `reconcileTenantSubscription` compares: the live one, unless the subscription's
metadata names another workspace. -/
def comparedTenantPlan (env : Env) (t : Tenant) (sub : StripeSub) : String :=
  if (sub.orTenant t.id).tenantId = some t.id then sub.planName env else t.planName

/-- `reconcileTenantSubscription` leaves the markers of the workspace, unless they may go. -/
def TenantMarkersHonoured (cfg : Config) (tenantId : Nat) (w : World) : Prop :=
  ∀ t, w.db.tenants.byId tenantId = some t →
    MayClear cfg.env w t.toPlanColumns t.stripeCustomerId ∨
      (((reconcileTenantSubscription cfg tenantId).exec w).2.db.tenants.byId tenantId).map
        (·.markers) = some t.markers

theorem exec_updateTenants {p : Tenant → Bool} {f : Tenant → Tenant} {hf : Table.Keyless f} :
    (updateTenants p f hf).exec w =
      (.ok (), { w with db := { w.db with tenants := w.db.tenants.update p f hf } }) := rfl

theorem orTenant_eq (sub : StripeSub) (tenantId : Nat) :
    ∃ id, (sub.orTenant tenantId).tenantId = some id ∧
      (∀ env, (sub.orTenant tenantId).planName env = sub.planName env) ∧
      (sub.orTenant tenantId).isOver = sub.isOver ∧
      (sub.orTenant tenantId).hasSchedule = sub.hasSchedule := by
  unfold StripeSub.orTenant
  cases hid : sub.tenantId with
  | none => exact ⟨tenantId, rfl, fun _ => rfl, rfl, rfl⟩
  | some id => exact ⟨id, hid, fun _ => rfl, rfl, rfl⟩

variable {t : Tenant}

theorem exec_reconcileTenantSubscription (hstripe : isStripeConfigured cfg.env = true)
    (ht : w.db.tenants.byId tenantId = some t) :
    (reconcileTenantSubscription cfg tenantId).exec w =
      if t.subscriptionStatus = some "comped" then
        (if t.currentPeriodEnd.any (· < w.now) then
          updateTenants (·.id == tenantId) Tenant.uncomped keyless_uncomped
        else pure () : Handler Unit).exec w
      else (reconcileTenantStripe cfg tenantId t.stripeCustomerId).exec w := by
  unfold reconcileTenantSubscription
  rw [hstripe, if_neg Bool.true_eq_false.mp, exec_query_bind, exec_getNow_bind, ht,
    Prog.exec_ite]
  rfl

theorem exec_reconcileTenantStripe_none
    (h : listedSubscriptions w t.stripeCustomerId = none) :
    ((reconcileTenantStripe cfg tenantId t.stripeCustomerId).exec w).2 = w := by
  unfold reconcileTenantStripe
  cases hcustomer : orNull t.stripeCustomerId with
  | none => rfl
  | some customerId =>
    dsimp only
    rw [exec_stripeSubscriptionsList hcustomer, h]

/-- The row of the workspace once the chosen subscription has been applied. -/
def appliedRow (env : Env) (sub : StripeSub) (t : Tenant) : Tenant :=
  if (sub.orTenant t.id).tenantId = some t.id then t.subscribed env (sub.orTenant t.id) else t

theorem appliedRow_spec (env : Env) (sub : StripeSub) (t : Tenant) :
    (appliedRow env sub t).id = t.id ∧ (appliedRow env sub t).markers = t.markers ∧
      (appliedRow env sub t).pendingPlan = t.pendingPlan ∧
        (appliedRow env sub t).planName = comparedTenantPlan env t sub := by
  obtain ⟨id, -, hplan, -⟩ := orTenant_eq sub t.id
  unfold appliedRow comparedTenantPlan
  split
  · exact ⟨rfl, rfl, rfl, hplan env⟩
  · exact ⟨rfl, rfl, rfl, rfl⟩

/-- The chosen subscription is applied to its workspace, and then the markers may go. -/
theorem byId_reconcileTenantStripe (ht : w.db.tenants.byId tenantId = some t)
    (hchosen : Chooses w t.toPlanColumns t.stripeCustomerId sub) (hlive : sub.isOver = false) :
    ((reconcileTenantStripe cfg tenantId t.stripeCustomerId).exec w).2.db.tenants.byId tenantId =
      some (if Tenant.clearable tenantId sub.hasSchedule (appliedRow cfg.env sub t) then
        (appliedRow cfg.env sub t).unmarked else appliedRow cfg.env sub t) := by
  have hid : t.id = tenantId := (Table.byId_eq_some_iff.mp ht).2
  obtain ⟨-, subs, hlisted, hchoose⟩ := hchosen
  obtain ⟨customerId, hcustomer⟩ := orNull_of_listed hlisted
  obtain ⟨id, htenant, -, hover, hschedule⟩ := orTenant_eq sub tenantId
  unfold reconcileTenantStripe
  rw [hcustomer]
  dsimp only
  rw [exec_stripeSubscriptionsList hcustomer, hlisted]
  dsimp only
  rw [hchoose]
  dsimp only
  rw [hover, hlive, if_neg Bool.false_ne_true, applySubscription, StripeSub.tenantFilter, htenant]
  dsimp only
  rw [Prog.exec_bind, exec_updateTenants]
  dsimp only
  rw [exec_updateTenants]
  dsimp only
  rw [Table.byId_update, Table.byId_update, ht, Option.map_some, Option.map_some, hschedule]
  -- the row is written when the subscription names this workspace or none
  have hrow : (if (t.id == id) = true then t.subscribed cfg.env (sub.orTenant tenantId) else t) =
      appliedRow cfg.env sub t := by
    unfold appliedRow
    rw [hid, htenant]
    by_cases heq : tenantId = id
    · rw [if_pos (beq_iff_eq.mpr heq), if_pos (congrArg some heq.symm)]
    · rw [if_neg (fun h => heq (beq_iff_eq.mp h)),
        if_neg fun h => heq (Option.some.inj h).symm]
  rw [hrow]

theorem markers_of_chooses_tenant (ht : w.db.tenants.byId tenantId = some t)
    (hchosen : Chooses w t.toPlanColumns t.stripeCustomerId sub) (hlive : sub.isOver = false) :
    (((reconcileTenantStripe cfg tenantId t.stripeCustomerId).exec w).2.db.tenants.byId
        tenantId).map (·.markers) =
      some (if t.pendingPlan.isSome ∧ (some (comparedTenantPlan cfg.env t sub) = t.pendingPlan ∨
        sub.hasSchedule = false) then (none, none, none) else t.markers) := by
  have hid : t.id = tenantId := (Table.byId_eq_some_iff.mp ht).2
  obtain ⟨happlied, hmarkers, hpending, hplan⟩ := appliedRow_spec cfg.env sub t
  have hclearable : Tenant.clearable tenantId sub.hasSchedule (appliedRow cfg.env sub t) = true ↔
      t.pendingPlan.isSome ∧ (some (comparedTenantPlan cfg.env t sub) = t.pendingPlan ∨
        sub.hasSchedule = false) := by
    unfold Tenant.clearable
    rw [happlied, hpending, hplan, hid, beq_self_eq_true, Bool.true_and, Bool.and_eq_true,
      Bool.or_eq_true, beq_iff_eq, Bool.not_eq_true']
  rw [byId_reconcileTenantStripe ht hchosen hlive, Option.map_some]
  by_cases hc : Tenant.clearable tenantId sub.hasSchedule (appliedRow cfg.env sub t) = true
  · rw [if_pos hc, if_pos (hclearable.mp hc)]
    rfl
  · rw [if_neg hc, if_neg fun h => hc (hclearable.mpr h), hmarkers]

/-- The markers of a workspace are honoured unless they are cleared early. -/
theorem tenantMarkersHonoured_iff (hstripe : isStripeConfigured cfg.env = true) :
    TenantMarkersHonoured cfg tenantId w ↔ ∀ t, w.db.tenants.byId tenantId = some t →
      ∀ sub, ¬ ClearsEarly cfg.env w t.toPlanColumns t.stripeCustomerId sub
        (comparedTenantPlan cfg.env t sub) := by
  refine forall₂_congr fun t ht => ?_
  rw [exec_reconcileTenantSubscription hstripe ht]
  -- as for an account: a comped workspace only ends
  by_cases hcomped : t.subscriptionStatus = some "comped"
  · refine iff_of_true ?_ fun sub hearly => hearly.chosen.1 hcomped
    rw [if_pos hcomped]
    by_cases hended : t.currentPeriodEnd.any (· < w.now) = true
    · left
      left
      rw [ResetsToFree, if_pos hcomped]
      exact hended
    · right
      rw [if_neg hended]
      change (w.db.tenants.byId tenantId).map _ = _
      rw [ht]
      rfl
  rw [if_neg hcomped]
  rcases listed_cases w t.stripeCustomerId hcomped with hnone | hresets | ⟨sub, hchosen, hlive⟩
  · refine iff_of_true (.inr ?_) fun sub hearly => ?_
    · rw [exec_reconcileTenantStripe_none hnone, ht]
      rfl
    · obtain ⟨-, subs, hlisted, -⟩ := hearly.chosen
      rw [hnone] at hlisted
      cases hlisted
  · refine iff_of_true (.inl (.inl hresets)) fun sub hearly => ?_
    have hover := hearly.chosen.isOver hresets
    rw [hearly.notOver] at hover
    cases hover
  have hset : t.pendingPlan = some (comparedTenantPlan cfg.env t sub) →
      (t.pendingPlan.isSome = true ↔ True) := by
    intro hpending
    rw [hpending]
    exact iff_of_true rfl trivial
  rw [markers_of_chooses_tenant ht hchosen hlive, Option.some.injEq,
    honoured_iff_of_chooses hchosen hlive hset rfl]
  constructor
  · intro h sub' hearly
    obtain rfl := hearly.chosen.unique hchosen
    exact h trivial hearly
  · exact fun h _ => h sub

/-- Both functions leave the markers until the change is effective, unless the plan that is
compared is already the pending one while the interval, or the plan of the subscription, is
not. -/
theorem markersHonoured_iff (hpaddle : isPaddleActive cfg.env = false)
    (hstripe : isStripeConfigured cfg.env = true) :
    (AccountMarkersHonoured cfg email w ↔
      (w.fails .setAccountPlan = false → ∀ sub,
        comparedPlan cfg.env email (accountOf w.db email) sub ≠ "" →
          ¬ ClearsEarly cfg.env w (accountOf w.db email).toPlanColumns
            (accountOf w.db email).stripeCustomerId sub
            (comparedPlan cfg.env email (accountOf w.db email) sub))) ∧
    (TenantMarkersHonoured cfg tenantId w ↔ ∀ t, w.db.tenants.byId tenantId = some t →
      ∀ sub, ¬ ClearsEarly cfg.env w t.toPlanColumns t.stripeCustomerId sub
        (comparedTenantPlan cfg.env t sub)) :=
  ⟨accountMarkersHonoured_iff hpaddle hstripe, tenantMarkersHonoured_iff hstripe⟩

/-! ### From yearly to monthly -/

/-- Ada pays for Pro by the year, and has asked for Pro by the month from the next period. -/
def toMonthly : PlanColumns where
  planName := "pro"
  subscriptionStatus := some "active"
  billingInterval := some .year
  currentPeriodEnd := some 1000
  pendingPlan := some "pro"
  pendingInterval := some .month
  pendingEffectiveAt := some 1000

def adaPrepaid : BillingAccount :=
  { toMonthly with id := 1, email := "ada@example.com", stripeCustomerId := some "cus_ada" }

def adaPrepaidTenant : Tenant :=
  { toMonthly with
    id := 1, name := "Acme", slug := "acme", subdomain := "acme"
    stripeCustomerId := some "cus_ada" }

/-- The account, and a workspace that still has the customer's id. -/
def prepaidWorld (sub : StripeSub) : World where
  db :=
    { tenants :=
        { rows := [adaPrepaidTenant]
          next := 2
          id_lt := by decide
          nodup := by decide
          noClash := by decide }
      billingAccounts :=
        { rows := [adaPrepaid]
          next := 2
          id_lt := by decide
          nodup := by decide
          noClash := by decide } }
  stripe := { subscriptions := [sub] }

/-- The subscription before the change. -/
def adaYearly : StripeSub :=
  { adaStripePro with
    priceId := some "price_pro_yearly", isYearly := true, hasSchedule := true
    currentPeriodEnd := some 1000 }

/-- The subscription after the change. -/
def adaMonthly : StripeSub := { adaStripePro with hasSchedule := true }

theorem chooses_prepaid (sub : StripeSub) (hcustomer : sub.customer = some "cus_ada") :
    Chooses (prepaidWorld sub) toMonthly (some "cus_ada") sub := by
  refine ⟨by decide, [sub], ?_, ?_⟩
  · have hfilter : [sub].filter (·.customer == some "cus_ada") = [sub] := by simp [hcustomer]
    change some ((newestFirst ([sub].filter (·.customer == some "cus_ada"))).take 10) = _
    rw [hfilter]
    rfl
  · unfold chooseSubscription newestFirst
    cases hactive : sub.status.isActive <;> simp [hactive]

/-- Once the change is effective the markers may go. -/
theorem markersHonoured_iff_ada :
    AccountMarkersHonoured .stripeDemo "ada@example.com" (prepaidWorld adaMonthly) ∧
      TenantMarkersHonoured .stripeDemo 1 (prepaidWorld adaMonthly) := by
  have hchosen := chooses_prepaid adaMonthly rfl
  have hiff : (AccountMarkersHonoured .stripeDemo "ada@example.com" (prepaidWorld adaMonthly) ↔ _) ∧
      (TenantMarkersHonoured .stripeDemo 1 (prepaidWorld adaMonthly) ↔ _) :=
    markersHonoured_iff (by decide) (by decide)
  obtain ⟨haccount, htenant⟩ := hiff
  have heffective : toMonthly.pendingPlan = some (adaMonthly.planName Config.stripeDemo.env) ∧
      toMonthly.pendingInterval = adaMonthly.interval := by decide
  constructor
  · refine haccount.mpr fun _ sub _ hearly => ?_
    obtain rfl := hearly.chosen.unique hchosen
    exact hearly.differs heffective
  · refine htenant.mpr fun t ht sub hearly => ?_
    have hrow : t = adaPrepaidTenant := Option.some.inj (ht.symm.trans rfl)
    subst hrow
    obtain rfl := hearly.chosen.unique hchosen
    exact hearly.differs heffective

/-- While the subscription is still yearly and its schedule in place, both functions clear
the markers. -/
theorem pending_interval_cleared_early :
    ((reconcileAccount .stripeDemo "ada@example.com").exec (prepaidWorld adaYearly)).1 = .ok () ∧
      (accountOf ((reconcileAccount .stripeDemo "ada@example.com").exec
        (prepaidWorld adaYearly)).2.db "ada@example.com").markers = (none, none, none) ∧
      ¬ AccountMarkersHonoured .stripeDemo "ada@example.com" (prepaidWorld adaYearly) ∧
      ¬ TenantMarkersHonoured .stripeDemo 1 (prepaidWorld adaYearly) := by
  have hearly : ClearsEarly Config.stripeDemo.env (prepaidWorld adaYearly) toMonthly
      (some "cus_ada") adaYearly "pro" :=
    ⟨chooses_prepaid adaYearly rfl, rfl, rfl, rfl, by decide⟩
  refine ⟨by decide +kernel, by decide +kernel, fun haccount => ?_, fun htenant => ?_⟩
  · exact (accountMarkersHonoured_iff (by decide) (by decide)).mp haccount rfl adaYearly
      (by decide +kernel) hearly
  · exact (tenantMarkersHonoured_iff (by decide)).mp htenant adaPrepaidTenant rfl adaYearly hearly

end Feedbase
