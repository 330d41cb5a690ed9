import Feedbase.Billing.RedeemPromo

/-!
# Stripe: webhooks and reconciliation

The two routes by which a Stripe subscription reaches its account. A webhook writes
the snapshot its event carries, whatever the account holds; `reconcileAccount` lists
the customer's subscriptions, prefers a live one, and leaves a comp alone.

## Main definitions

* `attributedEmail` — the account a subscription is applied to
* `applyAccountSubscription`
* `StripeEvent`, `handleStripeWebhook`
* `reconcileAccount`

## Main results

* `handleStripeWebhook_snd` — a webhook applies the subscription of its event, or
  does nothing
-/

namespace Feedbase

open Sql

variable {cfg : Config} {w w' : World} {email : String} {sub : StripeSub}

/-! ### Calls of the Stripe SDK -/

/-- `stripe.subscriptions.retrieve(id)`. -/
def stripeSubscriptionsRetrieve (id : String) : Handler StripeSub :=
  call .stripeSubscriptionsRetrieve fun w =>
    (w.stripe.subscriptions.find? (·.id == id)).map (·, w)

/-- Most recently created first. -/
def newestFirst (subs : List StripeSub) : List StripeSub :=
  subs.insertionSort fun a b => b.created ≤ a.created

/-- `stripe.subscriptions.list({ customer, status: "all", limit: 10 })`. -/
def stripeSubscriptionsList (customerId : String) : Handler (List StripeSub) :=
  call .stripeSubscriptionsList fun w =>
    some ((newestFirst (w.stripe.subscriptions.filter (·.customer == some customerId))).take 10, w)

/-! ### Applying a subscription -/

/-- The account a subscription is applied to: the one its metadata names, else the
owner of the workspace its metadata names, else the one with its customer id. -/
def attributedEmail (db : Db) (sub : StripeSub) : Option String :=
  let owner := sub.tenantId.bind fun tenantId =>
    (db.users.rows.find? fun u =>
      u.tenantId == some tenantId && u.role == .owner && u.isActive).map User.email
  let holder := (orNull sub.customer).bind fun customerId =>
    (db.billingAccounts.rows.find? fun a => a.stripeCustomerId == some customerId).map (·.email)
  (orNull sub.accountEmail).or ((orNull owner).or (orNull holder))

/-- The first part of `applyAccountSubscription`, one lookup at a time. -/
def subscriptionEmail (sub : StripeSub) : Handler (Option String) :=
  match orNull sub.accountEmail with
  | some email => pure (some email)
  | none => do
    -- a legacy subscription names its workspace only
    let owner ← match sub.tenantId with
      | some tenantId => ownerEmailOfTenant tenantId
      | none => pure none
    match orNull owner with
    | some email => return some email
    | none =>
      match orNull sub.customer with
      | none => return none
      | some customerId =>
        let holder ← query fun db => (db.billingAccounts.rows.find? fun a =>
          a.stripeCustomerId == some customerId).map (·.email)
        return orNull holder

/-- The rest of `subscriptionEmail`, once the workspace has named an owner or none. -/
def emailOfOwner (sub : StripeSub) (owner : Option String) : Handler (Option String) :=
  match orNull owner with
  | some email => return some email
  | none =>
    match orNull sub.customer with
    | none => return none
    | some customerId => do
      let holder ← query fun db => (db.billingAccounts.rows.find? fun a =>
        a.stripeCustomerId == some customerId).map (·.email)
      return orNull holder

theorem exec_subscriptionEmail (sub : StripeSub) (w : World) :
    (subscriptionEmail sub).exec w = (.ok (attributedEmail w.db sub), w) := by
  unfold subscriptionEmail attributedEmail
  cases hnamed : orNull sub.accountEmail with
  | some email => simp
  | none =>
    -- after the workspace comes the account that holds the customer
    have hrest : ∀ owner : Option String, Prog.exec (match orNull owner with
        | some email => return some email
        | none =>
          match orNull sub.customer with
          | none => return none
          | some customerId => do
            let holder ← query fun db => (db.billingAccounts.rows.find? fun a =>
              a.stripeCustomerId == some customerId).map (·.email)
            return orNull holder : Handler (Option String)) w =
        (.ok ((orNull owner).or (orNull ((orNull sub.customer).bind fun customerId =>
          (w.db.billingAccounts.rows.find? fun a =>
            a.stripeCustomerId == some customerId).map (·.email)))), w) := by
      intro owner
      cases howner : orNull owner with
      | some email => simp
      | none =>
        cases hcustomer : orNull sub.customer with
        | none => rfl
        | some customerId => exact exec_query_bind _ _ w
    cases htenant : sub.tenantId with
    | none => exact hrest none
    | some tenantId =>
      simp only [Option.none_or, Option.bind_some, ownerEmailOfTenant, exec_query_bind]
      exact hrest _

/-- The account is never the empty string. -/
theorem attributedEmail_ne_empty {e : String} (h : attributedEmail w.db sub = some e) :
    e ≠ "" := by
  rcases Option.or_eq_some_iff.mp h with h | ⟨-, h⟩
  · exact (orNull_eq_some_iff.mp h).2
  · rcases Option.or_eq_some_iff.mp h with h | ⟨-, h⟩
    · exact (orNull_eq_some_iff.mp h).2
    · exact (orNull_eq_some_iff.mp h).2

/-- The plan a subscription stands for: its price's while it is live, else free. -/
def StripeSub.planName (env : Env) (s : StripeSub) : String :=
  if s.status.isActive then (planByPriceId env s.priceId).getD "free" else "free"

/-- What `applyAccountSubscription` writes. -/
def subscriptionFields (env : Env) (s : StripeSub) : AccountFields where
  planName := some (some (s.planName env))
  subscriptionStatus := some (some s.status.text)
  billingInterval :=
    some (if s.status.isActive then some (if s.isYearly then .year else .month) else none)
  stripeCustomerId := some s.customer
  stripeSubscriptionId := some (some s.id)
  currentPeriodEnd :=
    some (if s.status.isActive then s.currentPeriodEnd.filter (· ≠ 0) else none)

/-- `applyAccountSubscription`; a subscription of nobody's account is ignored. -/
def applyAccountSubscription (cfg : Config) (sub : StripeSub) : Handler Unit := do
  match ← subscriptionEmail sub with
  | none => pure ()
  | some email => setAccountPlan email (subscriptionFields cfg.env sub)

/-! ### Webhooks -/

/-- The three event types that carry a subscription. -/
inductive SubscriptionChange where
  | created
  | updated
  | deleted
  deriving DecidableEq, Repr

/-- The object of a `checkout.session.completed` event. -/
structure CheckoutSession where
  subscription : Option String
  accountEmail : Option String
  deriving DecidableEq

/-- A verified event. -/
inductive StripeEvent where
  | checkoutSessionCompleted (session : CheckoutSession)
  | customerSubscription (change : SubscriptionChange) (sub : StripeSub)
  | other
  deriving DecidableEq

/-- Carry an account over to a subscription that names none. -/
def StripeSub.orNamed (s : StripeSub) (accountEmail : Option String) : StripeSub :=
  if (orNull s.accountEmail).isNone ∧ (orNull accountEmail).isSome then
    { s with accountEmail := accountEmail }
  else s

/-- The `switch` over the type of the event. -/
def handleStripeEvent (cfg : Config) : StripeEvent → Handler Unit
  | .checkoutSessionCompleted session =>
    match orNull session.subscription with
    | none => pure ()
    | some id => do
      let sub ← stripeSubscriptionsRetrieve id
      applyAccountSubscription cfg (sub.orNamed session.accountEmail)
  | .customerSubscription _ sub => applyAccountSubscription cfg sub
  | .other => pure ()

/-- `handleStripeWebhook`: `none` is a body whose signature does not verify. An error
of the handler is logged and the event acknowledged. -/
def handleStripeWebhook (cfg : Config) (event : Option StripeEvent) : Handler Unit :=
  match event with
  | none => reject 400 "invalid_signature"
  | some event => tryCatch (handleStripeEvent cfg event) fun _ => pure ()

/-- The subscription an event applies; a checkout's is retrieved from Stripe. -/
def StripeEvent.applied (w : World) : StripeEvent → Option StripeSub
  | .checkoutSessionCompleted session =>
    if w.fails .stripeSubscriptionsRetrieve then none
    else (orNull session.subscription).bind fun id =>
      (w.stripe.subscriptions.find? (·.id == id)).map (·.orNamed session.accountEmail)
  | .customerSubscription _ sub => some sub
  | .other => none

/-- The account an event is applied to, and the subscription. -/
def StripeEvent.target (w : World) (event : StripeEvent) : Option (String × StripeSub) :=
  (event.applied w).bind fun sub => (attributedEmail w.db sub).map (·, sub)

theorem exec_applyAccountSubscription :
    (applyAccountSubscription cfg sub).exec w = match attributedEmail w.db sub with
      | none => (.ok (), w)
      | some email => (setAccountPlan email (subscriptionFields cfg.env sub)).exec w := by
  unfold applyAccountSubscription
  rw [Prog.exec_bind, exec_subscriptionEmail]
  cases attributedEmail w.db sub <;> rfl

/-- A webhook applies the subscription of its event to the account, or does nothing. -/
theorem handleStripeWebhook_snd (cfg : Config) (w : World) (event : StripeEvent) :
    ((handleStripeWebhook cfg (some event)).exec w).2 = match event.target w with
      | none => w
      | some (email, sub) => ((setAccountPlan email (subscriptionFields cfg.env sub)).exec w).2 := by
  unfold handleStripeWebhook
  rw [Prog.exec_tryCatch_pure]
  have happly : ∀ sub, ((applyAccountSubscription cfg sub).exec w).2 =
      match (attributedEmail w.db sub).map (·, sub) with
      | none => w
      | some (email, sub) => ((setAccountPlan email (subscriptionFields cfg.env sub)).exec w).2 := by
    intro sub
    rw [exec_applyAccountSubscription]
    cases attributedEmail w.db sub <;> rfl
  cases event with
  | other => rfl
  | customerSubscription change sub => exact happly sub
  | checkoutSessionCompleted session =>
    unfold handleStripeEvent StripeEvent.target StripeEvent.applied
    dsimp only
    cases orNull session.subscription with
    | none => cases w.fails .stripeSubscriptionsRetrieve <;> rfl
    | some id =>
      dsimp only [Option.bind_some]
      rw [Prog.exec_bind, stripeSubscriptionsRetrieve, exec_call]
      cases w.fails .stripeSubscriptionsRetrieve with
      | true => rfl
      | false =>
        cases w.stripe.subscriptions.find? (·.id == id) with
        | none => rfl
        | some sub => exact happly _

/-! ### Reconciliation -/

/-- `mirrorAccountToTenants` outside a transaction: the account is read first. -/
def mirrorAccount (email : String) : Handler Unit := do
  let acct ← getAccount email
  update fun db =>
    { db with
      tenants := db.tenants.update (fun t => t.isActive && ownsTenant db email t.id)
        fun t => t.setPlan acct.mirrored }

/-- The first live subscription, else the first. -/
def chooseSubscription (subs : List StripeSub) : Option StripeSub :=
  ((newestFirst subs).find? (·.status.isActive)).or (newestFirst subs).head?

/-- A comp is left alone until it has ended. -/
def reconcileAccountComped (email : String) (acct : BillingAccount) : Handler Unit := do
  let now ← getNow
  if acct.currentPeriodEnd.any (· < now) then resetAccountToFree email none
  else mirrorAccount email

/-- A scheduled change is over once the live plan is the target, or the schedule is
gone. -/
def clearPending (email : String) (chosen : StripeSub) : Handler Unit := do
  let after ← getAccount email
  if (orNull after.pendingPlan).isSome ∧
      (some after.planName = after.pendingPlan ∨ chosen.hasSchedule = false) then
    setAccountPlan email
      { pendingPlan := some none, pendingInterval := some none, pendingEffectiveAt := some none }
  else pure ()

/-- `reconcileAccount` at Stripe, for an account that is not comped. -/
def reconcileStripe (cfg : Config) (email : String) (acct : BillingAccount) : Handler Unit :=
  match orNull acct.stripeCustomerId with
  | none => pure ()
  | some customerId => do
    let subs ← stripeSubscriptionsList customerId
    match chooseSubscription subs with
    | none => resetAccountToFree email none
    | some sub => do
      let chosen := sub.orNamed (some email)
      if chosen.status = .canceled ∨ chosen.status = .incompleteExpired then
        resetAccountToFree email (some chosen.status.text)
      else applyAccountSubscription cfg chosen
      clearPending email chosen

/-- `reconcileAccount`, on the provider that is active. -/
def reconcileAccount (cfg : Config) (email : String) : Handler Unit :=
  if email = "" then pure ()
  else if isPaddleActive cfg.env then reconcile cfg email
  else if isStripeConfigured cfg.env = false then pure ()
  else do
    let acct ← getAccount email
    if acct.subscriptionStatus = some "comped" then reconcileAccountComped email acct
    else reconcileStripe cfg email acct

end Feedbase
