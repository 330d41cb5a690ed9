import Feedbase.Common.AccountBilling
import Feedbase.Common.Offers

/-!
# Paddle billing operations

The operations of the active provider when `BILLING_PROVIDER` is not `stripe`. They
read and change the subscription at Paddle and write what they learn to the account
through `setAccountPlan`.

* `fetchSubscription`, `reconcile` — bring the account in line with Paddle
* `createCheckout` — a transaction for a new subscription
* `applyChange`, `cancelScheduledChange` — plan changes of a live subscription
* `applyDuePendingChanges` — the sweep of the billing scheduler
* `handleWebhook`
-/

namespace Feedbase

/-- `directionOf`. -/
inductive Direction where
  | same
  | upgrade
  | downgrade
  deriving DecidableEq, Repr

/-- A higher tier is an upgrade; within a tier, so is a move to yearly billing. -/
def directionOf (curPlan : String) (curInterval : Interval) (newPlan : String)
    (newInterval : Interval) : Direction :=
  if curPlan = newPlan ∧ curInterval = newInterval then .same
  else if (planRank newPlan).above (planRank curPlan) then .upgrade
  else if (planRank curPlan).above (planRank newPlan) then .downgrade
  else if newInterval = .year then .upgrade else .downgrade

/-- A subscription in the provider-agnostic shape. -/
structure NormalizedSub where
  subscriptionId : String
  customerId : String
  status : PaddleStatus
  planName : String
  interval : Option Interval
  currentPeriodEnd : Option Time
  cancelAtPeriodEnd : Bool
  discountId : Option String
  deriving DecidableEq

def normalizeSub (env : Env) (sub : PaddleSub) : NormalizedSub where
  subscriptionId := sub.id
  customerId := sub.customerId
  status := sub.status
  planName :=
    if sub.status.isActive then (planByPaddlePriceId env sub.priceId).getD "free" else "free"
  interval := if sub.status.isActive then intervalByPaddlePriceId env sub.priceId else none
  currentPeriodEnd := sub.endsAt
  cancelAtPeriodEnd := sub.cancelScheduled
  discountId := orNull sub.discountId

/-! ### Calls of the Paddle SDK -/

def paddleSubscriptionsGet (id : String) : Handler PaddleSub :=
  call .paddleSubscriptionsGet fun w => (w.paddle.get id).map (·, w)

def paddleSubscriptionsList (customerId : String) : Handler (List PaddleSub) :=
  call .paddleSubscriptionsList fun w => some (w.paddle.listLive customerId, w)

def paddleSubscriptionsUpdate (cfg : Config) (id : String) (patch : SubPatch) : Handler Unit :=
  call .paddleSubscriptionsUpdate fun w =>
    if (w.paddle.get id).isSome then
      some ((), { w with paddle := w.paddle.updateSub cfg id patch })
    else none

def paddleSubscriptionsCancel (id : String) : Handler Unit :=
  call .paddleSubscriptionsCancel fun w =>
    if (w.paddle.get id).isSome then some ((), { w with paddle := w.paddle.cancelSub id })
    else none

def paddleCustomersList (email : String) : Handler (List PaddleCustomer) :=
  call .paddleCustomersList fun w => some (w.paddle.customersOf email, w)

/-- The id of a new customer is chosen by Paddle. -/
def paddleCustomersCreate (email : String) : Handler String :=
  call .paddleCustomersCreate fun w =>
    let id := "ctm_" ++ toString w.paddle.created
    some (id, { w with paddle :=
      { w.paddle with
        customers := w.paddle.customers ++ [⟨id, email⟩]
        created := w.paddle.created + 1 } })

def paddleDiscountsGet (id : String) : Handler PaddleDiscount :=
  call .paddleDiscountsGet fun w => (w.paddle.discounts.find? (·.id == id)).map (·, w)

/-- What is left to pay after a discount may be less than Paddle accepts. -/
def paddleTransactionsCreate (txn : PaddleTransaction) : Handler Nat :=
  Prog.atomic fun w =>
    if w.fails .paddleTransactionsCreate then (.error .error, w)
    else if w.fails .paddleMinimum then (.error .belowMinimum, w)
    else
      (.ok w.paddle.transactions.length, { w with paddle :=
        { w.paddle with transactions := w.paddle.transactions ++ [txn] } })

theorem exec_paddleTransactionsCreate_ok {txn : PaddleTransaction} {w w' : World} {n : Nat}
    (h : (paddleTransactionsCreate txn).exec w = (.ok n, w')) :
    w' = { w with paddle :=
      { w.paddle with transactions := w.paddle.transactions ++ [txn] } } := by
  rw [paddleTransactionsCreate, Prog.exec_atomic] at h
  split_ifs at h
  · cases h
  · cases h
  · cases h
    rfl

/-! ### Offers on a live subscription -/

/-- The subscription holds a discount that stands in the way of the live offer: one
that applies to its current price, or one that cannot be looked up. -/
def discountBlocks (cfg : Config) (sub : NormalizedSub) : Handler Bool :=
  match sub.discountId with
  | none => pure false
  | some discountId =>
    tryCatch (do
      let d ← paddleDiscountsGet discountId
      let currentPriceId := paddlePriceIdFor cfg.env sub.planName (sub.interval.getD .month)
      return d.restrictTo.isEmpty || currentPriceId.any d.restrictTo.contains) fun _ => pure true

/-- `ensureOfferDiscount`: attach the live offer from the next billing period; every
failure is swallowed. -/
def ensureOfferDiscount (cfg : Config) (sub : NormalizedSub) : Handler Unit :=
  tryCatch
    (if sub.planName = "free" ∨ sub.status.isActive = false then pure ()
    else do
      if ← discountBlocks cfg sub then pure ()
      else
        let offer ← getActiveOfferForPlanInterval cfg sub.planName sub.interval
        match offer.bind (·.paddleDiscountId) with
        | none => pure ()
        | some discountId =>
          paddleSubscriptionsUpdate cfg sub.subscriptionId { discountId := some discountId })
    fun _ => pure ()

/-- Get or create the account's Paddle customer. -/
def ensurePaddleCustomer (email : String) : Handler String := do
  let acct ← getAccount email
  match orNull acct.paddleCustomerId with
  | some id => pure id
  | none =>
    let existing ← paddleCustomersList email
    let id ← match existing.head? with
      | some customer => pure customer.id
      | none => paddleCustomersCreate email
    setAccountPlan email { paddleCustomerId := some (some id) }
    return id

/-! ### Reconciliation -/

/-- The customer id to search by: the stored one, else the first customer with the
account's email, which is then stored. -/
def resolveCustomer (email : String) (acct : BillingAccount) : Handler (Option String) :=
  match orNull acct.paddleCustomerId with
  | some id => pure (some id)
  | none => do
    let found ← paddleCustomersList email
    match orNull (found.head?.map (·.id)) with
    | some id =>
      setAccountPlan email { paddleCustomerId := some (some id) }
      return some id
    | none => return none

/-- Find the account's subscription: by the stored id whatever its state, else the
first live one of the customer, whose id is then stored. -/
def fetchSubscription (cfg : Config) (email : String) : Handler (Option NormalizedSub) := do
  let acct ← getAccount email
  match orNull acct.paddleSubscriptionId with
  | some id =>
    let sub ← paddleSubscriptionsGet id
    return some (normalizeSub cfg.env sub)
  | none =>
    match ← resolveCustomer email acct with
    | none => return none
    | some customerId =>
      let subs ← paddleSubscriptionsList customerId
      match subs.head? with
      | none => return none
      | some sub =>
        -- remembered, so that the next run asks for it by its id
        setAccountPlan email { paddleSubscriptionId := some (some sub.id) }
        return some (normalizeSub cfg.env sub)

/-- A scheduled change whose effective date is still in the future. -/
def PlanColumns.pendingActive (c : PlanColumns) (now : Time) : Bool :=
  (orNull c.pendingPlan).isSome && c.pendingEffectiveAt.any (now < ·)

/-- What `reconcile` writes while a scheduled downgrade is in flight. -/
def heldFields (acct : BillingAccount) (sub : NormalizedSub) : AccountFields where
  subscriptionStatus := some (some sub.status.text)
  currentPeriodEnd := some (acct.currentPeriodEnd.or sub.currentPeriodEnd)
  paddleSubscriptionId := some (some sub.subscriptionId)
  paddleCustomerId := some (some sub.customerId)

/-- What `reconcile` writes otherwise: the subscription, and no scheduled change. -/
def liveFields (sub : NormalizedSub) : AccountFields where
  planName := some (some sub.planName)
  subscriptionStatus := some (some sub.status.text)
  billingInterval := some sub.interval
  currentPeriodEnd := some sub.currentPeriodEnd
  paddleSubscriptionId := some (some sub.subscriptionId)
  paddleCustomerId := some (some sub.customerId)
  pendingPlan := some none
  pendingInterval := some none
  pendingEffectiveAt := some none

/-- A comp is left alone until it has ended. -/
def reconcileComped (email : String) (acct : BillingAccount) : Handler Unit := do
  let now ← getNow
  if acct.currentPeriodEnd.any (· < now) then resetAccountToFree email none
  else pure ()

/-- `reconcile` once a live paid subscription has been found. -/
def reconcileLive (cfg : Config) (email : String) (acct : BillingAccount) (sub : NormalizedSub) :
    Handler Unit := do
  let now ← getNow
  if acct.pendingActive now then setAccountPlan email (heldFields acct sub)
  else
    ensureOfferDiscount cfg sub
    setAccountPlan email (liveFields sub)

/-- Bring the account in line with Paddle. -/
def reconcile (cfg : Config) (email : String) : Handler Unit :=
  if email = "" ∨ isPaddleConfigured cfg.env = false then pure ()
  else do
    let acct ← getAccount email
    if acct.subscriptionStatus = some "comped" then reconcileComped email acct
    else
      let found ← fetchSubscription cfg email
      match found.filter (·.planName ≠ "free") with
      | some sub => reconcileLive cfg email acct sub
      | none =>
        -- no live paid subscription: only an account with a status is reset
        if (orNull acct.subscriptionStatus).isSome then
          resetAccountToFree email (found.map (·.status.text))
        else pure ()

/-! ### Checkout -/

/-- The account has a subscription that is still billing. -/
def BillingAccount.hasLiveSubscription (a : BillingAccount) : Bool :=
  (orNull a.paddleSubscriptionId).isSome &&
    ["active", "trialing", "past_due"].contains ((orNull a.subscriptionStatus).getD "")

/-- The discount a checkout applies: a redeemed promo code's, else the active offer's. -/
def checkoutDiscount (cfg : Config) (plan : String) (billingInterval : Interval)
    (promotionCode : Option String) : Handler (Option String) :=
  match orNull promotionCode with
  | some discountId => do
    let promo ← query fun db => db.promoCodes.rows.find? fun p =>
      p.paddleDiscountId == some discountId && p.isActive
    let restriction := orNull (promo.bind (·.appliesToPlan))
    if restriction.any fun r => r ≠ "any" ∧ r ≠ plan then reject 400 "promo_plan_mismatch"
    else return some discountId
  | none => do
    let offer ← getActiveOfferForPlanInterval cfg plan billingInterval
    return offer.bind (·.paddleDiscountId)

/-- `createCheckout`: a transaction at the plan's price for an account without a live
subscription. -/
def createCheckout (cfg : Config) (plan : String) (auth : AuthData)
    (promotionCode interval : Option String) : Handler (Reply Nat) :=
  let billingInterval := billingIntervalOf interval
  if auth.role ≠ .owner then reject 403 "billing_forbidden"
  else if isPaddleConfigured cfg.env = false then reject 500 "stripe_not_configured"
  else
    match paddlePriceIdFor cfg.env plan billingInterval with
    | none => reject 400 "invalid_plan"
    | some priceId => do
      let existing ← getAccount auth.email
      if existing.hasLiveSubscription then reject 400 "subscription_already_active"
      else
        let discountId ← checkoutDiscount cfg plan billingInterval promotionCode
        tryCatch
          (do
            let customerId ← ensurePaddleCustomer auth.email
            let txn ← paddleTransactionsCreate
              { priceId := priceId, customerId := customerId, accountEmail := auth.email
                discountId := discountId }
            resolve 200 "checkout_session_created" txn)
          fun
          -- told apart by the text of the error, which names the minimum charge
          | .belowMinimum => reject 400 "discount_below_minimum"
          | _ => reject 500 "failed_to_create_checkout"

/-! ### Plan changes -/

/-- The account as a plan change sees it. -/
structure ChangeContext where
  email : String
  subId : String
  curPlan : String
  curInterval : Interval
  periodEnd : Option Time
  deriving DecidableEq

/-- `loadForChange`: owner, Paddle configured, and a subscription that is not a comp. -/
def loadForChange (cfg : Config) (auth : AuthData) : Handler ChangeContext :=
  if auth.role ≠ .owner then reject 403 "billing_forbidden"
  else if isPaddleConfigured cfg.env = false then reject 500 "stripe_not_configured"
  else do
    let acct ← getAccount auth.email
    match orNull acct.paddleSubscriptionId with
    | none => reject 400 "no_active_subscription"
    | some subId =>
      if acct.subscriptionStatus = some "comped" then reject 400 "no_active_subscription"
      else
        return { email := auth.email
                 subId := subId
                 curPlan := (orNull (some acct.planName)).getD "free"
                 curInterval := acct.billingInterval.getD .month
                 periodEnd := acct.currentPeriodEnd }

/-- The discount to attach when moving to a plan and interval. -/
def offerDiscountFor (cfg : Config) (plan : String) (interval : Interval) :
    Handler (Option String) := do
  let offer ← getActiveOfferForPlanInterval cfg plan interval
  return offer.bind (·.paddleDiscountId)

/-- What a successful plan change replies with. -/
structure PlanChange where
  direction : Direction
  plan : String
  interval : Interval
  effectiveAt : Option Time := none
  deriving DecidableEq

/-- `subscriptions.update` with one item; Paddle refuses an item without a price. -/
def changeItem (cfg : Config) (subId : String) (priceId discountId : Option String)
    (prorateNow : Bool) : Handler Unit :=
  match priceId with
  | none => throw .error
  | some priceId =>
    paddleSubscriptionsUpdate cfg subId
      { priceId := some priceId, discountId := discountId, prorateNow := prorateNow }

/-- An upgrade: charge the difference now, then mirror Paddle. -/
def applyUpgrade (cfg : Config) (c : ChangeContext) (plan : String) (interval : Interval) :
    Handler (Reply PlanChange) := do
  let discountId ← offerDiscountFor cfg plan interval
  changeItem cfg c.subId (paddlePriceIdFor cfg.env plan interval) discountId true
  reconcile cfg c.email
  resolve 200 "plan_changed" ⟨.upgrade, plan, interval, none⟩

/-- A downgrade: the item is swapped without billing, the plan kept until the period
ends. -/
def applyDowngrade (cfg : Config) (c : ChangeContext) (plan : String) (interval : Interval) :
    Handler (Reply PlanChange) := do
  if interval = c.curInterval then
    let discountId ← offerDiscountFor cfg plan interval
    changeItem cfg c.subId (paddlePriceIdFor cfg.env plan interval) discountId false
  setAccountPlan c.email
    { pendingPlan := some (some plan)
      pendingInterval := some (some interval)
      pendingEffectiveAt := some c.periodEnd }
  resolve 200 "plan_change_scheduled" ⟨.downgrade, plan, interval, c.periodEnd⟩

/-- Anything but a server response becomes `plan_change_failed`. -/
def planChangeFailed {α : Type} : Failure → Handler α
  | .rejected code key => reject code key
  | _ => reject 500 "plan_change_failed"

/-- `applyChange`. -/
def applyChange (cfg : Config) (plan : String) (interval : Option String) (auth : AuthData) :
    Handler (Reply PlanChange) := do
  let c ← tryCatch (loadForChange cfg auth) planChangeFailed
  let billingInterval := billingIntervalOf interval
  let direction := directionOf c.curPlan c.curInterval plan billingInterval
  let intervalChanged := billingInterval ≠ c.curInterval
  if direction = .same then reject 400 "already_on_plan"
  else if intervalChanged ∧ c.curInterval = .year then reject 400 "downgrade_interval_unsupported"
  else if direction = .downgrade ∧ intervalChanged ∧ c.curInterval = .month then
    reject 400 "downgrade_interval_unsupported"
  else
    tryCatch
      (if direction = .upgrade then applyUpgrade cfg c plan billingInterval
      else applyDowngrade cfg c plan billingInterval)
      fun _ => reject 500 "plan_change_failed"

/-- `cancelScheduledChange`: put the item back if it differs, and clear the markers. -/
def cancelScheduledChange (cfg : Config) (auth : AuthData) : Handler (Reply Unit) := do
  let c ← tryCatch (loadForChange cfg auth) planChangeFailed
  let acct ← getAccount c.email
  if orNull acct.pendingPlan = none then resolve 200 "plan_change_cancelled" ()
  else
    tryCatch
      (do
        let priceId := paddlePriceIdFor cfg.env c.curPlan c.curInterval
        let sub ← paddleSubscriptionsGet c.subId
        -- the item differs only if the downgrade has swapped it at once
        if priceId.isSome ∧ orNull sub.priceId ≠ priceId then
          paddleSubscriptionsUpdate cfg c.subId { priceId := priceId }
        setAccountPlan c.email
          { pendingPlan := some none, pendingInterval := some none
            pendingEffectiveAt := some none }
        resolve 200 "plan_change_cancelled" ())
      fun _ => reject 500 "plan_change_failed"

/-- `cancelLiveSubscription`, used before a comp; failures are swallowed. -/
def cancelLiveSubscription (cfg : Config) (email : String) : Handler Unit := do
  let acct ← getAccount email
  match orNull acct.paddleSubscriptionId with
  | none => pure ()
  | some subId =>
    if isPaddleConfigured cfg.env = false then pure ()
    else tryCatch (paddleSubscriptionsCancel subId) fun _ => pure ()

/-- The part of a subscription event the webhook reads; the event names its type. -/
structure PaddleEvent where
  isSubscription : Bool
  accountEmail : Option String
  subscriptionId : Option String
  customerId : Option String

/-- `handleWebhook` once the signature has been verified. -/
def handleWebhook (cfg : Config) (event : PaddleEvent) : Handler Unit :=
  tryCatch
    (if event.isSubscription = false then pure ()
    else do
      let email ← match orNull event.accountEmail with
        | some email => pure (some email)
        -- no address on the subscription: the account that stores one of its ids
        | none =>
          if (orNull event.subscriptionId).isNone ∧ (orNull event.customerId).isNone then
            pure none
          else query fun db => (db.billingAccounts.rows.find? fun a =>
            sameKey a.paddleSubscriptionId event.subscriptionId ||
              sameKey a.paddleCustomerId event.customerId).map (·.email)
      match email with
      | some email => reconcile cfg email
      | none => pure ())
    -- logged only: a delivery that was verified is always acknowledged
    fun _ => pure ()

/-! ### The sweep of the billing scheduler -/

/-- A row the sweep selects. -/
def BillingAccount.isDue (a : BillingAccount) (now leadSeconds : Time) : Bool :=
  a.pendingPlan.isSome && a.pendingEffectiveAt.any (· ≤ now + leadSeconds) &&
    a.paddleSubscriptionId.isSome && a.subscriptionStatus != some "comped"

/-- One day. -/
def daySeconds : Time := 24 * 3600

/-- One iteration of the sweep, inside its `try`. -/
def applyDueChange (cfg : Config) (row : BillingAccount) : Handler Unit := do
  let targetInterval := row.pendingInterval.getD .month
  match paddlePriceIdFor cfg.env (row.pendingPlan.getD "") targetInterval with
  | none => pure ()
  | some targetPriceId => do
    let subId := row.paddleSubscriptionId.getD ""
    let sub ← paddleSubscriptionsGet subId
    -- swapped at request time: `reconcile` mirrors it once the date has passed
    if orNull sub.priceId = some targetPriceId then pure ()
    else if sub.endsAt.any fun periodEnd =>
        row.pendingEffectiveAt.any fun due => due + daySeconds < periodEnd then
      -- the renewal came first: aim at the new period end instead
      setAccountPlan row.email { pendingEffectiveAt := some sub.endsAt }
    else
      let liveInterval := intervalByPaddlePriceId cfg.env sub.priceId
      paddleSubscriptionsUpdate cfg subId
        { priceId := some targetPriceId, prorateNow := liveInterval ≠ some targetInterval }
      reconcile cfg row.email

/-- `applyDuePendingChanges`: a failing account does not stop the sweep. -/
def applyDuePendingChanges (cfg : Config) (leadSeconds : Time) : Handler Unit :=
  if isPaddleConfigured cfg.env = false then pure ()
  else do
    let rows ← Prog.read fun w =>
      w.db.billingAccounts.rows.filter (·.isDue w.now leadSeconds)
    rows.forM fun row => tryCatch (applyDueChange cfg row) fun _ => pure ()

end Feedbase
