import Feedbase.Billing.PaddleBilling
import Feedbase.Users.Workspaces

/-!
# Redeeming a promo code

`claimRedemption` is a transaction of its own: the conditional `UPDATE` takes the row
lock of the code and keeps it until the commit or the rollback, and nobody sees its
writes before the commit. Everything else is one statement at a time.

## Main definitions

* `claimUpdate`, `claimInsert`, `claimCommit`, `rollback`, `claimRedemption`
* `releaseRedemption`
* `redeemPromo`
-/

namespace Feedbase

/-! ### The active provider -/

/-- `stripe.subscriptions.cancel(id)`. -/
def stripeSubscriptionsCancel (id : String) : Handler Unit :=
  call .stripeSubscriptionsCancel fun w =>
    if w.stripe.subscriptions.any (·.id == id) then
      some ((), { w with
        stripe := { w.stripe with
          subscriptions := w.stripe.subscriptions.map fun s =>
            if s.id == id then { s with status := .canceled } else s } })
    else none

/-- `cancelActiveSubscription`: best effort, on the provider that is active. -/
def cancelActiveSubscription (cfg : Config) (email : String) : Handler Unit :=
  if isPaddleActive cfg.env then cancelLiveSubscription cfg email
  else do
    let acct ← getAccount email
    match orNull acct.stripeSubscriptionId with
    | none => pure ()
    | some subId =>
      if isStripeConfigured cfg.env = false then pure ()
      else tryCatch (stripeSubscriptionsCancel subId) fun _ => pure ()

/-! ### The claim -/

/-- Nobody else's transaction holds the row lock of the code. -/
def World.unlocked (w : World) (promoId : Nat) : Bool := w.claims.all (·.promoId != promoId)

/-- The rows the conditional `UPDATE` matches. -/
def PromoCode.claimable (p : PromoCode) (now : Time) : Bool :=
  p.isActive && p.expiresAt.all (now < ·) && p.maxRedemptions.all (p.timesRedeemed < ·)

/-- The world once the claim has its lock. -/
def World.withClaim (w : World) (promoId : Nat) (counted : Bool) : World :=
  { w with claims := w.claims ++ [⟨promoId, counted, none⟩] }

/-- The first statement of the transaction: it waits for the row lock, takes it, and
returns whether a row matched. -/
def claimUpdate (promoId : Nat) : Handler Bool :=
  Prog.step (fun w => w.fails .claimUpdate || w.unlocked promoId) fun w =>
    if w.fails .claimUpdate then (.error .error, w)
    else
      let counted := w.db.promoCodes.rows.any fun p => p.id == promoId && p.claimable w.now
      (.ok counted, w.withClaim promoId counted)

/-- The foreign keys of a redemption. -/
def redemptionRefers (db : Db) (row : PromoRedemption) : Bool :=
  (db.promoCodes.byId row.promoCodeId).isSome && (db.tenants.byId row.tenantId).isSome

/-- The world once the claim has its pending row. -/
def World.withPending (w : World) (row : PromoRedemption) : World :=
  { w with
    claims := w.claims.map fun c =>
      if c.promoId == row.promoCodeId then { c with pending := some row } else c }

/-- The second statement: `INSERT INTO promo_redemptions`. -/
def claimInsert (row : PromoRedemption) : Handler Unit :=
  Prog.atomic fun w =>
    if w.fails .claimInsert || !redemptionRefers w.db row then (.error .error, w)
    else if w.db.promoRedemptions.rows.any (Sql.Row.clash · row) then (.error .duplicate, w)
    else (.ok (), w.withPending row)

/-- The transaction is over and its lock is free. -/
def World.withoutClaim (w : World) (promoId : Nat) : World :=
  { w with claims := w.claims.filter (·.promoId != promoId) }

/-- The world after the commit. -/
def World.committed (w : World) (promoId : Nat) (redemptions : Sql.Table PromoRedemption) : World :=
  { w.withoutClaim promoId with
    db := { w.db with
      promoCodes := w.db.promoCodes.update (fun p => p.id == promoId) fun p =>
        { p with timesRedeemed := p.timesRedeemed + 1 }
      promoRedemptions := redemptions } }

/-- `COMMIT`: the count and the row become visible. -/
def claimCommit (promoId : Nat) : Handler Unit :=
  call .claimCommit fun w => do
    let claim ← w.claims.find? (·.promoId == promoId)
    let row ← claim.pending
    (w.db.promoRedemptions.insert? fun id => { row with id := id }).map fun redemptions =>
      ((), w.committed promoId redemptions)

/-- `ROLLBACK`. -/
def rollback (promoId : Nat) : Handler Unit := Prog.write fun w => w.withoutClaim promoId

/-- A connection and `BEGIN`. -/
def beginTransaction : Handler Unit := call .getConnection fun w => some ((), w)

/-- `{ ok, reason }`. -/
inductive ClaimResult where
  | claimed
  | refused (reason : String)
  deriving DecidableEq

def claimRedemption (promoId : Nat) (row : PromoRedemption) : Handler ClaimResult := do
  beginTransaction
  let counted ← claimUpdate promoId
  -- the guarded UPDATE found no room below the limit
  if counted = false then
    rollback promoId
    return .refused "promo_code_exhausted"
  else
    tryCatch
      (do
        claimInsert row
        claimCommit promoId
        return .claimed)
      fun e => do
        -- the count goes back with the transaction
        rollback promoId
        match e with
        | .duplicate => return .refused "promo_already_redeemed"
        | e => throw e

/-! ### The release -/

/-- An uncommitted row with the key of the code and the account. -/
def World.pendingKey (w : World) (promoId : Nat) (email : String) : Bool :=
  w.claims.any fun c => c.pending.any fun r =>
    r.promoCodeId == promoId && r.accountEmail == some email

/-- The world after the `DELETE`. -/
def World.rowDeleted (w : World) (promoId : Nat) (email : String) : World :=
  { w with
    db := { w.db with
      promoRedemptions := w.db.promoRedemptions.delete fun r =>
        r.promoCodeId == promoId && r.accountEmail == some email } }

/-- `DELETE FROM promo_redemptions WHERE promo_code_id = ? AND account_email = ?`. -/
def releaseDelete (promoId : Nat) (email : String) : Handler Unit :=
  Prog.step (fun w => w.fails .releaseDelete || !w.pendingKey promoId email) fun w =>
    if w.fails .releaseDelete then (.error .error, w)
    else (.ok (), w.rowDeleted promoId email)

/-- The world after the `UPDATE`. -/
def World.countReleased (w : World) (promoId : Nat) : World :=
  { w with
    db := { w.db with
      promoCodes := w.db.promoCodes.update (fun p => p.id == promoId) fun p =>
        { p with timesRedeemed := p.timesRedeemed - 1 } } }

/-- `UPDATE promo_codes SET times_redeemed = GREATEST(times_redeemed - 1, 0) …`, which
waits for the row lock. -/
def releaseUpdate (promoId : Nat) : Handler Unit :=
  Prog.step (fun w => w.fails .releaseUpdate || w.unlocked promoId) fun w =>
    if w.fails .releaseUpdate then (.error .error, w)
    else (.ok (), w.countReleased promoId)

/-- The world with a line about a redemption that was not given back. -/
def World.withFailedRelease (w : World) (promoId : Nat) (email : String) : World :=
  { w with failedReleases := w.failedReleases ++ [(promoId, email)] }

/-- `console.error("releaseRedemption failed (promo slot may stay consumed):", …)`. -/
def logFailedRelease (promoId : Nat) (email : String) : Handler Unit :=
  Prog.write fun w => w.withFailedRelease promoId email

/-- `releaseRedemption`: two statements; a failure is only logged. -/
def releaseRedemption (promoId : Nat) (email : String) : Handler Unit :=
  tryCatch
    (do
      releaseDelete promoId email
      releaseUpdate promoId)
    fun _ => logFailedRelease promoId email

/-! ### The request -/

/-- What a redeemed code replies with. -/
inductive Redeemed where
  | freePlan (plan : Option String)
  | percentOff (percentOff : Option Nat) (appliesToPlan promotionCode : Option String)
  deriving DecidableEq

/-- The end of the comp a `free_plan` code grants; a month is thirty days. -/
def PromoCode.periodEnd (p : PromoCode) (now : Time) : Option Time :=
  if p.duration = .forever then none
  else
    let months := (p.durationMonths.filter (· ≠ 0)).getD 1
    some (now + months * (30 * daySeconds))

/-- The columns a comp writes. -/
def compFields (plan : Option String) (periodEnd : Option Time) : AccountFields where
  planName := some plan
  subscriptionStatus := some (some "comped")
  billingInterval := some none
  stripeSubscriptionId := some none
  paddleSubscriptionId := some none
  currentPeriodEnd := some periodEnd
  pendingPlan := some none
  pendingInterval := some none
  pendingEffectiveAt := some none

/-- The grant of a `free_plan` code: the live subscription is cancelled first. -/
def grantFreePlan (cfg : Config) (promo : PromoCode) (email : String) (periodEnd : Option Time) :
    Handler Unit := do
  cancelActiveSubscription cfg email
  setAccountPlan email (compFields promo.planGrant periodEnd)

/-- The redemption a claim records. -/
def redemptionOf (promo : PromoCode) (tenantId userId : Nat) (email : String)
    (planGranted : Option String) (expiresAt : Option Time) : PromoRedemption where
  id := 0
  promoCodeId := promo.id
  tenantId := tenantId
  redeemedByUserId := some userId
  accountEmail := some email
  planGranted := planGranted
  expiresAt := expiresAt

/-- A `free_plan` code: claim, then grant, and release the claim if the grant fails. -/
def redeemFreePlan (cfg : Config) (promo : PromoCode) (auth : AuthData) :
    Handler (Reply Redeemed) := do
  let now ← getNow
  let periodEnd := promo.periodEnd now
  let row := redemptionOf promo (auth.tenantId.getD 0) auth.id auth.email promo.planGrant periodEnd
  match ← claimRedemption promo.id row with
  | .refused reason => reject 400 reason
  | .claimed =>
    tryCatch (grantFreePlan cfg promo auth.email periodEnd) fun e => do
      releaseRedemption promo.id auth.email
      throw e
    resolve 200 "promo_code_redeemed" (.freePlan promo.planGrant)

/-- A `percent_off` code: the claim is all there is to record. -/
def redeemPercentOff (cfg : Config) (promo : PromoCode) (auth : AuthData) :
    Handler (Reply Redeemed) := do
  let row := redemptionOf promo (auth.tenantId.getD 0) auth.id auth.email none none
  match ← claimRedemption promo.id row with
  | .refused reason => reject 400 reason
  | .claimed =>
    let promotionCode :=
      if isPaddleActive cfg.env then promo.paddleDiscountId else promo.stripePromotionCodeId
    resolve 200 "promo_code_valid" (.percentOff promo.percentOff promo.appliesToPlan promotionCode)

/-- The pre-checks, which race with other requests, and the claim. -/
def redeemNormalized (cfg : Config) (normalized : String) (auth : AuthData) :
    Handler (Reply Redeemed) := do
  match ← query fun db => db.promoCodes.rows.find? fun p => p.code == normalized && p.isActive with
  | none => reject 400 "promo_code_invalid"
  | some promo => do
    let now ← getNow
    if promo.expiresAt.any (· < now) then reject 400 "promo_code_expired"
    else if promo.maxRedemptions.any fun m => m ≠ 0 ∧ m ≤ promo.timesRedeemed then
      reject 400 "promo_code_exhausted"
    else do
      let already ← query fun db => db.promoRedemptions.rows.any fun r =>
        r.promoCodeId == promo.id && r.accountEmail == some auth.email
      if already then reject 400 "promo_already_redeemed"
      else if promo.type = .freePlan then redeemFreePlan cfg promo auth
      else redeemPercentOff cfg promo auth

def redeemPromo (cfg : Config) (code : String) (auth : AuthData) : Handler (Reply Redeemed) :=
  if auth.role ≠ .owner then reject 403 "billing_forbidden"
  else
    let normalized := toUpperCase (trim code)
    if normalized = "" then reject 400 "promo_code_invalid"
    else tryCatch (redeemNormalized cfg normalized auth) internalError

end Feedbase
