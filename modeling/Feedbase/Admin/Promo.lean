import Feedbase.Billing.RedeemPromo

/-!
# Promo codes in the admin panel

Revoking a code switches it off. Reactivating it merges new terms over the old ones, asks the
active provider for a fresh discount when the code is a percentage, and, with `resetUsage`,
deletes its redemptions in a statement of its own before the update that sets the count to
zero.

Both updates wait for the row lock of the code. Archiving a discount at the provider is best
effort and changes nothing that is read here.

## Main definitions

* `ReactivateData`, `PromoTerms`, `reactivationTerms` — the terms of a reactivation
* `wipeRedemptions`, `updatePromoCode` — the two statements
* `revokePromoCode`, `reactivatePromoCode`
-/

namespace Feedbase

/-! ### The minimum charge -/

/-- `MIN_CHARGE_USD`. -/
def minChargeUsd : ℚ := 7 / 10

/-- The list prices a code could be applied to. -/
def applicablePrices (appliesToPlan : String) : List Int :=
  let plans :=
    if appliesToPlan ≠ "" ∧ appliesToPlan ≠ "any" then [appliesToPlan] else ["pro", "business"]
  (plans.flatMap fun p => [listPrice p .month, listPrice p .year]).filter (0 < ·)

/-- The cheapest price the code could be applied to. -/
def lowestApplicablePrice (appliesToPlan : String) : Option Int :=
  (applicablePrices appliesToPlan).min?

/-- Whether the percentage would leave a charge under the minimum, in cents. -/
def belowMinimumCharge (percentOff : Nat) (appliesToPlan : String) : Bool :=
  (lowestApplicablePrice appliesToPlan).any fun lowest =>
    let remaining : ℚ := mathRound (lowest * (1 - percentOff / 100) * 100) / 100
    remaining < minChargeUsd

/-! ### The terms -/

/-- A member of the request body: absent, `null` or empty, or a value. -/
inductive Given (α : Type) where
  | absent
  | cleared
  | value (a : α)
  deriving DecidableEq

/-- What a reactivation may be given. A choice that is not on its list counts as absent, and so
does a number that is not one; a negative number counts as zero. -/
structure ReactivateData where
  duration : Option PromoDuration := none
  durationMonths : Option Nat := none
  maxRedemptions : Given Nat := .absent
  expiresAt : Given Time := .absent
  percentOff : Option Nat := none
  appliesToPlan : Option String := none
  planGrant : Option String := none
  resetUsage : Bool := false
  deriving DecidableEq

/-- The columns a reactivation writes besides the count. -/
structure PromoTerms where
  appliesToPlan : Option String
  percentOff : Option Nat
  planGrant : Option String
  duration : PromoDuration
  durationMonths : Option Nat
  maxRedemptions : Option Nat
  expiresAt : Option Time
  paddleDiscountId : Option String
  stripePromotionCodeId : Option String
  deriving DecidableEq

/-- The terms merged over those of the row, before a provider is asked for a discount. -/
def mergedTerms (promo : PromoCode) (data : ReactivateData) : PromoTerms :=
  let duration := data.duration.getD promo.duration
  { appliesToPlan := promo.appliesToPlan
    percentOff := promo.percentOff
    planGrant := promo.planGrant
    duration := duration
    -- months only belong to a repeating discount, and are at least one
    durationMonths :=
      if duration = .repeating then
        some (max 1 ((data.durationMonths.or promo.durationMonths).getD 0))
      else none
    -- `null` lifts the limit, a field that is left out keeps it
    maxRedemptions :=
      match data.maxRedemptions with
      | .cleared => none
      | .value n => some (max 1 n)
      | .absent => promo.maxRedemptions
    expiresAt :=
      match data.expiresAt with
      | .cleared => none
      | .value t => some t
      | .absent => promo.expiresAt
    paddleDiscountId := none
    stripePromotionCodeId := none }

/-- `createPaddlePromoDiscount`: a percentage discount, of which only the id is read here. -/
def createPaddlePromoDiscount (cfg : Config) : Handler String :=
  if isPaddleConfigured cfg.env = false then throw .error
  else call .paddleDiscountsCreate fun w =>
    some ("dsc_" ++ toString w.paddle.created,
      { w with paddle := { w.paddle with created := w.paddle.created + 1 } })

/-- `stripe.coupons.create` and `stripe.promotionCodes.create`. -/
def createStripePromotionCode (code : String) : Handler String := do
  call .stripeCouponsCreate fun w => some ((), w)
  call .stripePromotionCodesCreate fun w => some ("promo_" ++ code, w)

/-- The plan a percentage applies to from now on. -/
def reactivatedPlan (promo : PromoCode) (data : ReactivateData) : String :=
  (data.appliesToPlan.filter ["any", "pro", "business"].contains).getD
    ((orNull promo.appliesToPlan).getD "any")

/-- The terms of a percentage, with a fresh discount at the active provider. -/
def percentOffTerms (cfg : Config) (promo : PromoCode) (data : ReactivateData) :
    Handler PromoTerms :=
  let percentOff := max 1 (min 100 ((data.percentOff.or promo.percentOff).getD 0))
  let appliesToPlan := reactivatedPlan promo data
  let terms := { mergedTerms promo data with
    percentOff := some percentOff, appliesToPlan := some appliesToPlan }
  if percentOff = 0 then reject 400 "invalid_percent"
  else if belowMinimumCharge percentOff appliesToPlan then
    reject 400 "promo_percent_below_minimum"
  else if isPaddleActive cfg.env then do
    let id ← createPaddlePromoDiscount cfg
    return { terms with paddleDiscountId := some id }
  else if isStripeConfigured cfg.env = false then reject 500 "stripe_not_configured"
  else do
    let id ← createStripePromotionCode promo.code
    return { terms with stripePromotionCodeId := some id }

/-- The terms of a plan grant. -/
def freePlanTerms (promo : PromoCode) (data : ReactivateData) : Handler PromoTerms :=
  let planGrant := (data.planGrant.filter ["pro", "business"].contains).or promo.planGrant
  if (orNull planGrant).isNone then reject 400 "invalid_plan"
  else pure { mergedTerms promo data with planGrant := planGrant }

def reactivationTerms (cfg : Config) (promo : PromoCode) (data : ReactivateData) :
    Handler PromoTerms :=
  if promo.type = .percentOff then percentOffTerms cfg promo data else freePlanTerms promo data

/-! ### The statements -/

/-- An `UPDATE` of a code that leaves its id and its text alone. -/
structure PromoUpdate where
  set : PromoCode → PromoCode
  keyless : Sql.Table.Keyless set

/-- `SET is_active = 0`. -/
def PromoUpdate.revoked : PromoUpdate where
  set p := { p with isActive := false }
  keyless := ⟨fun _ => rfl, fun _ _ => rfl⟩

/-- `SET is_active = 1, …, times_redeemed = ${resetUsage ? "0" : "times_redeemed"}`. -/
def PromoUpdate.reactivated (terms : PromoTerms) (resetUsage : Bool) : PromoUpdate where
  set p :=
    { p with
      isActive := true
      appliesToPlan := terms.appliesToPlan
      percentOff := terms.percentOff
      planGrant := terms.planGrant
      duration := terms.duration
      durationMonths := terms.durationMonths
      maxRedemptions := terms.maxRedemptions
      expiresAt := terms.expiresAt
      paddleDiscountId := terms.paddleDiscountId
      stripePromotionCodeId := terms.stripePromotionCodeId
      timesRedeemed := if resetUsage then 0 else p.timesRedeemed }
  keyless := ⟨fun _ => rfl, fun _ _ => rfl⟩

/-- The world after an `UPDATE` of one code. -/
def World.promoUpdated (w : World) (promoId : Nat) (u : PromoUpdate) : World :=
  { w with
    db := { w.db with
      promoCodes := w.db.promoCodes.update (fun p => p.id == promoId) u.set u.keyless } }

/-- `UPDATE promo_codes SET … WHERE id = ?`, which waits for the row lock. -/
def updatePromoCode (promoId : Nat) (u : PromoUpdate) : Handler Unit :=
  Prog.step (fun w => w.fails .promoCodesUpdate || w.unlocked promoId) fun w =>
    if w.fails .promoCodesUpdate then (.error .error, w)
    else (.ok (), w.promoUpdated promoId u)

/-- The world without the redemptions of a code. -/
def World.redemptionsWiped (w : World) (promoId : Nat) : World :=
  { w with
    db := { w.db with
      promoRedemptions := w.db.promoRedemptions.delete fun r => r.promoCodeId == promoId } }

/-- `DELETE FROM promo_redemptions WHERE promo_code_id = ?`, which waits for rows that are not
committed yet. -/
def wipeRedemptions (promoId : Nat) : Handler Unit :=
  Prog.step (fun w => w.fails .promoRedemptionsDelete ||
      w.claims.all fun c => c.pending.all (·.promoCodeId != promoId)) fun w =>
    if w.fails .promoRedemptionsDelete then (.error .error, w)
    else (.ok (), w.redemptionsWiped promoId)

/-! ### The requests -/

def revokePromoCode (id : Nat) : Handler (Reply Unit) :=
  tryCatch (do
    match ← query fun db => db.promoCodes.byId id with
    | none => reject 404 "promo_not_found"
    | some _ => do
      updatePromoCode id .revoked
      resolve 200 "promo_revoked" ()) internalError

/-- The end of a reactivation: the `UPDATE` and the reply. -/
def finishReactivation (id : Nat) (terms : PromoTerms) (resetUsage : Bool) :
    Handler (Reply Nat) := do
  updatePromoCode id (.reactivated terms resetUsage)
  resolve 200 "promo_reactivated" id

/-- The statements of a reactivation, once the terms are known. -/
def applyReactivation (id : Nat) (terms : PromoTerms) (resetUsage : Bool) : Handler (Reply Nat) :=
  if resetUsage then do
    wipeRedemptions id
    finishReactivation id terms true
  else finishReactivation id terms false

def reactivatePromoCode (cfg : Config) (id : Nat) (data : ReactivateData) : Handler (Reply Nat) :=
  tryCatch (do
    match ← query fun db => db.promoCodes.byId id with
    | none => reject 404 "promo_not_found"
    | some promo =>
      if promo.isActive then reject 400 "promo_already_active"
      else do
        let terms ← reactivationTerms cfg promo data
        applyReactivation id terms data.resetUsage) (failWith "failed_to_create_promo")

end Feedbase
