import Feedbase.Common.Offers
import Feedbase.Common.Strings

/-!
# Offers in the admin panel

`createOffer` asks the active provider for a discount, switches off the active offer of
the plan and interval, and inserts the new row: three steps, with nothing that keeps
another request out between them. A discount that cannot be created is no reason to
fail; the offer is stored without one.

## Main definitions

* `createPaddleOfferDiscount`, `offerDiscounts` — the discount behind an offer
* `createOffer`, `deactivateOffer`

## Main results

* `within_createOffer`, `within_deactivateOffer` — what one step does to the table
-/

namespace Feedbase

variable {cfg : Config}

/-- The body of `createOffer`. A price that is not a number is `none`; the bounds are the
instants `toLocalDateTime` reads. -/
structure OfferData where
  plan : String
  interval : Option String := none
  offerPrice : Option ℚ
  label : String := ""
  startsAt : Option Time := none
  endsAt : Option Time := none
  deriving DecidableEq

def OFFER_PLANS : List String := ["pro", "business"]

/-! ### The discount -/

/-- `paddle.discounts.create`: the id is chosen by Paddle. -/
def paddleDiscountsCreate (restrictTo : List String) (amount : Int) (periods : Option Nat) :
    Handler String :=
  call .paddleDiscountsCreate fun w =>
    let id := "dsc_" ++ toString w.paddle.created
    some (id, { w with paddle :=
      { w.paddle with
        discounts := w.paddle.discounts ++ [⟨id, restrictTo, amount, periods⟩]
        created := w.paddle.created + 1 } })

/-- The flat discount behind an offer; it can only ever discount the intended price. -/
def createPaddleOfferDiscount (cfg : Config) (plan : String) (interval : Interval)
    (originalPrice : Int) (offerPrice : ℚ) (durationPeriods : Option Nat) :
    Handler (Option String) :=
  if isPaddleConfigured cfg.env = false then pure none
  else do
    let id ← paddleDiscountsCreate (paddlePriceIdFor cfg.env plan interval).toList
      (mathRound ((originalPrice - offerPrice) * 100)) durationPeriods
    return some id

/-- `stripe.coupons.create`. -/
def stripeCouponsCreate (amountOff : Int) : Handler String :=
  call .stripeCouponsCreate fun w =>
    let id := "coupon_" ++ toString w.stripe.coupons.length
    some (id, { w with stripe :=
      { w.stripe with coupons := w.stripe.coupons ++ [⟨id, amountOff⟩] } })

/-- The ids of the Stripe coupon and the Paddle discount that back the offer. -/
def offerDiscounts (cfg : Config) (plan : String) (interval : Interval) (originalPrice : Int)
    (offerPrice : ℚ) (startsAt endsAt : Option Time) :
    Handler (Option String × Option String) :=
  if isPaddleActive cfg.env then
    tryCatch (do
      let now ← getNow
      let id ← createPaddleOfferDiscount cfg plan interval originalPrice offerPrice
        (offerDurationPeriods cfg now interval startsAt endsAt)
      return (none, id)) fun _ => pure (none, none)
  else if isStripeConfigured cfg.env then
    tryCatch (do
      let id ← stripeCouponsCreate (mathRound ((originalPrice - offerPrice) * 100))
      return (some id, none)) fun _ => pure (none, none)
  else pure (none, none)

/-! ### The table -/

/-- The world with another `offers` table. -/
def World.setOffers (w : World) (offers : Sql.Table Offer) : World :=
  { w with db := { w.db with offers := offers } }

/-- `SET is_active = 0`. -/
def Offer.switchedOff (o : Offer) : Offer := { o with isActive := false }

theorem Offer.keyless_switchedOff : Sql.Table.Keyless Offer.switchedOff :=
  ⟨fun _ => rfl, fun _ _ => rfl⟩

/-- `UPDATE offers SET is_active = 0 WHERE …`. -/
def switchOff (p : Offer → Bool) : Handler Unit :=
  call .offersUpdate fun w =>
    some ((), w.setOffers (w.db.offers.update p Offer.switchedOff Offer.keyless_switchedOff))

/-- `INSERT INTO offers`: the id and `created_at` are the server's. -/
def insertOffer (row : Offer) : Handler Nat :=
  call .offersInsert fun w =>
    (w.db.offers.insert? fun id => { row with id := id, createdAt := w.now }).map fun offers =>
      (w.db.offers.next, w.setOffers offers)

/-- A price as a `DECIMAL(10,2)` column stores it. -/
def toDecimal (price : ℚ) : ℚ := mathRound (price * 100) / 100

/-- The part of `createOffer` inside the `try`. -/
def recordOffer (cfg : Config) (data : OfferData) (interval : Interval) (originalPrice : Int)
    (offerPrice : ℚ) (adminId : Nat) : Handler (Reply Nat) := do
  let (stripeCouponId, paddleDiscountId) ←
    offerDiscounts cfg data.plan interval originalPrice offerPrice data.startsAt data.endsAt
  -- the newest offer of a plan and an interval replaces the others
  switchOff fun o => o.plan == data.plan && o.billingInterval == interval && o.isActive
  let id ← insertOffer
    { id := 0
      plan := data.plan
      billingInterval := interval
      offerPrice := toDecimal offerPrice
      label := orNull (some (sliceUnits 120 (trim data.label)))
      startsAt := data.startsAt
      endsAt := data.endsAt
      stripeCouponId := stripeCouponId
      paddleDiscountId := paddleDiscountId
      createdBy := some adminId
      createdAt := 0 }
  resolve 201 "offer_created" id

def createOffer (cfg : Config) (data : OfferData) (adminId : Nat) : Handler (Reply Nat) :=
  if OFFER_PLANS.contains data.plan = false then reject 400 "invalid_plan"
  else
    let interval := billingIntervalOf data.interval
    let originalPrice := listPrice data.plan interval
    match data.offerPrice with
    | none => reject 400 "invalid_offer_price"
    | some offerPrice =>
      if offerPrice ≤ 0 ∨ originalPrice ≤ offerPrice then reject 400 "invalid_offer_price"
      else
        let percentOff := mathRound ((1 - offerPrice / originalPrice) * 100)
        if percentOff < 1 ∨ 100 < percentOff then reject 400 "invalid_offer_price"
        else
          tryCatch (recordOffer cfg data interval originalPrice offerPrice adminId) internalError

/-- Archiving the discount at the provider is best effort and changes nothing that is
read here. -/
def deactivateOffer (id : Nat) : Handler (Reply Unit) :=
  tryCatch (do
    let found ← query fun db => db.offers.byId id
    if found.isNone then reject 404 "offer_not_found"
    else
      switchOff fun o => o.id == id
      resolve 200 "offer_deactivated" ()) internalError

/-! ### What one step does to the table -/

/-- One step of a request: it leaves `offers` alone, switches rows off, or inserts one. -/
inductive OfferStep (w w' : World) : Prop where
  | quiet (now : w'.now = w.now) (offers : w'.db.offers = w.db.offers)
  | off (p : Offer → Bool) (now : w'.now = w.now)
      (offers : w'.db.offers =
        w.db.offers.update p Offer.switchedOff Offer.keyless_switchedOff)
  | add (row : Offer) (now : w'.now = w.now)
      (offers : w.db.offers.insert? (fun id => { row with id := id, createdAt := w.now }) =
        some w'.db.offers)

theorem OfferStep.refl (w : World) : OfferStep w w := .quiet rfl rfl

theorem within_offerQuery {α : Type} (f : World → α) :
    Prog.Within OfferStep (Prog.read f : Handler α) := .read OfferStep.refl f

theorem within_reject {α : Type} (code : Nat) (key : String) :
    Prog.Within OfferStep (reject code key : Handler α) := .throw _

theorem within_internalError {α : Type} (e : Failure) :
    Prog.Within OfferStep (internalError e : Handler α) := by
  cases e with
  | rejected code key => exact within_reject code key
  | duplicate | belowMinimum | error => exact within_reject _ _

theorem within_createPaddleOfferDiscount {plan : String} {interval : Interval}
    {originalPrice : Int} {offerPrice : ℚ} {periods : Option Nat} :
    Prog.Within OfferStep
      (createPaddleOfferDiscount cfg plan interval originalPrice offerPrice periods) := by
  refine .ite (.pure _) (.bind (within_call OfferStep.refl fun w a w' h => ?_) fun _ => .pure _)
  cases h
  exact .quiet rfl rfl

theorem within_offerDiscounts {plan : String} {interval : Interval} {originalPrice : Int}
    {offerPrice : ℚ} {startsAt endsAt : Option Time} :
    Prog.Within OfferStep
      (offerDiscounts cfg plan interval originalPrice offerPrice startsAt endsAt) := by
  refine .ite (.tryCatch (.bind (within_offerQuery _) fun now => ?_) fun _ => .pure _)
    (.ite (.tryCatch (.bind ?_ fun _ => .pure _) fun _ => .pure _) (.pure _))
  · exact .bind within_createPaddleOfferDiscount fun _ => .pure _
  · refine within_call OfferStep.refl fun w a w' h => ?_
    cases h
    exact .quiet rfl rfl

theorem within_switchOff (p : Offer → Bool) : Prog.Within OfferStep (switchOff p) := by
  refine within_call OfferStep.refl fun w a w' h => ?_
  cases h
  exact .off p rfl rfl

theorem within_insertOffer (row : Offer) : Prog.Within OfferStep (insertOffer row) := by
  refine within_call OfferStep.refl fun w a w' h => ?_
  obtain ⟨offers, hins, heq⟩ := Option.map_eq_some_iff.mp h
  cases heq
  exact .add row rfl hins

theorem within_createOffer (data : OfferData) (adminId : Nat) :
    Prog.Within OfferStep (createOffer cfg data adminId) := by
  unfold createOffer
  refine .ite (within_reject _ _) ?_
  dsimp only
  cases data.offerPrice with
  | none => exact within_reject _ _
  | some offerPrice =>
    refine .ite (within_reject _ _) (.ite (within_reject _ _) ?_)
    refine .tryCatch (.bind within_offerDiscounts fun ids => ?_) within_internalError
    exact .bind (within_switchOff _) fun _ => .bind (within_insertOffer _) fun _ => .pure _

theorem within_deactivateOffer (id : Nat) : Prog.Within OfferStep (deactivateOffer id) := by
  refine .tryCatch (.bind (within_offerQuery _) fun found => ?_) within_internalError
  exact .ite (within_reject _ _) (.bind (within_switchOff _) fun _ => .pure _)

end Feedbase
