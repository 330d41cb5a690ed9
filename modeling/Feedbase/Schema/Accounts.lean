import Feedbase.Consts.Plans
import Feedbase.Lib.Table

/-!
# Account tables

Row types of the tables that hold tenants, users, billing accounts, promo codes,
offers and the rows keyed by an account's email. Columns keep the schema's names;
`NULL` is `none`. A string stands for its class under the column's collation, a
`DATETIME` is a number of seconds.

The seven plan columns that `tenants` mirrors from `billing_accounts` are one structure,
`PlanColumns`, which both row types extend.
-/

namespace Feedbase

/-- Seconds, the resolution of a `DATETIME` column. -/
abbrev Time := Nat

/-- The plan columns of `billing_accounts`, mirrored onto `tenants`. -/
structure PlanColumns where
  planName : String := "free"
  subscriptionStatus : Option String := none
  billingInterval : Option Interval := none
  currentPeriodEnd : Option Time := none
  pendingPlan : Option String := none
  pendingInterval : Option Interval := none
  pendingEffectiveAt : Option Time := none
  deriving DecidableEq, Repr

/-- A workspace. -/
structure Tenant extends PlanColumns where
  id : Nat
  name : String
  slug : String
  subdomain : String
  website : Option String := none
  stripeCustomerId : Option String := none
  stripeSubscriptionId : Option String := none
  brandingLogoUrl : Option String := none
  brandingPrimaryColor : Option String := none
  requireAuthToPost : Bool := false
  isActive : Bool := true
  deriving DecidableEq

instance : Sql.Row Tenant where
  id := Tenant.id
  clash t u := t.slug == u.slug || t.subdomain == u.subdomain
  clash_comm t u := by rw [Bool.beq_comm (a := t.slug), Bool.beq_comm (a := t.subdomain)]

/-- The subscription of one account. -/
structure BillingAccount extends PlanColumns where
  id : Nat
  email : String
  stripeCustomerId : Option String := none
  stripeSubscriptionId : Option String := none
  paddleCustomerId : Option String := none
  paddleSubscriptionId : Option String := none
  deriving DecidableEq

instance : Sql.Row BillingAccount where
  id := BillingAccount.id
  clash a b := a.email == b.email
  clash_comm _ _ := Bool.beq_comm

inductive Role where
  | owner
  | user
  deriving DecidableEq, Repr

/-- One membership of an account; `tenantId = none` until it has a workspace. -/
structure User where
  id : Nat
  tenantId : Option Nat := none
  email : String
  passwordHash : Option String := none
  fullName : String := ""
  contactNo : Option String := none
  role : Role := .user
  isPlatformAdmin : Bool := false
  avatarUrl : Option String := none
  isActive : Bool := true
  deriving DecidableEq

/-- `NULL` never clashes in a `UNIQUE` index. -/
instance : Sql.Row User where
  id := User.id
  clash u v := u.tenantId.isSome && v.tenantId.isSome && u.tenantId == v.tenantId &&
    u.email == v.email
  clash_comm u v := by
    rw [Bool.beq_comm (a := u.tenantId), Bool.beq_comm (a := u.email),
      Bool.and_comm u.tenantId.isSome]

inductive PromoType where
  | percentOff
  | freePlan
  deriving DecidableEq, Repr

inductive PromoDuration where
  | once
  | repeating
  | forever
  deriving DecidableEq, Repr

structure PromoCode where
  id : Nat
  code : String
  type : PromoType
  appliesToPlan : Option String := none
  percentOff : Option Nat := none
  planGrant : Option String := none
  duration : PromoDuration := .once
  durationMonths : Option Nat := none
  stripePromotionCodeId : Option String := none
  paddleDiscountId : Option String := none
  maxRedemptions : Option Nat := none
  timesRedeemed : Nat := 0
  expiresAt : Option Time := none
  isActive : Bool := true
  deriving DecidableEq

instance : Sql.Row PromoCode where
  id := PromoCode.id
  clash p q := p.code == q.code
  clash_comm _ _ := Bool.beq_comm

/-- The ledger of redeemed codes. -/
structure PromoRedemption where
  id : Nat
  promoCodeId : Nat
  tenantId : Nat
  redeemedByUserId : Option Nat := none
  accountEmail : Option String := none
  planGranted : Option String := none
  expiresAt : Option Time := none
  deriving DecidableEq

/-- `UNIQUE (promo_code_id, account_email)`. -/
instance : Sql.Row PromoRedemption where
  id := PromoRedemption.id
  clash r s := r.accountEmail.isSome && s.accountEmail.isSome && r.promoCodeId == s.promoCodeId &&
    r.accountEmail == s.accountEmail
  clash_comm r s := by
    rw [Bool.beq_comm (a := r.promoCodeId), Bool.beq_comm (a := r.accountEmail),
      Bool.and_comm r.accountEmail.isSome]

structure Offer where
  id : Nat
  plan : String
  billingInterval : Interval := .month
  offerPrice : ℚ
  label : Option String := none
  startsAt : Option Time := none
  endsAt : Option Time := none
  stripeCouponId : Option String := none
  paddleDiscountId : Option String := none
  isActive : Bool := true
  createdBy : Option Nat := none
  createdAt : Time
  deriving DecidableEq

instance : Sql.Row Offer where
  id := Offer.id

inductive InvitationStatus where
  | pending
  | accepted
  | revoked
  deriving DecidableEq, Repr

structure Invitation where
  id : Nat
  tenantId : Nat
  email : String
  token : String
  invitedBy : Option Nat := none
  status : InvitationStatus := .pending
  expiresAt : Time
  acceptedByUserId : Option Nat := none
  deriving DecidableEq

instance : Sql.Row Invitation where
  id := Invitation.id
  clash i j := i.token == j.token
  clash_comm _ _ := Bool.beq_comm

structure PasswordReset where
  id : Nat
  email : String
  tokenHash : String
  isUsed : Bool := false
  expiresAt : Time
  deriving DecidableEq

instance : Sql.Row PasswordReset where
  id := PasswordReset.id
  clash i j := i.tokenHash == j.tokenHash
  clash_comm _ _ := Bool.beq_comm

structure UserSession where
  id : Nat
  sessionId : String
  email : String
  lastSeenAt : Time
  revokedAt : Option Time := none
  deriving DecidableEq

instance : Sql.Row UserSession where
  id := UserSession.id
  clash i j := i.sessionId == j.sessionId
  clash_comm _ _ := Bool.beq_comm

structure OauthAccount where
  id : Nat
  email : String
  provider : String
  providerUserId : String
  deriving DecidableEq

instance : Sql.Row OauthAccount where
  id := OauthAccount.id
  clash i j := i.provider == j.provider && i.providerUserId == j.providerUserId
  clash_comm i j := by
    rw [Bool.beq_comm (a := i.provider), Bool.beq_comm (a := i.providerUserId)]

end Feedbase
