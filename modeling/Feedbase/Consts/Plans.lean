import Mathlib.Data.Rat.Floor

/-!
# Subscription plans

The plan table, its limits, and the lookups between plans and the price ids of the
payment providers. Price ids, keys and the active provider come from the process
environment (`Env`); an unset or empty variable counts as absent.

`Infinity` among the numeric limits is `none`.

## Main definitions

* `Env`, `isPaddleActive`, `isPaddleConfigured`, `isStripeConfigured`
* `Limits`, `Plan`, `PLANS`, `getPlanLimits`
* `paddlePriceIdFor`, `planByPaddlePriceId`, `intervalByPaddlePriceId` and their
  Stripe counterparts
* `Env.PricesDistinct` — the configured price ids are pairwise distinct
-/

namespace Feedbase

/-- Billing intervals. -/
inductive Interval where
  | month
  | year
  deriving DecidableEq, Repr

/-- `interval === "year" ? "year" : "month"`. -/
def billingIntervalOf (interval : Option String) : Interval :=
  if interval = some "year" then .year else .month

/-- `value || null` for a string. -/
def orNull (v : Option String) : Option String := v.filter (· ≠ "")

@[simp] theorem orNull_none : orNull none = none := rfl

theorem orNull_eq_some_iff {v : Option String} {s : String} :
    orNull v = some s ↔ v = some s ∧ s ≠ "" := by
  cases v with
  | none => simp
  | some t =>
    simp only [orNull, Option.filter_some, decide_eq_true_eq, Option.ite_none_right_eq_some,
      Option.some.injEq]
    constructor
    · rintro ⟨h, rfl⟩
      exact ⟨rfl, h⟩
    · rintro ⟨rfl, h⟩
      exact ⟨h, rfl⟩

theorem orNull_eq_none_iff {v : Option String} : orNull v = none ↔ v = none ∨ v = some "" := by
  cases v with
  | none => simp
  | some t => simp [orNull, Option.filter_some]

@[simp] theorem orNull_orNull (v : Option String) : orNull (orNull v) = orNull v := by
  simp [orNull, Option.filter_filter]

/-- The variables of the process environment that billing reads. -/
structure Env where
  billingProvider : Option String := none
  paddleApiKey : Option String := none
  stripeSecretKey : Option String := none
  paddlePricePro : Option String := none
  paddlePriceProYearly : Option String := none
  paddlePriceBusiness : Option String := none
  paddlePriceBusinessYearly : Option String := none
  stripePricePro : Option String := none
  stripePriceProYearly : Option String := none
  stripePriceBusiness : Option String := none
  stripePriceBusinessYearly : Option String := none

/-- `paddle` unless `BILLING_PROVIDER=stripe`. -/
def isPaddleActive (env : Env) : Bool := env.billingProvider != some "stripe"

def isPaddleConfigured (env : Env) : Bool := (orNull env.paddleApiKey).isSome

def isStripeConfigured (env : Env) : Bool := (orNull env.stripeSecretKey).isSome

/-- The capabilities of a plan. -/
structure Limits where
  seats : Option Nat
  ownWorkspaces : Option Nat
  joinWorkspaces : Option Nat
  customDomain : Bool
  integrations : Bool
  deleteFeedback : Bool
  attachments : Bool
  contactSubmitter : Bool
  multiDevice : Bool
  ownerBadge : Bool
  ownerPrivacy : Bool
  restrictAnonymousPosting : Bool
  deriving DecidableEq, Repr

/-- The boolean capabilities `planAllows` is asked for. -/
inductive Capability where
  | customDomain
  | integrations
  | deleteFeedback
  | attachments
  | contactSubmitter
  | multiDevice
  | ownerBadge
  | ownerPrivacy
  | restrictAnonymousPosting
  deriving DecidableEq, Repr

/-- `limits[capability]`. -/
def Limits.allows (l : Limits) : Capability → Bool
  | .customDomain => l.customDomain
  | .integrations => l.integrations
  | .deleteFeedback => l.deleteFeedback
  | .attachments => l.attachments
  | .contactSubmitter => l.contactSubmitter
  | .multiDevice => l.multiDevice
  | .ownerBadge => l.ownerBadge
  | .ownerPrivacy => l.ownerPrivacy
  | .restrictAnonymousPosting => l.restrictAnonymousPosting

/-- One entry of `PLANS`. -/
structure Plan where
  key : String
  label : String
  price : Nat
  priceId : Option String := none
  priceIdYearly : Option String := none
  paddlePriceId : Option String := none
  paddlePriceIdYearly : Option String := none
  limits : Limits

def freeLimits : Limits where
  seats := some 2
  ownWorkspaces := some 1
  joinWorkspaces := some 1
  customDomain := false
  integrations := false
  deleteFeedback := false
  attachments := false
  contactSubmitter := false
  multiDevice := false
  ownerBadge := false
  ownerPrivacy := false
  restrictAnonymousPosting := false

def proLimits : Limits where
  seats := some 5
  ownWorkspaces := some 3
  joinWorkspaces := some 3
  customDomain := true
  integrations := true
  deleteFeedback := true
  attachments := true
  contactSubmitter := true
  multiDevice := false
  ownerBadge := true
  ownerPrivacy := false
  restrictAnonymousPosting := true

def businessLimits : Limits where
  seats := none
  ownWorkspaces := none
  joinWorkspaces := none
  customDomain := true
  integrations := true
  deleteFeedback := true
  attachments := true
  contactSubmitter := true
  multiDevice := true
  ownerBadge := true
  ownerPrivacy := true
  restrictAnonymousPosting := true

def PLANS (env : Env) : List Plan :=
  [ { key := "free", label := "Free", price := 0, limits := freeLimits },
    { key := "pro", label := "Pro", price := 10
      priceId := orNull env.stripePricePro
      priceIdYearly := orNull env.stripePriceProYearly
      paddlePriceId := orNull env.paddlePricePro
      paddlePriceIdYearly := orNull env.paddlePriceProYearly
      limits := proLimits },
    { key := "business", label := "Business", price := 15
      priceId := orNull env.stripePriceBusiness
      priceIdYearly := orNull env.stripePriceBusinessYearly
      paddlePriceId := orNull env.paddlePriceBusiness
      paddlePriceIdYearly := orNull env.paddlePriceBusinessYearly
      limits := businessLimits } ]

/-- `PLANS[planKey]`. -/
def planOfKey (env : Env) (planKey : String) : Option Plan :=
  (PLANS env).find? (·.key == planKey)

/-- What every object inherits, and the text of it. -/
def inherited : List (String × String) :=
  ["__defineGetter__", "__defineSetter__", "hasOwnProperty", "__lookupGetter__",
    "__lookupSetter__", "isPrototypeOf", "propertyIsEnumerable", "toString", "valueOf",
    "toLocaleString"].map (fun key => (key, "function " ++ key ++ "() { [native code] }")) ++
  [("constructor", "function Object() { [native code] }"), ("__proto__", "[object Object]")]

/-- The value of `PLAN_RANK[plan] ?? 0`: a number, or what a key finds that objects inherit. -/
inductive PlanRank where
  | tier (rank : Nat)
  | inherited (text : String)
  deriving DecidableEq, Repr

def planRank (plan : String) : PlanRank :=
  match inherited.lookup plan with
  | some text => .inherited text
  | none => .tier (if plan = "pro" then 1 else if plan = "business" then 2 else 0)

/-- `>`: two texts are compared as texts, and a text is neither above nor below a number. -/
def PlanRank.above : PlanRank → PlanRank → Bool
  | .tier a, .tier b => decide (b < a)
  | .inherited a, .inherited b => decide (b < a)
  | _, _ => false

/-- Limits of a plan name; unknown names get the free tier. -/
def getPlanLimits (planName : String) : Limits :=
  ((planOfKey {} planName).map Plan.limits).getD freeLimits

@[simp] theorem getPlanLimits_free : getPlanLimits "free" = freeLimits := by decide

@[simp] theorem getPlanLimits_pro : getPlanLimits "pro" = proLimits := by decide

@[simp] theorem getPlanLimits_business : getPlanLimits "business" = businessLimits := by decide

/-! ### List prices -/

/-- `Math.round`, which rounds halves up. -/
def mathRound (q : ℚ) : Int := (q + 1 / 2).floor

/-- `YEARLY_DISCOUNT`. -/
def yearlyDiscount : ℚ := 1 / 5

/-- The list price of a plan: monthly, or the yearly total. -/
def listPrice (planKey : String) (interval : Interval) : Int :=
  let monthly := ((planOfKey {} planKey).map Plan.price).getD 0
  match interval with
  | .year => mathRound (monthly * (1 - yearlyDiscount)) * 12
  | .month => monthly

/-! ### Price ids -/

/-- The Paddle price id of a plan on an interval. -/
def paddlePriceIdFor (env : Env) (planKey : String) (interval : Interval) : Option String :=
  (planOfKey env planKey).bind fun p =>
    match interval with
    | .year => p.paddlePriceIdYearly
    | .month => p.paddlePriceId

/-- The plan a Paddle price id belongs to, monthly or yearly. -/
def planByPaddlePriceId (env : Env) (priceId : Option String) : Option String :=
  (orNull priceId).bind fun id =>
    ((PLANS env).find? fun p =>
      p.paddlePriceId == some id || p.paddlePriceIdYearly == some id).map Plan.key

/-- The interval a Paddle price id is billed on. -/
def intervalByPaddlePriceId (env : Env) (priceId : Option String) : Option Interval :=
  (orNull priceId).map fun id =>
    if (PLANS env).any fun p => p.paddlePriceIdYearly == some id then .year else .month

/-- The Stripe price id of a plan on an interval. -/
def priceIdFor (env : Env) (planKey : String) (interval : Interval) : Option String :=
  (planOfKey env planKey).bind fun p =>
    match interval with
    | .year => p.priceIdYearly
    | .month => p.priceId

/-- The plan a Stripe price id belongs to, monthly or yearly. -/
def planByPriceId (env : Env) (priceId : Option String) : Option String :=
  (orNull priceId).bind fun id =>
    ((PLANS env).find? fun p =>
      p.priceId == some id || p.priceIdYearly == some id).map Plan.key

/-- The Paddle price ids that are set. -/
def Env.paddlePrices (env : Env) : List String :=
  (PLANS env).flatMap fun p => p.paddlePriceId.toList ++ p.paddlePriceIdYearly.toList

/-- The configured Paddle price ids are pairwise distinct. -/
def Env.PricesDistinct (env : Env) : Prop := env.paddlePrices.Nodup

instance (env : Env) : Decidable env.PricesDistinct := inferInstanceAs (Decidable (List.Nodup _))

theorem nodup_toList_append {a : Option String} {l : List String} :
    (a.toList ++ l).Nodup ↔ (∀ x ∈ a, x ∉ l) ∧ l.Nodup := by
  cases a <;> simp

theorem paddlePrices_eq (env : Env) :
    env.paddlePrices =
      (orNull env.paddlePricePro).toList ++ ((orNull env.paddlePriceProYearly).toList ++
        ((orNull env.paddlePriceBusiness).toList ++
          (orNull env.paddlePriceBusinessYearly).toList)) := by
  simp [Env.paddlePrices, PLANS, List.append_assoc]

/-- A price id that belongs to a plan belongs to a paid one. -/
theorem planByPaddlePriceId_ne_free {env : Env} {priceId : Option String} :
    planByPaddlePriceId env priceId ≠ some "free" := by
  intro h
  obtain ⟨id, -, h⟩ := Option.bind_eq_some_iff.mp h
  obtain ⟨p, hp, hkey⟩ := Option.map_eq_some_iff.mp h
  have hmem := List.mem_of_find?_eq_some hp
  have hprice := List.find?_some hp
  simp only [PLANS, List.mem_cons, List.not_mem_nil, or_false] at hmem
  rcases hmem with rfl | rfl | rfl
  · simp at hprice
  · simp at hkey
  · simp at hkey

/-- The four configured prices, one for each paid plan and interval. -/
theorem paddlePriceIdFor_eq_some_iff {env : Env} {k id : String} {i : Interval} :
    paddlePriceIdFor env k i = some id ↔
      (k = "pro" ∧ i = .month ∧ orNull env.paddlePricePro = some id) ∨
      (k = "pro" ∧ i = .year ∧ orNull env.paddlePriceProYearly = some id) ∨
      (k = "business" ∧ i = .month ∧ orNull env.paddlePriceBusiness = some id) ∨
      (k = "business" ∧ i = .year ∧ orNull env.paddlePriceBusinessYearly = some id) := by
  simp only [paddlePriceIdFor, planOfKey, PLANS, List.find?]
  by_cases hfree : "free" = k
  · subst hfree
    cases i <;> simp
  by_cases hpro : "pro" = k
  · subst hpro
    cases i <;> simp
  by_cases hbusiness : "business" = k
  · subst hbusiness
    cases i <;> simp
  · simp [beq_eq_false_iff_ne.mpr hfree, beq_eq_false_iff_ne.mpr hpro,
      beq_eq_false_iff_ne.mpr hbusiness, Ne.symm hpro, Ne.symm hbusiness]

theorem paddlePriceIdFor_ne_empty {env : Env} {k id : String} {i : Interval}
    (h : paddlePriceIdFor env k i = some id) : id ≠ "" := by
  rcases paddlePriceIdFor_eq_some_iff.mp h with ⟨-, -, h⟩ | ⟨-, -, h⟩ | ⟨-, -, h⟩ | ⟨-, -, h⟩
  all_goals exact (orNull_eq_some_iff.mp h).2

theorem plan_ne_empty_of_paddlePriceIdFor {env : Env} {k id : String} {i : Interval}
    (h : paddlePriceIdFor env k i = some id) : k ≠ "" := by
  rintro rfl
  rcases paddlePriceIdFor_eq_some_iff.mp h with h | h | h | h
  all_goals exact absurd h.1 (by decide)

/-- The price a plan is sold at belongs to some plan. -/
theorem planByPaddlePriceId_isSome {env : Env} {k id : String} {i : Interval}
    (h : paddlePriceIdFor env k i = some id) : (planByPaddlePriceId env (some id)).isSome := by
  have hid : orNull (some id) = some id :=
    orNull_eq_some_iff.mpr ⟨rfl, paddlePriceIdFor_ne_empty h⟩
  simp only [planByPaddlePriceId, hid, Option.bind_some, Option.isSome_map, List.find?_isSome]
  obtain ⟨p, hp, hprice⟩ := Option.bind_eq_some_iff.mp h
  refine ⟨p, List.mem_of_find?_eq_some hp, ?_⟩
  cases i with
  | month => simp [hprice]
  | year => simp [hprice]

/-- The price a plan is sold at leads back to the plan and its interval. -/
theorem plan_interval_of_paddlePriceIdFor {env : Env} {k id : String} {i : Interval}
    (hd : env.PricesDistinct) (h : paddlePriceIdFor env k i = some id) :
    planByPaddlePriceId env (some id) = some k ∧ intervalByPaddlePriceId env (some id) = some i := by
  have hid : orNull (some id) = some id :=
    orNull_eq_some_iff.mpr ⟨rfl, paddlePriceIdFor_ne_empty h⟩
  simp only [Env.PricesDistinct, paddlePrices_eq, nodup_toList_append, List.mem_append,
    Option.mem_toList, Option.mem_def, not_or] at hd
  obtain ⟨h₁, h₂, h₃, -⟩ := hd
  simp only [planByPaddlePriceId, intervalByPaddlePriceId, hid, Option.bind_some, Option.map_some,
    PLANS, List.find?, List.any]
  rcases paddlePriceIdFor_eq_some_iff.mp h with
    ⟨rfl, rfl, hp⟩ | ⟨rfl, rfl, hp⟩ | ⟨rfl, rfl, hp⟩ | ⟨rfl, rfl, hp⟩
  · obtain ⟨hy, -, hby⟩ := h₁ id hp
    simp [hp, hy, hby]
  · simp [hp]
  · have hpro : orNull env.paddlePricePro ≠ some id := fun hpro => (h₁ id hpro).2.1 hp
    have hproY : orNull env.paddlePriceProYearly ≠ some id := fun hproY => (h₂ id hproY).1 hp
    simp [hp, beq_eq_false_iff_ne.mpr hpro, beq_eq_false_iff_ne.mpr hproY, h₃ id hp]
  · have hpro : orNull env.paddlePricePro ≠ some id := fun hpro => (h₁ id hpro).2.2 hp
    have hproY : orNull env.paddlePriceProYearly ≠ some id := fun hproY => (h₂ id hproY).2 hp
    simp [hp, beq_eq_false_iff_ne.mpr hpro, beq_eq_false_iff_ne.mpr hproY]

/-- A price id that belongs to a plan is the one the plan is sold at on some interval. -/
theorem planByPaddlePriceId_eq_some {env : Env} {id k : String}
    (h : planByPaddlePriceId env (some id) = some k) :
    ∃ k i, paddlePriceIdFor env k i = some id := by
  obtain ⟨id', hid, h⟩ := Option.bind_eq_some_iff.mp h
  obtain rfl : id = id' := Option.some.inj (orNull_eq_some_iff.mp hid).1
  obtain ⟨p, hp, -⟩ := Option.map_eq_some_iff.mp h
  have hmem := List.mem_of_find?_eq_some hp
  have hprice := List.find?_some hp
  simp only [PLANS, List.mem_cons, List.not_mem_nil, or_false] at hmem
  simp only [paddlePriceIdFor_eq_some_iff]
  rcases hmem with rfl | rfl | rfl
  · simp at hprice
  · rcases (by simpa using hprice : _ ∨ _) with h | h
    · exact ⟨_, _, .inl ⟨rfl, rfl, h⟩⟩
    · exact ⟨_, _, .inr (.inl ⟨rfl, rfl, h⟩)⟩
  · rcases (by simpa using hprice : _ ∨ _) with h | h
    · exact ⟨_, _, .inr (.inr (.inl ⟨rfl, rfl, h⟩))⟩
    · exact ⟨_, _, .inr (.inr (.inr ⟨rfl, rfl, h⟩))⟩

end Feedbase
