import Feedbase.Server

/-!
# Offers

The promotional price of a plan and interval. One path shows offers on the pricing
page, the other picks the discount a checkout attaches. Both select the active rows
`ORDER BY created_at DESC`, which leaves the order of rows with equal `created_at` open:
`RecentFirst` is any order the database may return.

## Main definitions

* `isHonourable`, `Offer.activeAt`, `offerDurationPeriods`, `shapeOffer`
* `activeOffersOf`, `getActiveOffers` — what is displayed
* `activeOfferFor`, `getActiveOfferForPlanInterval` — what is charged
-/

namespace Feedbase

/-- The offer has a discount on the active provider. -/
def isHonourable (env : Env) (row : Offer) : Bool :=
  if isPaddleActive env then (orNull row.paddleDiscountId).isSome
  else (orNull row.stripeCouponId).isSome

/-- `ACTIVE_WHERE`. -/
def Offer.activeAt (row : Offer) (now : Time) : Bool :=
  row.isActive && row.startsAt.all (· ≤ now) && row.endsAt.all (now ≤ ·)

/-- How many billing periods a buyer keeps the price; `none` means for ever. -/
def offerDurationPeriods (cfg : Config) (now : Time) (interval : Interval)
    (startsAt endsAt : Option Time) : Option Nat :=
  match interval with
  | .year => some 1
  | .month => endsAt.map fun e =>
    let (sy, sm, sd) := cfg.dateOf (startsAt.getD now)
    let (ey, em, ed) := cfg.dateOf e
    let months : Int := (ey - sy : Int) * 12 + (em - sm : Int)
    (max 1 (if ed < sd then months - 1 else months)).toNat

/-- The public part of an offer. -/
structure PublicOffer where
  id : Nat
  plan : String
  interval : Interval
  originalPrice : Int
  offerPrice : ℚ
  percentOff : Int
  label : Option String
  durationPeriods : Option Nat
  endsAt : Option Time
  deriving DecidableEq

/-- An offer with the ids of its provider discounts. -/
structure ShapedOffer extends PublicOffer where
  stripeCouponId : Option String
  paddleDiscountId : Option String
  deriving DecidableEq

/-- `shape`. -/
def shapeOffer (cfg : Config) (now : Time) (row : Offer) : ShapedOffer :=
  let originalPrice := listPrice row.plan row.billingInterval
  { id := row.id
    plan := row.plan
    interval := row.billingInterval
    originalPrice := originalPrice
    offerPrice := row.offerPrice
    percentOff :=
      if originalPrice > 0 then mathRound ((1 - row.offerPrice / originalPrice) * 100) else 0
    label := orNull row.label
    durationPeriods := offerDurationPeriods cfg now row.billingInterval row.startsAt row.endsAt
    endsAt := row.endsAt
    stripeCouponId := orNull row.stripeCouponId
    paddleDiscountId := orNull row.paddleDiscountId }

/-! ### Display -/

/-- Keep the most recent offer of each plan and interval. -/
def keepFirst (byPlan : List PublicOffer) (o : PublicOffer) : List PublicOffer :=
  if byPlan.any fun q => q.plan == o.plan && q.interval == o.interval then byPlan
  else byPlan ++ [o]

/-- The offers shown at `now`, from the rows in the order the database returned them. -/
def activeOffersOf (cfg : Config) (order : RecentFirst) (rows : List Offer) (now : Time) :
    List PublicOffer :=
  (((order.sort (rows.filter (·.activeAt now))).filter (isHonourable cfg.env)).map fun row =>
    (shapeOffer cfg now row).toPublicOffer).foldl keepFirst []

/-- `byPlan[plan]?.[interval]`. -/
def shownOffer (shown : List PublicOffer) (plan : String) (interval : Interval) :
    Option PublicOffer :=
  shown.find? fun o => o.plan == plan && o.interval == interval

def getActiveOffers (cfg : Config) : Handler (List PublicOffer) :=
  Prog.read fun w => activeOffersOf cfg w.recentFirst w.db.offers.rows w.now

/-! ### Charge -/

/-- The active offer of a plan and interval, from the rows in the order returned. -/
def activeOfferFor (cfg : Config) (order : RecentFirst) (rows : List Offer) (now : Time)
    (plan : String) (interval : Interval) : Option ShapedOffer :=
  ((order.sort (rows.filter fun row =>
    row.plan == plan && row.billingInterval == interval && row.activeAt now)).head?).map
      (shapeOffer cfg now)

def getActiveOfferForPlanInterval (cfg : Config) (plan : String) (interval : Option Interval) :
    Handler (Option ShapedOffer) :=
  Prog.read fun w =>
    activeOfferFor cfg w.recentFirst w.db.offers.rows w.now plan (interval.getD .month)

/-! ### Which row each path picks -/

theorem RecentFirst.mem_sort (order : RecentFirst) {rows : List Offer} {row : Offer} :
    row ∈ order.sort rows ↔ row ∈ rows := (order.perm rows).mem_iff

/-- The first row that matches is a most recent one among those that match. -/
theorem RecentFirst.createdAt_le_of_find? (order : RecentFirst) {rows : List Offer}
    {p : Offer → Bool} {a b : Offer} (ha : (order.sort rows).find? p = some a) (hb : b ∈ rows)
    (hp : p b = true) : b.createdAt ≤ a.createdAt := by
  obtain ⟨hpa, before, after, heq, hbefore⟩ := List.find?_eq_some_iff_append.mp ha
  have hsorted := order.sorted rows
  have hmem : b ∈ order.sort rows := order.mem_sort.mpr hb
  rw [heq] at hsorted hmem
  rcases List.mem_append.mp hmem with hmem | hmem
  · exact absurd hp (by simpa using hbefore b hmem)
  · rcases List.mem_cons.mp hmem with rfl | hmem
    · exact Nat.le_refl _
    · exact List.rel_of_pairwise_cons (List.pairwise_append.mp hsorted).2.1 hmem

/-- The order that puts `x` before the rows with the same `created_at`. -/
def RecentFirst.favour (x : Offer) : RecentFirst where
  sort l := RecentFirst.stable.sort (l.filter (· = x) ++ l.filter fun a => !decide (a = x))
  perm l := (RecentFirst.stable.perm _).trans (List.filter_append_perm (· = x) l)
  sorted _ := RecentFirst.stable.sorted _

/-- A most recent row comes first in the order that favours it. -/
theorem RecentFirst.sort_favour {x : Offer} {rows : List Offer} (hx : x ∈ rows)
    (hmax : ∀ a ∈ rows, a.createdAt ≤ x.createdAt) :
    ∃ rest, (RecentFirst.favour x).sort rows = x :: rest := by
  cases hxs : rows.filter (· = x) with
  | nil => simpa using List.filter_eq_nil_iff.mp hxs x hx
  | cons y ys =>
    have hy : y = x := by
      have hmem : y ∈ rows.filter (· = x) := hxs ▸ List.mem_cons_self
      simpa using (List.mem_filter.mp hmem).2
    -- the favoured row is put before the others, and none of them is newer
    have hsort : (RecentFirst.favour x).sort rows =
        RecentFirst.stable.sort (x :: (ys ++ rows.filter fun a => !decide (a = x))) := by
      change RecentFirst.stable.sort
        (rows.filter (· = x) ++ rows.filter fun a => !decide (a = x)) = _
      rw [hxs, hy, List.cons_append]
    have hsub : ∀ a ∈ RecentFirst.stable.sort (ys ++ rows.filter fun a => !decide (a = x)),
        a ∈ rows := by
      intro a ha
      rcases List.mem_append.mp (RecentFirst.stable.mem_sort.mp ha) with ha | ha
      · exact List.mem_of_mem_filter (hxs ▸ List.mem_cons_of_mem y ha)
      · exact List.mem_of_mem_filter ha
    rw [hsort]
    change ∃ rest, List.orderedInsert (fun a b => b.createdAt ≤ a.createdAt) x
      (RecentFirst.stable.sort (ys ++ rows.filter fun a => !decide (a = x))) = x :: rest
    cases hrest : RecentFirst.stable.sort (ys ++ rows.filter fun a => !decide (a = x)) with
    | nil => exact ⟨[], rfl⟩
    | cons z zs =>
      rw [hrest] at hsub
      have hz : z.createdAt ≤ x.createdAt := hmax z (hsub z List.mem_cons_self)
      rw [List.orderedInsert_cons, if_pos hz]
      exact ⟨_, rfl⟩

theorem shownOffer_foldl_keepFirst (plan : String) (interval : Interval)
    (l byPlan : List PublicOffer) :
    shownOffer (l.foldl keepFirst byPlan) plan interval =
      (shownOffer byPlan plan interval).or (shownOffer l plan interval) := by
  induction l generalizing byPlan with
  | nil => simp [shownOffer]
  | cons o l ih =>
    rw [List.foldl_cons, ih]
    unfold keepFirst shownOffer
    by_cases hkey : o.plan = plan ∧ o.interval = interval
    · obtain ⟨rfl, rfl⟩ := hkey
      split
      · rename_i hany
        have hsome : (byPlan.find? fun q => q.plan == o.plan && q.interval == o.interval).isSome := by
          simpa using hany
        obtain ⟨q, hq⟩ := Option.isSome_iff_exists.mp hsome
        simp [hq]
      · simp [List.find?_append]
    · have hno : (o.plan == plan && o.interval == interval) = false := by simpa using hkey
      split
      · simp [hno]
      · simp [List.find?_append, hno]

/-- The row the display path picks. -/
def displayedRow (cfg : Config) (order : RecentFirst) (rows : List Offer) (now : Time)
    (plan : String) (interval : Interval) : Option Offer :=
  (order.sort (rows.filter (·.activeAt now))).find? fun row =>
    isHonourable cfg.env row && (row.plan == plan && row.billingInterval == interval)

theorem shownOffer_activeOffersOf (cfg : Config) (order : RecentFirst) (rows : List Offer)
    (now : Time) (plan : String) (interval : Interval) :
    shownOffer (activeOffersOf cfg order rows now) plan interval =
      (displayedRow cfg order rows now plan interval).map fun row =>
        (shapeOffer cfg now row).toPublicOffer := by
  unfold activeOffersOf displayedRow
  rw [shownOffer_foldl_keepFirst]
  simp only [shownOffer, List.find?_nil, Option.none_or, List.find?_map, List.find?_filter,
    Bool.decide_and, Bool.decide_eq_true]
  rfl

end Feedbase
