import Feedbase.Billing.Upgrade

/-!
# Scheduling a downgrade and cancelling it

A same-interval downgrade swaps the item of the subscription, attaches the discount of
the target's active offer and sets the pending markers. Cancelling it puts the item back
and clears the markers; the discount stays.

## Main definitions

* `RoundTrip` — nothing of the subscription or the account's plan has changed
* `Restorable` — the state from which cancelling restores everything

## Main results

* `applyChange_downgrade_cases`, `cancelScheduledChange_cases` — what the two have done
* `roundTrip_iff`
-/

namespace Feedbase

variable {cfg : Config} {w w' : World} {plan : String} {interval : Option String}
  {auth : AuthData}

/-- The plan and interval a plan change starts from. -/
def BillingAccount.curPlan (a : BillingAccount) : String := (orNull (some a.planName)).getD "free"

def BillingAccount.curInterval (a : BillingAccount) : Interval := a.billingInterval.getD .month

/-- The context of a plan change, in terms of the account. -/
theorem loadForChange_context {c : ChangeContext}
    (h : (loadForChange cfg auth).exec w = (.ok c, w')) :
    c.curPlan = (accountOf w.db auth.email).curPlan ∧
      c.curInterval = (accountOf w.db auth.email).curInterval := by
  unfold loadForChange at h
  split at h
  · cases h
  split at h
  · cases h
  simp only [getAccount, exec_query_bind] at h
  split at h
  · cases h
  split at h
  · cases h
  · cases h
    exact ⟨rfl, rfl⟩

/-- The discount of the offer that is active for a plan and interval. -/
def World.offerDiscount (w : World) (cfg : Config) (plan : String) (interval : Interval) :
    Option String :=
  (activeOfferFor cfg w.recentFirst w.db.offers.rows w.now plan interval).bind
    (·.paddleDiscountId)

/-- The markers a scheduled change sets. -/
def pendingFields (plan : String) (interval : Interval) (periodEnd : Option Time) :
    AccountFields where
  pendingPlan := some (some plan)
  pendingInterval := some (some interval)
  pendingEffectiveAt := some periodEnd

/-- The markers of no scheduled change. -/
def noPendingFields : AccountFields where
  pendingPlan := some none
  pendingInterval := some none
  pendingEffectiveAt := some none

/-- An item change that succeeds has updated the subscription. -/
theorem exec_changeItem_ok {subId : String} {priceId discountId : Option String} {prorate : Bool}
    (h : (changeItem cfg subId priceId discountId prorate).exec w = (.ok (), w')) :
    ∃ price s, priceId = some price ∧ w.paddle.get subId = some s ∧
      w' = { w with paddle := w.paddle.updateSub cfg subId ⟨some price, discountId, prorate⟩ } := by
  unfold changeItem at h
  split at h
  · cases h
  · rename_i price
    obtain ⟨-, hupdate⟩ := exec_call_ok_iff.mp h
    split at hupdate
    · rename_i hsome
      cases hupdate
      obtain ⟨s, hs⟩ := Option.isSome_iff_exists.mp hsome
      exact ⟨price, s, rfl, hs, rfl⟩
    · cases hupdate

/-- What a downgrade that reports `plan_change_scheduled` has done; only same-interval
downgrades get that far. -/
theorem applyChange_downgrade_cases {r : Reply PlanChange}
    (hrun : (applyChange cfg plan interval auth).exec w = (.ok r, w'))
    (hmsg : r.msgKey = "plan_change_scheduled") :
    ∃ subId price s periodEnd db,
      orNull (accountOf w.db auth.email).paddleSubscriptionId = some subId ∧
      paddlePriceIdFor cfg.env plan (accountOf w.db auth.email).curInterval = some price ∧
      w.paddle.get subId = some s ∧
      setAccountPlanTx auth.email
        (pendingFields plan (accountOf w.db auth.email).curInterval periodEnd) w.db = some db ∧
      w' = { w with
        db := db
        paddle := w.paddle.updateSub cfg subId
          ⟨some price, w.offerDiscount cfg plan (accountOf w.db auth.email).curInterval, false⟩ } := by
  obtain ⟨c, t, hload, hrest⟩ := Prog.exec_bind_ok_iff.mp hrun
  have hload' := Prog.exec_tryCatch_ok (fun e u => by cases e <;> exact ⟨_, rfl⟩) hload
  obtain ⟨-, hcurInterval⟩ := loadForChange_context hload'
  obtain ⟨rfl, -, -, hsub, hemail⟩ := loadForChange_spec hload'
  dsimp only at hrest
  split at hrest
  · cases hrest
  rename_i hsame
  split at hrest
  · cases hrest
  rename_i hyear
  split at hrest
  · cases hrest
  rename_i hmonth
  have hchange := Prog.exec_tryCatch_ok (fun e u => ⟨_, rfl⟩) hrest
  split at hchange
  · -- an upgrade reports something else
    obtain ⟨discountId, u, -, hchange⟩ := Prog.exec_bind_ok_iff.mp hchange
    obtain ⟨⟨⟩, u', -, hchange⟩ := Prog.exec_bind_ok_iff.mp hchange
    obtain ⟨⟨⟩, u'', -, hchange⟩ := Prog.exec_bind_ok_iff.mp hchange
    cases hchange
    have hother : "plan_changed" ≠ "plan_change_scheduled" := by decide
    exact absurd hmsg hother
  rename_i hup
  -- neither the same plan nor an upgrade
  have hdown : directionOf c.curPlan c.curInterval plan (billingIntervalOf interval) =
      .downgrade := by
    cases hdir : directionOf c.curPlan c.curInterval plan (billingIntervalOf interval) with
    | same => exact absurd hdir hsame
    | upgrade => exact absurd hdir hup
    | downgrade => rfl
  -- both ways of changing the interval have been refused
  have hinterval : billingIntervalOf interval = c.curInterval := by
    by_contra hne
    cases hcur : c.curInterval with
    | year => exact hyear ⟨hne, hcur⟩
    | month => exact hmonth ⟨hdown, hne, hcur⟩
  rw [hinterval] at hchange
  unfold applyDowngrade offerDiscountFor getActiveOfferForPlanInterval at hchange
  rw [if_pos rfl] at hchange
  simp only [bind_assoc, Prog.exec_read_bind, pure_bind] at hchange
  -- the item first, then the markers
  obtain ⟨⟨⟩, u, hitem, hchange⟩ := Prog.exec_bind_ok_iff.mp hchange
  obtain ⟨⟨⟩, v, hset, hret⟩ := Prog.exec_bind_ok_iff.mp hchange
  cases hret
  obtain ⟨price, s, hprice, hs, rfl⟩ := exec_changeItem_ok hitem
  obtain ⟨-, -, db, htx, rfl⟩ := exec_setAccountPlan_ok_iff.mp hset
  rw [hemail] at htx
  rw [hcurInterval] at hprice htx ⊢
  exact ⟨c.subId, price, s, c.periodEnd, db, hsub, hprice, hs, htx, rfl⟩

/-- What cancelling a scheduled change has done: it put the item back if it differs from the
price of the current plan, and cleared the markers. -/
theorem cancelScheduledChange_cases {r : Reply Unit}
    (hrun : (cancelScheduledChange cfg auth).exec w = (.ok r, w'))
    (hpending : orNull (accountOf w.db auth.email).pendingPlan ≠ none) :
    ∃ subId s db,
      orNull (accountOf w.db auth.email).paddleSubscriptionId = some subId ∧
      w.paddle.get subId = some s ∧
      setAccountPlanTx auth.email noPendingFields w.db = some db ∧
      ((paddlePriceIdFor cfg.env (accountOf w.db auth.email).curPlan
            (accountOf w.db auth.email).curInterval).all (orNull s.priceId = some ·) ∧
          w' = { w with db := db } ∨
        ∃ price, paddlePriceIdFor cfg.env (accountOf w.db auth.email).curPlan
            (accountOf w.db auth.email).curInterval = some price ∧
          w' = { w with
            db := db, paddle := w.paddle.updateSub cfg subId ⟨some price, none, false⟩ }) := by
  obtain ⟨c, t, hload, hrest⟩ := Prog.exec_bind_ok_iff.mp hrun
  have hload' := Prog.exec_tryCatch_ok (fun e u => by cases e <;> exact ⟨_, rfl⟩) hload
  obtain ⟨hcurPlan, hcurInterval⟩ := loadForChange_context hload'
  obtain ⟨hload₂, -, -, hsub, hemail⟩ := loadForChange_spec hload'
  rw [hload₂] at hrest
  rw [getAccount, exec_query_bind, hemail, Prog.exec_ite, if_neg hpending] at hrest
  have hbody := Prog.exec_tryCatch_ok (fun e u => ⟨_, rfl⟩) hrest
  dsimp only at hbody
  rw [hcurPlan, hcurInterval] at hbody
  obtain ⟨s, u, hget, hbody⟩ := Prog.exec_bind_ok_iff.mp hbody
  obtain ⟨-, hget⟩ := exec_call_ok_iff.mp hget
  obtain ⟨s', hs, heq⟩ := Option.map_eq_some_iff.mp hget
  obtain ⟨rfl, rfl⟩ := Prod.mk.inj heq
  split at hbody
  · -- the price is put back
    rename_i hdiffers
    obtain ⟨⟨⟩, v, hitem, hbody⟩ := Prog.exec_bind_ok_iff.mp hbody
    obtain ⟨⟨⟩, v', hset, hret⟩ := Prog.exec_bind_ok_iff.mp hbody
    cases hret
    obtain ⟨-, hupdate⟩ := exec_call_ok_iff.mp hitem
    rw [if_pos (by rw [hs]; rfl)] at hupdate
    cases hupdate
    obtain ⟨-, -, db, htx, rfl⟩ := exec_setAccountPlan_ok_iff.mp hset
    obtain ⟨price, hprice⟩ := Option.isSome_iff_exists.mp hdiffers.1
    exact ⟨c.subId, s', db, hsub, hs, htx, .inr ⟨price, hprice, by rw [hprice]⟩⟩
  · -- the item is on the price already, or the price is not sold any more
    rename_i hsame
    obtain ⟨⟨⟩, v, hset, hret⟩ := Prog.exec_bind_ok_iff.mp hbody
    cases hret
    obtain ⟨-, -, db, htx, rfl⟩ := exec_setAccountPlan_ok_iff.mp hset
    refine ⟨c.subId, s', db, hsub, hs, htx, .inl ⟨?_, rfl⟩⟩
    cases hprice : paddlePriceIdFor cfg.env (accountOf w.db auth.email).curPlan
        (accountOf w.db auth.email).curInterval with
    | none => rfl
    | some price =>
      rw [hprice] at hsame
      simpa using hsame

/-! ### The round trip -/

/-- The subscription the account stores. -/
def World.storedSub (w : World) (email : String) : Option PaddleSub :=
  (orNull (accountOf w.db email).paddleSubscriptionId).bind w.paddle.get

/-- The item price, the discount, the plan, the interval and the markers are what they
were. -/
structure RoundTrip (email : String) (w w' : World) : Prop where
  price : (w'.storedSub email).map (·.priceId) = (w.storedSub email).map (·.priceId)
  discount : (w'.storedSub email).map (·.discountId) = (w.storedSub email).map (·.discountId)
  plan : (accountOf w'.db email).planName = (accountOf w.db email).planName
  interval : (accountOf w'.db email).billingInterval = (accountOf w.db email).billingInterval
  pendingPlan : (accountOf w'.db email).pendingPlan = (accountOf w.db email).pendingPlan
  pendingInterval :
    (accountOf w'.db email).pendingInterval = (accountOf w.db email).pendingInterval
  pendingEffectiveAt :
    (accountOf w'.db email).pendingEffectiveAt = (accountOf w.db email).pendingEffectiveAt

/-- Cancelling restores everything: no change was scheduled before, the item is on the price
of the current plan (or of the target, when the current plan has none), and the target's
offer brings no discount that is not already attached. -/
structure Restorable (cfg : Config) (w : World) (email plan : String) : Prop where
  price : ∀ s ∈ w.storedSub email, s.priceId =
    (paddlePriceIdFor cfg.env (accountOf w.db email).curPlan
      (accountOf w.db email).curInterval).or
      (paddlePriceIdFor cfg.env plan (accountOf w.db email).curInterval)
  discount : ∀ s ∈ w.storedSub email,
    ∀ d ∈ w.offerDiscount cfg plan (accountOf w.db email).curInterval, s.discountId = some d
  pendingPlan : (accountOf w.db email).pendingPlan = none
  pendingInterval : (accountOf w.db email).pendingInterval = none
  pendingEffectiveAt : (accountOf w.db email).pendingEffectiveAt = none

theorem option_or_eq_right_iff {α : Type} {a b : Option α} : a.or b = b ↔ ∀ x ∈ a, b = some x := by
  cases a with
  | none => simp
  | some x => simp [eq_comm]

/-- Scheduling a downgrade and cancelling it changes nothing exactly when the state is
restorable. `hpatch` is what Paddle does with an omitted discount. -/
theorem roundTrip_iff {w₁ w₂ w₃ : World} {auth' : AuthData} {r : Reply PlanChange}
    {r' : Reply Unit}
    (hpatch : ∀ s p, (cfg.patchSub s p).discountId = p.discountId.or s.discountId)
    (hrun : (applyChange cfg plan interval auth).exec w = (.ok r, w₁))
    (hmsg : r.msgKey = "plan_change_scheduled")
    (hdb : w₂.db = w₁.db) (hpaddle : w₂.paddle = w₁.paddle) (hemail : auth'.email = auth.email)
    (hcancel : (cancelScheduledChange cfg auth').exec w₂ = (.ok r', w₃)) :
    RoundTrip auth.email w w₃ ↔ Restorable cfg w auth.email plan := by
  obtain ⟨subId, price, s, periodEnd, db, hsub, hprice, hs, htx, rfl⟩ :=
    applyChange_downgrade_cases hrun hmsg
  have hne : auth.email ≠ "" := by
    intro h
    rw [h, accountOf_empty] at hsub
    cases hsub
  dsimp only at hdb hpaddle
  -- the account after scheduling
  have hacct₁ := accountOf_setAccountPlanTx hne htx
  have hcur : (accountOf db auth.email).curPlan = (accountOf w.db auth.email).curPlan ∧
      (accountOf db auth.email).curInterval = (accountOf w.db auth.email).curInterval := by
    rw [hacct₁]
    exact ⟨rfl, rfl⟩
  have hsub₁ : (accountOf db auth.email).paddleSubscriptionId =
      (accountOf w.db auth.email).paddleSubscriptionId := by
    rw [hacct₁]
    rfl
  have hplan : plan ≠ "" := plan_ne_empty_of_paddlePriceIdFor hprice
  have hpending : orNull (accountOf w₂.db auth'.email).pendingPlan ≠ none := by
    rw [hdb, hemail, hacct₁]
    change orNull (some plan) ≠ none
    simp [orNull_eq_none_iff, hplan]
  obtain ⟨subId', s', db', hsub', hs', htx', hitem⟩ := cancelScheduledChange_cases hcancel hpending
  rw [hdb, hemail] at hsub' htx' hitem
  rw [hsub₁, hsub, Option.some.injEq] at hsub'
  subst hsub'
  -- the account after cancelling
  have hacct₂ := accountOf_setAccountPlanTx hne htx'
  have hdb₃ : w₃.db = db' := by
    rcases hitem with ⟨-, rfl⟩ | ⟨_, -, rfl⟩ <;> rfl
  have hsub₂ : (accountOf db' auth.email).paddleSubscriptionId =
      (accountOf w.db auth.email).paddleSubscriptionId := by
    rw [hacct₂, ← hsub₁]
    rfl
  have hfields : (accountOf w₃.db auth.email).planName = (accountOf w.db auth.email).planName ∧
      (accountOf w₃.db auth.email).billingInterval = (accountOf w.db auth.email).billingInterval := by
    rw [hdb₃, hacct₂]
    change (accountOf db auth.email).planName = _ ∧ (accountOf db auth.email).billingInterval = _
    rw [hacct₁]
    exact ⟨rfl, rfl⟩
  have hcleared : (accountOf w₃.db auth.email).pendingPlan = none ∧
      (accountOf w₃.db auth.email).pendingInterval = none ∧
      (accountOf w₃.db auth.email).pendingEffectiveAt = none := by
    rw [hdb₃, hacct₂]
    exact ⟨rfl, rfl, rfl⟩
  -- the subscription after both updates
  have hstored : w.storedSub auth.email = some s := by
    simp only [World.storedSub, hsub, Option.bind_some, hs]
  obtain ⟨s₃, hs₃, hprice₃, hdiscount₃⟩ : ∃ s₃, w₃.storedSub auth.email = some s₃ ∧
      s₃.priceId = (paddlePriceIdFor cfg.env (accountOf w.db auth.email).curPlan
        (accountOf w.db auth.email).curInterval).or (some price) ∧
      s₃.discountId = (w.offerDiscount cfg plan (accountOf w.db auth.email).curInterval).or
        s.discountId := by
    have hid := (Paddle.get_eq_some_iff.mp hs).2
    have hs₁ : w₂.paddle.get subId = some (cfg.patchSub s ⟨some price,
        w.offerDiscount cfg plan (accountOf w.db auth.email).curInterval, false⟩) := by
      rw [hpaddle, Paddle.updateSub, Paddle.get_setSub, hs]
      simp [hid]
    rw [hs₁, Option.some.injEq] at hs'
    have hpriceS' : s'.priceId = some price := by
      rw [← hs', cfg.price_patchSub]
      rfl
    have hdiscountS' : s'.discountId =
        (w.offerDiscount cfg plan (accountOf w.db auth.email).curInterval).or s.discountId := by
      rw [← hs', hpatch]
    have hidS' : s'.id = subId := by rw [← hs', cfg.id_patchSub, hid]
    simp only [World.storedSub, hdb₃, hsub₂, hsub, Option.bind_some]
    rw [hcur.1, hcur.2] at hitem
    rcases hitem with ⟨hsame, rfl⟩ | ⟨price', hprice', rfl⟩
    · -- the cancel leaves the item as it is
      refine ⟨s', by rw [hs₁, hs'], ?_, hdiscountS'⟩
      rw [hpriceS']
      cases hcurPrice : paddlePriceIdFor cfg.env (accountOf w.db auth.email).curPlan
          (accountOf w.db auth.email).curInterval with
      | none => rfl
      | some p =>
        rw [hcurPrice, hpriceS'] at hsame
        have horNull : orNull (some price) = some p := by simpa using hsame
        rw [(orNull_eq_some_iff.mp horNull).1]
        rfl
    · -- the cancel sends the old price, and no discount
      refine ⟨cfg.patchSub s' ⟨some price', none, false⟩, ?_, ?_, ?_⟩
      · rw [Paddle.updateSub, Paddle.get_setSub, hs₁, hs']
        simp [hidS']
      · rw [cfg.price_patchSub, hprice']
        rfl
      · rw [hpatch, ← hdiscountS']
        rfl
  constructor
  · intro h
    refine ⟨?_, ?_, ?_, ?_, ?_⟩
    · intro t ht
      rw [hstored, Option.mem_some_iff] at ht
      subst ht
      have := h.price
      rw [hs₃, hstored, Option.map_some, Option.map_some, Option.some.injEq, hprice₃] at this
      rw [hprice, this]
    · intro t ht d hd
      rw [hstored, Option.mem_some_iff] at ht
      subst ht
      have := h.discount
      rw [hs₃, hstored, Option.map_some, Option.map_some, Option.some.injEq, hdiscount₃] at this
      exact option_or_eq_right_iff.mp this d hd
    · rw [← h.pendingPlan, hcleared.1]
    · rw [← h.pendingInterval, hcleared.2.1]
    · rw [← h.pendingEffectiveAt, hcleared.2.2]
  · intro h
    refine ⟨?_, ?_, hfields.1, hfields.2, ?_, ?_, ?_⟩
    · rw [hs₃, hstored, Option.map_some, Option.map_some, hprice₃, h.price s (by rw [hstored]; rfl),
        hprice]
    · rw [hs₃, hstored, Option.map_some, Option.map_some, hdiscount₃,
        option_or_eq_right_iff.mpr (h.discount s (by rw [hstored]; rfl))]
    · rw [hcleared.1, h.pendingPlan]
    · rw [hcleared.2.1, h.pendingInterval]
    · rw [hcleared.2.2, h.pendingEffectiveAt]

/-! ### With and without an offer on the target -/

/-- The world after Ada schedules a downgrade to monthly Pro. -/
def scheduledPro (w : World) : World :=
  ((applyChange .paddleDemo "pro" (some "month") adaOwner).exec w).2

/-- The world after she cancels it. -/
def cancelledPro (w : World) : World :=
  ((cancelScheduledChange .paddleDemo adaOwner).exec (scheduledPro w)).2

/-- Ada's Business account while Pro is on offer. -/
def proOnOffer : World :=
  { monthlyBusiness with
    db := { monthlyBusiness.db with
      offers :=
        { rows := [{ id := 1, plan := "pro", offerPrice := 8, paddleDiscountId := some "dsc_pro"
                     createdAt := 0 }]
          next := 2, id_lt := by decide, nodup := by decide, noClash := by decide } } }

/-- Without an offer the round trip restores everything. -/
theorem roundTrip_monthlyBusiness :
    RoundTrip "ada@example.com" monthlyBusiness (cancelledPro monthlyBusiness) := by
  have hrun : (applyChange .paddleDemo "pro" (some "month") adaOwner).exec monthlyBusiness =
      (.ok ⟨200, "plan_change_scheduled",
        ⟨.downgrade, "pro", .month, some (30 * daySeconds)⟩⟩, scheduledPro monthlyBusiness) := rfl
  have hcancel : (cancelScheduledChange .paddleDemo adaOwner).exec (scheduledPro monthlyBusiness) =
      (.ok ⟨200, "plan_change_cancelled", ()⟩, cancelledPro monthlyBusiness) := rfl
  refine (roundTrip_iff (fun _ _ => rfl) hrun rfl rfl rfl rfl hcancel).mpr ?_
  exact ⟨by decide, by decide, rfl, rfl, rfl⟩

/-- With an offer on Pro, Ada's Business subscription is left with the discount of Pro. -/
theorem cancelled_downgrade_keeps_target_discount :
    ((applyChange .paddleDemo "pro" (some "month") adaOwner).exec proOnOffer).1 =
        .ok ⟨200, "plan_change_scheduled",
          ⟨.downgrade, "pro", .month, some (30 * daySeconds)⟩⟩ ∧
      ((cancelScheduledChange .paddleDemo adaOwner).exec (scheduledPro proOnOffer)).1 =
        .ok ⟨200, "plan_change_cancelled", ()⟩ ∧
      (proOnOffer.storedSub "ada@example.com").map (·.discountId) = some none ∧
      ((cancelledPro proOnOffer).storedSub "ada@example.com").map (·.discountId) =
        some (some "dsc_pro") ∧
      ¬ RoundTrip "ada@example.com" proOnOffer (cancelledPro proOnOffer) := by
  refine ⟨rfl, rfl, rfl, rfl, fun h => ?_⟩
  have hdiscount := h.discount
  revert hdiscount
  decide

end Feedbase
