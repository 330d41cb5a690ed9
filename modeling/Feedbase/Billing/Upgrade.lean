import Feedbase.Billing.Convergence

/-!
# An upgrade and an earlier scheduled downgrade

`applyChange` leaves the account's columns to `reconcile`, and `reconcile` does not
mirror Paddle while a scheduled change is still in the future. So an upgrade
supersedes an earlier downgrade exactly when no such change is pending; otherwise the
markers survive and a later sweep moves the subscription back.

## Main definitions

* `Later` — what may happen after the upgrade: sweeps, and anything that schedules no
  new change for the account
* `Superseded` — the target is in force, no marker remains, and no sweep undoes it

## Main results

* `applyChange_upgrade_cases` — what an upgrade that reports `plan_changed` has done
* `superseded_iff`
* `pending_downgrade_survives_upgrade`
-/

namespace Feedbase

variable {cfg : Config} {w w' : World} {email : String} {P : String → Prop}

/-- The price a subscription is billed at. -/
def priceOf (w : World) (subId : String) : Option String := (w.paddle.get subId).bind (·.priceId)

/-- Time passes: a run of the sweep, or any change that leaves the account's markers as
they are. -/
inductive Later (cfg : Config) (email : String) (w : World) : World → Prop where
  | sweep (leadSeconds : Time) :
    Later cfg email w ((applyDuePendingChanges cfg leadSeconds).exec w).2
  | drift (u : World)
    (plan : (accountOf u.db email).pendingPlan = (accountOf w.db email).pendingPlan)
    (effectiveAt : (accountOf u.db email).pendingEffectiveAt =
      (accountOf w.db email).pendingEffectiveAt) : Later cfg email w u

/-- No sweep, however much later, changes the price of the account's subscription,
unless another account with a due change stores the same subscription. -/
def NeverMovedBack (cfg : Config) (w : World) (email : String) : Prop :=
  ∀ u, Relation.ReflTransGen (Later cfg email) w u →
    ∀ subId leadSeconds,
      (∀ a ∈ u.db.billingAccounts, a.isDue u.now leadSeconds →
        a.paddleSubscriptionId = some subId → a.email = email) →
      priceOf ((applyDuePendingChanges cfg leadSeconds).exec u).2 subId = priceOf u subId

/-- The price of a plan on an interval is not the price of anything else. -/
def PriceLeadsBack (env : Env) (plan : String) (interval : Interval) : Prop :=
  planByPaddlePriceId env (paddlePriceIdFor env plan interval) = some plan ∧
    intervalByPaddlePriceId env (paddlePriceIdFor env plan interval) = some interval

/-- The target is in force for good. -/
structure Superseded (cfg : Config) (w : World) (email plan : String) (interval : Interval) :
    Prop where
  plan : (accountOf w.db email).planName = plan
  interval : (accountOf w.db email).billingInterval = some interval
  pendingPlan : (accountOf w.db email).pendingPlan = none
  pendingInterval : (accountOf w.db email).pendingInterval = none
  pendingEffectiveAt : (accountOf w.db email).pendingEffectiveAt = none
  neverMovedBack : NeverMovedBack cfg w email

/-! ### What the sweep leaves alone -/

/-- The account and the prices of the subscriptions in `P` are as before. -/
def Untouched (email : String) (P : String → Prop) (w w' : World) : Prop :=
  accountOf w'.db email = accountOf w.db email ∧ ∀ id, P id → priceOf w' id = priceOf w id

namespace Untouched

theorem refl (w : World) : Untouched email P w w := ⟨rfl, fun _ _ => rfl⟩

theorem trans (u v w : World) (h : Untouched email P u v) (h' : Untouched email P v w) :
    Untouched email P u w :=
  ⟨h'.1.trans h.1, fun id hid => (h'.2 id hid).trans (h.2 id hid)⟩

end Untouched

theorem priceOf_updateSub {id n : String} {patch : SubPatch} (h : n ≠ id ∨ patch.priceId = none) :
    priceOf { w with paddle := w.paddle.updateSub cfg id patch } n = priceOf w n := by
  simp only [priceOf, Paddle.updateSub, Paddle.get_setSub, Option.bind_map]
  cases hget : w.paddle.get n with
  | none => rfl
  | some s =>
    have hid : s.id = n := (Paddle.get_eq_some_iff.mp hget).2
    simp only [Option.bind_some, Function.comp]
    split
    · rename_i heq
      rcases h with h | h
      · exact absurd (hid.symm.trans (beq_iff_eq.mp heq)) h
      · rw [cfg.price_patchSub, h, Option.none_or]
    · rfl

/-! ### Actions that leave the account and the price alone -/

theorem within_setAccountPlan {email' : String} {f : AccountFields} (hne : email' ≠ email) :
    Prog.Within (Untouched email P) (setAccountPlan email' f) := by
  refine .ite (.throw _) (within_call Untouched.refl fun w a w' h => ?_)
  obtain ⟨db', htx, heq⟩ := Option.map_eq_some_iff.mp h
  cases heq
  exact ⟨accountOf_setAccountPlanTx_of_ne (Ne.symm hne) htx, fun _ _ => rfl⟩

theorem within_paddleSubscriptionsGet {id : String} :
    Prog.Within (Untouched email P) (paddleSubscriptionsGet id) := by
  refine within_call Untouched.refl fun w a w' h => ?_
  obtain ⟨s, -, heq⟩ := Option.map_eq_some_iff.mp h
  cases heq
  exact .refl w

theorem within_paddleSubscriptionsUpdate_of {id : String} {patch : SubPatch}
    (h : ¬ P id ∨ patch.priceId = none) :
    Prog.Within (Untouched email P) (paddleSubscriptionsUpdate cfg id patch) := by
  refine within_call Untouched.refl fun w a w' hw => ?_
  split at hw
  · cases hw
    refine ⟨rfl, fun n hn => priceOf_updateSub (h.imp_left fun hid heq => ?_)⟩
    exact hid (heq ▸ hn)
  · cases hw

theorem within_ensureOfferDiscount {sub : NormalizedSub} :
    Prog.Within (Untouched email P) (ensureOfferDiscount cfg sub) := by
  refine .tryCatch (.ite (.pure _) (.bind ?_ fun blocked => .ite (.pure _)
    (.bind (.read Untouched.refl _) fun offer => ?_))) fun _ => .pure _
  · unfold discountBlocks
    split
    · exact .pure _
    · refine .tryCatch (.bind (within_call Untouched.refl ?_) fun d => .pure _) fun _ => .pure _
      intro w d w' h
      obtain ⟨d', -, heq⟩ := Option.map_eq_some_iff.mp h
      cases heq
      exact .refl w
  · split
    · exact .pure _
    · exact within_paddleSubscriptionsUpdate_of (.inr rfl)

theorem within_resolveCustomer {email' : String} {acct : BillingAccount} (hne : email' ≠ email) :
    Prog.Within (Untouched email P) (resolveCustomer email' acct) := by
  unfold resolveCustomer
  split
  · exact .pure _
  · refine .bind (within_call Untouched.refl fun w a w' h => ?_) fun found => ?_
    · cases h
      exact .refl w
    · split
      · exact .bind (within_setAccountPlan hne) fun _ => .pure _
      · exact .pure _

theorem within_fetchSubscription {email' : String} (hne : email' ≠ email) :
    Prog.Within (Untouched email P) (fetchSubscription cfg email') := by
  refine .bind (.read Untouched.refl _) fun acct => ?_
  split
  · exact .bind within_paddleSubscriptionsGet fun _ => .pure _
  · refine .bind (within_resolveCustomer hne) fun customer => ?_
    split
    · exact .pure _
    · refine .bind (within_call Untouched.refl fun w a w' h => ?_) fun subs => ?_
      · cases h
        exact .refl w
      · split
        · exact .pure _
        · exact .bind (within_setAccountPlan hne) fun _ => .pure _

/-- Reconciling another account touches neither. -/
theorem within_reconcile {email' : String} (hne : email' ≠ email) :
    Prog.Within (Untouched email P) (reconcile cfg email') := by
  refine .ite (.pure _) (.bind (.read Untouched.refl _) fun acct => .ite ?_ ?_)
  · exact .bind (.read Untouched.refl _) fun now => .ite (within_setAccountPlan hne) (.pure _)
  · refine .bind (within_fetchSubscription hne) fun found => ?_
    split
    · refine .bind (.read Untouched.refl _) fun now => .ite (within_setAccountPlan hne) ?_
      exact .bind within_ensureOfferDiscount fun _ => within_setAccountPlan hne
    · exact .ite (within_setAccountPlan hne) (.pure _)

/-- An iteration of the sweep for another account with a subscription outside `P`. -/
theorem within_applyDueChange {row : BillingAccount} (hne : row.email ≠ email)
    (hsub : ¬ P (row.paddleSubscriptionId.getD "")) :
    Prog.Within (Untouched email P) (applyDueChange cfg row) := by
  unfold applyDueChange
  dsimp only
  split
  · exact .pure _
  · refine .bind within_paddleSubscriptionsGet fun sub => .ite (.pure _) (.ite ?_ ?_)
    · exact within_setAccountPlan hne
    · exact .bind (within_paddleSubscriptionsUpdate_of (.inl hsub)) fun _ => within_reconcile hne

/-- A sweep leaves alone an account that has nothing due, and every subscription that
no due account stores. -/
theorem untouched_sweep (cfg : Config) (email : String) (P : String → Prop) (w : World)
    (leadSeconds : Time)
    (hdue : ∀ a ∈ w.db.billingAccounts, a.isDue w.now leadSeconds →
      a.email ≠ email ∧ ¬ P (a.paddleSubscriptionId.getD "")) :
    Untouched email P w ((applyDuePendingChanges cfg leadSeconds).exec w).2 := by
  unfold applyDuePendingChanges
  split
  · exact .refl w
  · rw [Prog.exec_read_bind]
    refine Prog.Within.exec Untouched.refl Untouched.trans (.forM fun row hrow => ?_) w
    obtain ⟨hmem, hrowDue⟩ := List.mem_filter.mp hrow
    obtain ⟨hne, hsub⟩ := hdue row hmem hrowDue
    exact .tryCatch (within_applyDueChange hne hsub) fun _ => .pure _

theorem not_isDue_of_pendingPlan_none {a : BillingAccount} {now leadSeconds : Time}
    (h : a.pendingPlan = none) : ¬ a.isDue now leadSeconds := by
  simp [BillingAccount.isDue, h]

/-- Without a marker the account is never due. -/
theorem email_ne_of_isDue {a : BillingAccount} {leadSeconds : Time} (hne : email ≠ "")
    (hnone : (accountOf w.db email).pendingPlan = none) (ha : a ∈ w.db.billingAccounts)
    (hdue : a.isDue w.now leadSeconds) : a.email ≠ email := by
  rintro rfl
  rw [accountOf_mem ha hne] at hnone
  exact not_isDue_of_pendingPlan_none hnone hdue

/-- What may happen later schedules nothing. -/
theorem Later.pendingPlan_eq_none (hne : email ≠ "") (h : Later cfg email w w')
    (hnone : (accountOf w.db email).pendingPlan = none) :
    (accountOf w'.db email).pendingPlan = none := by
  cases h with
  | sweep leadSeconds =>
    have huntouched := untouched_sweep cfg email (fun _ => False) w leadSeconds
      fun a ha hdue => ⟨email_ne_of_isDue hne hnone ha hdue, id⟩
    rw [huntouched.1]
    exact hnone
  | drift _ plan _ => exact plan.trans hnone

theorem pendingPlan_eq_none_of_later (hne : email ≠ "")
    (h : Relation.ReflTransGen (Later cfg email) w w')
    (hnone : (accountOf w.db email).pendingPlan = none) :
    (accountOf w'.db email).pendingPlan = none := by
  induction h with
  | refl => exact hnone
  | tail _ hstep ih => exact hstep.pendingPlan_eq_none hne ih

theorem neverMovedBack_of_pendingPlan_none (hne : email ≠ "")
    (hnone : (accountOf w.db email).pendingPlan = none) : NeverMovedBack cfg w email := by
  intro u hlater subId leadSeconds hshared
  have hnone' := pendingPlan_eq_none_of_later hne hlater hnone
  refine (untouched_sweep cfg email (· = subId) u leadSeconds fun a ha hdue => ?_).2 subId rfl
  have hother := email_ne_of_isDue hne hnone' ha hdue
  refine ⟨hother, fun hsub => hother (hshared a ha hdue ?_)⟩
  have hsome : a.paddleSubscriptionId.isSome := by
    simp only [BillingAccount.isDue, Bool.and_eq_true] at hdue
    exact hdue.1.2
  obtain ⟨id, hid⟩ := Option.isSome_iff_exists.mp hsome
  rw [hid] at hsub ⊢
  exact congrArg some hsub

/-! ### The upgrade -/

/-- The guard of a plan change reads the account and nothing else. -/
theorem loadForChange_spec {auth : AuthData} {c : ChangeContext}
    (h : (loadForChange cfg auth).exec w = (.ok c, w')) :
    w' = w ∧ isPaddleConfigured cfg.env = true ∧
      (accountOf w.db auth.email).subscriptionStatus ≠ some "comped" ∧
      orNull (accountOf w.db auth.email).paddleSubscriptionId = some c.subId ∧
      c.email = auth.email := by
  unfold loadForChange at h
  split at h
  · cases h
  · split at h
    · cases h
    · rename_i hconf
      simp only [getAccount, exec_query_bind] at h
      split at h
      · cases h
      · rename_i subId hsub
        split at h
        · cases h
        · rename_i hcomped
          cases h
          exact ⟨rfl, by simpa using hconf, hcomped, hsub, rfl⟩

theorem msgKey_applyDowngrade {c : ChangeContext} {plan : String} {interval : Interval}
    {r : Reply PlanChange} (h : (applyDowngrade cfg c plan interval).exec w = (.ok r, w')) :
    r.msgKey = "plan_change_scheduled" := by
  have hschedule : ∀ (p : Handler Unit) (w : World) (r : Reply PlanChange) (d : PlanChange),
      (p >>= fun _ => resolve 200 "plan_change_scheduled" d).exec w = (.ok r, w') →
        r.msgKey = "plan_change_scheduled" := by
    intro p w r d h
    obtain ⟨⟨⟩, t, -, hret⟩ := Prog.exec_bind_ok_iff.mp h
    cases hret
    rfl
  unfold applyDowngrade at h
  dsimp only at h
  split at h
  · obtain ⟨discountId, t, -, h⟩ := Prog.exec_bind_ok_iff.mp h
    obtain ⟨⟨⟩, u, -, h⟩ := Prog.exec_bind_ok_iff.mp h
    exact hschedule _ _ _ _ h
  · exact hschedule _ _ _ _ h

/-- What an upgrade that reports `plan_changed` has done. -/
theorem applyChange_upgrade_cases {plan : String} {interval : Option String} {auth : AuthData}
    {r : Reply PlanChange} (hrun : (applyChange cfg plan interval auth).exec w = (.ok r, w'))
    (hmsg : r.msgKey = "plan_changed") :
    ∃ subId price s patch,
      isPaddleConfigured cfg.env = true ∧
      orNull (accountOf w.db auth.email).paddleSubscriptionId = some subId ∧
      (accountOf w.db auth.email).subscriptionStatus ≠ some "comped" ∧
      paddlePriceIdFor cfg.env plan (billingIntervalOf interval) = some price ∧
      w.paddle.get subId = some s ∧ patch.priceId = some price ∧
      (reconcile cfg auth.email).exec
        { w with paddle := w.paddle.updateSub cfg subId patch } = (.ok (), w') := by
  obtain ⟨c, t, hload, hrest⟩ := Prog.exec_bind_ok_iff.mp hrun
  have hload' := Prog.exec_tryCatch_ok (fun e u => by cases e <;> exact ⟨_, rfl⟩) hload
  obtain ⟨rfl, hconf, hcomped, hsub, hemail⟩ := loadForChange_spec hload'
  -- no known plan, no price and no difference are refused before Paddle is asked
  dsimp only at hrest
  split at hrest
  · cases hrest
  split at hrest
  · cases hrest
  split at hrest
  · cases hrest
  have hchange := Prog.exec_tryCatch_ok (fun e u => ⟨_, rfl⟩) hrest
  split at hchange
  · unfold applyUpgrade offerDiscountFor getActiveOfferForPlanInterval at hchange
    rw [bind_assoc, Prog.exec_read_bind, pure_bind] at hchange
    -- the item is changed first, then the account is reconciled
    obtain ⟨⟨⟩, u, hitem, hchange⟩ := Prog.exec_bind_ok_iff.mp hchange
    obtain ⟨⟨⟩, v, hreconcile, hchange⟩ := Prog.exec_bind_ok_iff.mp hchange
    cases hchange
    unfold changeItem at hitem
    split at hitem
    · cases hitem
    · rename_i price hprice
      obtain ⟨-, hupdate⟩ := exec_call_ok_iff.mp hitem
      split at hupdate
      · rename_i hsome
        cases hupdate
        obtain ⟨s, hs⟩ := Option.isSome_iff_exists.mp hsome
        rw [hemail] at hreconcile
        exact ⟨c.subId, price, s, _, hconf, hsub, hcomped, hprice, hs, rfl, hreconcile⟩
      · cases hupdate
  · -- a downgrade answers under another key
    rw [msgKey_applyDowngrade hchange] at hmsg
    exact absurd hmsg (by decide)

/-- An upgrade supersedes an earlier scheduled change exactly when none is pending; the
price charged has to be the target's own. -/
theorem superseded_iff {plan : String} {interval : Option String} {auth : AuthData}
    {r : Reply PlanChange}
    (hlive : ∀ s ∈ w.paddle.subscriptions,
      (accountOf w.db auth.email).paddleSubscriptionId = some s.id → s.status.isActive)
    (hrun : (applyChange cfg plan interval auth).exec w = (.ok r, w'))
    (hmsg : r.msgKey = "plan_changed") :
    Superseded cfg w' auth.email plan (billingIntervalOf interval) ↔
      (accountOf w.db auth.email).pendingActive w.now = false ∧
        PriceLeadsBack cfg.env plan (billingIntervalOf interval) := by
  obtain ⟨subId, price, s, patch, hconf, hsub, hcomped, hprice, hget, hpatch, hreconcile⟩ :=
    applyChange_upgrade_cases hrun hmsg
  have hne : auth.email ≠ "" := by
    intro h
    rw [h, accountOf_empty] at hsub
    cases hsub
  -- the subscription reconcile finds is the patched one, on the target price
  have hs := Paddle.get_eq_some_iff.mp hget
  have hlookup : lookupSub { w with paddle := w.paddle.updateSub cfg subId patch } auth.email =
      some (cfg.patchSub s patch) := by
    simp only [lookupSub, hsub, Paddle.updateSub, Paddle.get_setSub, hget, Option.map_some, hs.2,
      beq_self_eq_true, if_true]
  have hstatus : (cfg.patchSub s patch).status.isActive :=
    cfg.live_patchSub s patch (hlive s hs.1 (by rw [hs.2]; exact (orNull_eq_some_iff.mp hsub).1))
  have hnewPrice : (cfg.patchSub s patch).priceId = some price := by
    rw [cfg.price_patchSub, hpatch, Option.some_or]
  have hsome := planByPaddlePriceId_isSome hprice
  have hpaid : (cfg.patchSub s patch).isPaid cfg.env := by
    rw [PaddleSub.isPaid, hnewPrice, hstatus, hsome]
    rfl
  rcases reconcile_cases hreconcile hne hconf hcomped with
    ⟨s', a, -, -, hpending, hcolumns, hacct⟩ | ⟨s', a, hlookup', -, hpending, hacct⟩ |
    ⟨status, a, hunpaid, -, -⟩ | ⟨hunpaid, -, -⟩
  · -- the markers are kept
    have hkept : (accountOf w'.db auth.email).pendingPlan =
        (accountOf w.db auth.email).pendingPlan := by
      rw [hacct]
      change a.pendingPlan = (accountOf w.db auth.email).pendingPlan
      rw [congrArg PlanColumns.pendingPlan hcolumns]
    refine iff_of_false (fun h => ?_) fun h => ?_
    · have hmarker : (orNull (accountOf w.db auth.email).pendingPlan).isSome := by
        simp only [PlanColumns.pendingActive, Bool.and_eq_true] at hpending
        exact hpending.1
      rw [← hkept, h.pendingPlan] at hmarker
      cases hmarker
    · rw [h.1] at hpending
      cases hpending
  · -- the subscription is mirrored, and its price says what is in force
    rw [hlookup, Option.some.injEq] at hlookup'
    subst hlookup'
    have hplan : (accountOf w'.db auth.email).planName =
        (planByPaddlePriceId cfg.env (some price)).getD "free" := by
      rw [hacct]
      change (normalizeSub cfg.env _).planName = _
      simp [normalizeSub, hstatus, hnewPrice]
    have hinterval : (accountOf w'.db auth.email).billingInterval =
        intervalByPaddlePriceId cfg.env (some price) := by
      rw [hacct]
      change (normalizeSub cfg.env _).interval = _
      simp [normalizeSub, hnewPrice, hstatus]
    obtain ⟨k, hk⟩ := Option.isSome_iff_exists.mp hsome
    rw [hk, Option.getD_some] at hplan
    simp only [PriceLeadsBack, hprice, hk, Option.some.injEq]
    constructor
    · intro h
      exact ⟨hpending, hplan.symm.trans h.plan, hinterval.symm.trans h.interval⟩
    · rintro ⟨-, hback, hbackInterval⟩
      have hnone : (accountOf w'.db auth.email).pendingPlan = none := by
        rw [hacct]
        rfl
      refine ⟨hplan.trans hback, hinterval.trans hbackInterval, hnone, ?_, ?_,
        neverMovedBack_of_pendingPlan_none hne hnone⟩
      · rw [hacct]
        rfl
      · rw [hacct]
        rfl
  · exact absurd hpaid (hunpaid _ hlookup)
  · exact absurd hpaid (hunpaid _ hlookup)

/-- Distinct configured prices lead back. -/
theorem Env.PricesDistinct.priceLeadsBack {env : Env} {plan price : String} {interval : Interval}
    (hd : env.PricesDistinct) (h : paddlePriceIdFor env plan interval = some price) :
    PriceLeadsBack env plan interval := by
  rw [PriceLeadsBack, h]
  exact plan_interval_of_paddlePriceIdFor hd h

/-! ### Downgrade, then upgrade -/

def adaOwner : AuthData := { id := 1, tenantId := none, role := .owner, email := "ada@example.com" }

def onBusiness (priceId : String) (endsAt : Time) : Paddle where
  customers := [adaCustomer]
  subscriptions := [{ secondSub with priceId := some priceId, endsAt := some endsAt }]
  nodup := List.nodup_singleton _
  id_ne_empty := by simp [secondSub]

/-- Ada's Business account, thirty days from its renewal. -/
def monthlyBusiness : World := reconciled {} (onBusiness "pri_business" (30 * daySeconds))

/-- She schedules a downgrade to Pro. -/
def downgradeScheduled : World :=
  ((applyChange .paddleDemo "pro" (some "month") adaOwner).exec monthlyBusiness).2

/-- She then upgrades to yearly Business. -/
def upgradedAfter : World :=
  ((applyChange .paddleDemo "business" (some "year") adaOwner).exec downgradeScheduled).2

/-- The sweep near the end of the month, which aims at the renewed period. -/
def sweptMonthly : World :=
  ((applyDuePendingChanges .paddleDemo (6 * 3600)).exec
    { upgradedAfter with
      now := 30 * daySeconds
      paddle := onBusiness "pri_business_yearly" (365 * daySeconds) }).2

/-- The sweep near the end of the year. -/
def sweptYearly : World :=
  ((applyDuePendingChanges .paddleDemo (6 * 3600)).exec
    { sweptMonthly with now := 365 * daySeconds }).2

/-- The upgrade reports success, but the account keeps the old interval and the marker,
and a year later the subscription is moved to Pro. -/
theorem pending_downgrade_survives_upgrade :
    ((applyChange .paddleDemo "business" (some "year") adaOwner).exec downgradeScheduled).1 =
        .ok ⟨200, "plan_changed", ⟨.upgrade, "business", .year, none⟩⟩ ∧
      (accountOf upgradedAfter.db "ada@example.com").billingInterval = some .month ∧
      (accountOf upgradedAfter.db "ada@example.com").pendingPlan = some "pro" ∧
      priceOf sweptMonthly "sub_2" = some "pri_business_yearly" ∧
      priceOf sweptYearly "sub_2" = some "pri_pro" ∧
      ¬ Superseded .paddleDemo upgradedAfter "ada@example.com" "business" .year := by
  refine ⟨rfl, rfl, rfl, rfl, rfl, fun h => ?_⟩
  have hinterval := h.interval
  revert hinterval
  decide

/-- Without a scheduled change the upgrade is final. -/
theorem superseded_iff_monthlyBusiness :
    Superseded .paddleDemo
        ((applyChange .paddleDemo "business" (some "year") adaOwner).exec monthlyBusiness).2
        "ada@example.com" "business" .year := by
  have hrun : (applyChange .paddleDemo "business" (some "year") adaOwner).exec monthlyBusiness =
      (.ok ⟨200, "plan_changed", ⟨.upgrade, "business", .year, none⟩⟩,
        ((applyChange .paddleDemo "business" (some "year") adaOwner).exec monthlyBusiness).2) := rfl
  exact (superseded_iff (by decide) hrun rfl).mpr ⟨by decide, by decide, by decide⟩

end Feedbase
