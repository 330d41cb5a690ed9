import Feedbase.Billing.Reconcile

/-!
# Convergence of reconcile to Paddle

When the account's customer has one live subscription at a configured price, the
account should hold its plan, interval, status and id after a completed reconcile;
when it has none, the account should be on the free plan.

The lookup trusts a stored subscription id whatever became of the subscription, and a
reset does not clear it. `converged_iff` says exactly when reconcile converges.

## Main definitions

* `liveSubs` — the live subscriptions of the account's customer at a configured price
* `Converged` — the account agrees with them
* `LookupMeetsLive` — the stored id leads to the live subscription

## Main results

* `converged_iff`
* `stale_id_hides_live_subscription` — a resubscribed customer stays on free
-/

namespace Feedbase

variable {cfg : Config} {env : Env} {w w' : World} {email : String} {s : PaddleSub}

/-- The first item has a configured price. -/
def PaddleSub.hasConfiguredPrice (env : Env) (s : PaddleSub) : Bool :=
  s.priceId.any env.paddlePrices.contains

/-- The live subscriptions of the account's customer at a configured price. -/
def liveSubs (env : Env) (w : World) (email : String) : List PaddleSub :=
  match accountCustomer w email with
  | none => []
  | some customerId => w.paddle.subscriptions.filter fun s =>
      s.customerId == customerId && s.status.isActive && s.hasConfiguredPrice env

/-- The account holds the plan, interval, status and id of the subscription. -/
structure HoldsSub (env : Env) (s : PaddleSub) (a : BillingAccount) : Prop where
  plan : ∃ interval, paddlePriceIdFor env a.planName interval = s.priceId ∧
    a.billingInterval = some interval
  status : a.subscriptionStatus = some s.status.text
  subscriptionId : a.paddleSubscriptionId = some s.id

/-- The account as `w'` holds it agrees with Paddle's state in `w`. -/
def Converged (env : Env) (w w' : World) (email : String) : Prop :=
  (∀ s, liveSubs env w email = [s] → HoldsSub env s (accountOf w'.db email)) ∧
    (liveSubs env w email = [] → (accountOf w'.db email).planName = "free")

/-- The stored subscription id is that of the live subscription, or there is none and
the live one is listed first. When nothing is live, the stored id names no
subscription that is, and the account has a status to reset or is on free already. -/
def LookupMeetsLive (env : Env) (w : World) (email : String) : Prop :=
  (∀ s, liveSubs env w email = [s] →
    match orNull (accountOf w.db email).paddleSubscriptionId with
    | some id => s.id = id
    | none => ∃ customerId, accountCustomer w email = some customerId ∧
        (w.paddle.listLive customerId).head? = some s) ∧
  (liveSubs env w email = [] →
    (∀ s ∈ w.paddle.subscriptions, (accountOf w.db email).paddleSubscriptionId = some s.id →
      ¬ (s.status.isActive ∧ s.hasConfiguredPrice env)) ∧
    ((orNull (accountOf w.db email).subscriptionStatus).isSome ∨
      (accountOf w.db email).planName = "free"))

/-! ### Prices and live subscriptions -/

theorem mem_paddlePrices_iff {id : String} :
    id ∈ env.paddlePrices ↔ ∃ k i, paddlePriceIdFor env k i = some id := by
  simp only [paddlePrices_eq, List.mem_append, Option.mem_toList,
    paddlePriceIdFor_eq_some_iff]
  constructor
  · rintro (h | h | h | h)
    · exact ⟨_, _, .inl ⟨rfl, rfl, h⟩⟩
    · exact ⟨_, _, .inr (.inl ⟨rfl, rfl, h⟩)⟩
    · exact ⟨_, _, .inr (.inr (.inl ⟨rfl, rfl, h⟩))⟩
    · exact ⟨_, _, .inr (.inr (.inr ⟨rfl, rfl, h⟩))⟩
  · rintro ⟨k, i, ⟨-, -, h⟩ | ⟨-, -, h⟩ | ⟨-, -, h⟩ | ⟨-, -, h⟩⟩
    · exact .inl h
    · exact .inr (.inl h)
    · exact .inr (.inr (.inl h))
    · exact .inr (.inr (.inr h))

theorem hasConfiguredPrice_iff :
    s.hasConfiguredPrice env ↔
      ∃ id k i, s.priceId = some id ∧ paddlePriceIdFor env k i = some id := by
  unfold PaddleSub.hasConfiguredPrice
  cases s.priceId with
  | none => simp
  | some id =>
    rw [Option.any_some, List.contains_iff_mem, mem_paddlePrices_iff]
    simp

/-- A subscription counts as paid exactly when it is live at a configured price. -/
theorem isPaid_iff (hd : env.PricesDistinct) :
    s.isPaid env ↔ s.status.isActive ∧ s.hasConfiguredPrice env := by
  rw [PaddleSub.isPaid, Bool.and_eq_true, hasConfiguredPrice_iff]
  refine and_congr_right fun _ => ?_
  cases hprice : s.priceId with
  | none => simp [planByPaddlePriceId]
  | some id =>
    constructor
    · intro h
      obtain ⟨k, hk⟩ := Option.isSome_iff_exists.mp h
      obtain ⟨k', i, hki⟩ := planByPaddlePriceId_eq_some hk
      exact ⟨id, k', i, rfl, hki⟩
    · rintro ⟨id', k, i, ⟨⟩, h⟩
      rw [(plan_interval_of_paddlePriceIdFor hd h).1]
      rfl

theorem mem_liveSubs_iff :
    s ∈ liveSubs env w email ↔ ∃ customerId, accountCustomer w email = some customerId ∧
      s ∈ w.paddle.listLive customerId ∧ s.hasConfiguredPrice env := by
  unfold liveSubs Paddle.listLive
  cases accountCustomer w email with
  | none => simp
  | some customerId => simp [and_assoc]

theorem mem_subscriptions_of_listLive {p : Paddle} {customerId : String}
    (h : s ∈ p.listLive customerId) : s ∈ p.subscriptions ∧ s.status.isActive := by
  obtain ⟨hmem, hlive⟩ := List.mem_filter.mp h
  rw [Bool.and_eq_true] at hlive
  exact ⟨hmem, hlive.2⟩

/-- The live subscription that is alone is itself paid. -/
theorem isPaid_of_liveSubs (hd : env.PricesDistinct) (h : liveSubs env w email = [s]) :
    s.isPaid env ∧ s ∈ w.paddle.subscriptions := by
  obtain ⟨customerId, -, hlist, hprice⟩ := mem_liveSubs_iff.mp (h ▸ List.mem_singleton_self s)
  obtain ⟨hmem, hactive⟩ := mem_subscriptions_of_listLive hlist
  exact ⟨(isPaid_iff hd).mpr ⟨hactive, hprice⟩, hmem⟩

theorem eq_of_sub_id {p : Paddle} {t : PaddleSub} (hs : s ∈ p.subscriptions)
    (ht : t ∈ p.subscriptions) (h : s.id = t.id) : s = t :=
  List.inj_on_of_nodup_map p.nodup hs ht h

theorem mem_of_lookupSub (h : lookupSub w email = some s) : s ∈ w.paddle.subscriptions := by
  unfold lookupSub at h
  split at h
  · exact (Paddle.get_eq_some_iff.mp h).1
  · obtain ⟨customerId, -, hhead⟩ := Option.bind_eq_some_iff.mp h
    exact (mem_subscriptions_of_listLive (List.mem_of_mem_head? hhead)).1

/-- Where the lookup ends up, in terms of the stored id. -/
theorem lookupSub_eq_some_iff (hs : s ∈ w.paddle.subscriptions) :
    lookupSub w email = some s ↔
      match orNull (accountOf w.db email).paddleSubscriptionId with
      | some id => s.id = id
      | none => ∃ customerId, accountCustomer w email = some customerId ∧
          (w.paddle.listLive customerId).head? = some s := by
  unfold lookupSub
  cases orNull (accountOf w.db email).paddleSubscriptionId with
  | some id =>
    dsimp only
    rw [Paddle.get_eq_some_iff]
    exact and_iff_right hs
  | none =>
    dsimp only
    rw [Option.bind_eq_some_iff]

/-- When nothing is live, only a stored id can lead to a paid subscription. -/
theorem lookupSub_unpaid_iff (hd : env.PricesDistinct) (hlive : liveSubs env w email = []) :
    (∀ s, lookupSub w email = some s → ¬ s.isPaid env) ↔
      ∀ s ∈ w.paddle.subscriptions, (accountOf w.db email).paddleSubscriptionId = some s.id →
        ¬ (s.status.isActive ∧ s.hasConfiguredPrice env) := by
  constructor
  · intro h s hs hid hpaid
    refine h s ((lookupSub_eq_some_iff hs).mpr ?_) ((isPaid_iff hd).mpr hpaid)
    rw [hid, orNull_eq_some_iff.mpr ⟨rfl, w.paddle.id_ne_empty s hs⟩]
  · intro h s hlookup hpaid
    have hs := mem_of_lookupSub hlookup
    have hroute := (lookupSub_eq_some_iff hs).mp hlookup
    split at hroute
    · rename_i id hid
      refine h s hs ?_ ((isPaid_iff hd).mp hpaid)
      rw [(orNull_eq_some_iff.mp hid).1, hroute]
    · obtain ⟨customerId, hcust, hhead⟩ := hroute
      have hmem : s ∈ liveSubs env w email := mem_liveSubs_iff.mpr
        ⟨customerId, hcust, List.mem_of_mem_head? hhead, ((isPaid_iff hd).mp hpaid).2⟩
      rw [hlive] at hmem
      cases hmem

theorem lookupMeetsLive_iff (hd : env.PricesDistinct) :
    LookupMeetsLive env w email ↔
      (∀ s, liveSubs env w email = [s] → lookupSub w email = some s) ∧
      (liveSubs env w email = [] → (∀ s, lookupSub w email = some s → ¬ s.isPaid env) ∧
        ((orNull (accountOf w.db email).subscriptionStatus).isSome ∨
          (accountOf w.db email).planName = "free")) := by
  refine and_congr ?_ ?_
  · refine forall_congr' fun s => ?_
    refine imp_congr_right fun hlive => ?_
    exact (lookupSub_eq_some_iff (isPaid_of_liveSubs hd hlive).2).symm
  · refine imp_congr_right fun hlive => ?_
    rw [lookupSub_unpaid_iff hd hlive]

/-- The fields written for a paid subscription are its own. -/
theorem holdsSub_liveFields (hd : env.PricesDistinct) (h : s.isPaid env) (a : BillingAccount) :
    HoldsSub env s ((liveFields (normalizeSub env s)).apply a) := by
  obtain ⟨hactive, hprice⟩ := (isPaid_iff hd).mp h
  obtain ⟨id, k, i, hid, hki⟩ := hasConfiguredPrice_iff.mp hprice
  obtain ⟨hplan, hinterval⟩ := plan_interval_of_paddlePriceIdFor hd hki
  refine ⟨⟨i, ?_, ?_⟩, rfl, rfl⟩
  · change paddlePriceIdFor env (normalizeSub env s).planName i = s.priceId
    simp [normalizeSub, hactive, hid, hplan, hki]
  · change (normalizeSub env s).interval = some i
    simp [normalizeSub, hactive, hid, hinterval]

theorem status_text_ne_empty (st : PaddleStatus) : st.text ≠ "" := by
  cases st <;> decide

/-- An account that holds a subscription is on a paid plan and has a status. -/
theorem HoldsSub.planName_ne_free {a : BillingAccount} (h : HoldsSub env s a)
    (hprice : s.priceId.isSome) : a.planName ≠ "free" := by
  intro hfree
  obtain ⟨i, hi, -⟩ := h.plan
  obtain ⟨id, hid⟩ := Option.isSome_iff_exists.mp hprice
  rw [hfree, hid, paddlePriceIdFor_eq_some_iff] at hi
  simp at hi

/-- Reconcile converges exactly when its lookup meets the live subscription. -/
theorem converged_iff (hrun : (reconcile cfg email).exec w = (.ok (), w')) (hne : email ≠ "")
    (hconf : isPaddleConfigured cfg.env = true) (hd : cfg.env.PricesDistinct)
    (hcomped : (accountOf w.db email).subscriptionStatus ≠ some "comped")
    (hpending : (accountOf w.db email).pendingActive w.now = false) :
    Converged cfg.env w w' email ↔ LookupMeetsLive cfg.env w email := by
  rw [lookupMeetsLive_iff hd]
  have hconfigured : ∀ s, liveSubs cfg.env w email = [s] → s.priceId.isSome := by
    intro s hlive
    obtain ⟨_, -, -, hprice⟩ := mem_liveSubs_iff.mp (hlive ▸ List.mem_singleton_self s)
    exact Option.isSome_of_any hprice
  rcases reconcile_cases hrun hne hconf hcomped with
    ⟨s, a, -, -, hact, -, -⟩ | ⟨s, a, hlookup, hpaid, -, hacct⟩ |
    ⟨status, a, hunpaid, hstatus, hacct⟩ | ⟨hunpaid, hstatus, hcolumns⟩
  · -- no change is in flight
    rw [hpending] at hact
    cases hact
  · -- the account now holds `s`
    have hholds := holdsSub_liveFields hd hpaid a
    rw [← hacct] at hholds
    refine and_congr (forall_congr' fun t => imp_congr_right fun hlive => ?_)
      (imp_congr_right fun hlive => ?_)
    · rw [hlookup, Option.some.injEq]
      constructor
      · -- a stored id that is live would have been found
        intro ht
        refine eq_of_sub_id (mem_of_lookupSub hlookup) (isPaid_of_liveSubs hd hlive).2 ?_
        exact Option.some.inj (hholds.subscriptionId.symm.trans ht.subscriptionId)
      · rintro rfl
        exact hholds
    · have hprice := ((isPaid_iff hd).mp hpaid).2
      constructor
      · intro hfree
        exact absurd hfree (hholds.planName_ne_free (Option.isSome_of_any hprice))
      · intro h
        exact absurd hpaid (h.1 s hlookup)
  · -- the account was reset to free
    have hfree : (accountOf w'.db email).planName = "free" := by
      rw [hacct]
      rfl
    refine and_congr (forall_congr' fun t => imp_congr_right fun hlive => ?_)
      (imp_congr_right fun hlive => ?_)
    · constructor
      · intro ht
        exact absurd hfree (ht.planName_ne_free (hconfigured t hlive))
      · intro hlookup
        exact absurd (isPaid_of_liveSubs hd hlive).1 (hunpaid t hlookup)
    · exact iff_of_true hfree ⟨hunpaid, .inl hstatus⟩
  · -- nothing was written
    refine and_congr (forall_congr' fun t => imp_congr_right fun hlive => ?_)
      (imp_congr_right fun hlive => ?_)
    · constructor
      · intro ht
        have hst := ht.status
        rw [congrArg PlanColumns.subscriptionStatus hcolumns] at hst
        rw [hst, orNull_eq_none_iff] at hstatus
        simp [status_text_ne_empty] at hstatus
      · intro hlookup
        exact absurd (isPaid_of_liveSubs hd hlive).1 (hunpaid t hlookup)
    · rw [congrArg PlanColumns.planName hcolumns, hstatus]
      constructor
      · intro hfree
        exact ⟨hunpaid, .inr hfree⟩
      · rintro ⟨-, hsome | hfree⟩
        · cases hsome
        · exact hfree

/-! ### Subscribe, cancel, subscribe again -/

/-- Ada's first subscription. -/
def firstSub : PaddleSub :=
  { id := "sub_1", customerId := "ctm_ada", status := .active, priceId := some "pri_pro" }

theorem firstSub_id_ne_empty : ∀ s ∈ [firstSub], s.id ≠ "" := by decide

/-- Ada's second subscription, on Business. -/
def secondSub : PaddleSub :=
  { id := "sub_2", customerId := "ctm_ada", status := .active, priceId := some "pri_business" }

def adaCustomer : PaddleCustomer := ⟨"ctm_ada", "ada@example.com"⟩

/-- The account after a reconcile while Paddle is in the given state. -/
def reconciled (w : World) (paddle : Paddle) : World :=
  ((reconcile .paddleDemo "ada@example.com").exec { w with paddle := paddle }).2

/-- Subscribed, reconciled, cancelled, reconciled, and subscribed again. -/
def resubscribed : World :=
  { reconciled
      (reconciled {}
        { customers := [adaCustomer]
          subscriptions := [firstSub]
          id_ne_empty := firstSub_id_ne_empty })
      { customers := [adaCustomer]
        subscriptions := [{ firstSub with status := .canceled }] } with
    paddle :=
      { customers := [adaCustomer]
        subscriptions := [{ firstSub with status := .canceled }, secondSub] } }

/-- The stored id still names the cancelled subscription, so the paying customer is
left on free. -/
theorem stale_id_hides_live_subscription :
    ((reconcile .paddleDemo "ada@example.com").exec resubscribed).1 = .ok () ∧
      Config.paddleDemo.env.PricesDistinct ∧
      (accountRow resubscribed.db "ada@example.com").isSome ∧
      (accountOf resubscribed.db "ada@example.com").subscriptionStatus ≠ some "comped" ∧
      (accountOf resubscribed.db "ada@example.com").pendingActive resubscribed.now = false ∧
      liveSubs Config.paddleDemo.env resubscribed "ada@example.com" = [secondSub] ∧
      ¬ Converged Config.paddleDemo.env resubscribed
        ((reconcile .paddleDemo "ada@example.com").exec resubscribed).2 "ada@example.com" := by
  refine ⟨rfl, by decide, by decide, by decide, by decide, by decide, fun h => ?_⟩
  have hheld := (h.1 secondSub (by decide)).subscriptionId
  revert hheld
  decide

/-- The first time round reconcile finds the only subscription by the customer. -/
theorem converged_iff_subscribed :
    Converged Config.paddleDemo.env
        { paddle := { customers := [adaCustomer], subscriptions := [firstSub] } }
        (reconciled {} { customers := [adaCustomer], subscriptions := [firstSub] })
        "ada@example.com" := by
  have hrun : (reconcile .paddleDemo "ada@example.com").exec
      { paddle := { customers := [adaCustomer], subscriptions := [firstSub] } } =
        (.ok (), reconciled {} { customers := [adaCustomer], subscriptions := [firstSub] }) := rfl
  have hlive : liveSubs Config.paddleDemo.env
      { paddle := { customers := [adaCustomer], subscriptions := [firstSub] } }
        "ada@example.com" = [firstSub] := by
    decide
  refine (converged_iff hrun (by decide) (by decide) (by decide) (by decide) (by decide)).mpr
    ⟨fun s hs => ?_, fun hnone => ?_⟩
  · obtain rfl : firstSub = s := List.head_eq_of_cons_eq (hlive.symm.trans hs)
    exact ⟨adaCustomer.id, by decide, by decide⟩
  · rw [hlive] at hnone
    cases hnone

end Feedbase
