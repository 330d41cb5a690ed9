import Feedbase.Billing.CompConcurrency

/-!
# Webhooks of one subscription, handled at the same time

Each webhook starts a reconcile run that reads the provider and writes the account some
actions later, with no check that what it read is still current. So two runs that
overlap may write in the other order than they read. The account ends on the
subscription's final state if no run that began before the last change ends last.

## Main definitions

* `Single` — the account and its only subscription
* `ShowsSub` — the account shows the state of the subscription
* `SubEvent`, `WebhookEnv`, `webhookSystem`
* `StaleNotLast`, `BeginsInformed` — what a run after the last change must meet

## Main results

* `ReconcileStep.single` — what a run preserves
* `ReconcileStep.fresh` — what a run that began after the last change does
* `converges_of_run`
-/

namespace Feedbase

variable {cfg : Config} {email sid cust : String} {customers : List PaddleCustomer}
  {w w' : World} {φ φ' : ReconcilePhase} {s t : PaddleSub}

/-! ### One account and its subscription -/

/-- The first customer with the account's email. -/
def customerByEmail (customers : List PaddleCustomer) (email : String) : Option String :=
  orNull ((customers.filter (·.email == email)).head?.map (·.id))

/-- The account has no comp and no scheduled change, and its ids are those of the
subscription. -/
structure Mine (email sid cust : String) (customers : List PaddleCustomer) (a : BillingAccount) :
    Prop where
  status : a.subscriptionStatus ≠ some "comped"
  pending : orNull a.pendingPlan = none
  subscription : ∀ id, orNull a.paddleSubscriptionId = some id → id = sid
  customer : orNull a.paddleCustomerId = some cust ∨
    (orNull a.paddleCustomerId = none ∧ customerByEmail customers email = some cust)

/-- The account's customer has one subscription, and nothing fails. -/
structure Single (email sid cust : String) (customers : List PaddleCustomer) (w : World) :
    Prop where
  fails : ∀ site, w.fails site = false
  customers_eq : w.paddle.customers = customers
  sub : ∃ t, w.paddle.get sid = some t ∧ t.customerId = cust
  only : ∀ t ∈ w.paddle.subscriptions, t.customerId = cust → t.id = sid
  account : Mine email sid cust customers (accountOf w.db email)

theorem Mine.cust_ne_empty {a : BillingAccount} (h : Mine email sid cust customers a) :
    cust ≠ "" := by
  rcases h.customer with h | ⟨-, h⟩
  · exact (orNull_eq_some_iff.mp h).2
  · exact (orNull_eq_some_iff.mp h).2

theorem Single.sid_ne_empty (h : Single email sid cust customers w) : sid ≠ "" := by
  obtain ⟨t, ht, -⟩ := h.sub
  obtain ⟨hmem, rfl⟩ := Paddle.get_eq_some_iff.mp ht
  exact w.paddle.id_ne_empty t hmem

/-- The writes of a run: ids and state of the subscription. -/
inductive OwnWrite (sid cust : String) : AccountFields → Prop where
  | customer : OwnWrite sid cust { paddleCustomerId := some (some cust) }
  | subscription : OwnWrite sid cust { paddleSubscriptionId := some (some sid) }
  | live {n : NormalizedSub} (hid : n.subscriptionId = sid) (hcust : n.customerId = cust) :
    OwnWrite sid cust (liveFields n)
  | reset (status : Option PaddleStatus) : OwnWrite sid cust (resetFields (status.map (·.text)))

theorem PaddleStatus.text_ne_comped (s : PaddleStatus) : s.text ≠ "comped" := by
  cases s <;> decide

theorem Mine.apply {a : BillingAccount} {f : AccountFields} {n : Nat}
    (h : Mine email sid cust customers a) (hf : OwnWrite sid cust f) :
    Mine email sid cust customers (f.apply { a with id := n }) := by
  have hcust : orNull (some cust) = some cust := orNull_eq_some_iff.mpr ⟨rfl, h.cust_ne_empty⟩
  cases hf with
  | customer => exact ⟨h.status, h.pending, h.subscription, .inl hcust⟩
  | subscription =>
    exact ⟨h.status, h.pending, fun id hid => (Option.some.inj (orNull_eq_some_iff.mp hid).1).symm,
      h.customer⟩
  | @live n hid hc =>
    refine ⟨fun hs => n.status.text_ne_comped (Option.some.inj hs), rfl, fun id h => ?_, .inl ?_⟩
    · have heq := (orNull_eq_some_iff.mp h).1
      exact (Option.some.inj heq).symm.trans hid
    · change orNull (some n.customerId) = some cust
      rw [hc, hcust]
  | reset status =>
    refine ⟨fun hs => ?_, rfl, h.subscription, h.customer⟩
    obtain ⟨st, -, hst⟩ := Option.map_eq_some_iff.mp (hs : status.map (·.text) = some "comped")
    exact st.text_ne_comped hst

/-- A write of a run. -/
theorem Single.write {f : AccountFields} {db : Db} (hne : email ≠ "")
    (h : Single email sid cust customers w) (hf : OwnWrite sid cust f)
    (htx : setAccountPlanTx email f w.db = some db) :
    Single email sid cust customers { w with db := db } := by
  refine ⟨h.fails, h.customers_eq, h.sub, h.only, ?_⟩
  dsimp only
  rw [accountOf_setAccountPlanTx hne htx]
  exact h.account.apply hf

/-- A change of subscriptions that keeps their customers. -/
theorem Single.setSub {id : String} {f : PaddleSub → PaddleSub} {hf : ∀ s, (f s).id = s.id}
    (hcustomer : ∀ s, (f s).customerId = s.customerId) (h : Single email sid cust customers w) :
    Single email sid cust customers { w with paddle := w.paddle.setSub id f hf } := by
  have hkeep : ∀ s : PaddleSub, (if s.id == id then f s else s).customerId = s.customerId ∧
      (if s.id == id then f s else s).id = s.id := by
    intro s
    split
    · exact ⟨hcustomer s, hf s⟩
    · exact ⟨rfl, rfl⟩
  obtain ⟨t, ht, hcust⟩ := h.sub
  refine ⟨h.fails, h.customers_eq, ?_, fun u hu hucust => ?_, h.account⟩
  · refine ⟨_, by rw [Paddle.get_setSub, ht]; rfl, ?_⟩
    rw [(hkeep t).1, hcust]
  · obtain ⟨u', hu', rfl⟩ := List.mem_map.mp hu
    rw [(hkeep u').1] at hucust
    rw [(hkeep u').2]
    exact h.only u' hu' hucust

/-- The offer of a run. -/
theorem Single.offer (h : Single email sid cust customers w)
    (hstep : BillingStep (fun _ _ => False) (DiscountPatch cfg) w w') :
    Single email sid cust customers w' := by
  cases hstep with
  | quiet heq => exact heq ▸ h
  | account e f db hA htx heq => exact hA.elim
  | paddle p hP heq =>
    obtain ⟨id, d, rfl⟩ := hP
    rw [heq]
    exact h.setSub fun s => cfg.customer_patchSub s _
  | stripe st heq =>
    rw [heq]
    exact ⟨h.fails, h.customers_eq, h.sub, h.only, h.account⟩

/-! ### What a run holds -/

/-- The phase of a run for the account: what it has read of ids is the subscription's. -/
def Fits (email sid cust : String) (customers : List PaddleCustomer) : ReconcilePhase → Prop
  | .start | .done => True
  | .comped _ => False
  | .account a => orNull a.pendingPlan = none
  | .byId a id => orNull a.pendingPlan = none ∧ id = sid
  | .customerLookup a =>
    orNull a.pendingPlan = none ∧ customerByEmail customers email = some cust
  | .newCustomer a id | .byCustomer a id => orNull a.pendingPlan = none ∧ id = cust
  | .newSub a t => orNull a.pendingPlan = none ∧ t.id = sid ∧ t.customerId = cust
  | .live a n => orNull a.pendingPlan = none ∧ n.subscriptionId = sid ∧ n.customerId = cust
  | .writing f => OwnWrite sid cust f

theorem fits_conclude_none {a : BillingAccount} :
    Fits email sid cust customers (conclude a none) := by
  unfold conclude
  dsimp only [Option.filter_none]
  split
  · exact OwnWrite.reset none
  · trivial

theorem fits_conclude {a : BillingAccount} {n : NormalizedSub} (ha : orNull a.pendingPlan = none)
    (hid : n.subscriptionId = sid) (hcust : n.customerId = cust) :
    Fits email sid cust customers (conclude a (some n)) := by
  unfold conclude
  split
  · rename_i sub hsub
    obtain ⟨heq, -⟩ := Option.filter_eq_some_iff.mp hsub
    cases heq
    exact ⟨ha, hid, hcust⟩
  · split
    · exact OwnWrite.reset (some n.status)
    · trivial

theorem pendingActive_eq_false {a : BillingAccount} (h : orNull a.pendingPlan = none) (now : Time) :
    a.pendingActive now = false := by
  simp [PlanColumns.pendingActive, h]

theorem mem_of_listLive {p : Paddle} {customerId : String} {t : PaddleSub}
    (h : (p.listLive customerId).head? = some t) :
    t ∈ p.subscriptions ∧ t.customerId = customerId ∧ t.status.isActive = true := by
  have hmem := List.mem_of_mem_head? h
  simp only [Paddle.listLive, List.mem_filter, Bool.and_eq_true, beq_iff_eq] at hmem
  exact hmem

/-- One action of a run preserves the account's situation and the run's. -/
theorem ReconcileStep.single (hne : email ≠ "") (h : Single email sid cust customers w)
    (hφ : Fits email sid cust customers φ) (hstep : ReconcileStep cfg email φ w φ' w') :
    Single email sid cust customers w' ∧ Fits email sid cust customers φ' := by
  cases hstep with
  -- an account that is neither comped nor changing soon goes on to its ids
  | readAccount =>
    rw [if_neg h.account.status]
    exact ⟨h, h.account.pending⟩
  | compClock => exact hφ.elim
  | @readIds acct w =>
    refine ⟨h, ?_⟩
    unfold lookupPhase
    cases hid : orNull (accountOf w.db email).paddleSubscriptionId with
    | some id => exact ⟨hφ, h.account.subscription id hid⟩
    | none =>
      rcases h.account.customer with hcust | ⟨hcust, hemail⟩
      · simp only [hcust]
        exact ⟨hφ, rfl⟩
      · simp only [hcust]
        exact ⟨hφ, hemail⟩
  -- the stored id is the one of the only subscription
  | @get acct id sub w hget =>
    obtain ⟨ha, rfl⟩ := hφ
    obtain ⟨t, ht, hcust⟩ := h.sub
    obtain rfl : sub = t := Option.some.inj (hget.symm.trans ht)
    exact ⟨h, fits_conclude ha (Paddle.get_eq_some_iff.mp hget).2 hcust⟩
  | missing hget => exact ⟨h, trivial⟩
  -- Paddle lists one customer under the address, the one the account may store
  | @findCustomer acct w =>
    obtain ⟨ha, hemail⟩ := hφ
    have hlist : orNull ((w.paddle.customersOf email).head?.map (·.id)) = some cust := by
      unfold Paddle.customersOf
      rw [h.customers_eq]
      exact hemail
    rw [hlist]
    exact ⟨h, ha, rfl⟩
  | storeCustomer htx =>
    obtain ⟨ha, rfl⟩ := hφ
    exact ⟨h.write hne .customer htx, ha, rfl⟩
  -- every live subscription of the customer is the one
  | @findSub acct customerId w =>
    obtain ⟨ha, rfl⟩ := hφ
    cases hhead : (w.paddle.listLive customerId).head? with
    | none => exact ⟨h, fits_conclude_none⟩
    | some t =>
      obtain ⟨hmem, hcust, -⟩ := mem_of_listLive hhead
      exact ⟨h, ha, h.only t hmem hcust, hcust⟩
  | storeSub htx =>
    obtain ⟨ha, rfl, hcust⟩ := hφ
    exact ⟨h.write hne .subscription htx, fits_conclude ha rfl hcust⟩
  | liveClock =>
    obtain ⟨ha, hid, hcust⟩ := hφ
    rw [pendingActive_eq_false ha]
    exact ⟨h, OwnWrite.live hid hcust⟩
  | offer hoffer => exact ⟨h.offer hoffer, hφ⟩
  | write htx => exact ⟨h.write hne hφ htx, trivial⟩
  | fault => exact ⟨h, trivial⟩

/-! ### The state of the subscription -/

/-- The two fields of a subscription that the account's columns show. -/
def SameState (s t : PaddleSub) : Prop := t.status = s.status ∧ t.priceId = s.priceId

/-- The subscription is in the state `s`. -/
def IsNow (sid : String) (s : PaddleSub) (w : World) : Prop :=
  ∃ t, w.paddle.get sid = some t ∧ SameState s t

/-- The account shows the plan, the interval and the status of the subscription. -/
structure ShowsSub (env : Env) (s : PaddleSub) (a : BillingAccount) : Prop where
  planName : a.planName = (normalizeSub env s).planName
  billingInterval : a.billingInterval =
    if (normalizeSub env s).planName = "free" then none else (normalizeSub env s).interval
  status : a.subscriptionStatus = some s.status.text

theorem normalizeSub_congr (env : Env) (h : SameState s t) :
    (normalizeSub env t).planName = (normalizeSub env s).planName ∧
      (normalizeSub env t).interval = (normalizeSub env s).interval ∧
      (normalizeSub env t).status = s.status := by
  unfold normalizeSub
  dsimp only
  rw [h.1, h.2]
  exact ⟨rfl, rfl, rfl⟩

/-- The account holds the subscription's id. -/
def IdStored (email sid : String) (w : World) : Prop :=
  orNull (accountOf w.db email).paddleSubscriptionId = some sid

/-- A run that began when the subscription was in the state `s` reads that state, and
writes it. -/
def Fresh (env : Env) (email sid : String) (s : PaddleSub) (w : World) : ReconcilePhase → Prop
  | .account a =>
    s.isPaid env = true ∨ ((orNull a.subscriptionStatus).isSome ∧ IdStored email sid w)
  | .byId a _ => s.isPaid env = true ∨ (orNull a.subscriptionStatus).isSome
  | .customerLookup _ | .newCustomer _ _ | .byCustomer _ _ => s.isPaid env = true
  | .newSub _ t => s.isPaid env = true ∧ SameState s t
  | .live _ n => s.isPaid env = true ∧ n.planName = (normalizeSub env s).planName ∧
      n.interval = (normalizeSub env s).interval ∧ n.status = s.status
  | .writing f => ∀ a, ShowsSub env s (f.apply a)
  | _ => False

theorem SameState.showsSub {env : Env} {a : BillingAccount} (h : SameState s t)
    (hs : ShowsSub env s a) : ShowsSub env t a := by
  obtain ⟨hplan, hinterval, -⟩ := normalizeSub_congr env h
  refine ⟨?_, ?_, ?_⟩
  · rw [hs.planName, hplan]
  · rw [hs.billingInterval, hplan, hinterval]
  · rw [hs.status, h.1]

theorem planName_eq_free {env : Env} (h : ¬ s.isPaid env = true) :
    (normalizeSub env s).planName = "free" := by
  by_contra hne
  exact h (planName_normalizeSub_ne_free_iff.mp hne)

theorem showsSub_resetFields {env : Env} (h : ¬ s.isPaid env = true) (a : BillingAccount) :
    ShowsSub env s ((resetFields (some s.status.text)).apply a) := by
  have hfree := planName_eq_free h
  refine ⟨hfree.symm, ?_, rfl⟩
  rw [if_pos hfree]
  rfl

theorem showsSub_liveFields {env : Env} {n : NormalizedSub} (hpaid : s.isPaid env = true)
    (hplan : n.planName = (normalizeSub env s).planName)
    (hinterval : n.interval = (normalizeSub env s).interval) (hstatus : n.status = s.status)
    (a : BillingAccount) : ShowsSub env s ((liveFields n).apply a) := by
  refine ⟨hplan, ?_, congrArg (fun st : PaddleStatus => some st.text) hstatus⟩
  rw [if_neg (planName_normalizeSub_ne_free_iff.mpr hpaid)]
  exact hinterval

/-- What a run that has read the state goes on to write. -/
theorem fresh_conclude {a : BillingAccount} (hs : SameState s t)
    (h : s.isPaid cfg.env = true ∨ (orNull a.subscriptionStatus).isSome = true) :
    Fresh cfg.env email sid s w (conclude a (some (normalizeSub cfg.env t))) := by
  obtain ⟨hplan, hinterval, hstatus⟩ := normalizeSub_congr cfg.env hs
  by_cases hpaid : s.isPaid cfg.env = true
  · have hne : (normalizeSub cfg.env t).planName ≠ "free" := by
      rw [hplan]
      exact planName_normalizeSub_ne_free_iff.mpr hpaid
    have hconclude : conclude a (some (normalizeSub cfg.env t)) = .live a (normalizeSub cfg.env t) := by
      simp [conclude, Option.filter_some, hne]
    rw [hconclude]
    exact ⟨hpaid, hplan, hinterval, hstatus⟩
  · have hfree : (normalizeSub cfg.env t).planName = "free" := by
      rw [hplan]
      exact planName_eq_free hpaid
    have hknown := h.resolve_left hpaid
    have hconclude : conclude a (some (normalizeSub cfg.env t)) =
        .writing (resetFields (some s.status.text)) := by
      simp [conclude, Option.filter_some, hfree, hknown, hstatus]
    rw [hconclude]
    exact showsSub_resetFields hpaid

theorem eq_of_isNow {u : PaddleSub} (hnow : IsNow sid s w) (hu : w.paddle.get sid = some u) :
    SameState s u := by
  obtain ⟨t, ht, hsame⟩ := hnow
  obtain rfl : t = u := Option.some.inj (ht.symm.trans hu)
  exact hsame

/-- A live subscription is found by its customer. -/
theorem Single.listLive (h : Single email sid cust customers w) (hnow : IsNow sid s w)
    (hactive : s.status.isActive = true) :
    ∃ t, (w.paddle.listLive cust).head? = some t ∧ SameState s t := by
  obtain ⟨t, ht, hcust⟩ := h.sub
  have hsame := eq_of_isNow hnow ht
  have hmem : t ∈ w.paddle.listLive cust := by
    have hsub := (Paddle.get_eq_some_iff.mp ht).1
    simp only [Paddle.listLive, List.mem_filter, Bool.and_eq_true, beq_iff_eq]
    exact ⟨hsub, hcust, hsame.1.symm ▸ hactive⟩
  cases hhead : (w.paddle.listLive cust).head? with
  | none =>
    rw [List.head?_eq_none_iff] at hhead
    rw [hhead] at hmem
    cases hmem
  | some u =>
    obtain ⟨humem, hucust, -⟩ := mem_of_listLive hhead
    have hget := Paddle.get_eq_some_iff.mpr ⟨humem, h.only u humem hucust⟩
    exact ⟨u, rfl, eq_of_isNow hnow hget⟩

/-- The first action of a run. -/
theorem ReconcileStep.fresh_start (h : Single email sid cust customers w)
    (hinformed : s.isPaid cfg.env = true ∨
      (orNull (accountOf w.db email).subscriptionStatus).isSome = true ∧ IdStored email sid w)
    (hstep : ReconcileStep cfg email .start w φ' w') : Fresh cfg.env email sid s w' φ' := by
  cases hstep with
  | readAccount =>
    rw [if_neg h.account.status]
    exact hinformed
  | fault hfail =>
    rw [h.fails] at hfail
    cases hfail

/-- A run that began after the last change goes on to write the state, and has written it
when it ends. -/
theorem ReconcileStep.fresh (hne : email ≠ "") (h : Single email sid cust customers w)
    (hφ : Fits email sid cust customers φ) (hnow : IsNow sid s w)
    (hfresh : Fresh cfg.env email sid s w φ) (hstep : ReconcileStep cfg email φ w φ' w') :
    Fresh cfg.env email sid s w' φ' ∨
      φ' = .done ∧ ShowsSub cfg.env s (accountOf w'.db email) := by
  cases hstep with
  | readAccount => exact hfresh.elim
  | compClock => exact hφ.elim
  | @readIds acct w =>
    left
    unfold lookupPhase
    -- without a stored id, what was fresh about the run is that the subscription is paid
    cases hid : orNull (accountOf w.db email).paddleSubscriptionId with
    | some id => exact hfresh.imp_right And.left
    | none =>
      have hpaid : s.isPaid cfg.env = true := by
        refine hfresh.resolve_right fun hstored => ?_
        have hsid := hid.symm.trans hstored.2
        cases hsid
      cases hcust : orNull (accountOf w.db email).paddleCustomerId with
      | some customerId => exact hpaid
      | none => exact hpaid
  -- what Paddle answers now is the subscription after its last change
  | @get acct id sub w hget =>
    obtain ⟨-, rfl⟩ := hφ
    exact .inl (fresh_conclude (eq_of_isNow hnow hget) hfresh)
  | missing hget =>
    obtain ⟨-, rfl⟩ := hφ
    obtain ⟨t, ht, -⟩ := hnow
    rw [hget] at ht
    cases ht
  | @findCustomer acct w =>
    have hlist : orNull ((w.paddle.customersOf email).head?.map (·.id)) = some cust := by
      unfold Paddle.customersOf
      rw [h.customers_eq]
      exact hφ.2
    rw [hlist]
    exact .inl hfresh
  | storeCustomer htx => exact .inl hfresh
  | @findSub acct customerId w =>
    obtain ⟨-, rfl⟩ := hφ
    have hpaid : s.isPaid cfg.env = true := hfresh
    have hactive : s.status.isActive = true := by
      unfold PaddleSub.isPaid at hpaid
      exact (Bool.and_eq_true_iff.mp hpaid).1
    obtain ⟨t, ht, hsame⟩ := h.listLive hnow hactive
    rw [ht]
    exact .inl ⟨hpaid, hsame⟩
  | storeSub htx => exact .inl (fresh_conclude hfresh.2 (.inl hfresh.1))
  | liveClock =>
    obtain ⟨hpaid, hplan, hinterval, hstatus⟩ := hfresh
    rw [pendingActive_eq_false hφ.1]
    exact .inl (showsSub_liveFields hpaid hplan hinterval hstatus)
  | offer => exact .inl hfresh
  -- the last statement stores what was read after the change
  | write htx =>
    right
    refine ⟨rfl, ?_⟩
    dsimp only
    rw [accountOf_setAccountPlanTx hne htx]
    exact hfresh _
  | fault hfail =>
    rw [h.fails] at hfail
    cases hfail

theorem Single.not_step_done (h : Single email sid cust customers w) :
    ¬ ReconcileStep cfg email .done w φ' w' := by
  intro hstep
  cases hstep with
  | fault hfail =>
    rw [h.fails] at hfail
    cases hfail

/-- No write of a run forgets the subscription's id. -/
theorem IdStored.write {f : AccountFields} {db : Db} (hne : email ≠ "") (hsid : sid ≠ "")
    (h : IdStored email sid w) (hf : OwnWrite sid cust f)
    (htx : setAccountPlanTx email f w.db = some db) : IdStored email sid { w with db := db } := by
  have hnew : orNull (some sid) = some sid := orNull_eq_some_iff.mpr ⟨rfl, hsid⟩
  unfold IdStored
  dsimp only
  rw [accountOf_setAccountPlanTx hne htx]
  cases hf with
  | customer => exact h
  | subscription => exact hnew
  | live hid hcust =>
    subst hid
    exact hnew
  | reset status => exact h

theorem ReconcileStep.idStored (hne : email ≠ "") (h : Single email sid cust customers w)
    (hφ : Fits email sid cust customers φ) (hstored : IdStored email sid w)
    (hstep : ReconcileStep cfg email φ w φ' w') : IdStored email sid w' := by
  have hsid := h.sid_ne_empty
  cases hstep with
  | storeCustomer htx =>
    obtain ⟨-, rfl⟩ := hφ
    exact hstored.write hne hsid .customer htx
  | @storeSub acct sub w db htx =>
    obtain ⟨-, rfl, -⟩ := hφ
    have hown : OwnWrite sub.id cust { paddleSubscriptionId := some (some sub.id) } := .subscription
    exact hstored.write hne hsid hown htx
  | write htx => exact hstored.write hne hsid hφ htx
  | offer hoffer =>
    unfold IdStored
    cases hoffer with
    | quiet heq => exact heq ▸ hstored
    | account e f db hA htx heq => exact hA.elim
    | paddle p hP heq => exact heq ▸ hstored
    | stripe st heq => exact heq ▸ hstored
  | _ => exact hstored

theorem Fresh.mono {env : Env} (h : Fresh env email sid s w φ)
    (hid : IdStored email sid w → IdStored email sid w') : Fresh env email sid s w' φ := by
  cases φ with
  | account a => exact h.imp_right fun ⟨hstatus, hstored⟩ => ⟨hstatus, hid hstored⟩
  | _ => exact h

/-! ### Interleavings -/

/-- A webhook about the account's subscription; the checkout has stamped the account's
email on it. -/
def SubEvent (email : String) : Type :=
  { event : PaddleEvent // event.isSubscription = true ∧ event.accountEmail = some email }

/-- A change of a subscription. -/
structure SubChange where
  status : PaddleStatus
  priceId : Option String
  endsAt : Option Time := none
  cancelScheduled : Bool := false
  discountId : Option String := none

def SubChange.apply (c : SubChange) (s : PaddleSub) : PaddleSub :=
  { s with
    status := c.status
    priceId := c.priceId
    endsAt := c.endsAt
    cancelScheduled := c.cancelScheduled
    discountId := c.discountId }

/-- What happens between the actions of the runs: a subscription changes; or time passes
and the database changes apart from the account. -/
inductive WebhookEnv (email : String) where
  | change (id : String) (c : SubChange)
  | other (f : { f : World → World // ∀ w, (f w).paddle = w.paddle ∧ (f w).fails = w.fails ∧
      accountOf (f w).db email = accountOf w.db email })

def WebhookEnv.run : WebhookEnv email → World → World
  | .change id c, w => { w with paddle := w.paddle.setSub id c.apply fun _ => rfl }
  | .other f, w => f.1 w

def webhookSystem (cfg : Config) (email : String) :
    System World Failure Unit (SubEvent email) (WebhookEnv email) where
  handler event := handleWebhook cfg event.1
  env := WebhookEnv.run

abbrev WebhookPool (email : String) := Pool World Failure Unit (SubEvent email)

/-- The call has begun by then. -/
def BegunBy (cfg : Config) (P : WebhookPool email) (i : Nat) : Prop :=
  ∃ c, P.calls[i]? = some c ∧ c.prog ≠ handleWebhook cfg c.request.1

/-- A call that had not begun at `P₁` is in flight. -/
def LaterInFlight (cfg : Config) (P₁ P : WebhookPool email) : Prop :=
  ∃ i c, ¬ BegunBy cfg P₁ i ∧ P.calls[i]? = some c ∧ c.outcome = none

/-- Once a webhook has arrived after `P₁`, a run that had begun by then acts only while
a later one is in flight. -/
def StaleNotLast (cfg : Config) (P₁ P Q : WebhookPool email) : Prop :=
  ∀ i, (webhookSystem cfg email).move P (.run i) = some Q → BegunBy cfg P₁ i →
    P₁.calls.length < P.calls.length → LaterInFlight cfg P₁ P

/-- A run that begins finds the id of the subscription and a status in the account, or
the subscription is a paid one in the state `s`. -/
def BeginsInformed (cfg : Config) (sid : String) (s : PaddleSub) (P Q : WebhookPool email) : Prop :=
  ∀ i c, (webhookSystem cfg email).move P (.run i) = some Q → P.calls[i]? = some c →
    c.prog = handleWebhook cfg c.request.1 → s.isPaid cfg.env = true ∨
      (orNull (accountOf P.state.db email).subscriptionStatus).isSome = true ∧
        IdStored email sid P.state

/-- A move after the last change of the subscription, which `P₁` follows. -/
structure AfterLastChange (cfg : Config) (sid : String) (s : PaddleSub) (P₁ P Q : WebhookPool email) :
    Prop where
  settled : IsNow sid s Q.state
  staleNotLast : StaleNotLast cfg P₁ P Q
  beginsInformed : BeginsInformed cfg sid s P Q

/-- A run that stands in a phase. -/
abbrev StandsIn (cfg : Config) (email : String) (φ : ReconcilePhase) (p : Handler Unit) : Prop :=
  Runs cfg email (fun _ => .done) φ p

/-- The account's situation, and that of every run. -/
structure Sound (cfg : Config) (sid cust : String) (customers : List PaddleCustomer)
    (P : WebhookPool email) : Prop where
  single : Single email sid cust customers P.state
  fits : ∀ c ∈ P.calls, ∃ φ, Fits email sid cust customers φ ∧ StandsIn cfg email φ c.prog

theorem Single.env (h : Single email sid cust customers w) (e : WebhookEnv email) :
    Single email sid cust customers (e.run w) := by
  cases e with
  | change id c => exact h.setSub fun _ => rfl
  | other f =>
    obtain ⟨hpaddle, hfails, haccount⟩ := f.2 w
    refine ⟨fun site => ?_, ?_, ?_, ?_, ?_⟩
    · change (f.1 w).fails site = false
      rw [hfails, h.fails]
    · change (f.1 w).paddle.customers = customers
      rw [hpaddle, h.customers_eq]
    · change ∃ t, (f.1 w).paddle.get sid = some t ∧ _
      rw [hpaddle]
      exact h.sub
    · change ∀ t ∈ (f.1 w).paddle.subscriptions, _
      rw [hpaddle]
      exact h.only
    · change Mine email sid cust customers (accountOf (f.1 w).db email)
      rw [haccount]
      exact h.account

theorem accountOf_env (e : WebhookEnv email) (w : World) :
    accountOf (e.run w).db email = accountOf w.db email := by
  cases e with
  | change id c => rfl
  | other f => exact (f.2 w).2.2

theorem Sound.move {P Q : WebhookPool email} {m : Move (SubEvent email) (WebhookEnv email)}
    (hne : email ≠ "") (hconf : isPaddleConfigured cfg.env = true)
    (h : Sound cfg sid cust customers P) (hm : (webhookSystem cfg email).move P m = some Q) :
    Sound cfg sid cust customers Q := by
  rcases System.move_eq hm with
    ⟨r, -, rfl⟩ | ⟨e, -, rfl⟩ | ⟨i, c, ready, next, cont, -, hc, hprog, hready, rfl⟩
  · refine ⟨h.single, fun c hc => ?_⟩
    rcases List.mem_append.mp hc with hc | hc
    · exact h.fits c hc
    · rw [List.mem_singleton.mp hc]
      exact ⟨.start, trivial, follows_handleWebhook hne hconf r.2.1 r.2.2⟩
  · exact ⟨h.single.env e, h.fits⟩
  · obtain ⟨φ, hφ, hstands⟩ := h.fits c (List.mem_of_getElem? hc)
    rw [hprog] at hstands
    obtain ⟨φ', hstep, hcont⟩ := hstands P.state hready
    obtain ⟨hsingle, hφ'⟩ := hstep.single hne h.single hφ
    refine ⟨hsingle, fun d hd => ?_⟩
    rcases List.mem_or_eq_of_mem_set hd with hd | rfl
    · exact h.fits d hd
    · exact ⟨φ', hφ', hcont⟩

theorem Sound.of_run {ok : WebhookPool email → WebhookPool email → Prop} {P Q : WebhookPool email}
    (hne : email ≠ "") (hconf : isPaddleConfigured cfg.env = true)
    (h : Sound cfg sid cust customers P) (hrun : (webhookSystem cfg email).Run ok P Q) :
    Sound cfg sid cust customers Q := by
  induction hrun with
  | refl => exact h
  | tail _ hstep ih =>
    obtain ⟨⟨m, hm⟩, -⟩ := hstep
    exact ih.move hne hconf hm

/-! ### After the last change -/

/-- A run that has not come to its end is in flight. -/
theorem outcome_eq_none {c : Call World Failure Unit (SubEvent email)}
    (h : StandsIn cfg email φ c.prog) (hφ : φ ≠ .done) : c.outcome = none := by
  unfold Call.outcome
  split
  · rename_i hprog
    rw [hprog] at h
    exact absurd h hφ
  · rename_i hprog
    rw [hprog] at h
    exact absurd h hφ
  · rfl

/-- The last change has been made at `P₁`. A run that has begun since writes the state of
the subscription, or has written it; unless such a run is in flight, the account shows
that state. -/
structure Settling (cfg : Config) (sid cust : String) (customers : List PaddleCustomer)
    (s : PaddleSub) (P₁ P : WebhookPool email) : Prop where
  sound : Sound cfg sid cust customers P
  settled : IsNow sid s P.state
  length_le : P₁.calls.length ≤ P.calls.length
  later : ∀ i c, ¬ BegunBy cfg P₁ i → P.calls[i]? = some c →
    c.prog = handleWebhook cfg c.request.1 ∨
      ∃ φ, Fits email sid cust customers φ ∧ StandsIn cfg email φ c.prog ∧
        (φ = .done ∨ Fresh cfg.env email sid s P.state φ)
  shows : P₁.calls.length < P.calls.length →
    LaterInFlight cfg P₁ P ∨ ShowsSub cfg.env s (accountOf P.state.db email)

section Settling

variable {P₁ P Q : WebhookPool email}

/-- What an action of a run that has begun since leads to. -/
theorem Settling.later_step {i : Nat} {c : Call World Failure Unit (SubEvent email)}
    {ready : World → Bool} {next : World → World} {cont : World → Handler Unit} (hne : email ≠ "")
    (hconf : isPaddleConfigured cfg.env = true) (h : Settling cfg sid cust customers s P₁ P)
    (hinformed : c.prog = handleWebhook cfg c.request.1 → s.isPaid cfg.env = true ∨
      (orNull (accountOf P.state.db email).subscriptionStatus).isSome = true ∧
        IdStored email sid P.state)
    (hi : ¬ BegunBy cfg P₁ i) (hc : P.calls[i]? = some c) (hprog : c.prog = .act ready next cont)
    (hready : ready P.state = true) :
    ∃ φ, Fits email sid cust customers φ ∧ StandsIn cfg email φ (cont P.state) ∧
      (Fresh cfg.env email sid s (next P.state) φ ∨
        φ = .done ∧ ShowsSub cfg.env s (accountOf (next P.state).db email)) := by
  have hsingle := h.sound.single
  rcases h.later i c hi hc with hbegins | ⟨φ, hφ, hstands, hdone | hfresh⟩
  · have hstands : StandsIn cfg email .start c.prog := by
      rw [hbegins]
      exact follows_handleWebhook hne hconf c.request.2.1 c.request.2.2
    rw [hprog] at hstands
    obtain ⟨φ', hstep, hcont⟩ := hstands P.state hready
    have hfits : Fits email sid cust customers .start := trivial
    exact ⟨φ', (hstep.single hne hsingle hfits).2, hcont,
      .inl (hstep.fresh_start hsingle (hinformed hbegins))⟩
  · -- a run that has come to its end can only fail
    subst hdone
    rw [hprog] at hstands
    obtain ⟨φ', hstep, -⟩ := hstands P.state hready
    exact (hsingle.not_step_done hstep).elim
  · rw [hprog] at hstands
    obtain ⟨φ', hstep, hcont⟩ := hstands P.state hready
    exact ⟨φ', (hstep.single hne hsingle hφ).2, hcont, hstep.fresh hne hsingle hφ h.settled hfresh⟩

/-- The run `j` stays in flight when another one acts. -/
theorem laterInFlight_set {i : Nat} {d : Call World Failure Unit (SubEvent email)} {w : World}
    (hi : BegunBy cfg P₁ i) (h : LaterInFlight cfg P₁ P) :
    LaterInFlight cfg P₁ ⟨w, P.calls.set i d⟩ := by
  obtain ⟨j, c, hj, hc, hflight⟩ := h
  have hij : i ≠ j := by
    rintro rfl
    exact hj hi
  exact ⟨j, c, hj, by rw [List.getElem?_set_ne hij, hc], hflight⟩

theorem Settling.move {m : Move (SubEvent email) (WebhookEnv email)} (hne : email ≠ "")
    (hconf : isPaddleConfigured cfg.env = true) (h : Settling cfg sid cust customers s P₁ P)
    (hok : AfterLastChange cfg sid s P₁ P Q)
    (hm : (webhookSystem cfg email).move P m = some Q) :
    Settling cfg sid cust customers s P₁ Q := by
  have hsound := h.sound.move hne hconf hm
  have hsettled := hok.settled
  rcases System.move_eq hm with
    ⟨r, -, rfl⟩ | ⟨e, -, rfl⟩ | ⟨i, c, ready, next, cont, rfl, hc, hprog, hready, rfl⟩
  · -- a new call has yet to begin, so it is in flight
    refine ⟨hsound, hsettled, ?_, fun i c hi hc => ?_, fun _ => .inl ⟨P.calls.length, _, ?_,
      List.getElem?_concat_length, ?_⟩⟩
    · have hle := h.length_le
      simp only [List.length_append, List.length_singleton]
      omega
    · by_cases hlt : i < P.calls.length
      · rw [List.getElem?_append_left hlt] at hc
        exact h.later i c hi hc
      · rw [List.getElem?_append_right (by omega)] at hc
        rw [List.mem_singleton.mp (List.mem_of_getElem? hc)]
        exact .inl rfl
    · rintro ⟨c, hc, -⟩
      have hlt := (List.getElem?_eq_some_iff.mp hc).1
      have hle := h.length_le
      omega
    · have hstands : StandsIn cfg email .start (handleWebhook cfg r.1) :=
        follows_handleWebhook hne hconf r.2.1 r.2.2
      exact outcome_eq_none hstands (by simp)
  · -- Paddle, the clock or another account: the columns of this one stay
    have haccount : accountOf (e.run P.state).db email = accountOf P.state.db email :=
      accountOf_env e P.state
    have hid : IdStored email sid P.state → IdStored email sid (e.run P.state) := by
      unfold IdStored
      rw [haccount]
      exact id
    refine ⟨hsound, hsettled, h.length_le, fun i c hi hc => ?_, fun hlt => ?_⟩
    · refine (h.later i c hi hc).imp_right ?_
      rintro ⟨φ, hφ, hstands, hphase⟩
      exact ⟨φ, hφ, hstands, hphase.imp_right fun hfresh => hfresh.mono hid⟩
    · refine (h.shows hlt).imp_right fun hshows => ?_
      change ShowsSub cfg.env s (accountOf (e.run P.state).db email)
      rw [haccount]
      exact hshows
  · -- one statement of one run
    have hlength : (P.calls.set i { c with prog := cont P.state }).length = P.calls.length :=
      List.length_set
    have hid : IdStored email sid P.state → IdStored email sid (next P.state) := by
      obtain ⟨φ, hφ, hstands⟩ := h.sound.fits c (List.mem_of_getElem? hc)
      rw [hprog] at hstands
      obtain ⟨φ', hstep, -⟩ := hstands P.state hready
      exact fun hstored => hstep.idStored hne h.sound.single hφ hstored
    have hothers : ∀ j d, ¬ BegunBy cfg P₁ j → P.calls[j]? = some d →
        d.prog = handleWebhook cfg d.request.1 ∨
          ∃ φ, Fits email sid cust customers φ ∧ StandsIn cfg email φ d.prog ∧
            (φ = .done ∨ Fresh cfg.env email sid s (next P.state) φ) := by
      intro j d hj hd
      refine (h.later j d hj hd).imp_right ?_
      rintro ⟨φ, hφ, hstands, hphase⟩
      exact ⟨φ, hφ, hstands, hphase.imp_right fun hfresh => hfresh.mono hid⟩
    by_cases hi : BegunBy cfg P₁ i
    · -- a stale run: it acts only while a later one is in flight
      refine ⟨hsound, hsettled, hlength ▸ h.length_le, fun j d hj hd => ?_, fun hlt => .inl ?_⟩
      · rcases getElem?_set_cases hd with ⟨rfl, -⟩ | ⟨-, hd⟩
        · exact absurd hi hj
        · exact hothers j d hj hd
      · exact laterInFlight_set hi (hok.staleNotLast i hm hi (hlength ▸ hlt))
    · -- a run that began after the change has read it, or shows it at its end
      obtain ⟨φ, hφ, hstands, hphase⟩ :=
        h.later_step hne hconf (hok.beginsInformed i c hm hc) hi hc hprog hready
      refine ⟨hsound, hsettled, hlength ▸ h.length_le, fun j d hj hd => ?_, fun _ => ?_⟩
      · rcases getElem?_set_cases hd with ⟨rfl, rfl⟩ | ⟨-, hd⟩
        · exact .inr ⟨φ, hφ, hstands, hphase.symm.imp And.left id⟩
        · exact hothers j d hj hd
      · rcases hphase with hfresh | ⟨-, hshows⟩
        · have hlt : i < P.calls.length := (List.getElem?_eq_some_iff.mp hc).1
          have hnotDone : φ ≠ .done := by
            rintro rfl
            exact hfresh
          exact .inl ⟨i, _, hi, List.getElem?_set_self hlt, outcome_eq_none hstands hnotDone⟩
        · exact .inr hshows

end Settling

/-- Once the subscription has changed for the last time and its webhook has arrived, the
account ends on the subscription's state: if from then on no run that had begun before
acts when every later run has ended, and a run that begins while the subscription is
not a paid one finds its id and a status in the account. -/
theorem converges_of_run {w₀ : World} {P₁ Q : WebhookPool email} (hne : email ≠ "")
    (hconf : isPaddleConfigured cfg.env = true) (hsingle : Single email sid cust customers w₀)
    (hbefore : (webhookSystem cfg email).Run (fun _ _ => True) ⟨w₀, []⟩ P₁)
    (hnow : IsNow sid s P₁.state)
    (hafter : (webhookSystem cfg email).Run (AfterLastChange cfg sid s P₁) P₁ Q)
    (hnotified : P₁.calls.length < Q.calls.length) (hquiet : Q.Quiescent) :
    ∃ t, Q.state.paddle.get sid = some t ∧ ShowsSub cfg.env t (accountOf Q.state.db email) := by
  have hstart : Settling cfg sid cust customers s P₁ P₁ := by
    have hsound : Sound cfg sid cust customers (⟨w₀, []⟩ : WebhookPool email) :=
      ⟨hsingle, by simp⟩
    refine ⟨hsound.of_run hne hconf hbefore, hnow, Nat.le_refl _, fun i c hi hc => .inl ?_,
      fun hlt => absurd hlt (Nat.lt_irrefl _)⟩
    by_contra hbegun
    exact hi ⟨c, hc, hbegun⟩
  have hend : Settling cfg sid cust customers s P₁ Q := by
    clear hnotified hquiet
    induction hafter with
    | refl => exact hstart
    | tail _ hstep ih =>
      obtain ⟨⟨m, hm⟩, hok⟩ := hstep
      exact ih.move hne hconf hok hm
  obtain ⟨t, ht, hsame⟩ := hend.settled
  rcases hend.shows hnotified with ⟨i, c, -, hc, hflight⟩ | hshows
  · have hended := hquiet c (List.mem_of_getElem? hc)
    rw [hflight] at hended
    cases hended
  · exact ⟨t, ht, hsame.showsSub hshows⟩

/-! ### A plan change while a run is under way -/

theorem single_adaSubscribed :
    Single "ada@example.com" "sub_1" "ctm_ada" [adaCustomer] adaSubscribed := by
  refine ⟨fun _ => rfl, rfl, ⟨firstSub, rfl, rfl⟩, by decide, ⟨by decide, rfl, ?_, .inl rfl⟩⟩
  intro id hid
  exact (Option.some.inj hid).symm

/-- The webhook of Ada's subscription. -/
def adaEvent : SubEvent "ada@example.com" :=
  ⟨{ isSubscription := true
     accountEmail := some "ada@example.com"
     subscriptionId := some "sub_1"
     customerId := some "ctm_ada" }, rfl, rfl⟩

abbrev WebhookMove := Move (SubEvent "ada@example.com") (WebhookEnv "ada@example.com")

/-- The first run has read Pro when Ada moves to Business. -/
def upToChange : List WebhookMove :=
  [.arrive adaEvent, .run 0, .run 0, .run 0,
    .env (.change "sub_1" { status := .active, priceId := some "pri_business" })]

/-- The second run reads and writes before the first one writes. -/
def staleLast : List WebhookMove :=
  [.arrive adaEvent] ++ List.replicate 6 (.run 1) ++ List.replicate 3 (.run 0)

/-- Both changes are followed by a webhook and both webhooks are handled, and the account
stays on Pro while the subscription is a Business one. -/
theorem stale_run_ends_last : ∃ Q : WebhookPool "ada@example.com",
    (webhookSystem .paddleDemo "ada@example.com").schedule ⟨adaSubscribed, []⟩
        (upToChange ++ staleLast) = some Q ∧
      Q.Quiescent ∧
      (Q.state.paddle.get "sub_1").map (normalizeSub Config.paddleDemo.env ·|>.planName) =
        some "business" ∧
      (accountOf Q.state.db "ada@example.com").planName = "pro" := by
  let run := (webhookSystem .paddleDemo "ada@example.com").schedule ⟨adaSubscribed, []⟩
    (upToChange ++ staleLast)
  have hended : run.map (fun Q => Q.calls.all (·.outcome.isSome)) = some true := by decide +kernel
  have hstate : run.map (fun Q =>
      ((Q.state.paddle.get "sub_1").map (normalizeSub Config.paddleDemo.env ·|>.planName),
        (accountOf Q.state.db "ada@example.com").planName)) = some (some "business", "pro") := by
    decide +kernel
  obtain ⟨Q, hrun, hQ⟩ := Option.map_eq_some_iff.mp hended
  rw [hrun, Option.map_some, Option.some.injEq] at hstate
  obtain ⟨hsub, hplan⟩ := Prod.mk.inj hstate
  exact ⟨Q, hrun, fun c hc => List.all_eq_true.mp hQ c hc, hsub, hplan⟩

/-- The first run ends while the second one is under way. -/
def staleInTime : List WebhookMove :=
  [.arrive adaEvent] ++ List.replicate 5 (.run 1) ++ List.replicate 3 (.run 0) ++ [.run 1]

/-- The subscription is a Business one, and the second call is in flight once it has
arrived, up to the end of all calls. -/
def inTime (P : WebhookPool "ada@example.com") : Bool :=
  (P.state.paddle.get "sub_1").any (fun t => t.status == .active && t.priceId == some "pri_business") &&
    (decide (P.calls.length ≤ 1) || P.calls[1]?.any (·.outcome.isNone) ||
      P.calls.all (·.outcome.isSome))

theorem isNow_of_inTime {P : WebhookPool "ada@example.com"} (h : inTime P = true) :
    IsNow "sub_1" secondSub P.state := by
  simp only [inTime, Bool.and_eq_true, Option.any_eq_true, beq_iff_eq] at h
  obtain ⟨⟨t, ht, hstatus, hprice⟩, -⟩ := h
  exact ⟨t, ht, hstatus, hprice⟩

theorem afterLastChange_of_inTime {P₁ P Q : WebhookPool "ada@example.com"}
    (hlength : P₁.calls.length = 1) (hP : inTime P = true) (hQ : inTime Q = true) :
    AfterLastChange .paddleDemo "sub_1" secondSub P₁ P Q := by
  refine ⟨isNow_of_inTime hQ, fun i hm _ hlt => ?_, fun i c _ _ _ => .inl (by decide)⟩
  simp only [inTime, Bool.and_eq_true, Bool.or_eq_true, decide_eq_true_eq] at hP
  obtain ⟨-, (hle | hflight) | hended⟩ := hP
  · omega
  · obtain ⟨c, hc, hnone⟩ := (Option.any_eq_true _ _).mp hflight
    refine ⟨1, c, ?_, hc, Option.isNone_iff_eq_none.mp hnone⟩
    rintro ⟨d, hd, -⟩
    have hone := (List.getElem?_eq_some_iff.mp hd).1
    omega
  · obtain ⟨c, hc, hnone⟩ := System.outcome_of_move_run hm
    have hout := List.all_eq_true.mp hended c (List.mem_of_getElem? hc)
    rw [hnone] at hout
    cases hout

/-- Both webhooks are handled, the stale run first, and the account shows Business. -/
theorem converges_of_run_staleInTime : ∃ Q : WebhookPool "ada@example.com",
    Q.Quiescent ∧ ∃ t, Q.state.paddle.get "sub_1" = some t ∧
      ShowsSub Config.paddleDemo.env t (accountOf Q.state.db "ada@example.com") := by
  let S := webhookSystem .paddleDemo "ada@example.com"
  let changed := S.schedule ⟨adaSubscribed, []⟩ upToChange
  let settled := changed.bind fun P => S.scheduleWhile inTime P staleInTime
  have hchanged : changed.map (fun P => (P.calls.length, inTime P)) = some (1, true) := by
    decide +kernel
  have hsettled : settled.map (fun Q => (Q.calls.length, inTime Q)) = some (2, true) := by
    decide +kernel
  have hended : settled.map (fun Q => Q.calls.all (·.outcome.isSome)) = some true := by
    decide +kernel
  obtain ⟨P, hP, hstart⟩ := Option.map_eq_some_iff.mp hchanged
  obtain ⟨Q, hQ, hend⟩ := Option.map_eq_some_iff.mp hsettled
  obtain ⟨hlength, hinTime⟩ := Prod.mk.inj hstart
  obtain ⟨hlength', hinTime'⟩ := Prod.mk.inj hend
  have hrun : S.scheduleWhile inTime P staleInTime = some Q := by
    have hbind : changed.bind (fun P => S.scheduleWhile inTime P staleInTime) = some Q := hQ
    rw [hP, Option.bind_some] at hbind
    exact hbind
  have hquiet : Q.Quiescent := by
    rw [hQ, Option.map_some, Option.some.injEq] at hended
    exact fun c hc => List.all_eq_true.mp hended c hc
  have hafter := System.run_of_scheduleWhile_end
    (fun P' Q' => afterLastChange_of_inTime hlength) hrun hinTime'
  refine ⟨Q, hquiet, converges_of_run (by decide) (by decide) single_adaSubscribed
    (System.run_of_schedule hP) (isNow_of_inTime hinTime) hafter ?_ hquiet⟩
  omega

end Feedbase
