import Feedbase.Billing.RedeemPromo

/-!
# What a billing handler may do, one step at a time

Whatever else runs in between, an action of a billing handler reads, changes something at
a provider, or is one `setAccountPlan` transaction. `BillingStep A P` allows the writes
`A` to accounts and the changes `P` at Paddle; a lemma for each handler lists the writes
and changes it makes, and later results choose `A` and `P`.

## Main definitions

* `BillingStep`
* `ReconcileWrites` — the five kinds of fields `reconcile` writes

## Main results

* `steps_reconcile`, `steps_handleWebhook`, `steps_checkoutDiscount`,
  `steps_cancelActiveSubscription`
-/

namespace Feedbase

/-- One step: nothing, a write to an account, or a change at a provider. -/
inductive BillingStep (A : String → AccountFields → Prop) (P : Paddle → Paddle → Prop)
    (w w' : World) : Prop where
  | quiet (h : w' = w)
  | account (email : String) (fields : AccountFields) (db : Db) (hA : A email fields)
      (htx : setAccountPlanTx email fields w.db = some db) (h : w' = { w with db := db })
  | paddle (p : Paddle) (hP : P w.paddle p) (h : w' = { w with paddle := p })
  | stripe (s : Stripe) (h : w' = { w with stripe := s })

/-- The fields `reconcile` writes to the account it is run for. -/
inductive ReconcileWrites : AccountFields → Prop where
  | customer (id : String) : ReconcileWrites { paddleCustomerId := some (some id) }
  | subscription (id : String) : ReconcileWrites { paddleSubscriptionId := some (some id) }
  | reset (status : Option PaddleStatus) : ReconcileWrites (resetFields (status.map (·.text)))
  | held (acct : BillingAccount) (sub : NormalizedSub) : ReconcileWrites (heldFields acct sub)
  | live (sub : NormalizedSub) : ReconcileWrites (liveFields sub)

variable {cfg : Config} {email : String} {A : String → AccountFields → Prop}
  {P : Paddle → Paddle → Prop}

theorem BillingStep.refl (w : World) : BillingStep A P w w := .quiet rfl

theorem BillingStep.now_eq {w w' : World} (h : BillingStep A P w w') : w'.now = w.now := by
  cases h with
  | quiet h => exact (congrArg World.now h : _)
  | account e f db hA htx h => exact (congrArg World.now h : _)
  | paddle p hP h => exact (congrArg World.now h : _)
  | stripe s h => exact (congrArg World.now h : _)

theorem steps_read {α : Type} (f : World → α) :
    Prog.Within (BillingStep A P) (Prog.read f : Handler α) := .read BillingStep.refl f

theorem steps_query {α : Type} (f : Db → α) :
    Prog.Within (BillingStep A P) (query f : Handler α) := .read BillingStep.refl _

theorem steps_reject {α : Type} (code : Nat) (key : String) :
    Prog.Within (BillingStep A P) (reject code key : Handler α) := .throw _

theorem steps_setAccountPlan {fields : AccountFields} (hA : A email fields) :
    Prog.Within (BillingStep A P) (setAccountPlan email fields) := by
  refine .ite (.throw _) (within_call BillingStep.refl fun w a w' h => ?_)
  obtain ⟨db, htx, heq⟩ := Option.map_eq_some_iff.mp h
  cases heq
  exact .account email fields db hA htx rfl

/-! ### Calls of the Paddle SDK -/

theorem steps_paddleSubscriptionsGet (id : String) :
    Prog.Within (BillingStep A P) (paddleSubscriptionsGet id) := by
  refine within_call BillingStep.refl fun w a w' h => ?_
  obtain ⟨sub, -, heq⟩ := Option.map_eq_some_iff.mp h
  cases heq
  exact .refl w

theorem steps_paddleSubscriptionsList (customerId : String) :
    Prog.Within (BillingStep A P) (paddleSubscriptionsList customerId) := by
  refine within_call BillingStep.refl fun w a w' h => ?_
  cases h
  exact .refl w

theorem steps_paddleCustomersList (email : String) :
    Prog.Within (BillingStep A P) (paddleCustomersList email) := by
  refine within_call BillingStep.refl fun w a w' h => ?_
  cases h
  exact .refl w

theorem steps_paddleDiscountsGet (id : String) :
    Prog.Within (BillingStep A P) (paddleDiscountsGet id) := by
  refine within_call BillingStep.refl fun w a w' h => ?_
  obtain ⟨d, -, heq⟩ := Option.map_eq_some_iff.mp h
  cases heq
  exact .refl w

theorem steps_paddleSubscriptionsUpdate {id : String} {patch : SubPatch}
    (hP : ∀ p, P p (p.updateSub cfg id patch)) :
    Prog.Within (BillingStep A P) (paddleSubscriptionsUpdate cfg id patch) := by
  refine within_call BillingStep.refl fun w a w' h => ?_
  split at h
  · cases h
    exact .paddle _ (hP _) rfl
  · cases h

theorem steps_paddleSubscriptionsCancel {id : String} (hP : ∀ p, P p (p.cancelSub id)) :
    Prog.Within (BillingStep A P) (paddleSubscriptionsCancel id) := by
  refine within_call BillingStep.refl fun w a w' h => ?_
  split at h
  · cases h
    exact .paddle _ (hP _) rfl
  · cases h

/-! ### Reconciliation -/

theorem steps_discountBlocks (sub : NormalizedSub) :
    Prog.Within (BillingStep A P) (discountBlocks cfg sub) := by
  unfold discountBlocks
  split
  · exact .pure _
  · exact .tryCatch (.bind (steps_paddleDiscountsGet _) fun _ => .pure _) fun _ => .pure _

theorem steps_ensureOfferDiscount {sub : NormalizedSub}
    (hP : ∀ p id d, P p (p.updateSub cfg id { discountId := some d })) :
    Prog.Within (BillingStep A P) (ensureOfferDiscount cfg sub) := by
  refine .tryCatch (.ite (.pure _) (.bind (steps_discountBlocks sub) fun blocked =>
    .ite (.pure _) (.bind (steps_read _) fun offer => ?_))) fun _ => .pure _
  split
  · exact .pure _
  · exact steps_paddleSubscriptionsUpdate fun p => hP p _ _

theorem steps_resolveCustomer {acct : BillingAccount}
    (hA : ∀ f, ReconcileWrites f → A email f) :
    Prog.Within (BillingStep A P) (resolveCustomer email acct) := by
  unfold resolveCustomer
  split
  · exact .pure _
  · refine .bind (steps_paddleCustomersList email) fun found => ?_
    split
    · exact .bind (steps_setAccountPlan (hA _ (.customer _))) fun _ => .pure _
    · exact .pure _

theorem steps_fetchSubscription (hA : ∀ f, ReconcileWrites f → A email f) :
    Prog.Within (BillingStep A P) (fetchSubscription cfg email) := by
  refine .bind (steps_query _) fun acct => ?_
  split
  · exact .bind (steps_paddleSubscriptionsGet _) fun _ => .pure _
  · refine .bind (steps_resolveCustomer hA) fun customer => ?_
    split
    · exact .pure _
    · refine .bind (steps_paddleSubscriptionsList _) fun subs => ?_
      split
      · exact .pure _
      · exact .bind (steps_setAccountPlan (hA _ (.subscription _))) fun _ => .pure _

theorem steps_reconcileComped {acct : BillingAccount}
    (hA : ∀ f, ReconcileWrites f → A email f) :
    Prog.Within (BillingStep A P) (reconcileComped email acct) :=
  .bind (steps_read _) fun _ => .ite (steps_setAccountPlan (hA _ (.reset none))) (.pure _)

theorem steps_reconcileLive {acct : BillingAccount} {sub : NormalizedSub}
    (hA : ∀ f, ReconcileWrites f → A email f)
    (hP : ∀ p id d, P p (p.updateSub cfg id { discountId := some d })) :
    Prog.Within (BillingStep A P) (reconcileLive cfg email acct sub) :=
  .bind (steps_read _) fun _ => .ite (steps_setAccountPlan (hA _ (.held _ _)))
    (.bind (steps_ensureOfferDiscount hP) fun _ => steps_setAccountPlan (hA _ (.live _)))

theorem steps_reconcile (hA : ∀ f, ReconcileWrites f → A email f)
    (hP : ∀ p id d, P p (p.updateSub cfg id { discountId := some d })) :
    Prog.Within (BillingStep A P) (reconcile cfg email) := by
  refine .ite (.pure _) (.bind (steps_query _) fun acct => .ite (steps_reconcileComped hA) ?_)
  refine .bind (steps_fetchSubscription hA) fun found => ?_
  split
  · exact steps_reconcileLive hA hP
  · refine .ite ?_ (.pure _)
    have hreset := steps_setAccountPlan (P := P) (hA _ (.reset (found.map (·.status))))
    rwa [Option.map_map] at hreset

/-- The rest of `handleWebhook`, with the account that the event is about. -/
def reconcileFound (cfg : Config) : Option String → Handler Unit
  | some email => reconcile cfg email
  | none => pure ()

/-- A webhook reconciles the account it is attributed to. -/
theorem steps_handleWebhook {event : PaddleEvent}
    (hA : ∀ e f, ReconcileWrites f → A e f)
    (hP : ∀ p id d, P p (p.updateSub cfg id { discountId := some d })) :
    Prog.Within (BillingStep A P) (handleWebhook cfg event) := by
  refine .tryCatch (.ite (.pure _) ?_) fun _ => .pure _
  have hrest : ∀ found, Prog.Within (BillingStep A P) (reconcileFound cfg found) := by
    intro found
    cases found with
    | none => exact .pure _
    | some e => exact steps_reconcile (hA e) hP
  dsimp only
  split
  · exact .bind (.pure _) hrest
  · split
    · exact .bind (.pure _) hrest
    · exact .bind (steps_query _) hrest

/-! ### Checkout -/

theorem steps_ensurePaddleCustomer (hA : ∀ id, A email { paddleCustomerId := some (some id) })
    (hP : ∀ (p : Paddle) c n, P p { p with customers := c, created := n }) :
    Prog.Within (BillingStep A P) (ensurePaddleCustomer email) := by
  refine .bind (steps_query _) fun acct => ?_
  split
  · exact .pure _
  refine .bind (steps_paddleCustomersList email) fun found => ?_
  have hrest : ∀ id, Prog.Within (BillingStep A P) (do
      setAccountPlan email { paddleCustomerId := some (some id) }
      return id : Handler String) := fun id => .bind (steps_setAccountPlan (hA id)) fun _ => .pure _
  dsimp only
  split
  · exact .bind (.pure _) hrest
  · refine .bind (within_call BillingStep.refl fun w a w' h => ?_) hrest
    cases h
    exact .paddle _ (hP _ _ _) rfl

theorem steps_checkoutDiscount {plan : String} {interval : Interval}
    {promotionCode : Option String} :
    Prog.Within (BillingStep A P) (checkoutDiscount cfg plan interval promotionCode) := by
  unfold checkoutDiscount
  split
  · exact .bind (steps_query _) fun promo => .ite (steps_reject _ _) (.pure _)
  · exact .bind (steps_read _) fun offer => .pure _

/-! ### Comps -/

theorem steps_cancelLiveSubscription (hP : ∀ p id, P p (p.cancelSub id)) :
    Prog.Within (BillingStep A P) (cancelLiveSubscription cfg email) := by
  refine .bind (steps_query _) fun acct => ?_
  split
  · exact .pure _
  · exact .ite (.pure _) (.tryCatch (steps_paddleSubscriptionsCancel fun p => hP p _)
      fun _ => .pure _)

theorem steps_cancelActiveSubscription (hP : ∀ p id, P p (p.cancelSub id)) :
    Prog.Within (BillingStep A P) (cancelActiveSubscription cfg email) := by
  refine .ite (steps_cancelLiveSubscription hP) (.bind (steps_query _) fun acct => ?_)
  split
  · exact .pure _
  · refine .ite (.pure _)
      (.tryCatch (within_call BillingStep.refl fun w a w' h => ?_) fun _ => .pure _)
    split at h
    · cases h
      exact .stripe _ rfl
    · cases h

end Feedbase
