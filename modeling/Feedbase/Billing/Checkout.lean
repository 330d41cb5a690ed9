import Feedbase.Billing.Steps

/-!
# Checkout

What a checkout that resolves has done: it created one transaction, for the account, and
attached the discount of the active offer unless a promo code came with the request.

## Main results

* `createCheckout_attaches` — the transaction of a checkout without a promo code
-/

namespace Feedbase

variable {cfg : Config} {w w' : World} {email : String}

/-- No transaction was created. -/
def SameTransactions (w w' : World) : Prop := w'.paddle.transactions = w.paddle.transactions

theorem SameTransactions.refl (w : World) : SameTransactions w w := rfl

theorem SameTransactions.trans {w'' : World} (h : SameTransactions w w')
    (h' : SameTransactions w' w'') : SameTransactions w w'' := Eq.trans h' h

theorem SameTransactions.of_step {w w' : World}
    (h : BillingStep (fun _ _ => True) (fun p p' => p'.transactions = p.transactions) w w') :
    SameTransactions w w' := by
  cases h with
  | quiet h => rw [h]; rfl
  | account email fields db hA htx h => rw [h]; rfl
  | paddle p hP h => rw [h]; exact hP
  | stripe s h => rw [h]; rfl

theorem transactions_ensurePaddleCustomer {id : String}
    (h : (ensurePaddleCustomer email).exec w = (.ok id, w')) : SameTransactions w w' := by
  have hwithin : Prog.Within SameTransactions (ensurePaddleCustomer email) :=
    (steps_ensurePaddleCustomer (fun _ => trivial) fun _ _ _ => rfl).mono
      fun _ _ => SameTransactions.of_step
  have hexec := hwithin.exec SameTransactions.refl (fun _ _ _ => SameTransactions.trans) w
  rw [h] at hexec
  exact hexec

theorem reads_checkoutDiscount (cfg : Config) (plan : String) (interval : Interval)
    (promotionCode : Option String) :
    Prog.Reads (checkoutDiscount cfg plan interval promotionCode) := by
  unfold checkoutDiscount
  split
  · exact .bind (reads_query _) fun promo => .ite (reads_reject _ _) (.pure _)
  · exact .bind (Prog.reads_read _) fun offer => .pure _

/-- A checkout that resolves has passed the checks, chosen a discount, found the account's
customer, and created one transaction. -/
theorem createCheckout_ok {plan : String} {auth : AuthData} {promotionCode interval : Option String}
    {reply : Reply Nat}
    (h : (createCheckout cfg plan auth promotionCode interval).exec w = (.ok reply, w')) :
    auth.role = .owner ∧ isPaddleConfigured cfg.env = true ∧
      (accountOf w.db auth.email).hasLiveSubscription = false ∧
      ∃ priceId discountId customerId w₁,
        paddlePriceIdFor cfg.env plan (billingIntervalOf interval) = some priceId ∧
        (checkoutDiscount cfg plan (billingIntervalOf interval) promotionCode).exec w =
          (.ok discountId, w) ∧
        (ensurePaddleCustomer auth.email).exec w = (.ok customerId, w₁) ∧
        w'.paddle.transactions = w.paddle.transactions ++
          [{ priceId := priceId, customerId := customerId, accountEmail := auth.email
             discountId := discountId }] := by
  unfold createCheckout at h
  dsimp only at h
  split at h
  · cases h
  rename_i howner
  split at h
  · cases h
  rename_i hconfigured
  split at h
  · cases h
  rename_i priceId hprice
  rw [getAccount, exec_query_bind, Prog.exec_ite] at h
  split at h
  · cases h
  rename_i hlive
  obtain ⟨discountId, w₀, hdiscount, hrest⟩ := Prog.exec_bind_ok_iff.mp h
  -- looking up the discount changes nothing
  have hsame : w₀ = w := by
    have hreads :=
      (reads_checkoutDiscount cfg plan (billingIntervalOf interval) promotionCode).exec_snd w
    rw [hdiscount] at hreads
    exact hreads
  subst hsame
  -- the catch only refuses
  have hbody := Prog.exec_tryCatch_ok (fun e _ => by cases e <;> exact ⟨_, rfl⟩) hrest
  obtain ⟨customerId, w₁, hcustomer, hbody⟩ := Prog.exec_bind_ok_iff.mp hbody
  obtain ⟨txn, w₂, hcreate, hret⟩ := Prog.exec_bind_ok_iff.mp hbody
  obtain rfl := exec_paddleTransactionsCreate_ok hcreate
  cases hret
  have hkept : w₁.paddle.transactions = w₀.paddle.transactions :=
    transactions_ensurePaddleCustomer hcustomer
  refine ⟨not_not.mp howner, by simpa using hconfigured, by simpa using hlive, priceId, discountId,
    customerId, w₁, hprice, hdiscount, hcustomer, ?_⟩
  rw [← hkept]

/-- A checkout without a promo code attaches the discount of the offer that
`getActiveOfferForPlanInterval` returns. -/
theorem createCheckout_attaches {plan : String} {auth : AuthData} {interval : Option String}
    {reply : Reply Nat}
    (h : (createCheckout cfg plan auth none interval).exec w = (.ok reply, w')) :
    ∃ txn, w'.paddle.transactions = w.paddle.transactions ++ [txn] ∧
      txn.accountEmail = auth.email ∧
      txn.discountId = (activeOfferFor cfg w.recentFirst w.db.offers.rows w.now plan
        (billingIntervalOf interval)).bind (·.paddleDiscountId) := by
  obtain ⟨-, -, -, priceId, discountId, customerId, w₁, -, hdiscount, -, htxn⟩ := createCheckout_ok h
  simp only [checkoutDiscount, orNull_none, getActiveOfferForPlanInterval,
    Prog.exec_read_bind] at hdiscount
  cases hdiscount
  exact ⟨_, htxn, rfl, rfl⟩

end Feedbase
