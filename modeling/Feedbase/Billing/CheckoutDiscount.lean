import Feedbase.Billing.Checkout

/-!
# Who may use a discount at checkout

The client sends the provider's id of the discount it wants. The checkout looks the id up
among the active promo codes and checks the plan of a row it finds; an id without such a
row passes, and nothing asks whether the account has redeemed the code.

## Main definitions

* `Authorised` — the account has redeemed an active code for the plan, with this discount
* `Admits` — the checks `createCheckout` makes

## Main results

* `createCheckout_authorised_iff` — the discount of every checkout is authorised exactly
  when those checks imply it
* `unredeemed_discount_attached` — a code the account never redeemed
-/

namespace Feedbase

variable {cfg : Config} {db : Db} {w w' : World} {auth : AuthData} {email plan discountId : String}
  {interval : Option String}

/-- An active `percent_off` code with this discount, for the plan, redeemed by the account. -/
def Authorised (db : Db) (email plan discountId : String) : Prop :=
  ∃ p ∈ db.promoCodes, (p.isActive = true ∧ p.type = .percentOff ∧
    p.paddleDiscountId = some discountId ∧
      (p.appliesToPlan = some "any" ∨ p.appliesToPlan = some plan)) ∧
    ∃ r ∈ db.promoRedemptions, r.promoCodeId = p.id ∧ r.accountEmail = some email

instance : Decidable (Authorised db email plan discountId) :=
  inferInstanceAs (Decidable (∃ p ∈ db.promoCodes, _ ∧ ∃ r ∈ db.promoRedemptions, _))

/-- The first active code with the discount is restricted to another plan. -/
def planMismatch (db : Db) (plan discountId : String) : Bool :=
  (orNull ((db.promoCodes.rows.find? fun p =>
    p.paddleDiscountId == some discountId && p.isActive).bind (·.appliesToPlan))).any fun r =>
      r ≠ "any" ∧ r ≠ plan

/-- What `createCheckout` checks of a request that names a discount. -/
structure Admits (cfg : Config) (db : Db) (auth : AuthData) (plan discountId : String)
    (interval : Option String) : Prop where
  owner : auth.role = .owner
  configured : isPaddleConfigured cfg.env = true
  priced : ∃ priceId, paddlePriceIdFor cfg.env plan (billingIntervalOf interval) = some priceId
  notLive : (accountOf db auth.email).hasLiveSubscription = false
  address : auth.email ≠ ""
  named : discountId ≠ ""
  matched : planMismatch db plan discountId = false

/-- The id of the client is taken as it comes unless it belongs to another plan's code. -/
theorem exec_checkoutDiscount (hnamed : discountId ≠ "") (billingInterval : Interval) (w : World) :
    (checkoutDiscount cfg plan billingInterval (some discountId)).exec w =
      if planMismatch w.db plan discountId then (.error (.rejected 400 "promo_plan_mismatch"), w)
      else (.ok (some discountId), w) := by
  have hsome : orNull (some discountId) = some discountId := orNull_eq_some_iff.mpr ⟨rfl, hnamed⟩
  unfold checkoutDiscount
  rw [hsome]
  dsimp only
  rw [exec_query_bind, Prog.exec_ite]
  rfl

/-- A checkout without a discount named never attaches an empty one. -/
theorem activeOfferFor_paddleDiscountId_ne (order : RecentFirst) (rows : List Offer) (now : Time)
    (plan : String) (billingInterval : Interval) :
    (activeOfferFor cfg order rows now plan billingInterval).bind (·.paddleDiscountId) ≠
      some "" := by
  unfold activeOfferFor
  cases (order.sort _).head? with
  | none => simp
  | some row =>
    intro h
    exact (orNull_eq_some_iff.mp h).2 rfl

/-- An account without an address has no customer. -/
theorem ensurePaddleCustomer_address {id : String}
    (h : (ensurePaddleCustomer email).exec w = (.ok id, w')) : email ≠ "" := by
  rintro rfl
  unfold ensurePaddleCustomer getAccount at h
  rw [exec_query_bind, accountOf_empty] at h
  change Prog.exec (paddleCustomersList "" >>= _) w = _ at h
  obtain ⟨existing, w₁, -, hrest⟩ := Prog.exec_bind_ok_iff.mp h
  have hset {customerId : String} {w₂ : World} (h : Prog.exec (do
      setAccountPlan "" { paddleCustomerId := some (some customerId) }
      pure customerId) w₂ = (.ok id, w')) : False := by
    obtain ⟨⟨⟩, w₃, hset, -⟩ := Prog.exec_bind_ok_iff.mp h
    exact (exec_setAccountPlan_ok_iff.mp hset).1 rfl
  cases hhead : existing.head? with
  | some customer =>
    simp only [hhead, pure_bind] at hrest
    exact hset hrest
  | none =>
    simp only [hhead] at hrest
    obtain ⟨customerId, w₂, -, hrest⟩ := Prog.exec_bind_ok_iff.mp hrest
    exact hset hrest

/-- The customer's id is stored, unless something fails. -/
theorem exec_storeCustomer (hfails : w.fails = fun _ => false) (haddress : email ≠ "")
    (id : String) : ∃ w₁, w₁.fails = w.fails ∧ Prog.exec (do
      setAccountPlan email { paddleCustomerId := some (some id) }
      pure id) w = (.ok id, w₁) := by
  rcases exec_setAccountPlan_cases (f := { paddleCustomerId := some (some id) }) w haddress
    (by simp) with ⟨hfail, -⟩ | ⟨-, db', -, hexec⟩
  · rw [hfails] at hfail
    cases hfail
  · refine ⟨{ w with db := db' }, rfl, ?_⟩
    rw [Prog.exec_bind, hexec]
    rfl

/-- Nothing stands in the way of finding or creating the customer. -/
theorem exec_ensurePaddleCustomer (hfails : w.fails = fun _ => false) (haddress : email ≠ "") :
    ∃ id w₁, w₁.fails = w.fails ∧ (ensurePaddleCustomer email).exec w = (.ok id, w₁) := by
  unfold ensurePaddleCustomer getAccount
  rw [exec_query_bind]
  cases orNull (accountOf w.db email).paddleCustomerId with
  | some id => exact ⟨id, w, rfl, rfl⟩
  | none =>
    have hlist : (paddleCustomersList email).exec w = (.ok (w.paddle.customersOf email), w) :=
      exec_call_ok_iff.mpr ⟨by rw [hfails], rfl⟩
    dsimp only
    rw [Prog.exec_bind, hlist]
    dsimp only
    cases (w.paddle.customersOf email).head? with
    | some customer =>
      obtain ⟨w₁, hw₁, hexec⟩ := exec_storeCustomer hfails haddress customer.id
      exact ⟨customer.id, w₁, hw₁, hexec⟩
    | none =>
      obtain ⟨id, w₁, hw₁, hcreate⟩ : ∃ id w₁, w₁.fails = w.fails ∧
          (paddleCustomersCreate email).exec w = (.ok id, w₁) :=
        ⟨_, _, rfl, exec_call_ok_iff.mpr ⟨by rw [hfails], rfl⟩⟩
      obtain ⟨w₂, hw₂, hexec⟩ := exec_storeCustomer (hw₁.trans hfails) haddress id
      refine ⟨id, w₂, hw₂.trans hw₁, ?_⟩
      dsimp only
      rw [Prog.exec_bind, hcreate]
      exact hexec

/-- A request that names a discount and is not refused by the checks gets it. -/
theorem createCheckout_of_admits (h : Admits cfg db auth plan discountId interval) :
    ∃ w w' reply txn, w.db = db ∧
      (createCheckout cfg plan auth (some discountId) interval).exec w = (.ok reply, w') ∧
        w'.paddle.transactions = w.paddle.transactions ++ [txn] ∧
          txn.discountId = some discountId := by
  let w : World := { db := db }
  obtain ⟨priceId, hprice⟩ := h.priced
  obtain ⟨customerId, w₁, hfails, hcustomer⟩ := exec_ensurePaddleCustomer (w := w) rfl h.address
  obtain ⟨w', reply, hexec⟩ : ∃ w' reply,
      (createCheckout cfg plan auth (some discountId) interval).exec w = (.ok reply, w') := by
    unfold createCheckout getAccount
    rw [if_neg (not_not.mpr h.owner), if_neg (by simp [h.configured]), hprice]
    dsimp only
    rw [exec_query_bind, if_neg (by simpa using h.notLive), Prog.exec_bind,
      exec_checkoutDiscount h.named, h.matched, if_neg Bool.false_ne_true]
    dsimp only
    rw [Prog.exec_tryCatch, Prog.exec_bind, hcustomer]
    dsimp only
    rw [Prog.exec_bind, paddleTransactionsCreate, Prog.exec_atomic, hfails]
    exact ⟨_, _, rfl⟩
  obtain ⟨-, -, -, priceId', discount, customerId', w₁', -, hdiscount, -, htxn⟩ :=
    createCheckout_ok hexec
  rw [exec_checkoutDiscount h.named, h.matched] at hdiscount
  cases hdiscount
  exact ⟨w, w', reply, _, rfl, hexec, htxn, rfl⟩

/-- The discount a checkout attaches was named in a request that the checks admit. -/
theorem admits_of_createCheckout {reply : Reply Nat} {txn : PaddleTransaction}
    (h : (createCheckout cfg plan auth (some discountId) interval).exec w = (.ok reply, w'))
    (htxn : w'.paddle.transactions = w.paddle.transactions ++ [txn])
    (hdiscount : txn.discountId = some discountId) :
    Admits cfg w.db auth plan discountId interval := by
  obtain ⟨howner, hconfigured, hlive, priceId, discount, customerId, w₁, hprice, hchoice, hcustomer,
    hcreated⟩ := createCheckout_ok h
  obtain rfl : discount = some discountId := by
    rw [hcreated] at htxn
    rw [← hdiscount, ← List.singleton_injective (List.append_cancel_left htxn)]
  have hnamed : discountId ≠ "" := by
    rintro rfl
    unfold checkoutDiscount getActiveOfferForPlanInterval at hchoice
    rw [orNull_eq_none_iff.mpr (.inr rfl)] at hchoice
    dsimp only at hchoice
    rw [Prog.exec_read_bind] at hchoice
    exact activeOfferFor_paddleDiscountId_ne _ _ _ _ _ (Except.ok.inj (Prod.mk.inj hchoice).1)
  refine ⟨howner, hconfigured, ⟨priceId, hprice⟩, hlive, ensurePaddleCustomer_address hcustomer,
    hnamed, ?_⟩
  rw [exec_checkoutDiscount hnamed] at hchoice
  split at hchoice
  · cases hchoice
  · rename_i hmatched
    simpa using hmatched

/-- Every discount that checkouts attach in a state is authorised, if and only if the
checks of the checkout refuse it or it is. -/
theorem createCheckout_authorised_iff (cfg : Config) (db : Db) (auth : AuthData)
    (plan discountId : String) (interval : Option String) :
    (∀ w w' reply txn, w.db = db →
      (createCheckout cfg plan auth (some discountId) interval).exec w = (.ok reply, w') →
        w'.paddle.transactions = w.paddle.transactions ++ [txn] →
          txn.discountId = some discountId → Authorised db auth.email plan discountId) ↔
      (Admits cfg db auth plan discountId interval → Authorised db auth.email plan discountId) := by
  constructor
  · intro h hadmits
    obtain ⟨w, w', reply, txn, hdb, hexec, htxn, hdiscount⟩ := createCheckout_of_admits hadmits
    exact h w w' reply txn hdb hexec htxn hdiscount
  · rintro h w w' reply txn rfl hexec htxn hdiscount
    exact h (admits_of_createCheckout hexec htxn hdiscount)

/-- A code for any paid plan that nobody has redeemed. -/
def earlyBirdCode : PromoCode where
  id := 1
  code := "EARLYBIRD"
  type := .percentOff
  appliesToPlan := some "any"
  percentOff := some 90
  paddleDiscountId := some "dsc_early"
  maxRedemptions := some 1

/-- The discount exists at Paddle. -/
def earlyBirdDiscount : Paddle where
  discounts := [{ id := "dsc_early", amount := 90 }]

def adaBuyer : AuthData where
  id := 1
  tenantId := some 1
  role := .owner
  email := "ada@example.com"

/-- The code is there for the first customer who redeems it. -/
def earlyBirdDb : Db where
  promoCodes := (Sql.Table.empty.insert? fun id => { earlyBirdCode with id := id }).getD .empty

/-- The discount of a code the account never redeemed is attached. -/
theorem unredeemed_discount_attached : ∃ w w' reply txn, w.db = earlyBirdDb ∧
    w.paddle = earlyBirdDiscount ∧
      (createCheckout .paddleDemo "pro" adaBuyer (some "dsc_early") none).exec w =
        (.ok reply, w') ∧ w'.paddle.transactions = w.paddle.transactions ++ [txn] ∧
          txn.discountId = some "dsc_early" ∧
            ¬ Authorised w.db "ada@example.com" "pro" "dsc_early" :=
  ⟨{ db := earlyBirdDb, paddle := earlyBirdDiscount }, _, _, _, rfl, rfl, rfl, rfl, rfl, by decide⟩

end Feedbase
