import Feedbase.Billing.Checkout
import Feedbase.Billing.Convergence
import Feedbase.Lib.Pool

/-!
# Checkouts in several tabs

`createCheckout` refuses an account whose row says it has a live subscription. The row
learns of a subscription only when a webhook or a reconciliation has run, and a
transaction stays payable after it has been created. So a call that passes the guard
may add a second subscription, unless nothing of the account is being sold already.

## Main definitions

* `liveOf`, `openOf` — the account's live subscriptions and open transactions
* `CheckoutRequest`, `CheckoutEnv`, `checkoutSystem`
* `GuardsClear` — a call passes the guard only when nothing is being sold

## Main results

* `follows_createCheckout`
* `oneLive_of_run`
-/

namespace Feedbase

variable {cfg : Config} {email : String} {w w' : World}

/-! ### Sales -/

/-- How many live subscriptions the account has at Paddle. -/
def liveOf (p : Paddle) (email : String) : Nat :=
  p.subscriptions.countP fun s => s.accountEmail == some email && s.status.isActive

/-- How many transactions of the account can still be paid. -/
def openOf (p : Paddle) (email : String) : Nat :=
  p.transactions.countP fun t => t.accountEmail == email && t.subscriptionId.isNone

/-- The subscription a paid transaction makes. -/
def PaddleTransaction.subscription (t : PaddleTransaction) (id : String) : PaddleSub where
  id := id
  customerId := t.customerId
  status := .active
  priceId := some t.priceId
  discountId := t.discountId
  accountEmail := some t.accountEmail

/-- The customer pays a transaction that is still open; Paddle chooses the id. -/
def Paddle.complete (p : Paddle) (n : Nat) (id : String) : Paddle :=
  match p.transactions[n]? with
  | none => p
  | some t =>
    if h : t.subscriptionId = none ∧ id ≠ "" ∧ ∀ s ∈ p.subscriptions, s.id ≠ id then
      { p with
        subscriptions := p.subscriptions ++ [t.subscription id]
        transactions := p.transactions.set n { t with subscriptionId := some id }
        nodup := by
          rw [List.map_append, List.nodup_append]
          refine ⟨p.nodup, List.nodup_singleton _, fun a ha b hb => ?_⟩
          obtain ⟨s, hs, rfl⟩ := List.mem_map.mp ha
          obtain rfl : b = id := List.mem_singleton.mp hb
          exact h.2.2 s hs
        id_ne_empty := by
          intro s hs
          rcases List.mem_append.mp hs with hs | hs
          · exact p.id_ne_empty s hs
          · rw [List.mem_singleton.mp hs]
            exact h.2.1 }
    else p

/-- Paying a transaction turns an open one into a live subscription. -/
theorem sales_complete (p : Paddle) (n : Nat) (id email : String) :
    liveOf (p.complete n id) email + openOf (p.complete n id) email =
      liveOf p email + openOf p email := by
  unfold Paddle.complete
  split
  · rfl
  rename_i t ht
  split
  · rename_i h
    unfold liveOf openOf
    have hset := countP_set_add (b := { t with subscriptionId := some id })
      (p := fun t : PaddleTransaction => t.accountEmail == email && t.subscriptionId.isNone) ht
    dsimp only at hset ⊢
    rw [List.countP_append, List.countP_singleton]
    simp only [PaddleTransaction.subscription, PaddleStatus.isActive, Option.some_beq_some,
      Bool.and_true, h.1, Option.isNone_none, Option.isNone_some, Bool.and_false,
      Bool.false_eq_true, if_false] at hset ⊢
    omega
  · rfl

/-- Nothing more is sold to the account. -/
def NoSale (email : String) (w w' : World) : Prop :=
  liveOf w'.paddle email ≤ liveOf w.paddle email ∧ openOf w'.paddle email ≤ openOf w.paddle email

theorem NoSale.refl (w : World) : NoSale email w w := ⟨Nat.le_refl _, Nat.le_refl _⟩

/-- The subscriptions and transactions are as before. -/
def SameSales (p p' : Paddle) : Prop :=
  p'.subscriptions = p.subscriptions ∧ p'.transactions = p.transactions

theorem SameSales.noSale (h : SameSales w.paddle w'.paddle) : NoSale email w w' := by
  unfold NoSale liveOf openOf
  rw [h.1, h.2]
  exact ⟨Nat.le_refl _, Nat.le_refl _⟩

/-- Attaching a discount revives no subscription. -/
theorem live_updateSub_le (hrevive : ∀ s p, (cfg.patchSub s p).status.isActive = true →
    s.status.isActive = true) (howner : ∀ s p, (cfg.patchSub s p).accountEmail = s.accountEmail)
    (p : Paddle) (id : String) (patch : SubPatch) :
    liveOf (p.updateSub cfg id patch) email ≤ liveOf p email := by
  unfold liveOf Paddle.updateSub Paddle.setSub
  dsimp only
  rw [List.countP_map]
  refine List.countP_mono_left fun s _ hs => ?_
  simp only [Function.comp, Bool.and_eq_true] at hs ⊢
  split at hs
  · rw [howner] at hs
    exact ⟨hs.1, hrevive s patch hs.2⟩
  · exact hs

/-- The world with one more transaction. -/
def World.withTransaction (w : World) (txn : PaddleTransaction) : World :=
  { w with paddle := { w.paddle with transactions := w.paddle.transactions ++ [txn] } }

theorem liveOf_withTransaction (txn : PaddleTransaction) :
    liveOf (w.withTransaction txn).paddle email = liveOf w.paddle email := rfl

theorem openOf_withTransaction (txn : PaddleTransaction) :
    openOf (w.withTransaction txn).paddle email = openOf w.paddle email +
      if txn.accountEmail == email && txn.subscriptionId.isNone then 1 else 0 := by
  unfold openOf World.withTransaction
  rw [List.countP_append, List.countP_singleton]

/-! ### One checkout -/

/-- Where a `createCheckout` call of the account stands. -/
inductive CheckoutPhase where
  | start
  /-- it has passed the guard and has no transaction yet -/
  | guarded
  | over

/-- One action of a `createCheckout` call of the account `email`. -/
inductive CheckoutStep (email : String) : CheckoutPhase → World → CheckoutPhase → World → Prop where
  | refused {w : World} (h : (accountOf w.db email).hasLiveSubscription = true) :
    CheckoutStep email .start w .over w
  | passed {w : World} (h : (accountOf w.db email).hasLiveSubscription = false) :
    CheckoutStep email .start w .guarded w
  | work {w w' : World} (h : SameSales w.paddle w'.paddle) :
    CheckoutStep email .guarded w .guarded w'
  | create {w : World} {txn : PaddleTransaction} (haccount : txn.accountEmail = email)
    (hopen : txn.subscriptionId = none) :
    CheckoutStep email .guarded w .over (w.withTransaction txn)

/-- A program that makes the steps of a checkout, wherever it ends. -/
abbrev ChecksOut {α : Type} (email : String) (φ : CheckoutPhase) (p : Handler α) : Prop :=
  Follows (CheckoutStep email) (fun _ _ => True) φ p

theorem follows_work {α : Type} {p : Handler α}
    (h : Prog.Within (BillingStep (fun _ _ => True) SameSales) p) :
    Follows (CheckoutStep email) (fun φ _ => φ = .guarded) .guarded p := by
  refine .of_within h fun w w' hstep => .work ?_
  cases hstep with
  | quiet h => rw [h]; exact ⟨rfl, rfl⟩
  | account e f db hA htx h => rw [h]; exact ⟨rfl, rfl⟩
  | paddle p hP h => rw [h]; exact hP
  | stripe s h => rw [h]; exact ⟨rfl, rfl⟩

theorem checksOut_bind_work {α β : Type} {p : Handler α} {f : α → Handler β}
    (h : Prog.Within (BillingStep (fun _ _ => True) SameSales) p)
    (hf : ∀ a, ChecksOut email .guarded (f a)) : ChecksOut email .guarded (p >>= f) := by
  refine .bind (follows_work h) ?_ fun φ e _ => trivial
  rintro φ a rfl
  exact hf a

theorem checksOut_catching {α : Type} {φ : CheckoutPhase} {p : Handler α} {h : Failure → Handler α}
    (hp : ChecksOut email φ p) (hh : ∀ φ e, ChecksOut email φ (h e)) :
    ChecksOut email φ (tryCatch p h) := .catching hp (fun _ _ _ => trivial) fun φ e _ => hh φ e

theorem checksOut_create {txn : PaddleTransaction} (haccount : txn.accountEmail = email)
    (hopen : txn.subscriptionId = none) :
    ChecksOut email .guarded (paddleTransactionsCreate txn) := by
  refine .step fun w _ => ?_
  dsimp only
  split_ifs
  · exact ⟨.guarded, .work ⟨rfl, rfl⟩, trivial⟩
  · exact ⟨.guarded, .work ⟨rfl, rfl⟩, trivial⟩
  · exact ⟨.over, .create haccount hopen, trivial⟩

/-- A program that has no more actions may be in any phase. -/
theorem checksOut_resolve {δ : Type} {φ : CheckoutPhase} (code : Nat) (key : String) (result : δ) :
    ChecksOut email φ (resolve code key result) := trivial

theorem follows_createCheckout {plan : String} {auth : AuthData}
    {promotionCode interval : Option String} :
    ChecksOut auth.email .start (createCheckout cfg plan auth promotionCode interval) := by
  unfold createCheckout
  dsimp only
  split
  · exact trivial
  split
  · exact trivial
  split
  · exact trivial
  rename_i priceId hprice
  -- the guard: what the row says now decides whether the call goes on
  have hread : Follows (CheckoutStep auth.email)
      (fun φ r => ∀ acct, r = .ok acct →
        φ = if acct.hasLiveSubscription then .over else .guarded)
      .start (getAccount auth.email : Handler BillingAccount) := by
    refine .step fun w _ => ?_
    cases hlive : (accountOf w.db auth.email).hasLiveSubscription with
    | true => exact ⟨.over, .refused hlive, fun acct h => by cases h; rw [if_pos hlive]⟩
    | false => exact ⟨.guarded, .passed hlive, fun acct h => by cases h; rw [hlive]; rfl⟩
  refine .bind hread (fun φ existing hφ => ?_) fun φ e _ => trivial
  split
  · exact trivial
  rename_i hlive
  obtain rfl : φ = .guarded := by
    have h := hφ existing rfl
    rwa [if_neg hlive] at h
  -- everything up to the transaction is work that sells nothing
  refine checksOut_bind_work steps_checkoutDiscount fun discountId => ?_
  refine checksOut_catching ?_ fun φ e => by cases e <;> trivial
  refine checksOut_bind_work
    (steps_ensurePaddleCustomer (fun _ => trivial) fun _ _ _ => ⟨rfl, rfl⟩) fun customerId => ?_
  exact .bind (checksOut_create rfl rfl) (fun φ _ _ => checksOut_resolve _ _ _)
    fun _ _ _ => trivial

/-- A step of another account's checkout. -/
theorem CheckoutStep.noSale {e : String} {φ φ' : CheckoutPhase} (hne : e ≠ email)
    (h : CheckoutStep e φ w φ' w') : NoSale email w w' := by
  cases h with
  | refused => exact .refl _
  | passed => exact .refl _
  | work h => exact h.noSale
  | @create _ txn haccount hopen =>
    refine ⟨Nat.le_refl _, ?_⟩
    rw [openOf_withTransaction, haccount]
    simp [hne]

/-! ### Interleavings -/

/-- A checkout of some account, a webhook or a reconcile run. -/
inductive CheckoutRequest where
  | createCheckout (plan : String) (auth : AuthData) (promotionCode interval : Option String)
  | webhook (event : PaddleEvent)
  | reconcile (email : String)

/-- What happens between the actions of the calls: a customer pays a transaction; or time
passes, subscriptions end, the providers fail, and the database changes. -/
inductive CheckoutEnv where
  | complete (n : Nat) (id : String)
  | other (f : { f : World → World // ∀ w email, NoSale email w (f w) })

def CheckoutEnv.run : CheckoutEnv → World → World
  | .complete n id, w => { w with paddle := w.paddle.complete n id }
  | .other f, w => f.1 w

/-- A checkout returns its transaction. -/
def checkoutHandler (cfg : Config) : CheckoutRequest → Handler (Option Nat)
  | .createCheckout plan auth promotionCode interval => do
    let reply ← createCheckout cfg plan auth promotionCode interval
    return some reply.result
  | .webhook event => do
    handleWebhook cfg event
    return none
  | .reconcile email => do
    reconcile cfg email
    return none

def checkoutSystem (cfg : Config) :
    System World Failure (Option Nat) CheckoutRequest CheckoutEnv where
  handler := checkoutHandler cfg
  env := CheckoutEnv.run

abbrev CheckoutPool := Pool World Failure (Option Nat) CheckoutRequest

def CheckoutRequest.IsCheckout (email : String) : CheckoutRequest → Prop
  | .createCheckout _ auth _ _ => auth.email = email
  | _ => False

/-- The call is a checkout of the account that has taken its first step and not ended. -/
def UnderWay (cfg : Config) (email : String)
    (c : Call World Failure (Option Nat) CheckoutRequest) : Prop :=
  c.request.IsCheckout email ∧ c.outcome = none ∧ c.prog ≠ checkoutHandler cfg c.request

/-- When a checkout of the account passes the guard, no other one is under way, the
account has no open transaction, and no live subscription at Paddle. -/
def GuardsClear (cfg : Config) (email : String) (P Q : CheckoutPool) : Prop :=
  ∀ i c, (checkoutSystem cfg).move P (.run i) = some Q → P.calls[i]? = some c →
    c.request.IsCheckout email → c.prog = checkoutHandler cfg c.request →
    (accountOf P.state.db email).hasLiveSubscription = false →
    (∀ d ∈ P.calls, ¬ UnderWay cfg email d) ∧ openOf P.state.paddle email = 0 ∧
      liveOf P.state.paddle email = 0

/-- What a call that is no checkout of the account may do. -/
def SellsNothing (email : String) (r : CheckoutRequest) (p : Handler (Option Nat)) : Prop :=
  r.IsCheckout email ∨ Prog.Within (NoSale email) p ∨
    ∃ e φ, e ≠ email ∧ ChecksOut e φ p

section Run

variable (hrevive : ∀ s p, (cfg.patchSub s p).status.isActive = true → s.status.isActive = true)
  (howner : ∀ s p, (cfg.patchSub s p).accountEmail = s.accountEmail)

include hrevive howner

theorem noSale_of_step {A : String → AccountFields → Prop}
    (h : BillingStep A (fun p p' => ∃ id patch, p' = p.updateSub cfg id patch) w w') :
    NoSale email w w' := by
  cases h with
  | quiet h => rw [h]; exact .refl w
  | account e f db hA htx h => rw [h]; exact .refl w
  | paddle p hP h =>
    obtain ⟨id, patch, rfl⟩ := hP
    rw [h]
    exact ⟨live_updateSub_le hrevive howner _ _ _, Nat.le_refl _⟩
  | stripe s h => rw [h]; exact .refl w

theorem sellsNothing_handler (r : CheckoutRequest) :
    SellsNothing email r (checkoutHandler cfg r) := by
  have hpatch : ∀ (p : Paddle) (id d : String),
      ∃ id' patch, p.updateSub cfg id { discountId := some d } = p.updateSub cfg id' patch :=
    fun p id d => ⟨_, _, rfl⟩
  cases r with
  | createCheckout plan auth promotionCode interval =>
    by_cases hemail : auth.email = email
    · exact .inl hemail
    · refine .inr (.inr ⟨auth.email, .start, hemail, ?_⟩)
      exact .bind follows_createCheckout (fun _ _ _ => trivial) fun _ _ _ => trivial
  | webhook event =>
    have hsteps : Prog.Within (BillingStep (fun _ _ => True)
        (fun p p' => ∃ id patch, p' = p.updateSub cfg id patch)) (handleWebhook cfg event) :=
      steps_handleWebhook (fun _ _ _ => trivial) hpatch
    have hsale : Prog.Within (NoSale email) (handleWebhook cfg event) :=
      hsteps.mono fun w w' => noSale_of_step hrevive howner
    exact .inr (.inl (.bind hsale fun _ => .pure _))
  | reconcile e =>
    have hsteps : Prog.Within (BillingStep (fun _ _ => True)
        (fun p p' => ∃ id patch, p' = p.updateSub cfg id patch)) (reconcile cfg e) :=
      steps_reconcile (fun _ _ => trivial) hpatch
    have hsale : Prog.Within (NoSale email) (reconcile cfg e) :=
      hsteps.mono fun w w' => noSale_of_step hrevive howner
    exact .inr (.inl (.bind hsale fun _ => .pure _))

end Run

theorem checksOut_handler {r : CheckoutRequest} (h : r.IsCheckout email) :
    ChecksOut email .start (checkoutHandler cfg r) := by
  cases r with
  | createCheckout plan auth promotionCode interval =>
    have hemail : auth.email = email := h
    subst hemail
    exact .bind follows_createCheckout (fun _ _ _ => trivial) fun _ _ _ => trivial
  | webhook event => exact h.elim
  | reconcile e => exact h.elim

/-- The calls of the account's checkouts, apart from the one that is under way. -/
def Idle (cfg : Config) (email : String) (u : Option Nat) (P : CheckoutPool) : Prop :=
  ∀ i c, P.calls[i]? = some c → c.request.IsCheckout email → u ≠ some i →
    c.outcome.isSome ∨ c.prog = checkoutHandler cfg c.request ∨ ChecksOut email .over c.prog

/-- The checkout that is under way. -/
def Guarded (email : String) (u : Option Nat) (P : CheckoutPool) : Prop :=
  ∀ i, u = some i → ∃ c, P.calls[i]? = some c ∧ ChecksOut email .guarded c.prog

/-- At most one subscription is live, being paid for, or about to be offered. -/
def OneSale (cfg : Config) (email : String) (P : CheckoutPool) : Prop :=
  ∃ u : Option Nat, Idle cfg email u P ∧ Guarded email u P ∧
    liveOf P.state.paddle email + openOf P.state.paddle email + u.toList.length ≤ 1

theorem OneSale.arrive {P : CheckoutPool} (h : OneSale cfg email P) (r : CheckoutRequest) :
    OneSale cfg email
      { P with calls := P.calls ++ [⟨r, P.state, checkoutHandler cfg r⟩] } := by
  obtain ⟨u, hidle, hguarded, hone⟩ := h
  refine ⟨u, fun i c hc hcheckout hu => ?_, fun i hi => ?_, hone⟩
  · by_cases hold : i < P.calls.length
    · rw [List.getElem?_append_left hold] at hc
      exact hidle i c hc hcheckout hu
    · rw [List.getElem?_append_right (by omega)] at hc
      obtain rfl := List.mem_singleton.mp (List.mem_of_getElem? hc)
      exact .inr (.inl rfl)
  · obtain ⟨c, hc, hfollows⟩ := hguarded i hi
    have hlt : i < P.calls.length := (List.getElem?_eq_some_iff.mp hc).1
    exact ⟨c, by rw [List.getElem?_append_left hlt, hc], hfollows⟩

theorem guarded_none {P : CheckoutPool} : Guarded email none P := by
  intro i hi
  cases hi

/-- A step of a call that is not the one under way leaves that one alone. -/
theorem Guarded.set {P : CheckoutPool} {u : Option Nat} {i : Nat} (h : Guarded email u P)
    (hi : u ≠ some i) (w : World) (c : Call World Failure (Option Nat) CheckoutRequest) :
    Guarded email u ⟨w, P.calls.set i c⟩ := by
  intro j hj
  obtain ⟨d, hd, hfollows⟩ := h j hj
  have hij : i ≠ j := by
    rintro rfl
    exact hi hj
  exact ⟨d, by rw [List.getElem?_set_ne hij, hd], hfollows⟩

theorem Idle.set {P : CheckoutPool} {u v : Option Nat} {i : Nat} (h : Idle cfg email u P)
    (w : World) (c : Call World Failure (Option Nat) CheckoutRequest)
    (hv : ∀ j, j ≠ i → v ≠ some j → u ≠ some j)
    (hc : c.request.IsCheckout email → v ≠ some i →
      c.outcome.isSome ∨ c.prog = checkoutHandler cfg c.request ∨ ChecksOut email .over c.prog) :
    Idle cfg email v ⟨w, P.calls.set i c⟩ := by
  intro j d hd hcheckout hj
  rcases getElem?_set_cases hd with ⟨rfl, rfl⟩ | ⟨hne, hd⟩
  · exact hc hcheckout hj
  · exact h j d hd hcheckout (hv j hne hj)

/-- The call under way goes on, or creates its transaction. -/
theorem OneSale.runGuarded {P : CheckoutPool} {i : Nat} {p : Handler (Option Nat)}
    {c : Call World Failure (Option Nat) CheckoutRequest} {φ : CheckoutPhase}
    (hc : P.calls[i]? = some c) (hidle : Idle cfg email (some i) P)
    (hone : liveOf P.state.paddle email + openOf P.state.paddle email + 1 ≤ 1)
    (hstep : CheckoutStep email .guarded P.state φ w') (hp : ChecksOut email φ p) :
    OneSale cfg email ⟨w', P.calls.set i { c with prog := p }⟩ := by
  have hlt : i < P.calls.length := (List.getElem?_eq_some_iff.mp hc).1
  cases hstep with
  | work h =>
    obtain ⟨hlive, hopen⟩ : NoSale email _ _ := h.noSale
    refine ⟨some i, hidle.set _ _ (fun j hj _ => by simpa using Ne.symm hj)
      fun _ hne => absurd rfl hne, fun j hj => ?_, ?_⟩
    · obtain rfl : i = j := Option.some.inj hj
      exact ⟨_, List.getElem?_set_self hlt, hp⟩
    · simp only [Option.toList_some, List.length_singleton]
      omega
  | @create _ txn haccount hopen =>
    refine ⟨none, hidle.set _ _ (fun j hj _ => by simpa using Ne.symm hj)
      fun _ _ => .inr (.inr hp), guarded_none, ?_⟩
    rw [liveOf_withTransaction, openOf_withTransaction, Option.toList_none, List.length_nil]
    split <;> omega

/-- A checkout takes its first step. -/
theorem OneSale.runStart {P : CheckoutPool} {u : Option Nat} {i : Nat} {p : Handler (Option Nat)}
    {c : Call World Failure (Option Nat) CheckoutRequest} {φ : CheckoutPhase}
    (hc : P.calls[i]? = some c) (hu : u ≠ some i) (hidle : Idle cfg email u P)
    (hguarded : Guarded email u P)
    (hone : liveOf P.state.paddle email + openOf P.state.paddle email + u.toList.length ≤ 1)
    (hclear : (accountOf P.state.db email).hasLiveSubscription = false →
      (∀ d ∈ P.calls, ¬ UnderWay cfg email d) ∧ openOf P.state.paddle email = 0 ∧
        liveOf P.state.paddle email = 0)
    (hstep : CheckoutStep email .start P.state φ w') (hp : ChecksOut email φ p) :
    OneSale cfg email ⟨w', P.calls.set i { c with prog := p }⟩ := by
  cases hstep with
  | refused h =>
    exact ⟨u, hidle.set _ _ (fun _ _ hj => hj) fun _ _ => .inr (.inr hp), hguarded.set hu _ _, hone⟩
  | passed h =>
    -- nothing of the account is being sold, so this call may be the one under way
    obtain ⟨hnone, hopen, hlive⟩ := hclear h
    have hrest : Idle cfg email (some i) P := by
      intro j d hd hcheckout _
      by_contra hunder
      obtain ⟨hended, hnotOver⟩ := not_or.mp hunder
      refine hnone d (List.mem_of_getElem? hd) ⟨hcheckout, by simpa using hended, fun hprog => ?_⟩
      exact hnotOver (.inl hprog)
    have hlt : i < P.calls.length := (List.getElem?_eq_some_iff.mp hc).1
    refine ⟨some i, hrest.set _ _ (fun j hj _ => by simpa using Ne.symm hj)
      fun _ hne => absurd rfl hne, fun j hj => ?_, ?_⟩
    · obtain rfl : i = j := Option.some.inj hj
      exact ⟨_, List.getElem?_set_self hlt, hp⟩
    · simp only [Option.toList_some, List.length_singleton]
      omega

/-- Nothing is sold by anybody else. -/
theorem OneSale.runOther {P : CheckoutPool} {u : Option Nat} {i : Nat} {p : Handler (Option Nat)}
    {c : Call World Failure (Option Nat) CheckoutRequest} (hu : u ≠ some i)
    (hidle : Idle cfg email u P) (hguarded : Guarded email u P)
    (hone : liveOf P.state.paddle email + openOf P.state.paddle email + u.toList.length ≤ 1)
    (hother : ¬ c.request.IsCheckout email) (hsale : NoSale email P.state w') :
    OneSale cfg email ⟨w', P.calls.set i { c with prog := p }⟩ := by
  refine ⟨u, hidle.set _ _ (fun _ _ hj => hj) fun hcheckout _ => absurd hcheckout hother,
    hguarded.set hu _ _, ?_⟩
  have hlive := hsale.1
  have hopen := hsale.2
  dsimp only
  omega

/-- One move of the pool. -/
theorem OneSale.move {P Q : CheckoutPool} {m : Move CheckoutRequest CheckoutEnv}
    (h : OneSale cfg email P) (hsells : ∀ c ∈ P.calls, SellsNothing email c.request c.prog)
    (hclear : GuardsClear cfg email P Q) (hm : (checkoutSystem cfg).move P m = some Q) :
    OneSale cfg email Q := by
  rcases System.move_eq hm with
    ⟨r, -, rfl⟩ | ⟨e, -, rfl⟩ | ⟨i, c, ready, next, cont, rfl, hc, hprog, hready, rfl⟩
  · exact h.arrive r
  · obtain ⟨u, hidle, hguarded, hone⟩ := h
    refine ⟨u, hidle, hguarded, ?_⟩
    cases e with
    -- a customer pays: what was open is live now
    | complete n id =>
      have hsales := sales_complete P.state.paddle n id email
      change liveOf (P.state.paddle.complete n id) email +
        openOf (P.state.paddle.complete n id) email + _ ≤ 1
      omega
    | other f =>
      have hsales := f.2 P.state email
      have hlive := hsales.1
      have hopen := hsales.2
      change liveOf (f.1 P.state).paddle email + openOf (f.1 P.state).paddle email + _ ≤ 1
      omega
  · obtain ⟨u, hidle, hguarded, hone⟩ := h
    by_cases hu : u = some i
    · subst hu
      -- the call that has passed the guard acts
      obtain ⟨d, hd, hfollows⟩ := hguarded i rfl
      obtain rfl : c = d := Option.some.inj (hc.symm.trans hd)
      rw [hprog] at hfollows
      obtain ⟨φ, hstep, hcont⟩ := hfollows P.state hready
      exact .runGuarded hc hidle hone hstep hcont
    by_cases hcheckout : c.request.IsCheckout email
    · rcases hidle i c hc hcheckout hu with hended | hunstarted | hover
      · unfold Call.outcome at hended
        rw [hprog] at hended
        cases hended
      · -- a call takes its first step, through the guard
        have hstart : ChecksOut email .start c.prog := by
          rw [hunstarted]
          exact checksOut_handler hcheckout
        have hclear' := hclear i c hm hc hcheckout hunstarted
        rw [hprog] at hstart
        obtain ⟨φ, hstep, hcont⟩ := hstart P.state hready
        exact .runStart hc hu hidle hguarded hone hclear' hstep hcont
      · -- a call that was refused has nothing left to do
        rw [hprog] at hover
        obtain ⟨φ, hstep, -⟩ := hover P.state hready
        cases hstep
    · -- a call that is not a checkout of this account
      refine .runOther hu hidle hguarded hone hcheckout ?_
      rcases hsells c (List.mem_of_getElem? hc) with hown | hwithin | ⟨e, φ, hne, hfollows⟩
      · exact absurd hown hcheckout
      · rw [hprog] at hwithin
        exact (hwithin P.state).1
      · rw [hprog] at hfollows
        obtain ⟨φ', hstep, -⟩ := hfollows P.state hready
        exact hstep.noSale hne

theorem sellsNothing_next {r : CheckoutRequest} {ready : World → Bool} {next : World → World}
    {cont : World → Handler (Option Nat)} (h : SellsNothing email r (.act ready next cont))
    (hready : ready w = true) : SellsNothing email r (cont w) := by
  rcases h with hown | hwithin | ⟨e, φ, hne, hfollows⟩
  · exact .inl hown
  · exact .inr (.inl (hwithin w).2)
  · obtain ⟨φ', -, hcont⟩ := hfollows w hready
    exact .inr (.inr ⟨e, φ', hne, hcont⟩)

/-- However checkouts, payments, webhooks and reconcile runs interleave: if checkouts of
the account pass the guard only when nothing of it is being sold, then Paddle never
holds two live subscriptions for it, nor one that a second open transaction could join. -/
theorem oneLive_of_run
    (hrevive : ∀ s p, (cfg.patchSub s p).status.isActive = true → s.status.isActive = true)
    (howner : ∀ s p, (cfg.patchSub s p).accountEmail = s.accountEmail) {w₀ : World}
    (hstart : liveOf w₀.paddle email + openOf w₀.paddle email ≤ 1) {Q : CheckoutPool}
    (hrun : (checkoutSystem cfg).Run (GuardsClear cfg email) ⟨w₀, []⟩ Q) :
    liveOf Q.state.paddle email + openOf Q.state.paddle email ≤ 1 := by
  have hone : OneSale cfg email Q := by
    induction hrun with
    | refl => exact ⟨none, by simp [Idle], guarded_none, by simpa using hstart⟩
    | tail hbefore hstep ih =>
      obtain ⟨⟨m, hm⟩, hclear⟩ := hstep
      have hsells := System.calls_of_run (K := SellsNothing email)
        (sellsNothing_handler hrevive howner) (fun _ _ _ _ _ h hready => sellsNothing_next h hready)
        (by simp) hbefore
      exact ih.move hsells hclear hm
  obtain ⟨u, -, -, hle⟩ := hone
  omega

/-! ### Two tabs -/

/-- Ada asks for a checkout of a plan. -/
def adaBuys (plan : String) : CheckoutRequest :=
  .createCheckout plan { id := 1, tenantId := some 1, role := .owner, email := "ada@example.com" }
    none none

/-- Paddle knows Ada, and she has bought nothing. -/
def adaUnsold : CheckoutPool := ⟨{ paddle := { customers := [adaCustomer] } }, []⟩

/-- A checkout in each of two tabs, the second before the first is paid. -/
def twoTabs : List (Move CheckoutRequest CheckoutEnv) :=
  [.arrive (adaBuys "pro")] ++ List.replicate 6 (.run 0) ++ [.arrive (adaBuys "business")] ++
    List.replicate 4 (.run 1) ++ [.env (.complete 0 "sub_1"), .env (.complete 1 "sub_2")]

/-- Both checkouts resolve, and both transactions make a live subscription. -/
theorem two_tabs_sell_twice : ∃ Q : CheckoutPool,
    (checkoutSystem .paddleDemo).Run (fun _ _ => True) adaUnsold Q ∧
      Q.calls.map (·.outcome) = [some (.ok (some 0)), some (.ok (some 1))] ∧
      liveOf adaUnsold.state.paddle "ada@example.com" = 0 ∧
      liveOf Q.state.paddle "ada@example.com" = 2 := by
  let run := (checkoutSystem .paddleDemo).schedule adaUnsold twoTabs
  have hend : run.map (fun Q => (Q.calls.map (·.outcome), liveOf Q.state.paddle "ada@example.com")) =
      some ([some (.ok (some 0)), some (.ok (some 1))], 2) := by decide +kernel
  obtain ⟨Q, hrun, hQ⟩ := Option.map_eq_some_iff.mp hend
  obtain ⟨houtcomes, hlive⟩ := Prod.mk.inj hQ
  exact ⟨Q, System.run_of_schedule hrun, houtcomes, by decide, hlive⟩

/-- One call at most, and nothing sold before it has ended. -/
def oneTab (P : CheckoutPool) : Bool :=
  decide (P.calls.length ≤ 1) && (P.calls.all (·.outcome.isSome) ||
    (openOf P.state.paddle "ada@example.com" == 0 && liveOf P.state.paddle "ada@example.com" == 0))

theorem guardsClear_of_oneTab {P Q : CheckoutPool} (h : oneTab P = true) :
    GuardsClear cfg "ada@example.com" P Q := by
  intro i c hm hc _ hprog _
  simp only [oneTab, Bool.and_eq_true, Bool.or_eq_true, decide_eq_true_eq, beq_iff_eq] at h
  obtain ⟨hlength, hended | ⟨hopen, hlive⟩⟩ := h
  · have hout := List.all_eq_true.mp hended c (List.mem_of_getElem? hc)
    rcases System.move_eq hm with
      ⟨r, hr, -⟩ | ⟨e, he, -⟩ | ⟨j, d, ready, next, cont, hj, hd, hact, -, -⟩
    · cases hr
    · cases he
    · cases hj
      obtain rfl : c = d := Option.some.inj (hc.symm.trans hd)
      unfold Call.outcome at hout
      rw [hact] at hout
      cases hout
  · refine ⟨fun d hd hunder => ?_, hopen, hlive⟩
    obtain ⟨j, hj⟩ := List.getElem?_of_mem hd
    have hi := (List.getElem?_eq_some_iff.mp hc).1
    have hjlt := (List.getElem?_eq_some_iff.mp hj).1
    obtain rfl : i = j := by omega
    obtain rfl : c = d := Option.some.inj (hc.symm.trans hj)
    exact hunder.2.2 hprog

/-- A single checkout that is paid leaves one live subscription. -/
theorem oneLive_of_run_oneTab : ∃ Q : CheckoutPool,
    liveOf Q.state.paddle "ada@example.com" = 1 ∧
      liveOf Q.state.paddle "ada@example.com" + openOf Q.state.paddle "ada@example.com" ≤ 1 := by
  let run := (checkoutSystem .paddleDemo).scheduleWhile oneTab adaUnsold
    ([.arrive (adaBuys "pro")] ++ List.replicate 6 (.run 0) ++ [.env (.complete 0 "sub_1")])
  have hend : run.map (fun Q => liveOf Q.state.paddle "ada@example.com") = some 1 := by
    decide +kernel
  obtain ⟨Q, hrun, hlive⟩ := Option.map_eq_some_iff.mp hend
  exact ⟨Q, hlive, oneLive_of_run (fun _ _ h => h) (fun _ _ => rfl) (by decide)
    (System.run_of_scheduleWhile (fun _ _ => guardsClear_of_oneTab) hrun)⟩

end Feedbase
