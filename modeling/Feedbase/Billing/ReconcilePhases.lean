import Feedbase.Billing.Steps
import Feedbase.Lib.Pool

/-!
# Where a reconcile run stands

Between two actions of a `reconcile` run other requests may act. A phase says what the
run has read so far and what it is about to do, and `ReconcileStep` what its next
action can be. The run decides on the account it read first, and writes what the
provider answered, however much later.

## Main definitions

* `ReconcilePhase`, `conclude`, `ReconcileStep`

## Main results

* `follows_reconcile`, `follows_handleWebhook`
-/

namespace Feedbase

variable {cfg : Config} {email : String}

/-- What a run has read and is about to do. `acct` is the account it read first. -/
inductive ReconcilePhase where
  | start
  /-- the account was comped; the clock is next -/
  | comped (acct : BillingAccount)
  /-- the account is read once more, for its provider ids -/
  | account (acct : BillingAccount)
  | byId (acct : BillingAccount) (id : String)
  | customerLookup (acct : BillingAccount)
  | newCustomer (acct : BillingAccount) (customerId : String)
  | byCustomer (acct : BillingAccount) (customerId : String)
  | newSub (acct : BillingAccount) (sub : PaddleSub)
  /-- a paid subscription was found; the clock is next -/
  | live (acct : BillingAccount) (sub : NormalizedSub)
  | writing (fields : AccountFields)
  | done

/-- Once the provider has answered. -/
def conclude (acct : BillingAccount) (found : Option NormalizedSub) : ReconcilePhase :=
  match found.filter (·.planName ≠ "free") with
  | some sub => .live acct sub
  | none =>
    if (orNull acct.subscriptionStatus).isSome then
      .writing (resetFields (found.map (·.status.text)))
    else .done

/-- How the subscription is looked up: by the stored id, else by the customer. -/
def lookupPhase (acct stored : BillingAccount) : ReconcilePhase :=
  match orNull stored.paddleSubscriptionId with
  | some id => .byId acct id
  | none =>
    match orNull stored.paddleCustomerId with
    | some customerId => .byCustomer acct customerId
    | none => .customerLookup acct

/-- Once the customer's live subscriptions have been listed. -/
def listedPhase (acct : BillingAccount) : Option PaddleSub → ReconcilePhase
  | some sub => .newSub acct sub
  | none => conclude acct none

/-- Once the customers with the account's email have been listed. -/
def customerPhase (acct : BillingAccount) : Option String → ReconcilePhase
  | some customerId => .newCustomer acct customerId
  | none => conclude acct none

/-- At most a discount was attached to a subscription. -/
def DiscountPatch (cfg : Config) (p p' : Paddle) : Prop :=
  ∃ id d, p' = p.updateSub cfg id { discountId := some d }

/-- One action of a run for the account `email`. -/
inductive ReconcileStep (cfg : Config) (email : String) :
    ReconcilePhase → World → ReconcilePhase → World → Prop where
  | readAccount {w : World} :
    ReconcileStep cfg email .start w
      (if (accountOf w.db email).subscriptionStatus = some "comped" then
        .comped (accountOf w.db email) else .account (accountOf w.db email)) w
  | compClock {acct : BillingAccount} {w : World} :
    ReconcileStep cfg email (.comped acct) w
      (if acct.currentPeriodEnd.any (· < w.now) then .writing (resetFields none) else .done) w
  | readIds {acct : BillingAccount} {w : World} :
    ReconcileStep cfg email (.account acct) w (lookupPhase acct (accountOf w.db email)) w
  | get {acct : BillingAccount} {id : String} {sub : PaddleSub} {w : World}
    (h : w.paddle.get id = some sub) :
    ReconcileStep cfg email (.byId acct id) w (conclude acct (some (normalizeSub cfg.env sub))) w
  | missing {acct : BillingAccount} {id : String} {w : World} (h : w.paddle.get id = none) :
    ReconcileStep cfg email (.byId acct id) w .done w
  | findCustomer {acct : BillingAccount} {w : World} :
    ReconcileStep cfg email (.customerLookup acct) w
      (customerPhase acct (orNull ((w.paddle.customersOf email).head?.map (·.id)))) w
  | storeCustomer {acct : BillingAccount} {customerId : String} {w : World} {db : Db}
    (htx : setAccountPlanTx email { paddleCustomerId := some (some customerId) } w.db = some db) :
    ReconcileStep cfg email (.newCustomer acct customerId) w (.byCustomer acct customerId)
      { w with db := db }
  | findSub {acct : BillingAccount} {customerId : String} {w : World} :
    ReconcileStep cfg email (.byCustomer acct customerId) w
      (listedPhase acct (w.paddle.listLive customerId).head?) w
  | storeSub {acct : BillingAccount} {sub : PaddleSub} {w : World} {db : Db}
    (htx : setAccountPlanTx email { paddleSubscriptionId := some (some sub.id) } w.db = some db) :
    ReconcileStep cfg email (.newSub acct sub) w
      (conclude acct (some (normalizeSub cfg.env sub))) { w with db := db }
  | liveClock {acct : BillingAccount} {sub : NormalizedSub} {w : World} :
    ReconcileStep cfg email (.live acct sub) w
      (.writing (if acct.pendingActive w.now then heldFields acct sub else liveFields sub)) w
  | offer {fields : AccountFields} {w w' : World}
    (h : BillingStep (fun _ _ => False) (DiscountPatch cfg) w w') :
    ReconcileStep cfg email (.writing fields) w (.writing fields) w'
  | write {fields : AccountFields} {w : World} {db : Db}
    (htx : setAccountPlanTx email fields w.db = some db) :
    ReconcileStep cfg email (.writing fields) w .done { w with db := db }
  | fault {φ : ReconcilePhase} {site : Site} {w : World} (h : w.fails site = true) :
    ReconcileStep cfg email φ w .done w

theorem ReconcileStep.now_eq {φ φ' : ReconcilePhase} {w w' : World}
    (h : ReconcileStep cfg email φ w φ' w') : w'.now = w.now := by
  cases h with
  | offer h => exact h.now_eq
  | _ => rfl

/-! ### The parts of a run -/

/-- The phase a part of a run ends in: one for each value it returns, and `done` when
it throws. -/
def EndsIn {α : Type} (target : α → ReconcilePhase) (φ : ReconcilePhase) :
    Except Failure α → Prop
  | .ok a => φ = target a
  | .error _ => φ = .done

/-- A part of a run for the account. -/
abbrev Runs {α : Type} (cfg : Config) (email : String) (target : α → ReconcilePhase)
    (φ : ReconcilePhase) (p : Handler α) : Prop :=
  Follows (ReconcileStep cfg email) (EndsIn target) φ p

section Runs

variable {α β : Type} {target : α → ReconcilePhase} {target' : β → ReconcilePhase}
  {φ : ReconcilePhase}

theorem runs_pure (a : α) : Runs cfg email target (target a) (pure a) := rfl

theorem runs_bind {p : Handler α} {f : α → Handler β} (hp : Runs cfg email target φ p)
    (hf : ∀ a, Runs cfg email target' (target a) (f a)) :
    Runs cfg email target' φ (p >>= f) := by
  refine .bind hp ?_ ?_
  · rintro φ a rfl
    exact hf a
  · rintro φ e rfl
    exact rfl

theorem runs_read {f : World → α} (h : ∀ w, ReconcileStep cfg email φ w (target (f w)) w) :
    Runs cfg email target φ (Prog.read f) :=
  .step fun w _ => ⟨target (f w), h w, rfl⟩

theorem runs_call {site : Site} {f : World → Option (α × World)}
    (hok : ∀ w a w', f w = some (a, w') → ReconcileStep cfg email φ w (target a) w')
    (hnone : ∀ w, f w = none → ReconcileStep cfg email φ w .done w) :
    Runs cfg email target φ (call site f) := by
  refine .step fun w _ => ?_
  dsimp only
  cases hfail : w.fails site with
  | true => exact ⟨.done, .fault hfail, rfl⟩
  | false =>
    cases hf : f w with
    | none => exact ⟨.done, hnone w hf, rfl⟩
    | some r => exact ⟨target r.1, hok w r.1 r.2 hf, rfl⟩

theorem runs_setAccountPlan {fields : AccountFields} {target : Unit → ReconcilePhase}
    (hne : email ≠ "") (hplan : fields.planName ≠ some none)
    (hstep : ∀ w db, setAccountPlanTx email fields w.db = some db →
      ReconcileStep cfg email φ w (target ()) { w with db := db }) :
    Runs cfg email target φ (setAccountPlan email fields) := by
  unfold setAccountPlan
  rw [if_neg hne]
  refine runs_call (fun w a w' h => ?_) fun w h => ?_
  · obtain ⟨db, htx, heq⟩ := Option.map_eq_some_iff.mp h
    cases heq
    exact hstep w db htx
  · unfold setAccountPlanTx at h
    rw [if_neg hplan] at h
    cases h

/-- The last write of a run. -/
theorem runs_write {fields : AccountFields} (hne : email ≠ "")
    (hplan : fields.planName ≠ some none) :
    Runs cfg email (fun _ => .done) (.writing fields) (setAccountPlan email fields) :=
  runs_setAccountPlan hne hplan fun _ _ htx => .write htx

end Runs

/-! ### The lookup -/

variable {acct : BillingAccount}

theorem runs_byCustomer {customerId : String} (hne : email ≠ "") :
    Runs cfg email (conclude acct) (.byCustomer acct customerId) (do
      let subs ← paddleSubscriptionsList customerId
      match subs.head? with
      | none => return none
      | some sub =>
        setAccountPlan email { paddleSubscriptionId := some (some sub.id) }
        return some (normalizeSub cfg.env sub)) := by
  have hlist : Runs cfg email (fun subs => listedPhase acct subs.head?) (.byCustomer acct customerId)
      (paddleSubscriptionsList customerId) := by
    refine runs_call (fun w subs w' h => ?_) fun w h => by cases h
    cases h
    exact .findSub
  refine runs_bind hlist fun subs => ?_
  cases subs.head? with
  | none => exact runs_pure none
  | some sub =>
    have hstore : Runs cfg email (fun _ => conclude acct (some (normalizeSub cfg.env sub)))
        (.newSub acct sub) (setAccountPlan email { paddleSubscriptionId := some (some sub.id) }) :=
      runs_setAccountPlan hne (by simp) fun _ _ htx => .storeSub htx
    exact runs_bind hstore fun _ => runs_pure _

/-- The phase `resolveCustomer` ends in. -/
def resolvedPhase (acct : BillingAccount) : Option String → ReconcilePhase
  | some customerId => .byCustomer acct customerId
  | none => conclude acct none

theorem runs_resolveCustomer {stored : BillingAccount} (hne : email ≠ "")
    (hid : orNull stored.paddleSubscriptionId = none) :
    Runs cfg email (resolvedPhase acct) (lookupPhase acct stored)
      (resolveCustomer email stored) := by
  unfold lookupPhase resolveCustomer
  rw [hid]
  cases orNull stored.paddleCustomerId with
  | some customerId => exact runs_pure (some customerId)
  | none =>
    have hlist : Runs cfg email
        (fun found => customerPhase acct (orNull (found.head?.map (·.id))))
        (.customerLookup acct) (paddleCustomersList email) := by
      refine runs_call (fun w found w' h => ?_) fun w h => by cases h
      cases h
      exact .findCustomer
    refine runs_bind hlist fun found => ?_
    cases orNull (found.head?.map (·.id)) with
    | none => exact runs_pure none
    | some customerId =>
      have hstore : Runs cfg email (fun _ => .byCustomer acct customerId)
          (.newCustomer acct customerId)
          (setAccountPlan email { paddleCustomerId := some (some customerId) }) :=
        runs_setAccountPlan hne (by simp) fun _ _ htx => .storeCustomer htx
      exact runs_bind hstore fun _ => runs_pure (some customerId)

theorem runs_fetchSubscription (hne : email ≠ "") :
    Runs cfg email (conclude acct) (.account acct) (fetchSubscription cfg email) := by
  have hread : Runs cfg email (fun stored => lookupPhase acct stored) (.account acct)
      (getAccount email) := runs_read fun _ => .readIds
  refine runs_bind hread fun stored => ?_
  cases hid : orNull stored.paddleSubscriptionId with
  | some id =>
    have hphase : lookupPhase acct stored = .byId acct id := by
      unfold lookupPhase
      rw [hid]
    have hget : Runs cfg email (fun sub => conclude acct (some (normalizeSub cfg.env sub)))
        (.byId acct id) (paddleSubscriptionsGet id) := by
      refine runs_call (fun w sub w' h => ?_) fun w h => ?_
      · obtain ⟨sub', hsub, heq⟩ := Option.map_eq_some_iff.mp h
        cases heq
        exact .get hsub
      · exact .missing (Option.map_eq_none_iff.mp h)
    rw [hphase]
    exact runs_bind hget fun sub => runs_pure _
  | none =>
    refine runs_bind (runs_resolveCustomer hne hid) fun found => ?_
    cases found with
    | none => exact runs_pure none
    | some customerId => exact runs_byCustomer hne

/-! ### A run -/

theorem runs_ensureOfferDiscount {fields : AccountFields} (sub : NormalizedSub) :
    Runs cfg email (fun _ => .writing fields) (.writing fields) (ensureOfferDiscount cfg sub) := by
  have hsteps : Prog.Within (BillingStep (fun _ _ => False) (DiscountPatch cfg))
      (ensureOfferDiscount cfg sub) := steps_ensureOfferDiscount fun p id d => ⟨id, d, rfl⟩
  refine (Follows.of_within_swallow hsteps fun w w' h => .offer h).mono ?_
  rintro φ r ⟨rfl, rfl⟩
  exact rfl

theorem runs_reconcileLive {sub : NormalizedSub} (hne : email ≠ "") :
    Runs cfg email (fun _ => .done) (.live acct sub) (reconcileLive cfg email acct sub) := by
  have hclock : Runs cfg email
      (fun now => .writing (if acct.pendingActive now then heldFields acct sub else liveFields sub))
      (.live acct sub) getNow := runs_read fun _ => .liveClock
  refine runs_bind hclock fun now => ?_
  split
  · exact runs_write hne (by simp [heldFields])
  · exact runs_bind (runs_ensureOfferDiscount sub) fun _ => runs_write hne (by simp [liveFields])

theorem runs_reconcileComped (hne : email ≠ "") :
    Runs cfg email (fun _ => .done) (.comped acct) (reconcileComped email acct) := by
  have hclock : Runs cfg email
      (fun now => if acct.currentPeriodEnd.any (· < now) then .writing (resetFields none) else .done)
      (.comped acct) getNow := runs_read fun _ => .compClock
  refine runs_bind hclock fun now => ?_
  split
  · exact runs_write hne (by simp [resetFields])
  · exact runs_pure ()

theorem runs_conclude {found : Option NormalizedSub} (hne : email ≠ "") :
    Runs cfg email (fun _ => .done) (conclude acct found)
      (match found.filter (·.planName ≠ "free") with
        | some sub => reconcileLive cfg email acct sub
        | none =>
          if (orNull acct.subscriptionStatus).isSome then
            resetAccountToFree email (found.map (·.status.text))
          else pure ()) := by
  unfold conclude
  split
  · exact runs_reconcileLive hne
  · split
    · exact runs_write hne (by simp [resetFields])
    · exact runs_pure ()

/-- A reconcile run of an account that has an email, with Paddle configured. -/
theorem follows_reconcile (hne : email ≠ "") (hconf : isPaddleConfigured cfg.env = true) :
    Runs cfg email (fun _ => .done) .start (reconcile cfg email) := by
  unfold reconcile
  rw [if_neg (by simp [hne, hconf])]
  have hread : Runs cfg email (fun acct => if acct.subscriptionStatus = some "comped" then
      .comped acct else .account acct) .start (getAccount email) := runs_read fun _ => .readAccount
  refine runs_bind hread fun acct => ?_
  split
  · exact runs_reconcileComped hne
  · exact runs_bind (runs_fetchSubscription hne) fun found => runs_conclude hne

/-- A webhook that names the account is a run whose errors are swallowed. -/
theorem follows_handleWebhook {event : PaddleEvent} (hne : email ≠ "")
    (hconf : isPaddleConfigured cfg.env = true) (hsub : event.isSubscription = true)
    (hnamed : event.accountEmail = some email) :
    Runs cfg email (fun _ => .done) .start (handleWebhook cfg event) := by
  have hemail : orNull event.accountEmail = some email := orNull_eq_some_iff.mpr ⟨hnamed, hne⟩
  unfold handleWebhook
  rw [if_neg (by simp [hsub]), hemail]
  refine .catching (follows_reconcile hne hconf) (fun φ a h => h) ?_
  rintro φ e rfl
  exact rfl

end Feedbase
