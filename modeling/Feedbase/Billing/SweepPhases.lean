import Feedbase.Billing.ReconcilePhases
import Feedbase.Billing.Upgrade

/-!
# Where a sweep stands

`applyDuePendingChanges` selects its rows once, and works on what they said for as long as
it runs. For each row it reads the subscription at Paddle, updates the item in a later call,
and reconciles the account. A phase names the rows and how far the sweep has come with one.

## Main definitions

* `SweepPhase`, `SweepStep`

## Main results

* `follows_applyDuePendingChanges`, `neverWaits_applyDuePendingChanges`
-/

namespace Feedbase

variable {cfg : Config} {leadSeconds : Time}

/-- The price the pending change of a row asks for. -/
def targetPrice (cfg : Config) (row : BillingAccount) : Option String :=
  paddlePriceIdFor cfg.env (row.pendingPlan.getD "") (row.pendingInterval.getD .month)

/-- The subscription a row names. -/
def BillingAccount.subId (row : BillingAccount) : String := row.paddleSubscriptionId.getD ""

/-- The renewal came before the change. -/
def BillingAccount.missed (row : BillingAccount) (sub : PaddleSub) : Bool :=
  sub.endsAt.any fun periodEnd =>
    row.pendingEffectiveAt.any fun due => decide (due + daySeconds < periodEnd)

/-- How far a sweep has come. -/
inductive SweepPhase where
  | start
  | sweeping (rows : List BillingAccount)
  | retargeting (rows : List BillingAccount) (row : BillingAccount) (periodEnd : Option Time)
  /-- the item has another price; the update is next -/
  | sending (rows : List BillingAccount) (row : BillingAccount) (patch : SubPatch)
  | reconciling (rows : List BillingAccount) (row : BillingAccount) (φ : ReconcilePhase)

/-- A reconcile run of a sweep; behind it the next row is taken. -/
def SweepPhase.reconcile (rows : List BillingAccount) (row : BillingAccount) :
    ReconcilePhase → SweepPhase
  | .done => .sweeping rows
  | φ => .reconciling rows row φ

/-- Paddle carries an update of the subscription out. -/
def World.updates (w : World) (subId : String) : Prop :=
  w.fails .paddleSubscriptionsUpdate = false ∧ (w.paddle.get subId).isSome = true

/-- Once the subscription has been read. -/
def foundPhase (cfg : Config) (rows : List BillingAccount) (row : BillingAccount)
    (target : String) (sub : PaddleSub) : SweepPhase :=
  if orNull sub.priceId = some target then .sweeping rows
  else if row.missed sub then
    -- `setAccountPlan` throws without an email
    if row.email = "" then .sweeping rows else .retargeting rows row sub.endsAt
  else .sending rows row
    { priceId := some target
      prorateNow :=
        intervalByPaddlePriceId cfg.env sub.priceId ≠ some (row.pendingInterval.getD .month) }

/-- One action of a sweep. -/
inductive SweepStep (cfg : Config) : SweepPhase → World → SweepPhase → World → Prop where
  | selects {w : World} (leadSeconds : Time) :
    SweepStep cfg .start w
      (.sweeping (w.db.billingAccounts.rows.filter (·.isDue w.now leadSeconds))) w
  | skips {w : World} {rows : List BillingAccount} :
    SweepStep cfg (.sweeping rows) w (.sweeping rows) w
  | finds {w : World} {rows : List BillingAccount} {row : BillingAccount} {target : String}
    {sub : PaddleSub} (hrow : row ∈ rows) (htarget : targetPrice cfg row = some target)
    (hget : w.paddle.get row.subId = some sub) :
    SweepStep cfg (.sweeping rows) w (foundPhase cfg rows row target sub) w
  | retargets {w : World} {rows : List BillingAccount} {row : BillingAccount}
    {periodEnd : Option Time} {db : Db}
    (htx : setAccountPlanTx row.email { pendingEffectiveAt := some periodEnd } w.db = some db) :
    SweepStep cfg (.retargeting rows row periodEnd) w (.sweeping rows) { w with db := db }
  | retargetFails {w : World} {rows : List BillingAccount} {row : BillingAccount}
    {periodEnd : Option Time} :
    SweepStep cfg (.retargeting rows row periodEnd) w (.sweeping rows) w
  | updates {w : World} {rows : List BillingAccount} {row : BillingAccount} {patch : SubPatch}
    (h : w.updates row.subId) :
    SweepStep cfg (.sending rows row patch) w
      (if row.email = "" then .sweeping rows else .reconciling rows row .start)
      { w with paddle := w.paddle.updateSub cfg row.subId patch }
  | updateFails {w : World} {rows : List BillingAccount} {row : BillingAccount}
    {patch : SubPatch} (h : ¬ w.updates row.subId) :
    SweepStep cfg (.sending rows row patch) w (.sweeping rows) w
  | reconciles {w w' : World} {rows : List BillingAccount} {row : BillingAccount}
    {φ φ' : ReconcilePhase} (h : ReconcileStep cfg row.email φ w φ' w') :
    SweepStep cfg (.reconciling rows row φ) w (.reconcile rows row φ') w'

/-- A sweep ends before it has selected rows, or between two of them. -/
def SweepDone (φ : SweepPhase) (_ : Except Failure Unit) : Prop :=
  φ = .start ∨ ∃ rows, φ = .sweeping rows

section Rows

variable {rows : List BillingAccount} {row : BillingAccount}

/-- A part of a sweep that goes on to the next row. -/
abbrev SweepsOn (cfg : Config) (rows : List BillingAccount) (φ : SweepPhase) (p : Handler Unit) :
    Prop :=
  Follows (SweepStep cfg) (fun φ' _ => φ' = .sweeping rows) φ p

theorem sweeps_reconcile (hconf : isPaddleConfigured cfg.env = true) (hne : row.email ≠ "") :
    SweepsOn cfg rows (.reconciling rows row .start) (reconcile cfg row.email) := by
  refine Follows.map (SweepPhase.reconcile rows row) (fun φ w φ' w' h => ?_) ?_
    (follows_reconcile hne hconf)
  · by_cases hφ : φ = .done
    · subst hφ
      cases h
      exact .skips
    · have hsame : SweepPhase.reconcile rows row φ = .reconciling rows row φ := by
        cases φ with
        | done => exact absurd rfl hφ
        | _ => rfl
      rw [hsame]
      exact .reconciles h
  intro φ r hdone
  cases r with
  | ok a => exact congrArg (SweepPhase.reconcile rows row) hdone
  | error e => exact congrArg (SweepPhase.reconcile rows row) hdone

theorem sweeps_update (hconf : isPaddleConfigured cfg.env = true) (patch : SubPatch) :
    SweepsOn cfg rows (.sending rows row patch) (do
      paddleSubscriptionsUpdate cfg row.subId patch
      reconcile cfg row.email) := by
  refine fun w _ => ?_
  dsimp only
  cases hfails : w.fails .paddleSubscriptionsUpdate with
  | true =>
    rw [if_pos rfl]
    exact ⟨.sweeping rows, .updateFails fun h => by simp [h.1] at hfails, rfl⟩
  | false =>
    rw [if_neg Bool.false_ne_true]
    by_cases hget : (w.paddle.get row.subId).isSome = true
    · rw [if_pos hget]
      refine ⟨_, .updates ⟨hfails, hget⟩, ?_⟩
      by_cases hemail : row.email = ""
      · rw [if_pos hemail]
        change Follows _ _ _ (reconcile cfg row.email)
        rw [reconcile, if_pos (.inl hemail)]
        exact .ret rfl
      · rw [if_neg hemail]
        exact sweeps_reconcile hconf hemail
    · rw [if_neg hget]
      exact ⟨.sweeping rows, .updateFails fun h => hget h.2, rfl⟩

theorem sweeps_retarget (hne : row.email ≠ "") (periodEnd : Option Time) :
    SweepsOn cfg rows (.retargeting rows row periodEnd)
      (setAccountPlan row.email { pendingEffectiveAt := some periodEnd }) := by
  rw [setAccountPlan, if_neg hne]
  refine fun w _ => ⟨.sweeping rows, ?_⟩
  dsimp only
  cases hfails : w.fails .setAccountPlan with
  | true => exact ⟨.retargetFails, rfl⟩
  | false =>
    rw [if_neg Bool.false_ne_true]
    cases htx : setAccountPlanTx row.email { pendingEffectiveAt := some periodEnd } w.db with
    | none => exact ⟨.retargetFails, rfl⟩
    | some db => exact ⟨.retargets htx, rfl⟩

/-- What follows the reading of the subscription. -/
theorem sweeps_found (hconf : isPaddleConfigured cfg.env = true) (target : String)
    (sub : PaddleSub) :
    SweepsOn cfg rows (foundPhase cfg rows row target sub)
      (if orNull sub.priceId = some target then pure ()
      else if row.missed sub then
        setAccountPlan row.email { pendingEffectiveAt := some sub.endsAt }
      else do
        paddleSubscriptionsUpdate cfg row.subId
          { priceId := some target
            prorateNow :=
              intervalByPaddlePriceId cfg.env sub.priceId ≠
                some (row.pendingInterval.getD .month) }
        reconcile cfg row.email) := by
  unfold foundPhase
  split
  · exact .ret rfl
  split
  · by_cases hemail : row.email = ""
    · rw [if_pos hemail, setAccountPlan, if_pos hemail]
      exact .fail rfl
    · rw [if_neg hemail]
      exact sweeps_retarget hemail sub.endsAt
  · exact sweeps_update hconf _

theorem sweeps_applyDueChange (hconf : isPaddleConfigured cfg.env = true) (hrow : row ∈ rows) :
    SweepsOn cfg rows (.sweeping rows) (applyDueChange cfg row) := by
  unfold applyDueChange
  dsimp only
  cases htarget : targetPrice cfg row with
  | none =>
    rw [targetPrice] at htarget
    rw [htarget]
    exact .ret rfl
  | some target =>
    have hprice := htarget
    rw [targetPrice] at hprice
    rw [hprice]
    refine fun w _ => ?_
    dsimp only
    cases hfails : w.fails .paddleSubscriptionsGet with
    | true => exact ⟨.sweeping rows, .skips, .fail rfl⟩
    | false =>
      rw [if_neg Bool.false_ne_true]
      cases hget : w.paddle.get (row.paddleSubscriptionId.getD "") with
      | none => exact ⟨.sweeping rows, .skips, .fail rfl⟩
      | some sub =>
        exact ⟨_, .finds hrow htarget hget, sweeps_found hconf target sub⟩

/-- The rows one after the other; a failing one does not stop the sweep. -/
theorem sweeps_forM (hconf : isPaddleConfigured cfg.env = true) {l : List BillingAccount}
    (hl : ∀ row ∈ l, row ∈ rows) :
    SweepsOn cfg rows (.sweeping rows)
      (l.forM fun row => tryCatch (applyDueChange cfg row) fun _ => pure ()) := by
  induction l with
  | nil => exact .ret rfl
  | cons row l ih =>
    obtain ⟨hrow, hl⟩ := List.forall_mem_cons.mp hl
    have hfirst : SweepsOn cfg rows (.sweeping rows)
        (tryCatch (applyDueChange cfg row) fun _ => pure ()) :=
      (sweeps_applyDueChange hconf hrow).catching (fun _ _ hφ => hφ) fun _ _ hφ => .ret hφ
    refine hfirst.bind (fun φ _ hφ => ?_) fun _ _ hφ => hφ
    rw [hφ]
    exact ih hl

end Rows

theorem follows_applyDuePendingChanges (leadSeconds : Time) :
    Follows (SweepStep cfg) SweepDone .start (applyDuePendingChanges cfg leadSeconds) := by
  unfold applyDuePendingChanges
  by_cases hconf : isPaddleConfigured cfg.env = false
  · rw [if_pos hconf]
    exact .ret (.inl rfl)
  rw [if_neg hconf]
  have hrows : ∀ rows : List BillingAccount, Follows (SweepStep cfg) SweepDone (.sweeping rows)
      (rows.forM fun row => tryCatch (applyDueChange cfg row) fun _ => pure ()) := fun rows =>
    (sweeps_forM (Bool.eq_true_of_not_eq_false hconf) fun _ hrow => hrow).mono
      fun _ _ hφ => .inr ⟨rows, hφ⟩
  exact fun w _ => ⟨_, .selects leadSeconds, hrows _⟩

/-! ### A sweep never waits -/

open Prog (NeverWaits)

theorem neverWaits_setAccountPlan (email : String) (fields : AccountFields) :
    NeverWaits (setAccountPlan email fields) := .ite (.throw _) (.attempt _ _)

theorem neverWaits_ensureOfferDiscount (sub : NormalizedSub) :
    NeverWaits (ensureOfferDiscount cfg sub) := by
  refine .tryCatch (.ite (.pure _) (.bind ?_ fun blocked => .ite (.pure _)
    (.bind (.read _) fun offer => ?_))) fun _ => .pure _
  · unfold discountBlocks
    split
    · exact .pure _
    · exact .tryCatch (.bind (.attempt _ _) fun _ => .pure _) fun _ => .pure _
  · split
    · exact .pure _
    · exact .attempt _ _

theorem neverWaits_fetchSubscription (email : String) :
    NeverWaits (fetchSubscription cfg email) := by
  refine .bind (.read _) fun acct => ?_
  split
  · exact .bind (.attempt _ _) fun _ => .pure _
  have hcustomer : NeverWaits (resolveCustomer email acct) := by
    unfold resolveCustomer
    split
    · exact .pure _
    · refine .bind (.attempt _ _) fun found => ?_
      split
      · exact .bind (neverWaits_setAccountPlan _ _) fun _ => .pure _
      · exact .pure _
  refine .bind hcustomer fun customer => ?_
  split
  · exact .pure _
  · refine .bind (.attempt _ _) fun subs => ?_
    split
    · exact .pure _
    · exact .bind (neverWaits_setAccountPlan _ _) fun _ => .pure _

theorem neverWaits_reconcile (email : String) : NeverWaits (reconcile cfg email) := by
  refine .ite (.pure _) (.bind (.read _) fun acct => .ite ?_ ?_)
  · exact .bind (.read _) fun now => .ite (neverWaits_setAccountPlan _ _) (.pure _)
  · refine .bind (neverWaits_fetchSubscription email) fun found => ?_
    split
    · exact .bind (.read _) fun now => .ite (neverWaits_setAccountPlan _ _)
        (.bind (neverWaits_ensureOfferDiscount _) fun _ => neverWaits_setAccountPlan _ _)
    · exact .ite (neverWaits_setAccountPlan _ _) (.pure _)

theorem neverWaits_applyDuePendingChanges (leadSeconds : Time) :
    NeverWaits (applyDuePendingChanges cfg leadSeconds) := by
  have hrow : ∀ row, NeverWaits (applyDueChange cfg row) := by
    intro row
    unfold applyDueChange
    dsimp only
    split
    · exact .pure _
    · refine .bind (.attempt _ _) fun sub => .ite (.pure _) (.ite ?_ ?_)
      · exact neverWaits_setAccountPlan _ _
      · exact .bind (.attempt _ _) fun _ => neverWaits_reconcile _
  exact .ite (.pure _) (.bind (.read _) fun rows => .forM fun row =>
    .tryCatch (hrow row) fun _ => .pure _)

end Feedbase
