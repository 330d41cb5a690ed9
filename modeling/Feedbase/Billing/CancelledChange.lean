import Feedbase.Billing.CancelPhases
import Feedbase.Billing.LostLock

/-!
# Cancelling a scheduled change while a sweep runs

`cancelScheduledChange` puts the item back and clears the markers in separate calls, and
a sweep works on a row it selected before. The cancel wins when the sweep does not hold
the account's row while the cancel is under way.

## Main definitions

* `SweepApart` — while the cancel is under way, the sweep has not begun or is done with the account
* `Cancelled` — the item, the plan and the markers after a cancel

## Main results

* `cancelled_of_run`
-/

namespace Feedbase

variable {cfg : Config} {auth : AuthData} {w w' : World}

/-! ### One cancel and one sweep -/

inductive PlanRequest where
  | cancel (auth : AuthData)
  | sweep (leadSeconds : Time)

/-- What happens between the actions of the two: time passes, calls fail or work again. -/
structure KeepsBilling (w w' : World) : Prop where
  accounts : w'.db.billingAccounts = w.db.billingAccounts
  paddle : w'.paddle = w.paddle

def BillingEnv : Type := { f : World → World // ∀ w, KeepsBilling w (f w) }

def planSystem (cfg : Config) : System World Failure Unit PlanRequest BillingEnv where
  handler
    | .cancel auth => withoutReply (cancelScheduledChange cfg auth)
    | .sweep leadSeconds => applyDuePendingChanges cfg leadSeconds
  env e := e.1

abbrev PlanPool := Pool World Failure Unit PlanRequest

abbrev PlanCall := Call World Failure Unit PlanRequest

/-- A call that has arrived and has not begun. -/
def called (cfg : Config) (w : World) (r : PlanRequest) : PlanCall :=
  ⟨r, w, (planSystem cfg).handler r⟩

/-- One cancel and one sweep, and neither has begun. -/
def bothCalled (cfg : Config) (auth : AuthData) (leadSeconds : Time) (w : World) : PlanPool :=
  ⟨w, [called cfg w (.cancel auth), called cfg w (.sweep leadSeconds)]⟩

/-- There are these two calls, and while the cancel is under way, the sweep has not begun, or
nothing it still does touches the account or the price of its subscription. -/
structure SweepApart (cfg : Config) (email subId : String) (P : PlanPool) : Prop where
  two : P.calls.length = 2
  apart : ∀ c d, P.calls[0]? = some c → P.calls[1]? = some d → (planSystem cfg).UnderWay c →
    d.prog = (planSystem cfg).handler d.request ∨
      Prog.Within (Untouched email (· = subId)) d.prog

/-- The price of the plan and interval an account is on. -/
def BillingAccount.curPrice (a : BillingAccount) (cfg : Config) : Option String :=
  paddlePriceIdFor cfg.env a.curPlan a.curInterval

/-- No change is scheduled. -/
structure BillingAccount.Unscheduled (a : BillingAccount) : Prop where
  plan : a.pendingPlan = none
  interval : a.pendingInterval = none
  effectiveAt : a.pendingEffectiveAt = none

/-- The subscription is live at Paddle. -/
def World.live (w : World) (subId : String) : Prop :=
  ∃ s, w.paddle.get subId = some s ∧ s.status.isActive

/-- An account with a scheduled change: it is on a plan that is for sale, its subscription is
live, and no other account stores it. -/
structure ScheduledChange (cfg : Config) (email subId : String) (w : World) : Prop where
  stored : (accountOf w.db email).paddleSubscriptionId = some subId
  own : ∀ a ∈ w.db.billingAccounts, a.paddleSubscriptionId = some subId → a.email = email
  pending : (orNull (accountOf w.db email).pendingPlan).isSome
  uncomped : (accountOf w.db email).subscriptionStatus ≠ some "comped"
  priced : ((accountOf w.db email).curPrice cfg).isSome
  live : w.live subId

/-- The account is on the plan it was on, its subscription at the price of that plan, and no
change is scheduled. -/
structure Cancelled (cfg : Config) (email subId : String) (a : BillingAccount) (w : World) :
    Prop where
  plan : (accountOf w.db email).planName = a.planName
  interval : (accountOf w.db email).billingInterval = a.billingInterval
  price : ∃ price, (accountOf w.db email).curPrice cfg = some price ∧
    priceOf w subId = some price
  unscheduled : (accountOf w.db email).Unscheduled

/-! ### Before the cancel -/

variable {email subId : String} {ids : String → Option String} {target : Option String}

theorem World.live.updateSub (h : w.live subId) (id : String) (patch : SubPatch) :
    World.live { w with paddle := w.paddle.updateSub cfg id patch } subId := by
  obtain ⟨s, hs, hactive⟩ := h
  dsimp only [World.live]
  rw [Paddle.updateSub, Paddle.get_setSub, hs, Option.map_some]
  refine ⟨_, rfl, ?_⟩
  split
  · exact cfg.live_patchSub s patch hactive
  · exact hactive

theorem storedSub_eq {db : Db} (hne : email ≠ "") :
    storedSub db email = (accountOf db email).paddleSubscriptionId := by
  rw [storedSub, accountOf_of_ne hne]
  cases accountRow db email <;> rfl

/-- As long as only the sweep has acted: either the change is still scheduled, or it has been
applied at Paddle and in the account. -/
structure BeforeCancel (cfg : Config) (email subId : String) (ids : String → Option String)
    (target : Option String) (w : World) : Prop where
  targets : SameTargets cfg subId ids target w.db
  uncomped : (accountOf w.db email).subscriptionStatus ≠ some "comped"
  live : w.live subId
  priced : ((accountOf w.db email).curPrice cfg).isSome
  applied : (orNull (accountOf w.db email).pendingPlan).isSome ∨
    (accountOf w.db email).Unscheduled ∧ (accountOf w.db email).curPrice cfg = target ∧
      priceOf w subId = target

theorem BeforeCancel.of_untouched (h : BeforeCancel cfg email subId ids target w)
    (hkept : Untouched email (· = subId) w w')
    (htargets : SameTargets cfg subId ids target w'.db) (hlive : w'.live subId) :
    BeforeCancel cfg email subId ids target w' where
  targets := htargets
  uncomped := by
    rw [hkept.1]
    exact h.uncomped
  live := hlive
  priced := by
    rw [hkept.1]
    exact h.priced
  applied := by
    rw [hkept.1, hkept.2 subId rfl]
    exact h.applied

/-- What a reconcile run of the account has read: the subscription at the price. -/
def ReconcilePhase.Mirrors (cfg : Config) (subId price : String) : ReconcilePhase → Prop
  | .comped _ => False
  | .byId _ id => id = subId
  | .live _ sub => ∃ s : PaddleSub, s.status.isActive ∧ s.priceId = some price ∧
      sub = normalizeSub cfg.env s
  | .writing fields =>
    (∃ acct s, fields = heldFields acct (normalizeSub cfg.env s)) ∨
      ∃ s : PaddleSub, s.status.isActive ∧ s.priceId = some price ∧
        fields = liveFields (normalizeSub cfg.env s)
  | _ => True

/-- What the sweep has found out about the account. -/
def SweepPhase.Mirrors (cfg : Config) (email subId : String) (w : World) : SweepPhase → Prop
  | .retargeting _ row _ => row.email = email → (orNull (accountOf w.db email).pendingPlan).isSome
  | .reconciling _ row φ => row.email = email → ∃ price, targetPrice cfg row = some price ∧
      priceOf w subId = some price ∧ φ.Mirrors cfg subId price
  | _ => True

/-- A reconcile run of the account reads the subscription at its price. -/
theorem ReconcileStep.mirrors {φ φ' : ReconcilePhase} {price k : String} {i : Interval}
    (h : ReconcileStep cfg email φ w φ' w') (hφ : φ.Mirrors cfg subId price)
    (hstores : φ.Stores subId) (hempty : subId ≠ "")
    (hstored : (accountOf w.db email).paddleSubscriptionId = some subId)
    (huncomped : (accountOf w.db email).subscriptionStatus ≠ some "comped")
    (hlive : w.live subId) (hsold : paddlePriceIdFor cfg.env k i = some price)
    (hprice : priceOf w subId = some price) : φ'.Mirrors cfg subId price := by
  cases h with
  | readAccount =>
    rw [if_neg huncomped]
    trivial
  | compClock => exact hφ.elim
  | readIds =>
    -- the id is stored, so the subscription is fetched by it
    unfold lookupPhase
    rw [orNull_eq_some_iff.mpr ⟨hstored, hempty⟩]
    rfl
  | @get acct id sub _ h =>
    obtain rfl : id = subId := hφ
    obtain ⟨s, hs, hactive⟩ := hlive
    obtain rfl : sub = s := Option.some.inj (h.symm.trans hs)
    -- the item is on a price that is sold
    have hsub : sub.priceId = some price := by
      rw [priceOf, h] at hprice
      exact hprice
    have hpaid : (normalizeSub cfg.env sub).planName ≠ "free" := by
      rw [planName_normalizeSub_ne_free_iff, PaddleSub.isPaid, hactive, hsub,
        planByPaddlePriceId_isSome hsold]
      rfl
    unfold conclude
    rw [Option.filter_some, if_pos (by simpa using hpaid)]
    exact ⟨sub, hactive, hsub, rfl⟩
  | missing h => trivial
  | findCustomer => exact hstores.elim
  | storeCustomer htx => exact hstores.elim
  | findSub => exact hstores.elim
  | storeSub htx => exact hstores.elim
  | @liveClock acct sub _ =>
    obtain ⟨s, hactive, hsub, rfl⟩ := hφ
    split
    · exact .inl ⟨acct, s, rfl⟩
    · exact .inr ⟨s, hactive, hsub, rfl⟩
  | offer h => exact hφ
  | write htx => trivial
  | fault h => trivial

/-- A live subscription at a price is on the plan and interval sold at it. -/
theorem normalizeSub_of_sold {s : PaddleSub} {price k : String} {i : Interval}
    (hd : cfg.env.PricesDistinct) (hsold : paddlePriceIdFor cfg.env k i = some price)
    (hactive : s.status.isActive) (hprice : s.priceId = some price) :
    (normalizeSub cfg.env s).planName = k ∧ (normalizeSub cfg.env s).interval = some i := by
  obtain ⟨hplan, hinterval⟩ := plan_interval_of_paddlePriceIdFor hd hsold
  simp [normalizeSub, hactive, hprice, hplan, hinterval]

/-- The write of such a run leaves the change scheduled, or applies it. -/
theorem BeforeCancel.write {fields : AccountFields} {db : Db} {price : String}
    (h : BeforeCancel cfg email subId ids target w)
    (htx : setAccountPlanTx email fields w.db = some db) (hne : email ≠ "")
    (hmirrors : (ReconcilePhase.writing fields).Mirrors cfg subId price)
    (hkeeps : fields.KeepsTarget (ids email)) (hd : cfg.env.PricesDistinct) {k : String}
    {i : Interval} (hsold : paddlePriceIdFor cfg.env k i = some price)
    (hprice : priceOf w subId = some price) (htarget : target = some price) :
    BeforeCancel cfg email subId ids target { w with db := db } := by
  have hacct := accountOf_setAccountPlanTx hne htx
  have hstatus : ∀ s : PaddleStatus, s.text ≠ "comped" := fun s => by cases s <;> decide
  have htargets := h.targets.write htx hkeeps
  -- either the columns of the plan are held back, or those of the item are written
  rcases hmirrors with ⟨acct, s, rfl⟩ | ⟨s, hactive, hsub, rfl⟩
  · -- the columns of the plan and the markers stay
    refine ⟨htargets, ?_, h.live, ?_, ?_⟩
    · dsimp only
      rw [hacct]
      exact fun hcomped => hstatus _ (Option.some.inj hcomped)
    · dsimp only
      rw [hacct]
      exact h.priced
    · dsimp only
      rw [hacct]
      rcases h.applied with hpending | ⟨⟨hplan, hinterval, hat⟩, happlied⟩
      · exact .inl hpending
      · exact .inr ⟨⟨hplan, hinterval, hat⟩, happlied⟩
  · -- the account is on the plan of the price
    obtain ⟨hplan, hinterval⟩ := normalizeSub_of_sold hd hsold hactive hsub
    have hcur : (accountOf db email).curPrice cfg = some price := by
      have hcurPlan : (accountOf db email).curPlan = k := by
        rw [hacct, BillingAccount.curPlan]
        change (orNull (some (normalizeSub cfg.env s).planName)).getD "free" = k
        rw [hplan, orNull_eq_some_iff.mpr ⟨rfl, plan_ne_empty_of_paddlePriceIdFor hsold⟩,
          Option.getD_some]
      have hcurInterval : (accountOf db email).curInterval = i := by
        rw [hacct, BillingAccount.curInterval]
        change (normalizeSub cfg.env s).interval.getD .month = i
        rw [hinterval, Option.getD_some]
      rw [BillingAccount.curPrice, hcurPlan, hcurInterval, hsold]
    refine ⟨htargets, ?_, h.live, ?_, .inr ⟨?_, ?_, hprice.trans htarget.symm⟩⟩
    · dsimp only
      rw [hacct]
      exact fun hcomped => hstatus _ (Option.some.inj hcomped)
    · dsimp only
      rw [hcur]
      rfl
    · dsimp only
      rw [hacct]
      exact ⟨rfl, rfl, rfl⟩
    · exact hcur.trans htarget.symm

/-- A run on a stored subscription writes once, at its end. -/
theorem ReconcileStep.db_eq_or_write {φ φ' : ReconcilePhase} {stored : String}
    (h : ReconcileStep cfg email φ w φ' w') (hstores : φ.Stores stored) :
    w'.db = w.db ∨ ∃ fields db, φ = .writing fields ∧
      setAccountPlanTx email fields w.db = some db ∧ w' = { w with db := db } := by
  cases h with
  | storeCustomer htx => exact hstores.elim
  | storeSub htx => exact hstores.elim
  | write htx => exact .inr ⟨_, _, rfl, htx, rfl⟩
  | offer h =>
    cases h with
    | quiet h => exact .inl (by rw [h])
    | account e f db hA => exact hA.elim
    | paddle p hP h => exact .inl (by rw [h])
    | stripe s h => exact .inl (by rw [h])
  | _ => exact .inl rfl

theorem ReconcileStep.live {φ φ' : ReconcilePhase} (h : ReconcileStep cfg email φ w φ' w')
    (hlive : w.live subId) : w'.live subId := by
  cases h with
  | offer h =>
    cases h with
    | quiet h => rwa [h]
    | account e f db hA => exact hA.elim
    | paddle p hP h =>
      obtain ⟨id, d, rfl⟩ := hP
      rw [h]
      exact hlive.updateSub id _
    | stripe s h => rwa [h]
  | _ => exact hlive

theorem World.live.ne_empty (h : w.live subId) : subId ≠ "" := by
  obtain ⟨s, hs, -⟩ := h
  obtain ⟨hmem, hid⟩ := Paddle.get_eq_some_iff.mp hs
  rw [← hid]
  exact w.paddle.id_ne_empty s hmem

section Alone

variable (hids : ids email = some subId) (hown : ∀ e, ids e = some subId → e = email)

include hids in
theorem RowAims.subId_of_email {row : BillingAccount} (h : RowAims cfg subId ids target row)
    (hemail : row.email = email) : row.subId = subId := by
  have hstored := h.stored
  rw [hemail, hids, h.subId_eq] at hstored
  exact (Option.some.inj hstored).symm

include hids in
/-- Once the sweep has read a subscription. -/
theorem SweepStep.mirrors_found {rows : List BillingAccount} {row : BillingAccount}
    {price : String} {sub : PaddleSub} (hw : BeforeCancel cfg email subId ids target w)
    (hrow : RowAims cfg subId ids target row) (hprice : targetPrice cfg row = some price)
    (hget : w.paddle.get row.subId = some sub) :
    (foundPhase cfg rows row price sub).Mirrors cfg email subId w := by
  unfold foundPhase
  split
  · trivial
  rename_i hother
  split
  · split
    · trivial
    intro hemail
    rcases hw.applied with hpending | ⟨-, -, hitem⟩
    · exact hpending
    · -- the item would be at the target
      have hsub := hrow.subId_of_email hids hemail
      have htarget := hrow.aims (by rw [hrow.subId_eq, hsub])
      rw [priceOf, ← hsub, hget, Option.bind_some, ← htarget, hprice] at hitem
      exact absurd (orNull_eq_some_iff.mpr ⟨hitem, paddlePriceIdFor_ne_empty hprice⟩) hother
  · trivial

include hids hown in
/-- What one action of the sweep does to the account, as long as the cancel has not begun. -/
theorem SweepStep.beforeCancel {φ φ' : SweepPhase} (h : SweepStep cfg φ w φ' w')
    (hne : email ≠ "") (hd : cfg.env.PricesDistinct) (hφ : φ.Aims cfg subId ids target)
    (hm : φ.Mirrors cfg email subId w) (hw : BeforeCancel cfg email subId ids target w) :
    BeforeCancel cfg email subId ids target w' ∧ φ'.Mirrors cfg email subId w' := by
  have htargets := (h.aims hφ hw.targets).1
  cases h with
  | selects leadSeconds => exact ⟨hw, trivial⟩
  | skips => exact ⟨hw, trivial⟩
  | finds hrow htarget hget =>
    exact ⟨hw, SweepStep.mirrors_found hids hw (hφ _ hrow) htarget hget⟩
  | @retargets _ rows row periodEnd db htx =>
    refine ⟨?_, trivial⟩
    by_cases hemail : row.email = email
    · -- the period end of the account's own row is set again; its markers are there
      have hpending := hm hemail
      rw [hemail] at htx
      have hacct := accountOf_setAccountPlanTx hne htx
      refine ⟨htargets, ?_, hw.live, ?_, .inl ?_⟩
      · dsimp only
        rw [hacct]
        exact hw.uncomped
      · dsimp only
        rw [hacct]
        exact hw.priced
      · dsimp only
        rw [hacct]
        exact hpending
    · exact hw.of_untouched
        ⟨accountOf_setAccountPlanTx_of_ne (Ne.symm hemail) htx, fun _ _ => rfl⟩ htargets hw.live
  | retargetFails => exact ⟨hw, trivial⟩
  | @updates _ rows row patch h =>
    obtain ⟨hrows, hrow, -, price, hprice, hpatch⟩ := hφ
    have haims := hrows row hrow
    -- the sweep puts the item on the price of the target
    have hitem : row.subId = subId →
        priceOf { w with paddle := w.paddle.updateSub cfg row.subId patch } subId = some price := by
      rintro rfl
      exact priceOf_updated hpatch h
    refine ⟨⟨htargets, hw.uncomped, hw.live.updateSub _ _, hw.priced, ?_⟩, ?_⟩
    · rcases hw.applied with hpending | ⟨hunscheduled, hcur, happlied⟩
      · exact .inl hpending
      refine .inr ⟨hunscheduled, hcur, ?_⟩
      by_cases hsub : row.subId = subId
      · rw [hitem hsub, ← haims.aims (by rw [haims.subId_eq, hsub]), hprice]
      · exact (priceOf_updateSub (.inl (Ne.symm hsub))).trans happlied
    · split
      · trivial
      · exact fun hemail => ⟨price, hprice, hitem (haims.subId_of_email hids hemail), trivial⟩
  | updateFails h => exact ⟨hw, trivial⟩
  | @reconciles _ _ rows row φ φ' h =>
    obtain ⟨hrows, hrow, -, -, hstores⟩ := hφ
    have haims := hrows row hrow
    have hpriceOf := h.priceOf_eq subId
    have hlive := h.live hw.live
    by_cases hemail : row.email = email
    · -- the run that follows the update reads the new item
      obtain ⟨price, hprice, hitem, hmirrors⟩ := hm hemail
      have hsub := haims.subId_of_email hids hemail
      have htarget : target = some price := by
        rw [← haims.aims (by rw [haims.subId_eq, hsub]), hprice]
      rw [hemail] at h
      rw [hsub] at hstores
      have hstored : (accountOf w.db email).paddleSubscriptionId = some subId := by
        rw [← storedSub_eq hne, hw.targets.stored, hids]
      have hmirrors' := h.mirrors hmirrors hstores hw.live.ne_empty hstored hw.uncomped hw.live
        hprice hitem
      refine ⟨?_, ?_⟩
      · rcases h.db_eq_or_write hstores with hdb | ⟨fields, db, rfl, htx, rfl⟩
        · exact hw.of_untouched ⟨by rw [hdb], fun id _ => h.priceOf_eq id⟩ htargets hlive
        · exact hw.write htx hne hmirrors (hids ▸ hstores) hd hprice hitem htarget
      · cases φ' with
        | done => trivial
        | _ => exact fun _ => ⟨price, hprice, hpriceOf.trans hitem, hmirrors'⟩
    · -- another account's row
      have hkept : Untouched email (· = subId) w w' := by
        refine ⟨?_, fun id _ => h.priceOf_eq id⟩
        rcases h.db_eq_or_write hstores with hdb | ⟨fields, db, -, htx, rfl⟩
        · rw [hdb]
        · exact accountOf_setAccountPlanTx_of_ne (Ne.symm hemail) htx
      refine ⟨hw.of_untouched hkept htargets hlive, ?_⟩
      cases φ' with
      | done => trivial
      | _ => exact fun h => absurd h hemail

end Alone

/-! ### From the cancel's first action -/

/-- What the cancel has read, and what it has left to do. `a` is the account as it was when
the cancel began. -/
def CancelPhase.Knows (cfg : Config) (email subId : String) (a : BillingAccount) (price : String)
    (w : World) : CancelPhase → Prop
  | .start => False
  | .loaded c => c = a.context email subId ∧ accountOf w.db email = a ∧
      (orNull a.pendingPlan = none → a.Unscheduled ∧ priceOf w subId = some price)
  | .pending c => c = a.context email subId ∧ accountOf w.db email = a
  | .restoring c p => c = a.context email subId ∧ accountOf w.db email = a ∧ p = price
  | .clearing c => c = a.context email subId ∧ accountOf w.db email = a ∧
      priceOf w subId = some price
  | .resolved => Cancelled cfg email subId a w
  | .rejected => True

variable {a : BillingAccount} {price : String}

theorem CancelPhase.Knows.of_untouched {ψ : CancelPhase} (h : ψ.Knows cfg email subId a price w)
    (hkept : Untouched email (· = subId) w w') : ψ.Knows cfg email subId a price w' := by
  have hacct := hkept.1
  have hprice := hkept.2 subId rfl
  cases ψ with
  | start => exact h
  | loaded c => exact ⟨h.1, hacct.trans h.2.1, fun hnone => by rw [hprice]; exact h.2.2 hnone⟩
  | pending c => exact ⟨h.1, hacct.trans h.2⟩
  | restoring c p => exact ⟨h.1, hacct.trans h.2.1, h.2.2⟩
  | clearing c => exact ⟨h.1, hacct.trans h.2.1, hprice.trans h.2.2⟩
  | resolved => exact ⟨by rw [hacct]; exact h.plan, by rw [hacct]; exact h.interval,
      by rw [hacct, hprice]; exact h.price, by rw [hacct]; exact h.unscheduled⟩
  | rejected => trivial

/-- The account alone names the subscription. -/
def OwnsSub (email subId : String) (db : Db) : Prop :=
  ∀ e, storedSub db e = some subId → e = email

theorem OwnsSub.of_accounts {db db' : Db} (h : OwnsSub email subId db)
    (haccounts : db'.billingAccounts = db.billingAccounts) : OwnsSub email subId db' := by
  intro e he
  rw [storedSub, accountRow, haccounts] at he
  exact h e he

/-- One action of the cancel. -/
theorem CancelStep.knows {ψ ψ' : CancelPhase} (h : CancelStep cfg auth ψ w ψ' w')
    (hne : email ≠ "") (hcur : a.curPrice cfg = some price)
    (hψ : ψ.Knows cfg email subId a price w) :
    ψ'.Knows cfg email subId a price w' := by
  cases h with
  | loads => exact hψ.elim
  | readsMarkers =>
    obtain ⟨rfl, hacct, hunscheduled⟩ := hψ
    have hread : accountOf w.db (a.context email subId).email = a := hacct
    rw [hread, markerPhase]
    -- without markers there is nothing to take back
    split
    · rename_i hnone
      obtain ⟨hnone, hprice⟩ := hunscheduled hnone
      exact ⟨by rw [hacct], by rw [hacct], ⟨price, by rw [hacct, hcur], hprice⟩, by rwa [hacct]⟩
    · exact ⟨rfl, hacct⟩
  | @gets c sub _ h =>
    obtain ⟨rfl, hacct⟩ := hψ
    -- the price at the provider, against the one that the account is on
    have hprice : priceOf w subId = sub.priceId := by
      rw [priceOf]
      exact (congrArg (Option.bind · _) h).trans rfl
    unfold restorePhase
    dsimp only [BillingAccount.context]
    rw [← BillingAccount.curPrice, hcur]
    dsimp only
    split
    · exact ⟨rfl, hacct, rfl⟩
    · rename_i hsame
      have hsub : orNull sub.priceId = some price := by
        by_contra hne
        exact hsame hne
      exact ⟨rfl, hacct, hprice.trans (orNull_eq_some_iff.mp hsub).1⟩
  | restores h =>
    obtain ⟨rfl, hacct, rfl⟩ := hψ
    exact ⟨rfl, hacct, priceOf_updated rfl h⟩
  | clears htx =>
    obtain ⟨rfl, hacct, hprice⟩ := hψ
    -- the write that clears the markers keeps the plan
    have hcleared := accountOf_setAccountPlanTx hne htx
    rw [hacct] at hcleared
    refine ⟨?_, ?_, ⟨price, ?_, hprice⟩, ?_⟩
    · dsimp only
      rw [hcleared]
      rfl
    · dsimp only
      rw [hcleared]
      rfl
    · dsimp only
      rw [hcleared]
      exact hcur
    · dsimp only
      rw [hcleared]
      exact ⟨rfl, rfl, rfl⟩
  | refuses => trivial

/-- The cancel stores no subscription. -/
theorem CancelStep.ownsSub {ψ ψ' : CancelPhase} (h : CancelStep cfg auth ψ w ψ' w')
    (hown : OwnsSub email subId w.db) : OwnsSub email subId w'.db := by
  cases h with
  | clears htx =>
    intro e he
    rw [storedSub_setAccountPlanTx htx] at he
    split at he
    · rename_i hemail
      rw [hemail]
      exact hown _ he
    · exact hown e he
  | _ => exact hown

/-- The first action of a sweep selects its rows. -/
theorem sweep_first {leadSeconds : Time} {ready : World → Bool} {next : World → World}
    {cont : World → Handler Unit}
    (h : applyDuePendingChanges cfg leadSeconds = .act ready next cont) (w : World) :
    next w = w ∧ cont w =
      (w.db.billingAccounts.rows.filter (·.isDue w.now leadSeconds)).forM fun row =>
        tryCatch (applyDueChange cfg row) fun _ => pure () := by
  unfold applyDuePendingChanges at h
  split at h
  · cases h
  · cases h
    exact ⟨rfl, rfl⟩

/-- A sweep that begins when no change is scheduled leaves the account and its subscription
alone. -/
theorem within_sweep {leadSeconds : Time} (hne : email ≠ "") (hown : OwnsSub email subId w.db)
    (hunscheduled : (accountOf w.db email).pendingPlan = none) :
    Prog.Within (Untouched email (· = subId))
      ((w.db.billingAccounts.rows.filter (·.isDue w.now leadSeconds)).forM fun row =>
        tryCatch (applyDueChange cfg row) fun _ => pure () : Handler Unit) := by
  refine .forM fun row hrow => .tryCatch ?_ fun _ => .pure _
  obtain ⟨hmem, hdue⟩ := List.mem_filter.mp hrow
  have hother := email_ne_of_isDue hne hunscheduled hmem hdue
  refine within_applyDueChange hother fun hsub => hother (hown row.email ?_)
  simp only [BillingAccount.isDue, Bool.and_eq_true] at hdue
  obtain ⟨id, hid⟩ := Option.isSome_iff_exists.mp hdue.1.2
  rw [storedSub_of_mem hmem, hid]
  rw [hid, Option.getD_some] at hsub
  rw [hsub]

/-! ### Runs -/

theorem cancels_handler (cfg : Config) (auth : AuthData) :
    Cancels cfg auth (fun _ => .resolved) .start ((planSystem cfg).handler (.cancel auth)) :=
  cancels_bind cancels_cancelScheduledChange fun _ => cancels_pure ()

theorem KeepsBilling.untouched (h : KeepsBilling w w') : Untouched email (· = subId) w w' := by
  refine ⟨?_, fun id _ => ?_⟩
  · rw [accountOf, accountOf, accountRow, accountRow, h.accounts]
  · rw [priceOf, priceOf, h.paddle]

theorem ScheduledChange.ownsSub (h : ScheduledChange cfg email subId w) :
    OwnsSub email subId w.db := by
  intro e he
  obtain ⟨a, ha, hsub⟩ := Option.bind_eq_some_iff.mp he
  obtain ⟨hmem, hemail⟩ := accountRow_eq_some_iff.mp ha
  rw [← hemail]
  exact h.own a hmem hsub

theorem ScheduledChange.email_ne (h : ScheduledChange cfg email subId w) : email ≠ "" := by
  rintro rfl
  have hstored := h.stored
  rw [accountOf_empty] at hstored
  cases hstored

theorem ScheduledChange.oneTarget (h : ScheduledChange cfg email subId w) :
    OneTarget cfg subId w.db := by
  intro a ha b hb _ _ hsubA hsubB
  have hrowA := accountRow_eq_some_iff.mpr ⟨ha, h.own a ha hsubA⟩
  have hrowB := accountRow_eq_some_iff.mpr ⟨hb, h.own b hb hsubB⟩
  rw [Option.some.inj (hrowA.symm.trans hrowB)]

variable {leadSeconds : Time} {w₀ : World} {P Q : PlanPool}

/-- A sweep with what it has found out, while the cancel has not begun. -/
def SweepingAlone (cfg : Config) (auth : AuthData) (leadSeconds : Time) (subId : String)
    (target : Option String) (w₀ : World) (P : PlanPool) : Prop :=
  ∃ prog φ, P.calls = [called cfg w₀ (.cancel auth), ⟨.sweep leadSeconds, w₀, prog⟩] ∧
    Follows (SweepStep cfg) SweepDone φ prog ∧
    BeforeCancel cfg auth.email subId (storedSub w₀.db) target P.state ∧
    φ.Aims cfg subId (storedSub w₀.db) target ∧ φ.Mirrors cfg auth.email subId P.state

theorem sweepingAlone_of_run (hd : cfg.env.PricesDistinct)
    (hsched : ScheduledChange cfg auth.email subId w₀)
    (htargets : SameTargets cfg subId (storedSub w₀.db) target w₀.db)
    (h : (planSystem cfg).Run (fun _ Q => SweepApart cfg auth.email subId Q ∧
      Q.calls[0]? = some (called cfg w₀ (.cancel auth))) (bothCalled cfg auth leadSeconds w₀) P) :
    SweepingAlone cfg auth leadSeconds subId target w₀ P := by
  have hne := hsched.email_ne
  have hids : storedSub w₀.db auth.email = some subId := (storedSub_eq hne).trans hsched.stored
  induction h with
  | refl =>
    have hbefore : BeforeCancel cfg auth.email subId (storedSub w₀.db) target w₀ :=
      ⟨htargets, hsched.uncomped, hsched.live, hsched.priced, .inl hsched.pending⟩
    exact ⟨_, .start, rfl, follows_applyDuePendingChanges leadSeconds, hbefore, trivial, trivial⟩
  | @tail R R' _ hstep ih =>
    obtain ⟨prog, φ, hcalls, hfollows, hbefore, haims, hmirrors⟩ := ih
    obtain ⟨⟨m, hm⟩, hapart, hidle⟩ := hstep
    rcases System.move_eq hm with
      ⟨r, -, rfl⟩ | ⟨e, -, rfl⟩ | ⟨i, c, ready, next, cont, -, hc, hprog, hready, rfl⟩
    · -- there are no other calls
      have htwo := hapart.two
      rw [hcalls] at htwo
      simp at htwo
    · -- the environment keeps the account and its subscription
      have hkeeps := e.2 R.state
      refine ⟨prog, φ, hcalls, hfollows, hbefore.of_untouched hkeeps.untouched
        (hbefore.targets.of_accounts hkeeps.accounts) ?_, haims, ?_⟩
      · obtain ⟨s, hs, hactive⟩ := hbefore.live
        exact ⟨s, by rw [← hs, ← hkeeps.paddle]; rfl, hactive⟩
      · have hkept : Untouched auth.email (· = subId) R.state ((planSystem cfg).env e R.state) :=
          hkeeps.untouched
        cases φ with
        | retargeting rows row periodEnd =>
          intro hemail
          dsimp only
          rw [hkept.1]
          exact hmirrors hemail
        | reconciling rows row φ =>
          intro hemail
          obtain ⟨price, hprice, hitem, hread⟩ := hmirrors hemail
          exact ⟨price, hprice, (hkept.2 subId rfl).trans hitem, hread⟩
        | _ => trivial
    · rw [hcalls] at hc hidle ⊢
      match i, hc with
      | 0, hc =>
        -- the cancel would no longer stand at its beginning
        cases hc
        have hback : cont R.state = .act ready next cont :=
          (congrArg Call.prog (Option.some.inj hidle)).trans hprog
        exact absurd hback (Prog.Rest.single R.state).ne
      | 1, hc =>
        cases hc
        obtain rfl : prog = .act ready next cont := hprog
        obtain ⟨φ', hT, hcont⟩ := hfollows R.state hready
        obtain ⟨hbefore', hmirrors'⟩ :=
          hT.beforeCancel hids hsched.ownsSub hne hd haims hmirrors hbefore
        exact ⟨_, φ', rfl, hcont, hbefore', (hT.aims haims hbefore.targets).2, hmirrors'⟩

/-- From the cancel's first action on: what the cancel knows, and that the sweep has not begun
or is done with the account. A cancel that has thrown promises nothing. -/
def CancelBegun (cfg : Config) (auth : AuthData) (leadSeconds : Time) (subId : String)
    (a : BillingAccount) (price : String) (w₀ : World) (P : PlanPool) : Prop :=
  ∃ prog prog' ψ, P.calls = [⟨.cancel auth, w₀, prog⟩, ⟨.sweep leadSeconds, w₀, prog'⟩] ∧
    Prog.Rest prog ((planSystem cfg).handler (.cancel auth)) ∧
    Cancels cfg auth (fun _ => .resolved) ψ prog ∧
    ((∃ e, prog = .fail e) ∨ ψ.Knows cfg auth.email subId a price P.state ∧
      (prog' = applyDuePendingChanges cfg leadSeconds ∧ OwnsSub auth.email subId P.state.db ∨
        Prog.Within (Untouched auth.email (· = subId)) prog'))

theorem cancelBegun_of_run {a : BillingAccount} {price : String} (hne : auth.email ≠ "")
    (hcur : a.curPrice cfg = some price)
    (hP : CancelBegun cfg auth leadSeconds subId a price w₀ P)
    (h : (planSystem cfg).Run (fun _ Q => SweepApart cfg auth.email subId Q) P Q) :
    CancelBegun cfg auth leadSeconds subId a price w₀ Q := by
  induction h with
  | refl => exact hP
  | @tail R R' _ hstep ih =>
    obtain ⟨prog, prog', ψ, hcalls, hrest, hfollows, hknows⟩ := ih
    obtain ⟨⟨m, hm⟩, hapart⟩ := hstep
    rcases System.move_eq hm with
      ⟨r, -, rfl⟩ | ⟨e, -, rfl⟩ | ⟨i, c, ready, next, cont, -, hc, hprog, hready, rfl⟩
    · -- there are no other calls
      have htwo := hapart.two
      rw [hcalls] at htwo
      simp at htwo
    · have hkeeps := e.2 R.state
      refine ⟨prog, prog', ψ, hcalls, hrest, hfollows, hknows.imp_right fun ⟨hψ, hsweep⟩ => ?_⟩
      exact ⟨hψ.of_untouched hkeeps.untouched,
        hsweep.imp_left fun ⟨hstart, hown⟩ => ⟨hstart, hown.of_accounts hkeeps.accounts⟩⟩
    · rw [hcalls] at hc
      match i, hc with
      | 0, hc =>
        -- the cancel acts
        cases hc
        obtain rfl : prog = .act ready next cont := hprog
        obtain ⟨ψ', hT, hcont⟩ := hfollows R.state hready
        obtain ⟨hψ, hsweep⟩ := hknows.resolve_left nofun
        refine ⟨_, prog', ψ', by rw [hcalls]; rfl, hrest.head R.state, hcont, .inr ⟨?_, ?_⟩⟩
        · exact hT.knows hne hcur hψ
        · exact hsweep.imp_left fun ⟨hstart, hown⟩ => ⟨hstart, hT.ownsSub hown⟩
      | 1, hc =>
        -- the sweep acts
        cases hc
        obtain rfl : prog' = .act ready next cont := hprog
        have hset : R.calls.set 1 ⟨.sweep leadSeconds, w₀, cont R.state⟩ =
            [⟨.cancel auth, w₀, prog⟩, ⟨.sweep leadSeconds, w₀, cont R.state⟩] := by
          rw [hcalls]
          rfl
        refine ⟨prog, _, ψ, hset, hrest, hfollows, ?_⟩
        rcases hknows with hfail | ⟨hψ, ⟨hstart, hown⟩ | hwithin⟩
        · exact .inl hfail
        · obtain ⟨hsame, hrows⟩ := sweep_first hstart.symm R.state
          cases hp : prog with
          | fail e => exact .inl ⟨e, rfl⟩
          | ret u =>
            -- the markers are gone, so the account is not selected
            rw [hp] at hfollows
            have hresolved : ψ = .resolved := hfollows u rfl
            rw [hresolved] at hψ ⊢
            refine .inr ⟨by rwa [hsame], .inr ?_⟩
            rw [hrows]
            exact within_sweep hne hown hψ.unscheduled.plan
          | act ready' next' cont' =>
            have hunderWay : (planSystem cfg).UnderWay ⟨.cancel auth, w₀, prog⟩ :=
              ⟨by rw [hp]; rfl, hrest⟩
            have hoff := hapart.apart _ _ (congrArg (·[0]?) hset) (congrArg (·[1]?) hset) hunderWay
            exact .inr ⟨by rwa [hsame], hoff.imp_left fun hstart => ⟨hstart, by rwa [hsame]⟩⟩
        · exact .inr ⟨hψ.of_untouched (hwithin R.state).1, .inr (hwithin R.state).2⟩

/-- The first action of the cancel reads the account. -/
theorem cancelBegun_of_first {price : String} (hsched : ScheduledChange cfg auth.email subId w₀)
    (halone : SweepingAlone cfg auth leadSeconds subId target w₀ P)
    (hcur : (accountOf P.state.db auth.email).curPrice cfg = some price)
    (hm : (planSystem cfg).move P (.run 0) = some Q) (hapart : SweepApart cfg auth.email subId Q) :
    CancelBegun cfg auth leadSeconds subId (accountOf P.state.db auth.email) price w₀ Q := by
  have hne := hsched.email_ne
  obtain ⟨prog', φ, hcalls, -, hP, -, -⟩ := halone
  have hown : OwnsSub auth.email subId P.state.db := fun e he =>
    hsched.ownsSub e (by rwa [← hP.targets.stored])
  have hstored : (accountOf P.state.db auth.email).paddleSubscriptionId = some subId := by
    rw [← storedSub_eq hne, hP.targets.stored, storedSub_eq hne, hsched.stored]
  rcases System.move_eq hm with
    ⟨r, hr, -⟩ | ⟨e, he, -⟩ | ⟨i, c, ready, next, cont, hi, hc, hprog, hready, rfl⟩
  · cases hr
  · cases he
  cases hi
  rw [hcalls] at hc
  cases hc
  have hset : P.calls.set 0 ⟨.cancel auth, w₀, cont P.state⟩ =
      [⟨.cancel auth, w₀, cont P.state⟩, ⟨.sweep leadSeconds, w₀, prog'⟩] := by
    rw [hcalls]
    rfl
  have hhandler : (planSystem cfg).handler (.cancel auth) = .act ready next cont := hprog
  have hrest : Prog.Rest (cont P.state) ((planSystem cfg).handler (.cancel auth)) := by
    rw [hhandler]
    exact .single P.state
  have hfollows := cancels_handler cfg auth
  rw [hhandler] at hfollows
  obtain ⟨ψ, hT, hcont⟩ := hfollows P.state hready
  refine ⟨cont P.state, prog', ψ, hset, hrest, hcont, ?_⟩
  -- the first step of the cancel reads the account
  obtain ⟨hsame, hψ, hnot⟩ : next P.state = P.state ∧
      ψ.Knows cfg auth.email subId (accountOf P.state.db auth.email) price P.state ∧
        ψ ≠ .resolved := by
    generalize next P.state = s at hT
    cases hT with
    | refuses => exact ⟨rfl, trivial, nofun⟩
    | loads =>
      rw [loadPhase, orNull_eq_some_iff.mpr ⟨hstored, hP.live.ne_empty⟩]
      dsimp only
      rw [if_neg hP.uncomped]
      refine ⟨rfl, ⟨rfl, rfl, fun hnone => ?_⟩, nofun⟩
      rcases hP.applied with hpending | ⟨hunscheduled, htarget, hprice⟩
      · rw [hnone] at hpending
        cases hpending
      · exact ⟨hunscheduled, by rw [hprice, ← htarget, hcur]⟩
  cases hp : cont P.state with
  | fail e => exact .inl ⟨e, rfl⟩
  | ret u =>
    rw [hp] at hcont
    exact absurd (hcont u rfl) hnot
  | act ready' next' cont' =>
    -- the cancel is under way, so the sweep has not begun or has ended
    have hunderWay : (planSystem cfg).UnderWay ⟨.cancel auth, w₀, cont P.state⟩ :=
      ⟨by rw [hp]; rfl, hrest⟩
    have hoff := hapart.apart _ _ (congrArg (·[0]?) hset) (congrArg (·[1]?) hset) hunderWay
    exact .inr ⟨by rwa [hsame], hoff.imp_left fun hstart => ⟨hstart, by rwa [hsame]⟩⟩

/-- When a cancel and a sweep run at once and the sweep does not hold the account while the
cancel is under way, a cancel that resolves leaves the account on the plan it was on when the
cancel began, the subscription at the price of that plan, and no change scheduled; whatever
the sweep does later, it stays so. -/
theorem cancelled_of_run (hd : cfg.env.PricesDistinct)
    (hsched : ScheduledChange cfg auth.email subId w₀)
    (h : (planSystem cfg).Run (fun _ Q => SweepApart cfg auth.email subId Q)
      (bothCalled cfg auth leadSeconds w₀) Q)
    {c : PlanCall} (hc : Q.calls[0]? = some c) (hok : c.outcome = some (.ok ())) :
    ∃ P P' : PlanPool,
      (planSystem cfg).Run (fun _ Q => SweepApart cfg auth.email subId Q)
        (bothCalled cfg auth leadSeconds w₀) P ∧
      P.calls[0]? = some (called cfg w₀ (.cancel auth)) ∧
      (planSystem cfg).move P (.run 0) = some P' ∧
      (planSystem cfg).Run (fun _ Q => SweepApart cfg auth.email subId Q) P' Q ∧
      Cancelled cfg auth.email subId (accountOf P.state.db auth.email) Q.state := by
  have hne := hsched.email_ne
  have hids : storedSub w₀.db auth.email = some subId := (storedSub_eq hne).trans hsched.stored
  -- a call that has only arrived has no result
  have hmoved : Q.calls[0]? ≠ some (called cfg w₀ (.cancel auth)) := by
    intro hidle
    obtain rfl : called cfg w₀ (.cancel auth) = c := Option.some.inj (hidle.symm.trans hc)
    have hstart := cancels_handler cfg auth
    change Call.outcome ⟨_, w₀, (planSystem cfg).handler (.cancel auth)⟩ = _ at hok
    cases hp : (planSystem cfg).handler (.cancel auth) with
    | ret u =>
      rw [hp] at hstart
      cases hstart u rfl
    | fail e =>
      rw [hp] at hok
      cases hok
    | act ready next cont =>
      rw [hp] at hok
      cases hok
  obtain ⟨P, P', hbefore, hidle, hm, hapart, hafter⟩ :=
    System.exists_first_move h (c := called cfg w₀ (.cancel auth)) rfl hmoved
  obtain ⟨target, htargets⟩ := exists_sameTargets hsched.oneTarget
  -- up to the first step of the cancel only the sweep moves, and afterwards they stay apart
  have halone := sweepingAlone_of_run hd hsched htargets hbefore
  obtain ⟨price, hcur⟩ : ∃ price, (accountOf P.state.db auth.email).curPrice cfg = some price := by
    obtain ⟨_, _, -, -, hP, -, -⟩ := halone
    exact Option.isSome_iff_exists.mp hP.priced
  have hbegun := cancelBegun_of_run hne hcur
    (cancelBegun_of_first hsched halone hcur hm hapart) hafter
  have hrun : (planSystem cfg).Run (fun _ Q => SweepApart cfg auth.email subId Q)
      (bothCalled cfg auth leadSeconds w₀) P :=
    Relation.ReflTransGen.mono (fun _ _ hstep => ⟨hstep.1, hstep.2.1⟩) _ _ hbefore
  refine ⟨P, P', hrun, hidle, hm, hafter, ?_⟩
  obtain ⟨prog, prog', ψ, hcalls, -, hfollows, hknows⟩ := hbegun
  rw [hcalls] at hc
  cases hc
  cases hp : prog with
  | ret u =>
    rw [hp] at hfollows hknows
    have hresolved : ψ = .resolved := hfollows u rfl
    rw [hresolved] at hknows
    exact (hknows.resolve_left nofun).1
  | fail e =>
    rw [hp] at hok
    cases hok
  | act ready next cont =>
    rw [hp] at hok
    cases hok

/-! ### Ada changes her mind near the renewal -/

/-- An hour before the renewal at which Ada's downgrade to Pro takes effect. -/
def adaDue : World := { downgradeScheduled with now := 30 * daySeconds - 3600 }

theorem scheduledChange_adaDue : ScheduledChange .paddleDemo "ada@example.com" "sub_2" adaDue where
  stored := rfl
  own a ha _ := by
    have hrows : adaDue.db.billingAccounts.rows = [accountOf adaDue.db "ada@example.com"] := rfl
    rw [Sql.Table.mem_def, hrows, List.mem_singleton] at ha
    rw [ha, accountOf_email]
  pending := rfl
  uncomped := by decide
  priced := rfl
  live := ⟨_, rfl, rfl⟩

def PlanCall.resolved (c : PlanCall) : Bool :=
  match c.prog with
  | .ret _ => true
  | _ => false

theorem PlanCall.outcome_of_resolved {c : PlanCall} (h : c.resolved = true) :
    c.outcome = some (.ok ()) := by
  obtain ⟨r, since, p⟩ := c
  cases p with
  | ret a => rfl
  | fail e => cases h
  | act ready next cont => cases h

/-- The cancel acts while the sweep has not begun. -/
theorem apart_of_idle {c : PlanCall} (h : P.calls = [c, called cfg w₀ (.sweep leadSeconds)]) :
    SweepApart cfg email subId P := by
  refine ⟨by rw [h]; rfl, fun d d' _ hd' _ => .inl ?_⟩
  rw [h] at hd'
  cases hd'
  rfl

theorem apart_of_resolved {b : Bool} (h : P.calls.map PlanCall.resolved = [true, b]) :
    SweepApart cfg email subId P := by
  refine ⟨by simpa using congrArg List.length h, fun c d hc _ hunderWay => ?_⟩
  have hresolved : (P.calls.map PlanCall.resolved)[0]? = some true := by
    rw [h]
    rfl
  rw [List.getElem?_map, hc] at hresolved
  have hout := PlanCall.outcome_of_resolved (Option.some.inj hresolved)
  rw [hunderWay.1] at hout
  cases hout

theorem run_cancel {n : Nat} {c : PlanCall}
    (hP : P.calls = [c, called cfg w₀ (.sweep leadSeconds)])
    (h : (planSystem cfg).schedule P (List.replicate n (.run 0)) = some Q) :
    (planSystem cfg).Run (fun _ Q => SweepApart cfg email subId Q) P Q ∧
      ∃ d, Q.calls = [d, called cfg w₀ (.sweep leadSeconds)] := by
  induction n generalizing P c with
  | zero =>
    cases h
    exact ⟨.refl, c, hP⟩
  | succ n ih =>
    obtain ⟨R, hm, hrest⟩ := Option.bind_eq_some_iff.mp h
    obtain ⟨d, hR⟩ : ∃ d, R.calls = [d, called cfg w₀ (.sweep leadSeconds)] := by
      rcases System.move_eq hm with
        ⟨r, hr, -⟩ | ⟨e, he, -⟩ | ⟨i, c', _, _, cont, hi, hc', -, -, rfl⟩
      · cases hr
      · cases he
      · cases hi
        exact ⟨_, by rw [hP]; rfl⟩
    obtain ⟨hrun, hQ⟩ := ih hR hrest
    exact ⟨.head ⟨⟨_, hm⟩, apart_of_idle hR⟩ hrun, hQ⟩

/-- The cancel runs first, and the sweep then finds nothing due. -/
theorem cancelled_of_run_adaDue : ∃ Q : PlanPool,
    (planSystem .paddleDemo).Run (fun _ Q => SweepApart .paddleDemo "ada@example.com" "sub_2" Q)
      (bothCalled .paddleDemo adaOwner (6 * 3600) adaDue) Q ∧
    Q.calls.map PlanCall.resolved = [true, true] ∧
    ∃ P, (planSystem .paddleDemo).Run
        (fun _ Q => SweepApart .paddleDemo "ada@example.com" "sub_2" Q)
        (bothCalled .paddleDemo adaOwner (6 * 3600) adaDue) P ∧
      P.calls[0]? = some (called .paddleDemo adaDue (.cancel adaOwner)) ∧
      Cancelled .paddleDemo "ada@example.com" "sub_2" (accountOf P.state.db "ada@example.com")
        Q.state := by
  let cancel := (planSystem .paddleDemo).schedule
    (bothCalled .paddleDemo adaOwner (6 * 3600) adaDue) (List.replicate 5 (.run 0))
  have hboth : cancel.bind (fun Q => ((planSystem .paddleDemo).move Q (.run 1)).map fun R =>
      R.calls.map PlanCall.resolved) = some [true, true] := by decide +kernel
  -- the cancel runs to its end before the sweep begins
  obtain ⟨Q, hcancel, hsweep⟩ := Option.bind_eq_some_iff.mp hboth
  obtain ⟨R, hm, hresolved⟩ := Option.map_eq_some_iff.mp hsweep
  have hQ : (planSystem .paddleDemo).Run
      (fun _ Q => SweepApart .paddleDemo "ada@example.com" "sub_2" Q)
      (bothCalled .paddleDemo adaOwner (6 * 3600) adaDue) Q := (run_cancel rfl hcancel).1
  have hR := hQ.tail ⟨⟨_, hm⟩, apart_of_resolved hresolved⟩
  obtain ⟨c, hc⟩ : ∃ c, R.calls[0]? = some c := by
    have hlength := congrArg List.length hresolved
    rw [List.length_map] at hlength
    exact ⟨_, List.getElem?_eq_getElem (by rw [hlength]; decide)⟩
  have hok : c.outcome = some (.ok ()) := by
    have hfirst : (R.calls.map PlanCall.resolved)[0]? = some true := by
      rw [hresolved]
      rfl
    rw [List.getElem?_map, hc] at hfirst
    exact PlanCall.outcome_of_resolved (Option.some.inj hfirst)
  have hsched : ScheduledChange .paddleDemo adaOwner.email "sub_2" adaDue := scheduledChange_adaDue
  obtain ⟨P, P', hbefore, hidle, hfirst, -, hcancelled⟩ :=
    cancelled_of_run (by decide) hsched hR hc hok
  exact ⟨R, hR, hresolved, P, hbefore, hidle, hcancelled⟩

/-- The sweep selects Ada's row, the cancel puts the item back and clears the markers, and the
sweep then moves the subscription to the plan she declined. -/
theorem sweep_applies_cancelled_change :
    ScheduledChange .paddleDemo "ada@example.com" "sub_2" adaDue ∧
    (accountOf adaDue.db "ada@example.com").isDue adaDue.now (6 * 3600) = true ∧
    (accountOf adaDue.db "ada@example.com").planName = "business" ∧
    ∃ Q : PlanPool, (planSystem .paddleDemo).Run (fun _ _ => True)
        (bothCalled .paddleDemo adaOwner (6 * 3600) adaDue) Q ∧
      Q.calls.map PlanCall.resolved = [true, true] ∧
      priceOf Q.state "sub_2" = some "pri_pro" ∧
      ¬ Cancelled .paddleDemo "ada@example.com" "sub_2" (accountOf adaDue.db "ada@example.com")
        Q.state := by
  let both := (planSystem .paddleDemo).schedule
    (bothCalled .paddleDemo adaOwner (6 * 3600) adaDue)
    (.run 1 :: List.replicate 5 (.run 0) ++ List.replicate 8 (.run 1))
  have hboth : both.map (fun Q => (Q.calls.map PlanCall.resolved, priceOf Q.state "sub_2",
      (accountOf Q.state.db "ada@example.com").planName)) =
        some ([true, true], some "pri_pro", "pro") := by decide +kernel
  obtain ⟨Q, hrun, hQ⟩ := Option.map_eq_some_iff.mp hboth
  obtain ⟨hresolved, hQ⟩ := Prod.mk.inj hQ
  obtain ⟨hprice, hplan⟩ := Prod.mk.inj hQ
  refine ⟨scheduledChange_adaDue, by decide, rfl, Q, System.run_of_schedule hrun, hresolved, hprice,
    fun hcancelled => ?_⟩
  have hkept := hcancelled.plan
  rw [hplan] at hkept
  exact absurd hkept (by decide)

end Feedbase
