import Feedbase.Admin.Accounts
import Feedbase.Billing.Steps
import Feedbase.Billing.StripeEvents

/-!
# A comp and the webhooks of the subscription it replaced

`reconcileAccount` leaves an unexpired comp alone. A webhook does not look: any event
of the account's old subscription that is written ends the comp, the one its own
cancellation causes included. So a comp stands until it ends exactly when no such
event is written before.

## Main definitions

* `AfterGrant` — what may happen to the account once the comp has been granted
* `StandsThroughout`, `Undisturbed`

## Main results

* `accounts_reconcileAccount` — reconciliation leaves an unexpired comp alone
* `standsThroughout_iff`
* `stands_of_grantFreePlan`, `stands_of_setAccountPlanAdmin` — from the grant on
-/

namespace Feedbase

variable {cfg : Config} {w : World} {email : String} {c : Comp}

/-- What happens to the account after the grant: a webhook, a reconciliation, or time
passing while the providers change. -/
inductive AfterGrant where
  | webhook (event : Option StripeEvent)
  | reconcileAccount
  | elapse (seconds : Time) (stripe : Stripe) (paddle : Paddle) (fails : Site → Bool)

/-- The world afterwards; a handler runs to completion. -/
def AfterGrant.run (cfg : Config) (email : String) (w : World) : AfterGrant → World
  | .webhook event => ((handleStripeWebhook cfg event).exec w).2
  | .reconcileAccount => ((Feedbase.reconcileAccount cfg email).exec w).2
  | .elapse seconds stripe paddle fails =>
    { w with now := w.now + seconds, stripe := stripe, paddle := paddle, fails := fails }

theorem run_webhook (event : StripeEvent) :
    AfterGrant.run cfg email w (.webhook (some event)) = match event.target w with
      | none => w
      | some (e, sub) => ((setAccountPlan e (subscriptionFields cfg.env sub)).exec w).2 :=
  handleStripeWebhook_snd cfg w event

/-- The webhook writes a subscription to the account. -/
def AfterGrant.writes (email : String) (w : World) : AfterGrant → Bool
  | .webhook (some event) =>
    (event.target w).any (·.1 == email) && !w.fails .setAccountPlan
  | _ => false

/-- Until it ends, the account has the comped plan and status. -/
def Comp.Stands (c : Comp) (email : String) (w : World) : Prop :=
  c.Unexpired w.now → (accountOf w.db email).planName = c.planName ∧
    (accountOf w.db email).subscriptionStatus = some "comped"

/-- The comp stands now and after every step. -/
def StandsThroughout (cfg : Config) (c : Comp) (email : String) : World → List AfterGrant → Prop
  | w, [] => c.Stands email w
  | w, a :: as => c.Stands email w ∧ StandsThroughout cfg c email (a.run cfg email w) as

/-- No webhook writes to the account before the comp ends. -/
def Undisturbed (cfg : Config) (c : Comp) (email : String) : World → List AfterGrant → Prop
  | _, [] => True
  | w, a :: as => (c.Unexpired w.now → a.writes email w = false) ∧
      Undisturbed cfg c email (a.run cfg email w) as

/-! ### The clock -/

theorem clock_of_steps {α : Type} {p : Handler α}
    (h : Prog.Within (BillingStep (fun _ _ => True) fun _ _ => True) p) :
    Prog.Within SameClock p := h.mono fun _ _ hstep => hstep.now_eq

theorem clock_query {α : Type} (f : Db → α) : Prog.Within SameClock (query f : Handler α) :=
  clock_of_steps (steps_query f)

theorem clock_setAccountPlan (email : String) (f : AccountFields) :
    Prog.Within SameClock (setAccountPlan email f) :=
  clock_of_steps (steps_setAccountPlan trivial)

theorem clock_reconcileAccountComped (acct : BillingAccount) :
    Prog.Within SameClock (reconcileAccountComped email acct) := by
  refine .bind (clock_of_steps (steps_read _)) fun now => .ite (clock_setAccountPlan _ _) ?_
  exact .bind (clock_query _) fun acct => .write fun w => rfl

theorem clock_subscriptionEmail (sub : StripeSub) :
    Prog.Within SameClock (subscriptionEmail sub) := by
  unfold subscriptionEmail
  split
  · exact .pure _
  have hrest : ∀ owner, Prog.Within SameClock (emailOfOwner sub owner) := by
    intro owner
    unfold emailOfOwner
    split
    · exact .pure _
    · split
      · exact .pure _
      · exact .bind (clock_query _) fun _ => .pure _
  dsimp only
  split
  · exact .bind (clock_query _) hrest
  · exact .bind (.pure _) hrest

theorem clock_applyAccountSubscription (sub : StripeSub) :
    Prog.Within SameClock (applyAccountSubscription cfg sub) := by
  refine .bind (clock_subscriptionEmail sub) fun found => ?_
  cases found with
  | none => exact .pure _
  | some email => exact clock_setAccountPlan _ _

theorem clock_stripeCall {α : Type} {site : Site} {f : World → Option α} :
    Prog.Within SameClock (call site fun w => (f w).map (·, w) : Handler α) := by
  refine within_call SameClock.refl fun w a w' h => ?_
  obtain ⟨b, -, heq⟩ := Option.map_eq_some_iff.mp h
  cases heq
  exact .refl w

theorem clock_reconcileStripe (acct : BillingAccount) :
    Prog.Within SameClock (reconcileStripe cfg email acct) := by
  unfold reconcileStripe
  split
  · exact .pure _
  refine .bind (clock_stripeCall (f := fun w => some _)) fun subs => ?_
  split
  · exact clock_setAccountPlan _ _
  have hclear : ∀ chosen, Prog.Within SameClock (clearPending email chosen) := fun chosen =>
    .bind (clock_query _) fun after => .ite (clock_setAccountPlan _ _) (.pure _)
  dsimp only
  split
  · exact .bind (clock_setAccountPlan _ _) fun _ => hclear _
  · exact .bind (clock_applyAccountSubscription _) fun _ => hclear _

theorem clock_reconcileAccount : Prog.Within SameClock (reconcileAccount cfg email) := by
  refine .ite (.pure _) (.ite ?_ (.ite (.pure _) (.bind (clock_query _) fun acct => ?_)))
  · exact clock_of_steps (steps_reconcile (fun _ _ => trivial) fun _ _ _ => trivial)
  · exact .ite (clock_reconcileAccountComped acct) (clock_reconcileStripe acct)

theorem now_le_run (a : AfterGrant) : w.now ≤ (a.run cfg email w).now := by
  match a with
  | .webhook none => exact Nat.le_refl _
  | .webhook (some event) =>
    have hnow : (AfterGrant.run cfg email w (.webhook (some event))).now = w.now := by
      rw [run_webhook]
      cases event.target w with
      | none => rfl
      | some r => exact now_exec (clock_setAccountPlan r.1 _)
    exact hnow.ge
  | .reconcileAccount =>
    have hnow : (AfterGrant.run cfg email w .reconcileAccount).now = w.now :=
      now_exec clock_reconcileAccount
    exact hnow.ge
  | .elapse seconds stripe paddle fails => exact Nat.le_add_right _ _

/-! ### One step -/

/-- Reconciliation leaves an account with an unexpired comp alone, whichever provider is
active. -/
theorem accounts_reconcileAccount (cfg : Config) (hheld : c.Held (accountOf w.db email))
    (hunexpired : c.Unexpired w.now) :
    ∃ db, ((reconcileAccount cfg email).exec w).2 = { w with db := db } ∧
      db.billingAccounts = w.db.billingAccounts := by
  have hcomped := hheld.status
  have hnotEnded : ¬ ((accountOf w.db email).currentPeriodEnd.any (· < w.now)) = true := by
    rw [hheld.endsAt, Option.any_eq_true]
    rintro ⟨t, ht, hlt⟩
    exact absurd (hunexpired t ht) (by simpa using hlt)
  unfold reconcileAccount
  by_cases hempty : email = ""
  · rw [if_pos hempty]
    exact ⟨w.db, rfl, rfl⟩
  rw [if_neg hempty]
  by_cases hpaddle : isPaddleActive cfg.env = true
  · rw [if_pos hpaddle]
    unfold reconcile
    split
    · exact ⟨w.db, rfl, rfl⟩
    · simp only [getAccount, exec_query_bind, if_pos hcomped, reconcileComped, exec_getNow_bind,
        if_neg hnotEnded]
      exact ⟨w.db, rfl, rfl⟩
  rw [if_neg hpaddle]
  split
  · exact ⟨w.db, rfl, rfl⟩
  · simp only [getAccount, exec_query_bind, if_pos hcomped, reconcileAccountComped,
      exec_getNow_bind, if_neg hnotEnded, mirrorAccount]
    exact ⟨_, rfl, rfl⟩

/-- A webhook that writes to the account takes the status of the subscription. -/
theorem run_of_writes (cfg : Config) {a : AfterGrant} (h : a.writes email w = true) :
    (a.run cfg email w).now = w.now ∧ ∃ status : StripeStatus,
      (accountOf (a.run cfg email w).db email).subscriptionStatus = some status.text := by
  match a, h with
  | .webhook (some event), h =>
    obtain ⟨htarget, hfails⟩ := Bool.and_eq_true_iff.mp h
    obtain ⟨⟨e, sub⟩, hevent, he⟩ := Option.any_eq_true _ _ |>.mp htarget
    obtain rfl : e = email := by simpa using he
    have hne : e ≠ "" := by
      obtain ⟨sub', -, hattributed⟩ := Option.bind_eq_some_iff.mp hevent
      obtain ⟨e', he', heq⟩ := Option.map_eq_some_iff.mp hattributed
      cases heq
      exact attributedEmail_ne_empty he'
    rw [run_webhook, hevent]
    rcases exec_setAccountPlan_cases (f := subscriptionFields cfg.env sub) w hne
      (by simp [subscriptionFields]) with ⟨hfails', -⟩ | ⟨-, db', htx, hexec⟩
    · simp [hfails'] at hfails
    · dsimp only
      rw [hexec]
      have hacct := accountOf_setAccountPlanTx hne htx
      exact ⟨rfl, sub.status, by rw [hacct]; rfl⟩

/-- A webhook that does not write to the account leaves it alone. -/
theorem run_of_not_writes (cfg : Config) {event : StripeEvent}
    (h : (AfterGrant.webhook (some event)).writes email w = false) :
    ∃ db, AfterGrant.run cfg email w (.webhook (some event)) = { w with db := db } ∧
      accountOf db email = accountOf w.db email := by
  rw [run_webhook]
  cases hevent : event.target w with
  | none => exact ⟨w.db, rfl, rfl⟩
  | some r =>
    obtain ⟨e, sub⟩ := r
    dsimp only
    rcases hset : (setAccountPlan e (subscriptionFields cfg.env sub)).exec w with ⟨err | ⟨⟨⟩⟩, w'⟩
    · obtain rfl := exec_setAccountPlan_error hset
      exact ⟨w'.db, rfl, rfl⟩
    · obtain ⟨-, hfails, db', htx, rfl⟩ := exec_setAccountPlan_ok_iff.mp hset
      refine ⟨db', rfl, accountOf_setAccountPlanTx_of_ne ?_ htx⟩
      rintro rfl
      simp [AfterGrant.writes, hevent, hfails] at h

/-- Every step that writes no subscription to the account leaves an unexpired comp. -/
theorem held_run (cfg : Config) {a : AfterGrant} (hheld : c.Held (accountOf w.db email))
    (hunexpired : c.Unexpired w.now) (h : a.writes email w = false) :
    c.Held (accountOf (a.run cfg email w).db email) := by
  match a, h with
  | .webhook none, _ => exact hheld
  | .webhook (some event), h =>
    obtain ⟨db, hrun, hacct⟩ := run_of_not_writes cfg h
    rw [hrun, hacct]
    exact hheld
  | .reconcileAccount, _ =>
    obtain ⟨db, hrun, haccounts⟩ := accounts_reconcileAccount cfg hheld hunexpired
    have hacct : accountOf db email = accountOf w.db email := by
      unfold accountOf accountRow
      rw [haccounts]
    unfold AfterGrant.run
    rw [hrun, hacct]
    exact hheld
  | .elapse .., _ => exact hheld

/-! ### The run -/

theorem StripeStatus.text_ne_comped (s : StripeStatus) : s.text ≠ "comped" := by
  cases s <;> decide

theorem Comp.Held.stands (h : c.Held (accountOf w.db email)) : c.Stands email w :=
  fun _ => ⟨h.planName, h.status⟩

/-- A comp that has ended makes no more promise. -/
theorem of_expired {steps : List AfterGrant} (h : ¬ c.Unexpired w.now) :
    StandsThroughout cfg c email w steps ∧ Undisturbed cfg c email w steps := by
  induction steps generalizing w with
  | nil => exact ⟨fun hunexpired => absurd hunexpired h, trivial⟩
  | cons a as ih =>
    have hlater : ¬ c.Unexpired (a.run cfg email w).now := by
      intro hunexpired
      exact h fun t ht => Nat.le_trans (now_le_run a) (hunexpired t ht)
    obtain ⟨hstands, hundisturbed⟩ := ih hlater
    exact ⟨⟨fun hunexpired => absurd hunexpired h, hstands⟩,
      fun hunexpired => absurd hunexpired h, hundisturbed⟩

theorem StandsThroughout.head {steps : List AfterGrant}
    (h : StandsThroughout cfg c email w steps) : c.Stands email w := by
  cases steps with
  | nil => exact h
  | cons a as => exact h.1

/-- By induction on the steps: one that writes no subscription keeps the comp, and one that
does ends it. -/
theorem Comp.Held.stands_iff {steps : List AfterGrant} (hheld : c.Held (accountOf w.db email)) :
    StandsThroughout cfg c email w steps ↔ Undisturbed cfg c email w steps := by
  induction steps generalizing w with
  | nil => exact iff_of_true hheld.stands trivial
  | cons a as ih =>
    by_cases hunexpired : c.Unexpired w.now
    · cases hwrites : a.writes email w with
      | false =>
        have hrest := ih (held_run cfg hheld hunexpired hwrites)
        simp only [StandsThroughout, Undisturbed, hrest, hwrites]
        exact and_congr (iff_of_true hheld.stands fun _ => trivial) Iff.rfl
      | true =>
        -- the comp is over at once, before its end
        obtain ⟨hnow, status, hstatus⟩ := run_of_writes cfg hwrites
        refine iff_of_false (fun h => ?_) fun h => ?_
        · have hcomped := (h.2.head (hnow ▸ hunexpired)).2
          rw [hstatus, Option.some.injEq] at hcomped
          exact status.text_ne_comped hcomped
        · have hfalse := h.1 hunexpired
          rw [hwrites] at hfalse
          cases hfalse
    · exact iff_of_true (of_expired hunexpired).1 (of_expired hunexpired).2

/-- The comp stands until it ends exactly when no webhook writes a subscription to the
account before. -/
theorem standsThroughout_iff {steps : List AfterGrant}
    (hheld : c.Held (accountOf w.db email)) :
    StandsThroughout cfg c email w steps ↔ Undisturbed cfg c email w steps :=
  hheld.stands_iff

/-- So it is with the plan of a redeemed code. -/
theorem stands_of_grantFreePlan {promo : PromoCode} {periodEnd : Option Time} {w' : World}
    (h : (grantFreePlan cfg promo email periodEnd).exec w = (.ok (), w')) :
    ∃ p, promo.planGrant = some p ∧ ∀ steps,
      StandsThroughout cfg ⟨p, periodEnd⟩ email w' steps ↔
        Undisturbed cfg ⟨p, periodEnd⟩ email w' steps := by
  obtain ⟨p, hp, hheld⟩ := comped_of_grantFreePlan h
  exact ⟨p, hp, fun _ => hheld.stands_iff⟩

/-- So it is with a plan granted by the platform admin. -/
theorem stands_of_setAccountPlanAdmin {plan : String} {durationMonths : Option Int}
    {reply : Reply Unit} {w' : World} (hplan : plan ≠ "free")
    (h : (setAccountPlanAdmin cfg email plan durationMonths).exec w = (.ok reply, w')) :
    ∃ endsAt, ∀ steps, StandsThroughout cfg ⟨plan, endsAt⟩ email w' steps ↔
      Undisturbed cfg ⟨plan, endsAt⟩ email w' steps := by
  obtain ⟨endsAt, hheld⟩ := comped_of_setAccountPlanAdmin hplan h
  exact ⟨endsAt, fun _ => hheld.stands_iff⟩

/-! ### The event of the cancellation -/

/-- Three months of Business. -/
def partnerCode : PromoCode where
  id := 1
  code := "PARTNER"
  type := .freePlan
  planGrant := some "business"
  duration := .repeating
  durationMonths := some 3

/-- Ada's account while her Pro subscription is live. -/
def adaOnPro : BillingAccount where
  id := 1
  email := "ada@example.com"
  planName := "pro"
  subscriptionStatus := some "active"
  billingInterval := some .month
  stripeCustomerId := some "cus_ada"
  stripeSubscriptionId := some "sub_1"

/-- One workspace, the account and the code. -/
def adaOnStripe : World where
  db :=
    { tenants :=
        { rows := [{ id := 1, name := "Acme", slug := "acme", subdomain := "acme" }]
          next := 2
          id_lt := by decide
          nodup := by decide
          noClash := by decide }
      billingAccounts :=
        { rows := [adaOnPro]
          next := 2
          id_lt := by decide
          nodup := by decide
          noClash := by decide }
      promoCodes :=
        { rows := [partnerCode], next := 2, id_lt := by decide, nodup := by decide
          noClash := by decide } }
  stripe := { subscriptions := [adaStripePro] }

def adaAtAcme : AuthData :=
  { id := 1, tenantId := some 1, role := .owner, email := "ada@example.com" }

/-- She redeems the code, which cancels the subscription. -/
def adaComped : World := ((redeemPromo .stripeDemo "partner" adaAtAcme).exec adaOnStripe).2

/-- Ninety days of Business. -/
def adaComp : Comp := ⟨"business", some 7776000⟩

/-- Stripe's notice of the cancellation. -/
def cancellationNotice : AfterGrant :=
  .webhook (some (.customerSubscription .deleted { adaStripePro with status := .canceled }))

/-- The notice takes the comp away at once. -/
theorem cancellation_notice_undoes_comp :
    ((redeemPromo .stripeDemo "partner" adaAtAcme).exec adaOnStripe).1 =
        .ok ⟨200, "promo_code_redeemed", .freePlan (some "business")⟩ ∧
      adaComped.stripe.subscriptions = [{ adaStripePro with status := .canceled }] ∧
      adaComp.Held (accountOf adaComped.db "ada@example.com") ∧
      adaComp.Unexpired adaComped.now ∧
      (accountOf (cancellationNotice.run .stripeDemo "ada@example.com" adaComped).db
        "ada@example.com").shown = ⟨"free", some "canceled", some "sub_1"⟩ ∧
      ¬ StandsThroughout .stripeDemo adaComp "ada@example.com" adaComped [cancellationNotice] := by
  have hshown : (accountOf (cancellationNotice.run .stripeDemo "ada@example.com" adaComped).db
      "ada@example.com").shown = ⟨"free", some "canceled", some "sub_1"⟩ := by
    decide +kernel
  refine ⟨by decide +kernel, by decide +kernel, by decide +kernel, by decide +kernel, hshown, ?_⟩
  intro h
  have hplan := (h.2 (by decide +kernel)).1
  have hfree := (congrArg Shown.planName hshown).symm.trans hplan
  revert hfree
  decide

/-- Reconciliation leaves the comp alone for its ninety days. -/
theorem standsThroughout_iff_reconciled :
    StandsThroughout .stripeDemo adaComp "ada@example.com" adaComped
        [.reconcileAccount, .elapse 7776000 {} {} fun _ => false, .reconcileAccount] ↔
      Undisturbed .stripeDemo adaComp "ada@example.com" adaComped
        [.reconcileAccount, .elapse 7776000 {} {} fun _ => false, .reconcileAccount] :=
  standsThroughout_iff (by decide +kernel)

end Feedbase
