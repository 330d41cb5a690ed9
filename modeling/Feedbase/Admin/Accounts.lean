import Feedbase.Billing.RedeemPromo

/-!
# Plan grants by the platform admin

`setAccountPlanAdmin` comps a paid plan or reverts an account to free. The live
subscription is cancelled first, as it is for a redeemed `free_plan` code, and the
account is written in one transaction after that.

## Main results

* `setAccountPlanAdmin_cases` — what a successful grant has done
* `comped_of_setAccountPlanAdmin`, `comped_of_grantFreePlan` — both grants leave a comp
-/

namespace Feedbase

variable {cfg : Config} {w w' : World} {email plan : String}

/-- The plans an admin may choose. -/
def adminPlans : List String := ["free", "pro", "business"]

/-- A positive whole number of months; anything else is a lifetime grant. -/
def timedMonths (durationMonths : Option Int) : Option Nat :=
  (durationMonths.filter (0 < ·)).map Int.toNat

/-- The write of `setAccountPlanAdmin`. -/
def grantByAdmin (cfg : Config) (email plan : String) (durationMonths : Option Int) :
    Handler Unit :=
  if plan = "free" then resetAccountToFree email none
  else
    match timedMonths durationMonths with
    | none => setAccountPlan email (compFields (some plan) none)
    | some months => do
      let now ← getNow
      setAccountPlan email (compFields (some plan) (some (cfg.addMonths months now)))

/-- `setAccountPlanAdmin`; `none` is a duration that is not a whole number. -/
def setAccountPlanAdmin (cfg : Config) (email plan : String) (durationMonths : Option Int) :
    Handler (Reply Unit) :=
  if email = "" then reject 400 "invalid_plan"
  else if plan ∉ adminPlans then reject 400 "invalid_plan"
  else
    tryCatch
      (do
        -- the old plan goes into the owner's notification only
        let _before ← getAccount email
        cancelActiveSubscription cfg email
        grantByAdmin cfg email plan durationMonths
        resolve 200 "plan_updated" ())
      fun _ => reject 500 "internal_server_error"

/-! ### Comps -/

/-- A comp as it was granted. -/
structure Comp where
  planName : String
  endsAt : Option Time
  deriving DecidableEq

/-- The account holds the comp. -/
structure Comp.Held (c : Comp) (a : BillingAccount) : Prop where
  planName : a.planName = c.planName
  status : a.subscriptionStatus = some "comped"
  endsAt : a.currentPeriodEnd = c.endsAt

instance (c : Comp) (a : BillingAccount) : Decidable (c.Held a) :=
  decidable_of_iff (a.planName = c.planName ∧ a.subscriptionStatus = some "comped" ∧
    a.currentPeriodEnd = c.endsAt)
    ⟨fun ⟨h₁, h₂, h₃⟩ => ⟨h₁, h₂, h₃⟩, fun ⟨h₁, h₂, h₃⟩ => ⟨h₁, h₂, h₃⟩⟩

/-- The comp has not ended. -/
def Comp.Unexpired (c : Comp) (now : Time) : Prop := ∀ t ∈ c.endsAt, now ≤ t

instance (c : Comp) (now : Time) : Decidable (c.Unexpired now) :=
  inferInstanceAs (Decidable (∀ t ∈ c.endsAt, now ≤ t))

theorem comped_of_compFields {p : String} {periodEnd : Option Time}
    (h : (setAccountPlan email (compFields (some p) periodEnd)).exec w = (.ok (), w')) :
    Comp.Held ⟨p, periodEnd⟩ (accountOf w'.db email) := by
  obtain ⟨hne, -, db', htx, rfl⟩ := exec_setAccountPlan_ok_iff.mp h
  have hacct := accountOf_setAccountPlanTx hne htx
  constructor
  · rw [hacct]
    rfl
  · rw [hacct]
    rfl
  · rw [hacct]
    rfl

/-- A redeemed `free_plan` code leaves its plan as a comp. -/
theorem comped_of_grantFreePlan {promo : PromoCode} {periodEnd : Option Time}
    (h : (grantFreePlan cfg promo email periodEnd).exec w = (.ok (), w')) :
    ∃ p, promo.planGrant = some p ∧ Comp.Held ⟨p, periodEnd⟩ (accountOf w'.db email) := by
  obtain ⟨⟨⟩, t, -, hset⟩ := Prog.exec_bind_ok_iff.mp h
  cases hgrant : promo.planGrant with
  | none =>
    -- `plan_name` is `NOT NULL`
    rw [hgrant] at hset
    obtain ⟨-, -, db', htx, -⟩ := exec_setAccountPlan_ok_iff.mp hset
    cases htx
  | some p =>
    rw [hgrant] at hset
    exact ⟨p, rfl, comped_of_compFields hset⟩

/-- A grant that succeeds has written the comp, or reset the account. -/
theorem setAccountPlanAdmin_cases {durationMonths : Option Int} {reply : Reply Unit}
    (h : (setAccountPlanAdmin cfg email plan durationMonths).exec w = (.ok reply, w')) :
    ∃ t, (grantByAdmin cfg email plan durationMonths).exec t = (.ok (), w') := by
  unfold setAccountPlanAdmin at h
  split at h
  · cases h
  split at h
  · cases h
  have hbody := Prog.exec_tryCatch_ok (fun _ u => ⟨_, exec_reject 500 "internal_server_error" u⟩) h
  obtain ⟨before, t, -, hbody⟩ := Prog.exec_bind_ok_iff.mp hbody
  obtain ⟨⟨⟩, t, -, hbody⟩ := Prog.exec_bind_ok_iff.mp hbody
  obtain ⟨⟨⟩, u, hgrant, hret⟩ := Prog.exec_bind_ok_iff.mp hbody
  cases hret
  exact ⟨t, hgrant⟩

/-- A paid plan granted by the admin is left as a comp. -/
theorem comped_of_setAccountPlanAdmin {durationMonths : Option Int} {reply : Reply Unit}
    (hplan : plan ≠ "free")
    (h : (setAccountPlanAdmin cfg email plan durationMonths).exec w = (.ok reply, w')) :
    ∃ endsAt, Comp.Held ⟨plan, endsAt⟩ (accountOf w'.db email) := by
  obtain ⟨t, hgrant⟩ := setAccountPlanAdmin_cases h
  unfold grantByAdmin at hgrant
  rw [if_neg hplan] at hgrant
  split at hgrant
  · exact ⟨none, comped_of_compFields hgrant⟩
  · rw [exec_getNow_bind] at hgrant
    exact ⟨_, comped_of_compFields hgrant⟩

end Feedbase
