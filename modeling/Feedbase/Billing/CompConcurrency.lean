import Feedbase.Admin.Accounts
import Feedbase.Billing.Convergence
import Feedbase.Billing.ReconcilePhases

/-!
# A comp grant among reconcile runs

A grant cancels the live subscription, which makes the provider call the webhook, and
writes the comp afterwards. A `reconcile` run looks for a comp once, in its first
action, and writes later. So a run that has started when the comp is written may
overwrite it; a run that starts afterwards leaves it alone.

## Main definitions

* `GrantRequest`, `compSystem` — one grant and any number of reconcile runs
* `NoneUnderWay` — every reconcile run has ended or has yet to start

## Main results

* `grants_grantHandler` — what a grant that resolves has written
* `comp_survives`
-/

namespace Feedbase

variable {cfg : Config} {email : String} {w w' : World}

/-- A grant of a comp to the account, or a reconcile run for it. -/
inductive GrantRequest where
  | reconcile
  | redeem (code : String) (auth : AuthData)
  | admin (plan : String) (durationMonths : Option Int)
  deriving DecidableEq

/-- What happens between the actions of the calls: time passes, the providers change
and fail, and the database changes outside `billing_accounts`. -/
def CompEnv : Type :=
  { f : World → World //
    ∀ w, (f w).db.billingAccounts = w.db.billingAccounts ∧ w.now ≤ (f w).now }

/-- The comped plan a request replies with. -/
def Redeemed.comped : Redeemed → Option String
  | .freePlan plan => plan
  | .percentOff .. => none

/-- Grants return the plan they have comped. -/
def grantHandler (cfg : Config) (email : String) : GrantRequest → Handler (Option String)
  | .reconcile => do
    reconcile cfg email
    return none
  | .redeem code auth => do
    let reply ← redeemPromo cfg code auth
    return reply.result.comped
  | .admin plan durationMonths => do
    let _ ← setAccountPlanAdmin cfg email plan durationMonths
    return if plan = "free" then none else some plan

def compSystem (cfg : Config) (email : String) :
    System World Failure (Option String) GrantRequest CompEnv where
  handler := grantHandler cfg email
  env e := e.1

abbrev CompPool := Pool World Failure (Option String) GrantRequest

/-- The request comps the account. -/
def GrantRequest.IsGrant (email : String) : GrantRequest → Prop
  | .reconcile => False
  | .redeem _ auth => auth.email = email
  | .admin .. => True

/-! ### What a grant that resolves has written -/

/-- A grant has not written, or has just written its comp. -/
inductive GrantStep (email : String) : Option Comp → World → Option Comp → World → Prop where
  | other {w w' : World} : GrantStep email none w none w'
  | grant {w w' : World} {c : Comp} (h : c.Held (accountOf w'.db email)) :
    GrantStep email none w (some c) w'

/-- A program that resolves with a comped plan has written a comp of that plan, and one
that throws has written none. -/
def Comped {α : Type} (plan : α → Option String) (φ : Option Comp) : Except Failure α → Prop
  | .ok a => ∀ p, plan a = some p → ∃ c, φ = some c ∧ c.planName = p
  | .error _ => φ = none

/-- A program followed up to its grant. -/
abbrev Grants {α : Type} (email : String) (plan : α → Option String) (p : Handler α) : Prop :=
  Follows (GrantStep email) (Comped plan) none p

/-- Any program, as far as it does not grant. -/
theorem follows_other {α : Type} (p : Handler α) :
    Follows (GrantStep email) (fun φ _ => φ = none) none p := by
  have htrue : Prog.Within (fun _ _ => True) p := by
    induction p with
    | ret a => trivial
    | fail e => trivial
    | act ready next cont ih => exact fun s => ⟨trivial, ih s⟩
  exact .of_within htrue fun _ _ _ => .other

theorem grants_bind {α β : Type} {p : Handler α} {f : α → Handler β} {plan : β → Option String}
    (hf : ∀ a, Grants email plan (f a)) : Grants email plan (p >>= f) := by
  refine .bind (follows_other p) ?_ ?_
  · rintro φ a rfl
    exact hf a
  · rintro φ e rfl
    exact rfl

theorem grants_reject {α : Type} {plan : α → Option String} (code : Nat) (key : String) :
    Grants email plan (reject code key) := rfl

theorem grants_ite {α : Type} {plan : α → Option String} {b : Prop} [Decidable b]
    {p q : Handler α} (hp : Grants email plan p) (hq : Grants email plan q) :
    Grants email plan (if b then p else q) := by
  split
  · exact hp
  · exact hq

/-- The comp has been written, or the write has failed. -/
def CompWritten (plan : Option String) (periodEnd : Option Time) (φ : Option Comp) :
    Except Failure Unit → Prop
  | .ok _ => ∃ p, plan = some p ∧ φ = some ⟨p, periodEnd⟩
  | .error _ => φ = none

theorem follows_compWrite {plan : Option String} {periodEnd : Option Time} :
    Follows (GrantStep email) (CompWritten plan periodEnd) none
      (setAccountPlan email (compFields plan periodEnd)) := by
  unfold setAccountPlan
  split
  · exact rfl
  rename_i hne
  refine .step fun w _ => ?_
  dsimp only
  cases hfail : w.fails .setAccountPlan with
  | true => exact ⟨none, .other, rfl⟩
  | false =>
    cases htx : setAccountPlanTx email (compFields plan periodEnd) w.db with
    | none => exact ⟨none, .other, rfl⟩
    | some db =>
      cases plan with
      | none => cases htx
      | some p =>
        have hset : (setAccountPlan email (compFields (some p) periodEnd)).exec w =
            (.ok (), { w with db := db }) :=
          exec_setAccountPlan_ok_iff.mpr ⟨hne, hfail, db, htx, rfl⟩
        exact ⟨some ⟨p, periodEnd⟩, .grant (comped_of_compFields hset), p, rfl, rfl⟩

theorem follows_grantFreePlan {promo : PromoCode} {periodEnd : Option Time} :
    Follows (GrantStep email) (CompWritten promo.planGrant periodEnd) none
      (grantFreePlan cfg promo email periodEnd) := by
  refine .bind (follows_other _) ?_ ?_
  · rintro φ _ rfl
    exact follows_compWrite
  · rintro φ e rfl
    exact rfl

theorem grants_redeemFreePlan {promo : PromoCode} {auth : AuthData} (hauth : auth.email = email) :
    Grants email (fun reply => reply.result.comped) (redeemFreePlan cfg promo auth) := by
  unfold redeemFreePlan
  rw [hauth]
  refine grants_bind fun now => grants_bind fun claim => ?_
  cases claim with
  | refused reason => exact grants_reject _ _
  | claimed =>
    have hgrant : Follows (GrantStep email) (CompWritten promo.planGrant (promo.periodEnd now)) none
        (tryCatch (grantFreePlan cfg promo email (promo.periodEnd now)) fun e => do
          releaseRedemption promo.id email
          throw e) := by
      refine .catching follows_grantFreePlan (fun φ a h => h) ?_
      -- a failed grant is released, and nothing is granted afterwards
      rintro φ e rfl
      refine .bind (follows_other _) ?_ ?_
      · rintro φ _ rfl
        exact rfl
      · rintro φ e rfl
        exact rfl
    refine .bind hgrant ?_ ?_
    · rintro φ _ ⟨p, hp, rfl⟩ plan hplan
      exact ⟨_, rfl, Option.some.inj (hp.symm.trans hplan)⟩
    · rintro φ e rfl
      exact rfl

theorem grants_redeemPercentOff {promo : PromoCode} {auth : AuthData} :
    Grants email (fun reply => reply.result.comped) (redeemPercentOff cfg promo auth) := by
  refine grants_bind fun claim => ?_
  cases claim with
  | refused reason => exact grants_reject _ _
  | claimed =>
    intro p hp
    cases hp

theorem grants_redeemNormalized {normalized : String} {auth : AuthData}
    (hauth : auth.email = email) :
    Grants email (fun reply => reply.result.comped) (redeemNormalized cfg normalized auth) := by
  refine grants_bind fun promo => ?_
  cases promo with
  | none => exact grants_reject _ _
  | some promo =>
    refine grants_bind fun now => ?_
    split
    · exact grants_reject _ _
    split
    · exact grants_reject _ _
    refine grants_bind fun already => ?_
    split
    · exact grants_reject _ _
    split
    · exact grants_redeemFreePlan hauth
    · exact grants_redeemPercentOff

attribute [local irreducible] trim toUpperCase redeemNormalized in
theorem grants_redeemPromo {code : String} {auth : AuthData} (hauth : auth.email = email) :
    Grants email (fun reply => reply.result.comped) (redeemPromo cfg code auth) := by
  refine grants_ite (grants_reject _ _) (grants_ite (grants_reject _ _) ?_)
  refine .catching (grants_redeemNormalized hauth) (fun φ a h => h) ?_
  rintro φ e rfl
  cases e <;> exact rfl

theorem grants_grantByAdmin {plan : String} {durationMonths : Option Int} :
    Grants email (fun _ => if plan = "free" then none else some plan)
      (grantByAdmin cfg email plan durationMonths) := by
  have hcomp : ∀ periodEnd, Grants email (fun _ => some plan)
      (setAccountPlan email (compFields (some plan) periodEnd)) := by
    intro periodEnd
    refine follows_compWrite.mono fun φ r h => ?_
    cases r with
    | error e => exact h
    | ok a =>
      obtain ⟨p, hp, rfl⟩ := h
      exact fun p' hp' => ⟨_, rfl, Option.some.inj (hp.symm.trans hp')⟩
  unfold grantByAdmin
  split
  · refine (follows_other _).mono fun φ r h => ?_
    cases r with
    | error e => exact h
    | ok a => nofun
  · split
    · exact hcomp none
    · exact grants_bind fun now => hcomp _

theorem grants_setAccountPlanAdmin {plan : String} {durationMonths : Option Int} :
    Grants email (fun _ => if plan = "free" then none else some plan)
      (setAccountPlanAdmin cfg email plan durationMonths) := by
  refine grants_ite (grants_reject _ _) (grants_ite (grants_reject _ _) ?_)
  refine .catching (grants_bind fun before => grants_bind fun _ => ?_) (fun φ a h => h) ?_
  · refine .bind grants_grantByAdmin ?_ ?_
    · exact fun φ a h => h
    · exact fun φ e h => h
  · rintro φ e rfl
    exact rfl

/-- A grant that resolves with a plan has written a comp of that plan in its last
action. -/
theorem grants_grantHandler {r : GrantRequest} (hgrant : r.IsGrant email) :
    Grants email (fun plan => plan) (grantHandler cfg email r) := by
  cases r with
  | reconcile => cases hgrant
  | redeem code auth => exact .bind (grants_redeemPromo hgrant) (fun φ a h => h) fun φ e h => h
  | admin plan durationMonths =>
    exact .bind grants_setAccountPlanAdmin (fun φ a h => h) fun φ e h => h

/-! ### Reconcile runs that start on a comp -/

/-- A run of an account with the comp has read it, or has read nothing. -/
def OnComp (c : Comp) : ReconcilePhase → Prop
  | .start | .done => True
  | .comped acct => acct.currentPeriodEnd = c.endsAt
  | _ => False

/-- A run that started on an unexpired comp writes nothing. -/
theorem ReconcileStep.onComp {c : Comp} {φ φ' : ReconcilePhase}
    (hheld : c.Held (accountOf w.db email)) (hunexpired : c.Unexpired w.now) (hφ : OnComp c φ)
    (h : ReconcileStep cfg email φ w φ' w') : w' = w ∧ OnComp c φ' := by
  cases h with
  | readAccount =>
    rw [if_pos hheld.status]
    exact ⟨rfl, hheld.endsAt⟩
  | @compClock acct _ =>
    have hends : acct.currentPeriodEnd = c.endsAt := hφ
    have hnotEnded : ¬ (acct.currentPeriodEnd.any (· < w.now)) = true := by
      rw [hends, Option.any_eq_true]
      rintro ⟨t, ht, hlt⟩
      exact absurd (hunexpired t ht) (by simpa using hlt)
    rw [if_neg hnotEnded]
    exact ⟨rfl, trivial⟩
  | fault h => exact ⟨rfl, trivial⟩
  | _ => exact hφ.elim

/-- The reconcile run as a call of the system. -/
theorem follows_reconcileCall (cfg : Config) (email : String) : ∃ φ : ReconcilePhase,
    (φ = .start ∨ φ = .done) ∧
      Follows (ReconcileStep cfg email) (fun φ _ => φ = .done) φ
        (grantHandler cfg email .reconcile) := by
  have hbind : ∀ φ, Follows (ReconcileStep cfg email) (EndsIn fun _ => .done) φ
      (reconcile cfg email) → Follows (ReconcileStep cfg email) (fun φ _ => φ = .done) φ
        (grantHandler cfg email .reconcile) :=
    fun φ h => .bind h (fun φ a h => h) fun φ e h => h
  by_cases hskip : email = "" ∨ isPaddleConfigured cfg.env = false
  · refine ⟨.done, .inr rfl, hbind _ ?_⟩
    unfold reconcile
    rw [if_pos hskip]
    exact rfl
  · obtain ⟨hne, hconf⟩ := not_or.mp hskip
    exact ⟨.start, .inl rfl, hbind _ (follows_reconcile hne (by simpa using hconf))⟩

/-! ### Interleavings -/

/-- Every call but one is a reconcile run. -/
def OnlyGrant (g : Nat) (P : CompPool) : Prop :=
  ∀ i d, i ≠ g → P.calls[i]? = some d → d.request = .reconcile

/-- Every other call has ended or has yet to start. -/
def NoneUnderWay (cfg : Config) (email : String) (g : Nat) (P : CompPool) : Prop :=
  ∀ i d, i ≠ g → P.calls[i]? = some d → d.outcome = none →
    d.prog = grantHandler cfg email d.request

/-- The grant has ended, the account holds the comp, and every run leaves it alone. -/
structure Survives (cfg : Config) (email : String) (g : Nat) (c : Comp) (P : CompPool) : Prop where
  ended : ∃ d, P.calls[g]? = some d ∧ d.outcome.isSome
  held : c.Unexpired P.state.now → c.Held (accountOf P.state.db email)
  safe : ∀ i d, i ≠ g → P.calls[i]? = some d → ∃ φ,
    (c.Unexpired P.state.now → OnComp c φ) ∧
      Follows (ReconcileStep cfg email) (fun φ _ => φ = .done) φ d.prog

theorem OnlyGrant.of_move {g : Nat} {P Q : CompPool} {m : Move GrantRequest CompEnv}
    (h : OnlyGrant g Q) (hm : (compSystem cfg email).move P m = some Q) : OnlyGrant g P := by
  intro i d hi hd
  obtain ⟨d', hd', hrequest⟩ := System.request_of_move hm hd
  exact hrequest ▸ h i d' hi hd'

theorem OnlyGrant.of_run {g : Nat} {P Q : CompPool} (h : OnlyGrant g Q)
    (hrun : (compSystem cfg email).Run (fun _ _ => True) P Q) : OnlyGrant g P := by
  induction hrun with
  | refl => exact h
  | tail _ hstep ih =>
    obtain ⟨⟨m, hm⟩, -⟩ := hstep
    exact ih (h.of_move hm)

theorem accountOf_congr {db db' : Db} (h : db'.billingAccounts = db.billingAccounts) :
    accountOf db' email = accountOf db email := by
  unfold accountOf accountRow
  rw [h]

theorem Survives.move {g : Nat} {c : Comp} {P Q : CompPool} {m : Move GrantRequest CompEnv}
    (h : Survives cfg email g c P) (honly : OnlyGrant g Q)
    (hm : (compSystem cfg email).move P m = some Q) : Survives cfg email g c Q := by
  obtain ⟨d, hd, hended⟩ := h.ended
  have hlt : g < P.calls.length := (List.getElem?_eq_some_iff.mp hd).1
  rcases System.move_eq hm with
    ⟨r, -, rfl⟩ | ⟨e, -, rfl⟩ | ⟨i, d', ready, next, cont, -, hd', hprog, hready, rfl⟩
  · -- a new call has read nothing
    refine ⟨⟨d, by rw [List.getElem?_append_left hlt, hd], hended⟩, h.held, fun i d' hi hd' => ?_⟩
    by_cases hold : i < P.calls.length
    · rw [List.getElem?_append_left hold] at hd'
      exact h.safe i d' hi hd'
    · have hrequest := honly i d' hi hd'
      rw [List.getElem?_append_right (by omega)] at hd'
      obtain rfl := List.mem_singleton.mp (List.mem_of_getElem? hd')
      obtain ⟨φ, hφ, hfollows⟩ := follows_reconcileCall cfg email
      dsimp only at hrequest
      subst hrequest
      refine ⟨φ, fun _ => ?_, hfollows⟩
      rcases hφ with rfl | rfl <;> trivial
  · -- time passes; an unexpired comp was unexpired before
    obtain ⟨haccounts, hnow⟩ := e.2 P.state
    have hbefore : c.Unexpired (e.1 P.state).now → c.Unexpired P.state.now :=
      fun hun t ht => Nat.le_trans hnow (hun t ht)
    refine ⟨⟨d, hd, hended⟩, fun hun => ?_, fun i d' hi hd' => ?_⟩
    · have hacct : accountOf (e.1 P.state).db email = accountOf P.state.db email :=
        accountOf_congr haccounts
      exact hacct ▸ h.held (hbefore hun)
    · obtain ⟨φ, hφ, hfollows⟩ := h.safe i d' hi hd'
      exact ⟨φ, fun hun => hφ (hbefore hun), hfollows⟩
  · -- the grant has come to its end
    have hi : i ≠ g := by
      rintro rfl
      obtain rfl : d' = d := Option.some.inj (hd'.symm.trans hd)
      unfold Call.outcome at hended
      rw [hprog] at hended
      cases hended
    obtain ⟨φ, hφ, hfollows⟩ := h.safe i d' hi hd'
    rw [hprog] at hfollows
    obtain ⟨φ', hstep, hcont⟩ := hfollows P.state hready
    have hnow : (next P.state).now = P.state.now := hstep.now_eq
    refine ⟨⟨d, by rw [List.getElem?_set_ne hi, hd], hended⟩, fun hun => ?_, fun j d'' hj hd'' => ?_⟩
    · rw [hnow] at hun
      have hheld := h.held hun
      rw [(hstep.onComp hheld hun (hφ hun)).1]
      exact hheld
    · rcases getElem?_set_cases hd'' with ⟨-, rfl⟩ | ⟨-, hd''⟩
      · refine ⟨φ', fun hun => ?_, hcont⟩
        rw [hnow] at hun
        exact (hstep.onComp (h.held hun) hun (hφ hun)).2
      · obtain ⟨ψ, hψ, hfollows'⟩ := h.safe j d'' hj hd''
        exact ⟨ψ, fun hun => hψ (hnow ▸ hun), hfollows'⟩

/-- If no reconcile run is under way when the grant writes its comp, the account keeps
the comp until it ends, whatever the runs of the account do. -/
theorem comp_survives {w₀ : World} {P P' Q : CompPool} {g : Nat}
    {d d' : Call World Failure (Option String) GrantRequest} {plan : String}
    (hbefore : (compSystem cfg email).Run (fun _ _ => True) ⟨w₀, []⟩ P)
    (hd : P.calls[g]? = some d) (hgrant : d.request.IsGrant email)
    (hmove : (compSystem cfg email).move P (.run g) = some P')
    (hd' : P'.calls[g]? = some d') (hresolved : d'.outcome = some (.ok (some plan)))
    (hnone : NoneUnderWay cfg email g P)
    (hafter : (compSystem cfg email).Run (fun _ _ => True) P' Q) (honly : OnlyGrant g Q) :
    ∃ c : Comp, c.planName = plan ∧ c.Held (accountOf P'.state.db email) ∧
      (c.Unexpired Q.state.now → c.Held (accountOf Q.state.db email)) := by
  have hcalls := System.calls_of_run (K := fun r p => r.IsGrant email →
    ∃ φ, Follows (GrantStep email) (Comped fun plan => plan) φ p)
    (fun r hr => ⟨none, grants_grantHandler hr⟩)
    (fun r ready next cont s hK hready hr => by
      obtain ⟨φ, hfollows⟩ := hK hr
      obtain ⟨φ', -, hcont⟩ := hfollows s hready
      exact ⟨φ', hcont⟩)
    (by simp) hbefore
  rcases System.move_eq hmove with ⟨r, hr, -⟩ | ⟨e, he, -⟩ |
    ⟨i, d₁, ready, next, cont, hi, hd₁, hprog, hready, rfl⟩
  · cases hr
  · cases he
  obtain rfl : g = i := by
    cases hi
    rfl
  obtain rfl : d = d₁ := Option.some.inj (hd.symm.trans hd₁)
  -- the last action of the grant writes the comp
  obtain ⟨φ, hfollows⟩ := hcalls d (List.mem_of_getElem? hd) hgrant
  rw [hprog] at hfollows
  obtain ⟨φ', hstep, hcont⟩ := hfollows P.state hready
  have hlt : g < P.calls.length := (List.getElem?_eq_some_iff.mp hd).1
  obtain rfl : d' = { d with prog := cont P.state } := by
    rw [List.getElem?_set_self hlt, Option.some.injEq] at hd'
    exact hd'.symm
  have hret : cont P.state = .ret (some plan) := by
    unfold Call.outcome at hresolved
    dsimp only at hresolved
    split at hresolved <;> simp_all
  rw [hret] at hcont
  obtain ⟨c, rfl, hplan⟩ := hcont plan rfl
  have hheld : c.Held (accountOf (next P.state).db email) := by
    cases hstep with
    | grant h => exact h
  -- no run of the account has read the row as it was before the comp
  have hstart : Survives cfg email g c ⟨next P.state, P.calls.set g { d with prog := cont P.state }⟩ := by
    refine ⟨⟨_, hd', by rw [hresolved]; rfl⟩, fun _ => hheld, fun i e hi he => ?_⟩
    have hrequest := honly.of_run hafter i e hi he
    rw [List.getElem?_set_ne (Ne.symm hi)] at he
    cases hout : e.outcome with
    | none =>
      rw [hnone i e hi he hout, hrequest]
      obtain ⟨φ, hφ, hfollows⟩ := follows_reconcileCall cfg email
      refine ⟨φ, fun _ => ?_, hfollows⟩
      rcases hφ with rfl | rfl <;> trivial
    | some r =>
      refine ⟨.done, fun _ => trivial, ?_⟩
      unfold Call.outcome at hout
      split at hout
      · rename_i hprog
        rw [hprog]
        exact rfl
      · rename_i hprog
        rw [hprog]
        exact rfl
      · cases hout
  have hend : Survives cfg email g c Q := by
    induction hafter with
    | refl => exact hstart
    | tail _ hstep ih =>
      obtain ⟨⟨m, hm⟩, -⟩ := hstep
      exact (ih (honly.of_move hm)).move honly hm
  exact ⟨c, hplan, hheld, hend.held⟩

/-! ### The webhook of the cancellation -/

/-- Ada's account while her Pro subscription is live. -/
def adaSubscribed : World where
  db :=
    { billingAccounts :=
        { rows := [{ id := 1, email := "ada@example.com", planName := "pro"
                     subscriptionStatus := some "active", billingInterval := some .month
                     paddleCustomerId := some "ctm_ada", paddleSubscriptionId := some "sub_1" }]
          next := 2
          id_lt := by decide
          nodup := by decide
          noClash := by decide } }
  paddle :=
    { customers := [adaCustomer]
      subscriptions := [firstSub]
      id_ne_empty := firstSub_id_ne_empty }

/-- Business for life, up to the cancellation of the subscription. -/
def grantUpToCancel : List (Move GrantRequest CompEnv) :=
  [.arrive (.admin "business" none), .run 0, .run 0, .run 0]

/-- The provider reports the cancellation, and the webhook reads the account before the
comp is written and writes after it. -/
theorem reconcile_overwrites_comp : ∃ Q : CompPool,
    (compSystem .paddleDemo "ada@example.com").Run (fun _ _ => True) ⟨adaSubscribed, []⟩ Q ∧
      Q.calls.map (fun c => (c.request, c.outcome)) =
        [(.admin "business" none, some (.ok (some "business"))), (.reconcile, some (.ok none))] ∧
      (accountOf Q.state.db "ada@example.com").planName = "free" ∧
      (accountOf Q.state.db "ada@example.com").subscriptionStatus = none := by
  let run := (compSystem .paddleDemo "ada@example.com").schedule ⟨adaSubscribed, []⟩
    (grantUpToCancel ++ [.arrive .reconcile, .run 1, .run 0, .run 1, .run 1, .run 1])
  have hcalls : run.map (fun Q => Q.calls.map fun c => (c.request, c.outcome)) =
      some [(.admin "business" none, some (.ok (some "business"))), (.reconcile, some (.ok none))] := by
    decide +kernel
  have hacct : run.map (fun Q => (accountOf Q.state.db "ada@example.com").toPlanColumns) =
      some {} := by decide +kernel
  obtain ⟨Q, hrun, hQ⟩ := Option.map_eq_some_iff.mp hcalls
  rw [hrun, Option.map_some, Option.some.injEq] at hacct
  refine ⟨Q, System.run_of_schedule hrun, hQ, ?_, ?_⟩
  · rw [hacct]
  · rw [hacct]

/-- A run that starts once the comp is written leaves it alone. -/
theorem comp_survives_later_run : ∃ Q : CompPool,
    Q.calls.map (fun c => (c.request, c.outcome)) =
        [(.admin "business" none, some (.ok (some "business"))), (.reconcile, some (.ok none))] ∧
      ∃ c : Comp, c.planName = "business" ∧ (c.Unexpired Q.state.now →
        c.Held (accountOf Q.state.db "ada@example.com")) := by
  let S := compSystem .paddleDemo "ada@example.com"
  let granting := S.schedule ⟨adaSubscribed, []⟩ grantUpToCancel
  let granted := granting.bind fun P => S.move P (.run 0)
  have hgranting : granting.map (fun P => P.calls.map (·.request)) =
      some [.admin "business" none] := by decide +kernel
  have hgranted : granted.map (fun P => P.calls.map (·.outcome)) =
      some [some (.ok (some "business"))] := by decide +kernel
  have hend : (granted.bind fun P => S.schedule P [.arrive .reconcile, .run 1, .run 1]).map
      (fun Q => Q.calls.map fun c => (c.request, c.outcome)) =
        some [(.admin "business" none, some (.ok (some "business"))),
          (.reconcile, some (.ok none))] := by decide +kernel
  obtain ⟨P, hP, hcalls⟩ := Option.map_eq_some_iff.mp hgranting
  obtain ⟨P', hP', hcalls'⟩ := Option.map_eq_some_iff.mp hgranted
  obtain ⟨Q, hQ, hended⟩ := Option.map_eq_some_iff.mp hend
  rw [hP', Option.bind_some] at hQ
  -- the step of the grant that resolves, by itself
  have hmove : S.move P (.run 0) = some P' := by
    have hbind : granted = S.move P (.run 0) := by
      change granting.bind _ = _
      rw [hP, Option.bind_some]
    exact hbind.symm.trans hP'
  obtain ⟨d, hd, hrequest⟩ := List.map_eq_singleton_iff.mp hcalls
  obtain ⟨d', hd', houtcome⟩ := List.map_eq_singleton_iff.mp hcalls'
  -- the grant is the only call so far
  have hnone : NoneUnderWay .paddleDemo "ada@example.com" 0 P := by
    intro i e hi he
    rw [hd] at he
    cases i with
    | zero => exact absurd rfl hi
    | succ i => simp at he
  have honly : OnlyGrant 0 Q := by
    intro i e hi he
    have hmap : (Q.calls.map fun c => (c.request, c.outcome))[i]? = some (e.request, e.outcome) := by
      rw [List.getElem?_map, he]
      rfl
    rw [hended] at hmap
    match i, hi with
    | 1, _ => exact (congrArg Prod.fst (Option.some.inj hmap)).symm
    | i + 2, _ => simp at hmap
  obtain ⟨c, hplan, -, hheld⟩ := comp_survives (System.run_of_schedule hP) (g := 0)
    (by rw [hd]; rfl) (by rw [hrequest]; trivial) hmove (by rw [hd']; rfl) houtcome hnone
    (System.run_of_schedule hQ) honly
  exact ⟨Q, hended, c, hplan, hheld⟩

end Feedbase
