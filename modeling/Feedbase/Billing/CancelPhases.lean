import Feedbase.Billing.Downgrade
import Feedbase.Billing.SweepPhases

/-!
# Where a cancel stands

`cancelScheduledChange` reads the account twice and the subscription once, puts the item back
in one call and clears the markers in another.

## Main definitions

* `CancelPhase`, `CancelStep`

## Main results

* `cancels_cancelScheduledChange`
-/

namespace Feedbase

variable {cfg : Config} {auth : AuthData} {w w' : World}

/-- How far a cancel has come. -/
inductive CancelPhase where
  | start
  | loaded (c : ChangeContext)
  /-- a change is scheduled; the subscription is read next -/
  | pending (c : ChangeContext)
  | restoring (c : ChangeContext) (price : String)
  | clearing (c : ChangeContext)
  | resolved
  | rejected

/-- The context a plan change of the account works with. -/
def BillingAccount.context (a : BillingAccount) (email subId : String) : ChangeContext where
  email := email
  subId := subId
  curPlan := a.curPlan
  curInterval := a.curInterval
  periodEnd := a.currentPeriodEnd

/-- Once the account has been read. -/
def loadPhase (email : String) (a : BillingAccount) : CancelPhase :=
  match orNull a.paddleSubscriptionId with
  | none => .rejected
  | some subId =>
    if a.subscriptionStatus = some "comped" then .rejected else .loaded (a.context email subId)

/-- Once the account has been read again, for its markers. -/
def markerPhase (c : ChangeContext) (a : BillingAccount) : CancelPhase :=
  if orNull a.pendingPlan = none then .resolved else .pending c

/-- Once the subscription has been read. -/
def restorePhase (cfg : Config) (c : ChangeContext) (sub : PaddleSub) : CancelPhase :=
  match paddlePriceIdFor cfg.env c.curPlan c.curInterval with
  | none => .clearing c
  | some price => if orNull sub.priceId ≠ some price then .restoring c price else .clearing c

/-- One action of a cancel. -/
inductive CancelStep (cfg : Config) (auth : AuthData) :
    CancelPhase → World → CancelPhase → World → Prop where
  | loads {w : World} :
    CancelStep cfg auth .start w (loadPhase auth.email (accountOf w.db auth.email)) w
  | readsMarkers {c : ChangeContext} {w : World} :
    CancelStep cfg auth (.loaded c) w (markerPhase c (accountOf w.db c.email)) w
  | gets {c : ChangeContext} {sub : PaddleSub} {w : World} (h : w.paddle.get c.subId = some sub) :
    CancelStep cfg auth (.pending c) w (restorePhase cfg c sub) w
  | restores {c : ChangeContext} {price : String} {w : World} (h : w.updates c.subId) :
    CancelStep cfg auth (.restoring c price) w (.clearing c)
      { w with paddle := w.paddle.updateSub cfg c.subId { priceId := some price } }
  | clears {c : ChangeContext} {w : World} {db : Db}
    (htx : setAccountPlanTx c.email noPendingFields w.db = some db) :
    CancelStep cfg auth (.clearing c) w .resolved { w with db := db }
  | refuses {φ : CancelPhase} {w : World} : CancelStep cfg auth φ w .rejected w

/-- The phase a part of a cancel ends in, one for each value it returns. -/
def CancelEnds {α : Type} (target : α → CancelPhase) (φ : CancelPhase) (r : Except Failure α) :
    Prop :=
  ∀ a, r = .ok a → φ = target a

/-- A part of a cancel. -/
abbrev Cancels {α : Type} (cfg : Config) (auth : AuthData) (target : α → CancelPhase)
    (φ : CancelPhase) (p : Handler α) : Prop :=
  Follows (CancelStep cfg auth) (CancelEnds target) φ p

section Cancels

variable {α β : Type} {target : α → CancelPhase} {target' : β → CancelPhase} {φ : CancelPhase}

theorem cancels_pure (a : α) : Cancels cfg auth target (target a) (pure a) := by
  refine .ret fun b hb => ?_
  rw [Except.ok.inj hb]

theorem cancels_fail (e : Failure) : Cancels cfg auth target φ (throw e) := .fail nofun

theorem cancels_bind {p : Handler α} {f : α → Handler β} (hp : Cancels cfg auth target φ p)
    (hf : ∀ a, Cancels cfg auth target' (target a) (f a)) :
    Cancels cfg auth target' φ (p >>= f) := by
  refine .bind hp (fun φ a hφ => ?_) fun _ _ _ => nofun
  rw [hφ a rfl]
  exact hf a

/-- A handler that throws again. -/
theorem cancels_rethrow {p : Handler α} {h : Failure → Handler α}
    (hp : Cancels cfg auth target φ p) (hh : ∀ e, ∃ e', h e = .fail e') :
    Cancels cfg auth target φ (tryCatch p h) := by
  refine .catching hp (fun _ _ hφ => hφ) fun φ e _ => ?_
  obtain ⟨e', he'⟩ := hh e
  rw [he']
  exact cancels_fail e'

theorem cancels_read {f : World → α}
    (h : ∀ w, CancelStep cfg auth φ w (target (f w)) w) :
    Cancels cfg auth target φ (Prog.read f) := by
  refine .step fun w _ => ⟨target (f w), h w, fun a ha => ?_⟩
  rw [Except.ok.inj ha]

theorem cancels_call {site : Site} {f : World → Option (α × World)}
    (hok : ∀ w a w', w.fails site = false → f w = some (a, w') →
      CancelStep cfg auth φ w (target a) w') :
    Cancels cfg auth target φ (call site f) := by
  refine .step fun w _ => ?_
  dsimp only
  cases hfail : w.fails site with
  | true => exact ⟨.rejected, .refuses, nofun⟩
  | false =>
    cases hf : f w with
    | none => exact ⟨.rejected, .refuses, nofun⟩
    | some r =>
      refine ⟨target r.1, hok w r.1 r.2 hfail hf, fun a ha => ?_⟩
      rw [Except.ok.inj ha]

end Cancels

theorem cancels_loadForChange :
    Cancels cfg auth CancelPhase.loaded .start (loadForChange cfg auth) := by
  unfold loadForChange
  split
  · exact cancels_fail _
  split
  · exact cancels_fail _
  have hread : Cancels cfg auth (loadPhase auth.email) .start (getAccount auth.email) :=
    cancels_read fun _ => .loads
  refine cancels_bind hread fun a => ?_
  unfold loadPhase
  cases orNull a.paddleSubscriptionId with
  | none => exact cancels_fail _
  | some subId =>
    by_cases hcomped : a.subscriptionStatus = some "comped"
    · dsimp only
      rw [if_pos hcomped, if_pos hcomped]
      exact cancels_fail _
    · dsimp only
      rw [if_neg hcomped, if_neg hcomped]
      exact cancels_pure _

theorem cancels_clear (c : ChangeContext) :
    Cancels cfg auth (fun _ => .resolved) (.clearing c) (do
      setAccountPlan c.email noPendingFields
      resolve 200 "plan_change_cancelled" ()) := by
  have hclear : Cancels cfg auth (fun _ => .resolved) (.clearing c)
      (setAccountPlan c.email noPendingFields) := by
    unfold setAccountPlan
    split
    · exact cancels_fail _
    · refine cancels_call fun w a w' _ h => ?_
      obtain ⟨db, htx, heq⟩ := Option.map_eq_some_iff.mp h
      cases heq
      exact .clears htx
  exact cancels_bind hclear fun _ => cancels_pure _

theorem cancels_restore (c : ChangeContext) (price : String) :
    Cancels cfg auth (fun _ => .clearing c) (.restoring c price)
      (paddleSubscriptionsUpdate cfg c.subId { priceId := some price }) := by
  refine cancels_call fun w a w' hfails h => ?_
  split at h
  · rename_i hget
    cases h
    exact .restores ⟨hfails, hget⟩
  · cases h

/-- What follows the reading of the subscription. -/
theorem cancels_got (c : ChangeContext) (sub : PaddleSub) :
    Cancels cfg auth (fun _ => .resolved) (restorePhase cfg c sub) (do
      if (paddlePriceIdFor cfg.env c.curPlan c.curInterval).isSome ∧
          orNull sub.priceId ≠ paddlePriceIdFor cfg.env c.curPlan c.curInterval then
        paddleSubscriptionsUpdate cfg c.subId
          { priceId := paddlePriceIdFor cfg.env c.curPlan c.curInterval }
      setAccountPlan c.email noPendingFields
      resolve 200 "plan_change_cancelled" ()) := by
  unfold restorePhase
  cases paddlePriceIdFor cfg.env c.curPlan c.curInterval with
  | none => exact cancels_clear c
  | some price =>
    by_cases hdiffers : orNull sub.priceId ≠ some price
    · dsimp only
      rw [if_pos hdiffers, if_pos ⟨rfl, hdiffers⟩]
      exact cancels_bind (cancels_restore c price) fun _ => cancels_clear c
    · dsimp only
      rw [if_neg hdiffers, if_neg fun h => hdiffers h.2]
      exact cancels_clear c

theorem cancels_cancelScheduledChange :
    Cancels cfg auth (fun _ => .resolved) .start (cancelScheduledChange cfg auth) := by
  have hload : Cancels cfg auth CancelPhase.loaded .start
      (tryCatch (loadForChange cfg auth) planChangeFailed) :=
    cancels_rethrow cancels_loadForChange fun e => by cases e <;> exact ⟨_, rfl⟩
  refine cancels_bind hload fun c => ?_
  have hread : Cancels cfg auth (markerPhase c) (.loaded c) (getAccount c.email) :=
    cancels_read fun _ => .readsMarkers
  refine cancels_bind hread fun a => ?_
  unfold markerPhase
  split
  · exact cancels_pure _
  have hget : Cancels cfg auth (restorePhase cfg c) (.pending c) (paddleSubscriptionsGet c.subId) := by
    refine cancels_call fun w sub w' _ h => ?_
    obtain ⟨sub, hsub, heq⟩ := Option.map_eq_some_iff.mp h
    cases heq
    exact .gets hsub
  exact cancels_rethrow (cancels_bind hget fun sub => cancels_got c sub) fun _ => ⟨_, rfl⟩

end Feedbase
