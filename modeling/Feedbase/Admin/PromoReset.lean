import Feedbase.Admin.Promo
import Feedbase.Billing.PromoConcurrency
import Feedbase.Lib.Turns

/-!
# Redemptions and resets of a promo code

Any number of redemptions, revocations and reactivations of promo codes, interleaved statement
by statement. Only the commit of a claim changes the count of a code and its redemptions
together: a release and a reset change them in two statements each, and what runs between the
two decides whether the count still covers the redemptions.

## Main definitions

* `PromoRequest`, `promoSystem`
* `PromoPhase`, `PromoStep` — the statements of the three handlers, as transitions
* `Halfway`, `ResetApart` — a call between its two statements, and what may not run then
* `Covered` — the invariant of one code

## Main results

* `follows_promoHandler`
* `PromoStep.effect` — what a statement does to one code
* `Covered.room_of_move` — only a claim adds a redemption, and within the cap
* `rowsOf_le_timesOf_of_run`
-/

namespace Feedbase

open Sql

variable {cfg : Config} {w w' : World} {n : Nat} {email : String}

/-! ### The requests -/

/-- A request that may write the ledger of a code. -/
inductive PromoRequest where
  | redeem (r : RedeemRequest)
  | revoke (id : Nat)
  | reactivate (id : Nat) (data : ReactivateData)

/-- The account a request redeems for. -/
def PromoRequest.account : PromoRequest → String
  | .redeem r => r.auth.email
  | _ => ""

def PromoRequest.isRedeem : PromoRequest → Bool
  | .redeem _ => true
  | _ => false

def promoHandler (cfg : Config) : PromoRequest → Handler Unit
  | .redeem r => withoutReply (redeemPromo cfg r.code r.auth)
  | .revoke id => withoutReply (revokePromoCode id)
  | .reactivate id data => withoutReply (reactivatePromoCode cfg id data)

def promoSystem (cfg : Config) : System World Failure Unit PromoRequest LedgerEnv where
  handler := promoHandler cfg
  env e := e.1

abbrev PromoCall := Call World Failure Unit PromoRequest

abbrev PromoPool := Pool World Failure Unit PromoRequest

/-! ### The phases -/

/-- Where a call stands: a redemption in one of its stages, a request of the admin panel, or a
reset that has deleted the redemptions and not yet cleared the count. -/
inductive PromoPhase where
  | redeeming (φ : Phase)
  | admin
  | wiped (promoId : Nat)

namespace PromoPhase

/-- A request of the admin panel opens no transaction. -/
def redemption : PromoPhase → Phase
  | redeeming φ => φ
  | _ => ("", .idle)

/-- The call has deleted its redemption and has yet to give the count back. -/
def owes (n : Nat) : PromoPhase → Bool
  | redeeming (_, .halfReleased promoId) => promoId == n
  | _ => false

/-- A phase in which a call may end. -/
def AtRest : PromoPhase → Prop
  | redeeming (_, .halfReleased _) => False
  | wiped _ => False
  | _ => True

/-- A phase of the handler of a request. -/
def IsOf : PromoRequest → PromoPhase → Prop
  | .redeem r, redeeming φ => φ.1 = r.auth.email
  | .redeem _, _ => False
  | _, redeeming _ => False
  | _, _ => True

end PromoPhase

def PromoRequest.start : PromoRequest → PromoPhase
  | .redeem r => .redeeming (r.auth.email, .idle)
  | _ => .admin

/-- One statement of a call. -/
inductive PromoStep : PromoPhase → World → PromoPhase → World → Prop where
  | redeems {φ φ' : Phase} {w w' : World} (step : PhaseStep φ w φ' w') :
    PromoStep (.redeeming φ) w (.redeeming φ') w'
  | quiet {w w' : World} (same : SameLedger w w') : PromoStep .admin w .admin w'
  | sets {w : World} {promoId : Nat} {u : PromoUpdate}
    (keeps : ∀ p, (u.set p).timesRedeemed = p.timesRedeemed) (free : w.unlocked promoId = true) :
    PromoStep .admin w .admin (w.promoUpdated promoId u)
  | wipes {w : World} {promoId : Nat} :
    PromoStep .admin w (.wiped promoId) (w.redemptionsWiped promoId)
  | resets {w : World} {promoId : Nat} {u : PromoUpdate}
    (clears : ∀ p, (u.set p).timesRedeemed = 0) (free : w.unlocked promoId = true) :
    PromoStep (.wiped promoId) w .admin (w.promoUpdated promoId u)
  | resetFails {w : World} {promoId : Nat} (fails : w.fails .promoCodesUpdate = true) :
    PromoStep (.wiped promoId) w .admin w

/-- A call keeps to the phases of its handler. -/
theorem PromoStep.isOf {r : PromoRequest} {ψ ψ' : PromoPhase} (h : PromoStep ψ w ψ' w')
    (hψ : ψ.IsOf r) : ψ'.IsOf r := by
  cases r with
  | redeem r =>
    cases h with
    | redeems step => exact step.1.trans hψ
    | _ => exact hψ.elim
  | revoke id =>
    cases h with
    | redeems step => exact hψ.elim
    | _ => trivial
  | reactivate id data =>
    cases h with
    | redeems step => exact hψ.elim
    | _ => trivial

theorem PromoRequest.isOf_start (r : PromoRequest) : r.start.IsOf r := by
  cases r with
  | redeem r => rfl
  | _ => trivial

/-! ### The statements of the admin panel -/

/-- A program that returns and throws with nothing half done. -/
abbrev EndsAsAdmin {α : Type} (ψ : PromoPhase) (p : Handler α) : Prop :=
  Follows PromoStep (fun ψ' _ => ψ' = .admin) ψ p

section Admin

variable {α β : Type} {id : Nat} {promo : PromoCode} {data : ReactivateData} {terms : PromoTerms}

theorem endsAsAdmin_quiet {p : Handler α} (h : Prog.Within SameLedger p) : EndsAsAdmin .admin p :=
  .of_within h fun _ _ same => .quiet same

theorem endsAsAdmin_bind {ψ : PromoPhase} {p : Handler α} {f : α → Handler β}
    (hp : EndsAsAdmin ψ p) (hf : ∀ a, EndsAsAdmin .admin (f a)) : EndsAsAdmin ψ (p >>= f) := by
  refine Follows.bind hp ?_ fun _ _ h => h
  intro ψ' a hψ'
  rw [hψ']
  exact hf a

theorem endsAsAdmin_catch {p : Handler α} {h : Failure → Handler α} (hp : EndsAsAdmin .admin p)
    (hh : ∀ e, EndsAsAdmin .admin (h e)) : EndsAsAdmin .admin (tryCatch p h) := by
  refine Follows.catching hp (fun _ _ hok => hok) ?_
  intro ψ' e hψ'
  rw [hψ']
  exact hh e

theorem endsAsAdmin_updatePromoCode {u : PromoUpdate}
    (keeps : ∀ p, (u.set p).timesRedeemed = p.timesRedeemed) :
    EndsAsAdmin .admin (updatePromoCode id u) := by
  refine .step fun w hready => ?_
  cases hfail : w.fails .promoCodesUpdate with
  | true => exact ⟨.admin, .quiet (.refl w), rfl⟩
  | false =>
    rw [hfail, Bool.false_or] at hready
    exact ⟨.admin, .sets keeps hready, rfl⟩

theorem endsAsAdmin_reset {u : PromoUpdate} (clears : ∀ p, (u.set p).timesRedeemed = 0) :
    EndsAsAdmin (.wiped id) (updatePromoCode id u) := by
  refine .step fun w hready => ?_
  cases hfail : w.fails .promoCodesUpdate with
  | true => exact ⟨.admin, .resetFails hfail, rfl⟩
  | false =>
    rw [hfail, Bool.false_or] at hready
    exact ⟨.admin, .resets clears hready, rfl⟩

theorem follows_wipeRedemptions :
    Follows PromoStep (fun ψ r => ψ = match r with
      | .ok _ => .wiped id
      | .error _ => .admin) .admin (wipeRedemptions id) := by
  refine .step fun w _ => ?_
  cases hfail : w.fails .promoRedemptionsDelete with
  | true => exact ⟨.admin, .quiet (.refl w), rfl⟩
  | false => exact ⟨.wiped id, .wipes, rfl⟩

theorem endsAsAdmin_applyReactivation {resetUsage : Bool} :
    EndsAsAdmin .admin (applyReactivation id terms resetUsage) := by
  cases resetUsage with
  | false => exact endsAsAdmin_bind (endsAsAdmin_updatePromoCode fun _ => rfl) fun _ => rfl
  | true =>
    refine Follows.bind follows_wipeRedemptions ?_ fun _ _ h => h
    rintro _ a rfl
    exact endsAsAdmin_bind (endsAsAdmin_reset fun _ => rfl) fun _ => rfl

theorem within_reactivationTerms : Prog.Within SameLedger (reactivationTerms cfg promo data) := by
  have hsame : ∀ {α : Type} {site : Site} {f : World → Option (α × World)},
      (∀ w a w', f w = some (a, w') → SameLedger w w') → Prog.Within SameLedger (call site f) :=
    within_call SameLedger.refl
  have hpaddle : Prog.Within SameLedger (createPaddlePromoDiscount cfg) := by
    refine .ite (.throw _) (hsame fun w a w' h => ?_)
    cases h
    exact ⟨rfl, rfl, rfl, rfl⟩
  have hstripe : Prog.Within SameLedger (createStripePromotionCode promo.code) := by
    refine .bind (hsame fun w a w' h => ?_) fun _ => hsame fun w a w' h => ?_
    · cases h
      exact .refl w
    · cases h
      exact .refl w
  refine .ite (.ite (.throw _) (.ite (.throw _) (.ite ?_ (.ite (.throw _) ?_))))
    (.ite (.throw _) (.pure _))
  · exact .bind hpaddle fun _ => .pure _
  · exact .bind hstripe fun _ => .pure _

theorem endsAsAdmin_revokePromoCode : EndsAsAdmin .admin (revokePromoCode id) := by
  refine endsAsAdmin_catch ?_ fun e => by cases e <;> rfl
  refine endsAsAdmin_bind (endsAsAdmin_quiet (within_query SameLedger.refl _)) fun found => ?_
  cases found with
  | none => rfl
  | some promo => exact endsAsAdmin_bind (endsAsAdmin_updatePromoCode fun _ => rfl) fun _ => rfl

theorem endsAsAdmin_reactivatePromoCode :
    EndsAsAdmin .admin (reactivatePromoCode cfg id data) := by
  refine endsAsAdmin_catch ?_ fun e => by cases e <;> rfl
  refine endsAsAdmin_bind (endsAsAdmin_quiet (within_query SameLedger.refl _)) fun found => ?_
  cases found with
  | none => rfl
  | some promo =>
    dsimp only
    split
    · rfl
    · exact endsAsAdmin_bind (endsAsAdmin_quiet within_reactivationTerms) fun _ =>
        endsAsAdmin_applyReactivation

end Admin

/-- A stage in which a redemption is settled is not halfway through a release. -/
theorem atRest_of_settled {α : Type} {φ : Phase} {r : Except Failure α} (h : Settled φ.2 r) :
    (PromoPhase.redeeming φ).AtRest := by
  obtain ⟨email, σ⟩ := φ
  cases r with
  | ok a =>
    obtain ⟨promoId, rfl⟩ := h
    trivial
  | error e =>
    rcases h with rfl | ⟨promoId, hasRow, rfl⟩
    · trivial
    · trivial

/-- Every statement of a handler is one of the transitions. -/
theorem follows_promoHandler (r : PromoRequest) :
    Follows PromoStep (fun ψ _ => ψ.AtRest) r.start (promoHandler cfg r) := by
  have hreply : ∀ {α : Type} {ψ : PromoPhase} {p : Handler α},
      Follows PromoStep (fun ψ _ => ψ.AtRest) ψ p →
        Follows PromoStep (fun ψ _ => ψ.AtRest) ψ (withoutReply p) :=
    fun hp => .bind hp (fun _ _ h => h) fun _ _ h => h
  have hadmin : ∀ {α : Type} {p : Handler α}, EndsAsAdmin .admin p →
      Follows PromoStep (fun ψ _ => ψ.AtRest) .admin (withoutReply p) :=
    fun hp => hreply (hp.mono fun _ _ h => h ▸ trivial)
  cases r with
  | redeem r =>
    refine hreply ((follows_redeemPromo r.code r.auth).map PromoPhase.redeeming ?_ ?_)
    · exact fun _ _ _ _ step => .redeems step
    · exact fun _ _ hpost => atRest_of_settled hpost.2
  | revoke id => exact hadmin endsAsAdmin_revokePromoCode
  | reactivate id data => exact hadmin endsAsAdmin_reactivatePromoCode

/-! ### Nobody waits where no transaction is open -/

section Ready

variable {id : Nat} {promo : PromoCode} {data : ReactivateData} {auth : AuthData}

/-- No statement of the program waits when nobody has a transaction open. -/
abbrev WaitsForClaims {α : Type} (p : Handler α) : Prop := p.ReadyIn fun w => w.claims = []

theorem unlocked_of_noClaims {promoId : Nat} (h : w.claims = []) : w.unlocked promoId = true := by
  rw [unlocked_iff, h]
  exact fun _ hc => absurd hc List.not_mem_nil

theorem waitsForClaims_claimRedemption {row : PromoRedemption} :
    WaitsForClaims (claimRedemption id row) := by
  have hupdate : WaitsForClaims (claimUpdate id) :=
    .step fun w h => by simp [unlocked_of_noClaims h]
  refine .bind (.attempt _ _) fun _ => .bind hupdate fun counted => ?_
  split
  · exact .bind (.atomic _) fun _ => .pure _
  · refine .tryCatch (.bind (.atomic _) fun _ => .bind (.attempt _ _) fun _ => .pure _) fun e => ?_
    refine .bind (.atomic _) fun _ => ?_
    cases e <;> trivial

theorem waitsForClaims_releaseRedemption : WaitsForClaims (releaseRedemption id email) := by
  have hdelete : WaitsForClaims (releaseDelete id email) :=
    .step fun w h => by simp [World.pendingKey, h]
  have hupdate : WaitsForClaims (releaseUpdate id) :=
    .step fun w h => by simp [unlocked_of_noClaims h]
  exact .tryCatch (.bind hdelete fun _ => hupdate) fun _ => .atomic _

theorem waitsForClaims_grantFreePlan {periodEnd : Option Time} :
    WaitsForClaims (grantFreePlan cfg promo email periodEnd) := by
  have hset {f : AccountFields} : WaitsForClaims (setAccountPlan email f) := by
    unfold setAccountPlan
    split
    · exact .throw _
    · exact .attempt _ _
  have hlive : WaitsForClaims (cancelActiveSubscription cfg email) := by
    unfold cancelActiveSubscription cancelLiveSubscription getAccount
    split
    · refine .bind (.read _) fun acct => ?_
      split
      · exact .pure _
      · split
        · exact .pure _
        · exact .tryCatch (.attempt _ _) fun _ => .pure _
    · refine .bind (.read _) fun acct => ?_
      split
      · exact .pure _
      · split
        · exact .pure _
        · exact .tryCatch (.attempt _ _) fun _ => .pure _
  exact .bind hlive fun _ => hset

theorem waitsForClaims_redeemFreePlan : WaitsForClaims (redeemFreePlan cfg promo auth) := by
  refine .bind (.read _) fun now => .bind waitsForClaims_claimRedemption fun claim => ?_
  cases claim with
  | refused reason => exact .throw _
  | claimed =>
    refine .bind (.tryCatch waitsForClaims_grantFreePlan fun e => ?_) fun _ => .pure _
    exact .bind waitsForClaims_releaseRedemption fun _ => .throw _

theorem waitsForClaims_redeemPercentOff :
    WaitsForClaims (redeemPercentOff cfg promo auth) := by
  refine .bind waitsForClaims_claimRedemption fun claim => ?_
  cases claim with
  | refused reason => exact .throw _
  | claimed => exact .pure _

theorem waitsForClaims_redeemNormalized {normalized : String} :
    WaitsForClaims (redeemNormalized cfg normalized auth) := by
  refine .bind (.read _) fun found => ?_
  cases found with
  | none => exact .throw _
  | some promo =>
    refine .bind (.read _) fun now => .ite (.throw _) (.ite (.throw _) ?_)
    refine .bind (.read _) fun already => .ite (.throw _) (.ite ?_ ?_)
    · exact waitsForClaims_redeemFreePlan
    · exact waitsForClaims_redeemPercentOff

theorem waitsForClaims_redeemPromo (code : String) :
    WaitsForClaims (redeemPromo cfg code auth) := by
  unfold redeemPromo
  generalize toUpperCase (trim code) = normalized
  refine .ite (.throw _) (.ite (.throw _) (.tryCatch waitsForClaims_redeemNormalized fun e => ?_))
  cases e <;> trivial

theorem waitsForClaims_updatePromoCode {u : PromoUpdate} :
    WaitsForClaims (updatePromoCode id u) :=
  .step fun w h => by simp [unlocked_of_noClaims h]

theorem waitsForClaims_reactivationTerms :
    WaitsForClaims (reactivationTerms cfg promo data) := by
  have hpaddle : WaitsForClaims (createPaddlePromoDiscount cfg) := by
    unfold createPaddlePromoDiscount
    split
    · exact .throw _
    · exact .attempt _ _
  have hstripe : WaitsForClaims (createStripePromotionCode promo.code) :=
    .bind (.attempt _ _) fun _ => .attempt _ _
  refine .ite (.ite (.throw _) (.ite (.throw _) (.ite ?_ (.ite (.throw _) ?_))))
    (.ite (.throw _) (.pure _))
  · exact .bind hpaddle fun _ => .pure _
  · exact .bind hstripe fun _ => .pure _

theorem waitsForClaims_applyReactivation {terms : PromoTerms} {resetUsage : Bool} :
    WaitsForClaims (applyReactivation id terms resetUsage) := by
  have hwipe : WaitsForClaims (wipeRedemptions id) := .step fun w h => by simp [h]
  cases resetUsage with
  | false => exact .bind waitsForClaims_updatePromoCode fun _ => .pure _
  | true => exact .bind hwipe fun _ => .bind waitsForClaims_updatePromoCode fun _ => .pure _

theorem waitsForClaims_promoHandler (r : PromoRequest) : WaitsForClaims (promoHandler cfg r) := by
  cases r with
  | redeem r => exact .bind (waitsForClaims_redeemPromo r.code) fun _ => .pure _
  | revoke id =>
    refine .bind (.tryCatch (.bind (.read _) fun found => ?_) fun e => ?_) fun _ => .pure _
    · cases found with
      | none => exact .throw _
      | some promo => exact .bind waitsForClaims_updatePromoCode fun _ => .pure _
    · cases e <;> trivial
  | reactivate id data =>
    refine .bind (.tryCatch (.bind (.read _) fun found => ?_) fun e => ?_) fun _ => .pure _
    · cases found with
      | none => exact .throw _
      | some promo =>
        dsimp only
        split
        · exact .throw _
        · exact .bind waitsForClaims_reactivationTerms fun _ => waitsForClaims_applyReactivation
    · cases e <;> trivial

end Ready

/-! ### Halfway through a release or a reset -/

/-- A world in which the account alone has redeemed the code. -/
def redeemedOnce (n : Nat) (email : String) : World where
  db :=
    { promoCodes :=
        .single { id := n, code := "", type := .percentOff, timesRedeemed := 1 }
      promoRedemptions :=
        .single { id := 1, promoCodeId := n, tenantId := 1, accountEmail := some email } }

@[simp] theorem rowsOf_redeemedOnce : rowsOf (redeemedOnce n email).db n = 1 := by
  simp [rowsOf, redeemedOnce]

@[simp] theorem rowsFor_redeemedOnce : rowsFor (redeemedOnce n email).db n email = 1 := by
  simp [rowsFor, redeemedOnce]

@[simp] theorem timesOf_redeemedOnce : timesOf (redeemedOnce n email).db n = 1 := by
  simp [timesOf, redeemedOnce, Table.byId, Row.id]

/-- Each statement answered by the world `w`, the program takes from the count of the code
before it writes the redemptions of the code. -/
def countsDown {α : Type} (n : Nat) (w : World) : Handler α → Bool
  | .act _ next cont =>
    timesOf (next w).db n < timesOf w.db n ||
      rowsOf (next w).db n == rowsOf w.db n && countsDown n w (cont w)
  | _ => false

/-- The call stands between deleting redemptions of the code and taking from its count. -/
def Halfway (n : Nat) (c : PromoCall) : Bool :=
  countsDown n (redeemedOnce n c.request.account) c.prog

/-- The statements that would part the count of a code from its redemptions do not run in the
middle of another call. -/
structure ResetApart (n : Nat) (P Q : PromoPool) : Prop where
  /-- No claim commits between the two statements of a reset. -/
  commit : rowsOf P.state.db n < rowsOf Q.state.db n →
    ∀ c ∈ P.calls, c.request.isRedeem = false → Halfway n c = false
  /-- A release finds the redemption it takes back. -/
  release : ∀ (i : Nat) (c d : PromoCall) (r : RedeemRequest), P.calls[i]? = some c →
    Q.calls[i]? = some d → d.request = .redeem r → Halfway n c = false → Halfway n d = true →
      0 < rowsFor P.state.db n r.auth.email
  /-- No reset clears the count between the two statements of a release. -/
  reset : timesOf Q.state.db n < timesOf P.state.db n → ∀ (i : Nat) (c d : PromoCall),
    P.calls[i]? = some c → Q.calls[i]? = some d → c.request.isRedeem = false →
      Halfway n c = true → Halfway n d = false →
        ∀ e ∈ P.calls, e.request.isRedeem = true → Halfway n e = false

section Updated

variable {promoId : Nat} {u : PromoUpdate}

theorem timesOf_promoUpdated_of_ne (hne : n ≠ promoId) :
    timesOf (w.promoUpdated promoId u).db n = timesOf w.db n := by
  simp only [timesOf, World.promoUpdated, timesOf_update, if_neg hne]

theorem timesOf_promoUpdated_of_keeps (keeps : ∀ p, (u.set p).timesRedeemed = p.timesRedeemed) :
    timesOf (w.promoUpdated promoId u).db n = timesOf w.db n := by
  simp only [timesOf, World.promoUpdated, timesOf_update, keeps, ite_self]

theorem timesOf_promoUpdated_of_clears (clears : ∀ p, (u.set p).timesRedeemed = 0) :
    timesOf (w.promoUpdated n u).db n = 0 := by
  simp only [timesOf, World.promoUpdated, timesOf_update, clears, if_true]
  cases w.db.promoCodes.byId n <;> rfl

theorem rowsOf_redemptionsWiped : rowsOf (w.redemptionsWiped n).db n = 0 := by
  simp only [rowsOf, World.redemptionsWiped, Table.rows_delete, List.countP_filter]
  refine List.countP_eq_zero.mpr fun r _ => ?_
  simp

theorem rowsOf_redemptionsWiped_of_ne (hne : n ≠ promoId) :
    rowsOf (w.redemptionsWiped promoId).db n = rowsOf w.db n := by
  simp only [rowsOf, World.redemptionsWiped, Table.rows_delete, List.countP_filter]
  refine List.countP_congr fun r _ => ?_
  simp only [Bool.and_eq_true, beq_iff_eq, Bool.not_eq_true', beq_eq_false_iff_ne,
    and_iff_left_iff_imp]
  rintro rfl
  exact hne

end Updated

section CountsDown

variable {ψ : PromoPhase} {p : Handler Unit}

/-- A program in a phase of one of the three handlers. -/
abbrev FollowsPromo (ψ : PromoPhase) (p : Handler Unit) : Prop :=
  Follows PromoStep (fun ψ _ => ψ.AtRest) ψ p

/-- A statement that leaves the ledger alone does not decide. -/
theorem countsDown_act {ready : World → Bool} {next : World → World}
    {cont : World → Handler Unit} (same : SameLedger w (next w)) :
    countsDown n w (.act ready next cont) = countsDown n w (cont w) := by
  have hrows : rowsOf (next w).db n = rowsOf w.db n := by
    rw [rowsOf, same.promoRedemptions, rowsOf]
  have htimes : timesOf (next w).db n = timesOf w.db n := by
    rw [timesOf, same.promoCodes, timesOf]
  simp only [countsDown, hrows, htimes, lt_irrefl, decide_false, Bool.false_or, BEq.rfl,
    Bool.true_and]

/-- A call that has deleted its redemption goes on to give the count back. -/
theorem countsDown_of_halfReleased {e : String}
    (hp : FollowsPromo (.redeeming (e, .halfReleased n)) p) (hready : WaitsForClaims p) :
    countsDown n (redeemedOnce n email) p = true := by
  induction p with
  | ret a => exact hp.elim
  | fail e => exact hp.elim
  | act ready next cont ih =>
    obtain ⟨ψ', hT, hcont⟩ := hp (redeemedOnce n email) (hready.1 _ rfl)
    generalize hnext : next (redeemedOnce n email) = w' at hT
    cases hT with
    | redeems step =>
      rename_i φ'
      obtain ⟨e', σ'⟩ := φ'
      obtain ⟨rfl, hT⟩ := step
      cases hT with
      | quiet same =>
        rw [countsDown_act (hnext ▸ same)]
        exact ih _ hcont (hready.2 _)
      | abandon claim => cases claim
      | release free =>
        simp [countsDown, hnext, timesOf_countReleased]
      | releaseFails fails => cases fails

/-- One that holds its redemption deletes it first. -/
theorem countsDown_of_held (hp : FollowsPromo (.redeeming (email, .held n)) p)
    (hready : WaitsForClaims p) : countsDown n (redeemedOnce n email) p = false := by
  induction p with
  | ret a => rfl
  | fail e => rfl
  | act ready next cont ih =>
    obtain ⟨ψ', hT, hcont⟩ := hp (redeemedOnce n email) (hready.1 _ rfl)
    generalize hnext : next (redeemedOnce n email) = w' at hT
    cases hT with
    | redeems step =>
      rename_i φ'
      obtain ⟨e', σ'⟩ := φ'
      obtain ⟨rfl, hT⟩ := step
      cases hT with
      | quiet same =>
        rw [countsDown_act (hnext ▸ same)]
        exact ih _ hcont (hready.2 _)
      | abandon claim => cases claim
      | delete =>
        have hrows := rowsOf_rowDeleted (redeemedOnce n e') n e' n
        rw [if_pos rfl, rowsFor_redeemedOnce, rowsOf_redeemedOnce] at hrows
        have htimes : timesOf ((redeemedOnce n e').rowDeleted n e').db n = 1 :=
          @timesOf_redeemedOnce n e'
        simp only [countsDown, hnext, htimes, timesOf_redeemedOnce, rowsOf_redeemedOnce]
        simp only [lt_irrefl, decide_false, Bool.false_or, Bool.and_eq_false_imp, beq_iff_eq]
        omega
      | deleteFails fails => cases fails

/-- A reset that has deleted the redemptions goes on to clear the count. -/
theorem countsDown_of_wiped (hp : FollowsPromo (.wiped n) p) (hready : WaitsForClaims p) :
    countsDown n (redeemedOnce n email) p = true := by
  cases p with
  | ret a => exact hp.elim
  | fail e => exact hp.elim
  | act ready next cont =>
    obtain ⟨ψ', hT, -⟩ := hp (redeemedOnce n email) (hready.1 _ rfl)
    generalize hnext : next (redeemedOnce n email) = w' at hT
    cases hT with
    | resets clears free =>
      simp [countsDown, hnext, timesOf_promoUpdated_of_clears clears]
    | resetFails fails => cases fails

/-- A request of the admin panel that has deleted no redemption of the code does not get to
clear its count first. -/
theorem countsDown_of_admin (hψ : ψ = .admin ∨ ∃ m, m ≠ n ∧ ψ = .wiped m)
    (hp : FollowsPromo ψ p) (hready : WaitsForClaims p) :
    countsDown n (redeemedOnce n email) p = false := by
  induction p generalizing ψ with
  | ret a => rfl
  | fail e => rfl
  | act ready next cont ih =>
    obtain ⟨ψ', hT, hcont⟩ := hp (redeemedOnce n email) (hready.1 _ rfl)
    generalize hnext : next (redeemedOnce n email) = w' at hT
    have hrest := fun h => ih _ h hcont (hready.2 _)
    cases hT with
    | redeems step =>
      rcases hψ with hψ | ⟨m, -, hψ⟩
      · cases hψ
      · cases hψ
    | quiet same =>
      rw [countsDown_act (hnext ▸ same)]
      exact hrest (.inl rfl)
    | @sets _ promoId u keeps free =>
      simp [countsDown, hnext, timesOf_promoUpdated_of_keeps keeps, hrest (.inl rfl)]
    | @wipes _ promoId =>
      have htimes : timesOf ((redeemedOnce n email).redemptionsWiped promoId).db n = 1 :=
        @timesOf_redeemedOnce n email
      by_cases hn : n = promoId
      · subst hn
        simp [countsDown, hnext, htimes, rowsOf_redemptionsWiped]
      · simp [countsDown, hnext, htimes, hrest (.inr ⟨promoId, Ne.symm hn, rfl⟩)]
    | @resets _ promoId u clears free =>
      obtain ⟨m, hm, hψ⟩ := hψ.resolve_left nofun
      cases hψ
      simp [countsDown, hnext, timesOf_promoUpdated_of_ne (Ne.symm hm), hrest (.inl rfl)]
    | resetFails fails => cases fails

end CountsDown

/-! ### What a statement does to the ledger of a code -/

variable {phases : List PromoPhase} {ψ ψ' : PromoPhase} {i : Nat}

/-- What one statement of a call does to the redemptions and the count of the code `n`. -/
inductive LedgerEffect (n : Nat) (ψ : PromoPhase) (w : World) (ψ' : PromoPhase) (w' : World) :
    Prop where
  | none (rows : rowsOf w'.db n = rowsOf w.db n) (times : timesOf w'.db n = timesOf w.db n)
    (owes : ψ'.owes n = ψ.owes n) (wiped : ψ' = .wiped n → ψ = .wiped n)
  | claimed (rows : rowsOf w'.db n = rowsOf w.db n + 1)
    (times : timesOf w'.db n = timesOf w.db n + 1) (owes : ψ'.owes n = ψ.owes n)
    (wiped : ψ' ≠ .wiped n)
    (cap : ∃ p ∈ w'.db.promoCodes, p.id = n ∧ p.maxRedemptions.all (timesOf w'.db n ≤ ·) = true)
  | deleted {e : String} (was : ψ = .redeeming (e, .held n))
    (becomes : ψ' = .redeeming (e, .halfReleased n))
    (rows : rowsOf w'.db n + rowsFor w.db n e = rowsOf w.db n)
    (times : timesOf w'.db n = timesOf w.db n)
  | released (rows : rowsOf w'.db n = rowsOf w.db n)
    (times : timesOf w.db n ≤ timesOf w'.db n + 1) (owed : ψ.owes n = true)
    (owes : ψ'.owes n = false) (wiped : ψ' ≠ .wiped n)
  | wiped (was : ψ = .admin) (becomes : ψ' = .wiped n) (rows : rowsOf w'.db n = 0)
    (times : timesOf w'.db n = timesOf w.db n)
  | cleared (was : ψ = .wiped n) (becomes : ψ' = .admin)
    (rows : rowsOf w'.db n = rowsOf w.db n) (times : timesOf w'.db n = 0)

theorem PromoPhase.redeeming_ne_wiped {φ : Phase} : PromoPhase.redeeming φ ≠ .wiped n :=
  fun h => by cases h

theorem PromoPhase.wiped_of_redeeming {φ : Phase} (h : .redeeming φ = PromoPhase.wiped n) :
    ψ = .wiped n :=
  absurd h PromoPhase.redeeming_ne_wiped

theorem PromoPhase.wiped_of_admin (h : .admin = PromoPhase.wiped n) : ψ = .wiped n := by
  cases h

theorem ledgerEffect_commit {e : String} {promoId : Nat} {row row' : PromoRedemption} {c : Claim}
    {redemptions : Table PromoRedemption}
    (hlocks : Locks w (phases.map PromoPhase.redemption))
    (hψ : phases[i]? = some (.redeeming (e, .pending promoId row)))
    (code : row.promoCodeId = promoId)
    (claim : w.claims.find? (·.promoId == promoId) = some c) (pending : c.pending = some row')
    (inserted : w.db.promoRedemptions.insert? (fun id => { row' with id := id }) =
      some redemptions) :
    LedgerEffect n (.redeeming (e, .pending promoId row)) w (.redeeming (e, .held promoId))
      (w.committed promoId redemptions) := by
  have hφ : (phases.map PromoPhase.redemption)[i]? = some (e, .pending promoId row) := by
    rw [List.getElem?_map, hψ]
    rfl
  obtain rfl : c = ⟨promoId, true, some row⟩ := hlocks.claim_eq hφ rfl rfl claim
  obtain rfl : row' = row := (Option.some.inj pending).symm
  -- while the claim is held nobody else can have taken the last redemption
  obtain ⟨p, hp, hid, hroom⟩ := hlocks.room _ (hlocks.owned i _ hφ _ rfl) rfl
  have hrows := countP_inserted (q := fun r => r.promoCodeId == n) (fun _ => rfl) inserted
  have htimes : timesOf (w.committed promoId redemptions).db n =
      timesOf w.db n + if n = promoId then 1 else 0 := timesOf_committed hp hid n
  by_cases hn : n = promoId
  · subst hn
    rw [if_pos rfl] at htimes
    rw [code, if_pos (beq_self_eq_true n)] at hrows
    refine .claimed hrows htimes rfl PromoPhase.redeeming_ne_wiped
      ⟨{ p with timesRedeemed := p.timesRedeemed + 1 }, ?_, hid, ?_⟩
    · simp only [World.committed, Table.mem_update]
      exact ⟨p, hp, by simp [hid]⟩
    · have hbefore : timesOf w.db n = p.timesRedeemed := by
        rw [timesOf, Table.byId_eq_some_iff.mpr ⟨hp, hid⟩]
        rfl
      rw [htimes, hbefore]
      cases hmax : p.maxRedemptions with
      | none => rfl
      | some m => simpa [hmax, Nat.succ_le_iff] using hroom
  · rw [if_neg hn] at htimes
    refine .none ?_ htimes rfl PromoPhase.wiped_of_redeeming
    rw [code, if_neg (by simpa using Ne.symm hn)] at hrows
    exact hrows

/-- Every statement does one of these. -/
theorem PromoStep.effect (hlocks : Locks w (phases.map PromoPhase.redemption))
    (hψ : phases[i]? = some ψ) (hT : PromoStep ψ w ψ' w') : LedgerEffect n ψ w ψ' w' := by
  have hsame : ∀ {w'}, SameLedger w w' →
      rowsOf w'.db n = rowsOf w.db n ∧ timesOf w'.db n = timesOf w.db n := by
    intro w' same
    exact ⟨by rw [rowsOf, same.promoRedemptions, rowsOf], by rw [timesOf, same.promoCodes, timesOf]⟩
  cases hT with
  | @redeems φ φ' _ _ step =>
    obtain ⟨e, σ⟩ := φ
    obtain ⟨e', σ'⟩ := φ'
    obtain ⟨rfl, hT⟩ := step
    cases hT with
    | quiet same => exact .none (hsame same).1 (hsame same).2 rfl PromoPhase.wiped_of_redeeming
    | lock free claimable => exact .none rfl rfl rfl PromoPhase.wiped_of_redeeming
    | abandon claim =>
      refine .none rfl rfl ?_ PromoPhase.wiped_of_redeeming
      cases σ with
      | halfReleased promoId => cases claim
      | _ => rfl
    | insert code account => exact .none rfl rfl rfl PromoPhase.wiped_of_redeeming
    -- the only statement that counts and records at once
    | commit code account claim pending inserted =>
      exact ledgerEffect_commit hlocks hψ code claim pending inserted
    -- a release deletes the redemption first and takes it from the count afterwards
    | @delete _ promoId =>
      have hrows := rowsOf_rowDeleted w promoId e' n
      by_cases hn : n = promoId
      · subst hn
        rw [if_pos rfl] at hrows
        exact .deleted rfl rfl hrows rfl
      · rw [if_neg hn] at hrows
        refine .none hrows rfl ?_ PromoPhase.wiped_of_redeeming
        simpa [PromoPhase.owes] using Ne.symm hn
    | @release _ promoId free =>
      have htimes := @timesOf_countReleased w promoId n
      by_cases hn : n = promoId
      · subst hn
        rw [if_pos rfl] at htimes
        exact .released rfl (by omega) (beq_self_eq_true n) rfl PromoPhase.redeeming_ne_wiped
      · rw [if_neg hn] at htimes
        refine .none rfl htimes ?_ PromoPhase.wiped_of_redeeming
        simpa [PromoPhase.owes] using Ne.symm hn
    | deleteFails fails => exact .none rfl rfl rfl PromoPhase.wiped_of_redeeming
    | @releaseFails _ promoId fails =>
      by_cases hn : n = promoId
      · subst hn
        exact .released rfl (by omega) (beq_self_eq_true n) rfl PromoPhase.redeeming_ne_wiped
      · refine .none rfl rfl ?_ PromoPhase.wiped_of_redeeming
        simpa [PromoPhase.owes] using Ne.symm hn
    | log => exact .none rfl rfl rfl PromoPhase.wiped_of_redeeming
  | quiet same => exact .none (hsame same).1 (hsame same).2 rfl PromoPhase.wiped_of_admin
  | sets keeps free =>
    exact .none rfl (timesOf_promoUpdated_of_keeps keeps) rfl PromoPhase.wiped_of_admin
  -- a reset deletes the redemptions first and clears the count afterwards
  | @wipes _ promoId =>
    by_cases hn : n = promoId
    · subst hn
      exact .wiped rfl rfl rowsOf_redemptionsWiped rfl
    · refine .none (rowsOf_redemptionsWiped_of_ne hn) rfl rfl fun h => ?_
      cases h
      exact absurd rfl hn
  | @resets _ promoId u clears free =>
    by_cases hn : n = promoId
    · subst hn
      exact .cleared rfl rfl rfl (timesOf_promoUpdated_of_clears clears)
    · exact .none rfl (timesOf_promoUpdated_of_ne hn) rfl PromoPhase.wiped_of_admin
  | resetFails fails => exact .none rfl rfl rfl PromoPhase.wiped_of_admin

/-! ### The invariant -/

/-- No redemption of the code is left between the two statements of a reset, and the count
covers the redemptions and what is still to be taken from it. -/
structure Covered (n : Nat) (w : World) (phases : List PromoPhase) : Prop where
  locks : Locks w (phases.map PromoPhase.redemption)
  wiped : .wiped n ∈ phases → rowsOf w.db n = 0
  covered : rowsOf w.db n + phases.countP (PromoPhase.owes n) ≤ timesOf w.db n

/-- One statement keeps the transactions apart. -/
theorem PromoStep.locks (hlocks : Locks w (phases.map PromoPhase.redemption))
    (hψ : phases[i]? = some ψ) (hT : PromoStep ψ w ψ' w') :
    Locks w' ((phases.set i ψ').map PromoPhase.redemption) := by
  have hφ : (phases.map PromoPhase.redemption)[i]? = some ψ.redemption := by
    rw [List.getElem?_map, hψ]
    rfl
  rw [List.map_set]
  -- a request of the admin panel holds no transaction, before and after
  have hkeeps : ψ'.redemption = ψ.redemption →
      (phases.map PromoPhase.redemption).set i ψ'.redemption =
        phases.map PromoPhase.redemption := by
    intro heq
    obtain ⟨hlt, hget⟩ := List.getElem?_eq_some_iff.mp hφ
    rw [heq, ← hget, List.set_getElem_self]
  have hupdated : ∀ {promoId : Nat} {u : PromoUpdate}, w.unlocked promoId = true →
      Locks (w.promoUpdated promoId u) (phases.map PromoPhase.redemption) := by
    intro promoId u free
    refine hlocks.of_unlocked free rfl fun p hp hne => ?_
    simp only [World.promoUpdated, Table.mem_update]
    exact ⟨p, hp, by simp [hne]⟩
  cases hT with
  | redeems step => exact hlocks.step hφ step
  | quiet same =>
    rw [hkeeps rfl]
    exact hlocks.of_sameLedger same
  | sets keeps free =>
    rw [hkeeps rfl]
    exact hupdated free
  | wipes =>
    rw [hkeeps rfl]
    exact ⟨hlocks.owned, hlocks.nodup, hlocks.exclusive, hlocks.room⟩
  | resets clears free =>
    rw [hkeeps rfl]
    exact hupdated free
  | resetFails fails =>
    rw [hkeeps rfl]
    exact hlocks

/-- One statement keeps the invariant, if it is not one that parts the count from the
redemptions. -/
theorem Covered.step (h : Covered n w phases) (hψ : phases[i]? = some ψ)
    (hT : PromoStep ψ w ψ' w')
    (hcommit : rowsOf w.db n < rowsOf w'.db n → .wiped n ∉ phases)
    (hrelease : ∀ e, ψ = .redeeming (e, .held n) → ψ' = .redeeming (e, .halfReleased n) →
      0 < rowsFor w.db n e)
    (hreset : timesOf w'.db n < timesOf w.db n → ψ = .wiped n → ψ' = .admin →
      phases.countP (PromoPhase.owes n) = 0) :
    Covered n w' (phases.set i ψ') := by
  have hcount := countP_set_add (p := PromoPhase.owes n) (b := ψ') hψ
  have hcovered := h.covered
  -- between the two statements of a reset no redemption may come back
  have hwiped : (ψ' = .wiped n → rowsOf w'.db n = 0) → rowsOf w'.db n ≤ rowsOf w.db n →
      .wiped n ∈ phases.set i ψ' → rowsOf w'.db n = 0 := by
    intro hnew hle hmem
    rcases List.mem_or_eq_of_mem_set hmem with hmem | heq
    · have hzero := h.wiped hmem
      omega
    · exact hnew heq.symm
  refine ⟨hT.locks h.locks hψ, ?_, ?_⟩
  · cases hT.effect (n := n) h.locks hψ with
    | none rows times owes wiped =>
      refine hwiped (fun heq => ?_) rows.le
      rw [rows]
      exact h.wiped (wiped heq ▸ List.mem_of_getElem? hψ)
    | claimed rows times owes wiped cap =>
      intro hmem
      rcases List.mem_or_eq_of_mem_set hmem with hmem | heq
      · exact absurd hmem (hcommit (by omega))
      · exact absurd heq.symm wiped
    | deleted was becomes rows times => exact hwiped (fun heq => by cases becomes ▸ heq) (by omega)
    | released rows times owed owes wiped => exact hwiped (fun heq => absurd heq wiped) rows.le
    | wiped was becomes rows times => exact fun _ => rows
    | cleared was becomes rows times => exact hwiped (fun heq => by cases becomes ▸ heq) rows.le
  · cases hT.effect (n := n) h.locks hψ with
    | none rows times owes wiped =>
      rw [owes] at hcount
      omega
    | claimed rows times owes wiped cap =>
      rw [owes] at hcount
      omega
    | @deleted e was becomes rows times =>
      -- what the count still covers moves from the row to what is owed
      have hpos := hrelease e was becomes
      subst was becomes
      simp only [PromoPhase.owes, BEq.rfl, if_true, Bool.false_eq_true, if_false] at hcount
      omega
    | released rows times owed owes wiped =>
      rw [owed, owes, if_pos rfl, if_neg Bool.false_ne_true] at hcount
      omega
    | wiped was becomes rows times =>
      subst was becomes
      simp only [PromoPhase.owes, Bool.false_eq_true, if_false] at hcount
      omega
    | cleared was becomes rows times =>
      have hzero := h.wiped (was ▸ List.mem_of_getElem? hψ)
      -- either the count was clear already, or nobody owes it anything
      have howes : phases.countP (PromoPhase.owes n) = 0 := by
        by_cases hlt : timesOf w'.db n < timesOf w.db n
        · exact hreset hlt was becomes
        · omega
      subst was becomes
      simp only [PromoPhase.owes, Bool.false_eq_true, if_false] at hcount
      omega

/-! ### All interleavings -/

variable {P₀ P Q : PromoPool} {c : PromoCall}

/-- Every call is in the phase listed for it, which is one of its own handler. -/
structure InPhases (P : PromoPool) (phases : List PromoPhase) : Prop where
  tracks : Tracks PromoStep (fun ψ _ => ψ.AtRest) P phases
  matched : Tracks.Knows (fun _ => True) (fun r ψ _ => ψ.IsOf r) P phases
  ready : ∀ c ∈ P.calls, WaitsForClaims c.prog

theorem waitsForClaims_of_move {m : Move PromoRequest LedgerEnv}
    (hm : (promoSystem cfg).move P m = some Q) (hP : ∀ c ∈ P.calls, WaitsForClaims c.prog) :
    ∀ c ∈ Q.calls, WaitsForClaims c.prog := by
  have hrun : (promoSystem cfg).schedule P [m] = some Q := System.schedule_cons hm rfl
  exact System.calls_of_run (K := fun _ p => WaitsForClaims p) waitsForClaims_promoHandler
    (fun _ _ _ _ s h _ => h.2 s) hP (System.run_of_schedule hrun)

namespace InPhases

variable (h : InPhases P phases) (hc : P.calls[i]? = some c)
include h hc

theorem follows (hψ : phases[i]? = some ψ) :
    FollowsPromo ψ c.prog ∧ WaitsForClaims c.prog ∧ ψ.IsOf c.request := by
  obtain ⟨ψ', hψ', hfol⟩ := forall₂_getElem? h.tracks hc
  obtain rfl : ψ' = ψ := Option.some.inj (hψ'.symm.trans hψ)
  exact ⟨hfol, h.ready c (List.mem_of_getElem? hc), h.matched.call i c ψ' hc hψ⟩

/-- A reset that has deleted the redemptions is halfway. -/
theorem halfway_of_wiped (hψ : phases[i]? = some (.wiped n)) :
    c.request.isRedeem = false ∧ Halfway n c = true := by
  obtain ⟨hfol, hready, hof⟩ := h.follows hc hψ
  refine ⟨?_, countsDown_of_wiped hfol hready⟩
  cases hreq : c.request with
  | redeem r => exact (hreq ▸ hof).elim
  | _ => rfl

theorem halfway_of_admin (hψ : phases[i]? = some .admin) : Halfway n c = false := by
  obtain ⟨hfol, hready, -⟩ := h.follows hc hψ
  exact countsDown_of_admin (.inl rfl) hfol hready

/-- So is a release that has deleted the redemption. -/
theorem halfway_of_owes (hψ : phases[i]? = some ψ) (howes : ψ.owes n = true) :
    c.request.isRedeem = true ∧ Halfway n c = true := by
  obtain ⟨hfol, hready, hof⟩ := h.follows hc hψ
  match ψ, howes with
  | .redeeming (e, .halfReleased promoId), howes =>
    obtain rfl : promoId = n := beq_iff_eq.mp howes
    refine ⟨?_, countsDown_of_halfReleased hfol hready⟩
    cases hreq : c.request with
    | redeem r => rfl
    | _ => exact (hreq ▸ hof).elim

theorem halfway_of_held {e : String} (hψ : phases[i]? = some (.redeeming (e, .held n))) :
    (∃ r, c.request = .redeem r ∧ r.auth.email = e) ∧ Halfway n c = false := by
  obtain ⟨hfol, hready, hof⟩ := h.follows hc hψ
  cases hreq : c.request with
  | redeem r =>
    rw [hreq] at hof
    obtain rfl : e = r.auth.email := hof
    refine ⟨⟨r, rfl, rfl⟩, ?_⟩
    rw [Halfway, hreq]
    exact countsDown_of_held hfol hready
  | _ => exact (hreq ▸ hof).elim

end InPhases

/-- The invariant at a call that arrives, with nothing done yet. -/
theorem Covered.append_start (h : Covered n w phases) (r : PromoRequest) :
    Covered n w (phases ++ [r.start]) := by
  have hstart : r.start.redemption = (r.account, .idle) ∧ r.start.owes n = false ∧
      r.start ≠ .wiped n := by
    cases r with
    | redeem r => exact ⟨rfl, rfl, nofun⟩
    | _ => exact ⟨rfl, rfl, nofun⟩
  refine ⟨?_, fun hmem => ?_, ?_⟩
  · rw [List.map_append, List.map_singleton, hstart.1]
    exact h.locks.append_idle _
  · rcases List.mem_append.mp hmem with hmem | hmem
    · exact h.wiped hmem
    · exact absurd (List.mem_singleton.mp hmem).symm hstart.2.2
  · rw [List.countP_append, List.countP_singleton, hstart.2.1, if_neg Bool.false_ne_true]
    exact h.covered

theorem Covered.of_sameLedger (h : Covered n w phases) (same : SameLedger w w') :
    Covered n w' phases := by
  refine ⟨h.locks.of_sameLedger same, ?_, ?_⟩
  · rw [rowsOf, same.promoRedemptions]
    exact h.wiped
  · rw [rowsOf, timesOf, same.promoRedemptions, same.promoCodes]
    exact h.covered

/-- One move keeps the invariant. -/
theorem Covered.move (htracked : InPhases P phases) (h : Covered n P.state phases)
    {m : Move PromoRequest LedgerEnv} (hm : (promoSystem cfg).move P m = some Q)
    (hok : ResetApart n P Q) : ∃ phases', InPhases Q phases' ∧ Covered n Q.state phases' := by
  have hready := waitsForClaims_of_move hm htracked.ready
  rcases htracked.tracks.move_cases (fun r _ => r.start) (fun r _ => follows_promoHandler r) hm with
    ⟨r, -, rfl, htracks⟩ | ⟨e, -, rfl, htracks⟩ |
      ⟨i, c, ψ, ψ', prog, -, hc, -, hψ, hT, hcalls, htracks⟩
  · -- a request comes in
    have hlength := List.Forall₂.length_eq htracked.tracks
    exact ⟨_, ⟨htracks, htracked.matched.arrive hlength r.isOf_start, hready⟩, h.append_start r⟩
  · -- the clock or a provider
    refine ⟨phases, ⟨htracks, ⟨trivial, ?_⟩, hready⟩, h.of_sameLedger (e.2 P.state)⟩
    exact fun i c ψ hc hψ => htracked.matched.call i c ψ hc hψ
  · -- one statement of one call
    have hlt : i < P.calls.length := (List.getElem?_eq_some_iff.mp hc).1
    have hmatched := htracked.matched.set hcalls trivial (hT.isOf (htracked.follows hc hψ).2.2)
      fun _ _ _ _ _ _ hof => hof
    have htracked' : InPhases Q (phases.set i ψ') := ⟨htracks, hmatched, hready⟩
    have hd : Q.calls[i]? = some { c with prog := prog } := by
      rw [hcalls, List.getElem?_set_self hlt]
    have hψ' : (phases.set i ψ')[i]? = some ψ' :=
      List.getElem?_set_self (List.getElem?_eq_some_iff.mp hψ).1
    refine ⟨_, htracked', h.step hψ hT ?_ ?_ ?_⟩
    · -- a reset halfway would be a call that the commit may not interrupt
      intro hrows hwiped
      obtain ⟨j, hj⟩ := List.getElem?_of_mem hwiped
      obtain ⟨d, hd, -⟩ := forall₂_getElem? htracked.tracks.flip hj
      obtain ⟨hreset, hhalf⟩ := htracked.halfway_of_wiped hd hj
      rw [hok.commit hrows d (List.mem_of_getElem? hd) hreset] at hhalf
      cases hhalf
    · rintro e rfl rfl
      obtain ⟨⟨r, hreq, rfl⟩, hbefore⟩ := htracked.halfway_of_held hc hψ
      have hafter := (htracked'.halfway_of_owes hd hψ' (beq_self_eq_true n)).2
      exact hok.release i c _ r hc hd hreq hbefore hafter
    · rintro htimes rfl rfl
      obtain ⟨hreset, hbefore⟩ := htracked.halfway_of_wiped hc hψ
      have hafter := htracked'.halfway_of_admin (n := n) hd hψ'
      refine List.countP_eq_zero.mpr fun χ hχ howes => ?_
      obtain ⟨j, hj⟩ := List.getElem?_of_mem hχ
      obtain ⟨d, hdj, -⟩ := forall₂_getElem? htracked.tracks.flip hj
      obtain ⟨hredeem, hhalf⟩ := htracked.halfway_of_owes hdj hj howes
      rw [hok.reset htimes i c _ hc hd hreset hbefore hafter d (List.mem_of_getElem? hdj) hredeem]
        at hhalf
      cases hhalf

theorem covered_of_run (hcalls : P₀.calls = []) (hclaims : P₀.state.claims = [])
    (hstart : rowsOf P₀.state.db n ≤ timesOf P₀.state.db n)
    (hrun : (promoSystem cfg).Run (ResetApart n) P₀ P) :
    ∃ phases, InPhases P phases ∧ Covered n P.state phases := by
  induction hrun with
  | refl =>
    refine ⟨[], ⟨?_, ⟨trivial, ?_⟩, ?_⟩, ⟨?_, ?_, ?_⟩⟩
    · rw [Tracks, hcalls]
      exact .nil
    · simp
    · simp [hcalls]
    · exact ⟨by simp, by simp [hclaims], by simp, by simp [hclaims]⟩
    · simp
    · simpa using hstart
  | tail _ hstep ih =>
    obtain ⟨phases, htracked, hcovered⟩ := ih
    obtain ⟨⟨m, hm⟩, hok⟩ := hstep
    exact hcovered.move htracked hm hok

/-- A move that adds a redemption is the commit of a claim that had room. -/
theorem Covered.room_of_move (htracked : InPhases P phases) (h : Covered n P.state phases)
    {m : Move PromoRequest LedgerEnv} (hm : (promoSystem cfg).move P m = some Q)
    (hgrows : rowsOf P.state.db n < rowsOf Q.state.db n) :
    ∃ p ∈ Q.state.db.promoCodes, p.id = n ∧
      p.maxRedemptions.all (timesOf Q.state.db n ≤ ·) = true := by
  rcases htracked.tracks.move_cases (fun r _ => r.start) (fun r _ => follows_promoHandler r) hm with
    ⟨r, -, rfl, -⟩ | ⟨e, -, rfl, -⟩ | ⟨i, c, ψ, ψ', prog, -, -, -, hψ, hT, -, -⟩
  · exact absurd hgrows (lt_irrefl _)
  · have same := e.2 P.state
    have hrows : rowsOf (e.1 P.state).db n = rowsOf P.state.db n := by
      rw [rowsOf, same.promoRedemptions, rowsOf]
    exact absurd hrows hgrows.ne'
  · cases hT.effect (n := n) h.locks hψ with
    | claimed rows times owes wiped cap => exact cap
    | none rows times owes wiped => omega
    | deleted was becomes rows times => omega
    | released rows times owed owes wiped => omega
    | wiped was becomes rows times => omega
    | cleared was becomes rows times => omega

/-- While no claim commits in the middle of a reset, no reset ends in the middle of a release, and
every release finds the redemption it takes back, the count of a code covers its redemptions at
every moment, and a claim that commits leaves no more of them than the code may have. -/
theorem rowsOf_le_timesOf_of_run (hcalls : P₀.calls = []) (hclaims : P₀.state.claims = [])
    (hstart : rowsOf P₀.state.db n ≤ timesOf P₀.state.db n)
    (hrun : (promoSystem cfg).Run (ResetApart n) P₀ P) :
    rowsOf P.state.db n ≤ timesOf P.state.db n ∧
      ∀ Q, (promoSystem cfg).Step (ResetApart n) P Q → rowsOf P.state.db n < rowsOf Q.state.db n →
        ∃ p ∈ Q.state.db.promoCodes, p.id = n ∧
          p.maxRedemptions.all (rowsOf Q.state.db n ≤ ·) = true := by
  obtain ⟨phases, htracked, h⟩ := covered_of_run hcalls hclaims hstart hrun
  refine ⟨Nat.le_trans (Nat.le_add_right _ _) h.covered, ?_⟩
  rintro Q ⟨⟨m, hm⟩, hok⟩ hgrows
  obtain ⟨p, hp, hid, hcap⟩ := h.room_of_move htracked hm hgrows
  obtain ⟨phases', -, h'⟩ := h.move htracked hm hok
  have hle : rowsOf Q.state.db n ≤ timesOf Q.state.db n :=
    Nat.le_trans (Nat.le_add_right _ _) h'.covered
  refine ⟨p, hp, hid, ?_⟩
  rw [Option.all_eq_true] at hcap ⊢
  intro m hm
  exact decide_eq_true (hle.trans (of_decide_eq_true (hcap m hm)))

/-! ### A reset between two redemptions -/

def promoRedeemBy (id : Nat) (email : String) : Move PromoRequest LedgerEnv :=
  .arrive (.redeem
    { code := "launch", auth := { id := id, tenantId := some id, role := .owner, email := email } })

/-- From now on `setAccountPlan` fails, or nothing does. -/
def grantsFail (b : Bool) : Move PromoRequest LedgerEnv :=
  .env ⟨fun w => { w with fails := fun site => b && site == .setAccountPlan },
    fun _ => ⟨rfl, rfl, rfl, rfl⟩⟩

/-- Ada takes the last slot, the code is revoked and reset, and Bob takes the slot again. -/
def resetBetween : List (Move PromoRequest LedgerEnv) :=
  [promoRedeemBy 1 "ada@example.com"] ++ List.replicate 10 (.run 0) ++
    [.arrive (.revoke 1), .run 1, .run 1, .arrive (.reactivate 1 { resetUsage := true })] ++
    List.replicate 3 (.run 2) ++ [promoRedeemBy 2 "bob@example.com"] ++ List.replicate 10 (.run 3)

/-- No redemption is halfway, and none is added while a call is. -/
def keepsApart (P Q : PromoPool) : Bool :=
  (P.calls.all fun c => !(c.request.isRedeem && Halfway 1 c)) &&
    (Q.calls.all fun c => !(c.request.isRedeem && Halfway 1 c)) &&
      (rowsOf Q.state.db 1 ≤ rowsOf P.state.db 1 || P.calls.all fun c => !Halfway 1 c)

theorem apart_of_keepsApart (h : keepsApart P Q = true) : ResetApart 1 P Q := by
  simp only [keepsApart, Bool.and_eq_true, List.all_eq_true, Bool.or_eq_true, decide_eq_true_eq,
    Bool.not_eq_true', Bool.and_eq_false_imp] at h
  obtain ⟨⟨hP, hQ⟩, hrows⟩ := h
  refine ⟨fun hgrows c hc _ => ?_, fun i c d r hc hd hreq _ hhalf => ?_,
    fun _ _ _ _ _ _ _ _ _ => hP⟩
  · exact hrows.resolve_left (by omega) c hc
  · have hnot := hQ d (List.mem_of_getElem? hd) (by rw [hreq]; rfl)
    rw [hhalf] at hnot
    cases hnot

theorem rowsOf_le_timesOf_of_run_resetBetween :
    ∃ P, (promoSystem .paddleDemo).scheduleWith keepsApart ⟨launchDay, []⟩ resetBetween = some P ∧
      rowsOf P.state.db 1 = 1 ∧ rowsOf P.state.db 1 ≤ timesOf P.state.db 1 := by
  have hsome : ((promoSystem .paddleDemo).scheduleWith keepsApart ⟨launchDay, []⟩
      resetBetween).isSome = true := by
    decide +kernel
  have hone : ((promoSystem .paddleDemo).scheduleWith keepsApart ⟨launchDay, []⟩
      resetBetween).map (fun P => rowsOf P.state.db 1) = some 1 := by
    decide +kernel
  obtain ⟨P, hP⟩ := Option.isSome_iff_exists.mp hsome
  rw [hP] at hone
  have hrun := System.run_of_scheduleWith (fun _ _ => apart_of_keepsApart) hP
  exact ⟨P, hP, Option.some.inj hone,
    (rowsOf_le_timesOf_of_run rfl rfl (by decide) hrun).1⟩

/-- Ada holds the last slot while the code is revoked and reset. Bob takes it again, and then
her grant fails: the release finds no redemption of hers and takes back the count of his, so
that Cy gets a slot too. -/
def lateRelease : List (Move PromoRequest LedgerEnv) :=
  [promoRedeemBy 1 "ada@example.com"] ++ List.replicate 8 (.run 0) ++
    [.arrive (.revoke 1), .run 1, .run 1, .arrive (.reactivate 1 { resetUsage := true })] ++
    List.replicate 3 (.run 2) ++ [promoRedeemBy 2 "bob@example.com"] ++
    List.replicate 10 (.run 3) ++ [grantsFail true] ++ List.replicate 4 (.run 0) ++
    [grantsFail false, promoRedeemBy 2 "cy@example.com"] ++ List.replicate 10 (.run 4)

theorem late_release_uncovers_redemption :
    rowsOf launchDay.db 1 ≤ timesOf launchDay.db 1 ∧
      ∃ P, (promoSystem .paddleDemo).Run (fun _ _ => True) ⟨launchDay, []⟩ P ∧
        timesOf P.state.db 1 < rowsOf P.state.db 1 ∧
          ∃ p ∈ P.state.db.promoCodes, p.id = 1 ∧
            p.maxRedemptions.all (rowsOf P.state.db 1 ≤ ·) = false := by
  refine ⟨by decide, ?_⟩
  have hcount : ((promoSystem .paddleDemo).schedule ⟨launchDay, []⟩ lateRelease).map (fun P =>
      (timesOf P.state.db 1, rowsOf P.state.db 1, P.state.db.promoCodes.rows.any fun p =>
        p.id == 1 && !p.maxRedemptions.all (rowsOf P.state.db 1 ≤ ·))) = some (1, 2, true) := by
    decide +kernel
  obtain ⟨P, hP, hP'⟩ := Option.map_eq_some_iff.mp hcount
  simp only [Prod.mk.injEq] at hP'
  obtain ⟨htimes, hrows, hcap⟩ := hP'
  obtain ⟨p, hp, hcode⟩ := List.any_eq_true.mp hcap
  simp only [Bool.and_eq_true, beq_iff_eq, Bool.not_eq_true'] at hcode
  exact ⟨P, System.run_of_schedule hP, by omega, p, hp, hcode.1, hcode.2⟩

end Feedbase
