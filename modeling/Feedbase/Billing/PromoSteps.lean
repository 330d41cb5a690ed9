import Feedbase.Billing.RedeemPromo
import Feedbase.Lib.Pool

/-!
# The steps of a redemption

Where a `redeemPromo` call stands with respect to the ledger of redemptions, and the
transitions its statements can make. Every other statement of the call is `quiet`.

## Main definitions

* `Stage`, `Transition`
* `RedeemRequest`, `redeemSystem` — any number of calls, and an environment that does
  not write the ledger

## Main results

* `follows_redeemPromo` — every statement of `redeemPromo` is one of the transitions
-/

namespace Feedbase

open Sql

variable {cfg : Config} {email : String}

/-- The promo codes, the redemptions, the open transactions and the redemptions that could not
be given back are as before. -/
structure SameLedger (w w' : World) : Prop where
  promoCodes : w'.db.promoCodes = w.db.promoCodes
  promoRedemptions : w'.db.promoRedemptions = w.db.promoRedemptions
  claims : w'.claims = w.claims
  failedReleases : w'.failedReleases = w.failedReleases

namespace SameLedger

theorem refl (w : World) : SameLedger w w := ⟨rfl, rfl, rfl, rfl⟩

end SameLedger

/-- What a call holds: its transaction's lock and pending row, or a committed row and
count. A call whose release has failed is `failing` until it has said so, and then `stuck`. -/
inductive Stage where
  | idle
  | locked (promoId : Nat) (counted : Bool)
  | pending (promoId : Nat) (row : PromoRedemption)
  | held (promoId : Nat)
  | halfReleased (promoId : Nat)
  | failing (promoId : Nat) (hasRow : Bool)
  | stuck (promoId : Nat) (hasRow : Bool)

/-- The claim of a call inside its transaction. -/
def Stage.claim : Stage → Option Claim
  | locked promoId counted => some ⟨promoId, counted, none⟩
  | pending promoId row => some ⟨promoId, true, some row⟩
  | _ => none

/-- The code a call's committed count is on. -/
def Stage.count : Stage → Option Nat
  | held promoId | halfReleased promoId | failing promoId _ | stuck promoId _ => some promoId
  | _ => none

/-- The code a call's committed row is for. -/
def Stage.row : Stage → Option Nat
  | held promoId | failing promoId true | stuck promoId true => some promoId
  | _ => none

/-- The code that a call has logged it could not give back. -/
def Stage.unreleased : Stage → Option Nat
  | stuck promoId _ => some promoId
  | _ => none

/-- One statement of a call by the account `email`. -/
inductive Transition (email : String) : Stage → World → Stage → World → Prop where
  | quiet {σ : Stage} {w w' : World} (same : SameLedger w w') : Transition email σ w σ w'
  | lock {w : World} {promoId : Nat} {counted : Bool} (free : w.unlocked promoId = true)
    (claimable : counted = true →
      ∃ p ∈ w.db.promoCodes, p.id = promoId ∧ p.maxRedemptions.all (p.timesRedeemed < ·)) :
    Transition email .idle w (.locked promoId counted) (w.withClaim promoId counted)
  | abandon {σ : Stage} {w : World} {c : Claim} (claim : σ.claim = some c) :
    Transition email σ w .idle (w.withoutClaim c.promoId)
  | insert {w : World} {promoId : Nat} {row : PromoRedemption} (code : row.promoCodeId = promoId)
    (account : row.accountEmail = some email) :
    Transition email (.locked promoId true) w (.pending promoId row) (w.withPending row)
  | commit {w : World} {promoId : Nat} {row row' : PromoRedemption} {c : Claim}
    {redemptions : Table PromoRedemption}
    (code : row.promoCodeId = promoId) (account : row.accountEmail = some email)
    (claim : w.claims.find? (·.promoId == promoId) = some c) (pending : c.pending = some row')
    (inserted : w.db.promoRedemptions.insert? (fun id => { row' with id := id }) =
      some redemptions) :
    Transition email (.pending promoId row) w (.held promoId) (w.committed promoId redemptions)
  | delete {w : World} {promoId : Nat} :
    Transition email (.held promoId) w (.halfReleased promoId) (w.rowDeleted promoId email)
  | release {w : World} {promoId : Nat} (free : w.unlocked promoId = true) :
    Transition email (.halfReleased promoId) w .idle (w.countReleased promoId)
  | deleteFails {w : World} {promoId : Nat} (fails : w.fails .releaseDelete = true) :
    Transition email (.held promoId) w (.failing promoId true) w
  | releaseFails {w : World} {promoId : Nat} (fails : w.fails .releaseUpdate = true) :
    Transition email (.halfReleased promoId) w (.failing promoId false) w
  | log {w : World} {promoId : Nat} {hasRow : Bool} :
    Transition email (.failing promoId hasRow) w (.stuck promoId hasRow)
      (w.withFailedRelease promoId email)

/-- A call's account and stage. -/
abbrev Phase := String × Stage

/-- The transition of a call in a phase; its account never changes. -/
def PhaseStep (φ : Phase) (w : World) (φ' : Phase) (w' : World) : Prop :=
  φ'.1 = φ.1 ∧ Transition φ.1 φ.2 w φ'.2 w'

/-- A program that returns and throws in given stages of the account's call. -/
abbrev Stays {α : Type} (email : String) (Q : Stage → Except Failure α → Prop) (σ : Stage)
    (p : Handler α) : Prop :=
  Follows PhaseStep (fun φ r => φ.1 = email ∧ Q φ.2 r) (email, σ) p

/-! ### Quiet programs -/

section Stays

variable {α β : Type} {σ : Stage} {Q : Stage → Except Failure α → Prop}
  {Q' : Stage → Except Failure β → Prop}

theorem stays_quiet {p : Handler α} (h : Prog.Within SameLedger p) :
    Stays email (fun σ' _ => σ' = σ) σ p := by
  refine (Follows.of_within h fun w w' same => ⟨rfl, .quiet same⟩).mono ?_
  rintro φ r rfl
  exact ⟨rfl, rfl⟩

theorem stays_bind {p : Handler α} {f : α → Handler β} (hp : Stays email Q σ p)
    (hok : ∀ σ a, Q σ (.ok a) → Stays email Q' σ (f a))
    (herr : ∀ σ e, Q σ (.error e) → Q' σ (.error e)) : Stays email Q' σ (p >>= f) := by
  refine Follows.bind hp ?_ ?_
  · rintro ⟨_, σ⟩ a ⟨rfl, h⟩
    exact hok σ a h
  · rintro ⟨_, σ⟩ e ⟨rfl, h⟩
    exact ⟨rfl, herr σ e h⟩

theorem stays_catch {p : Handler α} {h : Failure → Handler α}
    {Q' : Stage → Except Failure α → Prop} (hp : Stays email Q σ p)
    (hok : ∀ σ a, Q σ (.ok a) → Q' σ (.ok a))
    (herr : ∀ σ e, Q σ (.error e) → Stays email Q' σ (h e)) :
    Stays email Q' σ (tryCatch p h) := by
  refine Follows.catching hp ?_ ?_
  · rintro ⟨_, σ⟩ a ⟨rfl, h⟩
    exact ⟨rfl, hok σ a h⟩
  · rintro ⟨_, σ⟩ e ⟨rfl, h⟩
    exact herr σ e h

theorem stays_step {ready : World → Bool} {f : World → Except Failure α × World}
    (h : ∀ w, ready w = true → ∃ σ', Transition email σ w σ' (f w).2 ∧ Q σ' (f w).1) :
    Stays email Q σ (Prog.step ready f) := by
  refine Follows.step fun w hw => ?_
  obtain ⟨σ', hT, hQ⟩ := h w hw
  exact ⟨(email, σ'), ⟨rfl, hT⟩, rfl, hQ⟩

theorem stays_call {site : Site} {f : World → Option (α × World)} (herr : Q σ (.error .error))
    (h : ∀ w a w', f w = some (a, w') → ∃ σ', Transition email σ w σ' w' ∧ Q σ' (.ok a)) :
    Stays email Q σ (call site f) := by
  refine stays_step fun w _ => ?_
  dsimp only
  cases hfail : w.fails site with
  | true => exact ⟨σ, .quiet (.refl w), herr⟩
  | false =>
    cases hf : f w with
    | none => exact ⟨σ, .quiet (.refl w), herr⟩
    | some r => exact h w r.1 r.2 hf

theorem stays_ret {a : α} (h : Q σ (.ok a)) : Stays email Q σ (pure a) := ⟨rfl, h⟩

theorem stays_fail {e : Failure} (h : Q σ (.error e)) : Stays email Q σ (throw e) := ⟨rfl, h⟩

end Stays

/-! ### The statements of the claim -/

variable {promoId : Nat} {row : PromoRedemption}

theorem stays_claimUpdate :
    Stays email (fun σ r => match r with
      | .ok counted => σ = .locked promoId counted
      | .error _ => σ = .idle) .idle (claimUpdate promoId) := by
  refine stays_step fun w hready => ?_
  cases hfail : w.fails .claimUpdate with
  | true => exact ⟨.idle, .quiet (.refl w), rfl⟩
  | false =>
    simp only [hfail, Bool.false_or] at hready
    refine ⟨.locked promoId _, .lock hready fun hcounted => ?_, rfl⟩
    obtain ⟨p, hp, hcode⟩ := List.any_eq_true.mp hcounted
    simp only [PromoCode.claimable, Bool.and_eq_true, beq_iff_eq] at hcode
    exact ⟨p, hp, hcode.1, hcode.2.2⟩

theorem stays_rollback {σ : Stage} {c : Claim} (hclaim : σ.claim = some c) :
    Stays email (fun σ' _ => σ' = .idle) σ (rollback c.promoId) :=
  stays_step fun _ _ => ⟨.idle, .abandon hclaim, rfl⟩

theorem stays_claimInsert (hcode : row.promoCodeId = promoId)
    (haccount : row.accountEmail = some email) :
    Stays email (fun σ r => match r with
      | .ok _ => σ = .pending promoId row
      | .error _ => σ = .locked promoId true) (.locked promoId true) (claimInsert row) := by
  refine stays_step fun w _ => ?_
  split
  · exact ⟨_, .quiet (.refl w), rfl⟩
  split
  · exact ⟨_, .quiet (.refl w), rfl⟩
  · exact ⟨_, .insert hcode haccount, rfl⟩

theorem stays_claimCommit (hcode : row.promoCodeId = promoId)
    (haccount : row.accountEmail = some email) :
    Stays email (fun σ r => match r with
      | .ok _ => σ = .held promoId
      | .error _ => σ = .pending promoId row) (.pending promoId row) (claimCommit promoId) := by
  refine stays_call rfl fun w _ w' hsome => ?_
  obtain ⟨c, hclaim, hsome⟩ := Option.bind_eq_some_iff.mp hsome
  obtain ⟨row', hpending, hsome⟩ := Option.bind_eq_some_iff.mp hsome
  obtain ⟨redemptions, hinserted, heq⟩ := Option.map_eq_some_iff.mp hsome
  cases heq
  exact ⟨.held promoId, .commit hcode haccount hclaim hpending hinserted, rfl⟩

/-- The claim ends with a committed row and count, or with nothing. -/
theorem stays_claimRedemption (hcode : row.promoCodeId = promoId)
    (haccount : row.accountEmail = some email) :
    Stays email (fun σ r => match r with
      | .ok .claimed => σ = .held promoId
      | _ => σ = .idle) .idle (claimRedemption promoId row) := by
  unfold claimRedemption
  have hbegin : Prog.Within SameLedger beginTransaction := within_call SameLedger.refl (by
    intro w a w' h
    cases h
    exact .refl w)
  refine stays_bind (stays_quiet hbegin) ?_ fun _ _ h => h
  rintro _ - rfl
  refine stays_bind stays_claimUpdate ?_ fun _ _ h => h
  rintro _ counted rfl
  cases counted with
  | false =>
    refine stays_bind (stays_rollback (c := ⟨promoId, false, none⟩) rfl) ?_ fun _ _ h => h
    rintro _ - rfl
    exact stays_ret rfl
  | true =>
    -- a failure inside the transaction leaves the claim, with or without its row
    let Q : Stage → Except Failure ClaimResult → Prop := fun σ r => match r with
      | .ok .claimed => σ = .held promoId
      | .ok (.refused _) => False
      | .error _ => ∃ c, σ.claim = some c ∧ c.promoId = promoId
    refine stays_catch (Q := Q) ?_ ?_ ?_
    · refine stays_bind (stays_claimInsert hcode haccount) ?_ ?_
      · rintro _ - rfl
        refine stays_bind (stays_claimCommit hcode haccount) ?_ ?_
        · rintro _ - rfl
          exact stays_ret rfl
        · rintro _ e rfl
          exact ⟨_, rfl, rfl⟩
      · rintro _ e rfl
        exact ⟨_, rfl, rfl⟩
    · rintro σ (_ | reason) h
      · exact h
      · exact h.elim
    · rintro σ e ⟨c, hclaim, rfl⟩
      refine stays_bind (stays_rollback hclaim) ?_ fun _ _ h => h
      rintro _ - rfl
      cases e with
      | duplicate => exact stays_ret rfl
      | rejected code key => exact stays_fail rfl
      | belowMinimum | error => exact stays_fail rfl

/-! ### The statements of the release -/

/-- The release ends with nothing held, or is stuck. -/
theorem stays_releaseRedemption :
    Stays email (fun σ _ => σ = .idle ∨ ∃ hasRow, σ = .stuck promoId hasRow) (.held promoId)
      (releaseRedemption promoId email) := by
  have hdelete : Stays email (fun σ r => match r with
      | .ok _ => σ = .halfReleased promoId
      | .error _ => σ = .failing promoId true) (.held promoId) (releaseDelete promoId email) := by
    refine stays_step fun w _ => ?_
    cases hfail : w.fails .releaseDelete with
    | true => exact ⟨_, .deleteFails hfail, rfl⟩
    | false => exact ⟨_, .delete, rfl⟩
  have hupdate : Stays email (fun σ r => match r with
      | .ok _ => σ = .idle
      | .error _ => σ = .failing promoId false) (.halfReleased promoId) (releaseUpdate promoId) := by
    refine stays_step fun w hready => ?_
    cases hfail : w.fails .releaseUpdate with
    | true => exact ⟨_, .releaseFails hfail, rfl⟩
    | false =>
      simp only [hfail, Bool.false_or] at hready
      exact ⟨_, .release hready, rfl⟩
  let Q : Stage → Except Failure Unit → Prop := fun σ r => match r with
    | .ok _ => σ = .idle
    | .error _ => ∃ hasRow, σ = .failing promoId hasRow
  -- the catch of a release only logs what has failed, in `stuck`
  refine stays_catch (Q := Q) ?_ (fun _ _ h => .inl h) ?_
  · refine stays_bind hdelete ?_ fun _ _ h => ⟨_, h⟩
    rintro _ - rfl
    refine hupdate.mono ?_
    rintro ⟨e, σ⟩ (_ | _) ⟨he, h⟩
    · exact ⟨he, _, h⟩
    · exact ⟨he, h⟩
  · rintro _ e ⟨hasRow, rfl⟩
    exact stays_step fun w _ => ⟨_, .log, .inr ⟨hasRow, rfl⟩⟩

/-! ### The request -/

theorem within_setAccountPlan_ledger {f : AccountFields} :
    Prog.Within SameLedger (setAccountPlan email f) := by
  refine .ite (.throw _) (within_call SameLedger.refl fun w a w' h => ?_)
  obtain ⟨db', htx, heq⟩ := Option.map_eq_some_iff.mp h
  cases heq
  obtain ⟨accounts, rfl⟩ := setAccountPlanTx_eq_mirror htx
  exact ⟨rfl, rfl, rfl, rfl⟩

theorem within_query {α : Type} {R : World → World → Prop} (hrefl : ∀ w, R w w) (f : Db → α) :
    Prog.Within R (query f) := .read hrefl _

theorem within_cancelLiveSubscription :
    Prog.Within SameLedger (cancelLiveSubscription cfg email) := by
  refine .bind (within_query SameLedger.refl _) fun acct => ?_
  split
  · exact .pure _
  · refine .ite (.pure _) (.tryCatch (within_call SameLedger.refl fun w a w' h => ?_) fun _ => .pure _)
    split at h
    · cases h
      exact ⟨rfl, rfl, rfl, rfl⟩
    · cases h

theorem within_cancelActiveSubscription :
    Prog.Within SameLedger (cancelActiveSubscription cfg email) := by
  refine .ite within_cancelLiveSubscription (.bind (within_query SameLedger.refl _) fun acct => ?_)
  split
  · exact .pure _
  · refine .ite (.pure _) (.tryCatch (within_call SameLedger.refl fun w a w' h => ?_) fun _ => .pure _)
    split at h
    · cases h
      exact ⟨rfl, rfl, rfl, rfl⟩
    · cases h

theorem within_grantFreePlan {promo : PromoCode} {periodEnd : Option Time} :
    Prog.Within SameLedger (grantFreePlan cfg promo email periodEnd) :=
  .bind within_cancelActiveSubscription fun _ => within_setAccountPlan_ledger

/-- A call that resolves holds its row and its count; a call that rejects holds nothing,
unless its release has failed. -/
def Settled {α : Type} (σ : Stage) : Except Failure α → Prop
  | .ok _ => ∃ promoId, σ = .held promoId
  | .error _ => σ = .idle ∨ ∃ promoId hasRow, σ = .stuck promoId hasRow

/-- The same for a call that has found its code. -/
def SettledFor {α : Type} (promoId : Nat) (σ : Stage) : Except Failure α → Prop
  | .ok _ => σ = .held promoId
  | .error _ => σ = .idle ∨ ∃ hasRow, σ = .stuck promoId hasRow

theorem SettledFor.settled {α : Type} {σ : Stage} {r : Except Failure α}
    (h : SettledFor promoId σ r) : Settled σ r := by
  cases r with
  | ok a => exact ⟨promoId, h⟩
  | error e => exact h.imp id fun ⟨hasRow, hstuck⟩ => ⟨promoId, hasRow, hstuck⟩

theorem stays_redeemFreePlan {promo : PromoCode} {auth : AuthData} :
    Stays auth.email (SettledFor promo.id) .idle (redeemFreePlan cfg promo auth) := by
  unfold redeemFreePlan
  refine stays_bind (stays_quiet (.read SameLedger.refl _)) ?_ fun _ _ h => .inl h
  rintro _ now rfl
  refine stays_bind (stays_claimRedemption rfl rfl) ?_ fun _ _ h => .inl h
  rintro σ (_ | reason) h
  · obtain rfl : σ = .held promo.id := h
    let Q : Stage → Except Failure Unit → Prop := fun σ r => match r with
      | .ok _ => σ = .held promo.id
      | .error _ => σ = .idle ∨ ∃ hasRow, σ = .stuck promo.id hasRow
    refine stays_bind (Q := Q) ?_ ?_ ?_
    · refine stays_catch (stays_quiet within_grantFreePlan) (fun _ _ h => h) ?_
      rintro _ e rfl
      exact stays_bind stays_releaseRedemption (fun _ _ h => stays_fail h) fun _ _ h => h
    · rintro _ - rfl
      exact stays_ret rfl
    · exact fun _ _ h => h
  · obtain rfl : σ = .idle := h
    exact stays_fail (.inl rfl)

theorem stays_redeemPercentOff {promo : PromoCode} {auth : AuthData} :
    Stays auth.email (SettledFor promo.id) .idle (redeemPercentOff cfg promo auth) := by
  unfold redeemPercentOff
  refine stays_bind (stays_claimRedemption rfl rfl) ?_ fun _ _ h => .inl h
  rintro σ (_ | reason) h
  · exact stays_ret h
  · obtain rfl : σ = .idle := h
    exact stays_fail (.inl rfl)

/-- The part of `redeemNormalized` behind its search. -/
def redeemFound (cfg : Config) (promo : PromoCode) (auth : AuthData) :
    Handler (Reply Redeemed) := do
  let now ← getNow
  if promo.expiresAt.any (· < now) then reject 400 "promo_code_expired"
  else if promo.maxRedemptions.any fun m => m ≠ 0 ∧ m ≤ promo.timesRedeemed then
    reject 400 "promo_code_exhausted"
  else do
    let already ← query fun db => db.promoRedemptions.rows.any fun r =>
      r.promoCodeId == promo.id && r.accountEmail == some auth.email
    if already then reject 400 "promo_already_redeemed"
    else if promo.type = .freePlan then redeemFreePlan cfg promo auth
    else redeemPercentOff cfg promo auth

/-- `WHERE code = ? AND is_active = 1`. -/
def findPromo (db : Db) (normalized : String) : Option PromoCode :=
  db.promoCodes.rows.find? fun p => p.code == normalized && p.isActive

theorem redeemNormalized_eq (normalized : String) (auth : AuthData) :
    redeemNormalized cfg normalized auth = (do
      match ← query fun db => findPromo db normalized with
      | none => reject 400 "promo_code_invalid"
      | some promo => redeemFound cfg promo auth) := rfl

/-- A read before the claim. -/
theorem stays_read_bind {α β : Type} {f : World → α} {k : α → Handler β}
    (hk : ∀ a, Stays email (SettledFor promoId) .idle (k a)) :
    Stays email (SettledFor promoId) .idle (Prog.read f >>= k) := by
  refine stays_bind (stays_quiet (.read SameLedger.refl _)) ?_ fun _ _ h => .inl h
  rintro _ a rfl
  exact hk a

theorem stays_redeemFound {promo : PromoCode} {auth : AuthData} :
    Stays auth.email (SettledFor promo.id) .idle (redeemFound cfg promo auth) := by
  refine stays_read_bind fun now => ?_
  split
  · exact stays_fail (.inl rfl)
  split
  · exact stays_fail (.inl rfl)
  refine stays_read_bind fun already => ?_
  split
  · exact stays_fail (.inl rfl)
  split
  · exact stays_redeemFreePlan
  · exact stays_redeemPercentOff

theorem stays_redeemNormalized {normalized : String} {auth : AuthData} :
    Stays auth.email Settled .idle (redeemNormalized cfg normalized auth) := by
  rw [redeemNormalized_eq]
  refine stays_bind (stays_quiet (.read SameLedger.refl _)) ?_ fun _ _ h => .inl h
  rintro _ found rfl
  cases found with
  | none => exact stays_fail (.inl rfl)
  | some promo => exact stays_redeemFound.mono fun _ _ h => ⟨h.1, h.2.settled⟩

/-- Every statement of `redeemPromo` is one of the transitions. -/
theorem follows_redeemPromo (code : String) (auth : AuthData) :
    Stays auth.email Settled .idle (redeemPromo cfg code auth) := by
  unfold redeemPromo
  split
  · exact stays_fail (.inl rfl)
  dsimp only
  generalize toUpperCase (trim code) = normalized
  split
  · exact stays_fail (.inl rfl)
  · refine stays_catch stays_redeemNormalized (fun _ _ h => h) ?_
    rintro σ (⟨code, key⟩ | _ | _ | _) h
    · exact stays_fail h
    · exact stays_fail h
    · exact stays_fail h
    · exact stays_fail h

/-! ### Any number of calls -/

/-- One `redeemPromo` request. -/
structure RedeemRequest where
  code : String
  auth : AuthData

/-- What else may happen meanwhile: anything that does not write the ledger, such as
the clock, a fault, the providers, or another table. -/
def LedgerEnv : Type := { f : World → World // ∀ w, SameLedger w (f w) }

def redeemSystem (cfg : Config) : System World Failure (Reply Redeemed) RedeemRequest LedgerEnv where
  handler r := redeemPromo cfg r.code r.auth
  env e := e.1

end Feedbase
