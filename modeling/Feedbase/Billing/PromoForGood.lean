import Feedbase.Billing.PromoConcurrency
import Feedbase.Lib.Turns
import Feedbase.Users.Members
import Feedbase.Users.WorkspaceSteps

/-!
# Redeeming a code again after a deletion

The ledger of redemptions outlives the account, so that nobody deletes an account to redeem a
code a second time. But a redemption is recorded against a workspace, and whoever redeems owns
it: the redemption goes when the workspace does, and then the code can be redeemed again. It is
redeemed once for good as long as no workspace is deleted that a redemption of it by the account
is recorded against.

## Main definitions

* `hosted` — the workspace of a redemption is there
* `Sheds` — what a deletion leaves of the ledger
* `LedgerRequest`, `ledgerSystem`
* `LedgerPhase`, `LedgerStep` — the statements of the calls, as transitions
* `KeepsRedemptions` — no workspace of such a redemption is deleted

## Main results

* `sheds_erase`, `sheds_purgeTx` — a redemption goes only with its workspace
* `follows_ledgerHandler`
* `redeemed_once` — two calls that have redeemed the code are one
* `redeemed_atMostOnce_of_run` — with what the ledger had before, a pair is redeemed once at most
* `redeemed_twice_after_purge`
-/

namespace Feedbase

open Sql

variable {cfg : Config} {w w' : World} {db db' db'' : Db} {n : Nat} {email : String}

attribute [local irreducible] trim toUpperCase toLowerCase

/-! ### What a deletion leaves of the ledger -/

/-- The workspace that the redemption is recorded against is there. -/
def hosted (db : Db) (r : PromoRedemption) : Bool := (db.tenants.byId r.tenantId).isSome

/-- No code changes, no workspace is new, and a redemption goes only with its workspace. -/
structure Sheds (db db' : Db) : Prop where
  promoCodes : db'.promoCodes = db.promoCodes
  hosts : ∀ r, hosted db' r = true → hosted db r = true
  kept : ∀ r ∈ db.promoRedemptions,
    r ∈ db'.promoRedemptions ∨ (hosted db r = true ∧ hosted db' r = false)

theorem Sheds.of_same (hcodes : db'.promoCodes = db.promoCodes) (htenants : db'.tenants = db.tenants)
    (hredemptions : db'.promoRedemptions = db.promoRedemptions) : Sheds db db' := by
  have hhosted : ∀ r, hosted db' r = hosted db r := fun r => by rw [hosted, htenants, hosted]
  exact ⟨hcodes, fun r h => hhosted r ▸ h, fun r hr => .inl (hredemptions ▸ hr)⟩

theorem Sheds.refl (db : Db) : Sheds db db := .of_same rfl rfl rfl

theorem Sheds.trans (h : Sheds db db') (h' : Sheds db' db'') : Sheds db db'' where
  promoCodes := h'.promoCodes.trans h.promoCodes
  hosts r hr := h.hosts r (h'.hosts r hr)
  kept r hr := by
    rcases h.kept r hr with hr' | ⟨hbefore, hafter⟩
    · rcases h'.kept r hr' with hr'' | ⟨hbefore, hafter⟩
      · exact .inl hr''
      · exact .inr ⟨h.hosts r hbefore, hafter⟩
    · refine .inr ⟨hbefore, ?_⟩
      by_contra hlast
      rw [h'.hosts r (by simpa using hlast)] at hafter
      cases hafter

/-- The cascade takes the redemptions of the workspaces that go. -/
theorem sheds_erase {s : Selection} (h : db.erase s = some db') : Sheds db db' := by
  obtain ⟨-, rfl⟩ := Db.erase_eq_some_iff.mp h
  refine ⟨rfl, fun r hr => ?_, fun r hr => ?_⟩
  · obtain ⟨t, ht, hid⟩ := Table.byId_isSome_iff.mp hr
    exact Table.byId_isSome_iff.mpr ⟨t, (Table.mem_delete.mp ht).1, hid⟩
  · by_cases hgone : db.goneTenant s r.tenantId = true
    · obtain ⟨t, ht, hid, hs⟩ := Db.goneTenant_iff.mp hgone
      refine .inr ⟨Table.byId_isSome_iff.mpr ⟨t, ht, hid⟩, ?_⟩
      rw [hosted, Option.isSome_eq_false_iff, Option.isNone_iff_eq_none, Table.byId_eq_none_iff]
      intro u hu hid'
      obtain ⟨hu, hstays⟩ := Table.mem_delete.mp hu
      obtain rfl : u = t := Table.eq_of_id hu ht (hid'.trans hid.symm)
      rw [hs] at hstays
      cases hstays
    · exact .inl (Table.mem_delete.mpr ⟨hr, by simpa using hgone⟩)

theorem sheds_repair (db : Db) (m : User) : Sheds db (repair db m) := by
  unfold repair
  split
  · exact .of_same rfl rfl rfl
  · exact .of_same rfl rfl rfl

theorem sheds_leaveWorkspaces {ms : List User} (h : ms.foldlM leaveWorkspace db = some db') :
    Sheds db db' := by
  induction ms generalizing db with
  | nil =>
    cases h
    exact .refl _
  | cons m ms ih =>
    rw [List.foldlM_cons] at h
    obtain ⟨left, hleft, hrest⟩ := Option.bind_eq_some_iff.mp h
    exact ((sheds_repair _ m).trans (sheds_erase hleft)).trans (ih hrest)

theorem sheds_purgeTx {rows : List User} (h : purgeTx email rows db = some db') :
    Sheds db db' := by
  obtain ⟨left, hleft, h⟩ := Option.bind_eq_some_iff.mp h
  obtain ⟨emptied, hemptied, h⟩ := Option.bind_eq_some_iff.mp h
  obtain ⟨last, hlast, h⟩ := Option.bind_eq_some_iff.mp h
  cases h
  have hjoined : Sheds db left := sheds_leaveWorkspaces hleft
  have howned : Sheds left emptied := by
    unfold deleteOwned at hemptied
    split at hemptied
    · cases hemptied
      exact .refl left
    · exact sheds_erase hemptied
  have hforgotten : Sheds last (forgetEmail last email) := .of_same rfl rfl rfl
  exact ((hjoined.trans howned).trans (sheds_erase hlast)).trans hforgotten

/-! ### What a statement leaves of the ledger -/

/-- The same for a statement, which may create a workspace. -/
structure LosesWithHost (w w' : World) : Prop where
  promoCodes : w'.db.promoCodes = w.db.promoCodes
  claims : w'.claims = w.claims
  kept : ∀ r ∈ w.db.promoRedemptions,
    r ∈ w'.db.promoRedemptions ∨ (hosted w.db r = true ∧ hosted w'.db r = false)

namespace LosesWithHost

theorem of_sameLedger (same : SameLedger w w') : LosesWithHost w w' :=
  ⟨same.promoCodes, same.claims, fun _ hr => .inl (same.promoRedemptions ▸ hr)⟩

theorem refl (w : World) : LosesWithHost w w := of_sameLedger (.refl w)

theorem of_sheds (h : Sheds w.db db') : LosesWithHost w { w with db := db' } :=
  ⟨h.promoCodes, rfl, h.kept⟩

end LosesWithHost

theorem within_deletion {α : Type} {ids : List Nat} {f : Db → Except Failure (α × Db)}
    (h : ∀ db a db', f db = .ok (a, db') → Sheds db db') :
    Prog.Within LosesWithHost (deletion ids f) := by
  refine .step fun w => ?_
  cases hf : f w.db with
  | error e => exact .refl w
  | ok r => exact .of_sheds (h w.db r.1 r.2 hf)

theorem loses_of_ledger {α : Type} {p : Handler α} (h : Prog.Within SameLedger p) :
    Prog.Within LosesWithHost p :=
  h.mono fun _ _ same => .of_sameLedger same

theorem within_purgeAccount (allowPlatformAdmin : Bool) :
    Prog.Within LosesWithHost (purgeAccount cfg email allowPlatformAdmin) := by
  refine .bind (.read LosesWithHost.refl _) fun admin => .ite (.pure _) ?_
  refine .bind (.read LosesWithHost.refl _) fun rows => .ite (.pure _) ?_
  refine .bind (loses_of_ledger within_cancelActiveSubscription) fun _ => ?_
  refine .bind (within_deletion fun db a db' h => ?_) fun _ => .pure _
  cases htx : purgeTx email rows db with
  | none =>
    rw [htx] at h
    cases h
  | some purged =>
    rw [htx] at h
    cases h
    exact sheds_purgeTx htx

theorem within_deleteWorkspace (id : Nat) :
    Prog.Within LosesWithHost (deleteWorkspace id) := by
  refine .tryCatch (.bind (within_deletion fun db a db' h => ?_) fun found => ?_) fun e => ?_
  · cases herase : db.erase { tenant := fun t => t.id == id } with
    | none =>
      rw [herase] at h
      cases h
    | some erased =>
      rw [herase] at h
      cases h
      exact sheds_erase herase
  · exact .ite (.pure _) (.throw _)
  · cases e <;> exact .throw _

theorem within_registerNewUser (data : SignUp) :
    Prog.Within SameLedger (registerNewUser data) := by
  refine .tryCatch (.bind (.read SameLedger.refl _) fun duplicate => .ite (.throw _) ?_) fun e => ?_
  · refine .bind (.attempt SameLedger.refl fun w a w' h => ?_) fun _ => .pure _
    obtain ⟨inserted, hinserted, heq⟩ := Option.map_eq_some_iff.mp h
    obtain ⟨users, -, rfl⟩ := Option.map_eq_some_iff.mp hinserted
    cases heq
    exact ⟨rfl, rfl, rfl, rfl⟩
  · cases e <;> exact .throw _

theorem within_openWorkspace (name subdomain : String) (website : Option String) (userId : Nat) :
    Prog.Within SameLedger (openWorkspace name subdomain website userId) := by
  refine .bind (.read SameLedger.refl _) fun found => ?_
  obtain ⟨taken, found⟩ := found
  refine .ite (.throw _) ?_
  cases found with
  | none => exact .throw _
  | some account =>
    refine .ite (.throw _) (.bind (.step fun w => ?_) fun _ => .pure _)
    cases hinsert : insertWorkspace name subdomain website account w.db with
    | none => exact .refl w
    | some r =>
      obtain ⟨T, U, C, -, -, hdb⟩ := insertWorkspace_spec hinsert
      dsimp only
      rw [hdb]
      exact ⟨rfl, rfl, rfl, rfl⟩

theorem within_createWorkspaceSteps (data : WorkspaceData) (auth : AuthData) :
    Prog.Within SameLedger (createWorkspaceSteps data auth) := by
  unfold createWorkspaceSteps
  dsimp only
  generalize trim data.name = name
  generalize toLowerCase (trim data.subdomain) = subdomain
  generalize orNull (some (trim data.website)) = website
  refine .ite (.throw _) (.ite (.throw _) ?_)
  have husage : Prog.Within SameLedger (getAccountWorkspaceUsage auth.email) :=
    .bind (.read SameLedger.refl _) fun _ => .bind (.read SameLedger.refl _) fun _ => .pure _
  exact .bind husage fun usage => .ite (.throw _) (within_openWorkspace _ _ _ _)

/-! ### The requests -/

/-- A request that redeems a code, or that may end or begin an account or a workspace. -/
inductive LedgerRequest where
  | redeemPromo (r : RedeemRequest)
  | purgeAccount (email : String) (allowPlatformAdmin : Bool)
  | deleteWorkspace (id : Nat)
  | registerNewUser (data : SignUp)
  | createWorkspace (data : WorkspaceData) (auth : AuthData)

/-- A handler that redeems nothing. -/
def withoutRedeemed {α : Type} (p : Handler α) : Handler (Option (Reply Redeemed)) := do
  let _ ← p
  return none

def ledgerHandler (cfg : Config) : LedgerRequest → Handler (Option (Reply Redeemed))
  | .redeemPromo r => do
    let reply ← redeemPromo cfg r.code r.auth
    return some reply
  | .purgeAccount email allow => withoutRedeemed (Feedbase.purgeAccount cfg email allow)
  | .deleteWorkspace id => withoutRedeemed (Feedbase.deleteWorkspace id)
  | .registerNewUser data => withoutRedeemed (Feedbase.registerNewUser data)
  | .createWorkspace data auth => withoutRedeemed (createWorkspaceSteps data auth)

def ledgerSystem (cfg : Config) :
    System World Failure (Option (Reply Redeemed)) LedgerRequest LedgerEnv where
  handler := ledgerHandler cfg
  env e := e.1

abbrev LedgerCall := Call World Failure (Option (Reply Redeemed)) LedgerRequest

abbrev LedgerPool := Pool World Failure (Option (Reply Redeemed)) LedgerRequest

/-- The text that the code is looked up by. -/
def RedeemRequest.normalized (r : RedeemRequest) : String := toUpperCase (trim r.code)

/-- The call is by the account and for the code, and it has succeeded. -/
def hasRedeemed (code email : String) (c : LedgerCall) : Bool :=
  match c.request, c.outcome with
  | .redeemPromo r, some (.ok _) => r.normalized == code && r.auth.email == email
  | _, _ => false

theorem hasRedeemed_iff {code : String} {c : LedgerCall} :
    hasRedeemed code email c = true ↔ ∃ r reply, c.request = .redeemPromo r ∧
      r.normalized = code ∧ r.auth.email = email ∧ c.outcome = some (.ok reply) := by
  unfold hasRedeemed
  constructor
  · intro h
    split at h
    · rename_i r reply hr hout
      simp only [Bool.and_eq_true, beq_iff_eq] at h
      exact ⟨r, reply, hr, h.1, h.2, hout⟩
    · cases h
  · rintro ⟨r, reply, hr, rfl, rfl, hout⟩
    simp [hr, hout]

/-! ### The phases -/

/-- Where a call stands: it has yet to look up its code, it redeems the code with the id, or it
redeems none. -/
inductive LedgerPhase where
  | searching (code email : String)
  | redeeming (promoId : Nat) (φ : Phase)
  | other

namespace LedgerPhase

/-- What the call holds. -/
def redemption : LedgerPhase → Phase
  | redeeming _ φ => φ
  | searching _ email => (email, .idle)
  | other => ("", .idle)

/-- A redemption that succeeds holds its row and its count. -/
def Ends {α : Type} : LedgerPhase → Except Failure α → Prop
  | redeeming promoId φ, .ok _ => φ.2 = .held promoId
  | searching _ _, .ok _ => False
  | _, _ => True

end LedgerPhase

def LedgerRequest.start : LedgerRequest → LedgerPhase
  | .redeemPromo r => .searching r.normalized r.auth.email
  | _ => .other

/-- One statement of a call. -/
inductive LedgerStep : LedgerPhase → World → LedgerPhase → World → Prop where
  | loses {ψ : LedgerPhase} {w w' : World} (h : LosesWithHost w w') : LedgerStep ψ w ψ w'
  | finds {code email : String} {w : World} {promo : PromoCode}
    (found : findPromo w.db code = some promo) :
    LedgerStep (.searching code email) w (.redeeming promo.id (email, .idle)) w
  | redeems {promoId : Nat} {φ φ' : Phase} {w w' : World} (step : PhaseStep φ w φ' w') :
    LedgerStep (.redeeming promoId φ) w (.redeeming promoId φ') w'

section Handlers

variable {α : Type} {ψ : LedgerPhase}

abbrev FollowsLedger (ψ : LedgerPhase) (p : Handler α) : Prop :=
  Follows LedgerStep (fun ψ' r => ψ'.Ends r) ψ p

theorem followsLedger_fail (e : Failure) : FollowsLedger ψ (throw e : Handler α) := by
  refine Follows.fail ?_
  cases ψ <;> trivial

theorem follows_redeemFound {promo : PromoCode} {auth : AuthData} :
    FollowsLedger (.redeeming promo.id (auth.email, .idle)) (redeemFound cfg promo auth) := by
  refine Follows.map (LedgerPhase.redeeming promo.id) (fun _ _ _ _ step => LedgerStep.redeems step)
    (fun φ r hr => ?_) stays_redeemFound
  cases r with
  | ok a => exact hr.2
  | error e => trivial

/-- What the search for a code leaves. -/
def Searched (code email : String) (ψ : LedgerPhase) (r : Except Failure (Option PromoCode)) :
    Prop :=
  (r = .ok none ∧ ψ = .searching code email) ∨
    ∃ promo, r = .ok (some promo) ∧ ψ = .redeeming promo.id (email, .idle)

theorem follows_findPromo (code : String) :
    Follows LedgerStep (Searched code email) (.searching code email)
      (query fun db => findPromo db code) := by
  refine Follows.step fun w _ => ?_
  cases hfound : findPromo w.db code with
  | none => exact ⟨_, .loses (.refl w), .inl ⟨congrArg Except.ok hfound, rfl⟩⟩
  | some promo => exact ⟨_, .finds hfound, .inr ⟨promo, congrArg Except.ok hfound, rfl⟩⟩

theorem follows_redeemNormalized {code : String} {auth : AuthData} :
    FollowsLedger (.searching code auth.email) (redeemNormalized cfg code auth) := by
  rw [redeemNormalized_eq]
  refine Follows.bind (follows_findPromo code) (fun ψ found hψ => ?_) fun ψ e hψ => ?_
  · rcases hψ with ⟨hfound, rfl⟩ | ⟨promo, hfound, rfl⟩
    · cases hfound
      exact followsLedger_fail _
    · cases hfound
      exact follows_redeemFound
  · rcases hψ with ⟨hfound, -⟩ | ⟨promo, hfound, -⟩
    · cases hfound
    · cases hfound

theorem follows_redeemRequest (r : RedeemRequest) :
    FollowsLedger (.searching r.normalized r.auth.email) (redeemPromo cfg r.code r.auth) := by
  unfold redeemPromo RedeemRequest.normalized
  split
  · exact followsLedger_fail _
  dsimp only
  generalize toUpperCase (trim r.code) = code
  split
  · exact followsLedger_fail _
  refine Follows.catching follows_redeemNormalized (fun _ _ h => h) fun ψ e _ => ?_
  cases e <;> exact followsLedger_fail _

theorem follows_withoutRedeemed {p : Handler α} (h : Prog.Within LosesWithHost p) :
    FollowsLedger .other (withoutRedeemed p) := by
  refine (Follows.of_within (h.bind fun _ => .pure _) fun _ _ hloses => .loses hloses).mono ?_
  rintro ψ r rfl
  trivial

theorem follows_withReply {p : Handler (Reply Redeemed)} (h : FollowsLedger ψ p) :
    FollowsLedger ψ (p >>= fun reply => return some reply) := by
  refine Follows.bind h (fun ψ' a hψ' => Follows.ret ?_) fun ψ' e _ => ?_
  · cases ψ' with
    | searching code email => exact hψ'.elim
    | redeeming promoId φ => exact hψ'
    | other => trivial
  · cases ψ' <;> trivial

/-- Every statement of a call is one of the transitions. -/
theorem follows_ledgerHandler (r : LedgerRequest) :
    FollowsLedger r.start (ledgerHandler cfg r) := by
  cases r with
  | redeemPromo r => exact follows_withReply (follows_redeemRequest r)
  | purgeAccount email allow => exact follows_withoutRedeemed (within_purgeAccount allow)
  | deleteWorkspace id => exact follows_withoutRedeemed (within_deleteWorkspace id)
  | registerNewUser data =>
    exact follows_withoutRedeemed (loses_of_ledger (within_registerNewUser data))
  | createWorkspace data auth =>
    exact follows_withoutRedeemed (loses_of_ledger (within_createWorkspaceSteps data auth))

end Handlers

/-! ### What each call knows -/

/-- The code with the id is spelt so. -/
def Spelt (db : Db) (promoId : Nat) (code : String) : Prop :=
  ∃ p ∈ db.promoCodes, p.id = promoId ∧ p.code = code

theorem Spelt.id_eq {code : String} {m : Nat} (h : Spelt db n code) (h' : Spelt db m code) :
    n = m := by
  obtain ⟨p, hp, rfl, hcode⟩ := h
  obtain ⟨q, hq, rfl, hcode'⟩ := h'
  rw [Table.eq_of_clash hp hq (beq_iff_eq.mpr (hcode.trans hcode'.symm))]

theorem Spelt.of_same {code : String} (h : Spelt db n code)
    (hcodes : db'.promoCodes = db.promoCodes) : Spelt db' n code := by
  rw [Spelt, hcodes]
  exact h

theorem Spelt.of_update {code : String} {p : PromoCode → Bool} {f : PromoCode → PromoCode}
    (h : Spelt db n code) (hf : Table.Keyless f)
    (hcodes : db'.promoCodes = db.promoCodes.update p f hf) (hcode : ∀ q, (f q).code = q.code) :
    Spelt db' n code := by
  obtain ⟨q, hq, hid, hspelt⟩ := h
  refine ⟨if p q then f q else q, ?_, ?_, ?_⟩
  · rw [hcodes]
    exact Table.mem_update.mpr ⟨q, hq, rfl⟩
  · split
    · exact (hf.id_eq q).trans hid
    · exact hid
  · split
    · exact (hcode q).trans hspelt
    · exact hspelt

/-- No statement renames a code. -/
theorem Spelt.step {code : String} {φ φ' : Phase} (h : Spelt w.db n code)
    (hT : PhaseStep φ w φ' w') : Spelt w'.db n code := by
  obtain ⟨account, σ⟩ := φ
  obtain ⟨account', σ'⟩ := φ'
  obtain ⟨rfl, hT⟩ := hT
  cases hT with
  | quiet same => exact h.of_same same.promoCodes
  | lock _ _ => exact h
  | abandon _ => exact h
  | insert _ _ => exact h
  | commit _ _ _ _ _ => exact h.of_update (by exact ⟨fun _ => rfl, fun _ _ => rfl⟩) rfl fun _ => rfl
  | delete => exact h
  | release _ => exact h.of_update (by exact ⟨fun _ => rfl, fun _ _ => rfl⟩) rfl fun _ => rfl
  | deleteFails _ => exact h
  | releaseFails _ => exact h
  | log => exact h

theorem LedgerStep.spelt {code : String} {ψ ψ' : LedgerPhase} (hT : LedgerStep ψ w ψ' w')
    (h : Spelt w.db n code) : Spelt w'.db n code := by
  cases hT with
  | loses hloses => exact h.of_same hloses.promoCodes
  | finds found => exact h
  | redeems step => exact h.step step

/-- A redemption is by the account of its request, and for the code it names. -/
def LedgerPhase.IsOf (request : LedgerRequest) (ψ : LedgerPhase) (w : World) : Prop :=
  ∀ r, request = .redeemPromo r → match ψ with
    | .searching code email => code = r.normalized ∧ email = r.auth.email
    | .redeeming promoId φ => φ.1 = r.auth.email ∧ Spelt w.db promoId r.normalized
    | .other => False

theorem LedgerRequest.isOf_start (request : LedgerRequest) (w : World) :
    request.start.IsOf request w := by
  rintro r rfl
  exact ⟨rfl, rfl⟩

theorem LedgerPhase.IsOf.other {request : LedgerRequest} {ψ : LedgerPhase} (h : ψ.IsOf request w)
    (hspelt : ∀ {promoId code}, Spelt w.db promoId code → Spelt w'.db promoId code) :
    ψ.IsOf request w' := by
  intro r hr
  cases ψ with
  | searching code email => exact h r hr
  | redeeming promoId φ => exact ⟨(h r hr).1, hspelt (h r hr).2⟩
  | other => exact h r hr

/-- What a search finds is the code that was searched for. -/
theorem spelt_of_found {code : String} {promo : PromoCode} (h : findPromo db code = some promo) :
    Spelt db promo.id code := by
  have hcode := List.find?_some h
  simp only [Bool.and_eq_true, beq_iff_eq] at hcode
  exact ⟨promo, List.mem_of_find?_eq_some h, rfl, hcode.1⟩

theorem LedgerStep.isOf {request : LedgerRequest} {ψ ψ' : LedgerPhase} (hT : LedgerStep ψ w ψ' w')
    (h : ψ.IsOf request w) : ψ'.IsOf request w' := by
  cases hT with
  | loses hloses => exact h.other fun hspelt => hspelt.of_same hloses.promoCodes
  | finds found =>
    intro r hr
    obtain ⟨rfl, rfl⟩ := h r hr
    exact ⟨rfl, spelt_of_found found⟩
  | redeems step =>
    intro r hr
    obtain ⟨haccount, hspelt⟩ := h r hr
    exact ⟨step.1.trans haccount, hspelt.step step⟩

/-! ### The invariant -/

/-- No workspace goes that a redemption of the code by the account is recorded against. -/
def KeepsRedemptions (n : Nat) (email : String) (db db' : Db) : Prop :=
  ∀ r ∈ db.promoRedemptions, r.promoCodeId = n → r.accountEmail = some email →
    hosted db r = true → hosted db' r = true

instance (n : Nat) (email : String) (db db' : Db) : Decidable (KeepsRedemptions n email db db') :=
  inferInstanceAs (Decidable (∀ r ∈ db.promoRedemptions, _))

/-- Then the account's redemption stays. -/
theorem LosesWithHost.rowsFor_le (h : LosesWithHost w w')
    (hkeeps : KeepsRedemptions n email w.db w'.db) :
    rowsFor w.db n email ≤ rowsFor w'.db n email := by
  by_cases hnone : rowsFor w.db n email = 0
  · omega
  have hle := rowsFor_le_one w.db n email
  obtain ⟨r, hr, hfor⟩ := List.countP_pos_iff.mp (Nat.pos_of_ne_zero hnone)
  have hstays : r ∈ w'.db.promoRedemptions := by
    refine (h.kept r hr).resolve_right fun ⟨hbefore, hafter⟩ => ?_
    simp only [Bool.and_eq_true, beq_iff_eq] at hfor
    rw [hkeeps r hr hfor.1 hfor.2 hbefore] at hafter
    cases hafter
  have hpos : 0 < rowsFor w'.db n email := List.countP_pos_iff.mpr ⟨r, hstays, hfor⟩
  omega

/-- The calls that hold a redemption of the code by the account are covered by the ledger, next to
those that were in it before. -/
structure OncePerAccount (n : Nat) (email : String) (before : Nat) (w : World)
    (phases : List Phase) : Prop where
  locks : Locks w phases
  held : before + phases.countP (holdsRowFor n email) ≤ rowsFor w.db n email

namespace OncePerAccount

variable {before : Nat} {phases : List Phase} {φ φ' : Phase} {i : Nat}

theorem loses (h : OncePerAccount n email before w phases) (hloses : LosesWithHost w w')
    (hkeeps : KeepsRedemptions n email w.db w'.db) : OncePerAccount n email before w' phases :=
  ⟨h.locks.of_codes hloses.claims hloses.promoCodes, h.held.trans (hloses.rowsFor_le hkeeps)⟩

theorem arrive (h : OncePerAccount n email before w phases) (account : String) :
    OncePerAccount n email before w (phases ++ [(account, .idle)]) := by
  refine ⟨h.locks.append_idle account, ?_⟩
  rw [List.countP_append, List.countP_singleton]
  simpa [holdsRowFor, Stage.row] using h.held

/-- A statement that leaves the redemptions alone, and what its call holds. -/
theorem held_of_idle (h : OncePerAccount n email before w phases) (hφ : phases[i]? = some φ)
    (hrows : w'.db.promoRedemptions = w.db.promoRedemptions) (hemail : φ'.1 = φ.1)
    (hrow : ∀ m, φ'.2.row = some m → φ.2.row = some m) :
    before + (phases.set i φ').countP (holdsRowFor n email) ≤ rowsFor w'.db n email := by
  have hcount := countP_set_add (p := holdsRowFor n email) (b := φ') hφ
  have hheld := h.held
  have hle : holdsRowFor n email φ' = true → holdsRowFor n email φ = true := by
    intro hnew
    simp only [holdsRowFor, Bool.and_eq_true, beq_iff_eq] at hnew ⊢
    exact ⟨hemail ▸ hnew.1, hrow n hnew.2⟩
  rw [rowsFor, hrows, ← rowsFor]
  by_cases hnew : holdsRowFor n email φ' = true
  · rw [if_pos hnew, if_pos (hle hnew)] at hcount
    omega
  · rw [if_neg hnew] at hcount
    omega

/-- A commit adds the redemption that its call then holds. -/
theorem held_of_commit {account : String} {promoId : Nat} {row row' : PromoRedemption} {c : Claim}
    {redemptions : Table PromoRedemption} (h : OncePerAccount n email before w phases)
    (hφ : phases[i]? = some (account, .pending promoId row)) (code : row.promoCodeId = promoId)
    (haccount : row.accountEmail = some account)
    (claim : w.claims.find? (·.promoId == promoId) = some c) (pending : c.pending = some row')
    (inserted : w.db.promoRedemptions.insert? (fun id => { row' with id := id }) =
      some redemptions) :
    before + (phases.set i (account, .held promoId)).countP (holdsRowFor n email) ≤
      rowsFor (w.committed promoId redemptions).db n email := by
  obtain rfl : c = ⟨promoId, true, some row⟩ := h.locks.claim_eq hφ rfl rfl claim
  obtain rfl : row' = row := (Option.some.inj pending).symm
  have hcount := countP_set_add (p := holdsRowFor n email) (b := (account, Stage.held promoId)) hφ
  have hheld := h.held
  have hrows := countP_inserted
    (q := fun r => r.promoCodeId == n && r.accountEmail == some email) (fun _ => rfl) inserted
  simp only [rowsFor, World.committed] at hrows hheld ⊢
  simp only [holdsRowFor, Stage.row, Option.some_beq_some, code, haccount] at hcount hrows ⊢
  simp only [Bool.and_eq_true, beq_iff_eq, reduceCtorEq, and_false, if_false] at hcount hrows
  simp only [and_comm (a := promoId = n)] at hrows
  omega

/-- A release deletes the redemption that its call has held. -/
theorem held_of_delete {account : String} {promoId : Nat} (h : OncePerAccount n email before w phases)
    (hφ : phases[i]? = some (account, .held promoId)) :
    before + (phases.set i (account, .halfReleased promoId)).countP (holdsRowFor n email) ≤
      rowsFor (w.rowDeleted promoId account).db n email := by
  have hcount := countP_set_add (p := holdsRowFor n email)
    (b := (account, Stage.halfReleased promoId)) hφ
  have hrows := rowsFor_rowDeleted w promoId account n email
  have hheld := h.held
  have hle := rowsFor_le_one w.db n email
  simp only [holdsRowFor, Stage.row, Option.some_beq_some, Bool.and_eq_true, beq_iff_eq,
    reduceCtorEq, and_false, if_false] at hcount
  by_cases hmine : n = promoId ∧ email = account
  · obtain ⟨rfl, rfl⟩ := hmine
    rw [if_pos ⟨rfl, rfl⟩] at hcount hrows
    omega
  · rw [if_neg hmine] at hrows
    rw [if_neg fun heq => hmine ⟨heq.2.symm, heq.1.symm⟩] at hcount
    omega

/-- One statement of a redemption keeps the invariant. -/
theorem step (h : OncePerAccount n email before w phases) (hφ : phases[i]? = some φ)
    (hT : PhaseStep φ w φ' w') : OncePerAccount n email before w' (phases.set i φ') := by
  refine ⟨h.locks.step hφ hT, ?_⟩
  obtain ⟨account, σ⟩ := φ
  obtain ⟨account', σ'⟩ := φ'
  obtain ⟨rfl, hT⟩ := hT
  have hnone : ∀ {m : Nat}, (none : Option Nat) = some m → σ.row = some m := fun h => by cases h
  cases hT with
  | quiet same => exact h.held_of_idle hφ same.promoRedemptions rfl fun _ hrow => hrow
  | lock free claimable => exact h.held_of_idle hφ rfl rfl fun _ => hnone
  | abandon claim => exact h.held_of_idle hφ rfl rfl fun _ => hnone
  | insert code account => exact h.held_of_idle hφ rfl rfl fun _ => hnone
  | commit code account claim pending inserted =>
    exact h.held_of_commit hφ code account claim pending inserted
  | delete => exact h.held_of_delete hφ
  | release free => exact h.held_of_idle hφ rfl rfl fun _ => hnone
  | deleteFails fails => exact h.held_of_idle hφ rfl rfl fun _ hrow => hrow
  | releaseFails fails => exact h.held_of_idle hφ rfl rfl fun _ hrow => hrow
  | @log _ _ hasRow =>
    refine h.held_of_idle hφ rfl rfl fun _ hrow => ?_
    cases hasRow <;> exact hrow

end OncePerAccount

/-! ### Runs -/

variable {P P₀ : LedgerPool} {phases : List LedgerPhase} {before : Nat}

/-- The invariant of the runs. -/
structure LedgerInv (n : Nat) (code email : String) (before : Nat) (P : LedgerPool)
    (phases : List LedgerPhase) : Prop where
  knows : Tracks.Knows (fun w => Spelt w.db n code) (fun r ψ w => ψ.IsOf r w) P phases
  once : OncePerAccount n email before P.state (phases.map LedgerPhase.redemption)

/-- No step deletes a workspace that a redemption of the code by the account is recorded
against. -/
def KeepsHosts (n : Nat) (email : String) (P Q : LedgerPool) : Prop :=
  KeepsRedemptions n email P.state.db Q.state.db

theorem LedgerInv.arrive {code : String} (h : LedgerInv n code email before P phases)
    (hlength : P.calls.length = phases.length) (r : LedgerRequest) :
    LedgerInv n code email before
      { P with calls := P.calls ++ [⟨r, P.state, (ledgerSystem cfg).handler r⟩] }
      (phases ++ [r.start]) := by
  refine ⟨h.knows.arrive hlength (r.isOf_start P.state), ?_⟩
  rw [List.map_append, List.map_singleton]
  cases r with
  | redeemPromo r => exact h.once.arrive r.auth.email
  | _ => exact h.once.arrive ""

theorem LedgerInv.env {code : String} (h : LedgerInv n code email before P phases) (e : LedgerEnv)
    (hkeeps : KeepsRedemptions n email P.state.db (e.1 P.state).db) :
    LedgerInv n code email before { P with state := e.1 P.state } phases := by
  have same := e.2 P.state
  refine ⟨⟨h.knows.state.of_same same.promoCodes, fun i c ψ hc hψ => ?_⟩,
    h.once.loses (.of_sameLedger same) hkeeps⟩
  exact (h.knows.call i c ψ hc hψ).other fun hspelt => hspelt.of_same same.promoCodes

theorem LedgerStep.once {ψ ψ' : LedgerPhase} {i : Nat} (hT : LedgerStep ψ w ψ' w')
    (h : OncePerAccount n email before w (phases.map LedgerPhase.redemption))
    (hψ : phases[i]? = some ψ)
    (hkeeps : KeepsRedemptions n email w.db w'.db) :
    OncePerAccount n email before w' ((phases.set i ψ').map LedgerPhase.redemption) := by
  have hφ : (phases.map LedgerPhase.redemption)[i]? = some ψ.redemption := by
    rw [List.getElem?_map, hψ]
    rfl
  rw [List.map_set]
  -- but for a statement of a redemption, a call holds what it has held
  have hidle : ψ'.redemption = ψ.redemption →
      (phases.map LedgerPhase.redemption).set i ψ'.redemption =
        phases.map LedgerPhase.redemption := by
    intro heq
    obtain ⟨hlt, hget⟩ := List.getElem?_eq_some_iff.mp hφ
    rw [heq, ← hget, List.set_getElem_self]
  cases hT with
  | loses hloses =>
    rw [hidle rfl]
    exact h.loses hloses hkeeps
  | finds found =>
    rw [hidle rfl]
    exact h
  | redeems step => exact h.step hφ step

/-- What holds of every run without such a deletion. -/
theorem ledgerInv_of_run {s₀ : World} {p : PromoCode} (hclaims : s₀.claims = [])
    (hp : p ∈ s₀.db.promoCodes)
    (hrun : (ledgerSystem cfg).Run (KeepsHosts p.id email) ⟨s₀, []⟩ P) :
    ∃ phases, Tracks LedgerStep (fun ψ r => ψ.Ends r) P phases ∧
      LedgerInv p.id p.code email (rowsFor s₀.db p.id email) P phases := by
  have hinit : LedgerInv p.id p.code email (rowsFor s₀.db p.id email)
      (⟨s₀, []⟩ : LedgerPool) [] := by
    exact ⟨⟨⟨p, hp, rfl, rfl⟩, fun i c ψ hc => by cases hc⟩, .nil hclaims, Nat.le_refl _⟩
  have hstart : ∀ (r : LedgerRequest) (_ : World), FollowsLedger r.start (ledgerHandler cfg r) :=
    fun r _ => follows_ledgerHandler r
  obtain ⟨phases, htracks, -, hinv⟩ := Tracks.inv_of_run hstart hinit
    (fun P phases r htracks _ hinv => hinv.arrive (List.Forall₂.length_eq htracks) r)
    (fun P phases e hkeeps hinv => hinv.env e hkeeps)
    (fun P Q phases i c ψ ψ' prog _ _ _ hkeeps hc _ hψ hT hcalls hinv => by
      refine ⟨hinv.knows.set hcalls (hT.spelt hinv.knows.state)
        (hT.isOf (hinv.knows.call i c ψ hc hψ)) fun j d χ _ _ _ hχ => hχ.other hT.spelt, ?_⟩
      exact hT.once hinv.once hψ hkeeps)
    hrun
  exact ⟨phases, htracks, hinv⟩

/-- A call that has redeemed the code holds a redemption of it by the account. -/
theorem LedgerInv.holds {code : String} {i : Nat} {c : LedgerCall}
    (h : LedgerInv n code email before P phases)
    (htracks : Tracks LedgerStep (fun ψ r => ψ.Ends r) P phases) (hc : P.calls[i]? = some c)
    (hredeemed : hasRedeemed code email c = true) :
    ∃ φ, (phases.map LedgerPhase.redemption)[i]? = some φ ∧ holdsRowFor n email φ = true := by
  obtain ⟨r, reply, hr, hcode, haccount, hout⟩ := hasRedeemed_iff.mp hredeemed
  obtain ⟨ψ, hψ, -⟩ := forall₂_getElem? htracks hc
  have hends := htracks.post_of_outcome hc hψ hout
  have hof := h.knows.call i c ψ hc hψ r hr
  refine ⟨ψ.redemption, by rw [List.getElem?_map, hψ]; rfl, ?_⟩
  cases ψ with
  | searching code email => exact hends.elim
  | redeeming promoId φ =>
    obtain ⟨hemail, hspelt⟩ := hof
    have hid : n = promoId := Spelt.id_eq h.knows.state (hcode ▸ hspelt)
    have hheld : φ.2 = .held promoId := hends
    have hφ : φ.1 = email := hemail.trans haccount
    simp [holdsRowFor, LedgerPhase.redemption, hheld, hφ, Stage.row, hid]
  | other => exact hof.elim

/-- **Once for an account.** In a run of redemptions, purges, deletions of workspaces, sign-ups
and new workspaces, in any order and interleaved in any way, two calls by one account that have
redeemed one code are the same call, as long as no workspace is deleted that a redemption of the
code by the account is recorded against. -/
theorem redeemed_once {p : PromoCode} {P₀ : LedgerPool} (hcalls : P₀.calls = [])
    (hclaims : P₀.state.claims = []) (hp : p ∈ P₀.state.db.promoCodes)
    (hrun : (ledgerSystem cfg).Run (KeepsHosts p.id email) P₀ P) {i j : Nat} {c d : LedgerCall}
    (hc : P.calls[i]? = some c) (hd : P.calls[j]? = some d) (hci : hasRedeemed p.code email c = true)
    (hdj : hasRedeemed p.code email d = true) : i = j := by
  obtain ⟨s₀, calls⟩ := P₀
  cases hcalls
  obtain ⟨phases, htracks, hinv⟩ := ledgerInv_of_run hclaims hp hrun
  obtain ⟨φ, hφ, hholds⟩ := hinv.holds htracks hc hci
  obtain ⟨φ', hφ', hholds'⟩ := hinv.holds htracks hd hdj
  have hle := hinv.once.held.trans (rowsFor_le_one P.state.db p.id email)
  exact eq_of_countP_le_one (by omega) hφ hφ' hholds hholds'

/-- What the ledger had of the pair, and what has been added to it: not more than one. -/
theorem redeemed_atMostOnce_of_run {s₀ : World} {p : PromoCode} (hclaims : s₀.claims = [])
    (hp : p ∈ s₀.db.promoCodes)
    (hrun : (ledgerSystem cfg).Run (KeepsHosts p.id email) ⟨s₀, []⟩ P) :
    rowsFor s₀.db p.id email + P.calls.countP (hasRedeemed p.code email) ≤ 1 := by
  obtain ⟨phases, htracks, hinv⟩ := ledgerInv_of_run hclaims hp hrun
  have hcalls : P.calls.countP (hasRedeemed p.code email) ≤
      (phases.map LedgerPhase.redemption).countP (holdsRowFor p.id email) :=
    countP_le_countP_of_getElem? fun _ _ hc hredeemed => hinv.holds htracks hc hredeemed
  have hheld := hinv.once.held
  have hone := rowsFor_le_one P.state.db p.id email
  omega

/-! ### The account comes back -/

/-- A code for a fifth off, as often as anyone likes. -/
def earlyCode : PromoCode where
  id := 1
  code := "EARLY"
  type := .percentOff
  percentOff := some 20

/-- Ada owns a workspace. -/
def adasShop : World where
  db :=
    { tenants := .single { id := 1, name := "Acme", slug := "acme", subdomain := "acme" }
      users := .single { id := 1, tenantId := some 1, email := "ada@example.com", role := .owner }
      promoCodes := .single earlyCode }

/-- Ada redeems the code from one of her workspaces. -/
def adaRedeems (tenantId : Nat) : Move LedgerRequest LedgerEnv :=
  .arrive (.redeemPromo
    { code := "early"
      auth :=
        { id := tenantId, tenantId := some tenantId, role := .owner, email := "ada@example.com" } })

def adaSignsUp : Move LedgerRequest LedgerEnv :=
  .arrive (.registerNewUser { fullName := "Ada", email := "ada@example.com", password := "salted" })

def adaOpensAcme : Move LedgerRequest LedgerEnv :=
  .arrive (.createWorkspace { name := "Acme", subdomain := "acme" }
    { id := 2, tenantId := none, role := .owner, email := "ada@example.com" })

/-- She redeems it, deletes her account, signs up again, and redeems it again. -/
def adaComesBack : List (Move LedgerRequest LedgerEnv) :=
  [adaRedeems 1] ++ List.replicate 7 (.run 0) ++
    [.arrive (.purgeAccount "ada@example.com" false)] ++ List.replicate 4 (.run 1) ++
    [adaSignsUp] ++ List.replicate 2 (.run 2) ++ [adaOpensAcme] ++ List.replicate 4 (.run 3) ++
    [adaRedeems 2] ++ List.replicate 7 (.run 4)

/-- With the workspace went the redemption. -/
theorem redeemed_twice_after_purge :
    ∃ P, (ledgerSystem .paddleDemo).Run (fun _ _ => True) ⟨adasShop, []⟩ P ∧
      P.calls.countP (hasRedeemed "EARLY" "ada@example.com") = 2 := by
  have htwice : ((ledgerSystem .paddleDemo).schedule ⟨adasShop, []⟩ adaComesBack).map (fun P =>
      P.calls.countP (hasRedeemed "EARLY" "ada@example.com")) = some 2 := by
    decide +kernel
  obtain ⟨P, hP, hcount⟩ := Option.map_eq_some_iff.mp htwice
  exact ⟨P, System.run_of_schedule hP, hcount⟩

/-- Another workspace goes, and the code is not redeemed again. -/
def adaTriesTwice : List (Move LedgerRequest LedgerEnv) :=
  [adaRedeems 1] ++ List.replicate 7 (.run 0) ++ [.arrive (.deleteWorkspace 7), .run 1] ++
    [adaRedeems 1] ++ List.replicate 3 (.run 2)

def adaKeepsShop (P Q : LedgerPool) : Bool :=
  decide (KeepsRedemptions 1 "ada@example.com" P.state.db Q.state.db)

theorem run_adasShop {moves : List (Move LedgerRequest LedgerEnv)}
    (h : (ledgerSystem .paddleDemo).scheduleWith adaKeepsShop ⟨adasShop, []⟩ moves = some P) :
    (ledgerSystem .paddleDemo).Run (KeepsHosts earlyCode.id "ada@example.com") ⟨adasShop, []⟩ P := by
  refine System.run_of_scheduleWith (fun P Q hkeeps => ?_) h
  exact (decide_eq_true_eq (p := KeepsRedemptions _ _ _ _)).mp hkeeps

theorem redeemed_once_adasShop :
    ∃ P, (ledgerSystem .paddleDemo).scheduleWith adaKeepsShop ⟨adasShop, []⟩ adaTriesTwice =
        some P ∧
      ∃ c, P.calls[0]? = some c ∧ hasRedeemed "EARLY" "ada@example.com" c = true ∧
        ∀ j d, P.calls[j]? = some d → hasRedeemed "EARLY" "ada@example.com" d = true → 0 = j := by
  have hfirst : ((ledgerSystem .paddleDemo).scheduleWith adaKeepsShop ⟨adasShop, []⟩
      adaTriesTwice).any (fun P =>
        P.calls[0]?.any (hasRedeemed "EARLY" "ada@example.com")) = true := by
    decide +kernel
  obtain ⟨P, hP, hany⟩ := (Option.any_eq_true _ _).mp hfirst
  obtain ⟨c, hc, hredeemed⟩ := (Option.any_eq_true _ _).mp hany
  refine ⟨P, hP, c, hc, hredeemed, fun j d hd hdj => ?_⟩
  have hcode : earlyCode ∈ adasShop.db.promoCodes := List.mem_singleton.mpr rfl
  exact redeemed_once rfl rfl hcode (run_adasShop hP) hc hd hredeemed hdj

theorem redeemed_atMostOnce_adasShop :
    ∃ P, (ledgerSystem .paddleDemo).scheduleWith adaKeepsShop ⟨adasShop, []⟩ adaTriesTwice =
        some P ∧
      P.calls.length = 3 ∧ P.calls.countP (hasRedeemed "EARLY" "ada@example.com") = 1 := by
  have hend : ((ledgerSystem .paddleDemo).scheduleWith adaKeepsShop ⟨adasShop, []⟩
      adaTriesTwice).map (fun P => (P.calls.length,
        P.calls[0]?.any (hasRedeemed "EARLY" "ada@example.com"))) = some (3, true) := by
    decide +kernel
  obtain ⟨P, hP, hcalls⟩ := Option.map_eq_some_iff.mp hend
  obtain ⟨hlength, hany⟩ := Prod.mk.inj hcalls
  obtain ⟨c, hc, hredeemed⟩ := (Option.any_eq_true _ _).mp hany
  have hcode : earlyCode ∈ adasShop.db.promoCodes := List.mem_singleton.mpr rfl
  have hatMost := redeemed_atMostOnce_of_run rfl hcode (run_adasShop hP)
  have hpos : 0 < P.calls.countP (hasRedeemed "EARLY" "ada@example.com") :=
    List.countP_pos_iff.mpr ⟨c, List.mem_of_getElem? hc, hredeemed⟩
  have hcode' : earlyCode.code = "EARLY" := rfl
  rw [hcode'] at hatMost
  exact ⟨P, hP, hlength, by omega⟩

end Feedbase
