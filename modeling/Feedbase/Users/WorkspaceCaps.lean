import Feedbase.Lib.Turns
import Feedbase.Users.WorkspaceSteps

/-!
# The workspace caps of an account

A plan caps the workspaces an account owns and those it has joined. `createWorkspace` and
`acceptInvitationAsExistingUser` count before they insert, in statements of their own, and
a new workspace claims the account's pending row by what a snapshot says of it.

## Main definitions

* `CapStep` — what a statement does to the caps
* `TakesTurns`

## Main results

* `caps_of_run`
-/

namespace Feedbase

open Sql

variable {email : String} {w w' : World} {db db' : Db}

/-! ### What a statement does -/

/-- How far a call has come, and what it has read. -/
inductive CapPhase where
  | idle
  | creating (auth : AuthData)
  | ownedRead (auth : AuthData) (owned : Nat)
  | mayCreate (auth : AuthData)
  | ready (auth : AuthData) (account : User)
  | created (auth : AuthData) (tenantId : Nat)
  | accepting (auth : AuthData)
  | holding (auth : AuthData) (inv : Invitation)
  | joinedRead (auth : AuthData) (inv : Invitation) (joined : Nat)
  | mayJoin (auth : AuthData) (inv : Invitation)

/-- What one statement does to the caps. -/
inductive CapStep : CapPhase → World → CapPhase → World → Prop where
  | keeps {w w' : World} {φ : CapPhase} (h : SameCaps w w') : CapStep φ w φ w'
  | leaves {w w' : World} {φ : CapPhase} (h : SameCaps w w') : CapStep φ w .idle w'
  | countsOwned {w : World} (auth : AuthData) :
      CapStep (.creating auth) w (.ownedRead auth (memberships w.db auth.email true)) w
  | mayCreate {w : World} (auth : AuthData) (owned : Nat)
      (hleft : (getPlanLimits (accountTier w.db auth.email)).ownWorkspaces.all (owned < ·) = true) :
      CapStep (.ownedRead auth owned) w (.mayCreate auth) w
  | reads {w : World} (auth : AuthData) (account : User)
      (h : w.db.users.byId auth.id = some account) :
      CapStep (.mayCreate auth) w (.ready auth account) w
  | creates {w : World} (auth : AuthData) (account : User) (name subdomain : String)
      (website : Option String) (r : NewWorkspace) (db : Db)
      (h : insertWorkspace name subdomain website account w.db = some (r, db)) :
      CapStep (.ready auth account) w (.created auth r.tenantId) { w with db := db }
  | holds {w : World} (auth : AuthData) (token : String) (inv : Invitation) (tenant : Tenant)
      (hopen : openInvitation w.db w.now token = some (inv, tenant))
      (hemail : auth.email = inv.email) :
      CapStep (.accepting auth) w (.holding auth inv) (w.locked (locksOf inv tenant))
  | countsJoined {w : World} (auth : AuthData) (inv : Invitation) :
      CapStep (.holding auth inv) w (.joinedRead auth inv (memberships w.db inv.email false)) w
  | mayJoin {w : World} (auth : AuthData) (inv : Invitation) (joined : Nat)
      (hleft : (getPlanLimits (accountTier w.db inv.email)).joinWorkspaces.all (joined < ·) =
        true) :
      CapStep (.joinedRead auth inv joined) w (.mayJoin auth inv) w
  | joins {w : World} (auth : AuthData) (inv : Invitation) (tenant : Tenant) (fullName : String)
      (passwordHash avatarUrl : Option String) (db : Db)
      (h : joinWorkspace inv fullName passwordHash avatarUrl w.db = some db) :
      CapStep (.mayJoin auth inv) w .idle ({ w with db := db }.released (locksOf inv tenant))

/-- A call ends before it has counted, behind its transaction, or with its new workspace. -/
def CapsDone : CapPhase → Except Failure (Option Nat) → Prop
  | .idle, r => ∀ n, r ≠ .ok (some n)
  | .creating _, r => ∀ n, r ≠ .ok (some n)
  | .accepting _, r => ∀ n, r ≠ .ok (some n)
  | .created _ tenantId, r => r = .ok (some tenantId)
  | _, _ => False

/-- Every statement of the handler, started in the phase, is one of `CapStep`. -/
structure Capped (φ : CapPhase) (p : Handler (Option Nat)) : Prop where
  follows : Follows CapStep CapsDone φ p

section Handlers

variable {α : Type} {φ : CapPhase}

theorem capped_fail (e : Failure) : Capped .idle (throw e : Handler (Option Nat)) :=
  ⟨.fail fun n h => by cases h⟩

/-- A statement that reads, and what the call knows afterwards. -/
theorem capped_read {f : World → α} {k : α → Handler (Option Nat)}
    (h : ∀ w, ∃ φ', CapStep φ w φ' w ∧ Capped φ' (k (f w))) : Capped φ (Prog.read f >>= k) := by
  refine ⟨fun w _ => ?_⟩
  obtain ⟨φ', hstep, hk⟩ := h w
  exact ⟨φ', hstep, hk.follows⟩

variable {name subdomain : String} {website : Option String} {auth : AuthData}

theorem capped_commitWorkspace {account : User} {k : NewWorkspace → Handler (Option Nat)}
    (hk : ∀ r, Capped (.created auth r.tenantId) (k r)) :
    Capped (.ready auth account) (commitWorkspace name subdomain website account >>= k) := by
  refine ⟨fun w _ => ?_⟩
  cases hins : insertWorkspace name subdomain website account w.db with
  | none =>
    refine ⟨.idle, ?_⟩
    dsimp only
    rw [hins]
    exact ⟨.leaves (.refl w), (capped_fail _).follows⟩
  | some r =>
    obtain ⟨created, db⟩ := r
    refine ⟨.created auth created.tenantId, ?_⟩
    dsimp only
    rw [hins]
    exact ⟨.creates auth account name subdomain website created db hins, (hk created).follows⟩

/-- The id of a new workspace. -/
def createdId (p : Handler (Reply NewWorkspace)) : Handler (Option Nat) := do
  let reply ← p
  return some reply.result.tenantId

theorem capped_openWorkspace :
    Capped (.mayCreate auth) (createdId (openWorkspace name subdomain website auth.id)) := by
  rw [createdId, openWorkspace, bind_assoc]
  refine capped_read fun w => ?_
  dsimp only
  split
  · exact ⟨.idle, .leaves (.refl w), capped_fail _⟩
  cases haccount : w.db.users.byId auth.id with
  | none => exact ⟨.idle, .leaves (.refl w), capped_fail _⟩
  | some account =>
    dsimp only
    split
    · exact ⟨.idle, .leaves (.refl w), capped_fail _⟩
    refine ⟨.ready auth account, .reads auth account haccount, ?_⟩
    rw [bind_assoc]
    exact capped_commitWorkspace fun r => ⟨.ret rfl⟩

theorem capped_createWorkspaceSteps (data : WorkspaceData) (auth : AuthData) :
    Capped (.creating auth) (createdId (createWorkspaceSteps data auth)) := by
  unfold createWorkspaceSteps
  dsimp only
  split
  · exact ⟨.fail fun n h => by cases h⟩
  split
  · exact ⟨.fail fun n h => by cases h⟩
  rw [createdId, bind_assoc, getAccountWorkspaceUsage, bind_assoc]
  refine capped_read fun w => ⟨_, .countsOwned auth, ?_⟩
  rw [bind_assoc]
  refine capped_read fun w' => ?_
  rw [pure_bind, canCreate_eq]
  dsimp only
  split
  · exact ⟨.idle, .leaves (.refl w'), capped_fail _⟩
  · rename_i hleft
    exact ⟨.mayCreate auth, .mayCreate auth _ (by simpa using hleft), capped_openWorkspace⟩

/-! ### The acceptances -/

/-- Every statement of the handler, started in the phase, is one of `CapStep`, and it ends
behind its transaction. -/
structure Accepts (φ : CapPhase) (p : Handler α) : Prop where
  follows : Follows CapStep (fun φ _ => φ = .idle) φ p

variable {inv : Invitation} {tenant : Tenant}

theorem accepts_fail (e : Failure) : Accepts .idle (throw e : Handler α) := ⟨.fail rfl⟩

theorem accepts_read {β : Type} {f : World → β} {k : β → Handler α}
    (h : ∀ w, ∃ φ', CapStep φ w φ' w ∧ Accepts φ' (k (f w))) :
    Accepts φ (Prog.read f >>= k) := by
  refine ⟨fun w _ => ?_⟩
  obtain ⟨φ', hstep, hk⟩ := h w
  exact ⟨φ', hstep, hk.follows⟩

theorem accepts_rollbackJoin {k : Unit → Handler α} (hk : Accepts .idle (k ())) :
    Accepts φ (rollbackJoin inv tenant >>= k) :=
  ⟨fun _ _ => ⟨.idle, .leaves ⟨rfl, rfl, fun _ => rfl⟩, hk.follows⟩⟩

theorem accepts_joinAsExistingUser (account : Option User) :
    Accepts (.mayJoin auth inv) (joinAsExistingUser inv tenant account) := by
  cases account with
  | none => exact accepts_rollbackJoin (accepts_fail _)
  | some account =>
    refine ⟨fun w _ => ⟨.idle, ?_⟩⟩
    cases hjoin : joinWorkspace inv account.fullName account.passwordHash account.avatarUrl
        w.db with
    | none =>
      dsimp only
      rw [hjoin]
      exact ⟨.leaves ⟨rfl, rfl, fun _ => rfl⟩, (accepts_fail _).follows⟩
    | some db =>
      dsimp only
      rw [hjoin]
      exact ⟨.joins auth inv tenant _ _ _ db hjoin, .ret rfl⟩

theorem accepts_checkExistingUser (hemail : auth.email = inv.email) :
    Accepts (.holding auth inv) (checkExistingUser inv tenant auth) := by
  rw [checkExistingUser, if_neg (not_not.mpr hemail)]
  refine accepts_read fun w => ⟨_, .keeps (.refl w), ?_⟩
  dsimp only
  split
  · exact accepts_rollbackJoin (accepts_fail _)
  rw [getAccountWorkspaceUsage, bind_assoc]
  refine accepts_read fun w => ⟨_, .countsJoined auth inv, ?_⟩
  rw [bind_assoc]
  refine accepts_read fun w' => ?_
  rw [pure_bind, canJoin_eq]
  split
  · exact ⟨_, .keeps (.refl w'), accepts_rollbackJoin (accepts_fail _)⟩
  · rename_i hleft
    exact ⟨.mayJoin auth inv, .mayJoin auth inv _ (by simpa using hleft),
      accepts_joinAsExistingUser _⟩

/-- The rest of `existingUserSteps`, with the locked invitation. -/
def checkLocked (auth : AuthData) : Option (Invitation × Tenant) → Handler (Reply Joined)
  | none => reject 400 "invitation_invalid"
  | some (inv, tenant) => checkExistingUser inv tenant auth

theorem accepts_existingUserSteps (token : String) (auth : AuthData) :
    Accepts (.accepting auth) (existingUserSteps token auth) := by
  have hbody : Accepts (.accepting auth) (lockInvitation token >>= checkLocked auth) := by
    refine ⟨fun w _ => ?_⟩
    cases hopen : openInvitation w.db w.now token with
    | none =>
      refine ⟨.idle, ?_⟩
      dsimp only
      rw [hopen]
      exact ⟨.leaves (.refl w), (accepts_fail _).follows⟩
    | some r =>
      obtain ⟨inv, tenant⟩ := r
      by_cases hemail : auth.email = inv.email
      · refine ⟨.holding auth inv, ?_⟩
        dsimp only
        rw [hopen]
        exact ⟨.holds auth token inv tenant hopen hemail,
          (accepts_checkExistingUser hemail).follows⟩
      · refine ⟨.idle, ?_⟩
        dsimp only
        rw [hopen]
        refine ⟨.leaves ⟨rfl, rfl, fun _ => rfl⟩, ?_⟩
        change Follows CapStep _ _ (checkExistingUser inv tenant auth)
        rw [checkExistingUser, if_pos hemail]
        exact (accepts_rollbackJoin (accepts_fail _)).follows
  refine ⟨hbody.follows.catching (fun _ _ hφ => hφ) fun φ e hφ => ?_⟩
  cases e <;> exact .fail hφ

/-- A handler that creates no workspace. -/
def withoutId (p : Handler α) : Handler (Option Nat) := do
  let _ ← p
  return none

theorem Accepts.withoutId {p : Handler α} (h : Accepts φ p) : Capped φ (withoutId p) := by
  refine ⟨h.follows.bind (fun φ a hφ => ?_) fun φ e hφ => ?_⟩
  · exact .ret (hφ ▸ fun n h => by cases h)
  · rw [hφ]
    exact fun n h => by cases h

end Handlers

/-! ### Interleavings -/

/-- A request that adds a workspace to an account. -/
inductive CapRequest where
  | create (data : WorkspaceData) (auth : AuthData)
  | accept (token : String) (auth : AuthData)
  deriving DecidableEq

def CapRequest.auth : CapRequest → AuthData
  | .create _ auth => auth
  | .accept _ auth => auth

/-- The phase a request starts in. -/
def CapRequest.phase : CapRequest → CapPhase
  | .create _ auth => .creating auth
  | .accept _ auth => .accepting auth

/-- The handler of a request; a new workspace is named by its id. -/
def capHandler : CapRequest → Handler (Option Nat)
  | .create data auth => createdId (createWorkspaceSteps data auth)
  | .accept token auth => withoutId (existingUserSteps token auth)

theorem capped_handler (r : CapRequest) : Capped r.phase (capHandler r) := by
  cases r with
  | create data auth => exact capped_createWorkspaceSteps data auth
  | accept token auth => exact (accepts_existingUserSteps token auth).withoutId

/-- What happens between the statements of the calls: time passes, invitations are sent, and
nothing changes a user, a workspace or a tier. -/
structure KeepsCaps (w w' : World) : Prop extends SameCaps w w' where
  now : w.now ≤ w'.now
  rowLocks : w'.rowLocks = w.rowLocks

def CapEnv : Type := { f : World → World // ∀ w, KeepsCaps w (f w) }

def capSystem : System World Failure (Option Nat) CapRequest CapEnv where
  handler := capHandler
  env e := e.1

abbrev CapPool := Pool World Failure (Option Nat) CapRequest

abbrev CapCall := Call World Failure (Option Nat) CapRequest

/-- Every call is signed in as a row of its account. -/
def SignedInAsRow (P : CapPool) : Prop :=
  ∀ c ∈ P.calls, ∃ u ∈ P.state.db.users, u.id = c.request.auth.id ∧ u.email = c.request.auth.email

/-- A call of the account that creates a workspace. -/
def CapRequest.CreatesFor (email : String) : CapRequest → Prop
  | .create _ auth => auth.email = email
  | .accept .. => False

/-- A call of the account that accepts an invitation. -/
def CapRequest.AcceptsFor (email : String) : CapRequest → Prop
  | .create .. => False
  | .accept _ auth => auth.email = email

/-- At most one call of the account that creates a workspace is under way, and at most one
that accepts an invitation. -/
structure TakesTurns (email : String) (P : CapPool) : Prop where
  creates : ∀ (i j : Nat) (c d : CapCall), P.calls[i]? = some c → P.calls[j]? = some d →
    capSystem.UnderWay c → capSystem.UnderWay d → c.request.CreatesFor email →
      d.request.CreatesFor email → i = j
  accepts : ∀ (i j : Nat) (c d : CapCall), P.calls[i]? = some c → P.calls[j]? = some d →
    capSystem.UnderWay c → capSystem.UnderWay d → c.request.AcceptsFor email →
      d.request.AcceptsFor email → i = j

/-! ### What every state keeps -/

variable {tier : String} {P Q : CapPool} {phases : List CapPhase}

/-- The account has room for another workspace of its own. -/
def RoomToOwn (email tier : String) (db : Db) : Prop :=
  ∀ l ∈ (getPlanLimits tier).ownWorkspaces, memberships db email true < l

/-- The account has room to join another workspace. -/
def RoomToJoin (email tier : String) (db : Db) : Prop :=
  ∀ l ∈ (getPlanLimits tier).joinWorkspaces, memberships db email false < l

/-- The account is within the caps of its tier. -/
structure WithinCaps (email tier : String) (db : Db) : Prop where
  hasTier : accountTier db email = tier
  refer : UsersReferTenants db
  owned : ∀ l ∈ (getPlanLimits tier).ownWorkspaces, memberships db email true ≤ l
  joined : ∀ l ∈ (getPlanLimits tier).joinWorkspaces, memberships db email false ≤ l

/-- The phase is one of the request's. -/
def CapPhase.Of (r : CapRequest) : CapPhase → Prop
  | .idle => True
  | .creating auth | .ownedRead auth _ | .mayCreate auth | .ready auth _ | .created auth _ =>
    ∃ data, r = .create data auth
  | .accepting auth | .holding auth _ | .joinedRead auth _ _ | .mayJoin auth _ =>
    ∃ token, r = .accept token auth

/-- What a call has read of the account is still so, or has become less. -/
def CapPhase.Known (email tier : String) (db : Db) : CapPhase → Prop
  | .idle | .creating _ | .accepting _ => True
  | .ownedRead auth owned => auth.email = email → memberships db email true ≤ owned
  | .mayCreate auth => auth.email = email → RoomToOwn email tier db
  | .ready auth account => (account.id = auth.id ∧ account.email = auth.email) ∧
    (auth.email = email → account ∈ db.users ∧ RoomToOwn email tier db)
  | .created auth n => auth.email = email → ∃ o ∈ db.users, o.email = email ∧ o.OwnerOf n
  | .holding auth inv => auth.email = inv.email ∧ ∃ t ∈ db.tenants, t.id = inv.tenantId
  | .joinedRead auth inv joined =>
    (auth.email = inv.email ∧ ∃ t ∈ db.tenants, t.id = inv.tenantId) ∧
    (inv.email = email → memberships db email false ≤ joined)
  | .mayJoin auth inv => (auth.email = inv.email ∧ ∃ t ∈ db.tenants, t.id = inv.tenantId) ∧
    (inv.email = email → RoomToJoin email tier db)

/-- The call has counted the workspaces the account owns. -/
def CapPhase.Owning (email : String) : CapPhase → Prop
  | .ownedRead auth _ | .mayCreate auth | .ready auth _ => auth.email = email
  | _ => False

/-- The call has counted the workspaces the account has joined. -/
def CapPhase.Joining (email : String) : CapPhase → Prop
  | .joinedRead _ inv _ | .mayJoin _ inv => inv.email = email
  | _ => False

/-- What another call may change without a call noticing. -/
theorem CapPhase.Known.mono {ψ : CapPhase} (h : ψ.Known email tier db)
    (htenants : ∀ n, (∃ t ∈ db.tenants, t.id = n) → ∃ t ∈ db'.tenants, t.id = n)
    (howners : ∀ u ∈ db.users, u.email = email → u.tenantId ≠ none → u ∈ db'.users)
    (howning : ψ.Owning email → memberships db' email true ≤ memberships db email true ∧
      ∀ u ∈ db.users, u.email = email → u ∈ db'.users)
    (hjoining : ψ.Joining email → memberships db' email false ≤ memberships db email false) :
    ψ.Known email tier db' := by
  cases ψ with
  | idle => trivial
  | creating auth => trivial
  | accepting auth => trivial
  | ownedRead auth owned => exact fun hemail => (howning hemail).1.trans (h hemail)
  | mayCreate auth =>
    exact fun hemail l hl => Nat.lt_of_le_of_lt (howning hemail).1 (h hemail l hl)
  | ready auth account =>
    refine ⟨h.1, fun hemail => ⟨?_, fun l hl => ?_⟩⟩
    · exact (howning hemail).2 account (h.2 hemail).1 (h.1.2.trans hemail)
    · exact Nat.lt_of_le_of_lt (howning hemail).1 ((h.2 hemail).2 l hl)
  | created auth n =>
    intro hemail
    obtain ⟨o, ho, hoemail, howner⟩ := h hemail
    exact ⟨o, howners o ho hoemail (by rw [howner.1]; simp), hoemail, howner⟩
  | holding auth inv => exact ⟨h.1, htenants _ h.2⟩
  | joinedRead auth inv joined =>
    exact ⟨⟨h.1.1, htenants _ h.1.2⟩, fun hemail => (hjoining hemail).trans (h.2 hemail)⟩
  | mayJoin auth inv =>
    exact ⟨⟨h.1.1, htenants _ h.1.2⟩, fun hemail l hl =>
      Nat.lt_of_le_of_lt (hjoining hemail) (h.2 hemail l hl)⟩

theorem SameCaps.known (hsame : SameCaps w w') {ψ : CapPhase} (h : ψ.Known email tier w.db) :
    ψ.Known email tier w'.db := by
  refine h.mono ?_ ?_ ?_ ?_
  · rw [hsame.tenants]
    exact fun _ ht => ht
  · rw [hsame.users]
    exact fun _ hu _ _ => hu
  · rw [memberships_congr hsame.users hsame.tenants, hsame.users]
    exact fun _ => ⟨Nat.le_refl _, fun _ hu _ => hu⟩
  · exact fun _ => (memberships_congr hsame.users hsame.tenants email false).le

theorem SameCaps.within (hsame : SameCaps w w') (h : WithinCaps email tier w.db) :
    WithinCaps email tier w'.db := by
  refine ⟨(hsame.tier email).trans h.hasTier, ?_, ?_, ?_⟩
  · unfold UsersReferTenants
    rw [hsame.users, hsame.tenants]
    exact h.refer
  · rw [memberships_congr hsame.users hsame.tenants]
    exact h.owned
  · rw [memberships_congr hsame.users hsame.tenants]
    exact h.joined

/-- A call that has counted is under way. -/
theorem underWay_of_counted
    (htracks : Tracks CapStep CapsDone P phases)
    (hbegun : Tracks.Begun capSystem (fun r _ => r.phase) P phases) {j : Nat} {d : CapCall}
    {ψ : CapPhase} (hd : P.calls[j]? = some d) (hψ : phases[j]? = some ψ)
    (hcounted : ψ.Owning email ∨ ψ.Joining email) : capSystem.UnderWay d := by
  obtain ⟨ψ', hψ', hfollows⟩ := forall₂_getElem? htracks hd
  obtain rfl : ψ' = ψ := Option.some.inj (hψ'.symm.trans hψ)
  have hmid : ∀ r, ¬ CapsDone ψ' r := by
    intro r hdone
    cases ψ' with
    | ownedRead auth owned => exact hdone
    | mayCreate auth => exact hdone
    | ready auth account => exact hdone
    | joinedRead auth inv joined => exact hdone
    | mayJoin auth inv => exact hdone
    | idle => exact hcounted.elim id id
    | creating auth => exact hcounted.elim id id
    | created auth n => exact hcounted.elim id id
    | accepting auth => exact hcounted.elim id id
    | holding auth inv => exact hcounted.elim id id
  refine hbegun.underWay hd hψ (hfollows.outcome_eq_none hmid) ?_
  rintro rfl
  cases hreq : d.request with
  | create data auth => rw [hreq] at hcounted; exact hcounted.elim id id
  | accept token auth => rw [hreq] at hcounted; exact hcounted.elim id id

/-- What a call knows: its phase is one of its request's, and what it has read. -/
def CapKnown (email tier : String) (r : CapRequest) (φ : CapPhase) (w : World) : Prop :=
  φ.Of r ∧ φ.Known email tier w.db

theorem createsFor_of_owning {r : CapRequest} {φ : CapPhase} (hof : φ.Of r)
    (h : φ.Owning email) : r.CreatesFor email := by
  cases φ with
  | ownedRead auth owned => obtain ⟨data, rfl⟩ := hof; exact h
  | mayCreate auth => obtain ⟨data, rfl⟩ := hof; exact h
  | ready auth account => obtain ⟨data, rfl⟩ := hof; exact h
  | idle => exact h.elim
  | creating auth => exact h.elim
  | created auth n => exact h.elim
  | accepting auth => exact h.elim
  | holding auth inv => exact h.elim
  | joinedRead auth inv joined => exact h.elim
  | mayJoin auth inv => exact h.elim

theorem acceptsFor_of_joining {r : CapRequest} {φ : CapPhase} (hof : φ.Of r)
    (hknown : φ.Known email tier db) (h : φ.Joining email) : r.AcceptsFor email := by
  cases φ with
  | joinedRead auth inv joined => obtain ⟨token, rfl⟩ := hof; exact hknown.1.1.trans h
  | mayJoin auth inv => obtain ⟨token, rfl⟩ := hof; exact hknown.1.1.trans h
  | idle => exact h.elim
  | creating auth => exact h.elim
  | ownedRead auth owned => exact h.elim
  | mayCreate auth => exact h.elim
  | ready auth account => exact h.elim
  | created auth n => exact h.elim
  | accepting auth => exact h.elim
  | holding auth inv => exact h.elim

/-- Without a limit, or with one that is not reached. -/
theorem room_of_all {limit : Option Nat} {n m : Nat} (h : limit.all (n < ·) = true) (hle : m ≤ n) :
    ∀ l ∈ limit, m < l := by
  rintro l rfl
  exact Nat.lt_of_le_of_lt hle (of_decide_eq_true h)

/-- The commit of a new workspace. -/
theorem withinCaps_creates {auth : AuthData} {account : User} {name subdomain : String}
    {website : Option String} {r : NewWorkspace} (h : WithinCaps email tier db)
    (hknown : CapPhase.Known email tier db (.ready auth account))
    (hrow : ∃ u ∈ db.users, u.id = account.id ∧ u.email = account.email)
    (hins : insertWorkspace name subdomain website account db = some (r, db')) :
    WithinCaps email tier db' ∧ CapPhase.Known email tier db' (.created auth r.tenantId) := by
  refine ⟨⟨(tier_insertWorkspace hins email).trans h.hasTier,
    refer_insertWorkspace_stale h.refer hins, fun l hl => ?_, fun l hl => ?_⟩, fun hemail => ?_⟩
  · have hle := memberships_insertWorkspace email true h.refer hrow hins
    by_cases hmine : account.email = email
    · have hroom := (hknown.2 (hknown.1.2.symm.trans hmine)).2 l hl
      rw [if_pos ⟨hmine, rfl⟩] at hle
      omega
    · rw [if_neg fun hand => hmine hand.1] at hle
      exact hle.trans (h.owned l hl)
  · have hle := memberships_insertWorkspace email false h.refer hrow hins
    rw [if_neg (by simp)] at hle
    exact hle.trans (h.joined l hl)
  · obtain ⟨⟨o, ho, hoemail, howner⟩, -⟩ :=
      mem_users_of_own h.refer (hknown.2 hemail).1 hins
    exact ⟨o, ho, hoemail.trans (hknown.1.2.trans hemail), howner⟩

/-- The commit of a new member. -/
theorem withinCaps_joins {auth : AuthData} {inv : Invitation} {fullName : String}
    {passwordHash avatarUrl : Option String} (h : WithinCaps email tier db)
    (hknown : CapPhase.Known email tier db (.mayJoin auth inv))
    (hjoin : joinWorkspace inv fullName passwordHash avatarUrl db = some db') :
    WithinCaps email tier db' := by
  have htier : accountTier db' email = accountTier db email := by
    obtain ⟨users, -, rfl⟩ := Option.map_eq_some_iff.mp hjoin
    rfl
  obtain ⟨htenants, row, hrow, -, husers⟩ := joinWorkspace_spec hjoin
  refine ⟨htier.trans h.hasTier, fun u hu n hn => ?_, fun l hl => ?_, fun l hl => ?_⟩
  · rw [htenants]
    rcases (husers u).mp hu with hu | rfl
    · exact h.refer u hu n hn
    · rw [← Option.some.inj (hrow.symm.trans hn)]
      exact hknown.1.2
  · have hle := memberships_joinWorkspace email true hjoin
    rw [if_neg (by simp)] at hle
    exact hle.trans (h.owned l hl)
  · have hle := memberships_joinWorkspace email false hjoin
    by_cases hmine : inv.email = email
    · have hroom := hknown.2 hmine l hl
      rw [if_pos ⟨hmine, rfl⟩] at hle
      omega
    · rw [if_neg fun hand => hmine hand.1] at hle
      exact hle.trans (h.joined l hl)

/-- Two calls of the account that have counted the same workspaces are one. -/
theorem eq_of_counted (hturns : TakesTurns email P)
    (htracks : Tracks CapStep CapsDone P phases)
    (hbegun : Tracks.Begun capSystem (fun r _ => r.phase) P phases)
    (hknows : Tracks.Knows (fun w => WithinCaps email tier w.db) (CapKnown email tier) P phases)
    {i j : Nat} {φ ψ : CapPhase} (hφ : phases[i]? = some φ) (hψ : phases[j]? = some ψ)
    (h : (φ.Owning email ∧ ψ.Owning email) ∨ (φ.Joining email ∧ ψ.Joining email)) : i = j := by
  obtain ⟨c, hc, -⟩ := forall₂_getElem? htracks.flip hφ
  obtain ⟨d, hd, -⟩ := forall₂_getElem? htracks.flip hψ
  obtain ⟨hcof, hcknown⟩ := hknows.call i c φ hc hφ
  obtain ⟨hdof, hdknown⟩ := hknows.call j d ψ hd hψ
  rcases h with ⟨hcounts, hdcounts⟩ | ⟨hcounts, hdcounts⟩
  · exact hturns.creates i j c d hc hd (underWay_of_counted htracks hbegun hc hφ (.inl hcounts))
      (underWay_of_counted htracks hbegun hd hψ (.inl hdcounts))
      (createsFor_of_owning hcof hcounts) (createsFor_of_owning hdof hdcounts)
  · exact hturns.accepts i j c d hc hd (underWay_of_counted htracks hbegun hc hφ (.inr hcounts))
      (underWay_of_counted htracks hbegun hd hψ (.inr hdcounts))
      (acceptsFor_of_joining hcof hcknown hcounts) (acceptsFor_of_joining hdof hdknown hdcounts)

/-- One statement keeps the caps, if the account's calls take turns. -/
theorem capKnown_step (hsigned : SignedInAsRow P) (hturns : TakesTurns email P)
    (htracks : Tracks CapStep CapsDone P phases)
    (hbegun : Tracks.Begun capSystem (fun r _ => r.phase) P phases)
    (hknows : Tracks.Knows (fun w => WithinCaps email tier w.db) (CapKnown email tier) P phases)
    {i : Nat} {c : CapCall} {φ φ' : CapPhase} (hc : P.calls[i]? = some c)
    (hφ : phases[i]? = some φ) (hstep : CapStep φ P.state φ' Q.state) :
    WithinCaps email tier Q.state.db ∧ CapKnown email tier c.request φ' Q.state ∧
      ∀ (j : Nat) (d : CapCall) (ψ : CapPhase), j ≠ i → P.calls[j]? = some d →
        phases[j]? = some ψ → CapKnown email tier d.request ψ P.state →
          CapKnown email tier d.request ψ Q.state := by
  obtain ⟨hof, hknown⟩ := hknows.call i c φ hc hφ
  have hwithin := hknows.state
  obtain ⟨u, hu, huid, huemail⟩ := hsigned c (List.mem_of_getElem? hc)
  -- no other call has counted what this one is about to change
  have halone : ∀ (j : Nat) (ψ : CapPhase), j ≠ i → phases[j]? = some ψ →
      ¬ ((φ.Owning email ∧ ψ.Owning email) ∨ (φ.Joining email ∧ ψ.Joining email)) :=
    fun j ψ hne hψ h => hne (eq_of_counted hturns htracks hbegun hknows hφ hψ h).symm
  obtain ⟨w, calls⟩ := P
  obtain ⟨w', calls'⟩ := Q
  dsimp only at hstep hknown hwithin hu ⊢
  cases hstep with
  | keeps hsame =>
    exact ⟨hsame.within hwithin, ⟨hof, hsame.known hknown⟩,
      fun j d ψ _ _ _ hψ => ⟨hψ.1, hsame.known hψ.2⟩⟩
  | leaves hsame =>
    exact ⟨hsame.within hwithin, ⟨trivial, trivial⟩,
      fun j d ψ _ _ _ hψ => ⟨hψ.1, hsame.known hψ.2⟩⟩
  | countsOwned auth =>
    refine ⟨hwithin, ⟨hof, ?_⟩, fun j d ψ _ _ _ hψ => hψ⟩
    rintro rfl
    exact Nat.le_refl _
  | mayCreate auth owned hleft =>
    refine ⟨hwithin, ⟨hof, ?_⟩, fun j d ψ _ _ _ hψ => hψ⟩
    intro hemail
    rw [hemail, hwithin.hasTier] at hleft
    exact room_of_all hleft (hknown hemail)
  -- the row that is read is the one the caller signed in with
  | reads auth account haccount =>
    refine ⟨hwithin, ⟨hof, ?_⟩, fun j d ψ _ _ _ hψ => hψ⟩
    obtain ⟨data, hreq⟩ := hof
    rw [hreq] at huid huemail
    obtain ⟨hmem, hid⟩ := Table.byId_eq_some_iff.mp haccount
    obtain rfl : u = account := Table.eq_of_id hu hmem (huid.trans hid.symm)
    exact ⟨⟨huid, huemail⟩, fun hemail => ⟨hu, hknown hemail⟩⟩
  -- what the others have counted is of other accounts, or of the other cap
  | creates auth account name subdomain website r db hins =>
    obtain ⟨data, hreq⟩ := hof
    rw [hreq] at huid huemail
    have hrow : ∃ u ∈ w.db.users, u.id = account.id ∧ u.email = account.email :=
      ⟨u, hu, huid.trans hknown.1.1.symm, huemail.trans hknown.1.2.symm⟩
    obtain ⟨hwithin', hcreated⟩ := withinCaps_creates hwithin hknown hrow hins
    refine ⟨hwithin', ⟨⟨data, hreq⟩, hcreated⟩, fun j d ψ hne _ hψ hψknown => ?_⟩
    have howned := memberships_insertWorkspace email true hwithin.refer hrow hins
    have hjoined := memberships_insertWorkspace email false hwithin.refer hrow hins
    rw [if_neg (by simp)] at hjoined
    refine ⟨hψknown.1, hψknown.2.mono (fun n hn => tenants_insertWorkspace hins (.inr hn))
      (fun v hv hvemail htenant => ?_) (fun howning => ?_) fun _ => hjoined⟩
    · by_cases hmine : account.email = email
      · have haccount := (hknown.2 (hknown.1.2.symm.trans hmine)).1
        exact (mem_users_of_own hwithin.refer haccount hins).2 v hv htenant
      · exact mem_users_of_other hins hmine hrow hv hvemail
    · have hmine : account.email ≠ email := fun hmine =>
        halone j ψ hne hψ (.inl ⟨hknown.1.2.symm.trans hmine, howning⟩)
      rw [if_neg fun hand => hmine hand.1] at howned
      exact ⟨howned, fun v hv hvemail => mem_users_of_other hins hmine hrow hv hvemail⟩
  | holds auth token inv tenant hopen hemail =>
    obtain ⟨htenant, hid⟩ := openInvitation_tenant hopen
    exact ⟨hwithin, ⟨hof, hemail, tenant, htenant, hid⟩, fun j d ψ _ _ _ hψ => hψ⟩
  | countsJoined auth inv =>
    refine ⟨hwithin, ⟨hof, hknown, ?_⟩, fun j d ψ _ _ _ hψ => hψ⟩
    intro hemail
    rw [hemail]
  | mayJoin auth inv joined hleft =>
    refine ⟨hwithin, ⟨hof, hknown.1, ?_⟩, fun j d ψ _ _ _ hψ => hψ⟩
    intro hemail
    rw [hemail, hwithin.hasTier] at hleft
    exact room_of_all hleft (hknown.2 hemail)
  | joins auth inv tenant fullName passwordHash avatarUrl db hjoin =>
    refine ⟨withinCaps_joins hwithin hknown hjoin, ⟨trivial, trivial⟩,
      fun j d ψ hne _ hψ hψknown => ?_⟩
    obtain ⟨htenants, row, -, -, husers⟩ := joinWorkspace_spec hjoin
    have howned := memberships_joinWorkspace email true hjoin
    have hjoined := memberships_joinWorkspace email false hjoin
    rw [if_neg (by simp)] at howned
    refine ⟨hψknown.1, hψknown.2.mono (fun n hn => ?_) (fun v hv _ _ => (husers v).mpr (.inl hv))
      (fun _ => ⟨howned, fun v hv _ => (husers v).mpr (.inl hv)⟩) fun hjoining => ?_⟩
    · change ∃ t ∈ db.tenants, t.id = n
      rw [htenants]
      exact hn
    · have hmine : inv.email ≠ email := fun hmine => halone j ψ hne hψ (.inr ⟨hmine, hjoining⟩)
      rw [if_neg fun hand => hmine hand.1] at hjoined
      exact hjoined

/-- The counts are within the limits. -/
def WorkspaceUsage.Within (u : WorkspaceUsage) : Prop :=
  (∀ l ∈ u.ownLimit, u.ownedCount ≤ l) ∧ ∀ l ∈ u.joinLimit, u.memberCount ≤ l

instance (u : WorkspaceUsage) : Decidable u.Within := inferInstanceAs (Decidable (_ ∧ _))

theorem within_iff (db : Db) (email : String) :
    (accountWorkspaceUsage db email).Within ↔
      (∀ l ∈ (getPlanLimits (accountTier db email)).ownWorkspaces,
        memberships db email true ≤ l) ∧
      ∀ l ∈ (getPlanLimits (accountTier db email)).joinWorkspaces,
        memberships db email false ≤ l := by
  unfold WorkspaceUsage.Within accountWorkspaceUsage
  rw [ownedCount_eq, memberCount_eq]
  rfl

/-- In every run in which the account's calls that create a workspace take turns, and its
calls that accept an invitation do, the account stays within the caps of its tier, and each
workspace such a call has created has an owner row of the account. -/
theorem caps_of_run {w₀ : World} (hrefer : UsersReferTenants w₀.db)
    (hstart : (accountWorkspaceUsage w₀.db email).Within)
    (hrun : capSystem.Run (fun P _ => SignedInAsRow P ∧ TakesTurns email P) ⟨w₀, []⟩ Q) :
    (accountWorkspaceUsage Q.state.db email).Within ∧
      ∀ c ∈ Q.calls, ∀ n, c.request.CreatesFor email → c.outcome = some (.ok (some n)) →
        ∃ o ∈ Q.state.db.users, o.email = email ∧ o.OwnerOf n := by
  obtain ⟨howned, hjoined⟩ := (within_iff w₀.db email).mp hstart
  have hinit : WithinCaps email (accountTier w₀.db email) w₀.db := ⟨rfl, hrefer, howned, hjoined⟩
  obtain ⟨phases, htracks, -, hknows⟩ : ∃ phases, Tracks CapStep CapsDone Q phases ∧
      Tracks.Begun capSystem (fun r _ => r.phase) Q phases ∧
        Tracks.Knows (fun w => WithinCaps email (accountTier w₀.db email) w.db)
          (CapKnown email (accountTier w₀.db email)) Q phases := by
    refine Tracks.knows_of_run (fun r _ => (capped_handler r).follows) hinit ?_ ?_ ?_ hrun
    · intro r w _
      cases r with
      | create data auth => exact ⟨⟨data, rfl⟩, trivial⟩
      | accept token auth => exact ⟨⟨token, rfl⟩, trivial⟩
    · intro e w h
      have hsame := (e.2 w).toSameCaps
      exact ⟨hsame.within h, fun r φ hφ => ⟨hφ.1, hsame.known hφ.2⟩⟩
    · intro P Q phases i c φ φ' _ htracks hbegun hok hc _ hφ hstep hknows
      exact capKnown_step hok.1 hok.2 htracks hbegun hknows hc hφ hstep
  have hwithin := hknows.state
  refine ⟨(within_iff Q.state.db email).mpr ?_, fun c hc n hcreates hout => ?_⟩
  · rw [hwithin.hasTier]
    exact ⟨hwithin.owned, hwithin.joined⟩
  · obtain ⟨i, hi⟩ := List.getElem?_of_mem hc
    obtain ⟨φ, hφ, hfollows⟩ := forall₂_getElem? htracks hi
    obtain ⟨hof, hknown⟩ := hknows.call i c φ hi hφ
    -- a call that created a workspace has ended in `created`
    have hdone : CapsDone φ (.ok (some n)) := by
      obtain ⟨r, since, p⟩ := c
      cases p with
      | ret a =>
        cases hout
        exact hfollows
      | fail e => cases hout
      | act ready next cont => cases hout
    cases φ with
    | created auth tenantId =>
      cases hdone
      obtain ⟨data, hreq⟩ := hof
      rw [hreq] at hcreates
      exact hknown hcreates
    | idle => exact absurd rfl (hdone n)
    | creating auth => exact absurd rfl (hdone n)
    | accepting auth => exact absurd rfl (hdone n)
    | ownedRead auth owned => exact hdone.elim
    | mayCreate auth => exact hdone.elim
    | ready auth account => exact hdone.elim
    | holding auth inv => exact hdone.elim
    | joinedRead auth inv joined => exact hdone.elim
    | mayJoin auth inv => exact hdone.elim

/-! ### Runs of one account -/

/-- An account that has signed up, and a workspace that has invited it. -/
def ivySignedUp : World where
  db :=
    { users := (((Sql.Table.empty.insert? fun id =>
        ({ id := id, email := "ivy@example.com" } : User)).getD .empty).insert? fun id =>
        ({ id := id, tenantId := some 1, email := "kai@example.com", role := .owner } :
          User)).getD .empty
      tenants := (Sql.Table.empty.insert? fun id =>
        ({ id := id, name := "Kai's", slug := "kai", subdomain := "kai" } : Tenant)).getD .empty
      invitations := (Sql.Table.empty.insert? fun id =>
        ({ id := id, tenantId := 1, email := "ivy@example.com", token := "t1", expiresAt := 3600 } :
          Invitation)).getD .empty }

def ivy (id : Nat) : AuthData :=
  { id := id, tenantId := none, role := .user, email := "ivy@example.com" }

/-- The account creates a workspace, signed in as one of its rows. -/
def ivyCreates (name : String) (id : Nat) : CapRequest :=
  .create { name := name, subdomain := name } (ivy id)

/-- Every call is signed in as a row of its account. -/
def allSignedIn (P : CapPool) : Bool :=
  P.calls.all fun c => P.state.db.users.rows.any fun u =>
    u.id == c.request.auth.id && u.email == c.request.auth.email

theorem signedInAsRow_of_all {P : CapPool} (h : allSignedIn P = true) : SignedInAsRow P := by
  intro c hc
  obtain ⟨u, hu, hrow⟩ := List.any_eq_true.mp (List.all_eq_true.mp h c hc)
  rw [Bool.and_eq_true, beq_iff_eq, beq_iff_eq] at hrow
  exact ⟨u, hu, hrow⟩

theorem takesTurns_of_inFlight {P : CapPool}
    (h : (decide (P.inFlight ≤ 1) && allSignedIn P) = true) :
    SignedInAsRow P ∧ TakesTurns email P := by
  obtain ⟨hone, hsigned⟩ := Bool.and_eq_true_iff.mp h
  have heq : ∀ (i j : Nat) (c d : CapCall), P.calls[i]? = some c → P.calls[j]? = some d →
      capSystem.UnderWay c → capSystem.UnderWay d → i = j := by
    intro i j c d hc hd hcway hdway
    refine eq_of_countP_le_one (of_decide_eq_true hone) hc hd ?_ ?_
    · rw [hcway.1]
      rfl
    · rw [hdway.1]
      rfl
  exact ⟨signedInAsRow_of_all hsigned, fun i j c d hc hd hcway hdway _ _ =>
    heq i j c d hc hd hcway hdway, fun i j c d hc hd hcway hdway _ _ =>
      heq i j c d hc hd hcway hdway⟩

/-- The workspace a call has created. -/
def createdBy (c : CapCall) : Option Nat :=
  match c.outcome with
  | some (.ok n) => n
  | _ => none

theorem outcome_of_createdBy {c : CapCall} {n : Nat} (h : createdBy c = some n) :
    c.outcome = some (.ok (some n)) := by
  unfold createdBy at h
  split at h
  · rename_i m hout
    rw [hout, h]
  · cases h

/-- The account creates a workspace, joins another, and is refused a second one of its own. -/
theorem caps_of_run_ivy : ∃ Q : CapPool, Q.Quiescent ∧
    (accountWorkspaceUsage Q.state.db "ivy@example.com").ownedCount = 1 ∧
      (accountWorkspaceUsage Q.state.db "ivy@example.com").memberCount = 1 ∧
        (accountWorkspaceUsage Q.state.db "ivy@example.com").Within ∧
          ∃ o ∈ Q.state.db.users, o.email = "ivy@example.com" ∧ o.OwnerOf 2 := by
  let run := capSystem.scheduleWhile (fun P => decide (P.inFlight ≤ 1) && allSignedIn P)
    ⟨ivySignedUp, []⟩
    ([.arrive (ivyCreates "ivy" 1), .run 0, .run 0, .run 0, .run 0,
      .arrive (.accept "t1" (ivy 1))] ++ List.replicate 5 (.run 1) ++
        [.arrive (ivyCreates "fern" 1), .run 2, .run 2])
  have hend : run.map (fun Q => (Q.calls.all (·.outcome.isSome),
      decide ((accountWorkspaceUsage Q.state.db "ivy@example.com").ownedCount = 1 ∧
        (accountWorkspaceUsage Q.state.db "ivy@example.com").memberCount = 1),
          Q.calls.map fun c => (c.request, createdBy c))) =
            some (true, true, [(ivyCreates "ivy" 1, some 2), (.accept "t1" (ivy 1), none),
              (ivyCreates "fern" 1, none)]) := by decide +kernel
  obtain ⟨Q, hrun, hQ⟩ := Option.map_eq_some_iff.mp hend
  obtain ⟨hdone, hQ⟩ := Prod.mk.inj hQ
  obtain ⟨hcounts, hcalls⟩ := Prod.mk.inj hQ
  obtain ⟨howned, hjoined⟩ := of_decide_eq_true hcounts
  obtain ⟨c, hc, hcreated⟩ := List.mem_map.mp (hcalls ▸ List.mem_cons_self)
  obtain ⟨hreq, hid⟩ := Prod.mk.inj hcreated
  have hstart : (accountWorkspaceUsage ivySignedUp.db "ivy@example.com").Within := by
    decide +kernel
  obtain ⟨hwithin, howner⟩ := caps_of_run (by decide +kernel) hstart
    (System.run_of_scheduleWhile (fun _ _ => takesTurns_of_inFlight) hrun)
  have hfor : c.request.CreatesFor "ivy@example.com" := by
    rw [hreq]
    rfl
  exact ⟨Q, fun c hc => List.all_eq_true.mp hdone c hc, howned, hjoined, hwithin,
    howner c hc 2 hfor (outcome_of_createdBy hid)⟩

/-- Both calls count before either commits. Signed in as a member, the account ends with two
workspaces of its own, one more than its plan has; signed in as its pending row, it claims
the row twice, and the first workspace is left without an owner. -/
theorem two_creations_break_caps : (accountWorkspaceUsage ivySignedUp.db "ivy@example.com").Within ∧
    (∃ Q : CapPool, capSystem.Run (fun P _ => SignedInAsRow P) ⟨ivySignedUp, []⟩ Q ∧
      Q.Quiescent ∧ ¬ (accountWorkspaceUsage Q.state.db "ivy@example.com").Within) ∧
    ∃ Q : CapPool, capSystem.Run (fun P _ => SignedInAsRow P) ⟨ivySignedUp, []⟩ Q ∧
      Q.Quiescent ∧ (∃ c ∈ Q.calls, c.request.CreatesFor "ivy@example.com" ∧
        c.outcome = some (.ok (some 2))) ∧ ¬ ∃ o ∈ Q.state.db.users, o.OwnerOf 2 := by
  -- the account has a workspace: two calls each count before the other creates
  let member := capSystem.scheduleWhile allSignedIn ⟨ivySignedUp, []⟩
    ([.arrive (.accept "t1" (ivy 1))] ++ List.replicate 5 (.run 0) ++
      [.arrive (ivyCreates "ivy" 3), .arrive (ivyCreates "fern" 3)] ++
        List.replicate 3 (.run 1) ++ List.replicate 4 (.run 2) ++ [.run 1])
  -- the account has none: the second creation claims the row of the first
  let pending := capSystem.scheduleWhile allSignedIn ⟨ivySignedUp, []⟩
    ([.arrive (ivyCreates "ivy" 1), .arrive (ivyCreates "fern" 1)] ++
      List.replicate 3 (.run 0) ++ List.replicate 3 (.run 1) ++ [.run 0, .run 1])
  have hmember : member.map (fun Q => (Q.calls.all (·.outcome.isSome),
      decide (accountWorkspaceUsage Q.state.db "ivy@example.com").Within)) =
        some (true, false) := by decide +kernel
  have hpending : pending.map (fun Q => (Q.calls.all (·.outcome.isSome),
      Q.calls.map (fun c => (c.request, createdBy c)),
        decide (∃ o ∈ Q.state.db.users, o.OwnerOf 2))) =
          some (true, [(ivyCreates "ivy" 1, some 2), (ivyCreates "fern" 1, some 3)], false) := by
    decide +kernel
  obtain ⟨Q, hrun, hQ⟩ := Option.map_eq_some_iff.mp hmember
  obtain ⟨hdone, hover⟩ := Prod.mk.inj hQ
  obtain ⟨R, hrun', hR⟩ := Option.map_eq_some_iff.mp hpending
  obtain ⟨hdone', hR⟩ := Prod.mk.inj hR
  obtain ⟨hcalls, howner⟩ := Prod.mk.inj hR
  obtain ⟨c, hc, hcreated⟩ := List.mem_map.mp (hcalls ▸ List.mem_cons_self)
  obtain ⟨hreq, hid⟩ := Prod.mk.inj hcreated
  have hfor : c.request.CreatesFor "ivy@example.com" := by
    rw [hreq]
    rfl
  refine ⟨by decide +kernel, ⟨Q, ?_, fun c hc => List.all_eq_true.mp hdone c hc,
    of_decide_eq_false hover⟩, R, ?_, fun c hc => List.all_eq_true.mp hdone' c hc,
    ⟨c, hc, hfor, outcome_of_createdBy hid⟩, of_decide_eq_false howner⟩
  · exact System.run_of_scheduleWhile (fun _ _ => signedInAsRow_of_all) hrun
  · exact System.run_of_scheduleWhile (fun _ _ => signedInAsRow_of_all) hrun'

end Feedbase
