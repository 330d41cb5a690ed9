import Feedbase.Lib.Turns
import Feedbase.Users.Invite
import Feedbase.Users.PasswordReset

/-!
# The seats of a workspace

Any number of invitations, revocations and acceptances interleave, and time passes. An
acceptance moves a seat from the invitations to the members, so the sum stays as long as
no invitation is counted while an acceptance is open or another invitation is on its way.

## Main definitions

* `seatsTaken` — members, and the invitations that are open or being accepted
* `SeatStep` — what a statement does to the seats
* `InvitesAlone`

## Main results

* `seats_of_run`
-/

namespace Feedbase

variable {crypto : Crypto} {w w' : World} {t : Nat}

/-! ### Seats taken -/

/-- The invitation takes a seat of the workspace: it is pending, and unexpired or locked by
the transaction that accepts it. -/
def World.occupies (w : World) (t : Nat) (i : Invitation) : Bool :=
  i.tenantId == t && i.status == .pending &&
    (decide (w.now < i.expiresAt) || decide (.invitation i.id ∈ w.rowLocks))

def occupied (w : World) (t : Nat) : Nat := w.db.invitations.rows.countP (w.occupies t)

def seatsTaken (w : World) (t : Nat) : Nat := memberCount w.db t + occupied w t

/-- What the limit speaks of is taken. -/
theorem pendingCount_le_occupied (w : World) (t : Nat) :
    pendingCount w.db w.now t ≤ occupied w t := by
  refine List.countP_mono_left fun i _ hi => ?_
  simp only [Bool.and_eq_true, World.occupies] at hi ⊢
  exact ⟨hi.1, Bool.or_eq_true_iff.mpr (.inl hi.2)⟩

/-- Without an acceptance under way nothing else is. -/
theorem occupied_eq_pendingCount
    (h : ∀ i ∈ w.db.invitations, i.tenantId = t → .invitation i.id ∉ w.rowLocks) :
    occupied w t = pendingCount w.db w.now t := by
  refine List.countP_congr fun i hi => ?_
  by_cases ht : i.tenantId = t
  · simp [World.occupies, ht, h i hi ht]
  · simp [World.occupies, ht]

/-- Users, invitations, workspaces, clock and row locks are the same. -/
structure SameSeats (w w' : World) : Prop where
  users : w'.db.users = w.db.users
  invitations : w'.db.invitations = w.db.invitations
  tenants : w'.db.tenants = w.db.tenants
  now : w'.now = w.now
  rowLocks : w'.rowLocks = w.rowLocks

theorem SameSeats.refl (w : World) : SameSeats w w := ⟨rfl, rfl, rfl, rfl, rfl⟩

theorem memberCount_congr {db db' : Db} (h : db'.users = db.users) (t : Nat) :
    memberCount db' t = memberCount db t := by
  rw [memberCount, memberCount, h]

theorem SameSeats.occupied (h : SameSeats w w') (t : Nat) : occupied w' t = occupied w t := by
  unfold Feedbase.occupied World.occupies
  rw [h.invitations, h.now, h.rowLocks]

theorem SameSeats.seatsTaken (h : SameSeats w w') (t : Nat) :
    seatsTaken w' t = seatsTaken w t := by
  rw [Feedbase.seatsTaken, Feedbase.seatsTaken, h.occupied, memberCount_congr h.users]

/-- Time frees seats. -/
theorem occupied_elapse (hinv : w'.db.invitations = w.db.invitations)
    (hlocks : w'.rowLocks = w.rowLocks) (hnow : w.now ≤ w'.now) : occupied w' t ≤ occupied w t := by
  rw [occupied, hinv]
  refine List.countP_mono_left fun i _ hi => ?_
  simp only [World.occupies, hlocks, Bool.and_eq_true, Bool.or_eq_true, decide_eq_true_eq] at hi ⊢
  exact ⟨hi.1, hi.2.imp_left (Nat.lt_of_le_of_lt hnow)⟩

section Rows

variable {inv : Invitation} {tenant : Tenant}

theorem mem_rowLocks_locked {l : RowLock} :
    l ∈ (w.locked (locksOf inv tenant)).rowLocks ↔
      l = .invitation inv.id ∨ l = .tenant tenant.id ∨ l ∈ w.rowLocks := by
  simp [World.locked, locksOf]

theorem mem_rowLocks_released {l : RowLock} :
    l ∈ (w.released (locksOf inv tenant)).rowLocks ↔
      l ∈ w.rowLocks ∧ l ≠ .invitation inv.id ∧ l ≠ .tenant tenant.id := by
  simp [World.released, locksOf]

/-- Locking an open invitation takes no seat. -/
theorem occupied_locked (hinv : inv ∈ w.db.invitations) (hopen : w.now < inv.expiresAt) :
    occupied (w.locked (locksOf inv tenant)) t = occupied w t := by
  refine List.countP_congr fun i hi => ?_
  by_cases hid : i.id = inv.id
  · obtain rfl : i = inv := Sql.Table.eq_of_id hi hinv hid
    simp [World.occupies, World.locked, hopen]
  · simp only [World.occupies, Bool.and_eq_true, Bool.or_eq_true, decide_eq_true_eq,
      mem_rowLocks_locked, RowLock.invitation.injEq, hid, reduceCtorEq, false_or]
    rfl

/-- Giving up an acceptance takes none. -/
theorem occupied_released : occupied (w.released (locksOf inv tenant)) t ≤ occupied w t := by
  refine List.countP_mono_left fun i _ hi => ?_
  simp only [World.occupies, Bool.and_eq_true, Bool.or_eq_true, decide_eq_true_eq,
    mem_rowLocks_released] at hi ⊢
  exact ⟨hi.1, hi.2.imp_right And.left⟩

/-- The member row of an acceptance. -/
theorem memberCount_joinWorkspace {fullName : String} {passwordHash avatarUrl : Option String}
    {db : Db} (h : joinWorkspace inv fullName passwordHash avatarUrl w.db = some db) :
    memberCount db t = memberCount w.db t + if inv.tenantId = t then 1 else 0 := by
  obtain ⟨users, hins, rfl⟩ := Option.map_eq_some_iff.mp h
  change users.rows.countP _ = _
  rw [Sql.Table.insert?_rows hins, List.countP_append, memberCount]
  congr 1
  simp [List.countP_cons]

/-- The invitation an acceptance uses up gives its seat to the new member. -/
theorem occupied_joins {fullName : String} {passwordHash avatarUrl : Option String}
    {db : Db} (h : joinWorkspace inv fullName passwordHash avatarUrl w.db = some db)
    (hinv : inv ∈ w.db.invitations) (hpending : inv.status = .pending)
    (hlocked : .invitation inv.id ∈ w.rowLocks) :
    occupied ({ w with db := db }.released (locksOf inv tenant)) t +
      (if inv.tenantId = t then 1 else 0) ≤ occupied w t := by
  obtain ⟨users, hins, rfl⟩ := Option.map_eq_some_iff.mp h
  -- the other invitations take a seat afterwards only if they took one before
  have hothers : occupied ({ w with db := { w.db with
        users := users
        invitations := w.db.invitations.update
          (fun i => i.id == inv.id && i.status == InvitationStatus.pending)
          (Invitation.accept w.db.users.next) } }.released (locksOf inv tenant)) t ≤
      w.db.invitations.rows.countP fun i => w.occupies t i && i.id != inv.id := by
    unfold occupied
    change (w.db.invitations.rows.map _).countP _ ≤ _
    rw [List.countP_map]
    refine List.countP_mono_left fun i hi hocc => ?_
    by_cases hid : i.id = inv.id
    · obtain rfl : i = inv := Sql.Table.eq_of_id hi hinv hid
      simp [World.occupies, Invitation.accept, hpending] at hocc
    · rw [Function.comp_apply, if_neg (by simp [hid])] at hocc
      simp only [World.occupies, Bool.and_eq_true, Bool.or_eq_true, decide_eq_true_eq,
        mem_rowLocks_released] at hocc
      simp only [World.occupies, Bool.and_eq_true, Bool.or_eq_true, decide_eq_true_eq, bne_iff_ne]
      exact ⟨⟨hocc.1, hocc.2.imp_right And.left⟩, hid⟩
  by_cases ht : inv.tenantId = t
  · have hocc : w.occupies t inv = true := by
      simp [World.occupies, ht, hpending, hlocked]
    have hone := Sql.Table.countP_eq_add_one hinv hocc
    rw [if_pos ht]
    exact (Nat.add_le_add_right hothers 1).trans hone.ge
  · rw [if_neg ht, Nat.add_zero]
    refine hothers.trans (List.countP_mono_left fun i _ hi => ?_)
    exact (Bool.and_eq_true_iff.mp hi).1

theorem occupied_revoked (tenantId id : Nat) :
    occupied (w.invitationRevoked tenantId id) t ≤ occupied w t := by
  change (w.db.invitations.rows.map _).countP _ ≤ _
  rw [List.countP_map]
  refine List.countP_mono_left fun i _ hocc => ?_
  by_cases hi : i.isRevocable tenantId id = true
  · simp [hi, World.occupies, Invitation.revoke] at hocc
  · rw [Function.comp_apply, if_neg hi] at hocc
    exact hocc

/-- A new invitation takes at most one seat, of its own workspace. -/
theorem occupied_invited {tenantId invitedBy : Nat} {email token : String} {expiresAt : Time}
    {invitations : Sql.Table Invitation}
    (h : w.db.invitations.insert? (newInvitation tenantId invitedBy email token expiresAt) =
      some invitations) :
    occupied { w with db := { w.db with invitations := invitations } } t ≤
      occupied w t + if tenantId = t then 1 else 0 := by
  change invitations.rows.countP _ ≤ _
  rw [Sql.Table.insert?_rows h, List.countP_append]
  refine Nat.add_le_add_left ?_ _
  by_cases ht : tenantId = t
  · rw [if_pos ht]
    exact List.countP_le_length
  · simp [World.occupies, newInvitation, ht]

end Rows

/-! ### The statements -/

/-- How far a call has come: an invitation to the workspace knows more and more of its
seats, and an acceptance holds the row locks of its invitation. -/
inductive SeatPhase where
  | idle
  | inviting
  | planned (limit : Nat)
  | counting (limit members : Nat)
  | counted (limit taken : Nat)
  | unlimited
  | holding (inv : Invitation) (tenant : Tenant)
  deriving DecidableEq

/-- The phases of an invitation to the workspace. -/
def SeatPhase.Invites : SeatPhase → Prop
  | .idle | .holding .. => False
  | _ => True

/-- What one statement does to the seats of the workspace `t`. -/
inductive SeatStep (t : Nat) : SeatPhase → World → SeatPhase → World → Prop where
  | keeps {w w' : World} {φ : SeatPhase} (h : SameSeats w w') : SeatStep t φ w φ w'
  | leaves {w w' : World} {φ : SeatPhase} (hφ : φ.Invites) (h : SameSeats w w') :
      SeatStep t φ w .idle w'
  | plans {w w' : World} (limit : Nat)
      (hlimit : (getPlanLimits (tenantPlan w.db t)).seats = some limit) (h : SameSeats w w') :
      SeatStep t .inviting w (.planned limit) w'
  | plansUnlimited {w w' : World} (hlimit : (getPlanLimits (tenantPlan w.db t)).seats = none)
      (h : SameSeats w w') : SeatStep t .inviting w .unlimited w'
  | countsMembers {w w' : World} (limit : Nat) (h : SameSeats w w') :
      SeatStep t (.planned limit) w (.counting limit (memberCount w.db t)) w'
  | countsPending {w w' : World} (limit members : Nat)
      (hleft : members + pendingCount w.db w.now t < limit) (h : SameSeats w w') :
      SeatStep t (.counting limit members) w
        (.counted limit (members + pendingCount w.db w.now t)) w'
  | invites {w : World} {φ : SeatPhase} (hφ : φ = .unlimited ∨ ∃ limit n, φ = .counted limit n)
      (invitedBy : Nat) (email token : String) (expiresAt : Time)
      (invitations : Sql.Table Invitation)
      (h : w.db.invitations.insert? (newInvitation t invitedBy email token expiresAt) =
        some invitations) :
      SeatStep t φ w .idle { w with db := { w.db with invitations := invitations } }
  | invitesElsewhere {w : World} (tenantId : Nat) (hother : tenantId ≠ t) (invitedBy : Nat)
      (email token : String) (expiresAt : Time) (invitations : Sql.Table Invitation)
      (h : w.db.invitations.insert? (newInvitation tenantId invitedBy email token expiresAt) =
        some invitations) :
      SeatStep t .idle w .idle { w with db := { w.db with invitations := invitations } }
  | revokes {w : World} (tenantId id : Nat) (hfree : .invitation id ∉ w.rowLocks) :
      SeatStep t .idle w .idle (w.invitationRevoked tenantId id)
  | locks {w : World} (token : String) (inv : Invitation) (tenant : Tenant)
      (hopen : openInvitation w.db w.now token = some (inv, tenant))
      (hfree : .invitation inv.id ∉ w.rowLocks) :
      SeatStep t .idle w (.holding inv tenant) (w.locked (locksOf inv tenant))
  | releases {w : World} (inv : Invitation) (tenant : Tenant) :
      SeatStep t (.holding inv tenant) w .idle (w.released (locksOf inv tenant))
  | joins {w : World} (inv : Invitation) (tenant : Tenant) (fullName : String)
      (passwordHash avatarUrl : Option String) (db : Db)
      (h : joinWorkspace inv fullName passwordHash avatarUrl w.db = some db) :
      SeatStep t (.holding inv tenant) w .idle
        ({ w with db := db }.released (locksOf inv tenant))

/-- A call ends outside a transaction, and an invitation before it has read the plan. -/
def SeatsDone {α : Type} (φ : SeatPhase) (_ : Except Failure α) : Prop := φ = .idle ∨ φ = .inviting

/-- Every statement of the handler, started in the phase, is one of `SeatStep`. -/
structure Seated (t : Nat) (φ : SeatPhase) {α : Type} (p : Handler α) : Prop where
  follows : Follows (SeatStep t) SeatsDone φ p

section Handlers

variable {α β : Type}

theorem seated_fail (e : Failure) : Seated t .idle (throw e : Handler α) := ⟨.fail (.inl rfl)⟩

theorem seated_ret (a : α) : Seated t .idle (pure a : Handler α) := ⟨.ret (.inl rfl)⟩

/-- A statement that reads, and what the call knows afterwards. -/
theorem seated_read {φ : SeatPhase} {f : World → α} {k : α → Handler β}
    (h : ∀ w, ∃ φ', SeatStep t φ w φ' w ∧ Seated t φ' (k (f w))) :
    Seated t φ (Prog.read f >>= k) := by
  refine ⟨fun w _ => ?_⟩
  obtain ⟨φ', hstep, hk⟩ := h w
  exact ⟨φ', hstep, hk.follows⟩

/-- A statement that reads and ends the call, or leaves it where it is. -/
theorem seated_check {φ : SeatPhase} {f : World → α} {k : α → Handler β}
    (hφ : φ.Invites) (h : ∀ a, Seated t φ (k a) ∨ Seated t .idle (k a)) :
    Seated t φ (Prog.read f >>= k) := by
  refine seated_read fun w => ?_
  rcases h (f w) with h | h
  · exact ⟨φ, .keeps (.refl w), h⟩
  · exact ⟨.idle, .leaves hφ (.refl w), h⟩

theorem seated_catching {φ : SeatPhase} {p : Handler α} {h : Failure → Handler α}
    (hp : Seated t φ p)
    (hh : ∀ φ e, φ = .idle ∨ φ = .inviting → Follows (SeatStep t) SeatsDone φ (h e)) :
    Seated t φ (tryCatch p h) :=
  ⟨hp.follows.catching (fun _ _ hφ => hφ) fun φ e hφ => hh φ e hφ⟩

theorem seats_failWith (msgKey : String) (φ : SeatPhase) (e : Failure)
    (hφ : φ = .idle ∨ φ = .inviting) :
    Follows (SeatStep t) SeatsDone φ (failWith msgKey e : Handler α) := by
  cases e <;> exact .fail hφ

/-- Statements that touch no seat. -/
theorem seated_bind_of_within {φ : SeatPhase} {p : Handler α} {f : α → Handler β}
    (hp : Prog.Within SameSeats p) (hf : ∀ a, Seated t φ (f a)) (hφ : φ = .idle ∨ φ = .inviting) :
    Seated t φ (p >>= f) :=
  ⟨(Follows.of_within hp fun _ _ => .keeps).bind (fun _ a h => h ▸ (hf a).follows)
    fun _ _ h => h ▸ hφ⟩

theorem seated_resolve {δ : Type} (code : Nat) (key : String) (result : δ) :
    Seated t .idle (resolve code key result : Handler (Reply δ)) := seated_ret _

/-- The insert of an invitation to the workspace. -/
theorem seated_insertInvitation {φ : SeatPhase}
    (hφ : φ = .unlimited ∨ ∃ limit n, φ = .counted limit n)
    {invitedBy : Nat} {email token : String} {expiresAt : Time} {k : Nat → Handler β}
    (hk : ∀ id, Seated t .idle (k id)) :
    Seated t φ (insertInvitation t invitedBy email token expiresAt >>= k) := by
  have hinvites : φ.Invites := by
    rcases hφ with rfl | ⟨limit, n, rfl⟩ <;> trivial
  refine ⟨fun w _ => ⟨.idle, ?_⟩⟩
  cases htenant : w.db.tenants.byId t with
  | none =>
    dsimp only
    rw [htenant]
    exact ⟨.leaves hinvites (.refl w), (seated_fail _).follows⟩
  | some tenant =>
    cases hins : w.db.invitations.insert? (newInvitation t invitedBy email token expiresAt) with
    | none =>
      dsimp only
      rw [htenant, hins]
      exact ⟨.leaves hinvites (.refl w), (seated_fail _).follows⟩
    | some invitations =>
      dsimp only
      rw [htenant, hins]
      exact ⟨.invites hφ invitedBy email token expiresAt invitations hins, (hk _).follows⟩

theorem seated_insertElsewhere {tenantId invitedBy : Nat} (hother : tenantId ≠ t)
    {email token : String} {expiresAt : Time} {k : Nat → Handler β}
    (hk : ∀ id, Seated t .idle (k id)) :
    Seated t .idle (insertInvitation tenantId invitedBy email token expiresAt >>= k) := by
  refine ⟨fun w _ => ⟨.idle, ?_⟩⟩
  cases htenant : w.db.tenants.byId tenantId with
  | none =>
    dsimp only
    rw [htenant]
    exact ⟨.keeps (.refl w), (seated_fail _).follows⟩
  | some tenant =>
    cases hins :
      w.db.invitations.insert? (newInvitation tenantId invitedBy email token expiresAt) with
    | none =>
      dsimp only
      rw [htenant, hins]
      exact ⟨.keeps (.refl w), (seated_fail _).follows⟩
    | some invitations =>
      dsimp only
      rw [htenant, hins]
      exact ⟨.invitesElsewhere tenantId hother invitedBy email token expiresAt invitations hins,
        (hk _).follows⟩

/-- The seat check sends a call on to its insert only when it has counted a free seat. -/
theorem seated_hasSeatLeft {k : Bool → Handler β} (hfull : Seated t .idle (k false))
    (hleft : ∀ φ, (φ = .unlimited ∨ ∃ limit n, φ = .counted limit n) → Seated t φ (k true)) :
    Seated t .inviting (hasSeatLeft t >>= k) := by
  rw [hasSeatLeft, bind_assoc]
  refine seated_read fun w => ?_
  cases hseats : (getPlanLimits (tenantPlan w.db t)).seats with
  | none => exact ⟨.unlimited, .plansUnlimited hseats (.refl w), hleft _ (.inl rfl)⟩
  | some limit =>
    refine ⟨.planned limit, .plans limit hseats (.refl w), ?_⟩
    dsimp only
    rw [bind_assoc]
    refine seated_read fun w => ⟨_, .countsMembers limit (.refl w), ?_⟩
    rw [bind_assoc]
    refine seated_read fun w' => ?_
    by_cases hlt : memberCount w.db t + pendingCount w'.db w'.now t < limit
    · refine ⟨_, .countsPending limit _ hlt (.refl w'), ?_⟩
      rw [pure_bind, decide_eq_true hlt]
      exact hleft _ (.inr ⟨_, _, rfl⟩)
    · refine ⟨_, .leaves trivial (.refl w'), ?_⟩
      rw [pure_bind, decide_eq_false hlt]
      exact hfull

/-- Behind the insert nothing touches a seat. -/
theorem seated_sent (mail : MailEnv) (id : Nat) (email : String) (expiresAt : Time) :
    Seated t .idle (do
      let emailSent ← sendEmail mail
      resolve 201 "invitation_sent"
        (⟨id, email, expiresAt, emailSent, isMailConfigured mail⟩ : InvitationSent)) :=
  seated_bind_of_within (.read .refl _) (fun _ => seated_resolve _ _ _) (.inl rfl)

theorem seated_sendInvitation (mail : MailEnv) (invitedBy : Nat) (email token : String) :
    Seated t .inviting (sendInvitation mail t invitedBy email token) := by
  refine seated_check trivial fun member => ?_
  cases member with
  | true => exact .inr (seated_fail _)
  | false =>
    refine .inl (seated_check trivial fun existing => ?_)
    cases existing with
    | true => exact .inr (seated_fail _)
    | false =>
      refine .inl (seated_hasSeatLeft (seated_fail _) fun φ hφ => ?_)
      refine seated_read fun w => ⟨φ, .keeps (.refl w), ?_⟩
      exact seated_insertInvitation hφ fun id => seated_sent mail id email _

theorem within_hasSeatLeft (tenantId : Nat) : Prog.Within SameSeats (hasSeatLeft tenantId) := by
  refine .bind (.read .refl _) fun plan => ?_
  cases (getPlanLimits plan).seats with
  | none => exact .pure _
  | some seats => exact .bind (.read .refl _) fun _ => .bind (.read .refl _) fun _ => .pure _

theorem seated_sendElsewhere {tenantId : Nat} (hother : tenantId ≠ t) (mail : MailEnv)
    (invitedBy : Nat) (email token : String) :
    Seated t .idle (sendInvitation mail tenantId invitedBy email token) := by
  refine seated_bind_of_within (.read .refl _) (fun member => ?_) (.inl rfl)
  split
  · exact seated_fail _
  refine seated_bind_of_within (.read .refl _) (fun existing => ?_) (.inl rfl)
  split
  · exact seated_fail _
  refine seated_bind_of_within (within_hasSeatLeft tenantId) (fun left => ?_) (.inl rfl)
  split
  · exact seated_fail _
  refine seated_bind_of_within (.read .refl _) (fun now => ?_) (.inl rfl)
  exact seated_insertElsewhere hother fun id => seated_sent mail id email _

/-- A call to another workspace, or one that is turned away at once. -/
def invitePhase (t : Nat) (auth : AuthData) : SeatPhase :=
  if auth.tenantId = some t then .inviting else .idle

theorem invitePhase_cases (t : Nat) (auth : AuthData) :
    invitePhase t auth = .idle ∨ invitePhase t auth = .inviting := by
  unfold invitePhase
  split
  · exact .inr rfl
  · exact .inl rfl

theorem seated_createInvitation (mail : MailEnv) (hasMx : Bool) (email token : String)
    (auth : AuthData) :
    Seated t (invitePhase t auth) (createInvitation mail hasMx email token auth) := by
  have hphase := invitePhase_cases t auth
  unfold createInvitation
  split
  · exact ⟨.fail hphase⟩
  dsimp only
  split
  · exact ⟨.fail hphase⟩
  cases htenant : auth.tenantId with
  | none => exact ⟨.fail hphase⟩
  | some tenantId =>
    refine seated_catching ?_ (seats_failWith _)
    unfold invitePhase
    rw [htenant]
    by_cases ht : tenantId = t
    · subst ht
      rw [if_pos rfl]
      exact seated_sendInvitation mail auth.id _ token
    · rw [if_neg fun h => ht (Option.some.inj h)]
      exact seated_sendElsewhere ht mail auth.id _ token

theorem seated_revokeInvitation (id : Nat) (auth : AuthData) :
    Seated t .idle (revokeInvitation id auth) := by
  unfold revokeInvitation
  split
  · exact seated_fail _
  cases auth.tenantId with
  | none => exact seated_fail _
  | some tenantId =>
    refine ⟨fun w hready => ⟨.idle, .revokes tenantId id ?_, ?_⟩⟩
    · simpa [World.free] using hready
    · change Follows (SeatStep t) SeatsDone .idle (if _ then _ else _)
      split
      · exact (seated_resolve _ _ _).follows
      · exact (seated_fail _).follows

/-! ### The acceptances -/

variable {inv : Invitation} {tenant : Tenant}

theorem seated_rollbackJoin {k : Unit → Handler β} (hk : Seated t .idle (k ())) :
    Seated t (.holding inv tenant) (rollbackJoin inv tenant >>= k) :=
  ⟨fun _ _ => ⟨.idle, .releases inv tenant, hk.follows⟩⟩

theorem seated_commitMember {fullName : String} {passwordHash avatarUrl : Option String}
    {k : Nat → Handler β} (hk : ∀ id, Seated t .idle (k id)) :
    Seated t (.holding inv tenant)
      (commitMember inv tenant fullName passwordHash avatarUrl >>= k) := by
  refine ⟨fun w _ => ⟨.idle, ?_⟩⟩
  cases hjoin : joinWorkspace inv fullName passwordHash avatarUrl w.db with
  | none =>
    dsimp only
    rw [hjoin]
    exact ⟨.releases inv tenant, (seated_fail _).follows⟩
  | some db =>
    dsimp only
    rw [hjoin]
    exact ⟨.joins inv tenant fullName passwordHash avatarUrl db hjoin, (hk _).follows⟩

theorem seated_lockInvitation {token : String} {k : Option (Invitation × Tenant) → Handler β}
    (hnone : Seated t .idle (k none))
    (hsome : ∀ inv tenant, Seated t (.holding inv tenant) (k (some (inv, tenant)))) :
    Seated t .idle (lockInvitation token >>= k) := by
  refine ⟨fun w hready => ?_⟩
  cases hopen : openInvitation w.db w.now token with
  | none =>
    refine ⟨.idle, ?_⟩
    dsimp only
    rw [hopen]
    exact ⟨.keeps (.refl w), hnone.follows⟩
  | some r =>
    obtain ⟨inv, tenant⟩ := r
    have hfree : .invitation inv.id ∉ w.rowLocks := by
      have hready : w.free (locksFor w.db w.now token) = true := hready
      rw [locksFor, hopen] at hready
      exact of_decide_eq_true (List.all_eq_true.mp hready _ List.mem_cons_self)
    refine ⟨.holding inv tenant, ?_⟩
    dsimp only
    rw [hopen]
    exact ⟨.locks token inv tenant hopen hfree, (hsome inv tenant).follows⟩

theorem seated_newUserSteps (token fullName password salt sessionId : String) :
    Seated t .idle (newUserSteps crypto token fullName password salt sessionId) := by
  unfold newUserSteps
  dsimp only
  split
  · exact seated_fail _
  split
  · exact seated_fail _
  refine seated_catching (seated_lockInvitation (seated_fail _) fun inv tenant => ?_)
    (seats_failWith _)
  refine seated_read fun w => ⟨_, .keeps (.refl w), ?_⟩
  split
  · exact seated_rollbackJoin (seated_fail _)
  refine seated_commitMember fun memberId => ?_
  refine seated_bind_of_within ?_ (fun _ => seated_resolve _ _ _) (.inl rfl)
  exact within_createSession .refl fun _ _ _ => ⟨rfl, rfl, rfl, rfl, rfl⟩

theorem seated_existingUserSteps (token : String) (auth : AuthData) :
    Seated t .idle (existingUserSteps token auth) := by
  refine seated_catching (seated_lockInvitation (seated_fail _) fun inv tenant => ?_)
    (seats_failWith _)
  dsimp only
  unfold checkExistingUser
  split
  · exact seated_rollbackJoin (seated_fail _)
  refine seated_read fun w => ⟨_, .keeps (.refl w), ?_⟩
  dsimp only
  split
  · exact seated_rollbackJoin (seated_fail _)
  rw [getAccountWorkspaceUsage, bind_assoc]
  refine seated_read fun w => ⟨_, .keeps (.refl w), ?_⟩
  rw [bind_assoc]
  refine seated_read fun w => ⟨_, .keeps (.refl w), ?_⟩
  rw [pure_bind]
  split
  · exact seated_rollbackJoin (seated_fail _)
  unfold joinAsExistingUser
  split
  · exact seated_rollbackJoin (seated_fail _)
  · exact seated_commitMember fun _ => seated_resolve _ _ _

end Handlers

/-! ### Interleavings -/

/-- A request about the members of a workspace, with the random values its handler draws
and what the DNS says of the address. -/
inductive SeatRequest where
  | invite (mail : MailEnv) (hasMx : Bool) (email token : String) (auth : AuthData)
  | revoke (id : Nat) (auth : AuthData)
  | acceptNew (token fullName password salt sessionId : String)
  | acceptExisting (token : String) (auth : AuthData)

def seatHandler (crypto : Crypto) : SeatRequest → Handler Unit
  | .invite mail hasMx email token auth =>
    withoutReply (createInvitation mail hasMx email token auth)
  | .revoke id auth => withoutReply (revokeInvitation id auth)
  | .acceptNew token fullName password salt sessionId =>
    withoutReply (newUserSteps crypto token fullName password salt sessionId)
  | .acceptExisting token auth => withoutReply (existingUserSteps token auth)

/-- What happens between the statements of the calls: time passes, and nothing changes a
member, an invitation or the plan of a workspace. -/
structure PassesTime (w w' : World) : Prop where
  users : w'.db.users = w.db.users
  invitations : w'.db.invitations = w.db.invitations
  plan : ∀ tenantId, tenantPlan w'.db tenantId = tenantPlan w.db tenantId
  now : w.now ≤ w'.now
  rowLocks : w'.rowLocks = w.rowLocks

def SeatEnv : Type := { f : World → World // ∀ w, PassesTime w (f w) }

def SeatEnv.elapse (seconds : Time) : SeatEnv :=
  ⟨fun w => { w with now := w.now + seconds }, fun w =>
    ⟨rfl, rfl, fun _ => rfl, Nat.le_add_right w.now seconds, rfl⟩⟩

def seatSystem (crypto : Crypto) : System World Failure Unit SeatRequest SeatEnv where
  handler := seatHandler crypto
  env e := e.1

abbrev SeatPool := Pool World Failure Unit SeatRequest

abbrev SeatCall := Call World Failure Unit SeatRequest

/-- The phase a request starts in. -/
def SeatRequest.phase (t : Nat) : SeatRequest → SeatPhase
  | .invite _ _ _ _ auth => invitePhase t auth
  | _ => .idle

theorem Seated.withoutReply {α : Type} {φ : SeatPhase} {p : Handler α} (h : Seated t φ p) :
    Seated t φ (withoutReply p) :=
  ⟨h.follows.bind (fun _ _ hφ => .ret hφ) fun _ _ hφ => hφ⟩

theorem seated_handler (r : SeatRequest) : Seated t (r.phase t) (seatHandler crypto r) := by
  cases r with
  | invite mail hasMx email token auth =>
    exact (seated_createInvitation mail hasMx email token auth).withoutReply
  | revoke id auth => exact (seated_revokeInvitation id auth).withoutReply
  | acceptNew token fullName password salt sessionId =>
    exact (seated_newUserSteps token fullName password salt sessionId).withoutReply
  | acceptExisting token auth => exact (seated_existingUserSteps token auth).withoutReply

/-- An invitation to the workspace. -/
def SeatRequest.Invites (t : Nat) : SeatRequest → Prop
  | .invite _ _ _ _ auth => auth.tenantId = some t
  | _ => False

theorem SeatRequest.invites_of_phase {r : SeatRequest} (h : (r.phase t).Invites) : r.Invites t := by
  cases r with
  | invite mail hasMx email token auth =>
    by_contra hne
    have htenant : ¬ auth.tenantId = some t := hne
    rw [SeatRequest.phase, invitePhase, if_neg htenant] at h
    exact h
  | revoke id auth => exact h
  | acceptNew token fullName password salt sessionId => exact h
  | acceptExisting token auth => exact h

/-- An invitation to the workspace is under way. -/
def Inviting (crypto : Crypto) (t : Nat) (c : SeatCall) : Prop :=
  (seatSystem crypto).UnderWay c ∧ c.request.Invites t

/-- While an invitation to the workspace is under way, no other one is, and no acceptance
has locked an invitation of the workspace. -/
structure InvitesAlone (crypto : Crypto) (t : Nat) (P : SeatPool) : Prop where
  alone : ∀ (i j : Nat) (c d : SeatCall), P.calls[i]? = some c → P.calls[j]? = some d →
    Inviting crypto t c → Inviting crypto t d → i = j
  unlocked : ∀ c ∈ P.calls, Inviting crypto t c → ∀ inv ∈ P.state.db.invitations,
    inv.tenantId = t → .invitation inv.id ∉ P.state.rowLocks

/-! ### What every state keeps -/

variable {limit : Nat} {w₀ : World} {P Q : SeatPool} {phases : List SeatPhase}

/-- What a call has read of the workspace is still so, or has become less. -/
def SeatPhase.Known (t limit : Nat) (w : World) : SeatPhase → Prop
  | .planned l => l = limit
  | .counting l members => l = limit ∧ memberCount w.db t ≤ members
  | .counted l n => l = limit ∧ seatsTaken w t ≤ n ∧ n < limit
  | .unlimited => False
  | _ => True

/-- An acceptance holds the lock of a pending invitation. -/
def SeatPhase.Held (w : World) : SeatPhase → Prop
  | .holding inv _ => inv ∈ w.db.invitations ∧ inv.status = .pending ∧
    .invitation inv.id ∈ w.rowLocks
  | _ => True

/-- The invitation whose lock a call holds. -/
def SeatPhase.lock : SeatPhase → Option Nat
  | .holding inv _ => some inv.id
  | _ => none

/-- Every member since the start has used up an invitation, which names that member. -/
def InvitedMembers (w₀ w : World) : Prop :=
  ∀ u ∈ w.db.users, u ∉ w₀.db.users →
    ∃ i ∈ w.db.invitations, i.status = .accepted ∧ i.acceptedByUserId = some u.id

structure SeatsKept (t limit : Nat) (w₀ : World) (P : SeatPool) (phases : List SeatPhase) :
    Prop where
  plan : (getPlanLimits (tenantPlan P.state.db t)).seats = some limit
  requests : ∀ (i : Nat) (c : SeatCall) (φ : SeatPhase), P.calls[i]? = some c →
    phases[i]? = some φ → φ.Invites → c.request.Invites t
  held : ∀ φ ∈ phases, φ.Held P.state
  apart : ∀ (i j : Nat) (φ ψ : SeatPhase) (n : Nat), phases[i]? = some φ → phases[j]? = some ψ →
    φ.lock = some n → ψ.lock = some n → i = j
  taken : seatsTaken P.state t ≤ limit
  known : ∀ φ ∈ phases, φ.Known t limit P.state
  members : InvitedMembers w₀ P.state

theorem SeatPhase.Known.mono {φ : SeatPhase} (h : φ.Known t limit w)
    (hmembers : memberCount w'.db t ≤ memberCount w.db t)
    (htaken : seatsTaken w' t ≤ seatsTaken w t) : φ.Known t limit w' := by
  cases φ with
  | counting l members => exact ⟨h.1, hmembers.trans h.2⟩
  | counted l n => exact ⟨h.1, htaken.trans h.2.1, h.2.2⟩
  | idle => trivial
  | inviting => trivial
  | planned l => exact h
  | unlimited => exact h
  | holding inv tenant => trivial

/-- One call moves to another phase; what is left to show of the state. -/
theorem SeatsKept.set (h : SeatsKept t limit w₀ P phases) {i : Nat} {φ φ' : SeatPhase}
    {c : SeatCall} {prog : Handler Unit} (hc : P.calls[i]? = some c) (hφ : phases[i]? = some φ)
    (hcalls : Q.calls = P.calls.set i { c with prog := prog })
    (hplan : tenantPlan Q.state.db t = tenantPlan P.state.db t)
    (hinvites : φ'.Invites → φ.Invites)
    (hheld : ∀ (j : Nat) (ψ : SeatPhase), j ≠ i → phases[j]? = some ψ → ψ.Held P.state →
      ψ.Held Q.state)
    (hheld' : φ'.Held Q.state)
    (hlock : ∀ n, φ'.lock = some n → φ.lock = some n ∨
      ∀ (j : Nat) (ψ : SeatPhase), phases[j]? = some ψ → ψ.lock ≠ some n)
    (htaken : seatsTaken Q.state t ≤ limit)
    (hknown : ∀ (j : Nat) (ψ : SeatPhase), j ≠ i → phases[j]? = some ψ →
      ψ.Known t limit P.state → ψ.Known t limit Q.state)
    (hknown' : φ'.Known t limit Q.state) (hmembers : InvitedMembers w₀ Q.state) :
    SeatsKept t limit w₀ Q (phases.set i φ') where
  plan := by rw [hplan, h.plan]
  requests j d ψ hd hψ hψinvites := by
    rw [hcalls] at hd
    rcases getElem?_set_cases hd with ⟨rfl, rfl⟩ | ⟨hne, hd⟩
    · rcases getElem?_set_cases hψ with ⟨-, rfl⟩ | ⟨hne, -⟩
      · exact h.requests j c φ hc hφ (hinvites hψinvites)
      · exact absurd rfl hne
    · rcases getElem?_set_cases hψ with ⟨rfl, -⟩ | ⟨-, hψ⟩
      · exact absurd rfl hne
      · exact h.requests j d ψ hd hψ hψinvites
  held ψ hψ := by
    obtain ⟨j, hj⟩ := List.getElem?_of_mem hψ
    rcases getElem?_set_cases hj with ⟨-, rfl⟩ | ⟨hne, hj⟩
    · exact hheld'
    · exact hheld j ψ hne hj (h.held ψ (List.mem_of_getElem? hj))
  -- two calls hold one lock only if the one that acts has just taken it, and then it was free
  apart j k ψ χ n hψ hχ hψlock hχlock := by
    rcases getElem?_set_cases hψ with ⟨rfl, rfl⟩ | ⟨hj, hψ'⟩
    · rcases getElem?_set_cases hχ with ⟨rfl, rfl⟩ | ⟨hk, hχ'⟩
      · rfl
      · rcases hlock n hψlock with hold | hfree
        · exact h.apart j k φ χ n hφ hχ' hold hχlock
        · exact absurd hχlock (hfree k χ hχ')
    · rcases getElem?_set_cases hχ with ⟨rfl, rfl⟩ | ⟨hk, hχ'⟩
      · rcases hlock n hχlock with hold | hfree
        · exact h.apart j k ψ φ n hψ' hφ hψlock hold
        · exact absurd hψlock (hfree j ψ hψ')
      · exact h.apart j k ψ χ n hψ' hχ' hψlock hχlock
  taken := htaken
  known ψ hψ := by
    obtain ⟨j, hj⟩ := List.getElem?_of_mem hψ
    rcases getElem?_set_cases hj with ⟨-, rfl⟩ | ⟨hne, hj⟩
    · exact hknown'
    · exact hknown j ψ hne hj (h.known ψ (List.mem_of_getElem? hj))
  members := hmembers

/-- Only an acceptance has something to hold. -/
theorem SeatPhase.held_of {φ : SeatPhase} (h : ∀ inv tenant, φ = .holding inv tenant →
    inv ∈ w.db.invitations ∧ inv.status = .pending ∧ .invitation inv.id ∈ w.rowLocks) :
    φ.Held w := by
  cases φ with
  | holding inv tenant => exact h inv tenant rfl
  | idle => trivial
  | inviting => trivial
  | planned l => trivial
  | counting l members => trivial
  | counted l n => trivial
  | unlimited => trivial

theorem SameSeats.held (hsame : SameSeats w w') {φ : SeatPhase} (h : φ.Held w) : φ.Held w' := by
  refine SeatPhase.held_of fun inv tenant hφ => ?_
  subst hφ
  rw [hsame.invitations, hsame.rowLocks]
  exact h

theorem SameSeats.members (hsame : SameSeats w w') (h : InvitedMembers w₀ w) :
    InvitedMembers w₀ w' := by
  intro u hu hnew
  rw [hsame.users] at hu
  rw [hsame.invitations]
  exact h u hu hnew

theorem tenantPlan_congr {db db' : Db} (h : db'.tenants = db.tenants) (tenantId : Nat) :
    tenantPlan db' tenantId = tenantPlan db tenantId := by
  rw [tenantPlan, tenantPlan, h]

/-- A statement that changes no seat, and what the call knows behind it. -/
theorem SeatsKept.same (h : SeatsKept t limit w₀ P phases) {i : Nat} {φ φ' : SeatPhase}
    {c : SeatCall} {prog : Handler Unit} (hc : P.calls[i]? = some c) (hφ : phases[i]? = some φ)
    (hcalls : Q.calls = P.calls.set i { c with prog := prog }) (hsame : SameSeats P.state Q.state)
    (hinvites : φ'.Invites → φ.Invites) (hheld : φ'.Held P.state)
    (hlock : ∀ n, φ'.lock = some n → φ.lock = some n) (hknown : φ'.Known t limit P.state) :
    SeatsKept t limit w₀ Q (phases.set i φ') := by
  have hmembers : memberCount Q.state.db t ≤ memberCount P.state.db t :=
    (memberCount_congr hsame.users t).le
  have htaken : seatsTaken Q.state t ≤ seatsTaken P.state t := (hsame.seatsTaken t).le
  exact h.set hc hφ hcalls (tenantPlan_congr hsame.tenants t) hinvites
    (fun _ _ _ _ hψ => hsame.held hψ) (hsame.held hheld) (fun n hn => .inl (hlock n hn))
    (htaken.trans h.taken) (fun _ _ _ _ hψ => hψ.mono hmembers htaken)
    (hknown.mono hmembers htaken) (hsame.members h.members)

/-! ### The steps that move a seat -/

/-- Another acceptance keeps its lock while this one gives up its own. -/
theorem held_released {inv : Invitation} {tenant : Tenant} {ψ : SeatPhase}
    (hne : ψ.lock ≠ some inv.id) (h : ψ.Held w)
    (hrows : ∀ i, i ∈ w.db.invitations → i.id ≠ inv.id → i ∈ w'.db.invitations)
    (hlocks : w'.rowLocks = (w.released (locksOf inv tenant)).rowLocks) : ψ.Held w' := by
  refine SeatPhase.held_of fun inv' tenant' hψ => ?_
  subst hψ
  obtain ⟨hinv, hpending, hlocked⟩ := h
  have hid : inv'.id ≠ inv.id := fun heq => hne (congrArg some heq)
  refine ⟨hrows inv' hinv hid, hpending, ?_⟩
  rw [hlocks]
  exact mem_rowLocks_released.mpr ⟨hlocked, by simpa using hid, by simp⟩

/-- A row that the statement does not match stays. -/
theorem mem_accepted {inv i : Invitation} {memberId : Nat} {invitations : Sql.Table Invitation}
    (hi : i ∈ invitations) (hne : i.id ≠ inv.id ∨ i.status ≠ .pending) :
    i ∈ invitations.update (fun i => i.id == inv.id && i.status == InvitationStatus.pending)
      (Invitation.accept memberId) := by
  refine Sql.Table.mem_update_of_not hi ?_
  rcases hne with hne | hne <;> simp [hne]

theorem InvitedMembers.joins {inv : Invitation} {tenant : Tenant} {fullName : String}
    {passwordHash avatarUrl : Option String} {db : Db}
    (hjoin : joinWorkspace inv fullName passwordHash avatarUrl w.db = some db)
    (hinv : inv ∈ w.db.invitations) (hpending : inv.status = .pending)
    (h : InvitedMembers w₀ w) :
    InvitedMembers w₀ ({ w with db := db }.released (locksOf inv tenant)) := by
  obtain ⟨users, hins, rfl⟩ := Option.map_eq_some_iff.mp hjoin
  intro u hu hnew
  rcases (Sql.Table.mem_insert? hins).mp hu with hu | rfl
  · obtain ⟨i, hi, haccepted, hmember⟩ := h u hu hnew
    exact ⟨i, mem_accepted hi (.inr (by simp [haccepted])), haccepted, hmember⟩
  · have hmem : inv.accept w.db.users.next ∈ w.db.invitations.update
        (fun i => i.id == inv.id && i.status == InvitationStatus.pending)
          (Invitation.accept w.db.users.next) :=
      Sql.Table.mem_update_of hinv (by simp [hpending])
    exact ⟨_, hmem, rfl, rfl⟩

/-- Revoking touches no accepted invitation. -/
theorem mem_revoked_of_ne {i : Invitation} {tenantId id : Nat} (hi : i ∈ w.db.invitations)
    (hne : i.isRevocable tenantId id = false) :
    i ∈ (w.invitationRevoked tenantId id).db.invitations := by
  have hmem : i ∈ w.db.invitations.update (Invitation.isRevocable tenantId id)
    Invitation.revoke Invitation.keyless_revoke := Sql.Table.mem_update_of_not hi hne
  exact hmem

theorem InvitedMembers.revoked (h : InvitedMembers w₀ w) (tenantId id : Nat) :
    InvitedMembers w₀ (w.invitationRevoked tenantId id) := by
  intro u hu hnew
  obtain ⟨i, hi, haccepted, hmember⟩ := h u hu hnew
  refine ⟨i, mem_revoked_of_ne hi ?_, haccepted, hmember⟩
  simp [Invitation.isRevocable, haccepted]

theorem InvitedMembers.invited (h : InvitedMembers w₀ w) {mk : Nat → Invitation}
    {hmk : ∀ n, Sql.Row.id (mk n) = n} {invitations : Sql.Table Invitation}
    (hins : w.db.invitations.insert? mk hmk = some invitations) :
    InvitedMembers w₀ { w with db := { w.db with invitations := invitations } } := by
  intro u hu hnew
  obtain ⟨i, hi, haccepted, hmember⟩ := h u hu hnew
  exact ⟨i, (Sql.Table.mem_insert? hins).mpr (.inl hi), haccepted, hmember⟩

theorem SeatPhase.Held.invited {ψ : SeatPhase} (h : ψ.Held w) {mk : Nat → Invitation}
    {hmk : ∀ n, Sql.Row.id (mk n) = n} {invitations : Sql.Table Invitation}
    (hins : w.db.invitations.insert? mk hmk = some invitations) :
    ψ.Held { w with db := { w.db with invitations := invitations } } := by
  refine SeatPhase.held_of fun inv tenant hψ => ?_
  subst hψ
  exact ⟨(Sql.Table.mem_insert? hins).mpr (.inl h.1), h.2⟩

theorem SeatPhase.Held.revoked {ψ : SeatPhase} (h : ψ.Held w) (tenantId : Nat) {id : Nat}
    (hfree : .invitation id ∉ w.rowLocks) : ψ.Held (w.invitationRevoked tenantId id) := by
  refine SeatPhase.held_of fun inv tenant hψ => ?_
  subst hψ
  obtain ⟨hinv, hpending, hlocked⟩ := h
  have hid : inv.id ≠ id := fun heq => hfree (heq ▸ hlocked)
  exact ⟨mem_revoked_of_ne hinv (by simp [Invitation.isRevocable, hid]), hpending, hlocked⟩

/-- An open invitation is one of the rows, pending and unexpired. -/
theorem openInvitation_mem {db : Db} {now : Time} {token : String} {inv : Invitation}
    {tenant : Tenant} (h : openInvitation db now token = some (inv, tenant)) :
    inv ∈ db.invitations ∧ inv.status = .pending ∧ now < inv.expiresAt := by
  unfold openInvitation at h
  obtain ⟨i, hi, h⟩ := Option.bind_eq_some_iff.mp h
  obtain ⟨tenant', -, h⟩ := Option.bind_eq_some_iff.mp h
  cases h
  have hp := List.find?_some hi
  simp only [Bool.and_eq_true, beq_iff_eq, decide_eq_true_eq] at hp
  exact ⟨List.mem_of_find?_eq_some hi, hp.1.2, hp.2⟩

/-- A call that has counted the seats is under way. -/
theorem inviting_of_counted (h : SeatsKept t limit w₀ P phases)
    (htracks : Tracks (SeatStep t) SeatsDone P phases)
    (hbegun : Tracks.Begun (seatSystem crypto) (fun r _ => r.phase t) P phases) {j : Nat}
    {ψ : SeatPhase} (hψ : phases[j]? = some ψ) (hinvites : ψ.Invites) (hne : ψ ≠ .inviting) :
    ∃ d, P.calls[j]? = some d ∧ Inviting crypto t d := by
  obtain ⟨d, hd, hfollows⟩ := forall₂_getElem? htracks.flip hψ
  have hout : d.outcome = none := by
    refine Follows.outcome_eq_none hfollows fun r hdone => ?_
    rcases hdone with rfl | rfl
    · exact hinvites
    · exact hne rfl
  have hstart : ψ ≠ d.request.phase t := by
    rintro rfl
    cases hreq : d.request with
    | invite mail hasMx email token auth =>
      rw [hreq] at hinvites hne
      rcases invitePhase_cases t auth with hphase | hphase
      · rw [SeatRequest.phase, hphase] at hinvites
        exact hinvites
      · exact hne hphase
    | revoke id auth => rw [hreq] at hinvites; exact hinvites
    | acceptNew token fullName password salt sessionId => rw [hreq] at hinvites; exact hinvites
    | acceptExisting token auth => rw [hreq] at hinvites; exact hinvites
  exact ⟨d, hd, hbegun.underWay hd hψ hout hstart, h.requests j d ψ hd hψ hinvites⟩

/-- Before its first count a call knows nothing of the seats. -/
theorem SeatPhase.known_of_inviting {ψ : SeatPhase} (h : ψ.Invites → ψ = .inviting) :
    ψ.Known t limit w := by
  cases ψ with
  | idle => trivial
  | inviting => trivial
  | holding inv tenant => trivial
  | planned l => cases h trivial
  | counting l members => cases h trivial
  | counted l n => cases h trivial
  | unlimited => cases h trivial

/-- One statement keeps the seats, if no invitation overlaps another or an acceptance. -/
theorem SeatsKept.step (h : SeatsKept t limit w₀ P phases)
    (htracks : Tracks (SeatStep t) SeatsDone P phases)
    (hbegun : Tracks.Begun (seatSystem crypto) (fun r _ => r.phase t) P phases)
    (halone : InvitesAlone crypto t P) {i : Nat} {φ φ' : SeatPhase} {c : SeatCall}
    {prog : Handler Unit} (hc : P.calls[i]? = some c) (hφ : phases[i]? = some φ)
    (hcalls : Q.calls = P.calls.set i { c with prog := prog })
    (hstep : SeatStep t φ P.state φ' Q.state) : SeatsKept t limit w₀ Q (phases.set i φ') := by
  have hmem : φ ∈ phases := List.mem_of_getElem? hφ
  have hheld := h.held φ hmem
  have hknown := h.known φ hmem
  have hplan := h.plan
  have htaken := h.taken
  have hmembers := h.members
  -- a call that has read the plan is under way
  have hunder {j : Nat} {ψ : SeatPhase} (hψ : phases[j]? = some ψ) (hinvites : ψ.Invites)
      (hne : ψ ≠ .inviting) : ∃ d, P.calls[j]? = some d ∧ Inviting crypto t d :=
    inviting_of_counted h htracks hbegun hψ hinvites hne
  obtain ⟨w, calls⟩ := P
  obtain ⟨w', calls'⟩ := Q
  dsimp only at hstep hheld hknown hplan htaken hmembers hcalls
  cases hstep with
  | keeps hsame =>
    exact h.same hc hφ hcalls hsame id hheld (fun _ hn => hn) hknown
  | leaves hinvites hsame =>
    exact h.same hc hφ hcalls hsame (fun hfalse => hfalse.elim) trivial (fun _ hn => by cases hn)
      trivial
  | plans l hlimit hsame =>
    have hl : l = limit := Option.some.inj (hlimit.symm.trans hplan)
    exact h.same hc hφ hcalls hsame (fun _ => trivial) trivial (fun _ hn => by cases hn) hl
  | plansUnlimited hlimit hsame =>
    rw [hplan] at hlimit
    cases hlimit
  | countsMembers l hsame =>
    exact h.same hc hφ hcalls hsame (fun _ => trivial) trivial (fun _ hn => by cases hn)
      ⟨hknown, Nat.le_refl _⟩
  -- no acceptance is open, so the pending rows are all that occupy
  | countsPending l members hleft hsame =>
    obtain ⟨rfl, hcounted⟩ := hknown
    obtain ⟨d, hd, hinviting⟩ := hunder hφ trivial (by simp)
    have hpending : occupied w t = pendingCount w.db w.now t :=
      occupied_eq_pendingCount (halone.unlocked d (List.mem_of_getElem? hd) hinviting)
    have hle : seatsTaken w t ≤ members + pendingCount w.db w.now t := by
      rw [seatsTaken, hpending]
      exact Nat.add_le_add_right hcounted _
    exact h.same hc hφ hcalls hsame (fun _ => trivial) trivial (fun _ hn => by cases hn)
      ⟨rfl, hle, hleft⟩
  -- what was counted still holds, and leaves one seat
  | invites hcounted invitedBy email token expiresAt invitations hins =>
    rcases hcounted with rfl | ⟨l, n, rfl⟩
    · exact hknown.elim
    obtain ⟨rfl, hle, hlt⟩ := hknown
    obtain ⟨d, hd, hinviting⟩ := hunder hφ trivial (by simp)
    have hone := occupied_invited (t := t) hins
    rw [if_pos rfl] at hone
    refine h.set hc hφ hcalls rfl (fun hfalse => hfalse.elim) (fun j ψ _ _ hψ => hψ.invited hins)
      trivial (fun _ hn => by cases hn) ?_ (fun j ψ hne hψ _ => ?_) trivial (hmembers.invited hins)
    · rw [seatsTaken] at hle ⊢
      dsimp only at hone ⊢
      change memberCount w.db t + _ ≤ _
      omega
    · refine SeatPhase.known_of_inviting fun hinvites => ?_
      by_contra hstart
      obtain ⟨e, he, hother⟩ := hunder hψ hinvites hstart
      exact hne (halone.alone j i e d he hd hother hinviting)
  | invitesElsewhere tenantId hother invitedBy email token expiresAt invitations hins =>
    have hnone := occupied_invited (t := t) hins
    rw [if_neg hother] at hnone
    have hle : seatsTaken { w with db := { w.db with invitations := invitations } } t ≤
      seatsTaken w t := Nat.add_le_add_left hnone _
    exact h.set hc hφ hcalls rfl (fun hfalse => hfalse.elim)
      (fun j ψ _ _ hψ => hψ.invited hins) trivial (fun _ hn => by cases hn) (hle.trans htaken)
      (fun j ψ _ _ hψ => hψ.mono (Nat.le_refl _) hle) trivial (hmembers.invited hins)
  | revokes tenantId id hfree =>
    have hle : seatsTaken (w.invitationRevoked tenantId id) t ≤ seatsTaken w t :=
      Nat.add_le_add_left (occupied_revoked tenantId id) _
    exact h.set hc hφ hcalls rfl (fun hfalse => hfalse.elim)
      (fun j ψ _ _ hψ => hψ.revoked tenantId hfree) trivial (fun _ hn => by cases hn)
      (hle.trans htaken) (fun j ψ _ _ hψ => hψ.mono (Nat.le_refl _) hle) trivial
      (hmembers.revoked tenantId id)
  | locks token inv tenant hopen hfree =>
    obtain ⟨hinv, hpending, hunexpired⟩ := openInvitation_mem hopen
    have hle : seatsTaken (w.locked (locksOf inv tenant)) t ≤ seatsTaken w t :=
      Nat.add_le_add_left (occupied_locked hinv hunexpired).le _
    refine h.set hc hφ hcalls rfl (fun hfalse => hfalse.elim) (fun j ψ _ _ hψ => ?_)
      ⟨hinv, hpending, mem_rowLocks_locked.mpr (.inl rfl)⟩ (fun n hn => .inr fun j ψ hψ hlock => ?_)
      (hle.trans htaken) (fun j ψ _ _ hψ => hψ.mono (Nat.le_refl _) hle) trivial hmembers
    · refine SeatPhase.held_of fun inv' tenant' heq => ?_
      subst heq
      exact ⟨hψ.1, hψ.2.1, mem_rowLocks_locked.mpr (.inr (.inr hψ.2.2))⟩
    · -- a lock that another call holds is not free
      cases ψ with
      | holding inv' tenant' =>
        have hid : inv'.id = inv.id := Option.some.inj (hlock.trans hn.symm)
        have hheld' := h.held _ (List.mem_of_getElem? hψ)
        exact hfree (hid ▸ hheld'.2.2)
      | idle => cases hlock
      | inviting => cases hlock
      | planned l => cases hlock
      | counting l members => cases hlock
      | counted l n => cases hlock
      | unlimited => cases hlock
  | releases inv tenant =>
    have hle : seatsTaken (w.released (locksOf inv tenant)) t ≤ seatsTaken w t :=
      Nat.add_le_add_left occupied_released _
    refine h.set hc hφ hcalls rfl (fun hfalse => hfalse.elim) (fun j ψ hne hψ hψheld => ?_) trivial
      (fun _ hn => by cases hn) (hle.trans htaken)
      (fun j ψ _ _ hψ => hψ.mono (Nat.le_refl _) hle) trivial hmembers
    exact held_released (fun heq => hne (h.apart j i ψ _ inv.id hψ hφ heq rfl)) hψheld
      (fun i hi _ => hi) rfl
  -- the seat of the invitation becomes the seat of the member
  | joins inv tenant fullName passwordHash avatarUrl db hjoin =>
    obtain ⟨hinv, hpending, hlocked⟩ := hheld
    have hmember := memberCount_joinWorkspace (t := t) hjoin
    have hocc : occupied ({ w with db := db }.released (locksOf inv tenant)) t +
        (if inv.tenantId = t then 1 else 0) ≤ occupied w t :=
      occupied_joins hjoin hinv hpending hlocked
    have hle : seatsTaken ({ w with db := db }.released (locksOf inv tenant)) t ≤
        seatsTaken w t := by
      change memberCount db t + _ ≤ _
      rw [seatsTaken]
      omega
    have htenants : db.tenants = w.db.tenants := by
      obtain ⟨users, -, rfl⟩ := Option.map_eq_some_iff.mp hjoin
      rfl
    have hrows : ∀ i, i ∈ w.db.invitations → i.id ≠ inv.id → i ∈ db.invitations := by
      obtain ⟨users, -, rfl⟩ := Option.map_eq_some_iff.mp hjoin
      exact fun i hi hid => mem_accepted hi (.inl hid)
    refine h.set hc hφ hcalls (tenantPlan_congr htenants t) (fun hfalse => hfalse.elim)
      (fun j ψ hne hψ hψheld => ?_) trivial (fun _ hn => by cases hn) (hle.trans htaken)
      (fun j ψ hne hψ hψknown => ?_) trivial (hmembers.joins hjoin hinv hpending)
    · exact held_released (fun heq => hne (h.apart j i ψ _ inv.id hψ hφ heq rfl)) hψheld hrows rfl
    · by_cases ht : inv.tenantId = t
      · -- an acceptance for the workspace is open, so no invitation to it is under way
        refine SeatPhase.known_of_inviting fun hinvites => ?_
        by_contra hstart
        obtain ⟨e, he, hother⟩ := hunder hψ hinvites hstart
        exact halone.unlocked e (List.mem_of_getElem? he) hother inv hinv ht hlocked
      · rw [if_neg ht, Nat.add_zero] at hmember
        exact hψknown.mono hmember.le hle

/-- A call starts at the beginning of an invitation, or outside every transaction. -/
theorem SeatRequest.phase_cases (r : SeatRequest) :
    r.phase t = .idle ∨ r.phase t = .inviting := by
  cases r with
  | invite mail hasMx email token auth => exact invitePhase_cases t auth
  | revoke id auth => exact .inl rfl
  | acceptNew token fullName password salt sessionId => exact .inl rfl
  | acceptExisting token auth => exact .inl rfl

theorem SeatsKept.arrive (h : SeatsKept t limit w₀ P phases)
    (hlength : P.calls.length = phases.length) (r : SeatRequest) :
    SeatsKept t limit w₀
      { P with calls := P.calls ++ [⟨r, P.state, (seatSystem crypto).handler r⟩] }
      (phases ++ [r.phase t]) where
  plan := h.plan
  requests i c φ hc hφ hinvites := by
    by_cases hi : i < P.calls.length
    · rw [List.getElem?_append_left hi] at hc
      rw [List.getElem?_append_left (hlength ▸ hi)] at hφ
      exact h.requests i c φ hc hφ hinvites
    · rw [List.getElem?_append_right (by omega)] at hc
      rw [List.getElem?_append_right (by omega), ← hlength] at hφ
      cases List.mem_singleton.mp (List.mem_of_getElem? hc)
      cases List.mem_singleton.mp (List.mem_of_getElem? hφ)
      exact SeatRequest.invites_of_phase hinvites
  held φ hφ := by
    rcases List.mem_append.mp hφ with hφ | hφ
    · exact h.held φ hφ
    · rw [List.mem_singleton.mp hφ]
      rcases r.phase_cases (t := t) with heq | heq <;> rw [heq] <;> trivial
  apart i j φ ψ n hφ hψ hφlock hψlock := by
    have hold {i : Nat} {φ : SeatPhase} (hφ : (phases ++ [r.phase t])[i]? = some φ)
        (hlock : φ.lock = some n) : phases[i]? = some φ := by
      by_cases hi : i < phases.length
      · rw [← hφ, List.getElem?_append_left hi]
      · rw [List.getElem?_append_right (by omega)] at hφ
        rw [List.mem_singleton.mp (List.mem_of_getElem? hφ)] at hlock
        rcases r.phase_cases (t := t) with heq | heq <;> rw [heq] at hlock <;> cases hlock
    exact h.apart i j φ ψ n (hold hφ hφlock) (hold hψ hψlock) hφlock hψlock
  taken := h.taken
  known φ hφ := by
    rcases List.mem_append.mp hφ with hφ | hφ
    · exact h.known φ hφ
    · rw [List.mem_singleton.mp hφ]
      rcases r.phase_cases (t := t) with heq | heq <;> rw [heq] <;> trivial
  members := h.members

theorem SeatsKept.elapse (h : SeatsKept t limit w₀ P phases)
    (hpasses : PassesTime P.state w') : SeatsKept t limit w₀ { P with state := w' } phases := by
  have hmembers : memberCount w'.db t ≤ memberCount P.state.db t :=
    (memberCount_congr hpasses.users t).le
  have htaken : seatsTaken w' t ≤ seatsTaken P.state t :=
    Nat.add_le_add hmembers (occupied_elapse hpasses.invitations hpasses.rowLocks hpasses.now)
  refine ⟨?_, h.requests, fun φ hφ => ?_, h.apart, htaken.trans h.taken,
    fun φ hφ => (h.known φ hφ).mono hmembers htaken, ?_⟩
  · dsimp only
    rw [hpasses.plan, h.plan]
  · refine SeatPhase.held_of fun inv tenant heq => ?_
    have hheld := h.held φ hφ
    subst heq
    dsimp only
    rw [hpasses.invitations, hpasses.rowLocks]
    exact hheld
  · intro u hu hnew
    rw [hpasses.users] at hu
    obtain ⟨i, hi, haccepted⟩ := h.members u hu hnew
    exact ⟨i, hpasses.invitations ▸ hi, haccepted⟩

theorem seatsKept_of_run (hplan : (getPlanLimits (tenantPlan w₀.db t)).seats = some limit)
    (hlocks : w₀.rowLocks = [])
    (hstart : memberCount w₀.db t + pendingCount w₀.db w₀.now t ≤ limit)
    (hrun : (seatSystem crypto).Run (fun P _ => InvitesAlone crypto t P) ⟨w₀, []⟩ Q) :
    ∃ phases, Tracks (SeatStep t) SeatsDone Q phases ∧
      Tracks.Begun (seatSystem crypto) (fun r _ => r.phase t) Q phases ∧
        SeatsKept t limit w₀ Q phases := by
  have htaken : seatsTaken w₀ t ≤ limit := by
    rw [seatsTaken, occupied_eq_pendingCount fun i _ _ => by simp [hlocks]]
    exact hstart
  refine Tracks.inv_of_run (fun r _ => (seated_handler r).follows) ?_ ?_ ?_ ?_ hrun
  · refine ⟨hplan, fun i c φ hc => ?_, fun φ hφ => ?_, fun i j φ ψ n hφ => ?_, htaken,
      fun φ hφ => ?_, fun u hu hnew => absurd hu hnew⟩
    · cases hc
    · cases hφ
    · cases hφ
    · cases hφ
  · intro P phases r htracks _ h
    exact h.arrive (List.Forall₂.length_eq htracks) r
  · intro P phases e _ h
    exact h.elapse (e.2 P.state)
  · intro P Q phases i c φ φ' prog _ htracks hbegun halone hc _ hφ hstep hcalls h
    exact h.step htracks hbegun halone hc hφ hcalls hstep

/-- In every run in which an invitation to the workspace overlaps no other one and no
acceptance of the workspace, the seats stay within the limit of its plan, and each new
member has an invitation of its own. -/
theorem seats_of_run (hplan : (getPlanLimits (tenantPlan w₀.db t)).seats = some limit)
    (hlocks : w₀.rowLocks = [])
    (hstart : memberCount w₀.db t + pendingCount w₀.db w₀.now t ≤ limit)
    (hrun : (seatSystem crypto).Run (fun P _ => InvitesAlone crypto t P) ⟨w₀, []⟩ Q) :
    memberCount Q.state.db t + pendingCount Q.state.db Q.state.now t ≤ limit ∧
      InvitedMembers w₀ Q.state := by
  obtain ⟨phases, -, -, h⟩ := seatsKept_of_run hplan hlocks hstart hrun
  have hle := pendingCount_le_occupied Q.state t
  have htaken := h.taken
  rw [seatsTaken] at htaken
  exact ⟨by omega, h.members⟩

/-! ### Runs on one workspace -/

/-- A workspace on the free plan: its owner, and one of its two seats taken. -/
def teamOfTwo : World where
  db :=
    { tenants := (Sql.Table.empty.insert? fun id =>
        ({ id := id, name := "Acme", slug := "acme", subdomain := "acme" } : Tenant)).getD .empty
      users := (((Sql.Table.empty.insert? fun id =>
        ({ id := id, tenantId := some 1, email := "olga@example.com", role := .owner } :
          User)).getD .empty).insert? fun id =>
        ({ id := id, tenantId := some 1, email := "mia@example.com" } : User)).getD .empty }

/-- The owner invites somebody. -/
def olgaInvites (email token : String) : SeatRequest :=
  .invite {} true email token
    { id := 1, tenantId := some 1, role := .owner, email := "olga@example.com" }

/-- One call is in flight, and no invitation is while an acceptance is open. -/
def oneSeatAtATime (P : SeatPool) : Bool :=
  decide (P.inFlight ≤ 1) && P.calls.all fun c =>
    c.outcome.isSome || P.state.rowLocks.isEmpty || !(c.request matches .invite ..)

theorem invitesAlone_of_oneSeatAtATime {P : SeatPool} (h : oneSeatAtATime P = true) :
    InvitesAlone crypto t P := by
  obtain ⟨hone, hall⟩ := Bool.and_eq_true_iff.mp h
  refine ⟨fun i j c d hc hd hcinv hdinv => ?_, fun c hc hinviting inv _ _ hlocked => ?_⟩
  · refine eq_of_countP_le_one (of_decide_eq_true hone) hc hd ?_ ?_
    · rw [hcinv.1.1]
      rfl
    · rw [hdinv.1.1]
      rfl
  · have hc' := List.all_eq_true.mp hall c hc
    have hlocks : P.state.rowLocks.isEmpty = false := by
      rw [List.isEmpty_eq_false_iff]
      exact List.ne_nil_of_mem hlocked
    rw [hinviting.1.1, hlocks] at hc'
    obtain ⟨r, since, p⟩ := c
    cases r with
    | invite mail hasMx email token auth => cases hc'
    | revoke id auth => exact hinviting.2
    | acceptNew token fullName password salt sessionId => exact hinviting.2
    | acceptExisting token auth => exact hinviting.2

/-- An invitation is sent, and the new member accepts it. -/
theorem seats_of_run_teamOfTwo : ∃ Q : SeatPool, Q.Quiescent ∧ memberCount Q.state.db 1 = 2 ∧
    memberCount Q.state.db 1 + pendingCount Q.state.db Q.state.now 1 ≤ 2 ∧
      InvitedMembers teamOfTwo Q.state := by
  let run := (seatSystem .plain).scheduleWhile oneSeatAtATime ⟨teamOfTwo, []⟩
    ([.arrive (olgaInvites "ann@example.com" "t1")] ++ List.replicate 8 (.run 0) ++
      [.env (.elapse 3600), .arrive (.acceptNew "t1" "Ann" "long enough" "salt" "phone")] ++
        List.replicate 4 (.run 1))
  have hend : run.map (fun Q => (Q.calls.all (·.outcome.isSome), memberCount Q.state.db 1)) =
      some (true, 2) := by decide +kernel
  obtain ⟨Q, hrun, hQ⟩ := Option.map_eq_some_iff.mp hend
  obtain ⟨hdone, hmembers⟩ := Prod.mk.inj hQ
  exact ⟨Q, fun c hc => List.all_eq_true.mp hdone c hc, hmembers,
    seats_of_run rfl rfl (by decide +kernel)
      (System.run_of_scheduleWhile (fun _ _ => invitesAlone_of_oneSeatAtATime) hrun)⟩

/-- Two invitations count the seats before either is inserted: both are sent, and three of
two seats are taken. -/
theorem two_invitations_take_three_seats : ∃ Q : SeatPool,
    (getPlanLimits (tenantPlan teamOfTwo.db 1)).seats = some 2 ∧ teamOfTwo.rowLocks = [] ∧
      memberCount teamOfTwo.db 1 + pendingCount teamOfTwo.db teamOfTwo.now 1 ≤ 2 ∧
        (seatSystem .plain).Run (fun _ _ => True) ⟨teamOfTwo, []⟩ Q ∧ Q.Quiescent ∧
          memberCount Q.state.db 1 + pendingCount Q.state.db Q.state.now 1 = 3 := by
  let run := (seatSystem .plain).schedule ⟨teamOfTwo, []⟩
    ([.arrive (olgaInvites "ann@example.com" "t1"), .arrive (olgaInvites "bo@example.com" "t2")] ++
      List.replicate 5 (.run 0) ++ List.replicate 5 (.run 1) ++ List.replicate 3 (.run 0) ++
        List.replicate 3 (.run 1))
  have hend : run.map (fun Q => (Q.calls.all (·.outcome.isSome),
      memberCount Q.state.db 1 + pendingCount Q.state.db Q.state.now 1)) = some (true, 3) := by
    decide +kernel
  obtain ⟨Q, hrun, hQ⟩ := Option.map_eq_some_iff.mp hend
  obtain ⟨hdone, hthree⟩ := Prod.mk.inj hQ
  exact ⟨Q, rfl, rfl, by decide +kernel, System.run_of_schedule hrun,
    fun c hc => List.all_eq_true.mp hdone c hc, hthree⟩

end Feedbase
