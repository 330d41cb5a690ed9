import Feedbase.Users.Invitations
import Feedbase.Users.Login
import Feedbase.Users.Passwords
import Feedbase.Users.Workspaces

/-!
# One password for all rows of an account

An account has one row for each workspace, and every handler that writes a password
writes it to all of them, clones it, or adds the first row. `oauthLogin` alone may add a
row without a password next to inactive rows that have one.

## Main definitions

* `SharedHash`
* `AccountRequest`, `AccountStep` — the handlers that insert users or set passwords

## Main results

* `sharedHash_of_run` — two rows of one address have the same hash
* `oauthLogin_splits` — the step that is left out breaks it
-/

namespace Feedbase

variable {crypto : Crypto} {w w' : World} {db db' : Db}

/-- Rows of one address have one hash. -/
def SharedHash (db : Db) : Prop :=
  ∀ u ∈ db.users, ∀ v ∈ db.users, u.email = v.email → u.passwordHash = v.passwordHash

instance (db : Db) : Decidable (SharedHash db) :=
  inferInstanceAs (Decidable (∀ u ∈ db.users, ∀ v ∈ db.users, _))

namespace SharedHash

theorem of_users (h : SharedHash db) (husers : db'.users = db.users) : SharedHash db' := by
  unfold SharedHash
  rw [husers]
  exact h

/-- Every row has the address and the hash of an old one. -/
theorem of_rows (h : SharedHash db) (hrows : ∀ u ∈ db'.users, ∃ v ∈ db.users,
    v.email = u.email ∧ v.passwordHash = u.passwordHash) : SharedHash db' := by
  intro u hu v hv hemail
  obtain ⟨u', hu', huemail, huhash⟩ := hrows u hu
  obtain ⟨v', hv', hvemail, hvhash⟩ := hrows v hv
  rw [← huhash, ← hvhash]
  exact h u' hu' v' hv' (huemail.trans (hemail.trans hvemail.symm))

/-- A row is added whose hash is that of every row of its address. -/
theorem of_insert {row : User} (h : SharedHash db)
    (hsame : ∀ u ∈ db.users, u.email = row.email → u.passwordHash = row.passwordHash)
    (husers : ∀ u, u ∈ db'.users ↔ u ∈ db.users ∨ u = row) : SharedHash db' := by
  intro u hu v hv hemail
  rcases (husers u).mp hu with hu | rfl
  · rcases (husers v).mp hv with hv | rfl
    · exact h u hu v hv hemail
    · exact hsame u hu hemail
  · rcases (husers v).mp hv with hv | rfl
    · exact (hsame v hv hemail.symm).symm
    · rfl

/-- Every row of an address gets one hash. -/
theorem setPasswordHash (h : SharedHash db) (email hash : String) :
    SharedHash (setPasswordHash email hash db) := by
  intro u hu v hv hemail
  obtain ⟨u', hu', rfl⟩ := mem_setPasswordHash.mp hu
  obtain ⟨v', hv', rfl⟩ := mem_setPasswordHash.mp hv
  by_cases hue : u'.email = email
  · by_cases hve : v'.email = email
    · rw [if_pos (beq_iff_eq.mpr hue), if_pos (beq_iff_eq.mpr hve)]
      rfl
    · rw [if_pos (beq_iff_eq.mpr hue), if_neg (by simpa using hve)] at hemail
      exact absurd (hemail.symm.trans hue) hve
  · by_cases hve : v'.email = email
    · rw [if_neg (by simpa using hue), if_pos (beq_iff_eq.mpr hve)] at hemail
      exact absurd (hemail.trans hve) hue
    · rw [if_neg (by simpa using hue), if_neg (by simpa using hve)] at hemail ⊢
      exact h u' hu' v' hv' hemail

end SharedHash

/-! ### The handlers -/

/-- A step after which the rows still agree if they did before. -/
def KeepsShared (w w' : World) : Prop := SharedHash w.db → SharedHash w'.db

namespace KeepsShared

theorem refl (w : World) : KeepsShared w w := id

theorem trans {w'' : World} (h : KeepsShared w w') (h' : KeepsShared w' w'') :
    KeepsShared w w'' := fun hshared => h' (h hshared)

theorem of_users (h : w'.db.users = w.db.users) : KeepsShared w w' := fun hshared =>
  hshared.of_users h

theorem of_within {α : Type} {p : Handler α} (h : Prog.Within KeepsShared p) (w : World) :
    KeepsShared w (p.exec w).2 := Prog.Within.exec refl (fun _ _ _ => trans) h w

theorem setPasswordHash (email hash : String) (w : World) :
    KeepsShared w { w with db := Feedbase.setPasswordHash email hash w.db } :=
  fun hshared => hshared.setPasswordHash email hash

/-- The first row of an address. -/
theorem of_first {row : User} (hnew : ∀ u ∈ w.db.users, u.email ≠ row.email)
    (husers : ∀ u, u ∈ w'.db.users ↔ u ∈ w.db.users ∨ u = row) : KeepsShared w w' :=
  fun hshared => hshared.of_insert (fun u hu hemail => absurd hemail (hnew u hu)) husers

/-- A clone of a row. -/
theorem of_clone {row account : User} (haccount : account ∈ w.db.users)
    (hemail : account.email = row.email) (hhash : account.passwordHash = row.passwordHash)
    (husers : ∀ u, u ∈ w'.db.users ↔ u ∈ w.db.users ∨ u = row) : KeepsShared w w' := by
  intro hshared
  refine hshared.of_insert (fun u hu h => ?_) husers
  rw [hshared u hu account haccount (h.trans hemail.symm), hhash]

/-- Only columns other than address and hash are set. -/
theorem of_update {p : User → Bool} (f : User → User) (hemail : ∀ u, (f u).email = u.email)
    (hhash : ∀ u, (f u).passwordHash = u.passwordHash)
    (hrows : w'.db.users.rows = w.db.users.rows.map fun u => if p u then f u else u) :
    KeepsShared w w' := by
  intro hshared
  refine hshared.of_rows fun u hu => ?_
  rw [Sql.Table.mem_def, hrows] at hu
  obtain ⟨v, hv, rfl⟩ := List.mem_map.mp hu
  refine ⟨v, hv, ?_⟩
  split
  · exact ⟨(hemail v).symm, (hhash v).symm⟩
  · exact ⟨rfl, rfl⟩

end KeepsShared

theorem keepsShared_register (data : SignUp) (w : World) :
    KeepsShared w ((registerNewUser data).exec w).2 := by
  rcases registerNewUser_cases data w with h | ⟨users, row, hnew, hemail, husers, h⟩
  · rw [h]
    exact .refl w
  · rw [h]
    exact .of_first (hemail ▸ hnew) husers

theorem keepsShared_createAdmin (data : AdminData) (salt : String) (w : World) :
    KeepsShared w ((createAdmin crypto data salt).exec w).2 := by
  rcases createAdmin_cases crypto data salt w with h | ⟨users, row, hnew, husers, h⟩ | ⟨email, h⟩
  · rw [h]
    exact .refl w
  · rw [h]
    exact .of_first hnew husers
  · rw [h]
    exact .of_update User.promote (fun _ => rfl) (fun _ => rfl) rfl

theorem keepsShared_updateUser (id : Nat) (data : UserChange) (w : World) :
    KeepsShared w ((updateUser id data).exec w).2 := by
  rcases updateUser_cases id data w with h | h
  · rw [h]
    exact .refl w
  · rw [h]
    exact .of_update data.apply (fun _ => rfl) (fun _ => rfl) rfl

theorem keepsShared_acceptNew (token fullName password salt sessionId : String) (w : World) :
    KeepsShared w
      ((acceptInvitationAsNewUser crypto token fullName password salt sessionId).exec w).2 := by
  rcases acceptInvitationAsNewUser_cases crypto token fullName password salt sessionId w with
    h | ⟨inv, -, hash, db', sessions, -, hnew, hjoin, h⟩
  · rw [h]
    exact .refl w
  · obtain ⟨-, row, hemail, -, husers⟩ := mem_joinWorkspace hjoin
    refine .of_first (hemail ▸ hnew) fun u => ?_
    rw [h]
    exact husers u

/-- The row that is cloned is the caller's, and the invitation is for the caller. -/
theorem keepsShared_acceptExisting {auth : AuthData}
    (hauth : ∃ u ∈ w.db.users, u.id = auth.id ∧ u.email = auth.email) (token : String) :
    KeepsShared w ((acceptInvitationAsExistingUser token auth).exec w).2 := by
  rcases acceptInvitationAsExistingUser_cases token auth w with
    h | ⟨inv, -, account, db', -, hinv, haccount, hjoin, h⟩
  · rw [h]
    exact .refl w
  · obtain ⟨-, row, hemail, hhash, husers⟩ := mem_joinWorkspace hjoin
    obtain ⟨haccount, hid⟩ := Sql.Table.byId_eq_some_iff.mp haccount
    obtain ⟨u, hu, huid, huemail⟩ := hauth
    obtain rfl : u = account := Sql.Table.eq_of_id hu haccount (huid.trans hid.symm)
    rw [h]
    exact .of_clone hu (huemail.trans (hinv.trans hemail.symm)) hhash.symm husers

/-- The owner's row is claimed, or is a clone. -/
theorem clones_claimOwner {users U : Sql.Table User} {account : User} {tenantId i : Nat}
    (haccount : account ∈ users) (h : claimOwner users account tenantId = some (i, U)) :
    ∀ u ∈ U, ∃ v ∈ users, v.email = u.email ∧ v.passwordHash = u.passwordHash := by
  intro u hu
  unfold claimOwner at h
  split at h
  · obtain ⟨T, hT, heq⟩ := Option.map_eq_some_iff.mp h
    cases heq
    obtain ⟨v, hv, rfl⟩ := (Sql.Table.mem_update? hT).mp hu
    refine ⟨v, hv, ?_⟩
    split <;> exact ⟨rfl, rfl⟩
  · obtain ⟨T, hT, heq⟩ := Option.map_eq_some_iff.mp h
    cases heq
    rcases (Sql.Table.mem_insert? hT).mp hu with hu | rfl
    · exact ⟨u, hu, rfl, rfl⟩
    · exact ⟨account, haccount, rfl, rfl⟩

theorem keepsShared_createWorkspace (data : WorkspaceData) (auth : AuthData) (w : World) :
    KeepsShared w ((createWorkspace data auth).exec w).2 := by
  rcases createWorkspace_cases data auth w with
    h | ⟨name, subdomain, website, account, r, db', haccount, -, hinsert, h⟩
  · rw [h]
    exact .refl w
  · rw [h]
    obtain ⟨T, U, C, -, hclaim, rfl⟩ := insertWorkspace_spec hinsert
    obtain ⟨hmem, -⟩ := Sql.Table.byId_eq_some_iff.mp haccount
    intro hshared
    exact hshared.of_rows (clones_claimOwner hmem hclaim)

theorem keepsShared_changePassword (oldPassword newPassword salt : String) (auth : AuthData)
    (w : World) :
    KeepsShared w ((changeUserPassword crypto oldPassword newPassword salt auth).exec w).2 := by
  refine .of_within ?_ w
  refine .ite (.throw _) (.bind (.read KeepsShared.refl _) fun user => ?_)
  cases user with
  | none => exact .throw _
  | some user =>
    refine .bind ?_ fun _ => .bind (.step fun w => .setPasswordHash _ _ w) fun updated =>
      .ite (.pure _) (.throw _)
    unfold provesPassword
    split
    · exact .pure _
    · exact .ite (.throw _) (.ite (.throw _) (.pure _))

theorem keepsShared_resetUserPassword (id : Nat) (newPassword salt : String) (w : World) :
    KeepsShared w ((resetUserPassword crypto id newPassword salt).exec w).2 := by
  refine .of_within ?_ w
  refine .ite (.throw _) (.bind (.read KeepsShared.refl _) fun email => ?_)
  cases email with
  | none => exact .throw _
  | some email =>
    exact .bind (.write fun w => .setPasswordHash _ _ w) fun _ =>
      .bind (.write fun w => .of_users rfl) fun _ => .pure _

theorem keepsShared_resetPassword (token newPassword salt : String) (w : World) :
    KeepsShared w ((resetPassword crypto token newPassword salt).exec w).2 := by
  refine .of_within ?_ w
  refine .ite (.throw _) (.bind (.step fun w => ?_) fun email =>
    .bind (.write fun w => .of_users rfl) fun _ => .pure _)
  cases htx : resetPasswordTx crypto token (crypto.hash salt newPassword) w.now w.db with
  | error e => exact .refl w
  | ok r =>
    unfold resetPasswordTx at htx
    split at htx
    · cases htx
    · cases htx
      exact (KeepsShared.setPasswordHash _ _ w).trans (.of_users rfl)

/-! ### Runs -/

/-- A call of one of the handlers, with the random values it draws. A signed-in request
carries the claims of its token. -/
inductive AccountRequest where
  | register (data : SignUp)
  | oauth (data : OauthData) (sessionId : String)
  | createAdmin (data : AdminData) (salt : String)
  | createWorkspace (claims : Token) (data : WorkspaceData)
  | acceptNew (token fullName password salt sessionId : String)
  | acceptExisting (claims : Token) (token : String)
  | changePassword (claims : Token) (oldPassword newPassword salt : String)
  | resetPassword (token newPassword salt : String)
  | resetUserPassword (id : Nat) (newPassword salt : String)
  | updateUser (id : Nat) (data : UserChange)

/-- A request behind `authenticateToken`, and the state it leaves. -/
def signedInAs {α : Type} (claims : Token) (f : AuthData → Handler α) (w : World) : World :=
  ((authenticateToken claims >>= f).exec w).2

/-- The state after a call. -/
def AccountRequest.serve (crypto : Crypto) (w : World) : AccountRequest → World
  | .register data => ((registerNewUser data).exec w).2
  | .oauth data sessionId => ((oauthLogin data sessionId).exec w).2
  | .createAdmin data salt => ((Feedbase.createAdmin crypto data salt).exec w).2
  | .createWorkspace claims data => signedInAs claims (Feedbase.createWorkspace data) w
  | .acceptNew token fullName password salt sessionId =>
    ((acceptInvitationAsNewUser crypto token fullName password salt sessionId).exec w).2
  | .acceptExisting claims token => signedInAs claims (acceptInvitationAsExistingUser token) w
  | .changePassword claims oldPassword newPassword salt =>
    signedInAs claims (changeUserPassword crypto oldPassword newPassword salt) w
  | .resetPassword token newPassword salt =>
    ((Feedbase.resetPassword crypto token newPassword salt).exec w).2
  | .resetUserPassword id newPassword salt =>
    ((Feedbase.resetUserPassword crypto id newPassword salt).exec w).2
  | .updateUser id data => ((Feedbase.updateUser id data).exec w).2

/-- A social sign-in that signs an account up finds none of its rows with a password. -/
def AccountRequest.AddsNoSecondHash (db : Db) : AccountRequest → Prop
  | .oauth data _ => data.Provisions db → ∀ u ∈ db.users, u.email = data.account db →
      u.passwordHash = none
  | _ => True

theorem keepsShared_signedInAs {α : Type} {f : AuthData → Handler α} (claims : Token)
    (hf : ∀ auth w, (∃ u ∈ w.db.users, u.id = auth.id ∧ u.email = auth.email) →
      KeepsShared w ((f auth).exec w).2) (w : World) : KeepsShared w (signedInAs claims f w) := by
  obtain ⟨husers, hauth⟩ := exec_authenticateToken claims w
  unfold signedInAs
  rw [Prog.exec_bind]
  rcases hrun : (authenticateToken claims).exec w with ⟨e | auth, w'⟩
  · rw [hrun] at husers
    exact .of_users husers
  · rw [hrun] at husers hauth
    obtain ⟨u, hu, hid, hemail, -⟩ := hauth auth rfl
    rw [← husers] at hu
    exact (KeepsShared.of_users husers).trans (hf auth w' ⟨u, hu, hid, hemail⟩)

/-- A social sign-in adds nothing, or a row without a password. -/
theorem keepsShared_oauthLogin {data : OauthData} {sessionId : String}
    (hadds : AccountRequest.AddsNoSecondHash w.db (.oauth data sessionId)) :
    KeepsShared w ((oauthLogin data sessionId).exec w).2 := by
  by_cases hprovisions : data.Provisions w.db
  · have hins := users_oauthLogin_of_provisions hprovisions sessionId
    intro hshared
    exact hshared.of_insert (hadds hprovisions) fun u => Sql.Table.mem_insert? hins
  · exact .of_users (users_oauthLogin_of_not hprovisions sessionId)

/-- A call that meets its condition keeps the hash shared. -/
theorem AccountRequest.keepsShared {r : AccountRequest} (h : r.AddsNoSecondHash w.db) :
    KeepsShared w (r.serve crypto w) := by
  cases r with
  | register data => exact keepsShared_register data w
  | oauth data sessionId => exact keepsShared_oauthLogin h
  | createAdmin data salt => exact keepsShared_createAdmin data salt w
  | createWorkspace claims data =>
    exact keepsShared_signedInAs claims (fun auth w _ => keepsShared_createWorkspace data auth w) w
  | acceptNew token fullName password salt sessionId =>
    exact keepsShared_acceptNew token fullName password salt sessionId w
  | acceptExisting claims token =>
    exact keepsShared_signedInAs claims (fun _ _ hauth => keepsShared_acceptExisting hauth token) w
  | changePassword claims oldPassword newPassword salt =>
    exact keepsShared_signedInAs claims (fun auth w _ =>
      keepsShared_changePassword oldPassword newPassword salt auth w) w
  | resetPassword token newPassword salt => exact keepsShared_resetPassword token newPassword salt w
  | resetUserPassword id newPassword salt =>
    exact keepsShared_resetUserPassword id newPassword salt w
  | updateUser id data => exact keepsShared_updateUser id data w

/-- A call that meets its condition, run to completion, or anything that leaves the users
alone. -/
inductive AccountStep (crypto : Crypto) (w : World) : World → Prop where
  | serve (r : AccountRequest) (hadds : r.AddsNoSecondHash w.db) :
    AccountStep crypto w (r.serve crypto w)
  | other (w' : World) (husers : w'.db.users = w.db.users) : AccountStep crypto w w'

/-- From an empty database, in every sequence of calls that meet their conditions. -/
theorem sharedHash_of_run {w₀ : World} (hempty : w₀.db.users = .empty)
    (hrun : Relation.ReflTransGen (AccountStep crypto) w₀ w) : SharedHash w.db := by
  induction hrun with
  | refl =>
    intro u hu
    rw [hempty] at hu
    exact absurd hu Sql.Table.not_mem_empty
  | tail _ hstep ih =>
    cases hstep with
    | serve r hadds => exact AccountRequest.keepsShared hadds ih
    | other _ husers => exact ih.of_users husers

/-- The condition is exact. -/
theorem oauthLogin_splits {data : OauthData} {sessionId : String}
    (h : ¬ AccountRequest.AddsNoSecondHash w.db (.oauth data sessionId)) :
    ¬ SharedHash ((oauthLogin data sessionId).exec w).2.db := by
  obtain ⟨hprovisions, u, hu, hemail, hhash⟩ : data.Provisions w.db ∧
      ∃ u ∈ w.db.users, u.email = data.account w.db ∧ u.passwordHash ≠ none := by
    simpa [AccountRequest.AddsNoSecondHash] using h
  have hins := users_oauthLogin_of_provisions hprovisions sessionId
  intro hshared
  refine hhash (hshared u ((Sql.Table.mem_insert? hins).mpr (.inl hu)) _
    ((Sql.Table.mem_insert? hins).mpr (.inr rfl)) ?_)
  exact hemail

/-! ### Runs on one account -/

/-- A verified social identity. -/
def judyGoogle : OauthData where
  provider := "google"
  providerUserId := "judy"
  email := "judy@example.com"
  emailVerified := true

def judyToken : Token where
  id := 1
  email := "judy@example.com"
  tenantId := none
  role := .user
  sid := "s1"

/-- Judy signs up with a provider, creates a workspace, and sets a first password. -/
theorem sharedHash_of_run_judy : ∃ w : World,
    Relation.ReflTransGen (AccountStep .plain) {} w ∧
      (∃ u ∈ w.db.users, u.tenantId = some 1 ∧ u.passwordHash = some "correct horse") ∧
        SharedHash w.db := by
  let signUp : AccountRequest := .oauth judyGoogle "s1"
  let create : AccountRequest := .createWorkspace judyToken { name := "Acme", subdomain := "acme" }
  let change : AccountRequest := .changePassword judyToken "" "correct horse" "salt"
  have hadds : signUp.AddsNoSecondHash ({} : World).db :=
    fun _ u hu => absurd hu Sql.Table.not_mem_empty
  have hrun : Relation.ReflTransGen (AccountStep .plain) {}
      (change.serve .plain (create.serve .plain (signUp.serve .plain {}))) :=
    .tail (.tail (.single (.serve signUp hadds)) (.serve create trivial)) (.serve change trivial)
  exact ⟨_, hrun, by decide +kernel, sharedHash_of_run rfl hrun⟩

/-- She signs up with a password, an admin switches her row off, and she comes back with a
provider. -/
theorem social_signIn_adds_second_hash :
    ¬ SharedHash
      (([.register { fullName := "Judy", email := "judy@example.com", password := "$2b$10$" },
        .updateUser 1 { isActive := some false }, .oauth judyGoogle "s1"] :
          List AccountRequest).foldl (AccountRequest.serve .plain) {}).db := by
  decide +kernel

end Feedbase
