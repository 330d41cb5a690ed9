import Feedbase.Users.Invitations
import Feedbase.Users.Login
import Feedbase.Users.PasswordReset

/-!
# Deactivated accounts

An account is deactivated when it has rows and none of them is active. Five of the six
sign-in paths keep it out; `oauthLogin` looks for an active row only, finds none, and
signs the account up again.

## Main definitions

* `Deactivated`, `StaysOut`
* `SignInRequest`, `SignInRun` — any sequence of sign-in requests

## Main results

* `deactivated_of_run` — no token, no session and no active row, if no accepted social
  sign-in resolves to the account
* `oauthLogin_reactivates` — one that does brings the account back
-/

namespace Feedbase

variable {crypto : Crypto} {mail : MailEnv} {w w' : World} {email : String}

-- unification must not evaluate what these handlers check of their arguments
attribute [local irreducible] requestPasswordReset resetPassword acceptInvitationAsNewUser
/-- The account has rows, and all of them are switched off. -/
structure Deactivated (db : Db) (email : String) : Prop where
  known : ∃ u ∈ db.users, u.email = email
  inactive : ∀ u ∈ db.users, u.email = email → u.isActive = false

instance (db : Db) (email : String) : Decidable (Deactivated db email) :=
  decidable_of_iff ((∃ u ∈ db.users, u.email = email) ∧
      ∀ u ∈ db.users, u.email = email → u.isActive = false)
    ⟨fun h => ⟨h.1, h.2⟩, fun h => ⟨h.known, h.inactive⟩⟩

/-- An active row belongs to another account. -/
theorem Deactivated.ne {db : Db} (h : Deactivated db email) {u : User} (hu : u ∈ db.users)
    (hactive : u.isActive = true) : u.email ≠ email := by
  intro hemail
  rw [h.inactive u hu hemail] at hactive
  cases hactive

/-- The ids of the sessions an account has ever had. -/
def sessionsOf (db : Db) (email : String) : List String :=
  (db.userSessions.rows.filter (·.email == email)).map UserSession.sessionId

/-- A step that leaves a deactivated account deactivated and opens no session for it. -/
structure StaysOut (email : String) (w w' : World) : Prop where
  deactivated : Deactivated w.db email → Deactivated w'.db email
  sessions : sessionsOf w'.db email = sessionsOf w.db email

namespace StaysOut

theorem refl (w : World) : StaysOut email w w := ⟨id, rfl⟩

theorem trans {w'' : World} (h : StaysOut email w w') (h' : StaysOut email w' w'') :
    StaysOut email w w'' :=
  ⟨fun hd => h'.deactivated (h.deactivated hd), h'.sessions.trans h.sessions⟩

/-- A handler whose every action leaves the account out. -/
theorem of_within {α : Type} {p : Handler α} (h : Prog.Within (StaysOut email) p) :
    StaysOut email w (p.exec w).2 :=
  h.exec .refl (fun _ _ _ => .trans) w

/-- Neither users nor sessions change. -/
theorem of_eq (husers : w'.db.users = w.db.users)
    (hsessions : w'.db.userSessions = w.db.userSessions) : StaysOut email w w' := by
  refine ⟨fun h => ⟨?_, ?_⟩, ?_⟩
  · rw [husers]
    exact h.known
  · rw [husers]
    exact h.inactive
  · unfold sessionsOf
    rw [hsessions]

/-- A row of another account is added. -/
theorem of_insert {row : User} (hne : row.email ≠ email)
    (husers : ∀ u, u ∈ w'.db.users ↔ u ∈ w.db.users ∨ u = row)
    (hsessions : w'.db.userSessions = w.db.userSessions) : StaysOut email w w' := by
  refine ⟨fun h => ⟨?_, fun u hu hemail => ?_⟩, ?_⟩
  · obtain ⟨u, hu, hemail⟩ := h.known
    exact ⟨u, (husers u).mpr (.inl hu), hemail⟩
  · rcases (husers u).mp hu with hu | rfl
    · exact h.inactive u hu hemail
    · exact absurd hemail hne
  · unfold sessionsOf
    rw [hsessions]

/-- A new password changes no flag. -/
theorem setPasswordHash (email' hash : String) :
    StaysOut email w { w with db := setPasswordHash email' hash w.db } := by
  refine ⟨fun h => ⟨?_, fun u hu hemail => ?_⟩, rfl⟩
  · obtain ⟨u, hu, hemail⟩ := h.known
    refine ⟨_, mem_setPasswordHash.mpr ⟨u, hu, rfl⟩, ?_⟩
    split <;> exact hemail
  · obtain ⟨v, hv, rfl⟩ := mem_setPasswordHash.mp hu
    by_cases hp : (v.email == email') = true
    · rw [if_pos hp] at hemail ⊢
      exact h.inactive v hv hemail
    · rw [if_neg hp] at hemail ⊢
      exact h.inactive v hv hemail

/-- Revoking is not a new session. -/
theorem sessionsRevoked (email' : String) : StaysOut email w (w.sessionsRevoked email') := by
  refine ⟨fun h => ⟨h.known, h.inactive⟩, ?_⟩
  have hrows : (w.sessionsRevoked email').db.userSessions.rows = w.db.userSessions.rows.map
      fun s => if s.email == email' && s.revokedAt.isNone then s.revoke w.now else s := rfl
  unfold sessionsOf
  rw [hrows, List.filter_map, List.map_map]
  congr 1
  · funext s
    dsimp only [Function.comp]
    split <;> rfl
  · congr 1
    funext s
    dsimp only [Function.comp]
    split <;> rfl

/-- A session of another account is opened. -/
theorem setSessions {email' sessionId : String} (hne : email' ≠ email)
    {sessions : Sql.Table UserSession}
    (hins : w.db.userSessions.insert? (newSession email' sessionId w.now) = some sessions) :
    StaysOut email w (w.setSessions sessions) := by
  refine ⟨fun h => ⟨h.known, h.inactive⟩, ?_⟩
  unfold sessionsOf
  change (sessions.rows.filter _).map _ = _
  rw [Sql.Table.insert?_rows hins, List.filter_append]
  have hother : [newSession email' sessionId w.now w.db.userSessions.next].filter
      (·.email == email) = [] := by
    simpa [newSession] using hne
  rw [hother, List.append_nil]

end StaysOut

/-! ### The handlers -/

/-- The handler leaves the account out, and the token it returns is another account's. -/
structure KeepsOut {δ : Type} (email : String) (token : δ → Token) (w : World)
    (p : Handler (Reply δ)) : Prop where
  stays : StaysOut email w (p.exec w).2
  token_ne : ∀ reply, (p.exec w).1 = .ok reply → (token reply.result).email ≠ email

namespace KeepsOut

variable {δ : Type} {token : δ → Token}

theorem reject (statusCode : Nat) (msgKey : String) :
    KeepsOut email token w (Feedbase.reject statusCode msgKey) :=
  ⟨.refl w, fun _ hok => by cases hok⟩

theorem resolve {statusCode : Nat} {msgKey : String} {result : δ} (h : (token result).email ≠ email) :
    KeepsOut email token w (Feedbase.resolve statusCode msgKey result) := by
  refine ⟨.refl w, fun reply hok => ?_⟩
  cases hok
  exact h

/-- The second part starts wherever the first returns. -/
theorem bind {α : Type} {p : Handler α} {f : α → Handler (Reply δ)}
    (hp : StaysOut email w (p.exec w).2)
    (hf : ∀ a w', p.exec w = (.ok a, w') → KeepsOut email token w' (f a)) :
    KeepsOut email token w (p >>= f) := by
  rcases hrun : p.exec w with ⟨e | a, w'⟩
  · rw [hrun] at hp
    have hexec : (p >>= f).exec w = (.error e, w') := by rw [Prog.exec_bind, hrun]
    refine ⟨hexec ▸ hp, fun reply hok => ?_⟩
    rw [hexec] at hok
    cases hok
  · rw [hrun] at hp
    have hexec : (p >>= f).exec w = (f a).exec w' := by rw [Prog.exec_bind, hrun]
    have hrest := hf a w' hrun
    refine ⟨hexec ▸ hp.trans hrest.stays, fun reply hok => ?_⟩
    rw [hexec] at hok
    exact hrest.token_ne reply hok

theorem query_bind {α : Type} {g : Db → α} {f : α → Handler (Reply δ)}
    (h : KeepsOut email token w (f (g w.db))) : KeepsOut email token w (query g >>= f) := by
  refine bind (.refl w) fun a w' hrun => ?_
  rw [exec_query] at hrun
  cases hrun
  exact h

/-- With a handler of exceptions that only rejects. -/
theorem tryCatch {p : Handler (Reply δ)} {handle : Failure → Handler (Reply δ)}
    (hp : KeepsOut email token w p) (hreject : ∀ e u, ∃ e', (handle e).exec u = (.error e', u)) :
    KeepsOut email token w (MonadExcept.tryCatch p handle) := by
  refine ⟨?_, fun reply hok => ?_⟩
  · have hstays := hp.stays
    rw [Prog.exec_tryCatch]
    rcases hrun : p.exec w with ⟨e | reply, w'⟩
    · obtain ⟨e', he'⟩ := hreject e w'
      rw [hrun] at hstays
      dsimp only
      rw [he']
      exact hstays
    · rw [hrun] at hstays
      exact hstays
  · rcases hrun : (MonadExcept.tryCatch p handle).exec w with ⟨r, w'⟩
    rw [hrun] at hok
    obtain rfl : r = .ok reply := hok
    have hbody := Prog.exec_tryCatch_ok hreject hrun
    exact hp.token_ne reply (by rw [hbody])

end KeepsOut

/-- A token and a session are given to the account of the row only. -/
theorem finishSignIn_keepsOut {user : User} (hne : user.email ≠ email) (force : Bool)
    (sessionId msgKey : String) :
    KeepsOut email SignedIn.token w (finishSignIn user force sessionId msgKey) := by
  refine .bind (.of_within (within_startSession .refl (fun _ => .sessionsRevoked user.email)
    (fun _ _ => .setSessions hne) user.tenantId force)) fun start w' _ => ?_
  cases start with
  | blocked live => exact .reject _ _
  | started sid => exact .resolve hne

theorem userLogin_keepsOut (crypto : Crypto) (hout : Deactivated w.db email) (data : LoginData)
    (sessionId : String) :
    KeepsOut email SignedIn.token w (userLogin crypto data sessionId) := by
  refine .query_bind ?_
  cases huser : userLoginQuery w.db data.email data.tenantId with
  | none => exact .reject _ _
  | some user =>
    -- the row is active, so it is another account's
    have hne : user.email ≠ email := by
      refine hout.ne (List.mem_of_find?_eq_some huser) ?_
      have hp := List.find?_some huser
      simp only [Bool.and_eq_true] at hp
      exact hp.2
    dsimp only
    split
    · exact .reject _ _
    · exact finishSignIn_keepsOut hne data.force sessionId _

/-- The row of another account is looked up or added. -/
theorem findOrProvision_staysOut {email' : String} (hne : email' ≠ email)
    (fullName avatarUrl : String) :
    StaysOut email w ((findOrProvision email' fullName avatarUrl).exec w).2 ∧
      ∀ user, ((findOrProvision email' fullName avatarUrl).exec w).1 = .ok (some user) →
        user ∈ ((findOrProvision email' fullName avatarUrl).exec w).2.db.users ∧
          user.isActive = true := by
  cases hfound : findAccountRow w.db email' with
  | some user =>
    rw [exec_findOrProvision_some hfound]
    refine ⟨.refl w, fun user' hok => ?_⟩
    obtain rfl : user = user' := Option.some.inj (Except.ok.inj hok)
    obtain ⟨huser, -, hactive⟩ := findAccountRow_eq_some hfound
    exact ⟨huser, hactive⟩
  | none =>
    obtain ⟨users, hins, hexec⟩ := exec_findOrProvision fullName avatarUrl hfound
    rw [hexec]
    refine ⟨.of_insert hne (fun _ => Sql.Table.mem_insert? hins) rfl, fun user hok => ?_⟩
    obtain rfl := Option.some.inj (Except.ok.inj hok)
    exact ⟨(Sql.Table.mem_insert? hins).mpr (.inr rfl), rfl⟩

theorem rememberLink_staysOut (email' provider providerUserId : String) :
    StaysOut email w { w with db := rememberLink email' provider providerUserId w.db } := by
  refine .of_eq ?_ ?_
  · dsimp only [rememberLink]
    split <;> rfl
  · dsimp only [rememberLink]
    split <;> rfl

/-- An identity of another account. -/
theorem oauthSignIn_keepsOut (hout : Deactivated w.db email)
    {provider providerUserId email' : String}
    (hne : linkedEmail (oauthLink w.db provider providerUserId) email' ≠ email)
    (fullName avatarUrl : String) (force : Bool) (sessionId : String) :
    KeepsOut email SignedIn.token w
      (oauthSignIn provider providerUserId email' fullName avatarUrl force sessionId) := by
  refine .query_bind ?_
  obtain ⟨hstays, hactive⟩ := findOrProvision_staysOut (w := w) hne fullName avatarUrl
  refine .bind hstays fun found w' hrun => ?_
  rw [hrun] at hstays hactive
  cases found with
  | none => exact .reject _ _
  | some user =>
    obtain ⟨huser, hisActive⟩ := hactive user rfl
    have hother : user.email ≠ email := (hstays.deactivated hout).ne huser hisActive
    dsimp only
    split
    · exact .bind (rememberLink_staysOut _ _ _) fun _ _ _ =>
        finishSignIn_keepsOut hother force sessionId _
    · exact finishSignIn_keepsOut hother force sessionId _

/-- The address an accepted social sign-in resolves to. -/
def OauthData.ResolvesTo (d : OauthData) (db : Db) (email : String) : Prop :=
  d.invalid? = none ∧ d.account db = email

instance (d : OauthData) (db : Db) (email : String) : Decidable (d.ResolvesTo db email) :=
  inferInstanceAs (Decidable (_ ∧ _))

theorem oauthLogin_keepsOut (hout : Deactivated w.db email) {data : OauthData}
    (hne : ¬ data.ResolvesTo w.db email) (sessionId : String) :
    KeepsOut email SignedIn.token w (oauthLogin data sessionId) := by
  unfold oauthLogin
  cases hinvalid : data.invalid? with
  | some msgKey => exact .reject _ _
  | none =>
    exact .tryCatch (oauthSignIn_keepsOut hout (fun h => hne ⟨hinvalid, h⟩) _ _ _ _)
      (exec_failWith _)

/-- A known address cannot sign up. -/
theorem registerNewUser_staysOut (hout : Deactivated w.db email) (data : SignUp) :
    StaysOut email w ((registerNewUser data).exec w).2 := by
  rcases registerNewUser_cases data w with h | ⟨users, row, hnew, hemail, husers, h⟩
  · rw [h]
    exact .refl w
  · rw [h]
    obtain ⟨u, hu, rfl⟩ := hout.known
    exact .of_insert (hemail ▸ Ne.symm (hnew u hu)) husers rfl

/-- Nor accept an invitation as a new user. -/
theorem acceptInvitationAsNewUser_keepsOut (crypto : Crypto) (hout : Deactivated w.db email)
    (token fullName password salt sessionId : String) :
    KeepsOut email Prod.fst w
      (acceptInvitationAsNewUser crypto token fullName password salt sessionId) := by
  unfold acceptInvitationAsNewUser
  dsimp only
  split
  · exact .reject _ _
  split
  · exact .reject _ _
  refine .tryCatch ?_ (exec_failWith _)
  cases htx : joinAsNewUserTx token (trim fullName) (crypto.hash salt password) w.now w.db with
  | error e =>
    refine .bind ?_ fun joined w' hrun => ?_
    · rw [exec_timedTransaction, htx]
      exact .refl w
    · rw [exec_timedTransaction, htx] at hrun
      cases hrun
  | ok r =>
    obtain ⟨joined, db'⟩ := r
    obtain ⟨inv, -, -, hjoined, hnew, hjoin⟩ := joinAsNewUserTx_ok htx
    obtain ⟨hsessions, row, hrow, -, husers⟩ := mem_joinWorkspace hjoin
    -- the invitation is for an address without a row
    have hne : inv.email ≠ email := by
      obtain ⟨u, hu, rfl⟩ := hout.known
      exact Ne.symm (hnew u hu)
    refine .bind ?_ fun joined' w' hrun => ?_
    · rw [exec_timedTransaction, htx]
      exact .of_insert (hrow ▸ hne) husers hsessions
    · rw [exec_timedTransaction, htx] at hrun
      cases hrun
      rw [← hjoined] at hne
      refine .bind (.of_within (within_createSession .refl fun _ _ => .setSessions hne))
        fun _ _ _ => .resolve hne

theorem within_sendResetLink (email' rawToken : String) :
    Prog.Within (StaysOut email) (sendResetLink crypto mail email' rawToken) := by
  refine .bind (.write fun _ => .of_eq rfl rfl) fun _ => .bind (.read StaysOut.refl _) fun now => ?_
  refine .bind (.attempt StaysOut.refl fun w a w' hw => ?_) fun _ => .read StaysOut.refl _
  obtain ⟨db, hdb, heq⟩ := Option.map_eq_some_iff.mp hw
  obtain ⟨resets, -, rfl⟩ := Option.map_eq_some_iff.mp hdb
  obtain ⟨-, rfl⟩ := Prod.mk.inj heq
  exact .of_eq rfl rfl

theorem within_requestPasswordReset (email' rawToken : String) :
    Prog.Within (StaysOut email) (requestPasswordReset crypto mail email' rawToken) := by
  unfold requestPasswordReset
  dsimp only
  generalize normalizeEmail email' = normalized
  refine .ite (.pure _) (.tryCatch (.bind (.read StaysOut.refl _) fun account => ?_) fun _ =>
    .throw _)
  cases account with
  | false => exact .bind (.pure _) fun _ => .pure _
  | true => exact .bind (within_sendResetLink normalized rawToken) fun _ => .pure _

theorem requestPasswordReset_staysOut (email' rawToken : String) :
    StaysOut email w ((requestPasswordReset crypto mail email' rawToken).exec w).2 :=
  .of_within (within_requestPasswordReset email' rawToken)

theorem within_resetPassword (token newPassword salt : String) :
    Prog.Within (StaysOut email) (resetPassword crypto token newPassword salt) := by
  unfold resetPassword
  refine .ite (.throw _) (.bind (.step fun w => ?_) fun email' =>
    .bind (.write fun _ => .sessionsRevoked email') fun _ => .pure _)
  cases htx : resetPasswordTx crypto token (crypto.hash salt newPassword) w.now w.db with
  | error e => exact .refl w
  | ok r =>
    unfold resetPasswordTx at htx
    split at htx
    · cases htx
    · cases htx
      exact (StaysOut.setPasswordHash _ _).trans (.of_eq rfl rfl)

theorem resetPassword_staysOut (token newPassword salt : String) :
    StaysOut email w ((resetPassword crypto token newPassword salt).exec w).2 :=
  .of_within (within_resetPassword token newPassword salt)

/-! ### Runs -/

/-- A request of one of the six kinds, with the random values its handler draws. -/
inductive SignInRequest where
  | login (data : LoginData) (sessionId : String)
  | oauth (data : OauthData) (sessionId : String)
  | register (data : SignUp)
  | accept (token fullName password salt sessionId : String)
  | forgot (email rawToken : String)
  | reset (token newPassword salt : String)

/-- The token a request returned. -/
def issued {δ : Type} (token : δ → Token) : Except Failure (Reply δ) → Option Token
  | .ok reply => some (token reply.result)
  | .error _ => none

/-- The token that is issued and the state after the request. -/
def SignInRequest.serve (crypto : Crypto) (mail : MailEnv) (w : World) :
    SignInRequest → Option Token × World
  | .login data sessionId =>
    let r := (userLogin crypto data sessionId).exec w
    (issued SignedIn.token r.1, r.2)
  | .oauth data sessionId =>
    let r := (oauthLogin data sessionId).exec w
    (issued SignedIn.token r.1, r.2)
  | .register data => (none, ((registerNewUser data).exec w).2)
  | .accept token fullName password salt sessionId =>
    let r := (acceptInvitationAsNewUser crypto token fullName password salt sessionId).exec w
    (issued Prod.fst r.1, r.2)
  | .forgot email rawToken => (none, ((requestPasswordReset crypto mail email rawToken).exec w).2)
  | .reset token newPassword salt =>
    (none, ((resetPassword crypto token newPassword salt).exec w).2)

/-- An accepted social sign-in that resolves to the account. -/
def SignInRequest.ResolvesTo (db : Db) (email : String) : SignInRequest → Prop
  | .oauth data _ => data.ResolvesTo db email
  | _ => False

instance (r : SignInRequest) (db : Db) (email : String) : Decidable (r.ResolvesTo db email) :=
  match r with
  | .oauth data _ => inferInstanceAs (Decidable (data.ResolvesTo db email))
  | .login .. | .register _ | .accept .. | .forgot .. | .reset .. => inferInstanceAs (Decidable False)

theorem KeepsOut.issued_ne {δ : Type} {token : δ → Token} {p : Handler (Reply δ)}
    (h : KeepsOut email token w p) :
    ∀ t ∈ issued token (p.exec w).1, t.email ≠ email := by
  intro t ht
  rcases hr : (p.exec w).1 with e | reply
  · rw [hr] at ht
    cases ht
  · rw [hr] at ht
    obtain rfl := Option.some.inj ht
    exact h.token_ne reply hr

/-- A request that does not resolve to the account keeps it out. -/
theorem SignInRequest.serve_staysOut (crypto : Crypto) (mail : MailEnv)
    (hout : Deactivated w.db email) {r : SignInRequest}
    (hr : ¬ r.ResolvesTo w.db email) :
    StaysOut email w (r.serve crypto mail w).2 ∧
      ∀ t ∈ (r.serve crypto mail w).1, t.email ≠ email := by
  have hquiet : ∀ t ∈ (none : Option Token), t.email ≠ email := fun t ht => by cases ht
  unfold serve
  cases r with
  | login data sessionId =>
    have hkeeps := userLogin_keepsOut crypto hout data sessionId
    exact ⟨hkeeps.stays, hkeeps.issued_ne⟩
  | oauth data sessionId =>
    have hkeeps := oauthLogin_keepsOut hout hr sessionId
    exact ⟨hkeeps.stays, hkeeps.issued_ne⟩
  | register data =>
    dsimp only
    exact ⟨registerNewUser_staysOut hout data, hquiet⟩
  | accept token fullName password salt sessionId =>
    have hkeeps := acceptInvitationAsNewUser_keepsOut crypto hout token fullName password salt
      sessionId
    exact ⟨hkeeps.stays, hkeeps.issued_ne⟩
  | forgot email' rawToken =>
    dsimp only
    exact ⟨requestPasswordReset_staysOut email' rawToken, hquiet⟩
  | reset token newPassword salt =>
    dsimp only
    exact ⟨resetPassword_staysOut token newPassword salt, hquiet⟩

/-- Any sequence of requests that meet `ok`, each run to completion; between two of them
anything may change but users, sessions and provider links. The tokens issued are listed. -/
inductive SignInRun (crypto : Crypto) (mail : MailEnv) (ok : World → SignInRequest → Prop)
    (w₀ : World) : List Token → World → Prop where
  | start : SignInRun crypto mail ok w₀ [] w₀
  | serve {log : List Token} {w : World} (hrun : SignInRun crypto mail ok w₀ log w)
    (r : SignInRequest) (hok : ok w r) :
    SignInRun crypto mail ok w₀ (log ++ (r.serve crypto mail w).1.toList) (r.serve crypto mail w).2
  | elapse {log : List Token} {w w' : World} (hrun : SignInRun crypto mail ok w₀ log w)
    (husers : w'.db.users = w.db.users) (hsessions : w'.db.userSessions = w.db.userSessions)
    (hlinks : w'.db.oauthAccounts = w.db.oauthAccounts) : SignInRun crypto mail ok w₀ log w'

/-- In every run without an accepted social sign-in that resolves to a deactivated
account, no token is issued for it, no session is opened and no row becomes active. -/
theorem deactivated_of_run {w₀ : World} {log : List Token} (hout : Deactivated w₀.db email)
    (hrun : SignInRun crypto mail (fun w r => ¬ r.ResolvesTo w.db email) w₀ log w) :
    (∀ t ∈ log, t.email ≠ email) ∧ sessionsOf w.db email = sessionsOf w₀.db email ∧
      Deactivated w.db email := by
  induction hrun with
  | start => exact ⟨fun t ht => absurd ht List.not_mem_nil, rfl, hout⟩
  | serve hrun r hok ih =>
    obtain ⟨htokens, hsessions, hstill⟩ := ih
    obtain ⟨hstays, hissued⟩ := SignInRequest.serve_staysOut crypto mail hstill hok
    refine ⟨fun t ht => ?_, hstays.sessions.trans hsessions, hstays.deactivated hstill⟩
    rcases List.mem_append.mp ht with ht | ht
    · exact htokens t ht
    · exact hissued t (Option.mem_toList.mp ht)
  | elapse hrun husers hsame hlinks ih =>
    obtain ⟨htokens, hsessions, hstill⟩ := ih
    have hstays : StaysOut email _ _ := .of_eq husers hsame
    exact ⟨htokens, hstays.sessions.trans hsessions, hstays.deactivated hstill⟩

/-- The condition is exact: an accepted social sign-in that resolves to the account adds an
active row. -/
theorem oauthLogin_reactivates (hout : Deactivated w.db email) {data : OauthData}
    (h : data.ResolvesTo w.db email) (sessionId : String) :
    ∃ u ∈ ((oauthLogin data sessionId).exec w).2.db.users, u.email = email ∧ u.isActive = true := by
  obtain ⟨hvalid, rfl⟩ := h
  have hnone : findAccountRow w.db (data.account w.db) = none := by
    refine Option.eq_none_iff_forall_ne_some.mpr fun u hu => ?_
    obtain ⟨hmem, hemail, hactive⟩ := findAccountRow_eq_some hu
    exact hout.ne hmem hactive hemail
  have hins := users_oauthLogin_of_provisions ⟨hvalid, hnone⟩ sessionId
  exact ⟨_, (Sql.Table.mem_insert? hins).mpr (.inr rfl), rfl, rfl⟩

/-- An account that an admin has switched off. -/
def heidiOff : World :=
  { db := { users := (Sql.Table.empty.insert? fun id =>
      ({ id := id, email := "heidi@example.com", passwordHash := some "correct horse"
         isActive := false } : User)).getD .empty } }

/-- A verified social identity. -/
def googleIdentity (email : String) : OauthData where
  provider := "google"
  providerUserId := email
  email := email
  emailVerified := true

/-- The right password, a second sign-up, a reset link, and somebody else's identity. -/
theorem deactivated_of_run_heidi : ∃ log w,
    SignInRun .plain mailDemo (fun w r => ¬ r.ResolvesTo w.db "heidi@example.com") heidiOff log w ∧
      log.length = 1 ∧ (∀ t ∈ log, t.email ≠ "heidi@example.com") ∧
        sessionsOf w.db "heidi@example.com" = sessionsOf heidiOff.db "heidi@example.com" ∧
          Deactivated w.db "heidi@example.com" := by
  have hrun : SignInRun .plain mailDemo (fun w r => ¬ r.ResolvesTo w.db "heidi@example.com")
      heidiOff _ _ :=
    .serve (.serve (.serve (.serve .start
      (.login { email := "heidi@example.com", password := "correct horse" } "s1") id)
      (.register { fullName := "Heidi", email := "heidi@example.com", password := "new" }) id)
      (.forgot "heidi@example.com" "t1") id)
      (.oauth (googleIdentity "ivan@example.com") "s2") (by decide +kernel)
  exact ⟨_, _, hrun, by decide +kernel, deactivated_of_run (by decide) hrun⟩

/-- Her own verified identity signs her in again. -/
theorem deactivated_account_returns : Deactivated heidiOff.db "heidi@example.com" ∧
    ∃ log w, SignInRun .plain mailDemo (fun _ _ => True) heidiOff log w ∧
      (∃ t ∈ log, t.email = "heidi@example.com") ∧ ¬ Deactivated w.db "heidi@example.com" := by
  refine ⟨by decide, _, _, .serve .start (.oauth (googleIdentity "heidi@example.com") "s1") trivial,
    ?_, ?_⟩
  · decide +kernel
  · decide +kernel

end Feedbase
