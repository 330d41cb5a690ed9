import Feedbase.Common.SessionConcurrency
import Feedbase.Lib.Turns
import Feedbase.Users.Login
import Feedbase.Users.Passwords

/-!
# Logins across a password change

A login reads the hash of the account, compares, and opens its session some statements
later. A reset commits the new hash in one step and ends the account's sessions in another.
A login that has read the old hash and is still under way when the sessions end opens one
that nothing ends any more.

## Main definitions

* `PasswordRequest`, `passwordSystem`
* `PasswordChange` — a run in which one call sets the hash and ends the sessions

## Main results

* `reset_commits`, `adminReset_eq`, `adminReset_commits` — either reset sets the hash in one step,
  and has the sessions still to end
* `newLogins_of_change`
-/

namespace Feedbase

variable {crypto : Crypto} {email sid : String} {w w' : World}

/-! ### What a statement does to the sessions -/

/-- Every unrevoked session was one before. -/
def NoNewSession (w w' : World) : Prop :=
  ∀ s' ∈ w'.db.userSessions, s'.revokedAt = none →
    ∃ s ∈ w.db.userSessions, s.sessionId = s'.sessionId ∧ s.email = s'.email ∧ s.revokedAt = none

theorem NoNewSession.refl (w : World) : NoNewSession w w :=
  fun s hs hnone => ⟨s, hs, rfl, rfl, hnone⟩

theorem NoNewSession.of_eq (h : w'.db.userSessions = w.db.userSessions) : NoNewSession w w' :=
  fun s hs hnone => ⟨s, h ▸ hs, rfl, rfl, hnone⟩

theorem noNewSession_sessionsRevoked (w : World) (email : String) :
    NoNewSession w (w.sessionsRevoked email) := by
  intro s' hs' hnone
  simp only [World.sessionsRevoked, World.setSessions, Sql.Table.mem_update] at hs'
  obtain ⟨s, hs, rfl⟩ := hs'
  split at hnone
  · cases hnone
  · rename_i hp
    rw [if_neg hp]
    exact ⟨s, hs, rfl, rfl, hnone⟩

/-- The only new session is the one with the id. -/
def OpensOnly (email sid : String) (w w' : World) : Prop :=
  ∀ s' ∈ w'.db.userSessions, s'.revokedAt = none → (s'.sessionId = sid ∧ s'.email = email) ∨
    ∃ s ∈ w.db.userSessions, s.sessionId = s'.sessionId ∧ s.email = s'.email ∧ s.revokedAt = none

theorem opensOnly_insert {sessions : Sql.Table UserSession}
    (h : w.db.userSessions.insert? (newSession email sid w.now) = some sessions) :
    OpensOnly email sid w (w.setSessions sessions) := by
  intro s' hs' hnone
  rcases (Sql.Table.mem_insert? h).mp hs' with hs | rfl
  · exact .inr ⟨s', hs, rfl, rfl, hnone⟩
  · exact .inl ⟨rfl, rfl⟩

/-- The program opens no session, or the one with the id as its last action; it returns the
id of what it opened. -/
def Opens (email sid : String) : Handler (Option String) → Prop
  | .ret _ => True
  | .fail _ => True
  | .act _ next cont => ∀ w, (NoNewSession w (next w) ∧ Opens email sid (cont w)) ∨
      (OpensOnly email sid w (next w) ∧ cont w = .ret (some sid))

theorem opens_bind {α : Type} {p : Handler α} {f : α → Handler (Option String)}
    (hp : Prog.Within NoNewSession p) (hf : ∀ a, Opens email sid (f a)) :
    Opens email sid (p >>= f) := by
  rw [Prog.bind_eq]
  induction p with
  | ret a => exact hf a
  | fail e => trivial
  | act ready next cont ih => exact fun w => .inl ⟨(hp w).1, ih w (hp w).2⟩

section Start

variable {f : SessionStart → Handler (Option String)}

theorem opens_openSession (hf : f (.started sid) = .ret (some sid)) :
    Opens email sid (openSession email sid >>= f) := by
  intro w
  cases hins : w.db.userSessions.insert? (newSession email sid w.now) with
  | none =>
    refine .inl ?_
    dsimp only
    rw [hins]
    exact ⟨.refl w, trivial⟩
  | some sessions =>
    refine .inr ?_
    dsimp only
    rw [hins]
    exact ⟨opensOnly_insert hins, hf⟩

theorem opens_takeOver (hf : f (.started sid) = .ret (some sid)) :
    Opens email sid (takeOver email sid >>= f) := by
  rw [takeOver, bind_assoc]
  exact opens_bind (.write fun w => noNewSession_sessionsRevoked w email) fun _ =>
    opens_openSession hf

theorem opens_startSession (hf : f (.started sid) = .ret (some sid))
    (hblocked : ∀ live, Opens email sid (f (.blocked live))) (tenantId : Option Nat)
    (force : Bool) : Opens email sid (startSession email tenantId force sid >>= f) := by
  rw [startSession, bind_assoc]
  refine opens_bind ?_ fun multiDevice => ?_
  · cases tenantId with
    | none => exact .pure _
    | some id => exact .read .refl _
  split
  · exact opens_openSession hf
  rw [startSingle]
  split
  · exact opens_takeOver hf
  rw [bind_assoc]
  refine opens_bind (.read .refl _) fun live => ?_
  cases live with
  | none => exact opens_takeOver hf
  | some live => exact hblocked live

end Start

/-! ### The handlers -/

/-- A login, or a reset by the owner of the link or by a platform administrator. Random
values are part of the request. -/
inductive PasswordRequest where
  | login (data : LoginData) (sessionId : String)
  | reset (token newPassword salt : String)
  | adminReset (id : Nat) (newPassword salt : String)

/-- The session a login has opened; a reset opens none. -/
def passwordHandler (crypto : Crypto) : PasswordRequest → Handler (Option String)
  | .login data sessionId => do
    let reply ← userLogin crypto data sessionId
    return some reply.result.token.sid
  | .reset token newPassword salt => do
    let _ ← resetPassword crypto token newPassword salt
    return none
  | .adminReset id newPassword salt => do
    let _ ← resetUserPassword crypto id newPassword salt
    return none

theorem opens_userLogin (data : LoginData) (sid : String) :
    Opens data.email sid (passwordHandler crypto (.login data sid)) := by
  rw [passwordHandler, userLogin, bind_assoc]
  intro w
  refine .inl ⟨.refl w, ?_⟩
  dsimp only [query, Prog.read, Prog.atomic, Prog.step]
  cases huser : userLoginQuery w.db data.email data.tenantId with
  | none => trivial
  | some user =>
    have hemail : user.email = data.email := by
      have hp := List.find?_some huser
      simp only [Bool.and_eq_true, beq_iff_eq] at hp
      exact hp.1.1
    change Opens data.email sid ((if isPasswordCorrect crypto data.password user = false then
      reject 400 "invalid_email_or_password"
      else finishSignIn user data.force sid "user_logged_in_successfully") >>= fun reply =>
        pure (some reply.result.token.sid))
    split
    · trivial
    · rw [finishSignIn, bind_assoc, hemail]
      refine opens_startSession ?_ ?_ _ _
      · rfl
      · exact fun _ => trivial

/-- What a request's program may do to the sessions. -/
def PasswordRequest.Acts : PasswordRequest → Handler (Option String) → Prop
  | .login data sid, p => Opens data.email sid p
  | _, p => Prog.Within NoNewSession p

theorem within_resetPassword_noNew (token newPassword salt : String) :
    Prog.Within NoNewSession (resetPassword crypto token newPassword salt) := by
  refine .ite (.throw _) (.bind (within_timedTransaction .refl fun w email db htx => ?_)
    fun email => ?_)
  · obtain ⟨row, -, -, rfl⟩ := resetPasswordTx_ok htx
    exact .of_eq rfl
  · exact .bind (.write fun w => noNewSession_sessionsRevoked w email) fun _ => .pure _

theorem within_resetUserPassword_noNew (id : Nat) (newPassword salt : String) :
    Prog.Within NoNewSession (resetUserPassword crypto id newPassword salt) := by
  refine .ite (.throw _) (.bind (.read .refl _) fun found => ?_)
  cases found with
  | none => exact .throw _
  | some email =>
    refine .bind (.write fun w => .of_eq rfl) fun _ => .bind (.write fun w => ?_) fun _ => .pure _
    intro s hs hnone
    exact ⟨s, (Sql.Table.mem_delete.mp hs).1, rfl, rfl, hnone⟩

theorem acts_handler (r : PasswordRequest) : r.Acts (passwordHandler crypto r) := by
  cases r with
  | login data sid => exact opens_userLogin data sid
  | reset token newPassword salt =>
    exact .bind (within_resetPassword_noNew token newPassword salt) fun _ => .pure _
  | adminReset id newPassword salt =>
    exact .bind (within_resetUserPassword_noNew id newPassword salt) fun _ => .pure _

/-! ### Interleavings -/

/-- What happens between the statements of the calls: time passes, and requests of other
kinds open no session of the account they are for. -/
def PasswordEnv : Type := { f : World → World // ∀ w, NoNewSession w (f w) }

def passwordSystem (crypto : Crypto) :
    System World Failure (Option String) PasswordRequest PasswordEnv where
  handler := passwordHandler crypto
  env e := e.1

abbrev PasswordPool := Pool World Failure (Option String) PasswordRequest

abbrev PasswordCall := Call World Failure (Option String) PasswordRequest

/-- Any order of steps. -/
def AnyRun (crypto : Crypto) : PasswordPool → PasswordPool → Prop :=
  (passwordSystem crypto).Run fun _ _ => True

/-- A login of the account. -/
def PasswordRequest.IsLogin (email : String) : PasswordRequest → Prop
  | .login data _ => data.email = email
  | _ => False

/-- The next statement of the program ends every session of the account. -/
def EndsSessions (email : String) (p : Handler (Option String)) : Prop :=
  ∃ ready next cont, p = .act ready next cont ∧ ∀ w, unrevoked (next w).db email = 0

/-- A run in which call `g` sets the hash of every row of the account and later ends the
account's sessions. -/
structure PasswordChange (crypto : Crypto) (email hash : String) (g : Nat) (w₀ : World)
    (P₁ P₂ P₃ P₄ Q : PasswordPool) : Prop where
  before : AnyRun crypto ⟨w₀, []⟩ P₁
  commits : (passwordSystem crypto).move P₁ (.run g) = some P₂
  sets : P₂.state.db.users = (setPasswordHash email hash P₁.state.db).users
  between : AnyRun crypto P₂ P₃
  ends : ∃ c, P₃.calls[g]? = some c ∧ EndsSessions email c.prog
  revokes : (passwordSystem crypto).move P₃ (.run g) = some P₄
  after : AnyRun crypto P₄ Q

/-- The call had read the account's row when the new hash was committed. -/
def ReadBefore (crypto : Crypto) (P₁ : PasswordPool) (i : Nat) : Prop :=
  ∃ c, P₁.calls[i]? = some c ∧ Prog.Rest c.prog (passwordHandler crypto c.request)

variable {P P₁ P₂ P₃ P₄ Q : PasswordPool} {hash : String} {g : Nat} {w₀ : World}

/-- Every call of a run keeps to what its request may do. -/
theorem acts_of_run {P Q : PasswordPool} (hP : ∀ c ∈ P.calls, c.request.Acts c.prog)
    (h : AnyRun crypto P Q) : ∀ c ∈ Q.calls, c.request.Acts c.prog := by
  refine System.calls_of_run (S := passwordSystem crypto) (K := PasswordRequest.Acts) acts_handler
    ?_ hP h
  intro r ready next cont w hacts hready
  cases r with
  | login data sid =>
    rcases hacts w with ⟨-, hcont⟩ | ⟨-, hcont⟩
    · exact hcont
    · rw [hcont]
      trivial
  | reset token newPassword salt => exact (hacts w).2
  | adminReset id newPassword salt => exact (hacts w).2

/-- Every unrevoked session of the account was opened by a login that met `new`. -/
def OpenedBy (new : Nat → Prop) (email : String) (P : PasswordPool) : Prop :=
  ∀ s ∈ P.state.db.userSessions, s.email = email → s.revokedAt = none →
    ∃ i c data, P.calls[i]? = some c ∧ c.request = .login data s.sessionId ∧ data.email = email ∧
      c.outcome = some (.ok (some s.sessionId)) ∧ new i

/-- A move that opens no session and leaves the finished calls as they are. -/
theorem OpenedBy.of_noNew {new : Nat → Prop} (h : OpenedBy new email P)
    (hno : NoNewSession P.state Q.state)
    (hcalls : ∀ (i : Nat) (c : PasswordCall), P.calls[i]? = some c → c.outcome ≠ none →
      Q.calls[i]? = some c) :
    OpenedBy new email Q := by
  intro s' hs' hemail hnone
  obtain ⟨s, hs, hsid, hsemail, hsnone⟩ := hno s' hs' hnone
  obtain ⟨i, c, data, hc, hreq, hdata, hout, hnew⟩ := h s hs (hsemail.trans hemail) hsnone
  rw [hsid] at hreq hout
  exact ⟨i, c, data, hcalls i c hc (by rw [hout]; simp), hreq, hdata, hout, hnew⟩

theorem OpenedBy.move {new : Nat → Prop} (h : OpenedBy new email P)
    (hacts : ∀ c ∈ P.calls, c.request.Acts c.prog)
    (hnew : ∀ (i : Nat) (c : PasswordCall), P.calls[i]? = some c → c.request.IsLogin email →
      c.outcome = none → new i)
    {m : Move PasswordRequest PasswordEnv} (hm : (passwordSystem crypto).move P m = some Q) :
    OpenedBy new email Q := by
  have hcalls : ∀ (i : Nat) (c : PasswordCall), P.calls[i]? = some c → c.outcome ≠ none →
      Q.calls[i]? = some c := fun i c hc hout => System.getElem?_of_move hm hc hout
  rcases System.move_eq hm with
    ⟨r, -, rfl⟩ | ⟨e, -, rfl⟩ | ⟨i, ⟨r, since, p⟩, ready, next, cont, rfl, hc, hprog, -, rfl⟩
  · exact h.of_noNew (.refl _) hcalls
  · exact h.of_noNew (e.2 P.state) hcalls
  · have hact := hacts _ (List.mem_of_getElem? hc)
    obtain rfl : p = .act ready next cont := hprog
    cases r with
    | login data sid =>
      rcases hact P.state with ⟨hno, -⟩ | ⟨honly, hret⟩
      · exact h.of_noNew hno hcalls
      intro s' hs' hemail hnone
      rcases honly s' hs' hnone with ⟨hsid, hdata⟩ | ⟨s, hs, hsid, hsemail, hsnone⟩
      · -- the session the call has just opened
        have hlogin : data.email = email := hdata.symm.trans hemail
        have hset : (P.calls.set i ⟨.login data sid, since, cont P.state⟩)[i]? =
            some ⟨.login data sid, since, cont P.state⟩ :=
          List.getElem?_set_self (List.getElem?_eq_some_iff.mp hc).1
        refine ⟨i, _, data, hset, hsid ▸ rfl, hlogin, ?_, hnew i _ hc hlogin rfl⟩
        rw [hsid]
        unfold Call.outcome
        dsimp only
        rw [hret]
      · -- a session that was there before
        obtain ⟨j, c, data', hj, hreq, hdata, hout, hnewj⟩ :=
          h s hs (hsemail.trans hemail) hsnone
        rw [hsid] at hreq hout
        exact ⟨j, c, data', hcalls j c hj (by rw [hout]; simp), hreq, hdata, hout, hnewj⟩
    | reset token newPassword salt => exact h.of_noNew (hact P.state).1 hcalls
    | adminReset id newPassword salt => exact h.of_noNew (hact P.state).1 hcalls

theorem OpenedBy.run {new : Nat → Prop} (h : OpenedBy new email P)
    (hacts : ∀ c ∈ P.calls, c.request.Acts c.prog)
    (hnew : ∀ i : Nat, ¬ new i → ∃ c : PasswordCall, P.calls[i]? = some c ∧
      (c.request.IsLogin email → c.outcome ≠ none))
    (hrun : AnyRun crypto P Q) : OpenedBy new email Q := by
  induction hrun with
  | refl => exact h
  | @tail R R' hPR hstep ih =>
    obtain ⟨⟨m, hm⟩, -⟩ := hstep
    refine ih.move (acts_of_run hacts hPR) (fun i d hd hlogin hnone => ?_) hm
    by_contra hold
    obtain ⟨c, hc, hfinished⟩ := hnew i hold
    obtain ⟨d', hd', hreq⟩ := System.request_of_run hPR hc
    obtain rfl : d = d' := Option.some.inj (hd.symm.trans hd')
    have hout := hfinished (hreq ▸ hlogin)
    obtain rfl : d = c := Option.some.inj (hd.symm.trans (System.getElem?_of_run hPR hc hout))
    exact hout hnone

/-- When every login of the account that had read its row before the commit has finished by
the time the sessions end, each session left at the end was opened by a login that read the
row after the commit. -/
theorem newLogins_of_change (h : PasswordChange crypto email hash g w₀ P₁ P₂ P₃ P₄ Q)
    (hfinished : ∀ (i : Nat) (c : PasswordCall), ReadBefore crypto P₁ i → P₃.calls[i]? = some c →
      c.request.IsLogin email → c.outcome ≠ none) :
    ∀ s ∈ Q.state.db.userSessions, s.email = email → s.revokedAt = none →
      ∃ i c data, Q.calls[i]? = some c ∧ c.request = .login data s.sessionId ∧
        data.email = email ∧ c.outcome = some (.ok (some s.sessionId)) ∧
          ¬ ReadBefore crypto P₁ i := by
  have hstep {P Q : PasswordPool} {m : Move PasswordRequest PasswordEnv}
      (hm : (passwordSystem crypto).move P m = some Q) : AnyRun crypto P Q :=
    .single ⟨⟨m, hm⟩, trivial⟩
  have hrun₁₃ : AnyRun crypto P₁ P₃ := (hstep h.commits).trans h.between
  have hacts : ∀ c ∈ P₄.calls, c.request.Acts c.prog :=
    acts_of_run (fun c hc => by cases hc) ((h.before.trans hrun₁₃).trans (hstep h.revokes))
  -- right after the revocation the account has no session
  have hbase : OpenedBy (fun i => ¬ ReadBefore crypto P₁ i) email P₄ := by
    obtain ⟨c, hc, ready, next, cont, hprog, hends⟩ := h.ends
    rcases System.move_eq h.revokes with
      ⟨r, hr, -⟩ | ⟨e, he, -⟩ | ⟨i, d, ready', next', cont', hi, hd, hprog', -, hP₄⟩
    · cases hr
    · cases he
    · cases hi
      obtain rfl : c = d := Option.some.inj (hc.symm.trans hd)
      obtain ⟨-, rfl, -⟩ := Prog.act.inj (hprog.symm.trans hprog')
      intro s hs hemail hnone
      have hzero := hends P₃.state
      rw [hP₄] at hs
      have hno := List.countP_eq_zero.mp hzero s hs
      simp [hemail, hnone] at hno
  refine hbase.run hacts (fun i hold => ?_) h.after
  -- a login that had read the old hash was over before the revocation
  have hread : ReadBefore crypto P₁ i := not_not.mp hold
  obtain ⟨c₁, hc₁, -⟩ := hread
  obtain ⟨c₃, hc₃, -⟩ := System.request_of_run hrun₁₃ hc₁
  obtain ⟨c₄, hc₄, hreq⟩ := System.request_of_move h.revokes hc₃
  refine ⟨c₄, hc₄, fun hlogin => ?_⟩
  have hout := hfinished i c₃ (not_not.mp hold) hc₃ (hreq ▸ hlogin)
  obtain rfl : c₄ = c₃ :=
    Option.some.inj (hc₄.symm.trans (System.getElem?_of_move h.revokes hc₃ hout))
  exact hout

/-! ### The two resets -/

/-- `DELETE FROM user_sessions WHERE email = ?`. -/
def deleteSessions (email : String) (db : Db) : Db :=
  { db with userSessions := db.userSessions.delete (·.email == email) }

/-- What is left of a platform administrator's reset when it has found the address. -/
def adminCommit (email hash : String) : Handler (Option String) := do
  update (setPasswordHash email hash)
  update (deleteSessions email)
  return none

/-- What is left of a reset by link after its transaction. -/
def endSessions (email : String) : Handler (Option String) := do
  revokeSessionsForEmail email
  return none

theorem reset_eq {newPassword : String} (hlength : ¬ lengthUnits newPassword < 8)
    (token salt : String) :
    passwordHandler crypto (.reset token newPassword salt) =
      timedTransaction (resetPasswordTx crypto token (crypto.hash salt newPassword)) >>=
        endSessions := by
  rw [passwordHandler, resetPassword, if_neg hlength, bind_assoc]
  rfl

theorem adminReset_eq {newPassword : String} (hlength : ¬ lengthUnits newPassword < 8) (id : Nat)
    (salt : String) :
    passwordHandler crypto (.adminReset id newPassword salt) =
      query (emailOfUserId · id) >>= fun found =>
        match found with
        | none => reject 404 "user_not_found"
        | some email => adminCommit email (crypto.hash salt newPassword) := by
  rw [passwordHandler, resetUserPassword, if_neg hlength, bind_assoc]
  refine congrArg _ (funext fun found => ?_)
  cases found with
  | none => rfl
  | some email => rfl

theorem endsSessions_endSessions : EndsSessions email (endSessions email) :=
  ⟨_, _, _, rfl, fun _ => unrevoked_sessionsRevoked⟩

theorem endsSessions_delete :
    EndsSessions email (update (deleteSessions email) >>= fun _ => pure none) := by
  refine ⟨_, _, _, rfl, fun w => List.countP_eq_zero.mpr fun s hs => ?_⟩
  have hother := (Sql.Table.mem_delete.mp (show s ∈ w.db.userSessions.delete _ from hs)).2
  simp [hother]

/-- The transaction of a reset by link sets the hash and leads to the statement that ends
the sessions. -/
theorem reset_commits {token newPassword salt : String} {c : PasswordCall} {db : Db}
    (hc : P₁.calls[g]? = some c)
    (hprog : c.prog = passwordHandler crypto (.reset token newPassword salt))
    (hlength : ¬ lengthUnits newPassword < 8)
    (htx : resetPasswordTx crypto token (crypto.hash salt newPassword) P₁.state.now P₁.state.db =
      .ok (email, db)) :
    ∃ P₂, (passwordSystem crypto).move P₁ (.run g) = some P₂ ∧
      P₂.state.db.users =
        (setPasswordHash email (crypto.hash salt newPassword) P₁.state.db).users ∧
        ∃ d, P₂.calls[g]? = some d ∧ EndsSessions email d.prog := by
  rw [reset_eq hlength] at hprog
  refine ⟨_, System.move_run hc hprog rfl, ?_, _,
    List.getElem?_set_self (List.getElem?_eq_some_iff.mp hc).1, ?_⟩
  · dsimp only
    rw [htx]
    obtain ⟨row, -, -, rfl⟩ := resetPasswordTx_ok htx
    rfl
  · dsimp only
    rw [htx]
    exact endsSessions_endSessions

/-- The statement of an administrator's reset that sets the hash leads to the one that ends
the sessions. -/
theorem adminReset_commits {c : PasswordCall} (hc : P₁.calls[g]? = some c)
    (hprog : c.prog = adminCommit email hash) :
    ∃ P₂, (passwordSystem crypto).move P₁ (.run g) = some P₂ ∧
      P₂.state.db.users = (setPasswordHash email hash P₁.state.db).users ∧
        ∃ d, P₂.calls[g]? = some d ∧ EndsSessions email d.prog :=
  ⟨_, System.move_run hc hprog rfl, rfl, _,
    List.getElem?_set_self (List.getElem?_eq_some_iff.mp hc).1, endsSessions_delete⟩

/-! ### Runs on one account -/

/-- An account with a password, and a reset link on its way. -/
def graceForgets : World where
  db :=
    { users := (Sql.Table.empty.insert? fun id =>
        ({ id := id, email := "grace@example.com", passwordHash := some "old secret" } :
          User)).getD .empty
      passwordResets := (Sql.Table.empty.insert? fun id =>
        ({ id := id, email := "grace@example.com", tokenHash := "t0", expiresAt := 3600 } :
          PasswordReset)).getD .empty }

def graceLogsIn (password sessionId : String) : PasswordRequest :=
  .login { email := "grace@example.com", password := password } sessionId

def graceResets : PasswordRequest := .reset "t0" "new secret" "salt"

/-- The pool after the first `n` moves of a schedule that never has to wait. -/
def graceAfter (ms : List (Move PasswordRequest PasswordEnv)) (n : Nat) : PasswordPool :=
  ((passwordSystem .plain).schedule ⟨graceForgets, []⟩ (ms.take n)).getD ⟨graceForgets, []⟩

theorem run_graceAfter {P Q : PasswordPool} (ms : List (Move PasswordRequest PasswordEnv))
    (h : (passwordSystem .plain).schedule P ms = some Q) :
    (passwordSystem .plain).Run (fun _ _ => True) P Q := System.run_of_schedule h

/-- A login reads the old hash, the reset commits and ends the sessions, and then the login
goes on to open its session. -/
def loginAcrossReset : List (Move PasswordRequest PasswordEnv) :=
  [.arrive (graceLogsIn "old secret" "phone"), .arrive graceResets, .run 0, .run 1, .run 1,
    .run 0, .run 0, .run 0]

theorem change_loginAcrossReset :
    PasswordChange .plain "grace@example.com" "new secret" 1 graceForgets
      (graceAfter loginAcrossReset 3) (graceAfter loginAcrossReset 4)
      (graceAfter loginAcrossReset 4) (graceAfter loginAcrossReset 5)
      (graceAfter loginAcrossReset 8) where
  before := run_graceAfter (loginAcrossReset.take 3) rfl
  commits := rfl
  sets := rfl
  between := .refl
  ends := ⟨⟨graceResets, graceForgets, endSessions "grace@example.com"⟩, rfl,
    endsSessions_endSessions⟩
  revokes := rfl
  after := run_graceAfter [.run 0, .run 0, .run 0] rfl

theorem readBefore_loginAcrossReset : ReadBefore .plain (graceAfter loginAcrossReset 3) 0 := by
  have hmove : (passwordSystem .plain).move (graceAfter loginAcrossReset 2) (.run 0) =
    some (graceAfter loginAcrossReset 3) := rfl
  exact System.rest_of_move_run hmove rfl rfl

theorem stale_login_survives : ∃ P₁ P₂ P₃ P₄ Q : PasswordPool,
    PasswordChange .plain "grace@example.com" "new secret" 1 graceForgets P₁ P₂ P₃ P₄ Q ∧
      Q.Quiescent ∧ ReadBefore .plain P₁ 0 ∧
        ∃ s ∈ Q.state.db.userSessions, s.email = "grace@example.com" ∧ s.revokedAt = none ∧
          ∃ c, Q.calls[0]? = some c ∧ c.request = graceLogsIn "old secret" s.sessionId ∧
            c.outcome = some (.ok (some s.sessionId)) := by
  have hdone : (graceAfter loginAcrossReset 8).calls.all (·.outcome.isSome) = true := by
    decide +kernel
  obtain ⟨s, hs, hemail, hnone, hsid⟩ :
      ∃ s ∈ (graceAfter loginAcrossReset 8).state.db.userSessions.rows,
        s.email = "grace@example.com" ∧ s.revokedAt = none ∧ s.sessionId = "phone" := by
    decide +kernel
  have hcall : (graceAfter loginAcrossReset 8).calls[0]? =
    some ⟨graceLogsIn "old secret" "phone", graceForgets, .ret (some "phone")⟩ := rfl
  exact ⟨_, _, _, _, _, change_loginAcrossReset, fun c hc => List.all_eq_true.mp hdone c hc,
    readBefore_loginAcrossReset, s, hs, hemail, hnone, _, hcall, hsid ▸ rfl, hsid ▸ rfl⟩

/-- A login that ends before the reset, and one with the new password after it. -/
def loginsAroundReset : List (Move PasswordRequest PasswordEnv) :=
  [.arrive (graceLogsIn "old secret" "phone"), .run 0, .run 0, .run 0, .run 0,
    .arrive graceResets, .run 1, .run 1,
    .arrive (graceLogsIn "new secret" "laptop"), .run 2, .run 2, .run 2, .run 2]

theorem newLogins_of_change_around : ∃ P₁ Q : PasswordPool,
    Q.Quiescent ∧ (∃ s ∈ Q.state.db.userSessions, s.revokedAt = none) ∧
      ∀ s ∈ Q.state.db.userSessions, s.email = "grace@example.com" → s.revokedAt = none →
        ∃ i c data, Q.calls[i]? = some c ∧ c.request = .login data s.sessionId ∧
          data.email = "grace@example.com" ∧ c.outcome = some (.ok (some s.sessionId)) ∧
            ¬ ReadBefore .plain P₁ i := by
  have hchange : PasswordChange .plain "grace@example.com" "new secret" 1 graceForgets
      (graceAfter loginsAroundReset 6) (graceAfter loginsAroundReset 7)
      (graceAfter loginsAroundReset 7) (graceAfter loginsAroundReset 8)
      (graceAfter loginsAroundReset 13) :=
    { before := run_graceAfter (loginsAroundReset.take 6) rfl
      commits := rfl
      sets := rfl
      between := .refl
      ends := ⟨⟨graceResets, _, endSessions "grace@example.com"⟩, rfl, endsSessions_endSessions⟩
      revokes := rfl
      after := run_graceAfter (loginsAroundReset.drop 8) rfl }
  have hdone : (graceAfter loginsAroundReset 13).calls.all (·.outcome.isSome) = true := by
    decide +kernel
  have hlogins : ((graceAfter loginsAroundReset 7).calls.all fun c =>
      c.outcome.isSome || c.request matches .reset ..) = true := by decide +kernel
  refine ⟨_, _, fun c hc => List.all_eq_true.mp hdone c hc, ?_,
    newLogins_of_change hchange fun i c _ hc hlogin hnone => ?_⟩
  · show ∃ s ∈ (graceAfter loginsAroundReset 13).state.db.userSessions.rows, s.revokedAt = none
    decide +kernel
  · have hc' := List.all_eq_true.mp hlogins c (List.mem_of_getElem? hc)
    rw [hnone] at hc'
    obtain ⟨r, since, p⟩ := c
    cases r with
    | login data sid => cases hc'
    | reset token newPassword salt => cases hlogin
    | adminReset id newPassword salt => cases hlogin

end Feedbase
