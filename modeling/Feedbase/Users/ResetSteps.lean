import Feedbase.Lib.Points
import Feedbase.Users.InvitationSteps
import Feedbase.Users.PasswordReset

/-!
# Password resets, statement by statement

A request uses up the pending links of its account in one statement and stores a new link in
another one, and other calls act in between. A reset locks the row of its link until its
transaction ends. Its writes become visible with the `COMMIT`, so they are one action.

## Main definitions

* `requestSteps`, `resetSteps`
* `ResetPoint` — what a call has still to do
* `ResetStep` — what an action does to the links

## Main results

* `exec_requestSteps`, `exec_resetSteps`
* `points_reset` — every action leads to one of the points
-/

namespace Feedbase

variable {crypto : Crypto} {mail : MailEnv} {w w' : World} {email : String}

/-! ### The statements -/

/-- A statement that waits for the locks of rows; it may give up. -/
def waiting {α : Type} (site : Site) (locks : Db → List RowLock) (f : World → α × World) :
    Handler α :=
  Prog.step (fun w => w.fails site || w.free (locks w.db)) fun w =>
    if w.fails site then (.error .error, w) else (.ok (f w).1, (f w).2)

def PasswordReset.lock (r : PasswordReset) : RowLock := .passwordReset r.id

def PasswordReset.isPendingOf (email : String) (r : PasswordReset) : Bool :=
  r.email == email && !r.isUsed

/-- `UPDATE password_resets SET status = 'used' WHERE email = ? AND status = 'pending'`. -/
def invalidatePending (email : String) : Handler Unit :=
  waiting .passwordResetsUpdate
    (fun db => (db.passwordResets.rows.filter (PasswordReset.isPendingOf email)).map
      PasswordReset.lock)
    fun w => ((), { w with db := invalidateResets email w.db })

/-- The row of a new link. -/
def newLink (crypto : Crypto) (email rawToken : String) (now : Time) (id : Nat) :
    PasswordReset where
  id := id
  email := email
  tokenHash := crypto.hashToken rawToken
  expiresAt := now + resetSeconds

/-- `INSERT INTO password_resets …`. -/
def insertLink (crypto : Crypto) (email rawToken : String) (now : Time) : Handler Unit :=
  call .passwordResetsInsert fun w =>
    (w.db.passwordResets.insert? (newLink crypto email rawToken now)).map fun resets =>
      ((), { w with db := { w.db with passwordResets := resets } })

/-- `SELECT … WHERE token_hash = ? … FOR UPDATE`. -/
def lockReset (crypto : Crypto) (token : String) : Handler (Option PasswordReset) :=
  waiting .passwordResetsSelect
    (fun db => (db.passwordResets.rows.filter (·.tokenHash == crypto.hashToken token)).map
      PasswordReset.lock)
    fun w => match findLiveReset crypto w.db w.now token with
      | none => (none, w)
      | some row => (some row, w.locked [row.lock])

/-- The password of the account and the used link. -/
def Db.passwordReset (row : PasswordReset) (hash : String) (db : Db) : Db :=
  { setPasswordHash row.email hash db with
    passwordResets := db.passwordResets.update (·.id == row.id) PasswordReset.use
      PasswordReset.keyless_use }

/-- The writes of the transaction with its `COMMIT`. -/
def commitReset (row : PasswordReset) (hash : String) : Handler Unit :=
  call .resetCommit fun w =>
    some ((), { w with db := w.db.passwordReset row hash }.released [row.lock])

def rollbackReset (row : PasswordReset) (e : Failure) : Handler Unit := do
  Prog.write fun w => w.released [row.lock]
  throw e

/-! ### The handlers -/

/-- The part of `requestPasswordReset` behind its `UPDATE`. -/
def storeLink (crypto : Crypto) (mail : MailEnv) (email rawToken : String) : Handler Bool := do
  let now ← getNow
  insertLink crypto email rawToken now
  sendEmail mail

/-- The part of `requestPasswordReset` behind its `SELECT`; it mails an active account only. -/
def renewLink (crypto : Crypto) (mail : MailEnv) (email rawToken : String) (account : Bool) :
    Handler Bool :=
  if account then do
    invalidatePending email
    storeLink crypto mail email rawToken
  else pure false

/-- The reply of `requestPasswordReset`. -/
def answering (mail : MailEnv) (p : Handler Bool) : Handler (Reply ResetRequested) :=
  tryCatch
    (do
      let emailSent ← p
      resolve 200 "reset_email_sent" ⟨emailSent, isMailConfigured mail⟩)
    fun _ => reject 500 "something_went_wrong"

/-- `requestPasswordReset`. -/
def requestSteps (crypto : Crypto) (mail : MailEnv) (email rawToken : String) :
    Handler (Reply ResetRequested) :=
  let normalized := normalizeEmail email
  if isEmail normalized = false then
    resolve 200 "reset_email_sent" ⟨false, isMailConfigured mail⟩
  else
    answering mail do
      let account ← selectAt .usersSelect fun db => hasActiveAccount db normalized
      renewLink crypto mail normalized rawToken account

/-- The updates and the `COMMIT` of `resetPassword`. -/
def setPassword (row : PasswordReset) (hash : String) : Handler Unit :=
  tryCatch
    (do
      call .usersUpdate fun w => some ((), w)
      call .passwordResetsUpdate fun w => some ((), w)
      commitReset row hash)
    (rollbackReset row)

/-- The transaction of `resetPassword` behind its locking read: the account whose password was
set. -/
def consumeFound (hash : String) : Option PasswordReset → Handler String
  | none => reject 404 "invalid_or_expired_reset_token"
  | some row => do
    setPassword row hash
    return row.email

def consumeLink (crypto : Crypto) (token hash : String) : Handler String := do
  let row ← lockReset crypto token
  consumeFound hash row

/-- The part of `resetPassword` behind its `COMMIT`. -/
def logOutEverywhere (email : String) : Handler (Reply Unit) := do
  revokeSessionsForEmail email
  resolve 200 "password_reset_successful" ()

def inTransaction (p : Handler String) : Handler (Reply Unit) := do
  let email ← tryCatch p (failWith "failed_to_change_password")
  logOutEverywhere email

/-- `resetPassword`. -/
def resetSteps (crypto : Crypto) (token newPassword salt : String) : Handler (Reply Unit) :=
  if lengthUnits newPassword < 8 then reject 400 "password_too_short"
  else do
    call .getConnection fun w => some ((), w)
    inTransaction (consumeLink crypto token (crypto.hash salt newPassword))

/-! ### Without a concurrent call -/

theorem exec_waiting {α : Type} {site : Site} {locks : Db → List RowLock} {f : World → α × World}
    (hfails : w.fails site = false) :
    (waiting site locks f).exec w = (.ok (f w).1, (f w).2) := by
  rw [waiting, Prog.exec_step, hfails]
  rfl

/-- What follows the `SELECT` when no statement fails, and the same in one go. -/
theorem exec_renewLink (crypto : Crypto) (mail : MailEnv) (email rawToken : String)
    (hupdates : w.fails .passwordResetsUpdate = false)
    (hinserts : w.fails .passwordResetsInsert = false) :
    (renewLink crypto mail email rawToken true).exec w =
        (sendResetLink crypto mail email rawToken).exec w ∨
      (renewLink crypto mail email rawToken true).exec w =
          (.error .error, { w with db := invalidateResets email w.db }) ∧
        (sendResetLink crypto mail email rawToken).exec w =
          (.error .duplicate, { w with db := invalidateResets email w.db }) := by
  have hupdate : (invalidatePending email).exec w =
      (.ok (), { w with db := invalidateResets email w.db }) := exec_waiting hupdates
  have hrenew : (renewLink crypto mail email rawToken true).exec w =
      (storeLink crypto mail email rawToken).exec { w with db := invalidateResets email w.db } := by
    rw [renewLink, if_pos rfl, Prog.exec_bind, hupdate]
  rw [hrenew]
  unfold storeLink sendResetLink insertLink update
  rw [Prog.exec_write_bind, exec_getNow_bind, exec_getNow_bind, Prog.exec_bind, Prog.exec_bind,
    exec_call, exec_keyed]
  dsimp only
  rw [hinserts, if_neg (by decide)]
  -- the token's hash is new, or the statement throws
  cases hrows : (invalidateResets email w.db).passwordResets.insert?
      (newLink crypto email rawToken w.now) with
  | none =>
    right
    unfold newLink at hrows
    rw [hrows]
    exact ⟨rfl, rfl⟩
  | some resets =>
    left
    unfold newLink at hrows
    rw [hrows]
    rfl

/-- When no statement fails, a request does what it does in one go. -/
theorem exec_requestSteps {rawToken : String}
    (hfails : ∀ site, site ≠ .sendEmail → w.fails site = false) :
    (requestSteps crypto mail email rawToken).exec w =
      (requestPasswordReset crypto mail email rawToken).exec w := by
  unfold requestSteps requestPasswordReset answering
  dsimp only
  generalize normalizeEmail email = normalized
  by_cases hmalformed : isEmail normalized = false
  · rw [if_pos hmalformed, if_pos hmalformed]
  rw [if_neg hmalformed, if_neg hmalformed, Prog.exec_tryCatch, Prog.exec_tryCatch, exec_query_bind,
    Prog.exec_bind, exec_selectAt_bind, hfails .usersSelect (by decide), if_neg (by decide)]
  cases hasActiveAccount w.db normalized with
  | false => rfl
  | true =>
    rw [if_pos rfl, Prog.exec_bind]
    rcases exec_renewLink crypto mail normalized rawToken
        (hfails .passwordResetsUpdate (by decide)) (hfails .passwordResetsInsert (by decide))
      with heq | ⟨hrenew, hsend⟩
    · rw [heq]
    · rw [hrenew, hsend]

/-- The transaction behind its locking read writes both tables and gives the lock back. -/
theorem exec_setPassword {row : PasswordReset} {hash : String}
    (hfails : ∀ site, w.fails site = false) (hfree : row.lock ∉ w.rowLocks) :
    (setPassword row hash).exec (w.locked [row.lock]) =
      (.ok (), { w with db := w.db.passwordReset row hash }) := by
  have hlocks : World.free w [row.lock] = true := by simpa [World.free] using hfree
  have hreleased : ({ w with db := w.db.passwordReset row hash }.locked [row.lock]).released
      [row.lock] = { w with db := w.db.passwordReset row hash } := released_locked hlocks
  have hsite : ∀ site, (w.locked [row.lock]).fails site = false := hfails
  rw [setPassword, Prog.exec_tryCatch, Prog.exec_bind, exec_call, hsite, if_neg (by decide)]
  dsimp only
  rw [Prog.exec_bind, exec_call, hsite, if_neg (by decide)]
  dsimp only
  rw [commitReset, exec_call, hsite, if_neg (by decide)]
  exact congrArg (Prod.mk _) hreleased

/-- A reset that no other call holds up does what its transaction does. -/
theorem exec_resetSteps {token newPassword salt : String}
    (hfails : ∀ site, w.fails site = false)
    (hfree : ∀ r ∈ w.db.passwordResets, r.lock ∉ w.rowLocks) :
    (resetSteps crypto token newPassword salt).exec w =
      (resetPassword crypto token newPassword salt).exec w := by
  unfold resetSteps resetPassword inTransaction consumeLink
  by_cases hshort : lengthUnits newPassword < 8
  · rw [if_pos hshort, if_pos hshort]
  rw [if_neg hshort, if_neg hshort, Prog.exec_bind, exec_call, hfails .getConnection,
    if_neg (by decide)]
  dsimp only
  rw [Prog.exec_bind, Prog.exec_bind, Prog.exec_tryCatch, Prog.exec_bind,
    exec_timedTransaction, resetPasswordTx, lockReset, exec_waiting (hfails .passwordResetsSelect)]
  cases hfound : findLiveReset crypto w.db w.now token with
  | none => rfl
  | some row =>
    dsimp only
    rw [consumeFound, Prog.exec_bind,
      exec_setPassword hfails (hfree row (List.mem_of_find?_eq_some hfound))]
    rfl

/-! ### The points of a call -/

inductive ResetRequest where
  | requestPasswordReset (mail : MailEnv) (email rawToken : String)
  | resetPassword (token newPassword salt : String)

def resetHandler (crypto : Crypto) : ResetRequest → Handler Unit
  | .requestPasswordReset mail email rawToken =>
    withoutReply (requestSteps crypto mail email rawToken)
  | .resetPassword token newPassword salt =>
    withoutReply (resetSteps crypto token newPassword salt)

/-- What a call has still to do, named after its next statement. -/
inductive ResetPoint where
  | looksUp (mail : MailEnv) (email rawToken : String)
  | invalidates (mail : MailEnv) (email rawToken : String)
  | dates (mail : MailEnv) (email rawToken : String)
  | stores (mail : MailEnv) (email rawToken : String) (now : Time)
  | mails (mail : MailEnv)
  | connects (token hash : String)
  | locks (token hash : String)
  | setsUsers (row : PasswordReset) (hash : String)
  | setsReset (row : PasswordReset) (hash : String)
  | commits (row : PasswordReset) (hash : String)
  | rollsBack (row : PasswordReset)
  | revokes (row : PasswordReset)
  | hasReset (row : PasswordReset)
  | failed (e : Failure)
  | answered

namespace ResetPoint

def prog (crypto : Crypto) : ResetPoint → Handler Unit
  | looksUp mail email rawToken => withoutReply (answering mail do
      let account ← selectAt .usersSelect fun db => hasActiveAccount db email
      renewLink crypto mail email rawToken account)
  | invalidates mail email rawToken =>
    withoutReply (answering mail (renewLink crypto mail email rawToken true))
  | dates mail email rawToken =>
    withoutReply (answering mail (storeLink crypto mail email rawToken))
  | stores mail email rawToken now => withoutReply (answering mail do
      insertLink crypto email rawToken now
      sendEmail mail)
  | mails mail => withoutReply (answering mail (sendEmail mail))
  | connects token hash => withoutReply do
      call .getConnection fun w => some ((), w)
      inTransaction (consumeLink crypto token hash)
  | locks token hash => withoutReply (inTransaction (consumeLink crypto token hash))
  | setsUsers row hash => withoutReply (inTransaction (consumeFound hash (some row)))
  | setsReset row hash => withoutReply (inTransaction do
      tryCatch (do
        call .passwordResetsUpdate fun w => some ((), w)
        commitReset row hash) (rollbackReset row)
      return row.email)
  | commits row hash => withoutReply (inTransaction do
      tryCatch (commitReset row hash) (rollbackReset row)
      return row.email)
  | rollsBack row => withoutReply (inTransaction do
      rollbackReset row .error
      return row.email)
  | revokes row => withoutReply (logOutEverywhere row.email)
  | hasReset _ => pure ()
  | failed e => throw e
  | answered => pure ()

/-- The link that a call has locked. -/
def held : ResetPoint → Option PasswordReset
  | setsUsers row _ | setsReset row _ | commits row _ | rollsBack row => some row
  | _ => none

/-- The link that a call has set a password with. -/
def used : ResetPoint → Option PasswordReset
  | revokes row | hasReset row => some row
  | _ => none

/-- The link that a call has locked or used. -/
def owns (φ : ResetPoint) : Option PasswordReset := φ.held.or φ.used

/-- The account that a call stores a link for next. -/
def awaits : ResetPoint → Option String
  | dates _ email _ | stores _ email _ _ => some email
  | _ => none

end ResetPoint

def ResetRequest.token : ResetRequest → Option String
  | .requestPasswordReset .. => none
  | .resetPassword token _ _ => some token

/-- The point is one of a call with the request. -/
def ResetPoint.Fits (crypto : Crypto) (r : ResetRequest) : ResetPoint → Prop
  | looksUp .. | invalidates .. | dates .. | stores .. | mails .. | answered => r.token = none
  | connects token _ | locks token _ => r.token = some token
  | setsUsers row _ | setsReset row _ | commits row _ | rollsBack row | revokes row
  | hasReset row => r.token.map crypto.hashToken = some row.tokenHash
  | failed _ => True

/-- The links and the row locks are as before. -/
structure SameLinks (w w' : World) : Prop where
  passwordResets : w'.db.passwordResets = w.db.passwordResets
  rowLocks : w'.rowLocks = w.rowLocks

/-- What an action does to the links. -/
inductive ResetStep (crypto : Crypto) : ResetPoint → World → ResetPoint → World → Prop where
  | quiet {φ φ' : ResetPoint} {w w' : World} (hsame : SameLinks w w') (hheld : φ'.held = φ.held)
      (hused : φ'.used = φ.used) (hawaits : φ'.awaits = φ.awaits ∨ φ'.awaits = none) :
      ResetStep crypto φ w φ' w'
  | invalidates {mail : MailEnv} {email rawToken : String} {w : World}
      (hfree : ∀ r ∈ w.db.passwordResets, r.isPendingOf email → r.lock ∉ w.rowLocks) :
      ResetStep crypto (.invalidates mail email rawToken) w (.dates mail email rawToken)
        { w with db := invalidateResets email w.db }
  | stores {mail : MailEnv} {email rawToken : String} {now : Time} {w : World}
      {resets : Sql.Table PasswordReset}
      (hinsert : w.db.passwordResets.insert? (newLink crypto email rawToken now) = some resets) :
      ResetStep crypto (.stores mail email rawToken now) w (.mails mail)
        { w with db := { w.db with passwordResets := resets } }
  | locks {token hash : String} {row : PasswordReset} {w : World}
      (hrow : row ∈ w.db.passwordResets) (hpending : row.isUsed = false)
      (hfree : row.lock ∉ w.rowLocks) :
      ResetStep crypto (.locks token hash) w (.setsUsers row hash) (w.locked [row.lock])
  | commits {row : PasswordReset} {hash : String} {w : World} :
      ResetStep crypto (.commits row hash) w (.revokes row)
        ({ w with db := w.db.passwordReset row hash }.released [row.lock])
  | rollsBack {row : PasswordReset} {e : Failure} {w : World} :
      ResetStep crypto (.rollsBack row) w (.failed e) (w.released [row.lock])

/-- An action of one call. -/
structure ResetMove (crypto : Crypto) (φ : ResetPoint) (w : World) (φ' : ResetPoint)
    (w' : World) : Prop where
  step : ResetStep crypto φ w φ' w'
  now : w'.now = w.now
  fits : ∀ r, φ.Fits crypto r → φ'.Fits crypto r

section

variable {φ φ' : ResetPoint}

/-- An action that changes neither the links nor the locks. -/
theorem ResetMove.quiet (hsame : SameLinks w w') (hheld : φ'.held = φ.held)
    (hused : φ'.used = φ.used) (hawaits : φ'.awaits = φ.awaits ∨ φ'.awaits = none)
    (hnow : w'.now = w.now) (hfits : ∀ r, φ.Fits crypto r → φ'.Fits crypto r) :
    ResetMove crypto φ w φ' w' :=
  ⟨.quiet hsame hheld hused hawaits, hnow, hfits⟩

/-- An action that only reads. -/
theorem ResetMove.reads (hheld : φ'.held = φ.held) (hused : φ'.used = φ.used)
    (hawaits : φ'.awaits = φ.awaits ∨ φ'.awaits = none)
    (hfits : ∀ r, φ.Fits crypto r → φ'.Fits crypto r) : ResetMove crypto φ w φ' w :=
  .quiet ⟨rfl, rfl⟩ hheld hused hawaits rfl hfits

/-- A statement that throws leaves nothing to do to a call without a lock. -/
theorem ResetMove.failed (hheld : φ.held = none) (hused : φ.used = none) (e : Failure) :
    ResetMove crypto φ w (.failed e) w :=
  .reads hheld.symm hused.symm (.inr rfl) fun _ _ => trivial

end

/-- The points after a statement that may throw. -/
theorem leadsOn_call {α : Type} {φ : ResetPoint} {K : Handler α → Handler Unit} (hK : Frame K)
    {site : Site} {f : World → Option (α × World)}
    (hthrow : ∀ w, ∃ φ', K (throw .error) = φ'.prog crypto ∧ ResetMove crypto φ w φ' w)
    (hdone : ∀ w a w', f w = some (a, w') →
      ∃ φ', K (pure a) = φ'.prog crypto ∧ ResetMove crypto φ w φ' w') :
    LeadsOn (ResetPoint.prog crypto) (ResetMove crypto) φ (K (call site f)) := by
  refine leadsOn_step hK fun w _ => ?_
  dsimp only
  by_cases hfails : w.fails site = true
  · rw [if_pos hfails]
    exact hthrow w
  · rw [if_neg hfails]
    cases hf : f w with
    | none => exact hthrow w
    | some r => exact hdone w r.1 r.2 hf

/-- The points after a statement that waits for locks. -/
theorem leadsOn_waiting {α : Type} {φ : ResetPoint} {K : Handler α → Handler Unit} (hK : Frame K)
    {site : Site} {locks : Db → List RowLock} {f : World → α × World}
    (hthrow : ∀ w, ∃ φ', K (throw .error) = φ'.prog crypto ∧ ResetMove crypto φ w φ' w)
    (hdone : ∀ w, w.free (locks w.db) = true →
      ∃ φ', K (pure (f w).1) = φ'.prog crypto ∧ ResetMove crypto φ w φ' (f w).2) :
    LeadsOn (ResetPoint.prog crypto) (ResetMove crypto) φ (K (waiting site locks f)) := by
  refine leadsOn_step hK fun w hready => ?_
  by_cases hfails : w.fails site = true
  · rw [if_pos hfails]
    exact hthrow w
  · rw [if_neg hfails]
    have hfree : w.free (locks w.db) = true := by simpa [hfails] using hready
    exact hdone w hfree

theorem not_mem_of_free {l : RowLock} {locks : List RowLock} (hfree : w.free locks = true)
    (hl : l ∈ locks) : l ∉ w.rowLocks := by
  have hall := List.all_eq_true.mp hfree l hl
  simpa using hall

/-- Every action of the two handlers leads to one of the points. -/
theorem points_reset : Points (ResetPoint.prog crypto) (ResetMove crypto) := by
  intro φ
  cases φ with
  | looksUp mail email rawToken =>
    refine leadsOn_call (K := fun p => withoutReply (answering mail (p >>=
      renewLink crypto mail email rawToken)))
      (fun _ _ _ => rfl) (fun w => ⟨.failed _, rfl, .failed rfl rfl _⟩) fun w account w' hw => ?_
    obtain ⟨-, rfl⟩ := Prod.mk.inj (Option.some.inj hw)
    cases account with
    -- the handler goes on only for a known account, and answers alike
    | true => exact ⟨.invalidates mail email rawToken, rfl, .reads rfl rfl (.inl rfl) fun _ h => h⟩
    | false => exact ⟨.answered, rfl, .reads rfl rfl (.inl rfl) fun _ h => h⟩
  | invalidates mail email rawToken =>
    refine leadsOn_waiting (K := fun p => withoutReply (answering mail (p >>= fun _ =>
      storeLink crypto mail email rawToken)))
      (fun _ _ _ => rfl) (fun w => ⟨.failed _, rfl, .failed rfl rfl _⟩) fun w hfree => ?_
    refine ⟨.dates mail email rawToken, rfl, .invalidates fun r hr hp => ?_, rfl, fun _ h => h⟩
    exact not_mem_of_free hfree (List.mem_map_of_mem (List.mem_filter.mpr ⟨hr, hp⟩))
  | dates mail email rawToken =>
    refine leadsOn_step (K := fun p => withoutReply (answering mail (p >>= fun now => do
      insertLink crypto email rawToken now
      sendEmail mail))) (fun _ _ _ => rfl) fun w _ => ?_
    exact ⟨.stores mail email rawToken w.now, rfl, .reads rfl rfl (.inl rfl) fun _ h => h⟩
  | stores mail email rawToken now =>
    refine leadsOn_call (K := fun p => withoutReply (answering mail (p >>= fun _ =>
      sendEmail mail)))
      (fun _ _ _ => rfl) (fun w => ⟨.failed _, rfl, .reads rfl rfl (.inr rfl) fun _ _ => trivial⟩)
      fun w _ w' hw => ?_
    obtain ⟨resets, hinsert, hw⟩ := Option.map_eq_some_iff.mp hw
    cases hw
    exact ⟨.mails mail, rfl, .stores hinsert, rfl, fun _ h => h⟩
  | mails mail =>
    refine leadsOn_step (K := fun p => withoutReply (answering mail p)) (fun _ _ _ => rfl)
      fun w _ => ?_
    exact ⟨.answered, rfl, .reads rfl rfl (.inl rfl) fun _ h => h⟩
  | connects token hash =>
    refine leadsOn_call (K := fun p => withoutReply (p >>= fun _ =>
      inTransaction (consumeLink crypto token hash)))
      (fun _ _ _ => rfl) (fun w => ⟨.failed _, rfl, .failed rfl rfl _⟩) fun w _ w' hw => ?_
    cases hw
    exact ⟨.locks token hash, rfl, .reads rfl rfl (.inl rfl) fun _ h => h⟩
  | locks token hash =>
    refine leadsOn_waiting (K := fun p => withoutReply (inTransaction (p >>= consumeFound hash)))
      (fun _ _ _ => rfl) (fun w => ⟨.failed _, rfl, .failed rfl rfl _⟩) fun w hfree => ?_
    cases hfound : findLiveReset crypto w.db w.now token with
    | none => exact ⟨.failed _, rfl, .failed rfl rfl _⟩
    | some row =>
      have hrow := List.mem_of_find?_eq_some hfound
      have hlive := List.find?_some hfound
      simp only [Bool.and_eq_true, Bool.not_eq_true'] at hlive
      refine ⟨.setsUsers row hash, rfl, .locks hrow hlive.1.2 ?_, rfl, fun r h => ?_⟩
      · exact not_mem_of_free hfree (List.mem_map_of_mem (List.mem_filter.mpr ⟨hrow, hlive.1.1⟩))
      · have htoken : r.token = some token := h
        have hhash : row.tokenHash = crypto.hashToken token := beq_iff_eq.mp hlive.1.1
        change r.token.map crypto.hashToken = some row.tokenHash
        rw [htoken, hhash]
        rfl
  -- inside the transaction a failure leads to the rollback
  | setsUsers row hash =>
    refine leadsOn_call (K := fun p => withoutReply (inTransaction (tryCatch (p >>= fun _ => do
      call .passwordResetsUpdate fun w => some ((), w)
      commitReset row hash) (rollbackReset row) >>= fun _ => pure row.email)))
      (fun _ _ _ => rfl) (fun w => ⟨.rollsBack row, rfl, .reads rfl rfl (.inl rfl) fun _ h => h⟩)
      fun w _ w' hw => ?_
    cases hw
    exact ⟨.setsReset row hash, rfl, .reads rfl rfl (.inl rfl) fun _ h => h⟩
  | setsReset row hash =>
    refine leadsOn_call (K := fun p => withoutReply (inTransaction (tryCatch (p >>= fun _ =>
      commitReset row hash) (rollbackReset row) >>= fun _ => pure row.email)))
      (fun _ _ _ => rfl) (fun w => ⟨.rollsBack row, rfl, .reads rfl rfl (.inl rfl) fun _ h => h⟩)
      fun w _ w' hw => ?_
    cases hw
    exact ⟨.commits row hash, rfl, .reads rfl rfl (.inl rfl) fun _ h => h⟩
  | commits row hash =>
    refine leadsOn_call (K := fun p => withoutReply (inTransaction (tryCatch p (rollbackReset row)
      >>= fun _ => pure row.email)))
      (fun _ _ _ => rfl) (fun w => ⟨.rollsBack row, rfl, .reads rfl rfl (.inl rfl) fun _ h => h⟩)
      fun w _ w' hw => ?_
    cases hw
    exact ⟨.revokes row, rfl, .commits, rfl, fun _ h => h⟩
  | rollsBack row =>
    refine leadsOn_step (K := fun p => withoutReply (inTransaction ((p >>= fun _ =>
      (throw .error : Handler Unit)) >>= fun _ => pure row.email))) (fun _ _ _ => rfl) fun w _ => ?_
    exact ⟨.failed _, rfl, .rollsBack, rfl, fun _ _ => trivial⟩
  | revokes row =>
    refine leadsOn_step (K := fun p => withoutReply (p >>= fun _ =>
      resolve 200 "password_reset_successful" ())) (fun _ _ _ => rfl) fun w _ => ?_
    exact ⟨.hasReset row, rfl, .quiet ⟨rfl, rfl⟩ rfl rfl (.inl rfl) rfl fun _ h => h⟩
  | hasReset row => exact leadsOn_ret ()
  | failed e => exact leadsOn_fail e
  | answered => exact leadsOn_ret ()

/-- The point a request starts at. -/
def ResetRequest.start (crypto : Crypto) : ResetRequest → ResetPoint
  | .requestPasswordReset mail email rawToken =>
    let normalized := normalizeEmail email
    if isEmail normalized = false then .answered else .looksUp mail normalized rawToken
  | .resetPassword token newPassword salt =>
    if lengthUnits newPassword < 8 then .failed (.rejected 400 "password_too_short")
    else .connects token (crypto.hash salt newPassword)

theorem resetHandler_eq (r : ResetRequest) :
    resetHandler crypto r = (r.start crypto).prog crypto := by
  cases r with
  | requestPasswordReset mail email rawToken =>
    dsimp only [resetHandler, requestSteps, ResetRequest.start]
    split
    · rfl
    · rfl
  | resetPassword token newPassword salt =>
    dsimp only [resetHandler, resetSteps, ResetRequest.start]
    split
    · rfl
    · rfl

theorem start_requestPasswordReset (crypto : Crypto) (mail : MailEnv) (email rawToken : String) :
    (ResetRequest.requestPasswordReset mail email rawToken).start crypto = .answered ∨
      (ResetRequest.requestPasswordReset mail email rawToken).start crypto =
        .looksUp mail (normalizeEmail email) rawToken := by
  dsimp only [ResetRequest.start]
  split
  · exact .inl rfl
  · exact .inr rfl

theorem start_resetPassword (crypto : Crypto) (token newPassword salt : String) :
    (∃ e, (ResetRequest.resetPassword token newPassword salt).start crypto = .failed e) ∨
      (ResetRequest.resetPassword token newPassword salt).start crypto =
        .connects token (crypto.hash salt newPassword) := by
  dsimp only [ResetRequest.start]
  split
  · exact .inl ⟨_, rfl⟩
  · exact .inr rfl

/-- A call starts without a link. -/
theorem start_spec (crypto : Crypto) (r : ResetRequest) : (r.start crypto).Fits crypto r ∧
    (r.start crypto).owns = none ∧ (r.start crypto).awaits = none := by
  generalize hφ : r.start crypto = φ
  cases r with
  | requestPasswordReset mail email rawToken =>
    have hcases := start_requestPasswordReset crypto mail email rawToken
    rw [hφ] at hcases
    rcases hcases with rfl | rfl
    · exact ⟨rfl, rfl, rfl⟩
    · exact ⟨rfl, rfl, rfl⟩
  | resetPassword token newPassword salt =>
    have hcases := start_resetPassword crypto token newPassword salt
    rw [hφ] at hcases
    rcases hcases with ⟨e, rfl⟩ | rfl
    · exact ⟨trivial, rfl, rfl⟩
    · exact ⟨rfl, rfl, rfl⟩

end Feedbase
