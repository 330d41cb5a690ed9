import Feedbase.Common.Credentials
import Feedbase.Common.Strings

/-!
# Self-service password reset

A request mails a link when an active account has the address, and reports in its reply
whether a mail was sent.

## Main definitions

* `requestPasswordReset`, `resetPassword`

## Main results

* `requestPasswordReset_eq_iff` — two states answer alike when both or neither hold an
  active account
-/

namespace Feedbase

variable {crypto : Crypto} {mail : MailEnv} {w w₁ w₂ : World}

/-- `RESET_TTL_MINUTES`, in seconds. -/
def resetSeconds : Time := 60 * 60

/-- What `requestPasswordReset` resolves with. -/
structure ResetRequested where
  emailSent : Bool
  mailConfigured : Bool
  deriving DecidableEq

/-- `SELECT … FROM users WHERE email = ? AND is_active = 1`. -/
def hasActiveAccount (db : Db) (email : String) : Bool :=
  db.users.rows.any fun u => u.email == email && u.isActive

theorem hasActiveAccount_iff {db : Db} {email : String} :
    hasActiveAccount db email = true ↔ ∃ u ∈ db.users, u.email = email ∧ u.isActive := by
  simp [hasActiveAccount, Sql.Table.mem_def]

/-- `SET status = 'used'`. -/
def PasswordReset.use (r : PasswordReset) : PasswordReset := { r with isUsed := true }

theorem PasswordReset.keyless_use : Sql.Table.Keyless PasswordReset.use :=
  ⟨fun _ => rfl, fun _ _ => rfl⟩

/-- Every pending link of the account is used up. -/
def invalidateResets (email : String) (db : Db) : Db :=
  { db with
    passwordResets := db.passwordResets.update (fun r => r.email == email && !r.isUsed)
      PasswordReset.use PasswordReset.keyless_use }

/-- Replace the account's pending link by a new one and mail it. -/
def sendResetLink (crypto : Crypto) (mail : MailEnv) (email rawToken : String) : Handler Bool := do
  update (invalidateResets email)
  let now ← getNow
  keyed fun db => (db.passwordResets.insert? fun id =>
    { id := id
      email := email
      tokenHash := crypto.hashToken rawToken
      expiresAt := now + resetSeconds }).map fun resets => { db with passwordResets := resets }
  sendEmail mail

/-- `String(email || "").trim().toLowerCase()`. -/
def normalizeEmail (email : String) : String := toLowerCase (trim email)

/-- `requestPasswordReset`; the token is random. -/
def requestPasswordReset (crypto : Crypto) (mail : MailEnv) (email rawToken : String) :
    Handler (Reply ResetRequested) :=
  let normalized := normalizeEmail email
  if isEmail normalized = false then
    resolve 200 "reset_email_sent" ⟨false, isMailConfigured mail⟩
  else
    tryCatch
      (do
        let account ← query fun db => hasActiveAccount db normalized
        let emailSent ←
          if account then sendResetLink crypto mail normalized rawToken else pure false
        resolve 200 "reset_email_sent" ⟨emailSent, isMailConfigured mail⟩)
      fun _ => reject 500 "something_went_wrong"

/-- The pending, unexpired reset of a raw token. -/
def findLiveReset (crypto : Crypto) (db : Db) (now : Time) (token : String) :
    Option PasswordReset :=
  db.passwordResets.rows.find? fun r =>
    r.tokenHash == crypto.hashToken token && !r.isUsed && decide (now < r.expiresAt)

/-- `SET password_hash = ?`. -/
def User.setHash (hash : String) (u : User) : User := { u with passwordHash := some hash }

theorem User.keyless_setHash (hash : String) : Sql.Table.Keyless (User.setHash hash) :=
  ⟨fun _ => rfl, fun _ _ => rfl⟩

/-- `UPDATE users SET password_hash = ? WHERE email = ?`. -/
def setPasswordHash (email hash : String) (db : Db) : Db :=
  { db with
    users := db.users.update (fun u => u.email == email) (User.setHash hash)
      (User.keyless_setHash hash) }

theorem mem_setPasswordHash {email hash : String} {db : Db} {u : User} :
    u ∈ (setPasswordHash email hash db).users ↔
      ∃ v ∈ db.users, u = if v.email == email then v.setHash hash else v := by
  simp only [setPasswordHash, Sql.Table.mem_update]

/-- The transaction of `resetPassword`: the account whose password was set. -/
def resetPasswordTx (crypto : Crypto) (token hash : String) (now : Time) (db : Db) :
    Except Failure (String × Db) :=
  match findLiveReset crypto db now token with
  | none => .error (.rejected 404 "invalid_or_expired_reset_token")
  | some row =>
    .ok (row.email,
      { setPasswordHash row.email hash db with
        passwordResets := db.passwordResets.update (·.id == row.id) PasswordReset.use
          PasswordReset.keyless_use })

/-- `resetPassword`; the salt of the new hash is random. -/
def resetPassword (crypto : Crypto) (token newPassword salt : String) : Handler (Reply Unit) :=
  if lengthUnits newPassword < 8 then reject 400 "password_too_short"
  else do
    let email ← timedTransaction (resetPasswordTx crypto token (crypto.hash salt newPassword))
    revokeSessionsForEmail email
    resolve 200 "password_reset_successful" ()

/-- What the transaction commits: the hash of every row of the account, and the used link. -/
theorem resetPasswordTx_ok {token hash email : String} {now : Time} {db db' : Db}
    (h : resetPasswordTx crypto token hash now db = .ok (email, db')) :
    ∃ row ∈ db.passwordResets, row.email = email ∧
      db' = { setPasswordHash email hash db with
        passwordResets := db.passwordResets.update (·.id == row.id) PasswordReset.use } := by
  unfold resetPasswordTx at h
  split at h
  · cases h
  · rename_i row hrow
    cases h
    exact ⟨row, List.mem_of_find?_eq_some hrow, rfl, rfl⟩

/-! ### The reply -/

/-- A token whose hash is fresh is stored and mailed, unless the provider fails. -/
theorem exec_sendResetLink {email rawToken : String}
    (hfresh : ∀ r ∈ w.db.passwordResets, r.tokenHash ≠ crypto.hashToken rawToken) :
    ((sendResetLink crypto mail email rawToken).exec w).1 =
      .ok (isMailConfigured mail && !w.fails .sendEmail) := by
  have hins : ∃ resets, (invalidateResets email w.db).passwordResets.insert? (fun id =>
      ({ id := id, email := email, tokenHash := crypto.hashToken rawToken
         expiresAt := w.now + resetSeconds } : PasswordReset)) = some resets := by
    refine Option.ne_none_iff_exists'.mp fun hnone => ?_
    obtain ⟨r, hr, hclash⟩ := Sql.Table.insert?_eq_none_iff.mp hnone
    simp only [invalidateResets, Sql.Table.mem_update] at hr
    obtain ⟨s, hs, rfl⟩ := hr
    have hsame : s.tokenHash = crypto.hashToken rawToken := by
      have hhash := beq_iff_eq.mp hclash
      split at hhash <;> exact hhash
    exact hfresh s hs hsame
  obtain ⟨resets, hins⟩ := hins
  unfold sendResetLink
  rw [update, Prog.exec_write_bind, exec_getNow_bind, Prog.exec_bind, exec_keyed]
  dsimp only
  rw [hins]
  rfl

/-- With mail configured and delivered, the reply tells whether an active account has the
address. -/
theorem exec_requestPasswordReset {email rawToken : String}
    (hvalid : isEmail (normalizeEmail email) = true) (hmail : isMailConfigured mail = true)
    (hsends : w.fails .sendEmail = false)
    (hfresh : ∀ r ∈ w.db.passwordResets, r.tokenHash ≠ crypto.hashToken rawToken) :
    ((requestPasswordReset crypto mail email rawToken).exec w).1 =
      .ok ⟨200, "reset_email_sent", ⟨hasActiveAccount w.db (normalizeEmail email), true⟩⟩ := by
  unfold requestPasswordReset
  dsimp only
  generalize normalizeEmail email = normalized at hvalid ⊢
  rw [if_neg (by simp [hvalid]), Prog.exec_tryCatch, exec_query_bind]
  by_cases hactive : hasActiveAccount w.db normalized = true
  · have hsent : ((sendResetLink crypto mail normalized rawToken).exec w).1 = .ok true := by
      rw [exec_sendResetLink hfresh, hmail, hsends]
      rfl
    rw [if_pos hactive, Prog.exec_bind]
    rcases hrun : (sendResetLink crypto mail normalized rawToken).exec w with ⟨r, w'⟩
    rw [hrun] at hsent
    obtain rfl : r = .ok true := hsent
    rw [hactive, hmail]
    rfl
  · have hnone : hasActiveAccount w.db normalized = false := by simpa using hactive
    rw [if_neg hactive, hnone, hmail]
    rfl

/-- Two states answer alike exactly when both or neither hold an active account. -/
theorem requestPasswordReset_eq_iff {email rawToken₁ rawToken₂ : String}
    (hvalid : isEmail (normalizeEmail email) = true) (hmail : isMailConfigured mail = true)
    (hsends₁ : w₁.fails .sendEmail = false) (hsends₂ : w₂.fails .sendEmail = false)
    (hfresh₁ : ∀ r ∈ w₁.db.passwordResets, r.tokenHash ≠ crypto.hashToken rawToken₁)
    (hfresh₂ : ∀ r ∈ w₂.db.passwordResets, r.tokenHash ≠ crypto.hashToken rawToken₂) :
    ((requestPasswordReset crypto mail email rawToken₁).exec w₁).1 =
        ((requestPasswordReset crypto mail email rawToken₂).exec w₂).1 ↔
      ((∃ u ∈ w₁.db.users, u.email = normalizeEmail email ∧ u.isActive) ↔
        ∃ u ∈ w₂.db.users, u.email = normalizeEmail email ∧ u.isActive) := by
  rw [exec_requestPasswordReset hvalid hmail hsends₁ hfresh₁,
    exec_requestPasswordReset hvalid hmail hsends₂ hfresh₂]
  rw [← hasActiveAccount_iff, ← hasActiveAccount_iff, ← Bool.eq_iff_iff]
  simp

/-- No hash collides, and a password is its own hash. -/
def Crypto.plain : Crypto where
  hashToken raw := raw
  hash _ password := password
  compare password hash := password == hash

def mailDemo : MailEnv := { resendApiKey := some "re_key" }

/-- One account is signed up. -/
def graceSignedUp : World :=
  { db := { users := (Sql.Table.empty.insert? fun id =>
      ({ id := id, email := "grace@example.com" } : User)).getD .empty } }

/-- A link has been requested before. -/
def graceAskedOnce : World :=
  ((requestPasswordReset .plain mailDemo "grace@example.com" "t0").exec graceSignedUp).2

/-- Grace is answered the same whether or not she has asked before. -/
theorem requestPasswordReset_eq_again :
    ((requestPasswordReset .plain mailDemo "Grace@example.com " "t1").exec graceSignedUp).1 =
      ((requestPasswordReset .plain mailDemo "Grace@example.com " "t1").exec graceAskedOnce).1 := by
  refine (requestPasswordReset_eq_iff (by decide) (by decide) rfl rfl (by decide) (by decide)).mpr
    (iff_of_true ?_ ?_)
  · decide
  · decide

/-- An address with an account and one without are answered differently. -/
theorem reset_reply_reveals_account :
    ((requestPasswordReset .plain mailDemo "grace@example.com" "t0").exec graceSignedUp).1 ≠
      ((requestPasswordReset .plain mailDemo "grace@example.com" "t0").exec {}).1 := by
  decide

end Feedbase
