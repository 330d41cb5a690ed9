import Feedbase.Common.SpamScore
import Feedbase.Public.GuestWrites

/-!
# The guard of public writes

What a guest sends passes a honeypot, the form token, the burst caps, a look at the address and
the spam score. A signed-in author passes the honeypot only.

## Main definitions

* `PublicWriteEnv` — what the guard asks others
* `PublicWrite`, `GuardVerdict`, `evaluatePublicWrite`

## Main results

* `evaluatePublicWrite_eq_ok` — the guard never throws
-/

namespace Feedbase

def DISPOSABLE_DOMAINS : List String :=
  ["mailinator.com", "guerrillamail.com", "10minutemail.com", "tempmail.com", "temp-mail.org",
    "throwawaymail.com", "yopmail.com", "trashmail.com", "sharklasers.com", "getnada.com",
    "dispostable.com", "maildrop.cc", "fakeinbox.com", "mintemail.com", "spamgourmet.com"]

def isDisposableEmail (cases : LowerCase) (email : String) : Bool :=
  DISPOSABLE_DOMAINS.contains (emailDomain cases email)

/-- `EMAIL_RE.test(String(email || "").trim())`. -/
def isValidEmailFormat (email : String) : Bool := isEmail (trim email)

/-- What the guard asks others: the clock, the counters (which may refuse the write), the mail
exchangers of a domain, and the hash that identifies the visitor. -/
structure PublicWriteEnv where
  text : TextEnv
  addresses : LowerCase
  thresholds : SpamThresholds := {}
  tokenAge : FormTokenAge := {}
  hmac : FormHmac
  nowMs : Int
  voterHash : Option String
  charge : Bool
  isDeliverableEmail : String → Bool

/-- The arguments of `evaluatePublicWrite` and the fields of the request that it reads. -/
structure PublicWrite where
  title : Text := []
  body : Text := []
  email : Option String := none
  duplicateCount : Nat := 0
  isAuthenticated : Bool := false
  honeypot : Option Text := none
  formToken : Option Text := none

structure GuardVerdict where
  discard : Bool := false
  rateLimited : Bool := false
  voterHash : Option String
  score : Nat := 0
  reasons : List SpamReason := []
  moderationState : ModerationState := .published
  flagged : Bool := false

/-- What the content is scored on. -/
def PublicWrite.spamInput (env : PublicWriteEnv) (a : PublicWrite) (token : FormVerdict) :
    SpamInput :=
  let address := (orNull a.email).filter isValidEmailFormat
  { title := a.title
    body := a.body
    isDisposableEmail := address.any (isDisposableEmail env.addresses)
    emailHasNoMx := address.any fun email => !env.isDeliverableEmail email
    formTokenReason := if token.valid then none else token.reason
    duplicateCount := a.duplicateCount }

/-- The verdict on the content. -/
def PublicWrite.scored (env : PublicWriteEnv) (a : PublicWrite) (token : FormVerdict) :
    GuardVerdict :=
  let verdict := spamScore env.text (a.spamInput env token)
  { voterHash := env.voterHash
    score := verdict.score
    reasons := verdict.reasons
    moderationState := moderationStateFor env.thresholds verdict.score
    flagged := isFlagged env.thresholds verdict.score }

def evaluatePublicWrite (env : PublicWriteEnv) (a : PublicWrite) : Except String GuardVerdict := do
  if Text.trim (a.honeypot.getD []) ≠ [] then
    return { voterHash := env.voterHash, discard := true }
  if a.isAuthenticated then return { voterHash := env.voterHash }
  let token ← verifyFormToken env.tokenAge env.hmac a.formToken env.nowMs
  if !env.charge then return { voterHash := env.voterHash, rateLimited := true }
  return a.scored env token

/-- The guard never throws. -/
theorem evaluatePublicWrite_eq_ok (env : PublicWriteEnv) (a : PublicWrite) :
    ∃ guard, evaluatePublicWrite env a = .ok guard := by
  unfold evaluatePublicWrite
  by_cases hhoneypot : Text.trim (a.honeypot.getD []) ≠ []
  · exact ⟨_, by rw [if_pos hhoneypot]; rfl⟩
  rw [if_neg hhoneypot]
  by_cases hauth : a.isAuthenticated = true
  · exact ⟨_, by rw [if_pos hauth]; rfl⟩
  rw [if_neg hauth]
  obtain ⟨token, htoken⟩ : ∃ token,
      verifyFormToken env.tokenAge env.hmac a.formToken env.nowMs = .ok token := by
    by_cases hsigned : ∃ d, Signed env.hmac (a.formToken.getD []).trim d
    · obtain ⟨d, hd⟩ := hsigned
      exact ⟨_, verifyFormToken_of_signed _ hd⟩
    · obtain ⟨reason, heq⟩ := verifyFormToken_of_not_signed env.nowMs (not_exists.mp hsigned)
      exact ⟨_, heq⟩
  rw [htoken]
  cases hcharge : env.charge with
  | true => exact ⟨a.scored env token, rfl⟩
  | false => exact ⟨_, rfl⟩

end Feedbase
