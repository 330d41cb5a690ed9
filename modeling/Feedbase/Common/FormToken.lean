import Feedbase.Lib.CodeUnits

/-!
# The form token

A signed token proves that a submission came from a page that was served some time ago.
Verifying it never raises: the verdict becomes part of the spam score.

## Main definitions

* `FormHmac` — the keyed hash, as hexadecimal digits
* `issueFormToken`, `verifyFormToken`

## Main results

* `verifyFormToken_of_signed`, `verifyFormToken_of_not_signed` — the verdict, with nothing thrown
* `formToken_accepts_issued` — what is accepted is what was issued, inside the window
-/

namespace Feedbase

open Text (isDigit isSpace)

/-- A lower-case hexadecimal digit. -/
def isHex (u : UInt16) : Bool := isDigit u || (97 ≤ u.toNat && u.toNat ≤ 102)

/-- `createHmac("sha256", SECRET).update(text).digest("hex")`. -/
structure FormHmac where
  sign : Text → Text
  size : Nat
  length_sign : ∀ d, (sign d).length = size
  hex : ∀ d, ∀ u ∈ sign d, isHex u = true

/-- `MIN_AGE_MS` and `MAX_AGE_MS`. -/
structure FormTokenAge where
  minAgeMs : Int := 3000
  maxAgeMs : Int := 24 * 60 * 60 * 1000

inductive FormTokenReason where
  | missing
  | malformed
  | badSignature
  | tooFast
  | expired
  deriving DecidableEq, Repr

structure FormVerdict where
  valid : Bool
  reason : Option FormTokenReason
  ageMs : Option Int
  deriving DecidableEq

/-- `.` -/
def fullStop : UInt16 := 46

def issueFormToken (hmac : FormHmac) (now : Nat) : Text :=
  let issuedAt := Text.ofNat now
  issuedAt ++ fullStop :: hmac.sign issuedAt

/-- `crypto.timingSafeEqual`, which throws on a length mismatch. -/
def timingSafeEqual (a b : ByteArray) : Except String Bool :=
  if a.size ≠ b.size then throw "ERR_CRYPTO_TIMING_SAFE_EQUAL_LENGTH" else return decide (a.data = b.data)

/-- The compare of the signatures: the lengths first, and then the bytes. -/
def sameSignature (a b : ByteArray) : Except String Bool :=
  if a.size ≠ b.size then return false else timingSafeEqual a b

def invalidToken (reason : FormTokenReason) (ageMs : Option Int) : FormVerdict where
  valid := false
  reason := some reason
  ageMs := ageMs

/-- The bounds on the age of a token whose signature is right. -/
def judgeAge (age : FormTokenAge) (ageMs : Int) : FormVerdict :=
  if ageMs < age.minAgeMs then invalidToken .tooFast ageMs
  else if ageMs > age.maxAgeMs then invalidToken .expired ageMs
  else { valid := true, reason := none, ageMs := ageMs }

def verifyFormToken (age : FormTokenAge) (hmac : FormHmac) (token : Option Text) (now : Int) :
    Except String FormVerdict := do
  let raw := (token.getD []).trim
  if raw = [] then return invalidToken .missing none
  match raw.cutAt fullStop with
  | none => return invalidToken .malformed none
  | some (issuedAt, sig) =>
    if issuedAt = [] || !issuedAt.all isDigit then return invalidToken .malformed none
    let expected := hmac.sign issuedAt
    if !(← sameSignature (Text.toUTF8 sig) (Text.toUTF8 expected)) then
      return invalidToken .badSignature none
    return judgeAge age (now - Text.value issuedAt)

variable {age : FormTokenAge} {hmac : FormHmac}

/-- The lengths differ before the bytes do, so nothing is thrown. -/
theorem sameSignature_eq (a b : ByteArray) : sameSignature a b = .ok (decide (a.data = b.data)) := by
  unfold sameSignature timingSafeEqual
  by_cases hsize : a.size = b.size
  · simp only [ne_eq, hsize, not_true_eq_false, if_false]
    rfl
  · have hne : a.data ≠ b.data := fun h => hsize (congrArg Array.size h)
    rw [if_pos hsize, decide_eq_false hne]
    rfl

/-- A signature has no other spelling. -/
theorem sameSignature_sign (sig d : Text) :
    sameSignature (Text.toUTF8 sig) (Text.toUTF8 (hmac.sign d)) = .ok (decide (sig = hmac.sign d)) := by
  have hascii : ∀ u ∈ hmac.sign d, u.toNat < 128 := by
    intro u hu
    have hhex := hmac.hex d u hu
    simp only [isHex, isDigit, Bool.or_eq_true, Bool.and_eq_true, decide_eq_true_eq] at hhex
    omega
  have heq := ByteArray.ext_iff.symm.trans (Text.toUTF8_inj_of_ascii (s := sig) hascii)
  rw [sameSignature_eq, decide_eq_decide.mpr heq]

/-- The token is decimal digits, a dot and their signature. -/
def Signed (hmac : FormHmac) (raw d : Text) : Prop :=
  d ≠ [] ∧ (∀ u ∈ d, isDigit u = true) ∧ raw = d ++ fullStop :: hmac.sign d

theorem fullStop_notMem {d : Text} (h : ∀ u ∈ d, isDigit u = true) : fullStop ∉ d := by
  intro hmem
  have hdigit := h _ hmem
  revert hdigit
  decide

/-- The verdict on a token that is signed. -/
theorem verifyFormToken_of_signed {token : Option Text} {d : Text} (now : Int)
    (h : Signed hmac (token.getD []).trim d) :
    verifyFormToken age hmac token now = .ok (judgeAge age (now - d.value)) := by
  obtain ⟨hne, hdigits, hraw⟩ := h
  have hcut : (d ++ fullStop :: hmac.sign d).cutAt fullStop = some (d, hmac.sign d) :=
    List.cutAt_eq_some_iff.mpr ⟨rfl, fullStop_notMem hdigits⟩
  have hall : d.all isDigit = true := List.all_eq_true.mpr hdigits
  unfold verifyFormToken
  simp only [hraw, hcut, hall, hne, sameSignature_sign]
  rw [if_neg (by simp)]
  rfl

/-- Any other token is turned down without a look at the time. -/
theorem verifyFormToken_of_not_signed {token : Option Text} (now : Int)
    (h : ∀ d, ¬ Signed hmac (token.getD []).trim d) :
    ∃ reason, verifyFormToken age hmac token now = .ok (invalidToken reason none) := by
  unfold verifyFormToken
  generalize (token.getD []).trim = raw at h
  dsimp only
  by_cases hempty : raw = []
  · exact ⟨.missing, by rw [if_pos hempty]; rfl⟩
  rw [if_neg hempty]
  cases hcut : raw.cutAt fullStop with
  | none => exact ⟨.malformed, rfl⟩
  | some parts =>
    obtain ⟨d, sig⟩ := parts
    obtain ⟨hraw, -⟩ := List.cutAt_eq_some_iff.mp hcut
    dsimp only
    by_cases hdigits : (d = [] || !d.all isDigit) = true
    · exact ⟨.malformed, by rw [if_pos hdigits]; rfl⟩
    · have hsig : sig ≠ hmac.sign d := by
        rintro rfl
        simp only [Bool.or_eq_true, decide_eq_true_eq, Bool.not_eq_true', not_or,
          Bool.not_eq_false, List.all_eq_true] at hdigits
        exact h d ⟨hdigits.1, hdigits.2, hraw⟩
      refine ⟨.badSignature, ?_⟩
      rw [if_neg hdigits, sameSignature_sign, decide_eq_false hsig]
      rfl

theorem valid_judgeAge {ageMs : Int} :
    (judgeAge age ageMs).valid = true ↔ age.minAgeMs ≤ ageMs ∧ ageMs ≤ age.maxAgeMs := by
  unfold judgeAge invalidToken
  by_cases hmin : ageMs < age.minAgeMs
  · simp only [if_pos hmin]
    grind
  · by_cases hmax : ageMs > age.maxAgeMs
    · simp only [if_neg hmin, if_pos hmax]
      grind
    · simp only [if_neg hmin, if_neg hmax]
      grind

theorem reason_judgeAge (ageMs : Int) :
    (judgeAge age ageMs).reason.isSome = !(judgeAge age ageMs).valid := by
  unfold judgeAge invalidToken
  split
  · rfl
  · split
    · rfl
    · rfl

/-- Nothing is trimmed off an issued token. -/
theorem trim_issueFormToken (now : Nat) :
    (issueFormToken hmac now).trim = issueFormToken hmac now := by
  apply Text.trim_of_ends
  · intro u hu
    obtain ⟨v, t, hv⟩ := List.exists_cons_of_ne_nil (Text.ofNat_ne_nil now)
    rw [issueFormToken, hv] at hu
    obtain rfl : v = u := Option.some.inj hu
    exact Text.isSpace_of_isDigit
      (Text.isDigit_of_mem_ofNat (hv ▸ List.mem_cons_self))
  · intro u hu
    have hmem : u ∈ fullStop :: hmac.sign (Text.ofNat now) := by
      rw [issueFormToken, List.getLast?_append_of_ne_nil _ (List.cons_ne_nil _ _)] at hu
      exact List.mem_of_getLast? hu
    rcases List.mem_cons.mp hmem with rfl | hu
    · decide
    · have hhex := hmac.hex _ u hu
      simp only [isHex, isDigit, Bool.or_eq_true, Bool.and_eq_true, decide_eq_true_eq] at hhex
      simp only [isSpace, Bool.or_eq_false_iff, Bool.and_eq_false_iff, decide_eq_false_iff_not,
        beq_eq_false_iff_ne]
      omega

theorem signed_issueFormToken (now : Nat) :
    Signed hmac (issueFormToken hmac now).trim (Text.ofNat now) :=
  ⟨Text.ofNat_ne_nil now, fun _ => Text.isDigit_of_mem_ofNat, trim_issueFormToken now⟩

/-- A token is accepted if and only if it is what was issued at a time inside the window. A
token that is not is turned down for one reason, and nothing is thrown. -/
theorem formToken_accepts_issued (age : FormTokenAge) (hmac : FormHmac) (now : Int) :
    (∀ raw : Text, ∃ verdict, verifyFormToken age hmac (some raw) now = .ok verdict ∧
      (verdict.valid = true ↔ ∃ d : Text, d ≠ [] ∧ (∀ u ∈ d, isDigit u = true) ∧
        raw.trim = d ++ fullStop :: hmac.sign d ∧
        age.minAgeMs ≤ now - d.value ∧ now - d.value ≤ age.maxAgeMs) ∧
      verdict.reason.isSome = !verdict.valid) ∧
    ∀ t : Nat, ∃ verdict,
      verifyFormToken age hmac (some (issueFormToken hmac t)) now = .ok verdict ∧
      (verdict.valid = true ↔ age.minAgeMs ≤ now - t ∧ now - t ≤ age.maxAgeMs) := by
  constructor
  · intro raw
    by_cases hsigned : ∃ d, Signed hmac raw.trim d
    · obtain ⟨d, hd⟩ := hsigned
      refine ⟨_, verifyFormToken_of_signed now hd, ?_, reason_judgeAge _⟩
      rw [valid_judgeAge]
      constructor
      · intro hage
        exact ⟨d, hd.1, hd.2.1, hd.2.2, hage⟩
      · rintro ⟨d', -, hdigits, hraw, hage⟩
        -- The digits before the first dot are the same, whatever the signatures are.
        have hcut := List.cutAt_eq_some_iff.mpr ⟨hd.2.2, fullStop_notMem hd.2.1⟩
        rw [List.cutAt_eq_some_iff.mpr ⟨hraw, fullStop_notMem hdigits⟩] at hcut
        obtain ⟨rfl, -⟩ := Prod.mk.inj (Option.some.inj hcut)
        exact hage
    · -- unsigned, whatever the reason, is invalid
      rw [not_exists] at hsigned
      obtain ⟨reason, heq⟩ : ∃ reason,
          verifyFormToken age hmac (some raw) now = .ok (invalidToken reason none) :=
        verifyFormToken_of_not_signed now hsigned
      refine ⟨_, heq, ?_, rfl⟩
      constructor
      · intro hvalid
        cases hvalid
      · rintro ⟨d, hne, hdigits, hraw, -⟩
        exact absurd ⟨hne, hdigits, hraw⟩ (hsigned d)
  · intro t
    have hsigned : Signed hmac (issueFormToken hmac t).trim (Text.ofNat t) :=
      signed_issueFormToken t
    have hverified : verifyFormToken age hmac (some (issueFormToken hmac t)) now =
        .ok (judgeAge age (now - (Text.ofNat t).value)) := verifyFormToken_of_signed now hsigned
    refine ⟨_, hverified, ?_⟩
    rw [valid_judgeAge, Text.value_ofNat]

/-- A digit of the sum of the code units, 64 times over: a hash that is easy to forge. -/
def lastDigits (d : Text) : Text :=
  List.replicate 64 (48 + (d.map UInt16.toNat).foldl Nat.add 0 % 10).toUInt16

theorem isHex_of_mem_lastDigits {d : Text} {u : UInt16} (hu : u ∈ lastDigits d) :
    isHex u = true := by
  obtain rfl := List.eq_of_mem_replicate hu
  have hdigits : ∀ n < 10, isHex (48 + n).toUInt16 = true := by decide
  exact hdigits _ (Nat.mod_lt _ (by decide))

def FormHmac.checksum : FormHmac where
  sign := lastDigits
  size := 64
  length_sign _ := List.length_replicate
  hex _ _ := isHex_of_mem_lastDigits

/-- The signature of a time, under an earlier one. -/
def backdated : Text :=
  Text.ofNat 4000 ++ fullStop :: FormHmac.checksum.sign (Text.ofNat 5000)

/-- A token of five seconds ago is accepted, and not with another time in it. -/
theorem formToken_accepts_issued_backdated :
    (∃ verdict, verifyFormToken {} .checksum (some (issueFormToken .checksum 5000)) 10000 =
        .ok verdict ∧ verdict.valid = true) ∧
      ∃ verdict, verifyFormToken {} .checksum (some backdated) 10000 = .ok verdict ∧
        verdict.valid = false ∧ verdict.reason.isSome = true := by
  have haccepts := formToken_accepts_issued {} .checksum 10000
  constructor
  · obtain ⟨verdict, hok, hvalid⟩ := haccepts.2 5000
    exact ⟨verdict, hok, hvalid.mpr (by decide)⟩
  · obtain ⟨verdict, hok, hvalid, hreason⟩ := haccepts.1 backdated
    have hinvalid : verdict.valid = false := by
      refine Bool.eq_false_iff.mpr fun htrue => ?_
      obtain ⟨d, -, hdigits, hraw, -⟩ := hvalid.mp htrue
      have hcut : backdated.trim.cutAt fullStop =
          some (Text.ofNat 4000, FormHmac.checksum.sign (Text.ofNat 5000)) := by decide
      rw [List.cutAt_eq_some_iff.mpr ⟨hraw, fullStop_notMem hdigits⟩] at hcut
      obtain ⟨rfl, hsign⟩ := Prod.mk.inj (Option.some.inj hcut)
      revert hsign
      decide
    refine ⟨verdict, hok, hinvalid, ?_⟩
    rw [hreason, hinvalid]
    rfl

end Feedbase
