import Feedbase.Common.FormToken
import Feedbase.Schema.Board

/-!
# The spam score

A guest's submission is scored by how it was sent and by how it was worded. A high score hides
it. The signals about the wording are weak one by one, but not together.

## Main definitions

* `linkLength`, `linksIn`, `hasLink` — the links of a text
* `normalizeForCompare`, `capsRatio`, `longestRepeatRun`, `nonLatinRatio`
* `spamScore`, `moderationStateFor`

## Main results

* `longestRepeatRun_exact` — the longest run of one character
* `hasLink_append` — no link runs across a line break
* `published_iff_few_signals` — which wordings are published
* `shouted_phrases_hidden` — a wording that is not
-/

namespace Feedbase

open Text (isDigit isSpace isUpper isLower lowerAscii CaseMap)

/-! ### Links -/

/-- What follows the prefix; `fold` is how the pattern reads the case. -/
def afterPrefix (fold : UInt16 → UInt16) : Text → Text → Option Text
  | [], t => some t
  | _ :: _, [] => none
  | c :: p, u :: t => if fold u = c then afterPrefix fold p t else none

/-- `s?` -/
def optionalS (fold : UInt16 → UInt16) : Text → Text
  | [] => []
  | u :: t => if fold u = 115 then t else u :: t

/-- `https?:\/\/` -/
def afterScheme (fold : UInt16 → UInt16) (t : Text) : Option Text :=
  (afterPrefix fold [104, 116, 116, 112] t).bind fun rest =>
    afterPrefix fold [58, 47, 47] (optionalS fold rest)

/-- The length of the link a text begins with: a scheme, and one or more units other than
those that stop it. -/
def linkLength (fold : UInt16 → UInt16) (stop : UInt16 → Bool) (t : Text) : Option Nat :=
  (afterScheme fold t).bind fun rest =>
    let tail := rest.takeWhile fun u => !stop u
    if tail = [] then none else some (t.length - rest.length + tail.length)

/-- `[^\s<>"')]`, negated. -/
def endsLink (u : UInt16) : Bool :=
  isSpace u || u == 60 || u == 62 || u == 34 || u == 39 || u == 41

/-- `text.match(URL_RE)`; the number counts the units of the last link that are left. -/
def linksIn : Nat → Text → List Text
  | _, [] => []
  | n + 1, _ :: t => linksIn n t
  | 0, u :: t =>
    match linkLength lowerAscii endsLink (u :: t) with
    | some n => (u :: t).take n :: linksIn (n - 1) t
    | none => linksIn 0 t

/-- `URL_TEST_RE.test(text)`. -/
def hasLink : Text → Bool
  | [] => false
  | u :: t => (linkLength lowerAscii endsLink (u :: t)).isSome || hasLink t

/-! ### Phrases and measures -/

def spamPhrases : List Text :=
  ["buy now", "click here now", "make money fast", "work from home", "casino", "porn", "viagra",
    "cialis", "payday loan", "forex trading", "binary options", "crypto giveaway",
    "bitcoin doubler", "seo services", "backlinks", "cheap rolex", "replica watches",
    "escort service", "hot singles", "weight loss pills", "limited time offer", "act now",
    "100% free", "risk free", "no credit check"].map Text.ofString

/-- `.replace(/https?:\/\/\S+/g, " ")` -/
def replaceLinks : Nat → Text → Text
  | _, [] => []
  | n + 1, _ :: t => replaceLinks n t
  | 0, u :: t =>
    match linkLength id isSpace (u :: t) with
    | some n => 32 :: replaceLinks (n - 1) t
    | none => u :: replaceLinks 0 t

/-- `.replace(/[^a-z0-9\s]/g, " ")` -/
def blankPunctuation (t : Text) : Text :=
  t.map fun u => if isLower u || isDigit u || isSpace u then u else 32

/-- `.replace(/\s+/g, " ")` -/
def collapseSpaces : Text → Text
  | [] => []
  | u :: t =>
    if isSpace u then
      if t.head?.any isSpace then collapseSpaces t else 32 :: collapseSpaces t
    else u :: collapseSpaces t

def normalizeForCompare (cases : CaseMap) (text : Text) : Text :=
  (collapseSpaces (blankPunctuation (replaceLinks 0 (cases.lower text)))).trim

def capsRatio (text : Text) : Rat :=
  let letters := text.filter fun u => isUpper u || isLower u
  if letters.length < 12 then 0 else (letters.filter isUpper).length / letters.length

def repeatRun (prev : UInt16) (best run : Nat) : Text → Nat
  | [] => best
  | u :: t =>
    if u = prev then repeatRun u (if run + 1 > best then run + 1 else best) (run + 1) t
    else repeatRun u best 1 t

def longestRepeatRun : Text → Nat
  | [] => 0
  | u :: t => repeatRun u 0 1 t

/-- `LATIN_RANGE_RE`. -/
def isLatin (u : UInt16) : Bool :=
  (0x20 ≤ u.toNat && u.toNat ≤ 0x24f) || (0x2000 ≤ u.toNat && u.toNat ≤ 0x206f)

def nonLatinRatio (text : Text) : Rat :=
  let s := text.filter fun u => !isSpace u
  if s.length < 20 then 0 else (s.filter fun u => !isLatin u).length / s.length

/-! ### The score -/

inductive SpamReason where
  | manyLinks
  | severalLinks
  | multipleLinkDomains
  | linkInTitle
  | repeatDuplicate
  | duplicate
  | disposableEmail
  | emailDomainNoMx
  | submittedTooFast
  | invalidFormToken
  | staleFormToken
  | noFormToken
  | spamPhrases
  | spamPhrase
  | allCaps
  | repeatedCharacters
  | mostlyNonLatin
  | bodyRepeatsTitle
  deriving DecidableEq, Repr

def SpamReason.code : SpamReason → String
  | .manyLinks => "many_links"
  | .severalLinks => "several_links"
  | .multipleLinkDomains => "multiple_link_domains"
  | .linkInTitle => "link_in_title"
  | .repeatDuplicate => "repeat_duplicate"
  | .duplicate => "duplicate"
  | .disposableEmail => "disposable_email"
  | .emailDomainNoMx => "email_domain_no_mx"
  | .submittedTooFast => "submitted_too_fast"
  | .invalidFormToken => "invalid_form_token"
  | .staleFormToken => "stale_form_token"
  | .noFormToken => "no_form_token"
  | .spamPhrases => "spam_phrases"
  | .spamPhrase => "spam_phrase"
  | .allCaps => "all_caps"
  | .repeatedCharacters => "repeated_characters"
  | .mostlyNonLatin => "mostly_non_latin"
  | .bodyRepeatsTitle => "body_repeats_title"

/-- What the score uses of Unicode and of the URL parser: `toLowerCase`, and the host of an
address, lower-cased, or nothing when `new URL` throws. -/
structure TextEnv where
  cases : CaseMap
  hostOf : Text → Option Text

structure SpamInput where
  title : Text := []
  body : Text := []
  isDisposableEmail : Bool := false
  emailHasNoMx : Bool := false
  formTokenReason : Option FormTokenReason := none
  duplicateCount : Nat := 0

/-- The points that `add` adds, each with its reason. -/
abbrev Signals := List (Nat × SpamReason)

/-- A signal that is there or not. -/
def signal (present : Bool) (points : Nat) (reason : SpamReason) : Signals :=
  if present then [(points, reason)] else []

def joined (input : SpamInput) : Text := input.title ++ 10 :: input.body

def linkHosts (env : TextEnv) (urls : List Text) : List Text :=
  (urls.map fun u => (env.hostOf u).getD (env.cases.lower u)).dedup

def structuralSignals (env : TextEnv) (input : SpamInput) : Signals :=
  let urls := linksIn 0 (joined input)
  (if 5 ≤ urls.length then [(8, .manyLinks)]
    else if 3 ≤ urls.length then [(5, .severalLinks)] else []) ++
  signal (2 ≤ urls.length && 3 ≤ (linkHosts env urls).length) 4 .multipleLinkDomains ++
  signal (hasLink input.title) 5 .linkInTitle ++
  (if 3 ≤ input.duplicateCount then [(9, .repeatDuplicate)]
    else if 1 ≤ input.duplicateCount then [(5, .duplicate)] else []) ++
  signal input.isDisposableEmail 5 .disposableEmail ++
  signal input.emailHasNoMx 4 .emailDomainNoMx

def provenanceSignals : Option FormTokenReason → Signals
  | none => []
  | some .tooFast => [(6, .submittedTooFast)]
  | some .badSignature => [(6, .invalidFormToken)]
  | some .malformed => [(6, .invalidFormToken)]
  | some .expired => [(2, .staleFormToken)]
  | some .missing => [(3, .noFormToken)]

/-- The phrases that occur in the text. -/
def phraseHits (env : TextEnv) (text : Text) : List Text :=
  let haystack := env.cases.lower text
  spamPhrases.filter fun p => p <:+: haystack

def phraseSignals (hits : Nat) : Signals :=
  if 3 ≤ hits then [(6, .spamPhrases)]
  else if hits = 2 then [(4, .spamPhrases)]
  else if hits = 1 then [(2, .spamPhrase)] else []

/-- The body is the title again. -/
def bodyRepeatsTitle (env : TextEnv) (input : SpamInput) : Bool :=
  let nt := normalizeForCompare env.cases input.title
  let nb := normalizeForCompare env.cases input.body
  nt ≠ [] && nb ≠ [] && nt = nb

def lexicalSignals (env : TextEnv) (input : SpamInput) : Signals :=
  let text := joined input
  phraseSignals (phraseHits env text).length ++
  signal (capsRatio text > 4 / 5) 2 .allCaps ++
  signal (15 ≤ longestRepeatRun text) 2 .repeatedCharacters ++
  signal (nonLatinRatio text > 3 / 5) 2 .mostlyNonLatin ++
  signal (bodyRepeatsTitle env input) 2 .bodyRepeatsTitle

structure SpamVerdict where
  score : Nat
  reasons : List SpamReason
  deriving DecidableEq

def clamp255 (n : Nat) : Nat := min 255 n

def totalPoints (signals : Signals) : Nat := (signals.map Prod.fst).sum

def spamScore (env : TextEnv) (input : SpamInput) : SpamVerdict :=
  let signals :=
    structuralSignals env input ++ provenanceSignals input.formTokenReason ++
      lexicalSignals env input
  { score := clamp255 (totalPoints signals), reasons := signals.map Prod.snd }

/-- `HIDE_THRESHOLD` and `FLAG_THRESHOLD`. -/
structure SpamThresholds where
  hide : ℚ := 12
  flag : ℚ := 6

def moderationStateFor (thresholds : SpamThresholds) (score : Nat) : ModerationState :=
  if (score : ℚ) ≥ thresholds.hide then .spam else .published

def isFlagged (thresholds : SpamThresholds) (score : Nat) : Bool :=
  (score : ℚ) ≥ thresholds.flag

/-! ### Repeated characters -/

/-- What the loop goes through, when it has come to a run of `run` units `prev`. -/
theorem le_repeatRun_iff {k : Nat} (hk : 2 ≤ k) {prev : UInt16} {best run : Nat} {t : Text}
    (hrun : 0 < run) (hbest : 2 ≤ run → run ≤ best) :
    k ≤ repeatRun prev best run t ↔ k ≤ best ∨ (List.replicate run prev ++ t).HasRun k := by
  induction t generalizing prev best run with
  | nil =>
    rw [repeatRun, List.append_nil]
    constructor
    · exact .inl
    · rintro (hle | hhas)
      · exact hle
      · have hlen := hhas.le_length
        rw [List.length_replicate] at hlen
        exact hlen.trans (hbest (hk.trans hlen))
  | cons u t ih =>
    rw [repeatRun]
    by_cases hu : u = prev
    · obtain rfl := hu
      -- the run goes on
      have hlonger : List.replicate run u ++ u :: t = List.replicate (run + 1) u ++ t := by
        rw [List.replicate_succ', List.append_assoc, List.singleton_append]
      rw [if_pos rfl, ih (Nat.succ_pos run) (by split <;> omega), hlonger]
      constructor
      · rintro (hle | hhas)
        · split at hle
          · exact .inr (List.hasRun_of_le u t hle)
          · exact .inl hle
        · exact .inr hhas
      · rintro (hle | hhas)
        · left
          split <;> omega
        · exact .inr hhas
    · -- the run ends, and has been counted
      rw [if_neg hu, ih Nat.one_pos (by omega), List.hasRun_replicate_append (by omega) hu]
      have hold : k ≤ run → k ≤ best := fun hle => hle.trans (hbest (hk.trans hle))
      constructor
      · rintro (hle | hhas)
        · exact .inl hle
        · exact .inr (.inr hhas)
      · rintro (hle | hle | hhas)
        · exact .inl hle
        · exact .inl (hold hle)
        · exact .inr hhas

theorem le_longestRepeatRun_iff {k : Nat} (hk : 2 ≤ k) (s : Text) :
    k ≤ longestRepeatRun s ↔ s.HasRun k := by
  cases s with
  | nil =>
    constructor
    · intro hle
      rw [longestRepeatRun] at hle
      omega
    · intro hhas
      exact hhas.le_length
  | cons u t =>
    have hloop : k ≤ repeatRun u 0 1 t ↔ k ≤ 0 ∨ (List.replicate 1 u ++ t).HasRun k :=
      le_repeatRun_iff hk Nat.one_pos (by omega)
    rw [longestRepeatRun, hloop, List.replicate_one, List.singleton_append]
    constructor
    · rintro (hle | hhas)
      · omega
      · exact hhas
    · exact .inr

/-- A run of one is never the best. -/
theorem repeatRun_ne_one {prev : UInt16} {best run : Nat} {t : Text} (hrun : 0 < run)
    (hbest : best ≠ 1) : repeatRun prev best run t ≠ 1 := by
  induction t generalizing prev best run with
  | nil => exact hbest
  | cons u t ih =>
    rw [repeatRun]
    by_cases hu : u = prev
    · rw [if_pos hu]
      exact ih (Nat.succ_pos run) (by split <;> omega)
    · rw [if_neg hu]
      exact ih Nat.one_pos hbest

/-- The longest run, from two on. Without two equal units side by side it is zero. -/
theorem longestRepeatRun_exact (s : Text) :
    (∀ k, 2 ≤ k → (k ≤ longestRepeatRun s ↔ ∃ u, List.replicate k u <:+: s)) ∧
      (longestRepeatRun s = 0 ↔ s.IsChain (· ≠ ·)) := by
  have hiff : ∀ k, 2 ≤ k → (k ≤ longestRepeatRun s ↔ s.HasRun k) :=
    fun k hk => le_longestRepeatRun_iff hk s
  have hone : longestRepeatRun s ≠ 1 := by
    cases s with
    | nil => exact Nat.zero_ne_one
    | cons u t => exact repeatRun_ne_one Nat.one_pos Nat.zero_ne_one
  refine ⟨hiff, ?_⟩
  rw [← not_iff_not, ← List.hasRun_two_iff, ← hiff 2 (Nat.le_refl 2)]
  omega

/-! ### Texts without links -/

/-- A prefix does not run across a separator that none of its units stands for. -/
theorem afterPrefix_append {fold : UInt16 → UInt16} {sep : UInt16} {p : Text} (hsep : fold sep ∉ p)
    (s b : Text) :
    afterPrefix fold p (s ++ sep :: b) = (afterPrefix fold p s).map (· ++ sep :: b) := by
  induction p generalizing s with
  | nil => rfl
  | cons c p ih =>
    have hc : fold sep ≠ c := fun h => hsep (h ▸ List.mem_cons_self)
    have hp : fold sep ∉ p := fun h => hsep (List.mem_cons_of_mem _ h)
    cases s with
    | nil => simp [afterPrefix, hc]
    | cons u s =>
      rw [List.cons_append, afterPrefix, afterPrefix]
      by_cases hu : fold u = c
      · rw [if_pos hu, if_pos hu, ih hp]
      · rw [if_neg hu, if_neg hu, Option.map_none]

theorem optionalS_append {fold : UInt16 → UInt16} {sep : UInt16} (hsep : fold sep ≠ 115)
    (s b : Text) : optionalS fold (s ++ sep :: b) = optionalS fold s ++ sep :: b := by
  cases s with
  | nil => simp [optionalS, hsep]
  | cons u s =>
    rw [List.cons_append, optionalS, optionalS]
    by_cases hu : fold u = 115
    · rw [if_pos hu, if_pos hu]
    · rw [if_neg hu, if_neg hu, List.cons_append]

/-- A scheme does not run across a separator that none of its units stands for. -/
theorem afterScheme_append {fold : UInt16 → UInt16} {sep : UInt16}
    (hhttp : fold sep ∉ [104, 116, 116, 112]) (hs : fold sep ≠ 115)
    (hcolon : fold sep ∉ [58, 47, 47]) (s b : Text) :
    afterScheme fold (s ++ sep :: b) = (afterScheme fold s).map (· ++ sep :: b) := by
  rw [afterScheme, afterScheme, afterPrefix_append hhttp]
  cases afterPrefix fold [104, 116, 116, 112] s with
  | none => rfl
  | some rest =>
    rw [Option.map_some, Option.bind_some, Option.bind_some, optionalS_append hs,
      afterPrefix_append hcolon]

theorem isSome_linkLength_append (s b : Text) :
    (linkLength lowerAscii endsLink (s ++ 10 :: b)).isSome =
      (linkLength lowerAscii endsLink s).isSome := by
  rw [linkLength, linkLength, afterScheme_append (by decide) (by decide) (by decide)]
  cases afterScheme lowerAscii s with
  | none => rfl
  | some rest =>
    cases rest with
    | nil => rfl
    | cons u rest =>
      by_cases hu : endsLink u = true
      · simp [hu]
      · simp [hu]

/-- No link runs across a line break. -/
theorem hasLink_append (s b : Text) : hasLink (s ++ 10 :: b) = (hasLink s || hasLink b) := by
  induction s with
  | nil =>
    have hnone : (linkLength lowerAscii endsLink (10 :: b)).isSome = false :=
      isSome_linkLength_append [] b
    simp [hasLink, hnone]
  | cons u s ih =>
    have hhead := isSome_linkLength_append (u :: s) b
    rw [List.cons_append] at hhead ⊢
    rw [hasLink, hasLink, hhead, ih, Bool.or_assoc]

theorem linksIn_eq_nil {t : Text} (h : hasLink t = false) : linksIn 0 t = [] := by
  induction t with
  | nil => rfl
  | cons u t ih =>
    rw [hasLink, Bool.or_eq_false_iff, Option.isSome_eq_false_iff, Option.isNone_iff_eq_none] at h
    rw [linksIn, h.1]
    exact ih h.2

/-- A submission that has nothing against it but its wording: a valid token, an address that
takes mail, no duplicates. -/
def wording (title body : Text) : SpamInput where
  title := title
  body := body

theorem structuralSignals_of_no_link (env : TextEnv) {title body : Text}
    (htitle : hasLink title = false) (hbody : hasLink body = false) :
    structuralSignals env (wording title body) = [] := by
  have hlinks : linksIn 0 (joined (wording title body)) = [] := by
    apply linksIn_eq_nil
    rw [joined, hasLink_append, wording, htitle, hbody]
    rfl
  simp only [structuralSignals, hlinks]
  simp [wording, htitle, signal]

/-! ### What the wording adds up to -/

theorem totalPoints_append (a b : Signals) :
    totalPoints (a ++ b) = totalPoints a + totalPoints b := by
  simp [totalPoints]

theorem totalPoints_signal (present : Bool) (points : Nat) (reason : SpamReason) :
    totalPoints (signal present points reason) = points * present.toNat := by
  cases present with
  | true => simp [totalPoints, signal]
  | false => rfl

theorem totalPoints_phraseSignals (hits : Nat) :
    totalPoints (phraseSignals hits) = 2 * min 3 hits := by
  unfold phraseSignals
  by_cases hthree : 3 ≤ hits
  · rw [if_pos hthree, Nat.min_eq_left hthree]
    rfl
  · obtain rfl | rfl | rfl : hits = 0 ∨ hits = 1 ∨ hits = 2 := by omega
    · rfl
    · rfl
    · rfl

/-- The lexical signals besides the phrases: capitals, a repeated character, another script, the
title again. -/
def lexicalMarks (env : TextEnv) (input : SpamInput) : List Bool :=
  [capsRatio (joined input) > 4 / 5, 15 ≤ longestRepeatRun (joined input),
    nonLatinRatio (joined input) > 3 / 5, bodyRepeatsTitle env input]

theorem totalPoints_lexicalSignals (env : TextEnv) (input : SpamInput) :
    totalPoints (lexicalSignals env input) =
      2 * min 3 (phraseHits env (joined input)).length +
        2 * (lexicalMarks env input).count true := by
  have hcount : ∀ a b c d : Bool,
      [a, b, c, d].count true = a.toNat + b.toNat + c.toNat + d.toNat := by decide
  simp only [lexicalSignals, totalPoints_append, totalPoints_signal, totalPoints_phraseSignals,
    lexicalMarks, hcount]
  omega

theorem count_lexicalMarks_le (env : TextEnv) (input : SpamInput) :
    (lexicalMarks env input).count true ≤ 4 := List.count_le_length

/-- The score of a wording is its lexical signals. -/
theorem score_of_no_link (env : TextEnv) {title body : Text} (htitle : hasLink title = false)
    (hbody : hasLink body = false) :
    (spamScore env (wording title body)).score =
      2 * min 3 (phraseHits env (joined (wording title body))).length +
        2 * (lexicalMarks env (wording title body)).count true := by
  have hcount := count_lexicalMarks_le env (wording title body)
  have htotal := totalPoints_lexicalSignals env (wording title body)
  have hstructural := structuralSignals_of_no_link env htitle hbody
  have hprovenance : provenanceSignals (wording title body).formTokenReason = [] := rfl
  rw [spamScore, hstructural, hprovenance, List.nil_append, List.nil_append]
  dsimp only
  rw [htotal, clamp255]
  omega

/-- A wording without a link is published unless it has three phrases and three of the other
marks, or two phrases and all four. -/
theorem published_iff_few_signals (env : TextEnv) {title body : Text}
    (htitle : hasLink title = false) (hbody : hasLink body = false) :
    moderationStateFor {} (spamScore env (wording title body)).score = .published ↔
      ¬ ((3 ≤ (phraseHits env (joined (wording title body))).length ∧
          3 ≤ (lexicalMarks env (wording title body)).count true) ∨
        ((phraseHits env (joined (wording title body))).length = 2 ∧
          (lexicalMarks env (wording title body)).count true = 4)) := by
  have hcount := count_lexicalMarks_le env (wording title body)
  have hhide : ({} : SpamThresholds).hide = 12 := rfl
  rw [score_of_no_link env htitle hbody, moderationStateFor, hhide]
  have hcast : ∀ n : Nat, (n : ℚ) ≥ 12 ↔ 12 ≤ n := fun n => by norm_cast
  simp only [hcast]
  by_cases hscore : 12 ≤ 2 * min 3 (phraseHits env (joined (wording title body))).length +
      2 * (lexicalMarks env (wording title body)).count true
  · rw [if_pos hscore]
    simp only [reduceCtorEq, false_iff, not_not]
    omega
  · rw [if_neg hscore]
    simp only [true_iff]
    omega

/-- ASCII texts need no more of Unicode, and texts without links no URL parser. -/
def TextEnv.ascii : TextEnv where
  cases := .ascii
  hostOf _ := none

/-- A request in capitals, with a row of exclamation marks. -/
def lessCasino : SpamInput :=
  wording (Text.ofString "LESS CASINO BLUE !!!!!!!!!!!!!!!") (Text.ofString "NO VIAGRA ADS PLEASE")

/-- Two phrases and two marks are published. -/
theorem published_request :
    (phraseHits .ascii (joined lessCasino)).length = 2 ∧
      (lexicalMarks .ascii lessCasino).count true = 2 ∧
      moderationStateFor {} (spamScore .ascii lessCasino).score = .published := by
  have hpublished : moderationStateFor {} (spamScore .ascii lessCasino).score = .published :=
    (published_iff_few_signals .ascii (by decide +kernel) (by decide +kernel)).mpr
      (by decide +kernel)
  exact ⟨by decide +kernel, by decide +kernel, hpublished⟩

/-- Three phrases, in capitals, with a row of exclamation marks, and the same again. -/
theorem shouted_phrases_hidden :
    ¬ ∀ title body : Text, hasLink title = false → hasLink body = false →
      moderationStateFor {} (spamScore .ascii (wording title body)).score = .published := by
  intro h
  have hpublished := h (Text.ofString "CASINO PORN VIAGRA !!!!!!!!!!!!!!!")
    (Text.ofString "CASINO PORN VIAGRA !!!!!!!!!!!!!!!") (by decide +kernel) (by decide +kernel)
  revert hpublished
  decide +kernel

end Feedbase
