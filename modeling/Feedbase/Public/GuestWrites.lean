import Feedbase.Common.WriteCounters
import Mathlib.Data.List.TakeWhile

/-!
# Guest writes and the counters they bump

A guest who posts or comments on a public board leaves an email address, which the handlers
trim, cut to 255 code units and match against a pattern. What follows its `@` becomes part of
a scope key in lower case, next to the workspace's id, and the key is cut to 100 code units. A
long domain pushes the id out of the key, and lower case may make a domain longer.

## Main definitions

* `submitterEmail`, `emailDomain`, `VoterHash`, `GuestWrite` — an admitted write
* `GuestWrite.row`, `Isolated` — the rows it increments, and whom it shares them with

## Main results

* `isolated_of_length_lt` — with a short key, rows are shared within their scope only
* `isolated_iff` — and only with a short key
* `long_domain_shares_counter` — two boards that share a counter
-/

namespace Feedbase

/-! ### The email address -/

/-- `(data?.submitterEmail || "").trim().slice(0, 255) || null`. -/
def submitterEmail (raw : Option String) : Option String :=
  orNull (some (sliceUnits 255 (trim (raw.getD ""))))

/-- What stands between the first `@` and the next. -/
def afterAt (cs : List Char) : List Char :=
  ((cs.dropWhile (· != '@')).drop 1).takeWhile (· != '@')

/-- `email.trim().toLowerCase().split("@")[1] || ""`. -/
def emailDomain (cases : LowerCase) (email : String) : String :=
  String.ofList (afterAt (cases.lower (trim email).toList))

/-- `voterHash(req)`: an HMAC, as 64 hexadecimal digits. -/
structure VoterHash where
  text : String
  length_eq : text.toList.length = 64
  hex : ∀ c ∈ text.toList, c.isDigit = true ∨ ('a' ≤ c ∧ c ≤ 'f')

inductive WriteKind where
  | post
  | comment
  deriving DecidableEq, Repr

/-- What `createPublicPost` and `createPublicComment` ask of a guest's address. -/
def WriteKind.admits : WriteKind → Option String → Bool
  | .post, none => false
  | .comment, none => true
  | _, some email => isEmail email

theorem WriteKind.admits_some (kind : WriteKind) (email : String) :
    kind.admits (some email) = isEmail email := by
  cases kind with
  | post => rfl
  | comment => rfl

/-- A guest write that the handlers admit to `evaluatePublicWrite`. -/
structure GuestWrite where
  kind : WriteKind
  tenantId : Nat
  voterHash : Option VoterHash
  rawEmail : Option String
  now : Nat
  tenantId_lt : tenantId < 2 ^ 64
  admitted : kind.admits (submitterEmail rawEmail) = true

namespace GuestWrite

variable (cases : LowerCase)

def email (a : GuestWrite) : Option String := submitterEmail a.rawEmail

/-- `email ? emailDomain(email) : ""`, with nothing for an empty text. -/
def domain (a : GuestWrite) : Option String := orNull (a.email.map (emailDomain cases))

/-- The caps the write is charged against. -/
def checks (a : GuestWrite) : List Check :=
  checksFor a.tenantId (a.voterHash.map VoterHash.text) (a.domain cases)

/-- The row a check increments: its key as stored, and the start of the window. -/
def row (a : GuestWrite) (c : Check) : String × Time :=
  (c.scopeKey, windowStart c.scope.size a.now)

/-- Two writes agree on what a counter of the scope counts. -/
def Agree (a b : GuestWrite) : Scope → Prop
  | .voterHour => a.tenantId = b.tenantId ∧
      a.voterHash.map VoterHash.text = b.voterHash.map VoterHash.text
  | .tenantHour => a.tenantId = b.tenantId
  | .domainDay => a.tenantId = b.tenantId ∧ a.domain cases = b.domain cases

/-- The two writes increment a common row only if they agree on its scope. -/
def Isolated (a b : GuestWrite) : Prop :=
  ∀ c ∈ a.checks cases, ∀ c' ∈ b.checks cases, a.row c = b.row c' →
    c.scope = c'.scope ∧ a.Agree cases b c.scope

end GuestWrite

/-! ### Keys that fit -/

theorem toList_voterKey (h : String) (n : Nat) :
    (voterKey h n).toList = ('v' :: ':' :: h.toList) ++ ':' :: Nat.toDigits 10 n := by
  simp [voterKey, Nat.toString_eq_repr]

theorem toList_tenantKey (n : Nat) :
    (tenantKey n).toList = ['t'] ++ ':' :: Nat.toDigits 10 n := by
  simp [tenantKey, Nat.toString_eq_repr]

theorem toList_domainKey (d : String) (n : Nat) :
    (domainKey d n).toList = ('d' :: ':' :: d.toList) ++ ':' :: Nat.toDigits 10 n := by
  simp [domainKey, Nat.toString_eq_repr]

theorem toList_scopeKey (c : Check) : c.scopeKey.toList = Utf16.slice 100 c.key.toList := by
  simp [Check.scopeKey, sliceUnits]

/-- The first character of a scope's keys. -/
def Scope.tag : Scope → Char
  | .voterHour => 'v'
  | .tenantHour => 't'
  | .domainDay => 'd'

theorem Scope.tag_injective : ∀ s t : Scope, s.tag = t.tag → s = t := by
  intro s t h
  cases s <;> cases t <;> first | rfl | exact absurd h (by decide)

theorem Scope.width_tag (s : Scope) : Utf16.width s.tag = 1 := by cases s <;> rfl

variable {cases : LowerCase} {a b : GuestWrite} {c c' : Check}

/-- Every key starts with the tag of its scope. -/
theorem exists_key_eq (hc : c ∈ a.checks cases) : ∃ cs, c.key.toList = c.scope.tag :: cs := by
  rcases mem_checksFor.mp hc with ⟨h, -, rfl⟩ | rfl | ⟨d, -, rfl⟩
  · exact ⟨_, toList_voterKey h a.tenantId⟩
  · exact ⟨_, toList_tenantKey a.tenantId⟩
  · exact ⟨_, toList_domainKey d a.tenantId⟩

/-- The cut leaves the tag, so rows of different scopes are different. -/
theorem scope_eq_of_scopeKey_eq (hc : c ∈ a.checks cases) (hc' : c' ∈ b.checks cases)
    (h : c.scopeKey = c'.scopeKey) : c.scope = c'.scope := by
  obtain ⟨cs, hcs⟩ := exists_key_eq hc
  obtain ⟨cs', hcs'⟩ := exists_key_eq hc'
  have hslice : Utf16.slice 100 c.key.toList = Utf16.slice 100 c'.key.toList := by
    rw [← toList_scopeKey, h, toList_scopeKey]
  rw [hcs, hcs', Utf16.slice_cons_narrow c.scope.width_tag,
    Utf16.slice_cons_narrow c'.scope.width_tag] at hslice
  exact Scope.tag_injective _ _ (List.cons.inj hslice).1

/-- A key shorter than the column is not a cut of any other key. -/
theorem key_eq_of_scopeKey_eq (hlt : Utf16.length c.key.toList < 100)
    (h : c.scopeKey = c'.scopeKey) : c.key = c'.key := by
  have hslice : Utf16.slice 100 c.key.toList = Utf16.slice 100 c'.key.toList := by
    rw [← toList_scopeKey, h, toList_scopeKey]
  rw [Utf16.slice_of_length_le hlt.le] at hslice
  by_cases hlt' : Utf16.length c'.key.toList < 100
  · rw [Utf16.slice_of_length_le hlt'.le] at hslice
    exact String.toList_injective hslice
  · have hcut := Utf16.length_slice (Nat.le_of_not_lt hlt')
    rw [← hslice] at hcut
    omega

/-- A 64-bit id has at most twenty digits. -/
theorem length_toDigits_le {n : Nat} (h : n < 2 ^ 64) : Utf16.length (Nat.toDigits 10 n) ≤ 20 := by
  rw [Utf16.length_toDigits, Nat.length_toDigits_le_iff (by decide) (by decide)]
  exact h.trans (by decide)

theorem VoterHash.length_text (h : VoterHash) : Utf16.length h.text.toList = 64 := by
  have hwidth : ∀ cs : List Char, (∀ c ∈ cs, c.isDigit = true ∨ ('a' ≤ c ∧ c ≤ 'f')) →
      Utf16.length cs = cs.length := by
    intro cs
    induction cs with
    | nil => exact fun _ => rfl
    | cons c cs ih =>
      intro hcs
      have hc : Utf16.width c = 1 := by
        rcases hcs c List.mem_cons_self with hc | ⟨-, hc⟩
        · exact Utf16.width_of_isDigit hc
        · have hle : c.toNat ≤ 102 := hc
          rw [Utf16.width, if_pos (by omega)]
      rw [Utf16.length_cons, List.length_cons, hc,
        ih fun d hd => hcs d (List.mem_cons_of_mem _ hd)]
      omega
  rw [hwidth _ h.hex, h.length_eq]

/-- The keys of voters and boards always fit. -/
theorem length_key_lt (hc : c ∈ a.checks cases)
    (hdomain : ∀ d, a.domain cases = some d → Utf16.length (domainKey d a.tenantId).toList < 100) :
    Utf16.length c.key.toList < 100 := by
  have hid := length_toDigits_le a.tenantId_lt
  rcases mem_checksFor.mp hc with ⟨h, hh, rfl⟩ | rfl | ⟨d, hd, rfl⟩
  · obtain ⟨hash, -, rfl⟩ := Option.map_eq_some_iff.mp (orNull_eq_some_iff.mp hh).1
    have hhash := hash.length_text
    rw [toList_voterKey]
    simp only [Utf16.length_append, Utf16.length_cons, hhash]
    have hv : Utf16.width 'v' = 1 ∧ Utf16.width ':' = 1 := ⟨rfl, rfl⟩
    omega
  · rw [toList_tenantKey]
    simp only [Utf16.length_append, Utf16.length_cons, Utf16.length_nil]
    have ht : Utf16.width 't' = 1 ∧ Utf16.width ':' = 1 := ⟨rfl, rfl⟩
    omega
  · refine hdomain d ?_
    rw [← hd, GuestWrite.domain, orNull_orNull]

/-- What a check of the scope has for a key. -/
def GuestWrite.HasKey (cases : LowerCase) (a : GuestWrite) (key : String) : Scope → Prop
  | .voterHour => ∃ h, a.voterHash.map VoterHash.text = some h ∧ key = voterKey h a.tenantId
  | .tenantHour => key = tenantKey a.tenantId
  | .domainDay => ∃ d, a.domain cases = some d ∧ key = domainKey d a.tenantId

theorem hasKey (hc : c ∈ a.checks cases) : a.HasKey cases c.key c.scope := by
  rcases mem_checksFor.mp hc with ⟨h, hh, rfl⟩ | rfl | ⟨d, hd, rfl⟩
  · exact ⟨h, (orNull_eq_some_iff.mp hh).1, rfl⟩
  · rfl
  · exact ⟨d, (orNull_eq_some_iff.mp hd).1, rfl⟩

/-- A key that is not cut determines what its counter counts. -/
theorem agree_of_key_eq {key : String} {s : Scope} (ha : a.HasKey cases key s)
    (hb : b.HasKey cases key s) :
    a.Agree cases b s := by
  cases s with
  | voterHour =>
    obtain ⟨h, hh, rfl⟩ := ha
    obtain ⟨h', hh', hkey⟩ := hb
    have hlist := congrArg String.toList hkey
    rw [toList_voterKey, toList_voterKey] at hlist
    obtain ⟨htext, hid⟩ := Utf16.numbered_inj (by decide) hlist
    obtain rfl : h = h' := String.toList_injective (List.cons.inj (List.cons.inj htext).2).2
    exact ⟨hid, hh.trans hh'.symm⟩
  | tenantHour =>
    have hlist := congrArg String.toList (Eq.trans (Eq.symm ha) hb)
    rw [toList_tenantKey, toList_tenantKey] at hlist
    exact (Utf16.numbered_inj (by decide) hlist).2
  | domainDay =>
    obtain ⟨d, hd, rfl⟩ := ha
    obtain ⟨d', hd', hkey⟩ := hb
    have hlist := congrArg String.toList hkey
    rw [toList_domainKey, toList_domainKey] at hlist
    obtain ⟨htext, hid⟩ := Utf16.numbered_inj (by decide) hlist
    obtain rfl : d = d' := String.toList_injective (List.cons.inj (List.cons.inj htext).2).2
    exact ⟨hid, hd.trans hd'.symm⟩

/-- With a short domain key, rows are shared within their scope only. -/
theorem isolated_of_length_lt
    (hdomain : ∀ d, a.domain cases = some d → Utf16.length (domainKey d a.tenantId).toList < 100) :
    a.Isolated cases b := by
  intro c hc c' hc' hrow
  have hscopeKey : c.scopeKey = c'.scopeKey := (Prod.mk.inj hrow).1
  have hscope := scope_eq_of_scopeKey_eq hc hc' hscopeKey
  have hkey := key_eq_of_scopeKey_eq (length_key_lt hc hdomain) hscopeKey
  have hb := hasKey hc'
  rw [← hscope, ← hkey] at hb
  exact ⟨hscope, agree_of_key_eq (hasKey hc) hb⟩

/-! ### Keys that do not fit -/

/-- A character that the handlers pass through as it is. -/
structure Plain (cases : LowerCase) (c : Char) : Prop where
  untrimmed : isTrimmed c = false
  notAt : c ≠ '@'
  lowered : cases.lower [c] = [c]

theorem lower_of_ascii {x : Char} (h : x.toNat < 128) (hlower : x.toLower = x) :
    cases.lower [x] = [x] := by
  rw [cases.ascii [x] fun c hc => by rwa [List.mem_singleton.mp hc], List.map_singleton, hlower]

theorem Plain.dot : Plain cases '.' := ⟨rfl, by decide, lower_of_ascii (by decide) rfl⟩

theorem Plain.colon : Plain cases ':' := ⟨rfl, by decide, lower_of_ascii (by decide) rfl⟩

theorem Plain.x : Plain cases 'x' := ⟨rfl, by decide, lower_of_ascii (by decide) rfl⟩

theorem Plain.z : Plain cases 'z' := ⟨rfl, by decide, lower_of_ascii (by decide) rfl⟩

theorem isTrimmed_iff (c : Char) : isTrimmed c = true ↔
    (9 ≤ c.toNat ∧ c.toNat ≤ 13) ∨ c.toNat = 32 ∨ c.toNat = 0xa0 ∨ c.toNat = 0x1680 ∨
      (0x2000 ≤ c.toNat ∧ c.toNat ≤ 0x200a) ∨ c.toNat = 0x2028 ∨ c.toNat = 0x2029 ∨
        c.toNat = 0x202f ∨ c.toNat = 0x205f ∨ c.toNat = 0x3000 ∨ c.toNat = 0xfeff := by
  simp [isTrimmed, or_assoc]

theorem toNat_toLower (c : Char) :
    c.toLower.toNat = if 65 ≤ c.toNat ∧ c.toNat ≤ 90 then c.toNat + 32 else c.toNat := by
  unfold Char.toLower
  split
  · rename_i h
    have hc : 65 ≤ c.toNat ∧ c.toNat ≤ 90 := h
    rw [if_pos hc]
    change (c.val + 32).toNat = c.val.toNat + 32
    have hval : c.val.toNat ≤ 90 := hc.2
    rw [UInt32.toNat_add]
    exact Nat.mod_eq_of_lt (by change c.val.toNat + 32 < 2 ^ 32; omega)
  · rename_i h
    have hc : ¬ (65 ≤ c.toNat ∧ c.toNat ≤ 90) := h
    rw [if_neg hc]

theorem Plain.of_isDigit {x : Char} (h : x.isDigit = true) : Plain cases x := by
  have hrange : 48 ≤ x.toNat ∧ x.toNat ≤ 57 := by
    simp only [Char.isDigit, Bool.and_eq_true, decide_eq_true_eq] at h
    exact h
  refine ⟨?_, ?_, lower_of_ascii (by omega) ?_⟩
  · rw [Bool.eq_false_iff]
    intro htrimmed
    have hx := (isTrimmed_iff x).mp htrimmed
    omega
  · rintro rfl
    exact absurd h (by decide)
  · have hsmall : ¬ (65 ≤ x.toNat ∧ x.toNat ≤ 90) := by omega
    exact Char.toNat_inj.mp (by rw [toNat_toLower, if_neg hsmall])

theorem mem_trim {x : Char} {s : String} (h : x ∈ (trim s).toList) : x ∈ s.toList := by
  rw [trim, String.toList_ofList, List.mem_reverse] at h
  have hrest := List.mem_reverse.mp ((List.dropWhile_suffix _).subset h)
  exact (List.dropWhile_suffix _).subset hrest

theorem dropWhile_isTrimmed {cs : List Char} (h : ∀ x ∈ cs, isTrimmed x = false) :
    cs.dropWhile isTrimmed = cs := by
  cases cs with
  | nil => rfl
  | cons x cs => rw [List.dropWhile_cons, h x List.mem_cons_self, if_neg Bool.false_ne_true]

theorem trim_of_untrimmed {s : String} (h : ∀ x ∈ s.toList, isTrimmed x = false) : trim s = s := by
  have hreverse : ∀ x ∈ s.toList.reverse, isTrimmed x = false := fun x hx =>
    h x (List.mem_reverse.mp hx)
  rw [trim, dropWhile_isTrimmed h, dropWhile_isTrimmed hreverse, List.reverse_reverse,
    String.ofList_toList]

/-- The domain of an admitted write consists of characters that pass through. -/
theorem plain_of_domain {d : String} (hd : a.domain cases = some d) :
    ∀ x ∈ d.toList, Plain cases x := by
  obtain ⟨email, hemail, rfl⟩ := Option.map_eq_some_iff.mp (orNull_eq_some_iff.mp hd).1
  have hvalid : isEmail email = true := by
    have hadmitted := a.admitted
    change submitterEmail a.rawEmail = some email at hemail
    rw [hemail, WriteKind.admits_some] at hadmitted
    exact hadmitted
  have huntrimmed : ∀ x ∈ (trim email).toList, isTrimmed x = false := by
    simp only [isEmail, Bool.and_eq_true, List.all_eq_true] at hvalid
    intro x hx
    simpa using hvalid.1.1.1 x (mem_trim hx)
  intro x hx
  rw [emailDomain, String.toList_ofList, afterAt] at hx
  have hnot : x ≠ '@' := by simpa using List.mem_takeWhile_imp hx
  have hmem := List.mem_of_mem_drop ((List.takeWhile_prefix _).subset hx)
  have hlower := (List.dropWhile_suffix _).subset hmem
  exact ⟨cases.untrimmed _ huntrimmed x hlower, hnot, cases.lowered _ x hlower⟩

theorem ofList_ne_empty {cs : List Char} (h : cs ≠ []) : String.ofList cs ≠ "" := by
  intro hempty
  have hlist := congrArg String.toList hempty
  rw [String.toList_ofList] at hlist
  exact h hlist

/-- The address of somebody at a domain. -/
def addressAt (domain : List Char) : String := String.ofList ('x' :: '@' :: domain)

theorem toList_addressAt (domain : List Char) :
    (addressAt domain).toList = 'x' :: '@' :: domain := String.toList_ofList

theorem takeWhile_notAt {cs : List Char} (h : ∀ x ∈ cs, x ≠ '@') :
    cs.takeWhile (· != '@') = cs := by
  rw [List.takeWhile_eq_self_iff]
  intro x hx
  simpa using h x hx

theorem untrimmed_addressAt {cs : List Char} (h : ∀ x ∈ cs, Plain cases x) :
    ∀ x ∈ (addressAt cs).toList, isTrimmed x = false := by
  intro x hx
  rw [toList_addressAt] at hx
  rcases List.mem_cons.mp hx with rfl | hx
  · rfl
  · rcases List.mem_cons.mp hx with rfl | hx
    · rfl
    · exact (h x hx).untrimmed

theorem emailDomain_addressAt {cs : List Char} (h : ∀ x ∈ cs, Plain cases x) :
    emailDomain cases (addressAt cs) = String.ofList cs := by
  have htrim : trim (addressAt cs) = addressAt cs := trim_of_untrimmed (untrimmed_addressAt h)
  have hlower : cases.lower ('x' :: '@' :: cs) = 'x' :: '@' :: cs := by
    refine cases.fixed _ fun x hx => ?_
    rcases List.mem_cons.mp hx with rfl | hx
    · exact Plain.x.lowered
    · rcases List.mem_cons.mp hx with rfl | hx
      · exact lower_of_ascii (by decide) rfl
      · exact (h x hx).lowered
  rw [emailDomain, htrim, toList_addressAt, hlower]
  change String.ofList (cs.takeWhile (· != '@')) = String.ofList cs
  rw [takeWhile_notAt fun x hx => (h x hx).notAt]

/-- The handlers take such an address as it comes. -/
theorem submitterEmail_addressAt {cs : List Char} (h : ∀ x ∈ cs, Plain cases x)
    (hlength : Utf16.length cs ≤ 253) :
    submitterEmail (some (addressAt cs)) = some (addressAt cs) := by
  have htrim : trim (addressAt cs) = addressAt cs := trim_of_untrimmed (untrimmed_addressAt h)
  have hcut : sliceUnits 255 (addressAt cs) = addressAt cs := by
    rw [sliceUnits, toList_addressAt, Utf16.slice_of_length_le]
    · rfl
    · change 1 + (1 + Utf16.length cs) ≤ 255
      omega
  have hne : addressAt cs ≠ "" := ofList_ne_empty (List.cons_ne_nil _ _)
  rw [submitterEmail, Option.getD_some, htrim, hcut]
  exact orNull_eq_some_iff.mpr ⟨rfl, hne⟩

/-- Some text, a dot and a letter are a domain. -/
theorem isEmail_addressAt {cs : List Char} (hne : cs ≠ [])
    (h : ∀ x ∈ cs ++ ['.', 'z'], Plain cases x) :
    isEmail (addressAt (cs ++ ['.', 'z'])) = true := by
  obtain ⟨y, ys, rfl⟩ := List.exists_cons_of_ne_nil hne
  have hdot : ((y :: ys ++ ['.', 'z']).tail.dropLast).contains '.' = true := by
    simp [List.dropLast_append_of_ne_nil]
  have hnot : (y :: ys ++ ['.', 'z']).contains '@' = false := by
    rw [Bool.eq_false_iff]
    intro hmem
    exact (h '@' (List.contains_iff_mem.mp hmem)).notAt rfl
  have hall : (addressAt (y :: ys ++ ['.', 'z'])).toList.all (fun x => !isTrimmed x) = true := by
    rw [List.all_eq_true]
    intro x hx
    rw [untrimmed_addressAt h x hx]
    rfl
  rw [isEmail]
  simp only [hall, Bool.true_and]
  rw [toList_addressAt]
  change (!(y :: ys ++ ['.', 'z']).contains '@' &&
    ((y :: ys ++ ['.', 'z']).tail.dropLast).contains '.') = true
  rw [hnot, hdot]
  rfl

/-- A guest post on a board, from a domain that ends with a dot and a letter. -/
def postFrom (cases : LowerCase) (tenantId now : Nat) (htenant : tenantId < 2 ^ 64)
    (domain : List Char) (hne : domain ≠ []) (hplain : ∀ x ∈ domain ++ ['.', 'z'], Plain cases x)
    (hlength : Utf16.length domain ≤ 251) : GuestWrite where
  kind := .post
  tenantId := tenantId
  voterHash := none
  rawEmail := some (addressAt (domain ++ ['.', 'z']))
  now := now
  tenantId_lt := htenant
  admitted := by
    have hfits : Utf16.length (domain ++ ['.', 'z']) ≤ 253 := by
      have hdot : Utf16.length ['.', 'z'] = 2 := rfl
      rw [Utf16.length_append]
      omega
    rw [submitterEmail_addressAt hplain hfits, WriteKind.admits_some]
    exact isEmail_addressAt hne hplain

theorem domain_postFrom {tenantId now : Nat} {htenant : tenantId < 2 ^ 64} {domain : List Char}
    {hne : domain ≠ []} {hplain : ∀ x ∈ domain ++ ['.', 'z'], Plain cases x}
    {hlength : Utf16.length domain ≤ 251} :
    (postFrom cases tenantId now htenant domain hne hplain hlength).domain cases =
      some (String.ofList (domain ++ ['.', 'z'])) := by
  have hfits : Utf16.length (domain ++ ['.', 'z']) ≤ 253 := by
    have hdot : Utf16.length ['.', 'z'] = 2 := rfl
    rw [Utf16.length_append]
    omega
  change orNull ((submitterEmail (some (addressAt (domain ++ ['.', 'z'])))).map
    (emailDomain cases)) = _
  rw [submitterEmail_addressAt hplain hfits, Option.map_some, emailDomain_addressAt hplain]
  exact orNull_eq_some_iff.mpr ⟨rfl, ofList_ne_empty (by simp)⟩

/-- The scope key of a domain shows no more than the first hundred units. -/
theorem scopeKey_domain_eq {d d' : String} {m n : Nat} (cs ds ds' : List Char)
    (hkey : (domainKey d m).toList = cs ++ ds) (hkey' : (domainKey d' n).toList = cs ++ ds')
    (hlength : 100 ≤ Utf16.length cs) :
    Check.scopeKey ⟨domainKey d m, .domainDay⟩ = Check.scopeKey ⟨domainKey d' n, .domainDay⟩ := by
  apply String.toList_injective
  rw [toList_scopeKey, toList_scopeKey, hkey, hkey', Utf16.slice_append hlength,
    Utf16.slice_append hlength]

/-- Another board. -/
def otherBoard (n : Nat) : Nat := if n = 1 then 2 else 1

theorem otherBoard_ne (n : Nat) : otherBoard n ≠ n := by
  unfold otherBoard
  split <;> omega

theorem otherBoard_lt (n : Nat) : otherBoard n < 2 ^ 64 := by
  unfold otherBoard
  split <;> decide

/-- A write on another board whose domain gives the same key: the same domain, if it fills the
key, and else one that goes on like the key. -/
theorem exists_sharing {d : String} (hd : a.domain cases = some d)
    (hlong : 100 ≤ Utf16.length (domainKey d a.tenantId).toList) :
    ∃ b : GuestWrite, b.tenantId ≠ a.tenantId ∧ b.now = a.now ∧ ∃ d', b.domain cases = some d' ∧
      Check.scopeKey ⟨domainKey d a.tenantId, .domainDay⟩ =
        Check.scopeKey ⟨domainKey d' b.tenantId, .domainDay⟩ := by
  have htag : Utf16.width 'd' = 1 ∧ Utf16.width ':' = 1 := ⟨rfl, rfl⟩
  -- the domain alone fills the column, or a longer domain on another board agrees up to the cut
  by_cases hfull : 98 ≤ Utf16.length d.toList
  · refine ⟨{ a with tenantId := otherBoard a.tenantId, tenantId_lt := otherBoard_lt _ },
      otherBoard_ne _, rfl, d, hd, ?_⟩
    refine scopeKey_domain_eq _ _ _ (toList_domainKey _ _) (toList_domainKey _ _) ?_
    simp only [Utf16.length_cons]
    omega
  · let digits := ':' :: Nat.toDigits 10 a.tenantId
    have hplain : ∀ x ∈ (d.toList ++ digits) ++ ['.', 'z'], Plain cases x := by
      intro x hx
      rcases List.mem_append.mp hx with hx | hx
      · rcases List.mem_append.mp hx with hx | hx
        · exact plain_of_domain hd x hx
        · rcases List.mem_cons.mp hx with rfl | hx
          · exact .colon
          · exact .of_isDigit (Nat.isDigit_of_mem_toDigits (by decide) (by decide) hx)
      · rcases List.mem_cons.mp hx with rfl | hx
        · exact .dot
        · rw [List.mem_singleton.mp hx]
          exact .z
    have hdigits := length_toDigits_le a.tenantId_lt
    have hlength : Utf16.length (d.toList ++ digits) ≤ 251 := by
      simp only [digits, Utf16.length_append, Utf16.length_cons]
      omega
    refine ⟨postFrom cases (otherBoard a.tenantId) a.now (otherBoard_lt _) (d.toList ++ digits)
      (by simp [digits]) hplain hlength, otherBoard_ne _, rfl, _, domain_postFrom, ?_⟩
    refine scopeKey_domain_eq (domainKey d a.tenantId).toList []
      (['.', 'z'] ++ ':' :: Nat.toDigits 10 (otherBoard a.tenantId)) (List.append_nil _).symm ?_
      hlong
    rw [toList_domainKey, toList_domainKey, String.toList_ofList]
    simp only [digits, List.cons_append, List.append_assoc]
    rfl

/-- A write from a domain is charged against it. -/
theorem mem_checks {d : String} (hd : a.domain cases = some d) :
    ⟨domainKey d a.tenantId, .domainDay⟩ ∈ a.checks cases := by
  refine mem_checksFor.mpr (.inr (.inr ⟨d, ?_, rfl⟩))
  rw [GuestWrite.domain, orNull_orNull]
  exact hd

/-- A guest write shares rows within their scopes only, whatever other writes there are, if
and only if its domain and the workspace's id fit into the key with room to spare. -/
theorem isolated_iff (cases : LowerCase) (a : GuestWrite) : (∀ b, a.Isolated cases b) ↔
    ∀ d, a.domain cases = some d → Utf16.length (domainKey d a.tenantId).toList < 100 := by
  constructor
  · intro h d hd
    by_contra hlong
    obtain ⟨b, htenant, hnow, d', hd', hkey⟩ := exists_sharing hd (Nat.le_of_not_lt hlong)
    have hrow : a.row ⟨domainKey d a.tenantId, .domainDay⟩ =
        b.row ⟨domainKey d' b.tenantId, .domainDay⟩ := by
      rw [GuestWrite.row, GuestWrite.row, hkey, hnow]
    exact htenant (h b _ (mem_checks hd) _ (mem_checks hd') hrow).2.1.symm
  · exact fun h b => isolated_of_length_lt h

/-! ### Two boards that share a counter -/

/-- A mapping that knows, beyond ASCII, the two characters whose small letters are ASCII. One of
them becomes two. -/
def lowerChars (c : Char) : List Char :=
  if c.toNat = 0x130 then ['i', '\u0307'] else if c.toNat = 0x212a then ['k'] else [c.toLower]

theorem lowerChars_of_ascii {c : Char} (h : c.toNat < 128) : lowerChars c = [c.toLower] := by
  rw [lowerChars, if_neg (by omega), if_neg (by omega)]

/-- What comes out is in lower case. -/
theorem lowerChars_of_mem {c d : Char} (h : d ∈ lowerChars c) : lowerChars d = [d] := by
  unfold lowerChars at h
  split_ifs at h with hdotted hkelvin
  · rcases List.mem_cons.mp h with rfl | h
    · rfl
    · rw [List.mem_singleton.mp h]
      rfl
  · rw [List.mem_singleton.mp h]
    rfl
  · obtain rfl := List.mem_singleton.mp h
    have hc := toNat_toLower c
    have hlower : c.toLower.toLower = c.toLower := by
      apply Char.toNat_inj.mp
      rw [toNat_toLower c.toLower]
      split_ifs at hc ⊢ <;> omega
    rw [lowerChars, if_neg (by split_ifs at hc <;> omega), if_neg (by split_ifs at hc <;> omega),
      hlower]

theorem isTrimmed_of_mem_lowerChars {c d : Char} (hc : isTrimmed c = false)
    (h : d ∈ lowerChars c) : isTrimmed d = false := by
  unfold lowerChars at h
  split_ifs at h with hdotted hkelvin
  · rcases List.mem_cons.mp h with rfl | h
    · rfl
    · rw [List.mem_singleton.mp h]
      rfl
  · rw [List.mem_singleton.mp h]
    rfl
  · obtain rfl := List.mem_singleton.mp h
    rw [Bool.eq_false_iff] at hc ⊢
    intro htrimmed
    refine hc ((isTrimmed_iff c).mpr ?_)
    have hnat := toNat_toLower c
    have hlower := (isTrimmed_iff _).mp htrimmed
    split_ifs at hnat <;> omega

def LowerCase.dotted : LowerCase where
  lower cs := cs.flatMap lowerChars
  ascii cs h := by
    induction cs with
    | nil => rfl
    | cons c cs ih =>
      rw [List.flatMap_cons, List.map_cons, ih fun d hd => h d (List.mem_cons_of_mem _ hd),
        lowerChars_of_ascii (h c List.mem_cons_self)]
      rfl
  lowered cs d hd := by
    obtain ⟨c, -, hd⟩ := List.mem_flatMap.mp hd
    rw [List.flatMap_singleton]
    exact lowerChars_of_mem hd
  fixed cs h := by
    induction cs with
    | nil => rfl
    | cons c cs ih =>
      have hc := h c List.mem_cons_self
      rw [List.flatMap_singleton] at hc
      rw [List.flatMap_cons, hc, ih fun d hd => h d (List.mem_cons_of_mem _ hd)]
      rfl
  untrimmed cs h d hd := by
    obtain ⟨c, hc, hd⟩ := List.mem_flatMap.mp hd
    exact isTrimmed_of_mem_lowerChars (h c hc) hd

/-- The beginning of a long domain. -/
def longDomain : List Char := List.replicate 98 'x'

theorem plain_longDomain : ∀ x ∈ longDomain ++ ['.', 'z'], Plain .dotted x := by
  intro x hx
  rcases List.mem_append.mp hx with hx | hx
  · rw [List.eq_of_mem_replicate hx]
    exact .x
  · rcases List.mem_cons.mp hx with rfl | hx
    · exact .dot
    · rw [List.mem_singleton.mp hx]
      exact .z

/-- A post from that domain. -/
def longDomainPost (tenantId : Nat) (h : tenantId < 2 ^ 64) : GuestWrite :=
  postFrom .dotted tenantId 0 h longDomain (List.cons_ne_nil _ _) plain_longDomain (by decide)

theorem domain_longDomainPost (tenantId : Nat) (h : tenantId < 2 ^ 64) :
    (longDomainPost tenantId h).domain .dotted = some (String.ofList (longDomain ++ ['.', 'z'])) :=
  domain_postFrom

theorem email_longDomainPost (tenantId : Nat) (h : tenantId < 2 ^ 64) :
    (longDomainPost tenantId h).email = some (addressAt (longDomain ++ ['.', 'z'])) :=
  submitterEmail_addressAt plain_longDomain (by decide)

/-- Posts from that domain on two boards increment one counter. -/
theorem long_domain_shares_counter : ∃ a b : GuestWrite, a.tenantId = 1 ∧ b.tenantId = 2 ∧
    a.email = some (addressAt (longDomain ++ ['.', 'z'])) ∧ b.email = a.email ∧
      ¬ a.Isolated .dotted b := by
  refine ⟨longDomainPost 1 (by decide), longDomainPost 2 (by decide), rfl, rfl,
    email_longDomainPost 1 _, rfl, fun h => ?_⟩
  have hkey (n : Nat) : (domainKey (String.ofList (longDomain ++ ['.', 'z'])) n).toList =
      ('d' :: ':' :: longDomain) ++ (['.', 'z'] ++ ':' :: Nat.toDigits 10 n) := by
    rw [toList_domainKey, String.toList_ofList]
    simp only [List.cons_append, List.append_assoc]
  have hshared := h _ (mem_checks (domain_longDomainPost 1 (by decide)))
    _ (mem_checks (domain_longDomainPost 2 (by decide))) (by
      rw [GuestWrite.row, GuestWrite.row, scopeKey_domain_eq _ _ _ (hkey _) (hkey _) (by decide)]
      rfl)
  exact absurd hshared.2.1 (by decide)

/-- Lower case makes a domain of 51 characters one of 100. -/
example : (emailDomain .dotted (String.ofList
    ('a' :: '@' :: List.replicate 49 'İ' ++ ['.', 'z']))).toList.length = 100 := by
  decide +kernel

end Feedbase
