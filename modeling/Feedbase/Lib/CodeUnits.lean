import Mathlib.Data.Char
import Mathlib.Data.List.Chain
import Mathlib.Data.List.Infix

/-!
# Texts as sequences of UTF-16 code units

A language with 16-bit characters sees a text as a sequence of code units, and a text from
outside may hold half of a character. Written as UTF-8, such a half becomes the replacement
character, so that two texts may be written alike; a text of ASCII characters is written like
no other.

## Main definitions

* `Text`, `Text.ofString`, `Text.toString` — texts, and the way from and to well-formed ones
* `Text.isSpace`, `Text.trim`, `Text.isDigit`, `Text.value` — white space and numbers
* `Text.CaseMap` — a lower-case mapping, known on ASCII characters
* `List.cutAt` — what stands on either side of the first separator
* `List.HasRun` — equal entries one after the other

## Main results

* `Text.toUTF8_inj_of_ascii` — a text of ASCII characters is determined by its UTF-8
* `Text.trim_of_ends`, `Text.head_trim`, `Text.getLast_trim` — trimming
* `Text.value_ofNat` — reading a decimal number
* `List.cutAt_eq_some_iff` — the cut is at the first separator
* `List.hasRun_replicate_append`, `List.hasRun_two_iff` — runs
-/

/-- A code unit is a number below 2 ^ 16. -/
abbrev Text := List UInt16

namespace Text

/-- The code units of a character. -/
def ofChar (c : Char) : Text :=
  if c.toNat < 0x10000 then [UInt16.ofNat c.toNat]
  else
    [UInt16.ofNat (0xd800 + (c.toNat - 0x10000) / 0x400),
      UInt16.ofNat (0xdc00 + (c.toNat - 0x10000) % 0x400)]

def ofString (s : String) : Text := s.toList.flatMap ofChar

/-- The first half of a character beyond the basic plane. -/
def isHigh (u : UInt16) : Bool := 0xd800 ≤ u.toNat && u.toNat < 0xdc00

/-- The second half. -/
def isLow (u : UInt16) : Bool := 0xdc00 ≤ u.toNat && u.toNat < 0xe000

/-- A code unit on its own. -/
def scalar (u : UInt16) : Char := if isHigh u || isLow u then '\uFFFD' else Char.ofNat u.toNat

/-- The character of two halves. -/
def paired (u v : UInt16) : Char :=
  Char.ofNat (0x10000 + (u.toNat - 0xd800) * 0x400 + (v.toNat - 0xdc00))

/-- The characters of a text. -/
def decode : Text → List Char
  | [] => []
  | [u] => [scalar u]
  | u :: v :: t =>
    if isHigh u && isLow v then paired u v :: decode t else scalar u :: decode (v :: t)

/-- The text as UTF-8 has it. -/
def toString (t : Text) : String := String.ofList (decode t)

/-- Its bytes. -/
def toUTF8 (t : Text) : ByteArray := (toString t).toUTF8

variable {s t : Text} {u v : UInt16}

theorem toNat_charOfNat {n : Nat} (h : n.isValidChar) : (Char.ofNat n).toNat = n := by
  rw [Char.ofNat, dif_pos h]
  rfl

theorem toNat_scalar (h : u.toNat < 128) : (scalar u).toNat = u.toNat := by
  have hhigh : isHigh u = false := by
    simp only [isHigh, Bool.and_eq_false_iff, decide_eq_false_iff_not]
    omega
  have hlow : isLow u = false := by
    simp only [isLow, Bool.and_eq_false_iff, decide_eq_false_iff_not]
    omega
  have hvalid : u.toNat.isValidChar := .inl (by omega)
  rw [scalar, hhigh, hlow, Bool.or_false, if_neg Bool.false_ne_true, toNat_charOfNat hvalid]

/-- Only the code unit of an ASCII character becomes that character. -/
theorem scalar_inj (hv : v.toNat < 128) (h : scalar u = scalar v) : u = v := by
  have hnat : (scalar u).toNat = v.toNat := by rw [h, toNat_scalar hv]
  unfold scalar at hnat
  split at hnat
  · have hreplacement : ('\uFFFD' : Char).toNat = 0xfffd := by decide
    omega
  · rename_i hhalf
    have hvalid : u.toNat.isValidChar := by
      have hlt : u.toNat < 65536 := u.toNat_lt
      simp only [isHigh, isLow, Bool.or_eq_true, Bool.and_eq_true, decide_eq_true_eq] at hhalf
      by_cases hsmall : u.toNat < 0xd800
      · exact .inl hsmall
      · exact .inr ⟨by omega, by omega⟩
    rw [toNat_charOfNat hvalid] at hnat
    exact UInt16.toNat_inj.mp hnat

/-- A character of two halves is none of the basic plane. -/
theorem paired_ne (hu : isHigh u = true) (hv : isLow v = true) {c : Char} (hc : c.toNat < 128) :
    paired u v ≠ c := by
  intro h
  simp only [isHigh, isLow, Bool.and_eq_true, decide_eq_true_eq] at hu hv
  have hvalid : (0x10000 + (u.toNat - 0xd800) * 0x400 + (v.toNat - 0xdc00)).isValidChar :=
    .inr ⟨by omega, by omega⟩
  have hnat := congrArg Char.toNat h
  rw [paired, toNat_charOfNat hvalid] at hnat
  omega

theorem decode_cons_ascii (hu : u.toNat < 128) : decode (u :: t) = scalar u :: decode t := by
  have hhigh : isHigh u = false := by
    simp only [isHigh, Bool.and_eq_false_iff, decide_eq_false_iff_not]
    omega
  cases t with
  | nil => rfl
  | cons v t => rw [decode, hhigh, Bool.false_and, if_neg Bool.false_ne_true]

theorem decode_inj_of_ascii (ht : ∀ u ∈ t, u.toNat < 128) (h : decode s = decode t) : s = t := by
  induction s using decode.induct generalizing t with
  | case1 =>
    cases t with
    | nil => rfl
    | cons v t => simp [decode, decode_cons_ascii (ht v List.mem_cons_self)] at h
  | case2 u =>
    cases t with
    | nil => simp [decode] at h
    | cons v t =>
      have hv := ht v List.mem_cons_self
      rw [decode_cons_ascii hv] at h
      obtain ⟨hhead, htail⟩ := List.cons.inj h
      obtain rfl := scalar_inj hv hhead
      cases t with
      | nil => rfl
      | cons w t =>
        rw [decode_cons_ascii (ht w (List.mem_cons_of_mem _ List.mem_cons_self))] at htail
        cases htail
  -- a pair is no character of the Latin alphabet
  | case3 u v s hpair ih =>
    rw [Bool.and_eq_true] at hpair
    rw [decode, if_pos (Bool.and_eq_true_iff.mpr hpair)] at h
    cases t with
    | nil => cases h
    | cons w t =>
      have hw := ht w List.mem_cons_self
      rw [decode_cons_ascii hw] at h
      exact absurd (List.cons.inj h).1 (paired_ne hpair.1 hpair.2 (by rwa [toNat_scalar hw]))
  | case4 u v s hpair ih =>
    rw [decode, if_neg hpair] at h
    cases t with
    | nil => cases h
    | cons w t =>
      have hw := ht w List.mem_cons_self
      rw [decode_cons_ascii hw] at h
      obtain ⟨hhead, htail⟩ := List.cons.inj h
      rw [scalar_inj hw hhead, ih (fun x hx => ht x (List.mem_cons_of_mem _ hx)) htail]

/-- A text of ASCII characters is written like no other. -/
theorem toUTF8_inj_of_ascii (ht : ∀ u ∈ t, u.toNat < 128) : toUTF8 s = toUTF8 t ↔ s = t := by
  constructor
  · intro h
    have hstring : toString s = toString t := String.toByteArray_inj.mp h
    exact decode_inj_of_ascii ht (String.ofList_injective hstring)
  · intro h
    rw [h]

/-! ### White space -/

/-- White space and line terminators: `\s`, and what `trim` takes off. -/
def isSpace (u : UInt16) : Bool :=
  (9 ≤ u.toNat && u.toNat ≤ 13) || u.toNat == 32 || u.toNat == 0xa0 || u.toNat == 0x1680 ||
    (0x2000 ≤ u.toNat && u.toNat ≤ 0x200a) || u.toNat == 0x2028 || u.toNat == 0x2029 ||
    u.toNat == 0x202f || u.toNat == 0x205f || u.toNat == 0x3000 || u.toNat == 0xfeff

/-- `s.trim()`. -/
def trim (t : Text) : Text := ((t.dropWhile isSpace).reverse.dropWhile isSpace).reverse

/-- A text that begins and ends with something else stays as it is. -/
theorem trim_of_ends (hfirst : ∀ u ∈ t.head?, isSpace u = false)
    (hlast : ∀ u ∈ t.getLast?, isSpace u = false) : trim t = t := by
  have hdrop : ∀ r : Text, (∀ u ∈ r.head?, isSpace u = false) → r.dropWhile isSpace = r := by
    intro r hr
    cases r with
    | nil => rfl
    | cons u r => exact List.dropWhile_cons_of_neg (by rw [hr u rfl]; exact Bool.false_ne_true)
  rw [trim, hdrop t hfirst, hdrop _ (by rwa [List.head?_reverse]), List.reverse_reverse]

theorem head_dropWhile {r : Text} (hu : u ∈ (r.dropWhile isSpace).head?) : isSpace u = false := by
  have hhead := List.head?_dropWhile_not isSpace r
  rw [Option.mem_def.mp hu] at hhead
  exact hhead

theorem trim_isPrefix (t : Text) : trim t <+: t.dropWhile isSpace := by
  rw [← List.reverse_suffix, trim, List.reverse_reverse]
  exact List.dropWhile_suffix isSpace

/-- Trimming takes the two ends off. -/
theorem trim_isInfix (t : Text) : trim t <:+: t :=
  (trim_isPrefix t).isInfix.trans (List.dropWhile_suffix isSpace).isInfix

theorem getLast_trim (hu : u ∈ (trim t).getLast?) : isSpace u = false := by
  rw [trim, List.getLast?_reverse] at hu
  exact head_dropWhile hu

theorem head_trim (hu : u ∈ (trim t).head?) : isSpace u = false := by
  obtain ⟨rest, hrest⟩ := trim_isPrefix t
  apply head_dropWhile (r := t)
  rw [← hrest, List.head?_append, Option.mem_def.mp hu]
  rfl

/-! ### Decimal numbers -/

/-- `[0-9]`. -/
def isDigit (u : UInt16) : Bool := 48 ≤ u.toNat && u.toNat ≤ 57

/-- The number that a text of digits writes. -/
def value (t : Text) : Nat := t.foldl (fun n u => 10 * n + (u.toNat - 48)) 0

/-- A number in decimals. -/
def ofNat (n : Nat) : Text := ofString (ToString.toString n)

/-- A decimal digit as a code unit. -/
def ofDigit (c : Char) : UInt16 := UInt16.ofNat c.toNat

theorem toNat_ofDigit {c : Char} (h : c.isDigit = true) : (ofDigit c).toNat = c.toNat := by
  have hle : c.toNat ≤ 57 := (Char.isDigit_iff_toNat.mp h).2
  exact Nat.mod_eq_of_lt (by omega)

theorem isDigit_of_mem_toDigits {n : Nat} {c : Char} (h : c ∈ Nat.toDigits 10 n) :
    c.isDigit = true := Nat.isDigit_of_mem_toDigits (by decide) (by decide) h

theorem ofNat_eq_map (n : Nat) : ofNat n = (Nat.toDigits 10 n).map ofDigit := by
  have hchar : ∀ c ∈ Nat.toDigits 10 n, ofChar c = pure (ofDigit c) := by
    intro c hc
    have hle : c.toNat ≤ 57 := (Char.isDigit_iff_toNat.mp (isDigit_of_mem_toDigits hc)).2
    rw [ofChar, if_pos (by omega)]
    rfl
  rw [ofNat, ofString, Nat.toString_eq_ofList_toDigits, String.toList_ofList,
    List.flatMap_congr hchar]
  exact List.flatMap_pure_eq_map _ _

theorem ofNat_ne_nil (n : Nat) : ofNat n ≠ [] := by
  rw [ofNat_eq_map, ne_eq, List.map_eq_nil_iff]
  exact Nat.toDigits_ne_nil

theorem isDigit_of_mem_ofNat {n : Nat} (h : u ∈ ofNat n) : isDigit u = true := by
  rw [ofNat_eq_map] at h
  obtain ⟨c, hc, rfl⟩ := List.mem_map.mp h
  have hdigit := isDigit_of_mem_toDigits hc
  obtain ⟨hlow, hhigh⟩ : 48 ≤ c.toNat ∧ c.toNat ≤ 57 := Char.isDigit_iff_toNat.mp hdigit
  rw [isDigit, toNat_ofDigit hdigit, decide_eq_true hlow, decide_eq_true hhigh]
  rfl

/-- Reading a number back. -/
theorem value_ofNat (n : Nat) : value (ofNat n) = n := by
  have hfold : ∀ (cs : List Char) (m : Nat), (∀ c ∈ cs, c.isDigit = true) →
      (cs.map ofDigit).foldl (fun n u => 10 * n + (u.toNat - 48)) m = Nat.ofDigitChars 10 cs m := by
    intro cs
    induction cs with
    | nil => exact fun _ _ => rfl
    | cons c cs ih =>
      intro m hcs
      rw [List.map_cons, List.foldl_cons, Nat.ofDigitChars_cons,
        toNat_ofDigit (hcs c List.mem_cons_self)]
      exact ih _ fun d hd => hcs d (List.mem_cons_of_mem _ hd)
  rw [ofNat_eq_map, value, hfold _ 0 fun c hc => isDigit_of_mem_toDigits hc,
    Nat.ofDigitChars_ten_toDigits]

theorem isSpace_of_isDigit (h : isDigit u = true) : isSpace u = false := by
  simp only [isDigit, Bool.and_eq_true, decide_eq_true_eq] at h
  simp only [isSpace, Bool.or_eq_false_iff, Bool.and_eq_false_iff, decide_eq_false_iff_not,
    beq_eq_false_iff_ne]
  omega

/-! ### Case -/

def isUpper (u : UInt16) : Bool := 65 ≤ u.toNat && u.toNat ≤ 90

def isLower (u : UInt16) : Bool := 97 ≤ u.toNat && u.toNat ≤ 122

def lowerAscii (u : UInt16) : UInt16 := if isUpper u then u + 32 else u

/-- A lower-case mapping of texts, of which only the part on ASCII characters is fixed. -/
structure CaseMap where
  lower : Text → Text
  lower_ascii : ∀ t, (∀ u ∈ t, u.toNat < 128) → lower t = t.map lowerAscii

/-- The mapping that leaves everything else alone. -/
def CaseMap.ascii : CaseMap where
  lower t := t.map lowerAscii
  lower_ascii _ _ := rfl

end Text

/-! ### Cutting at a separator -/

namespace List

/-- What stands before the first separator, and what follows it. -/
def cutAt [DecidableEq α] (sep : α) : List α → Option (List α × List α)
  | [] => none
  | a :: l => if a = sep then some ([], l) else (cutAt sep l).map fun (x, y) => (a :: x, y)

theorem cutAt_eq_some_iff [DecidableEq α] {sep : α} {l x y : List α} :
    cutAt sep l = some (x, y) ↔ l = x ++ sep :: y ∧ sep ∉ x := by
  induction l generalizing x with
  | nil => simp [cutAt]
  | cons a l ih =>
    rw [cutAt]
    by_cases ha : a = sep
    · subst ha
      rw [if_pos rfl]
      constructor
      · intro h
        obtain ⟨rfl, rfl⟩ := Prod.mk.inj (Option.some.inj h)
        exact ⟨rfl, not_mem_nil⟩
      · rintro ⟨hl, hx⟩
        cases x with
        | nil => rw [(cons.inj hl).2]
        | cons b x => exact absurd ((cons.inj hl).1 ▸ mem_cons_self) hx
    · rw [if_neg ha, Option.map_eq_some_iff]
      constructor
      · rintro ⟨⟨x', y'⟩, hcut, heq⟩
        obtain ⟨rfl, rfl⟩ := Prod.mk.inj heq
        obtain ⟨rfl, hx⟩ := ih.mp hcut
        exact ⟨rfl, by simp [hx, Ne.symm ha]⟩
      · rintro ⟨hl, hx⟩
        cases x with
        | nil => exact absurd (cons.inj hl).1 ha
        | cons b x =>
          obtain ⟨rfl, htail⟩ := cons.inj hl
          exact ⟨(x, y), ih.mpr ⟨htail, fun h => hx (mem_cons_of_mem _ h)⟩, rfl⟩

end List

/-! ### Runs of one entry -/

namespace List

/-- A run of `k` equal entries, one after the other. -/
def HasRun (k : Nat) (l : List α) : Prop := ∃ a, replicate k a <:+: l

theorem HasRun.le_length {k : Nat} {l : List α} (h : HasRun k l) : k ≤ l.length := by
  obtain ⟨a, hrun⟩ := h
  have hle := hrun.length_le
  rwa [length_replicate] at hle

/-- A run has every shorter one. -/
theorem hasRun_of_le {k n : Nat} (a : α) (l : List α) (h : k ≤ n) :
    HasRun k (replicate n a ++ l) := by
  obtain ⟨m, rfl⟩ := Nat.exists_eq_add_of_le h
  refine ⟨a, [], replicate m a ++ l, ?_⟩
  rw [nil_append, ← append_assoc, replicate_append_replicate]

/-- A run of `a` with something else after it does not begin with a longer run of `a`. -/
theorem le_of_replicate_isPrefix {k n : Nat} {a b : α} {l : List α} (hab : b ≠ a)
    (h : replicate k a <+: replicate n a ++ b :: l) : k ≤ n := by
  induction n generalizing k with
  | zero =>
    cases k with
    | zero => exact Nat.le_refl 0
    | succ k =>
      rw [replicate_zero, nil_append, replicate_succ, cons_prefix_cons] at h
      exact absurd h.1.symm hab
  | succ n ih =>
    cases k with
    | zero => exact Nat.zero_le _
    | succ k =>
      rw [replicate_succ, replicate_succ, cons_append, cons_prefix_cons] at h
      exact Nat.succ_le_succ (ih h.2)

/-- No run goes on from a run of `a` into something else. -/
theorem hasRun_replicate_append {k n : Nat} {a b : α} {l : List α} (hk : 0 < k) (hab : b ≠ a) :
    HasRun k (replicate n a ++ b :: l) ↔ k ≤ n ∨ HasRun k (b :: l) := by
  constructor
  · rintro ⟨c, hrun⟩
    induction n with
    | zero => exact .inr ⟨c, hrun⟩
    | succ n ih =>
      rw [replicate_succ, cons_append, infix_cons_iff] at hrun
      rcases hrun with hfirst | hrest
      · obtain ⟨j, rfl⟩ := Nat.exists_eq_succ_of_ne_zero (Nat.ne_of_gt hk)
        have hhead : c = a := by
          rw [replicate_succ, cons_prefix_cons] at hfirst
          exact hfirst.1
        rw [hhead, ← cons_append, ← replicate_succ] at hfirst
        exact .inl (le_of_replicate_isPrefix hab hfirst)
      · exact (ih hrest).imp_left Nat.le_succ_of_le
  · rintro (hle | ⟨c, hrun⟩)
    · exact hasRun_of_le a (b :: l) hle
    · exact ⟨c, hrun.trans (suffix_append _ _).isInfix⟩

/-- A run of two is two equal entries side by side. -/
theorem hasRun_two_iff {l : List α} : HasRun 2 l ↔ ¬ l.IsChain (· ≠ ·) := by
  constructor
  · rintro ⟨a, hrun⟩ hchain
    have hpair := hchain.infix hrun
    exact (isChain_cons_cons.mp hpair).1 rfl
  · intro hnot
    induction l with
    | nil => exact absurd .nil hnot
    | cons a l ih =>
      cases l with
      | nil => exact absurd (.singleton a) hnot
      | cons b l =>
        by_cases hab : a = b
        · obtain rfl := hab
          exact ⟨a, [], l, rfl⟩
        · obtain ⟨c, hrun⟩ := ih fun hrest => hnot (isChain_cons_cons.mpr ⟨hab, hrest⟩)
          exact ⟨c, infix_cons hrun⟩

end List
