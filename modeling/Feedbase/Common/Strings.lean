import Feedbase.Lib.Utf16
import Mathlib.Data.Char

/-!
# Strings

The string methods the handlers call on request data.
-/

namespace Feedbase

/-- White space and line terminators of `String.prototype.trim`. -/
def isTrimmed (c : Char) : Bool :=
  (9 ≤ c.toNat && c.toNat ≤ 13) || c.toNat == 32 || c.toNat == 0xa0 || c.toNat == 0x1680 ||
    (0x2000 ≤ c.toNat && c.toNat ≤ 0x200a) || c.toNat == 0x2028 || c.toNat == 0x2029 ||
    c.toNat == 0x202f || c.toNat == 0x205f || c.toNat == 0x3000 || c.toNat == 0xfeff

/-- `s.trim()`. -/
def trim (s : String) : String :=
  String.ofList (((s.toList.dropWhile isTrimmed).reverse.dropWhile isTrimmed).reverse)

/-- `s.toLowerCase()`, on the characters a subdomain may end up with: ASCII, and the
Kelvin sign, the one other character whose lower case is ASCII. The column's collation
ignores the case of every other letter. -/
def toLowerCase (s : String) : String :=
  String.ofList (s.toList.map fun c => if c.toNat = 0x212a then 'k' else c.toLower)

/-- `toLowerCase` on all of Unicode, where a character may become several. On ASCII it is the
usual mapping, every result is in lower case, a text in lower case stays as it is, and nothing
turns into white space. -/
structure LowerCase where
  lower : List Char → List Char
  ascii : ∀ cs, (∀ c ∈ cs, c.toNat < 128) → lower cs = cs.map Char.toLower
  lowered : ∀ cs, ∀ c ∈ lower cs, lower [c] = [c]
  fixed : ∀ cs, (∀ c ∈ cs, lower [c] = [c]) → lower cs = cs
  untrimmed : ∀ cs, (∀ c ∈ cs, isTrimmed c = false) → ∀ c ∈ lower cs, isTrimmed c = false

/-- `s.toUpperCase()`, on the letters a code consists of. -/
def toUpperCase (s : String) : String := String.ofList (s.toList.map Char.toUpper)

/-- `s.length`, in UTF-16 code units. -/
def lengthUnits (s : String) : Nat := Utf16.length s.toList

/-- `s.slice(0, n)`, counting UTF-16 code units. -/
def sliceUnits (n : Nat) (s : String) : String := String.ofList (Utf16.slice n s.toList)

/-- What a column of `n` characters keeps of a text. -/
def sliceTo (n : Nat) (s : String) : String := String.ofList (s.toList.take n)

/-- `EMAIL_RE`: `/^[^\s@]+@[^\s@]+\.[^\s@]+$/`. One `@`, and a dot inside of what
follows it. -/
def isEmail (s : String) : Bool :=
  let cs := s.toList
  let domain := (cs.dropWhile (· != '@')).drop 1
  cs.all (fun c => !isTrimmed c) && !(cs.takeWhile (· != '@')).isEmpty &&
    !domain.contains '@' && domain.tail.dropLast.contains '.'

end Feedbase
