import Feedbase.Lib.CodeUnits
import Mathlib.Data.Int.Log
import Mathlib.Data.Rat.Floor

/-!
# Numbers as JavaScript has them

A number is a double, an infinity, or no number at all. The nearest double to a rational is found
in units of the smallest one; a tie goes to the even double. Zero has no sign here.

## Main definitions

* `JsNum`, `JsNum.ofRat` — numbers, and the one nearest to a rational
* `JsNum.toText` — the shortest decimals that the number is nearest to
* `JsNum.ofText`, `parseInt` — the two ways to read one

## Main results

* `JsNum.ofRat_natCast` — a positive whole number is nearest to one, or beyond the largest
* `JsNum.ofRat_natCast_of_lt` — below 2 ^ 53 to itself
* `isWhole_parseInt` — what `parseInt` gives is whole
-/

inductive JsNum where
  | nan
  | inf (negative : Bool)
  | fin (q : Rat)
  deriving DecidableEq

namespace JsNum

def neg : JsNum → JsNum
  | nan => nan
  | inf negative => inf !negative
  | fin q => fin (-q)

/-- The whole number nearest to `a / b`, the even one of two. -/
def nearest (a b : Nat) : Nat :=
  if 2 * (a % b) < b ∨ 2 * (a % b) = b ∧ a / b % 2 = 0 then a / b else a / b + 1

/-- The smallest double is `2 ^ -places`. -/
@[irreducible] def places : Nat := 1074

/-- The place of the last binary digit that a double has for `a / b`, both in units of the
smallest. -/
def lastPlace (a b : Nat) : Nat := (a / b).log2 + 1 - 53

/-- `a / b`, in units of the smallest double, rounded at the place. -/
def roundAt (place a b : Nat) : Nat := nearest a (b * 2 ^ place) * 2 ^ place

/-- The double nearest to `a / b`, in units of the smallest. -/
def inUnits (a b : Nat) : Nat :=
  roundAt (lastPlace (a * 2 ^ places) b) (a * 2 ^ places) b

/-- The double nearest to `a / b`. -/
def ofRatio (a b : Nat) : JsNum :=
  if 2 ^ (1024 + places) ≤ inUnits a b then inf false else fin (inUnits a b / 2 ^ places)

/-- The double nearest to a rational. -/
def ofRat (q : Rat) : JsNum :=
  if q < 0 then (ofRatio q.num.natAbs q.den).neg else ofRatio q.num.natAbs q.den

def isNaN : JsNum → Bool
  | nan => true
  | _ => false

/-- What `||` passes over. -/
def isFalsy : JsNum → Bool
  | nan => true
  | inf _ => false
  | fin q => q = 0

def isNegative : JsNum → Bool
  | nan => false
  | inf negative => negative
  | fin q => q < 0

/-- `x || d` -/
def orElse (x d : JsNum) : JsNum := if x.isFalsy then d else x

/-- `Math.min`. -/
def min : JsNum → JsNum → JsNum
  | nan, _ => nan
  | _, nan => nan
  | inf true, _ => inf true
  | _, inf true => inf true
  | inf false, y => y
  | x, inf false => x
  | fin p, fin q => fin (if p ≤ q then p else q)

/-- `Math.max`. -/
def max (x y : JsNum) : JsNum := (min x.neg y.neg).neg

/-- `Math.floor`. -/
def floor : JsNum → JsNum
  | fin q => fin ⌊q⌋
  | x => x

/-- The number of a whole one that is not negative. -/
def toNat : JsNum → Nat
  | fin q => ⌊q⌋.toNat
  | _ => 0

/-- The product of two numbers that are not infinite. -/
def mul : JsNum → JsNum → JsNum
  | fin p, fin q => ofRat (p * q)
  | _, _ => nan

/-- The sum of two numbers. -/
def add : JsNum → JsNum → JsNum
  | nan, _ => nan
  | _, nan => nan
  | inf a, inf b => if a = b then inf a else nan
  | inf a, _ => inf a
  | _, inf b => inf b
  | fin p, fin q => ofRat (p + q)

/-- `x <= y`. -/
def le : JsNum → JsNum → Bool
  | nan, _ => false
  | _, nan => false
  | inf true, _ => true
  | _, inf false => true
  | inf false, _ => false
  | _, inf true => false
  | fin p, fin q => p ≤ q

/-! ### Writing a number -/

/-- The digits `s` and the power `n` of ten: `0.s` times that power is the shortest decimal that
the number is nearest to. The last argument counts the lengths that are left to try. -/
def shortest (q : Rat) (n : Int) : Nat → Nat → Nat × Int
  | k, 0 => (nearest (q * 10 ^ ((k : Int) - n)).num.natAbs (q * 10 ^ ((k : Int) - n)).den, n)
  | k, left + 1 =>
    let scaled := q * 10 ^ ((k : Int) - n)
    let s := nearest scaled.num.natAbs scaled.den
    if ofRat (s * 10 ^ (n - (k : Int))) = fin q then
      if s = 10 ^ k then (1, n + 1) else (s, n)
    else shortest q n (k + 1) left

def zeros (n : Nat) : Text := List.replicate n 48

/-- `Number::toString` for a positive number. -/
def positiveText (q : Rat) : Text :=
  let (s, n) := shortest q (Int.log 10 q + 1) 1 16
  let digits := Text.ofNat s
  let k := digits.length
  if (k : Int) ≤ n ∧ n ≤ 21 then digits ++ zeros (n - k).toNat
  else if 0 < n ∧ n ≤ 21 then digits.take n.toNat ++ 46 :: digits.drop n.toNat
  else if -6 < n ∧ n ≤ 0 then 48 :: 46 :: zeros (-n).toNat ++ digits
  else
    let fraction := if k = 1 then [] else 46 :: digits.drop 1
    let sign : UInt16 := if 0 < n - 1 then 43 else 45
    digits.take 1 ++ fraction ++ 101 :: sign :: Text.ofNat (n - 1).natAbs

def toText : JsNum → Text
  | nan => Text.ofString "NaN"
  | inf false => Text.ofString "Infinity"
  | inf true => Text.ofString "-Infinity"
  | fin q => if q = 0 then [48] else if q < 0 then 45 :: positiveText (-q) else positiveText q

/-! ### Reading a number -/

/-- A sign at the beginning, and the rest. -/
def signOf : Text → Bool × Text
  | [] => (false, [])
  | u :: t => if u = 43 then (false, t) else if u = 45 then (true, t) else (false, u :: t)

/-- The value of a digit or letter as a digit. -/
def digitValue (u : UInt16) : Option Nat :=
  if Text.isDigit u then some (u.toNat - 48)
  else if Text.isLower u then some (u.toNat - 87)
  else if Text.isUpper u then some (u.toNat - 55)
  else none

def isDigitOf (radix : Nat) (u : UInt16) : Bool := (digitValue u).any (· < radix)

/-- The number that digits write. -/
def valueOf (radix : Nat) (t : Text) : Nat :=
  t.foldl (fun n u => radix * n + (digitValue u).getD 0) 0

/-- Digits and nothing else. -/
def digitsOf (radix : Nat) (t : Text) : Option Nat :=
  if t ≠ [] ∧ t.all (isDigitOf radix) = true then some (valueOf radix t) else none

/-- A literal with a radix prefix. -/
def prefixedLiteral : Text → Option Nat
  | 48 :: u :: t =>
    if u = 98 ∨ u = 66 then digitsOf 2 t
    else if u = 111 ∨ u = 79 then digitsOf 8 t
    else if u = 120 ∨ u = 88 then digitsOf 16 t
    else none
  | _ => none

def exponentOf : Text → Option Int
  | [] => some 0
  | u :: t =>
    if u = 101 ∨ u = 69 then
      (digitsOf 10 (signOf t).2).map fun e => if (signOf t).1 then -(e : Int) else e
    else none

/-- A decimal literal without a sign. -/
def decimalLiteral (t : Text) : Option Rat :=
  let whole := t.takeWhile Text.isDigit
  let rest := t.dropWhile Text.isDigit
  let point := rest.head? = some 46
  let fraction := if point then rest.tail.takeWhile Text.isDigit else []
  let rest := if point then rest.tail.dropWhile Text.isDigit else rest
  if whole ++ fraction = [] then none
  else (exponentOf rest).map fun e =>
    (Text.value (whole ++ fraction) : Rat) * 10 ^ (e - (fraction.length : Int))

/-- `Number(text)`. -/
def ofText (t : Text) : JsNum :=
  let s := Text.trim t
  if s = [] then fin 0
  else
    match prefixedLiteral s with
    | some n => ofRat n
    | none =>
      let unsigned := (signOf s).2
      let magnitude :=
        if unsigned = Text.ofString "Infinity" then inf false
        else (decimalLiteral unsigned).elim nan ofRat
      if (signOf s).1 then magnitude.neg else magnitude

end JsNum

/-- What `parseInt` makes of the digits. -/
def parseDigits (negative : Bool) (radix : Nat) (digits : Text) : JsNum :=
  if digits = [] then .nan
  else if negative then (JsNum.ofRat (JsNum.valueOf radix digits)).neg
  else JsNum.ofRat (JsNum.valueOf radix digits)

/-- `parseInt(text)`. -/
def parseInt (t : Text) : JsNum :=
  let (negative, unsigned) := JsNum.signOf (t.dropWhile Text.isSpace)
  if unsigned.head? = some 48 ∧ (unsigned[1]? = some 120 ∨ unsigned[1]? = some 88) then
    parseDigits negative 16 ((unsigned.drop 2).takeWhile (JsNum.isDigitOf 16))
  else parseDigits negative 10 (unsigned.takeWhile (JsNum.isDigitOf 10))

namespace JsNum

/-! ### Whole numbers -/

theorem nearest_of_dvd {a b : Nat} (hb : 0 < b) (h : b ∣ a) : nearest a b = a / b := by
  have hrest : a % b = 0 := Nat.mod_eq_zero_of_dvd h
  rw [nearest, hrest, if_pos (.inl (by omega))]

theorem div_le_nearest (a b : Nat) : a / b ≤ nearest a b := by
  rw [nearest]
  split <;> omega

theorem roundAt_of_dvd {place a : Nat} (h : 2 ^ place ∣ a) : roundAt place a 1 = a := by
  rw [roundAt, one_mul, nearest_of_dvd (Nat.two_pow_pos place) h]
  exact Nat.div_mul_cancel h

/-- Where the last digit is not behind the point, nothing is rounded. -/
theorem inUnits_natCast_of_lt {k : Nat} (hk : k < 2 ^ 53) : inUnits k 1 = k * 2 ^ places := by
  by_cases hzero : k = 0
  · rw [hzero, inUnits, Nat.zero_mul, roundAt_of_dvd (Nat.dvd_zero _)]
  · have hne : k * 2 ^ places ≠ 0 := Nat.mul_ne_zero hzero (Nat.two_pow_pos places).ne'
    have hlog : (k * 2 ^ places).log2 < 53 + places := by
      rw [Nat.log2_lt hne, Nat.pow_add]
      exact Nat.mul_lt_mul_of_pos_right hk (Nat.two_pow_pos places)
    have hplace : lastPlace (k * 2 ^ places) 1 ≤ places := by
      rw [lastPlace, Nat.div_one]
      omega
    exact roundAt_of_dvd ((Nat.pow_dvd_pow 2 hplace).mul_left k)

/-- Where it is before the point, what is left is whole. -/
theorem inUnits_natCast_of_le {k : Nat} (hk : 2 ^ 53 ≤ k) :
    ∃ m, 0 < m ∧ inUnits k 1 = m * 2 ^ places := by
  have hpos : 0 < k := Nat.lt_of_lt_of_le (Nat.two_pow_pos 53) hk
  have hne : k * 2 ^ places ≠ 0 := Nat.mul_ne_zero hpos.ne' (Nat.two_pow_pos places).ne'
  have hlog : 53 + places ≤ (k * 2 ^ places).log2 := by
    rw [Nat.le_log2 hne, Nat.pow_add]
    exact Nat.mul_le_mul_right _ hk
  have hself : 2 ^ (k * 2 ^ places).log2 ≤ k * 2 ^ places := Nat.log2_self_le hne
  obtain ⟨j, hj⟩ : ∃ j, (k * 2 ^ places).log2 = 52 + (j + places) :=
    ⟨(k * 2 ^ places).log2 - 52 - places, by omega⟩
  rw [hj] at hself
  have hplace : lastPlace (k * 2 ^ places) 1 = j + places := by
    rw [lastPlace, Nat.div_one, hj]
    omega
  have hle : 2 ^ (j + places) ≤ k * 2 ^ places := by
    refine Nat.le_trans (Nat.pow_le_pow_right Nat.two_pos ?_) hself
    omega
  refine ⟨nearest (k * 2 ^ places) (2 ^ (j + places)) * 2 ^ j, Nat.mul_pos ?_ (Nat.two_pow_pos j),
    ?_⟩
  · exact Nat.lt_of_lt_of_le (Nat.div_pos hle (Nat.two_pow_pos _)) (div_le_nearest _ _)
  · rw [inUnits, hplace, roundAt, one_mul, Nat.mul_assoc, ← Nat.pow_add]

theorem ofRat_natCast_eq (k : Nat) : ofRat k = ofRatio k 1 := by
  have hnot : ¬ ((k : Rat) < 0) := not_lt.mpr (Nat.cast_nonneg k)
  rw [ofRat, if_neg hnot, Rat.num_natCast, Rat.den_natCast]
  rfl

theorem ofRatio_of_inUnits {k m : Nat} (h : inUnits k 1 = m * 2 ^ places) :
    ofRatio k 1 = inf false ∨ ofRatio k 1 = fin m := by
  rw [ofRatio, h]
  split
  · exact .inl rfl
  · right
    have hne : (2 : Rat) ^ places ≠ 0 := pow_ne_zero places two_ne_zero
    rw [Nat.cast_mul, Nat.cast_pow, Nat.cast_ofNat, mul_div_assoc, div_self hne, mul_one]

/-- Below 2 ^ 53, a whole number is a double. -/
theorem ofRat_natCast_of_lt {k : Nat} (hk : k < 2 ^ 53) : ofRat k = fin k := by
  have hlt : inUnits k 1 < 2 ^ (1024 + places) := by
    have hexponent : 53 + places ≤ 1024 + places := by omega
    refine Nat.lt_of_lt_of_le ?_ (Nat.pow_le_pow_right Nat.two_pos hexponent)
    rw [inUnits_natCast_of_lt hk, Nat.pow_add 2 53]
    exact Nat.mul_lt_mul_of_pos_right hk (Nat.two_pow_pos places)
  have hcases := ofRatio_of_inUnits (inUnits_natCast_of_lt hk)
  rw [ofRat_natCast_eq]
  refine hcases.resolve_left ?_
  rw [ofRatio, if_neg (Nat.not_le.mpr hlt)]
  exact fun h => nomatch h

/-- A positive whole number is nearest to a positive whole number, if not to an infinity. -/
theorem ofRat_natCast {k : Nat} (hk : 0 < k) :
    ofRat k = inf false ∨ ∃ m : Nat, 0 < m ∧ ofRat k = fin m := by
  by_cases hsmall : k < 2 ^ 53
  · exact .inr ⟨k, hk, ofRat_natCast_of_lt hsmall⟩
  · obtain ⟨m, hm, hunits⟩ := inUnits_natCast_of_le (not_lt.mp hsmall)
    rw [ofRat_natCast_eq]
    rcases ofRatio_of_inUnits hunits with hinf | hfin
    · exact .inl hinf
    · exact .inr ⟨m, hm, hfin⟩

/-- Neither a fraction nor anything between two whole numbers. -/
inductive IsWhole : JsNum → Prop where
  | nan : IsWhole nan
  | inf (negative : Bool) : IsWhole (inf negative)
  | fin (z : Int) : IsWhole (fin z)

theorem IsWhole.neg {x : JsNum} (h : IsWhole x) : IsWhole x.neg := by
  cases h with
  | nan => exact .nan
  | inf negative => exact .inf !negative
  | fin z =>
    have hneg : -(z : Rat) = ((-z : Int) : Rat) := (Int.cast_neg z).symm
    rw [JsNum.neg, hneg]
    exact .fin (-z)

theorem isWhole_ofRat_natCast (k : Nat) : IsWhole (ofRat k) := by
  rcases Nat.eq_zero_or_pos k with rfl | hk
  · rw [ofRat_natCast_of_lt (by decide)]
    exact .fin 0
  · rcases ofRat_natCast hk with hinf | ⟨m, -, hfin⟩
    · rw [hinf]
      exact .inf false
    · rw [hfin]
      exact .fin m

/-! ### The smaller and the larger of two -/

theorem min_natCast (m n : Nat) : (fin m).min (fin n) = fin (Nat.min m n : Nat) := by
  rw [JsNum.min]
  by_cases h : m ≤ n
  · rw [if_pos (Nat.cast_le.mpr h), show Nat.min m n = m from Nat.min_eq_left h]
  · rw [if_neg (fun hle => h (Nat.cast_le.mp hle)),
      show Nat.min m n = n from Nat.min_eq_right (Nat.le_of_not_le h)]

theorem isFalsy_natCast (n : Nat) : (fin n).isFalsy = decide (n = 0) := by
  rw [isFalsy]
  exact decide_eq_decide.mpr Nat.cast_eq_zero

theorem max_fin (p q : Rat) : max (fin p) (fin q) = fin (if q ≤ p then p else q) := by
  rw [max, neg, neg, JsNum.min]
  by_cases h : q ≤ p
  · rw [if_pos (neg_le_neg h), if_pos h, neg, neg_neg]
  · rw [if_neg (fun hle => h (neg_le_neg_iff.mp hle)), if_neg h, neg, neg_neg]

theorem le_trans {x y z : JsNum} (hxy : x.le y = true) (hyz : y.le z = true) : x.le z = true := by
  have hfin : ∀ {p q r : Rat}, (fin p).le (fin q) = true → (fin q).le (fin r) = true →
      (fin p).le (fin r) = true := by
    intro p q r hpq hqr
    simp only [le, decide_eq_true_eq] at hpq hqr ⊢
    exact hpq.trans hqr
  rcases x with _ | _ | _ <;> rcases y with _ | _ | _ <;> rcases z with _ | _ | _ <;>
    first | exact hfin hxy hyz | (simp only [le] at hxy hyz ⊢; grind [le])

theorem le_natCast_iff {m n : Nat} : (fin m).le (fin n) = true ↔ m ≤ n := by
  simp [le]

/-- A whole number from `least` to `most`. -/
def IsCount (least most : Nat) (x : JsNum) : Prop := ∃ n : Nat, x = fin n ∧ least ≤ n ∧ n ≤ most

/-- Whatever is not `NaN` comes between the bounds. -/
theorem isCount_clamp {x : JsNum} (hx : x ≠ nan) {low high : Nat} (h : low ≤ high) :
    IsCount low high ((max (fin low) x.floor).min (fin high)) := by
  have hlow : (fin low).min (fin high) = fin low := by
    rw [min_natCast, show Nat.min low high = low from Nat.min_eq_left h]
  cases x with
  | nan => exact absurd rfl hx
  | inf negative =>
    cases negative with
    | false => exact ⟨high, rfl, h, Nat.le_refl high⟩
    | true =>
      have hmax : max (fin low) (inf true).floor = fin (- -low) := rfl
      rw [hmax, neg_neg, hlow]
      exact ⟨low, rfl, Nat.le_refl low, h⟩
  | fin q =>
    rw [floor, max_fin]
    by_cases hq : ((⌊q⌋ : Int) : Rat) ≤ low
    · rw [if_pos hq, hlow]
      exact ⟨low, rfl, Nat.le_refl low, h⟩
    · have hfloor : (low : Int) < ⌊q⌋ := by
        have hlt := not_le.mp hq
        exact_mod_cast hlt
      obtain ⟨n, hn⟩ := Int.eq_ofNat_of_zero_le (by omega : 0 ≤ ⌊q⌋)
      have hcast : ((⌊q⌋ : Int) : Rat) = (n : Rat) := by
        rw [hn]
        exact Int.cast_natCast n
      rw [if_neg hq, hcast, min_natCast]
      refine ⟨_, rfl, Nat.le_min.mpr ⟨by omega, h⟩, Nat.min_le_right n high⟩

theorem orElse_ne_nan (x : JsNum) (q : Rat) : x.orElse (fin q) ≠ nan := by
  rw [orElse]
  cases x with
  | nan => exact fun h => nomatch h
  | inf negative => exact fun h => nomatch h
  | fin p =>
    split
    · exact fun h => nomatch h
    · exact fun h => nomatch h

end JsNum

theorem isWhole_parseDigits (negative : Bool) (radix : Nat) (digits : Text) :
    (parseDigits negative radix digits).IsWhole := by
  have hwhole := JsNum.isWhole_ofRat_natCast (JsNum.valueOf radix digits)
  rw [parseDigits]
  split
  · exact .nan
  · split
    · exact hwhole.neg
    · exact hwhole

theorem isWhole_parseInt (t : Text) : (parseInt t).IsWhole := by
  rw [parseInt]
  dsimp only
  split
  · exact isWhole_parseDigits _ _ _
  · exact isWhole_parseDigits _ _ _
