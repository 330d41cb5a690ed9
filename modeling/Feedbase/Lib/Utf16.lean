import Mathlib.Algebra.GroupWithZero.Nat
import Mathlib.Data.List.Basic
import Mathlib.Data.Char

/-!
# Texts counted in UTF-16 code units

A language that counts text in 16-bit code units cuts a text after a number of units, which
may be in the middle of a character. Writing the remaining half of a character as UTF-8 gives
the replacement character.

A composite key that ends with a separator and a decimal number can be taken apart again,
whatever its first part is, because no digit is a separator.

## Main definitions

* `Utf16.width`, `Utf16.length` — code units of a character and of a text
* `Utf16.slice` — the first code units of a text

## Main results

* `slice_of_length_le`, `length_slice`, `slice_append` — what a cut keeps
* `numbered_inj` — a key is determined by the text before its last separator and the number
-/

namespace Utf16

/-- Characters beyond the basic plane take two units. -/
def width (c : Char) : Nat := if c.toNat < 0x10000 then 1 else 2

/-- The number of code units. -/
def length (cs : List Char) : Nat := (cs.map width).sum

/-- What the first half of a character becomes. -/
def replacement : Char := '\uFFFD'

/-- The first `n` code units. -/
def slice : Nat → List Char → List Char
  | _, [] => []
  | 0, _ :: _ => []
  | 1, c :: _ => if width c = 1 then [c] else [replacement]
  | n + 2, c :: cs => c :: if width c = 1 then slice (n + 1) cs else slice n cs

variable {c : Char} {cs ds : List Char} {n : Nat}

@[simp] theorem length_nil : length [] = 0 := rfl

@[simp] theorem length_cons : length (c :: cs) = width c + length cs := rfl

@[simp] theorem length_append : length (cs ++ ds) = length cs + length ds := by
  simp [length]

theorem width_eq (c : Char) : width c = 1 ∨ width c = 2 := by
  unfold width
  split
  · exact .inl rfl
  · exact .inr rfl

theorem slice_zero (cs : List Char) : slice 0 cs = [] := by cases cs <;> rfl

/-- The two ways in which a cut goes on. -/
theorem slice_cons_narrow (h : width c = 1) : slice (n + 1) (c :: cs) = c :: slice n cs := by
  cases n with
  | zero => rw [slice_zero, Nat.zero_add, slice, if_pos h]
  | succ n => rw [slice, if_pos h]

theorem slice_cons_wide (h : width c = 2) : slice (n + 2) (c :: cs) = c :: slice n cs := by
  rw [slice, if_neg (by omega)]

theorem slice_one_wide (h : width c = 2) : slice 1 (c :: cs) = [replacement] := by
  rw [slice, if_neg (by omega)]

/-- A text that fits is kept. -/
theorem slice_of_length_le (h : length cs ≤ n) : slice n cs = cs := by
  induction cs generalizing n with
  | nil => cases n <;> rfl
  | cons c cs ih =>
    rw [length_cons] at h
    obtain hc | hc := width_eq c
    · obtain ⟨m, rfl⟩ : ∃ m, n = m + 1 := ⟨n - 1, by omega⟩
      rw [slice_cons_narrow hc, ih (by omega)]
    · obtain ⟨m, rfl⟩ : ∃ m, n = m + 2 := ⟨n - 2, by omega⟩
      rw [slice_cons_wide hc, ih (by omega)]

/-- A text that does not fit is cut to the full length. -/
theorem length_slice (h : n ≤ length cs) : length (slice n cs) = n := by
  induction cs generalizing n with
  | nil =>
    obtain rfl : n = 0 := Nat.le_zero.mp h
    rfl
  | cons c cs ih =>
    rw [length_cons] at h
    obtain hc | hc := width_eq c
    · cases n with
      | zero => rfl
      | succ m =>
        rw [slice_cons_narrow hc, length_cons, ih (by omega)]
        omega
    · match n with
      | 0 => rfl
      | 1 =>
        rw [slice_one_wide hc]
        rfl
      | m + 2 =>
        rw [slice_cons_wide hc, length_cons, ih (by omega)]
        omega

/-- What follows a text of the full length is cut off. -/
theorem slice_append (h : n ≤ length cs) : slice n (cs ++ ds) = slice n cs := by
  induction cs generalizing n with
  | nil =>
    obtain rfl : n = 0 := Nat.le_zero.mp h
    rw [slice_zero, slice_zero]
  | cons c cs ih =>
    rw [length_cons] at h
    rw [List.cons_append]
    obtain hc | hc := width_eq c
    · cases n with
      | zero => rw [slice_zero, slice_zero]
      | succ m => rw [slice_cons_narrow hc, slice_cons_narrow hc, ih (by omega)]
    · match n with
      | 0 => rw [slice_zero, slice_zero]
      | 1 => rw [slice_one_wide hc, slice_one_wide hc]
      | m + 2 => rw [slice_cons_wide hc, slice_cons_wide hc, ih (by omega)]

/-! ### Numbered keys -/

/-- A key is determined by what stands before its last separator and what follows it. -/
theorem separated_inj {sep : Char} {xs ys us vs : List Char} (hxs : sep ∉ xs) (hys : sep ∉ ys)
    (h : us ++ sep :: xs = vs ++ sep :: ys) : us = vs ∧ xs = ys := by
  induction us generalizing vs with
  | nil =>
    cases vs with
    | nil => exact ⟨rfl, (List.cons.inj h).2⟩
    | cons v vs =>
      obtain ⟨-, htail⟩ := List.cons.inj h
      exact absurd (htail ▸ List.mem_append_right vs List.mem_cons_self) hxs
  | cons u us ih =>
    cases vs with
    | nil =>
      obtain ⟨-, htail⟩ := List.cons.inj h
      exact absurd (htail.symm ▸ List.mem_append_right us List.mem_cons_self) hys
    | cons v vs =>
      obtain ⟨rfl, htail⟩ := List.cons.inj h
      obtain ⟨rfl, rfl⟩ := ih htail
      exact ⟨rfl, rfl⟩

theorem toDigits_inj {m n : Nat} (h : Nat.toDigits 10 m = Nat.toDigits 10 n) : m = n := by
  rw [← Nat.ofDigitChars_ten_toDigits (n := m), h, Nat.ofDigitChars_ten_toDigits]

theorem not_mem_toDigits {m : Nat} (hc : c.isDigit = false) : c ∉ Nat.toDigits 10 m := by
  intro hmem
  have hdigit := Nat.isDigit_of_mem_toDigits (by decide) (by decide) hmem
  rw [hc] at hdigit
  cases hdigit

/-- A key that ends with a decimal number is determined by its parts. -/
theorem numbered_inj {sep : Char} (hsep : sep.isDigit = false) {us vs : List Char} {m n : Nat}
    (h : us ++ sep :: Nat.toDigits 10 m = vs ++ sep :: Nat.toDigits 10 n) : us = vs ∧ m = n := by
  obtain ⟨hus, hdigits⟩ := separated_inj (not_mem_toDigits hsep) (not_mem_toDigits hsep) h
  exact ⟨hus, toDigits_inj hdigits⟩

theorem width_of_isDigit (h : c.isDigit = true) : width c = 1 := by
  have hle : c.toNat ≤ 57 := by
    simp only [Char.isDigit, Bool.and_eq_true, decide_eq_true_eq] at h
    exact h.2
  rw [width, if_pos (by omega)]

theorem length_toDigits (m : Nat) : length (Nat.toDigits 10 m) = (Nat.toDigits 10 m).length := by
  have h : ∀ cs : List Char, (∀ c ∈ cs, c.isDigit = true) → length cs = cs.length := by
    intro cs
    induction cs with
    | nil => exact fun _ => rfl
    | cons c cs ih =>
      intro hcs
      rw [length_cons, List.length_cons, width_of_isDigit (hcs c List.mem_cons_self),
        ih fun d hd => hcs d (List.mem_cons_of_mem _ hd)]
      omega
  exact h _ fun c hc => Nat.isDigit_of_mem_toDigits (by decide) (by decide) hc

end Utf16
