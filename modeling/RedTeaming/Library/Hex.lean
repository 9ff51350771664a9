import Mathlib.Data.List.Basic
import RedTeaming.Library.JsonText

/-!
# `RedTeaming.Library.Hex`: numbers in hexadecimal digits

`readHex` is the number that the digits of a text stand for, in either case. It reads back what
`Nat.toDigits 16` writes, with any number of zeros in front (`readHex_zeros`). So a padded number
determines the number (`eq_of_zeros_eq`). A text with a number has digits only
(`isSome_hexValue_of_readHex`).

Nothing here names a program.
-/

set_option autoImplicit false

namespace RedTeaming.Library.Hex

open RedTeaming.Library.JsonText

/-- One more digit behind a number. -/
def push (n : Nat) (c : Char) : Option Nat := (hexValue c).map fun d => 16 * n + d

/-- The number that hexadecimal digits stand for, behind the digits of `n`. -/
def readFrom (n : Nat) (text : Text) : Option Nat := text.foldlM push n

/-- The number that hexadecimal digits stand for. -/
def readHex (text : Text) : Option Nat := readFrom 0 text

section
variable {n m d : Nat} {text : Text} {c : Char}

theorem readFrom_append (text text' : Text) :
    readFrom n (text ++ text') = (readFrom n text).bind fun m => readFrom m text' :=
  List.foldlM_append

/-- A digit is read as its value. -/
theorem hexValue_digitChar (h : d < 16) : hexValue d.digitChar = some d := by
  have hall : ∀ d < 16, hexValue d.digitChar = some d := by decide
  exact hall d h

/-- The digits of a number are read as the number. -/
theorem readHex_toDigits (n : Nat) : readHex (Nat.toDigits 16 n) = some n := by
  induction n using Nat.strongRecOn with
  | ind n ih =>
    cases Nat.lt_or_ge n 16 with
    | inl hsmall =>
      rw [Nat.toDigits_of_lt_base hsmall]
      show (push 0 n.digitChar).bind some = some n
      rw [push, hexValue_digitChar hsmall, Option.map_some, Option.bind_some]
      show some (16 * 0 + n) = some n
      rw [Nat.mul_zero, Nat.zero_add]
    | inr hlarge =>
      -- the last digit is behind the digits of the quotient
      have hquotient : n / 16 < n := by omega
      have hlast : n % 16 < 16 := by omega
      rw [Nat.toDigits_of_base_le (by decide) hlarge, readHex, readFrom_append, ← readHex,
        ih _ hquotient, Option.bind_some]
      show (push (n / 16) (n % 16).digitChar).bind some = some n
      rw [push, hexValue_digitChar hlast, Option.map_some, Option.bind_some]
      show some (16 * (n / 16) + n % 16) = some n
      rw [Nat.div_add_mod]

/-- Zeros in front of the digits do not count. -/
theorem readHex_zeros (k : Nat) (text : Text) :
    readHex (List.replicate k '0' ++ text) = readHex text := by
  induction k with
  | zero => rfl
  | succ k ih => exact ih

/-- A padded number determines the number. -/
theorem eq_of_zeros_eq {k l : Nat}
    (h : List.replicate k '0' ++ Nat.toDigits 16 n = List.replicate l '0' ++ Nat.toDigits 16 m) :
    n = m := by
  have hread := congrArg readHex h
  rw [readHex_zeros, readHex_zeros, readHex_toDigits, readHex_toDigits] at hread
  exact Option.some.inj hread

/-- A text with a number has digits only. -/
theorem isSome_hexValue_of_readFrom (h : readFrom n text = some m) (hc : c ∈ text) :
    (hexValue c).isSome := by
  induction text generalizing n with
  | nil => cases hc
  | cons c' text ih =>
    obtain ⟨n', hpush, hrest⟩ := Option.bind_eq_some_iff.mp h
    obtain ⟨d, hd, -⟩ := Option.map_eq_some_iff.mp hpush
    rcases List.mem_cons.mp hc with rfl | hc
    · rw [hd]
      rfl
    · exact ih hrest hc

/-- A padded number has digits only. -/
theorem isSome_hexValue_of_mem {k : Nat} (hc : c ∈ List.replicate k '0' ++ Nat.toDigits 16 n) :
    (hexValue c).isSome := by
  have hread : readHex (List.replicate k '0' ++ Nat.toDigits 16 n) = some n := by
    rw [readHex_zeros, readHex_toDigits]
  exact isSome_hexValue_of_readFrom hread hc

end

end RedTeaming.Library.Hex
