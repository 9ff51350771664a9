import RedTeaming.Library.Json
import Mathlib.Algebra.Ring.Nat
import Mathlib.Data.List.Forall2

/-!
# `RedTeaming.Library.JsonText`: JSON values as text

The texts of RFC 8259. The writer is that of Python's `json.dumps` with `ensure_ascii=False`, with
the separators as parameters. It is given piece by piece: a string, an integer, and an array or an
object over the texts of its parts. The reader takes all of the grammar. It keeps the fields of an
object as they stand, and gives a number its exact value. Its recursion has fuel, and the length
of the text is enough.

`Reads` relates a text to the value that it is read as wherever it stands. There is one lemma for
each piece of the writer: `reads_string`, `reads_int`, `reads_array` and `reads_object`.

Nothing here names a program.
-/

set_option autoImplicit false

namespace RedTeaming.Library.JsonText

/-- A text is the list of its characters. -/
abbrev Text := List Char

/-- The quotation mark. -/
def quotation : Char := Char.ofNat 0x22

/-- The reverse solidus. -/
def backslash : Char := Char.ofNat 0x5C

/-! ### The writer -/

/-- One character of a string. Only the quotation mark, the reverse solidus and the control
characters below the blank are escaped. -/
def escape (c : Char) : Text :=
  if c = quotation then [backslash, quotation]
  else if c = backslash then [backslash, backslash]
  else if c = Char.ofNat 0x0A then [backslash, 'n']
  else if c = Char.ofNat 0x0D then [backslash, 'r']
  else if c = Char.ofNat 0x09 then [backslash, 't']
  else if c = Char.ofNat 0x08 then [backslash, 'b']
  else if c = Char.ofNat 0x0C then [backslash, 'f']
  else if c.toNat < 0x20 then
    [backslash, 'u', '0', '0', (c.toNat / 16).digitChar, (c.toNat % 16).digitChar]
  else [c]

/-- A string. -/
def writeString (s : String) : Text := quotation :: (s.toList.flatMap escape ++ [quotation])

/-- An integer. -/
def writeInt : Int → Text
  | .ofNat n => Nat.toDigits 10 n
  | .negSucc n => '-' :: Nat.toDigits 10 (n + 1)

/-- An array, from the texts of its items. -/
def writeArray (separator : Text) (items : List Text) : Text :=
  '[' :: (separator.intercalate items ++ [']'])

/-- One field of an object. -/
def writeField (colon : Text) (field : String × Text) : Text := writeString field.1 ++
    colon ++ field.2

/-- An object, from its keys and the texts of its values. -/
def writeObject (separator colon : Text) (fields : List (String × Text)) : Text :=
  '{' :: (separator.intercalate (fields.map (writeField colon)) ++ ['}'])

/-! ### The reader -/

/-- The whitespace between two tokens. -/
def isBlank (c : Char) : Bool :=
  c == Char.ofNat 0x20 || c == Char.ofNat 0x09 || c == Char.ofNat 0x0A || c == Char.ofNat 0x0D

/-- The text after its whitespace. -/
def skip (text : Text) : Text := text.dropWhile isBlank

/-- The value of a hexadecimal digit. -/
def hexValue (c : Char) : Option Nat :=
  if c.isDigit then some (c.toNat - 0x30)
  else if 0x41 ≤ c.toNat ∧ c.toNat ≤ 0x46 then some (c.toNat - 0x37)
  else if 0x61 ≤ c.toNat ∧ c.toNat ≤ 0x66 then some (c.toNat - 0x57)
  else none

/-- The value of four hexadecimal digits. -/
def hexCode (a b c d : Char) : Option Nat := do
  some (((← hexValue a) * 16 + (← hexValue b)) * 256 + ((← hexValue c) * 16 + (← hexValue d)))

/-- What a letter after the reverse solidus stands for. -/
def escaped (c : Char) : Option Char :=
  if c = quotation ∨ c = backslash ∨ c = '/' then some c
  else if c = 'n' then some (Char.ofNat 0x0A)
  else if c = 'r' then some (Char.ofNat 0x0D)
  else if c = 't' then some (Char.ofNat 0x09)
  else if c = 'b' then some (Char.ofNat 0x08)
  else if c = 'f' then some (Char.ofNat 0x0C)
  else none

/-- One more character in front of what was read. -/
def consChar (c : Char) (read : Text × Text) : Text × Text := (c :: read.1, read.2)

/-- The characters of a string after its first quotation mark, and the text after its last one. -/
def stringBody : Text → Option (Text × Text)
  | [] => none
  | c :: text =>
    if c = quotation then some ([], text)
    else if c = backslash then
      match text with
      | [] => none
      | e :: text =>
        if e = 'u' then
          match text with
          | a :: b :: c :: d :: text =>
            match hexCode a b c d with
            | none => none
            | some high =>
              if 0xD800 ≤ high ∧ high < 0xDC00 then
                -- A surrogate is half of a character, and its other half must follow.
                match text with
                | s :: u :: a :: b :: c :: d :: text =>
                  match hexCode a b c d with
                  | none => none
                  | some low =>
                    if s = backslash ∧ u = 'u' ∧ 0xDC00 ≤ low ∧ low < 0xE000 then
                      (stringBody text).map
                        (consChar
                          (Char.ofNat (0x10000 + (high - 0xD800) * 0x400 + (low - 0xDC00))))
                    else none
                | _ => none
              else if 0xDC00 ≤ high ∧ high < 0xE000 then none
              else (stringBody text).map (consChar (Char.ofNat high))
          | _ => none
        else
          match escaped e with
          | none => none
          | some c => (stringBody text).map (consChar c)
    else if c.toNat < 0x20 then none
    else (stringBody text).map (consChar c)

/-- The number that the digits stand for. -/
def decimal (digits : Text) : Rat := ((Nat.ofDigitChars 10 digits 0 : Nat) : Rat)

/-- A fraction, when there is one. -/
def fraction : Text → Option (Rat × Text)
  | [] => some (0, [])
  | c :: text =>
    if c = '.' then
      let digits := text.takeWhile Char.isDigit
      if digits.isEmpty then none
      else some (decimal digits / (10 ^ digits.length : Nat), text.dropWhile Char.isDigit)
    else some (0, c :: text)

/-- The factor of an exponent, when there is one. -/
def exponent : Text → Option (Rat × Text)
  | [] => some (1, [])
  | c :: text =>
    if c = 'e' ∨ c = 'E' then
      let body := if text.head? = some '-' ∨ text.head? = some '+' then text.tail else text
      let digits := body.takeWhile Char.isDigit
      let power : Rat := (10 ^ Nat.ofDigitChars 10 digits 0 : Nat)
      if digits.isEmpty then none
      else some (if text.head? = some '-' then 1 / power else power, body.dropWhile Char.isDigit)
    else some (1, c :: text)

/-- A number. An integer part of more than one digit does not begin with zero. -/
def number (text : Text) : Option (Rat × Text) :=
  let negative := text.head? = some '-'
  let body := if negative then text.tail else text
  let digits := body.takeWhile Char.isDigit
  if digits.isEmpty ∨ (digits.head? = some '0' ∧ 1 < digits.length) then none
  else do
    let (part, rest) ← fraction (body.dropWhile Char.isDigit)
    let (factor, rest) ← exponent rest
    let magnitude := (decimal digits + part) * factor
    some (if negative then -magnitude else magnitude, rest)

/-- One of the three words. -/
def keyword (word : String) (v : Json) (text : Text) : Option (Json × Text) :=
  if word.toList.isPrefixOf text then some (v, text.drop word.toList.length) else none

mutual
/-- A value, and the text after it. -/
def value : Nat → Text → Option (Json × Text)
  | 0, _ => none
  | _ + 1, [] => none
  | fuel + 1, c :: text =>
    if c = quotation then (stringBody text).map fun read => (.str (String.ofList read.1), read.2)
    else if c = '[' then
      match skip text with
      | [] => none
      | d :: rest =>
        if d = ']' then some (.arr [], rest)
        else (items fuel (d :: rest)).map fun read => (.arr read.1, read.2)
    else if c = '{' then
      match skip text with
      | [] => none
      | d :: rest =>
        if d = '}' then some (.obj [], rest)
        else (fields fuel (d :: rest)).map fun read => (.obj read.1, read.2)
    else if c = 'n' then keyword "null" .null (c :: text)
    else if c = 't' then keyword "true" (.bool true) (c :: text)
    else if c = 'f' then keyword "false" (.bool false) (c :: text)
    else (number (c :: text)).map fun read => (.num read.1, read.2)

/-- The items of an array that has one, up to its end. -/
def items : Nat → Text → Option (List Json × Text)
  | 0, _ => none
  | fuel + 1, text => do
    let (v, rest) ← value fuel text
    match skip rest with
    | [] => none
    | d :: rest =>
      if d = ',' then (items fuel (skip rest)).map fun read => (v :: read.1, read.2)
      else if d = ']' then some ([v], rest)
      else none

/-- The fields of an object that has one, up to its end. -/
def fields : Nat → Text → Option (JsonObject × Text)
  | 0, _ => none
  | _ + 1, [] => none
  | fuel + 1, c :: text =>
    if c = quotation then do
      let (key, rest) ← stringBody text
      match skip rest with
      | [] => none
      | d :: rest =>
        if d = ':' then do
          let (v, rest) ← value fuel (skip rest)
          match skip rest with
          | [] => none
          | d :: rest =>
            if d = ',' then
              (fields fuel (skip rest)).map fun read => ((String.ofList key, v) :: read.1, read.2)
            else if d = '}' then some ([(String.ofList key, v)], rest)
            else none
        else none
    else none
end

/-- The value of a whole text, or `none` when the grammar does not have the text. -/
def parse (text : Text) : Option Json := do
  let (v, rest) ← value text.length (skip text)
  if (skip rest).isEmpty then some v else none

/-! ### What is read -/

/-- The text ends, or goes on with a character that is no part of a number. -/
def Stops (rest : Text) : Prop :=
  ∀ c ∈ rest.head?, c.isDigit = false ∧ c ≠ '.' ∧ c ≠ 'e' ∧ c ≠ 'E'

/-- The text is read as the value, whatever follows it. -/
def Reads (text : Text) (v : Json) : Prop :=
  ∀ fuel rest, text.length ≤ fuel → Stops rest → value fuel (text ++ rest) = some (v, rest)

/-- A separator is its character, and then whitespace. -/
def Separates (c : Char) (separator : Text) : Prop :=
  ∃ blanks, separator = c :: blanks ∧ ∀ b ∈ blanks, isBlank b = true

section
variable {text rest separator colon : Text} {v : Json} {c : Char}

/-- Whitespace is skipped. -/
theorem skip_append {blanks : Text} (h : ∀ b ∈ blanks, isBlank b = true) (text : Text) :
    skip (blanks ++ text) = skip text := by
  induction blanks with
  | nil => rfl
  | cons b blanks ih =>
    rw [List.cons_append, skip, List.dropWhile_cons_of_pos (h b List.mem_cons_self)]
    exact ih fun b' hb' => h b' (List.mem_cons_of_mem b hb')

theorem skip_cons_of_neg (h : isBlank c = false) (text : Text) :
    skip (c :: text) = c :: text := by
  rw [skip, List.dropWhile_cons_of_neg]
  rw [h]
  exact Bool.false_ne_true

theorem stops_nil : Stops [] := fun _ h => absurd h (by simp)

theorem stops_cons (h : c.isDigit = false ∧ c ≠ '.' ∧ c ≠ 'e' ∧ c ≠ 'E') (text : Text) :
    Stops (c :: text) := by
  intro d hd
  rw [List.head?_cons, Option.mem_some_iff] at hd
  exact hd ▸ h

/-- A text that is read begins with a character of its value. -/
theorem Reads.exists_cons (h : Reads text v) :
    ∃ c tail, text = c :: tail ∧ isBlank c = false ∧ c ≠ ']' := by
  have hread := h text.length [] (Nat.le_refl _) stops_nil
  cases text with
  | nil => exact absurd hread (by simp [value])
  | cons c tail =>
    refine ⟨c, tail, rfl, ?_, ?_⟩
    · -- Whitespace is not the start of a value, not even of a number.
      rw [Bool.eq_false_iff]
      intro hblank
      simp only [isBlank, Bool.or_eq_true, beq_iff_eq] at hblank
      rcases hblank with ((rfl | rfl) | rfl) | rfl <;>
        simp [value, number, quotation] at hread
    · rintro rfl
      simp [value, number, quotation] at hread

/-! ### Strings -/

/-- The digits of a control character are read back. -/
theorem hexCode_of_lt : ∀ n < 0x20,
    hexCode '0' '0' (n / 16).digitChar (n % 16).digitChar = some n := by decide

/-- A letter after the reverse solidus. -/
theorem stringBody_letter {e : Char} (hu : e ≠ 'u') (h : escaped e = some c) (text : Text) :
    stringBody (backslash :: e :: text) = (stringBody text).map (consChar c) := by
  have hne : backslash ≠ quotation := by decide
  rw [stringBody.eq_def]
  dsimp only
  rw [if_neg hne, if_pos rfl, if_neg hu, h]

/-- A written character is read back. -/
theorem stringBody_escape (c : Char) (text : Text) :
    stringBody (escape c ++ text) = (stringBody text).map (consChar c) := by
  rw [escape]
  split
  · rename_i h
    rw [h]
    exact stringBody_letter (by decide) (by decide) text
  rename_i hquote
  split
  · rename_i h
    rw [h]
    exact stringBody_letter (by decide) (by decide) text
  rename_i hback
  -- The five control characters with a letter of their own.
  split
  · rename_i h
    rw [h]
    exact stringBody_letter (by decide) (by decide) text
  split
  · rename_i h
    rw [h]
    exact stringBody_letter (by decide) (by decide) text
  split
  · rename_i h
    rw [h]
    exact stringBody_letter (by decide) (by decide) text
  split
  · rename_i h
    rw [h]
    exact stringBody_letter (by decide) (by decide) text
  split
  · rename_i h
    rw [h]
    exact stringBody_letter (by decide) (by decide) text
  split
  · rename_i hcontrol
    -- A control character is below the surrogates, so its four digits are a character.
    have hlow : ¬ (0xD800 ≤ c.toNat ∧ c.toNat < 0xDC00) := by omega
    have hhigh : ¬ (0xDC00 ≤ c.toNat ∧ c.toNat < 0xE000) := by omega
    have hne : backslash ≠ quotation := by decide
    rw [stringBody.eq_def]
    simp only [List.cons_append, List.nil_append, if_neg hne, if_true,
      hexCode_of_lt c.toNat hcontrol, if_neg hlow, if_neg hhigh, Char.ofNat_toNat]
  · rename_i hcontrol
    -- Any other character stands for itself.
    rw [List.singleton_append, stringBody.eq_def]
    dsimp only
    rw [if_neg hquote, if_neg hback, if_neg hcontrol]

/-- A written string is read back. -/
theorem stringBody_write (s rest : Text) :
    stringBody (s.flatMap escape ++ quotation :: rest) = some (s, rest) := by
  induction s with
  | nil =>
    rw [List.flatMap_nil, List.nil_append, stringBody.eq_def]
    exact if_pos rfl
  | cons c s ih =>
    rw [List.flatMap_cons, List.append_assoc, stringBody_escape, ih]
    rfl

/-- A text that is not empty is given fuel. -/
theorem exists_fuel {fuel : Nat} (hne : text ≠ []) (hfuel : text.length ≤ fuel) :
    ∃ n, fuel = n + 1 :=
  Nat.exists_eq_add_one.mpr (Nat.lt_of_lt_of_le (List.length_pos_of_ne_nil hne) hfuel)

theorem reads_string (s : String) : Reads (writeString s) (.str s) := by
  intro fuel rest hfuel _
  obtain ⟨fuel, rfl⟩ := exists_fuel (List.cons_ne_nil _ _) hfuel
  rw [writeString, List.cons_append, value, if_pos rfl, List.append_assoc, List.singleton_append,
    stringBody_write, Option.map_some, String.ofList_toList]

/-! ### Words and numbers -/

theorem reads_null : Reads "null".toList .null := by
  intro fuel rest hfuel _
  obtain ⟨fuel, rfl⟩ := exists_fuel (List.cons_ne_nil _ _) hfuel
  rfl

theorem reads_true : Reads "true".toList (.bool true) := by
  intro fuel rest hfuel _
  obtain ⟨fuel, rfl⟩ := exists_fuel (List.cons_ne_nil _ _) hfuel
  rfl

theorem reads_false : Reads "false".toList (.bool false) := by
  intro fuel rest hfuel _
  obtain ⟨fuel, rfl⟩ := exists_fuel (List.cons_ne_nil _ _) hfuel
  rfl

/-- Digits are taken up to the end of the number. -/
theorem takeWhile_digits {digits : Text} (h : ∀ d ∈ digits, d.isDigit = true)
    (hrest : Stops rest) :
    (digits ++ rest).takeWhile Char.isDigit = digits ∧
      (digits ++ rest).dropWhile Char.isDigit = rest := by
  rw [List.takeWhile_append_of_pos h, List.dropWhile_append_of_pos h]
  cases rest with
  | nil => simp
  | cons c rest =>
    have hc := (hrest c rfl).1
    simp [hc]

/-- Nothing follows the digits of an integer. -/
theorem fraction_exponent_of_stops (h : Stops rest) :
    fraction rest = some (0, rest) ∧ exponent rest = some (1, rest) := by
  cases rest with
  | nil => exact ⟨rfl, rfl⟩
  | cons c rest =>
    obtain ⟨-, hdot, he, hE⟩ := h c rfl
    exact ⟨if_neg hdot, if_neg (by simp [he, hE])⟩

/-- The first digit of a positive number is not zero. -/
theorem head_toDigits {n : Nat} (hn : 0 < n) : (Nat.toDigits 10 n).head? ≠ some '0' := by
  induction n using Nat.strongRecOn with
  | ind n ih =>
    by_cases hsmall : n < 10
    · rw [Nat.toDigits_of_lt_base hsmall]
      have hdigit : ∀ d < 10, 0 < d → [d.digitChar].head? ≠ some '0' := by decide
      exact hdigit n hsmall hn
    · -- The first digit is that of the number without its last one.
      rw [Nat.toDigits_of_base_le (by decide) (by omega),
        List.head?_append_of_ne_nil _ Nat.toDigits_ne_nil]
      exact ih (n / 10) (by omega) (by omega)

/-- Written digits are an integer part. -/
theorem digits_ok (n : Nat) : ¬ ((Nat.toDigits 10 n).isEmpty = true ∨
    ((Nat.toDigits 10 n).head? = some '0' ∧ 1 < (Nat.toDigits 10 n).length)) := by
  intro h
  rcases h with h | ⟨hhead, hlength⟩
  · exact Nat.toDigits_ne_nil (List.isEmpty_iff.mp h)
  · -- Zero has one digit, and no other number begins with a zero.
    rcases Nat.eq_zero_or_pos n with rfl | hn
    · exact absurd hlength (by decide)
    · exact head_toDigits hn hhead

/-- A written integer is read back as a number. -/
theorem number_write (n : Int) (h : Stops rest) :
    number (writeInt n ++ rest) = some ((n : Rat), rest) := by
  have hdigit (m : Nat) : ∀ d ∈ Nat.toDigits 10 m, d.isDigit = true :=
    fun d hd => Nat.isDigit_of_mem_toDigits (by decide) (by decide) hd
  cases n with
  | ofNat m =>
    -- The first character is a digit, so there is no sign.
    have hhead : (Nat.toDigits 10 m ++ rest).head? ≠ some '-' := by
      rw [List.head?_append_of_ne_nil _ Nat.toDigits_ne_nil]
      intro hminus
      exact absurd (hdigit m '-' (List.mem_of_mem_head? hminus)) (by decide)
    obtain ⟨htake, hdrop⟩ := takeWhile_digits (hdigit m) h
    obtain ⟨hfraction, hexponent⟩ := fraction_exponent_of_stops h
    rw [writeInt, number]
    simp only [if_neg hhead, htake, hdrop, if_neg (digits_ok m), hfraction, hexponent, decimal,
      Nat.ofDigitChars_ten_toDigits, Option.bind_eq_bind, Option.bind_some]
    rw [Rat.add_zero, Rat.mul_one]
    rfl
  | negSucc m =>
    obtain ⟨htake, hdrop⟩ := takeWhile_digits (hdigit (m + 1)) h
    obtain ⟨hfraction, hexponent⟩ := fraction_exponent_of_stops h
    rw [writeInt, List.cons_append, number]
    simp only [List.head?_cons, if_true, List.tail_cons, htake, hdrop, if_neg (digits_ok (m + 1)),
      hfraction, hexponent, decimal, Nat.ofDigitChars_ten_toDigits, Option.bind_eq_bind,
      Option.bind_some]
    rw [Rat.add_zero, Rat.mul_one]
    rfl

/-- A written integer begins with its sign or with a digit. -/
theorem head_writeInt (n : Int) :
    ∃ c tail, writeInt n = c :: tail ∧ (c = '-' ∨ c.isDigit = true) := by
  cases n with
  | ofNat m =>
    obtain ⟨c, tail, hdigits⟩ :=
      List.exists_cons_of_ne_nil (Nat.toDigits_ne_nil (n := m) (b := 10))
    refine ⟨c, tail, hdigits, .inr ?_⟩
    exact Nat.isDigit_of_mem_toDigits (b := 10) (n := m) (by decide) (by decide)
      (hdigits ▸ List.mem_cons_self)
  | negSucc m => exact ⟨'-', _, rfl, .inl rfl⟩

theorem reads_int (n : Int) : Reads (writeInt n) (.num n) := by
  intro fuel rest hfuel hrest
  obtain ⟨c, tail, hwrite, hc⟩ := head_writeInt n
  have hnumber := number_write n hrest
  rw [hwrite] at hfuel hnumber ⊢
  obtain ⟨fuel, rfl⟩ := exists_fuel (List.cons_ne_nil _ _) hfuel
  rw [List.cons_append] at hnumber ⊢
  -- No other value begins like a number.
  have hother : c ≠ quotation ∧ c ≠ '[' ∧ c ≠ '{' ∧ c ≠ 'n' ∧ c ≠ 't' ∧ c ≠ 'f' := by
    refine ⟨?_, ?_, ?_, ?_, ?_, ?_⟩ <;> (rintro rfl; revert hc; decide)
  obtain ⟨hquote, harr, hobj, hn, ht, hf⟩ := hother
  rw [value, if_neg hquote, if_neg harr, if_neg hobj, if_neg hn, if_neg ht, if_neg hf, hnumber]
  rfl

/-! ### Arrays and objects -/

/-- A separator is not part of a number. -/
theorem Separates.stops {c : Char} (h : Separates c separator)
    (hc : c.isDigit = false ∧ c ≠ '.' ∧ c ≠ 'e' ∧ c ≠ 'E') (text : Text) :
    Stops (separator ++ text) := by
  obtain ⟨blanks, rfl, -⟩ := h
  exact stops_cons hc (blanks ++ text)

/-- After a separator, the whitespace of the separator and of the text is skipped. -/
theorem Separates.skip_append {c : Char} (h : Separates c separator) (hc : isBlank c = false)
    (text : Text) : ∃ tail, skip (separator ++ text) = c :: tail ∧ skip tail = skip text := by
  obtain ⟨blanks, rfl, hblanks⟩ := h
  exact ⟨blanks ++ text, skip_cons_of_neg hc _, JsonText.skip_append hblanks text⟩

/-- A joined text begins as its first part does. -/
theorem head_intercalate {tail : Text} (parts : List Text) :
    ∃ more, separator.intercalate ((c :: tail) :: parts) = c :: more := by
  cases parts with
  | nil => exact ⟨tail, List.intercalate_singleton⟩
  | cons part parts => exact ⟨_, by rw [List.intercalate_cons_cons]; rfl⟩

/-- The items of an array, from the first one on. -/
theorem items_intercalate (hsep : Separates ',' separator) {texts : List Text}
    {values : List Json} (h : List.Forall₂ Reads texts values) (hne : texts ≠ []) {fuel : Nat}
    (hfuel : (separator.intercalate texts).length < fuel) :
    items fuel (separator.intercalate texts ++ ']' :: rest) = some (values, rest) := by
  induction h generalizing fuel with
  | nil => exact absurd rfl hne
  | @cons text v texts values hread hreads ih =>
    obtain ⟨fuel, rfl⟩ : ∃ n, fuel = n + 1 := Nat.exists_eq_add_one.mpr (by omega)
    cases hreads with
    | nil =>
      -- The bracket closes the array after the last item.
      rw [List.intercalate_singleton] at hfuel ⊢
      rw [items, hread fuel (']' :: rest) (by omega) (stops_cons (by decide) rest)]
      rfl
    | @cons next v' texts values hnext hreads =>
      -- The next item begins after the separator and its whitespace.
      obtain ⟨c, tail, rfl, hc, -⟩ := hnext.exists_cons
      obtain ⟨more, hmore⟩ : ∃ more, separator.intercalate ((c :: tail) :: texts) = c :: more :=
        head_intercalate texts
      obtain ⟨after, hcomma, hafter⟩ := hsep.skip_append rfl
        (List.intercalate separator ((c :: tail) :: texts) ++ ']' :: rest)
      have hskip : skip after = List.intercalate separator ((c :: tail) :: texts) ++
          ']' :: rest := by
        rw [hafter, hmore, List.cons_append]
        exact skip_cons_of_neg hc _
      have hpos : 0 < separator.length := by
        obtain ⟨blanks, rfl, -⟩ := hsep
        exact Nat.succ_pos _
      rw [List.intercalate_cons_cons] at hfuel ⊢
      simp only [List.length_append] at hfuel
      rw [List.append_assoc, List.append_assoc, items,
        hread fuel _ (by omega) (hsep.stops (by decide) _)]
      simp only [Option.bind_eq_bind, Option.bind_some, hcomma, if_true, hskip,
        ih (List.cons_ne_nil _ _) (show _ < fuel by omega), Option.map_some]

/-- The text of an array is read as the array of what its items are read as. -/
theorem reads_array (hsep : Separates ',' separator) {texts : List Text} {values : List Json}
    (h : List.Forall₂ Reads texts values) : Reads (writeArray separator texts) (.arr values) := by
  intro fuel rest hfuel _
  obtain ⟨fuel, rfl⟩ := exists_fuel (List.cons_ne_nil _ _) hfuel
  rw [writeArray, List.length_cons, List.length_append, List.length_singleton] at hfuel
  rw [writeArray, List.cons_append, List.append_assoc, List.singleton_append, value,
    if_neg (by decide), if_pos rfl]
  cases h with
  | nil => rfl
  | @cons text v texts values hread hreads =>
    obtain ⟨c, tail, rfl, hblank, hclose⟩ := hread.exists_cons
    obtain ⟨more, hmore⟩ : ∃ more, separator.intercalate ((c :: tail) :: texts) = c :: more :=
      head_intercalate texts
    have hitems : items fuel (separator.intercalate ((c :: tail) :: texts) ++ ']' :: rest) =
        some (v :: values, rest) :=
      items_intercalate hsep (.cons hread hreads) (List.cons_ne_nil _ _) (by omega)
    rw [hmore, List.cons_append] at hitems ⊢
    rw [skip_cons_of_neg hblank]
    dsimp only
    rw [if_neg hclose, hitems]
    rfl

/-- A field of an object: its key, and what its value is read as. -/
def ReadsField (text : String × Text) (field : String × Json) : Prop :=
  text.1 = field.1 ∧ Reads text.2 field.2

/-- One field is read, and then what follows it decides. -/
theorem fields_writeField (hcolon : Separates ':' colon) (key : String) (hread : Reads text v)
    {fuel : Nat} (hfuel : text.length ≤ fuel) (hrest : Stops rest) :
    fields (fuel + 1) (writeField colon (key, text) ++ rest) =
      match skip rest with
      | [] => none
      | d :: rest =>
        if d = ',' then (fields fuel (skip rest)).map fun read => ((key, v) :: read.1, read.2)
        else if d = '}' then some ([(key, v)], rest)
        else none := by
  obtain ⟨c, tail, rfl, hblank, -⟩ := hread.exists_cons
  obtain ⟨after, hskip, hafter⟩ := hcolon.skip_append rfl (c :: tail ++ rest)
  have hvalue : skip after = c :: tail ++ rest := by
    rw [hafter, List.cons_append]
    exact skip_cons_of_neg hblank _
  have htext : writeField colon (key, c :: tail) ++ rest =
      quotation ::
      (key.toList.flatMap escape ++ quotation :: (colon ++ (c :: tail ++ rest))) := by
    simp [writeField, writeString]
  rw [htext, fields, if_pos rfl, stringBody_write]
  simp only [Option.bind_eq_bind, Option.bind_some, hskip, if_true, hvalue,
    hread fuel rest hfuel hrest, String.ofList_toList]

/-- The fields of an object, from the first one on. -/
theorem fields_intercalate (hsep : Separates ',' separator) (hcolon : Separates ':' colon)
    {texts : List (String × Text)} {object : JsonObject}
    (h : List.Forall₂ ReadsField texts object) (hne : texts ≠ []) {fuel : Nat}
    (hfuel : (separator.intercalate (texts.map (writeField colon))).length < fuel) :
    fields fuel (separator.intercalate (texts.map (writeField colon)) ++ '}' :: rest) =
      some (object, rest) := by
  induction h generalizing fuel with
  | nil => exact absurd rfl hne
  | @cons text field texts object hfield hfields ih =>
    obtain ⟨fuel, rfl⟩ : ∃ n, fuel = n + 1 := Nat.exists_eq_add_one.mpr (by omega)
    obtain ⟨key, text⟩ := text
    obtain ⟨key', v⟩ := field
    obtain ⟨rfl, hread⟩ : key = key' ∧ Reads text v := hfield
    have hlength : text.length ≤ (writeField colon (key, text)).length := by
      rw [writeField, List.length_append]
      exact Nat.le_add_left _ _
    cases hfields with
    | nil =>
      rw [List.map_cons, List.map_nil, List.intercalate_singleton] at hfuel ⊢
      rw [fields_writeField hcolon key hread (by omega) (stops_cons (by decide) rest)]
      rfl
    | @cons next field texts object hnext hfields =>
      -- The next field begins with the quotation mark of its key.
      obtain ⟨more, hmore⟩ : ∃ more,
          separator.intercalate ((next :: texts).map (writeField colon)) = quotation :: more :=
        head_intercalate _
      obtain ⟨after, hcomma, hafter⟩ := hsep.skip_append rfl
        (List.intercalate separator ((next :: texts).map (writeField colon)) ++ '}' :: rest)
      have hskip : skip after =
          List.intercalate separator ((next :: texts).map (writeField colon)) ++ '}' :: rest := by
        rw [hafter, hmore, List.cons_append]
        exact skip_cons_of_neg rfl _
      have hpos : 0 < separator.length := by
        obtain ⟨blanks, rfl, -⟩ := hsep
        exact Nat.succ_pos _
      rw [List.map_cons, List.map_cons, List.intercalate_cons_cons, ← List.map_cons] at hfuel ⊢
      simp only [List.length_append] at hfuel
      rw [List.append_assoc, List.append_assoc,
        fields_writeField hcolon key hread (by omega) (hsep.stops (by decide) _)]
      simp only [hcomma, if_true, hskip, ih (List.cons_ne_nil _ _) (show _ < fuel by omega),
        Option.map_some]

/-- The text of an object is read as the object with its keys, and with what its values are read
as. -/
theorem reads_object (hsep : Separates ',' separator) (hcolon : Separates ':' colon)
    {texts : List (String × Text)} {object : JsonObject}
    (h : List.Forall₂ ReadsField texts object) :
    Reads (writeObject separator colon texts) (.obj object) := by
  intro fuel rest hfuel _
  obtain ⟨fuel, rfl⟩ := exists_fuel (List.cons_ne_nil _ _) hfuel
  rw [writeObject, List.length_cons, List.length_append, List.length_singleton] at hfuel
  rw [writeObject, List.cons_append, List.append_assoc, List.singleton_append, value,
    if_neg (by decide), if_neg (by decide), if_pos rfl]
  cases h with
  | nil => rfl
  | @cons text field texts object hfield hfields =>
    obtain ⟨more, hmore⟩ : ∃ more,
        separator.intercalate ((text :: texts).map (writeField colon)) = quotation :: more :=
      head_intercalate _
    have hread : fields fuel
        (separator.intercalate ((text :: texts).map (writeField colon)) ++ '}' :: rest) =
          some (field :: object, rest) :=
      fields_intercalate hsep hcolon (.cons hfield hfields) (List.cons_ne_nil _ _) (by omega)
    rw [hmore, List.cons_append] at hread ⊢
    rw [skip_cons_of_neg rfl]
    dsimp only
    rw [if_neg (by decide), hread]
    rfl

/-- A text that is read as a value is a document of that value. -/
theorem parse_of_reads (h : Reads text v) : parse text = some v := by
  obtain ⟨c, tail, rfl, hblank, -⟩ := h.exists_cons
  have hread := h (c :: tail).length [] (Nat.le_refl _) stops_nil
  rw [List.append_nil] at hread
  rw [parse, skip_cons_of_neg hblank, hread]
  rfl

end

end RedTeaming.Library.JsonText
