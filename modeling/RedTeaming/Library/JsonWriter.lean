import RedTeaming.Library.JsonText
import Mathlib.Data.Rat.Defs

/-!
# `RedTeaming.Library.JsonWriter`: whole JSON values as text

`write` puts the pieces of the writer together. It is for values whose numbers are integers
(`Integral`). Such a text is read as its value (`reads_write`), and it has no control characters
(`printed_write`): a line end in a string is escaped.

Nothing here names a program.
-/

set_option autoImplicit false

namespace RedTeaming.Library.JsonText

mutual
/-- A value whose numbers are integers, as text. -/
def write (separator colon : Text) : Json → Text
  | .null => "null".toList
  | .bool true => "true".toList
  | .bool false => "false".toList
  | .num n => writeInt n.num
  | .str s => writeString s
  | .arr items => writeArray separator (writeItems separator colon items)
  | .obj fields => writeObject separator colon (writeFields separator colon fields)

/-- The texts of the items of an array. -/
def writeItems (separator colon : Text) : List Json → List Text
  | [] => []
  | item :: items => write separator colon item :: writeItems separator colon items

/-- The keys of an object, with the texts of their values. -/
def writeFields (separator colon : Text) : JsonObject → List (String × Text)
  | [] => []
  | (key, item) :: fields => (key, write separator colon item) ::
      writeFields separator colon fields
end

mutual
/-- The numbers of the value are integers. -/
def Integral : Json → Prop
  | .num n => n.den = 1
  | .arr items => IntegralItems items
  | .obj fields => IntegralFields fields
  | _ => True

/-- The numbers of the items are integers. -/
def IntegralItems : List Json → Prop
  | [] => True
  | item :: items => Integral item ∧ IntegralItems items

/-- The numbers of the fields are integers. -/
def IntegralFields : JsonObject → Prop
  | [] => True
  | (_, item) :: fields => Integral item ∧ IntegralFields fields
end

section
variable {separator colon : Text}

mutual
/-- The text of a value is read as the value. -/
theorem reads_write (hsep : Separates ',' separator) (hcolon : Separates ':' colon) :
    ∀ v : Json, Integral v → Reads (write separator colon v) v
  | .null, _ => reads_null
  | .bool true, _ => reads_true
  | .bool false, _ => reads_false
  | .num n, h => by
    have hn : (n.num : Rat) = n := (Rat.den_eq_one_iff n).mp h
    have hreads := reads_int n.num
    rw [hn] at hreads
    exact hreads
  | .str s, _ => reads_string s
  | .arr items, h => by
    rw [write]
    exact reads_array hsep (reads_writeItems hsep hcolon items h)
  | .obj fields, h => by
    rw [write]
    exact reads_object hsep hcolon (reads_writeFields hsep hcolon fields h)

/-- The items are read one by one. -/
theorem reads_writeItems (hsep : Separates ',' separator) (hcolon : Separates ':' colon) :
    ∀ items : List Json, IntegralItems items →
      List.Forall₂ Reads (writeItems separator colon items) items
  | [], _ => .nil
  | item :: items, h =>
    .cons (reads_write hsep hcolon item h.1) (reads_writeItems hsep hcolon items h.2)

/-- The fields are read one by one. -/
theorem reads_writeFields (hsep : Separates ',' separator) (hcolon : Separates ':' colon) :
    ∀ fields : JsonObject, IntegralFields fields →
      List.Forall₂ ReadsField (writeFields separator colon fields) fields
  | [], _ => .nil
  | (_, item) :: fields, h =>
    .cons ⟨rfl, reads_write hsep hcolon item h.1⟩ (reads_writeFields hsep hcolon fields h.2)
end

/-! ### The characters of a text -/

/-- No character of the text is a control character. -/
def Printed (text : Text) : Prop := ∀ c ∈ text, 0x20 ≤ c.toNat

instance (text : Text) : Decidable (Printed text) :=
  List.decidableBAll (fun c : Char => 0x20 ≤ c.toNat) text

theorem Printed.append {text text' : Text} (h : Printed text) (h' : Printed text') :
    Printed (text ++ text') := fun c hc => (List.mem_append.mp hc).elim (h c) (h' c)

theorem printed_escape (c : Char) : Printed (escape c) := by
  have hdigit : ∀ n < 16, 0x20 ≤ n.digitChar.toNat := by decide
  unfold escape
  split_ifs with h₁ h₂ h₃ h₄ h₅ h₆ h₇ hcontrol
  · decide
  · decide
  · decide
  · decide
  · decide
  · decide
  · decide
  · intro d hd
    simp only [List.mem_cons, List.not_mem_nil, or_false] at hd
    rcases hd with rfl | rfl | rfl | rfl | rfl | rfl
    · decide
    · decide
    · decide
    · decide
    · exact hdigit (c.toNat / 16) (by omega)
    · exact hdigit (c.toNat % 16) (by omega)
  · intro d hd
    rw [List.mem_singleton.mp hd]
    omega

theorem printed_string (s : String) : Printed (writeString s) := by
  intro c hc
  rcases List.mem_cons.mp hc with rfl | hc
  · decide
  · rcases List.mem_append.mp hc with hc | hc
    · obtain ⟨d, -, hd⟩ := List.mem_flatMap.mp hc
      exact printed_escape d c hd
    · rw [List.mem_singleton.mp hc]
      decide

theorem printed_digits (n : Nat) : Printed (Nat.toDigits 10 n) := by
  intro c hc
  have hdigit := Nat.isDigit_of_mem_toDigits (by decide) (by decide) hc
  have hzero : 48 ≤ c.toNat := (Char.isDigit_iff_toNat.mp hdigit).1
  omega

theorem printed_int : ∀ n : Int, Printed (writeInt n)
  | .ofNat n => printed_digits n
  | .negSucc n => fun c hc => by
    rcases List.mem_cons.mp hc with rfl | hc
    · decide
    · exact printed_digits (n + 1) c hc

theorem printed_intercalate {texts : List Text} (hsep : Printed separator)
    (h : ∀ text ∈ texts, Printed text) : Printed (separator.intercalate texts) := by
  induction texts with
  | nil => exact fun c hc => absurd hc List.not_mem_nil
  | cons text texts ih =>
    have htext := h text List.mem_cons_self
    have hrest := ih fun t ht => h t (List.mem_cons_of_mem _ ht)
    cases texts with
    | nil => rw [List.intercalate_singleton]; exact htext
    | cons next texts =>
      rw [List.intercalate_cons_cons]
      exact (htext.append hsep).append hrest

mutual
/-- A value is written without control characters, when its separators are. -/
theorem printed_write (hsep : Printed separator) (hcolon : Printed colon) :
    ∀ v : Json, Printed (write separator colon v)
  | .null => by rw [write]; decide
  | .bool true => by rw [write]; decide
  | .bool false => by rw [write]; decide
  | .num n => by rw [write]; exact printed_int n.num
  | .str s => by rw [write]; exact printed_string s
  | .arr items => by
    have hitems := printed_intercalate hsep (printed_writeItems hsep hcolon items)
    have hclose : Printed [']'] := by decide
    intro c hc
    rw [write] at hc
    rcases List.mem_cons.mp hc with rfl | hc
    · decide
    · exact hitems.append hclose c hc
  | .obj fields => by
    have hfields := printed_intercalate hsep (printed_writeFields hsep hcolon fields)
    have hclose : Printed ['}'] := by decide
    intro c hc
    rw [write] at hc
    rcases List.mem_cons.mp hc with rfl | hc
    · decide
    · exact hfields.append hclose c hc

theorem printed_writeItems (hsep : Printed separator) (hcolon : Printed colon) :
    ∀ items : List Json, ∀ text ∈ writeItems separator colon items, Printed text
  | [], _, h => absurd h List.not_mem_nil
  | item :: items, text, h => by
    rcases List.mem_cons.mp h with rfl | h
    · exact printed_write hsep hcolon item
    · exact printed_writeItems hsep hcolon items text h

theorem printed_writeFields (hsep : Printed separator) (hcolon : Printed colon) :
    ∀ fields : JsonObject,
      ∀ text ∈ (writeFields separator colon fields).map (writeField colon), Printed text
  | [], _, h => absurd h List.not_mem_nil
  | (key, item) :: fields, text, h => by
    rcases List.mem_cons.mp h with rfl | h
    · exact ((printed_string key).append hcolon).append (printed_write hsep hcolon item)
    · exact printed_writeFields hsep hcolon fields text h
end

end

end RedTeaming.Library.JsonText
