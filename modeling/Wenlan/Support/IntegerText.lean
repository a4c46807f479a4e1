import Mathlib.Algebra.Group.Int.Defs
import Wenlan.Support.JsonText

/-!
# Integers as text

The decimal text of a 64-bit integer, and its reading: an optional sign, then digits, then a
value in range.
-/

namespace Wenlan.Support.IntegerText

open Support.Json (toString_digits)

/-- The values of a signed integer of 64 bits. -/
def InI64 (n : Int) : Prop := -2 ^ 63 ≤ n ∧ n < 2 ^ 63

instance (n : Int) : Decidable (InI64 n) := inferInstanceAs (Decidable (_ ∧ _))

def digitsValue (digits : List Char) : Option ℕ :=
  if digits ≠ [] ∧ digits.all Char.isDigit then some (Nat.ofDigitChars 10 digits 0) else none

def signedValue : List Char → Option Int
  | '-' :: digits => (digitsValue digits).map fun n : ℕ => -(n : Int)
  | '+' :: digits => (digitsValue digits).map fun n : ℕ => (n : Int)
  | digits => (digitsValue digits).map fun n : ℕ => (n : Int)

/-- `str::parse::<i64>`. -/
def parseI64 (text : List Char) : Option Int :=
  (signedValue text).filter fun n => decide (InI64 n)

theorem digitsValue_toString (n : ℕ) : digitsValue (toString n).toList = some n := by
  have hdig := toString_digits n
  have hne : (toString n).toList ≠ [] := by
    rw [Nat.toString_eq_repr, Nat.toList_repr]
    exact Nat.toDigits_ne_nil
  have hall : (toString n).toList.all Char.isDigit := List.all_eq_true.mpr hdig
  rw [digitsValue, if_pos ⟨hne, hall⟩, Nat.toString_eq_repr, Nat.toList_repr]
  simp

theorem signedValue_toString (n : ℕ) : signedValue (toString n).toList = some (n : Int) := by
  have hvalue := digitsValue_toString n
  have hdig := toString_digits n
  cases hchars : (toString n).toList with
  | nil =>
    rw [hchars] at hvalue
    cases hvalue
  | cons c rest =>
    rw [hchars] at hvalue hdig
    have hc : c.isDigit := hdig c List.mem_cons_self
    have hminus : c ≠ '-' := by
      rintro rfl
      cases hc
    have hplus : c ≠ '+' := by
      rintro rfl
      cases hc
    rw [signedValue]
    · rw [hvalue, Option.map_some]
    · intro digits heq
      exact hminus (List.cons.inj heq).1
    · intro digits heq
      exact hplus (List.cons.inj heq).1

theorem toString_negSucc (n : ℕ) :
    (toString (Int.negSucc n)).toList = '-' :: (toString (n + 1)).toList := by
  show ("-" ++ Nat.repr (n + 1)).toList = _
  rw [String.toList_append]
  rfl

theorem signedValue_format (n : Int) : signedValue (toString n).toList = some n := by
  cases n with
  | ofNat n => exact signedValue_toString n
  | negSucc n =>
    rw [toString_negSucc, signedValue, digitsValue_toString, Option.map_some]
    rfl

theorem parseI64_format {n : Int} (h : InI64 n) : parseI64 (toString n).toList = some n := by
  rw [parseI64, signedValue_format, Option.filter_some, if_pos (decide_eq_true h)]

/-- The text of an integer holds digits and a sign. -/
theorem format_chars (n : Int) : ∀ c ∈ (toString n).toList, c.isDigit ∨ c = '-' := by
  intro c hmem
  cases n with
  | ofNat n => exact .inl (toString_digits n c hmem)
  | negSucc n =>
    rw [toString_negSucc, List.mem_cons] at hmem
    rcases hmem with rfl | hmem
    · exact .inr rfl
    · exact .inl (toString_digits _ c hmem)

end Wenlan.Support.IntegerText
