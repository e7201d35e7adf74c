import DeskCalculator.Decimal.Literal
import Mathlib
set_option autoImplicit false

namespace DeskCalculator

/-- Whether the literal is digits around a point, or digits alone. -/
structure Literal.IsWritten (l : Literal) : Prop where
  whole : ∀ c ∈ l.whole, c.isDigit = true
  fraction : ∀ c ∈ l.fraction, c.isDigit = true
  some : l.whole ≠ [] ∨ l.fraction ≠ []

theorem Literal.text_of_fraction {whole fraction : List Char} (some : fraction ≠ []) :
    (Literal.mk whole fraction).text = whole ++ '.' :: fraction :=
  if_neg (mt List.isEmpty_iff.mp some)

theorem Literal.IsWritten.digit_or_point {l : Literal} (written : l.IsWritten) {c : Char}
    (mem : c ∈ l.text) : c.isDigit = true ∨ c = '.' := by
  rw [Literal.text] at mem
  split at mem
  · exact .inl (written.whole c mem)
  · rcases List.mem_append.mp mem with whole | rest
    · exact .inl (written.whole c whole)
    · exact (List.mem_cons.mp rest).symm.imp_left (written.fraction c)

namespace Decimal

theorem toFloat_eq (d : Decimal) :
    d.toFloat = Binary64.ofRatio d.coefficient (10 ^ d.places) :=
  rfl

theorem length_lastDigits (places n : Nat) : (lastDigits places n).length = places := by
  induction places generalizing n with
  | zero => rfl
  | succ places ih => rw [lastDigits, List.length_append, ih, List.length_singleton]

theorem isDigit_digitChar (n : Nat) : (Nat.digitChar (n % 10)).isDigit = true :=
  Nat.isDigit_of_mem_toDigits (b := 10) (n := n % 10) (by omega) (by omega)
    (by rw [Nat.toDigits_of_lt_base (Nat.mod_lt n (by omega))]; exact List.mem_singleton_self _)

theorem isDigit_of_mem_lastDigits {places n : Nat} {c : Char} (mem : c ∈ lastDigits places n) :
    c.isDigit = true := by
  induction places generalizing n with
  | zero => cases mem
  | succ places ih =>
    rw [lastDigits, List.mem_append, List.mem_singleton] at mem
    rcases mem with earlier | rfl
    · exact ih earlier
    · exact isDigit_digitChar n

theorem ofDigitChars_lastDigits (places n init : Nat) :
    Nat.ofDigitChars 10 (lastDigits places n) init = init * 10 ^ places + n % 10 ^ places := by
  induction places generalizing n with
  | zero => rw [lastDigits, Nat.ofDigitChars_nil, Nat.pow_zero, Nat.mod_one, Nat.mul_one]; rfl
  | succ places ih =>
    rw [lastDigits, Nat.ofDigitChars_append, ih,
      Nat.ofDigitChars_cons_digitChar_of_lt_ten (Nat.mod_lt n (by omega)), Nat.ofDigitChars_nil,
      Nat.pow_succ', Nat.mod_mul, Nat.mul_add, Nat.mul_left_comm]
    omega

theorem literal_isWritten (d : Decimal) : d.literal.IsWritten where
  whole _ mem := Nat.isDigit_of_mem_toDigits (by omega) (by omega) mem
  fraction _ := isDigit_of_mem_lastDigits
  some := .inl Nat.toDigits_ne_nil

theorem text_ne_minus_cons (d : Decimal) (cs : List Char) : d.text ≠ '-' :: cs := by
  intro same
  have minus : '-' ∈ d.text := by
    rw [same]
    exact List.mem_cons_self
  rcases (literal_isWritten d).digit_or_point minus with digit | point
  · cases digit
  · cases point

theorem length_fraction_literal (d : Decimal) : d.literal.fraction.length = d.places :=
  length_lastDigits d.places d.coefficient

theorem decimal_literal (d : Decimal) : d.literal.decimal = d := by
  have value : Nat.ofDigitChars 10 (d.literal.whole ++ d.literal.fraction) 0 = d.coefficient := by
    rw [literal, Nat.ofDigitChars_append, Nat.ofDigitChars_ten_toDigits, ofDigitChars_lastDigits]
    exact Nat.div_add_mod' d.coefficient _
  rw [Literal.decimal, value, length_fraction_literal]

theorem value_literal (d : Decimal) : d.literal.value = d.toFloat := by
  rw [Literal.value, decimal_literal]

end Decimal

end DeskCalculator
