import DeskCalculator.Proofs.Binary64.Exact
import DeskCalculator.Proofs.Decimal.Rounded
import DeskCalculator.Proofs.Display
import DeskCalculator.Proofs.Lexeme.Longest
set_option autoImplicit false

namespace DeskCalculator

/-- Whether no digit of the literal can be left out: the whole part is zero or does not start with
zero, and the fraction does not end in zero. -/
structure Literal.IsCanonical (l : Literal) : Prop extends l.IsWritten where
  leading : l.whole = ['0'] ∨ ∃ c, l.whole.head? = .some c ∧ c ≠ '0'
  trailing : l.fraction.getLast? ≠ .some '0'

namespace Decimal
open Binary64 Rounding

def exact (d : Decimal) : ℚ :=
  d.coefficient / 10 ^ d.places

def signedText (negative : Bool) (cs : List Char) : List Char :=
  if negative then '-' :: cs else cs

def withoutZeros (cs : List Char) : List Char :=
  (cs.rdropWhile (· == '0')).rdropWhile (· == '.')

/-- The text without the digits that can be left out, and without the sign of a zero. -/
def shortened (cs : List Char) : List Char :=
  if withoutZeros cs = ['-', '0'] then ['0'] else withoutZeros cs

theorem signedText_false (cs : List Char) : signedText false cs = cs :=
  rfl

def withOtherSign (s : String) : String :=
  match s.toList with
  | '-' :: cs => String.ofList cs
  | cs => String.ofList ('-' :: cs)

section

variable {places n : ℕ}

theorem exact_reduce (places n : ℕ) : (reduce places n).exact = n / 10 ^ places := by
  induction places generalizing n with
  | zero => rfl
  | succ places ih =>
    rw [reduce]
    split
    · rename_i multiple
      have tenfold : (n : ℚ) = (n / 10 : ℕ) * 10 := by
        exact_mod_cast (Nat.div_mul_cancel (Nat.dvd_of_mod_eq_zero multiple)).symm
      rw [ih, tenfold, pow_succ, mul_div_mul_right _ _ (by norm_num)]
    · rfl

theorem coefficient_reduce (places n : ℕ) :
    (reduce places n).places = 0 ∨ (reduce places n).coefficient % 10 ≠ 0 := by
  induction places generalizing n with
  | zero => exact .inl rfl
  | succ places ih =>
    rw [reduce]
    split
    · exact ih (n / 10)
    · rename_i last
      exact .inr last

theorem head_toDigits (n : ℕ) :
    Nat.toDigits 10 n = ['0'] ∨ ∃ c, (Nat.toDigits 10 n).head? = some c ∧ c ≠ '0' := by
  induction n using Nat.strongRecOn with
  | _ n ih =>
    by_cases small : n < 10
    · rw [Nat.toDigits_of_lt_base small]
      by_cases zero : n = 0
      · exact .inl (by rw [zero]; rfl)
      · exact .inr ⟨_, rfl, mt Nat.digitChar_eq_zero.mp zero⟩
    · rw [Nat.toDigits_of_base_le (by omega) (Nat.le_of_not_lt small)]
      right
      rcases ih (n / 10) (by omega) with zero | ⟨c, head, some⟩
      · have tenth : Nat.ofDigitChars 10 (Nat.toDigits 10 (n / 10)) 0 = 0 := by rw [zero]; rfl
        rw [Nat.ofDigitChars_ten_toDigits] at tenth
        omega
      · exact ⟨c, by rw [List.head?_append, head]; rfl, some⟩

theorem getLast?_lastDigits (last : places = 0 ∨ n % 10 ≠ 0) :
    (lastDigits places n).getLast? ≠ some '0' := by
  cases places with
  | zero =>
    rw [lastDigits, List.getLast?_nil]
    exact (Option.some_ne_none '0').symm
  | succ places =>
    rw [lastDigits, List.getLast?_concat, ne_eq, Option.some_inj, Nat.digitChar_eq_zero]
    exact last.resolve_left (Nat.succ_ne_zero places)

theorem isCanonical_reduce (places n : ℕ) : (reduce places n).literal.IsCanonical where
  toIsWritten := literal_isWritten _
  leading := head_toDigits _
  trailing := getLast?_lastDigits (coefficient_reduce places n)

def pointedText (places n : ℕ) : List Char :=
  Nat.toDigits 10 (n / 10 ^ places) ++ '.' :: lastDigits places n

theorem pointedText_succ (places n : ℕ) :
    pointedText (places + 1) n = pointedText places (n / 10) ++ [Nat.digitChar (n % 10)] := by
  rw [pointedText, pointedText, lastDigits, Nat.pow_succ', ← Nat.div_div_eq_div_mul,
    List.append_assoc, List.cons_append]

theorem text_eq_pointedText (places n : ℕ) : text ⟨n, places + 1⟩ = pointedText (places + 1) n := by
  have some : lastDigits (places + 1) n ≠ [] := List.concat_ne_nil _ _
  exact Literal.text_of_fraction some

/-- Taking the zeros at the end off one by one, and then the point, is reducing the number. -/
theorem text_reduce (places n : ℕ) :
    (reduce places n).text = withoutZeros (pointedText places n) := by
  rw [withoutZeros]
  induction places generalizing n with
  | zero =>
    have noPoint : ∀ c ∈ Nat.toDigits 10 n, ¬ (c == '.') = true := by
      intro c mem point
      have digit : c.isDigit = true := Nat.isDigit_of_mem_toDigits (by omega) (by omega) mem
      rw [eq_of_beq point] at digit
      cases digit
    have whole : (Nat.toDigits 10 n).rdropWhile (· == '.') = Nat.toDigits 10 n :=
      List.rdropWhile_eq_self_iff.mpr fun some => noPoint _ (List.getLast_mem some)
    have pointed : pointedText 0 n = Nat.toDigits 10 n ++ ['.'] := by
      rw [pointedText, Nat.pow_zero, Nat.div_one]
      rfl
    rw [pointed, List.rdropWhile_concat_neg _ _ _ (by decide),
      List.rdropWhile_concat_pos _ _ _ (by decide), whole, reduce, text, literal, Literal.text]
    simp [lastDigits]
  | succ places ih =>
    rw [reduce, pointedText_succ]
    split
    · rename_i multiple
      have zero : Nat.digitChar (n % 10) = '0' := Nat.digitChar_eq_zero.mpr multiple
      rw [zero, List.rdropWhile_concat_pos _ _ _ (by decide), ih]
    · rename_i last
      have digit := isDigit_digitChar n
      have noZero : ¬ (Nat.digitChar (n % 10) == '0') = true := by
        rw [beq_iff_eq, Nat.digitChar_eq_zero]
        exact last
      have noPoint : ¬ (Nat.digitChar (n % 10) == '.') = true := by
        rw [beq_iff_eq]
        intro point
        rw [point] at digit
        cases digit
      rw [List.rdropWhile_concat_neg (· == '0') _ _ noZero,
        List.rdropWhile_concat_neg (· == '.') _ _ noPoint, ← pointedText_succ, text_eq_pointedText]

theorem rdropWhile_signedText {p : Char → Bool} (negative : Bool) (cs : List Char)
    (minus : ¬ p '-' = true) :
    (signedText negative cs).rdropWhile p = signedText negative (cs.rdropWhile p) := by
  cases negative with
  | false => rfl
  | true =>
    have stop : ['-'].dropWhile p = ['-'] := List.dropWhile_cons_of_neg minus
    change (('-' :: cs).reverse.dropWhile p).reverse = '-' :: cs.rdropWhile p
    rw [List.reverse_cons, dropWhile_append_stop stop, List.reverse_append]
    rfl

theorem withoutZeros_signedText (negative : Bool) (cs : List Char) :
    withoutZeros (signedText negative cs) = signedText negative (withoutZeros cs) := by
  rw [withoutZeros, rdropWhile_signedText _ _ (by decide), rdropWhile_signedText _ _ (by decide),
    withoutZeros]

end

section

variable {x y : Float}

def shownUnits (x : Float) : ℤ :=
  nearestInteger (Binary64.exact x * 10 ^ shownPlaces)

theorem shownUnits_eq (finite : isFinite x = true) : shownUnits x =
    if isNegative x then -(halfEven (steps (rank x) * 10 ^ shownPlaces) unit : ℤ)
    else halfEven (steps (rank x) * 10 ^ shownPlaces) unit := by
  have scaled : magnitude (rank x) * 10 ^ shownPlaces =
      ((steps (rank x) * 10 ^ shownPlaces : ℕ) : ℚ) / unit := by
    rw [magnitude, div_mul_eq_mul_div, Nat.cast_mul, Nat.cast_pow, Nat.cast_ofNat]
  rw [shownUnits, exact_eq finite, signed_mul, nearestInteger_signed, scaled,
    nearestInteger_div _ unit_pos]

theorem natAbs_shownUnits (finite : isFinite x = true) :
    (shownUnits x).natAbs = halfEven (steps (rank x) * 10 ^ shownPlaces) unit := by
  rw [shownUnits_eq finite]
  split
  · rw [Int.natAbs_neg, Int.natAbs_natCast]
  · exact Int.natAbs_natCast _

theorem rounded_eq_reduce (finite : isFinite x = true) :
    rounded x = reduce shownPlaces (shownUnits x).natAbs := by
  rw [rounded_eq, natAbs_shownUnits finite]

theorem coefficient_reduce_eq_zero_iff {places n : ℕ} :
    (reduce places n).coefficient = 0 ↔ n = 0 := by
  constructor
  · exact eq_zero_of_reduce
  · rintro rfl
    rw [reduce_zero]

theorem showsSign_iff (finite : isFinite x = true) : showsSign x = true ↔ shownUnits x < 0 := by
  rw [showsSign, Bool.and_eq_true, bne_iff_ne, ne_eq, rounded_eq, coefficient_reduce_eq_zero_iff,
    shownUnits_eq finite]
  generalize halfEven (steps (rank x) * 10 ^ shownPlaces) unit = count
  cases isNegative x with
  | false => simp
  | true => simp [Nat.pos_iff_ne_zero]

theorem toPlaces_exact (finite : isFinite x = true) :
    toPlaces shownPlaces (Binary64.exact x) = signed (showsSign x) (rounded x).exact := by
  change (shownUnits x : ℚ) / 10 ^ shownPlaces = _
  rw [rounded_eq_reduce finite, exact_reduce, Nat.cast_natAbs]
  cases sign : showsSign x with
  | true =>
    have below : shownUnits x < 0 := (showsSign_iff finite).mp sign
    rw [abs_of_neg below, Int.cast_neg, neg_div, signed, if_pos rfl, neg_neg]
  | false =>
    have above : 0 ≤ shownUnits x :=
      not_lt.mp (mt (showsSign_iff finite).mpr (Bool.eq_false_iff.mp sign))
    rw [abs_of_nonneg above, signed, if_neg Bool.false_ne_true]

theorem text_injective {d other : Decimal} (same : d.text = other.text) : d = other := by
  have literal : Lexeme.numeral d.literal = .numeral other.literal :=
    Lexeme.eq_of_text (literal_isWritten d) (literal_isWritten other) same
  rw [← decimal_literal d, Lexeme.numeral.inj literal, decimal_literal]

theorem signedText_injective {negative sign : Bool} {d other : Decimal}
    (same : signedText negative d.text = signedText sign other.text) :
    negative = sign ∧ d = other := by
  cases negative with
  | false =>
    cases sign with
    | false => exact ⟨rfl, text_injective same⟩
    | true => exact absurd same (text_ne_minus_cons d _)
  | true =>
    cases sign with
    | false => exact absurd same.symm (text_ne_minus_cons other _)
    | true => exact ⟨rfl, text_injective (List.cons.inj same).2⟩

theorem roundedText_eq_signedText (finite : isFinite x = true) :
    roundedText x = String.ofList (signedText (showsSign x) (rounded x).text) :=
  roundedText_of_isFinite finite

theorem roundedText_eq_iff (finite : isFinite x = true) (finiteOther : isFinite y = true) :
    roundedText x = roundedText y ↔ toPlaces shownPlaces (Binary64.exact x) =
      toPlaces shownPlaces (Binary64.exact y) := by
  rw [roundedText_eq_signedText finite, roundedText_eq_signedText finiteOther, String.ofList_inj]
  constructor
  · intro same
    obtain ⟨sign, digits⟩ := signedText_injective same
    rw [toPlaces_exact finite, toPlaces_exact finiteOther, sign, digits]
  · intro same
    have units : shownUnits x = shownUnits y := toPlaces_eq_iff.mp same
    have sign : showsSign x = showsSign y := by
      rw [Bool.eq_iff_iff, showsSign_iff finite, showsSign_iff finiteOther, units]
    rw [sign, rounded_eq_reduce finite, rounded_eq_reduce finiteOther, units]

theorem roundedText_eq_zero_iff (finite : isFinite x = true) :
    roundedText x = "0" ↔ (rounded x).coefficient = 0 := by
  have zero : "0" = String.ofList (signedText false (text ⟨0, 0⟩)) := rfl
  rw [roundedText_eq_signedText finite, zero, String.ofList_inj]
  constructor
  · intro same
    rw [(signedText_injective same).2]
  · intro none
    have plain : showsSign x = false := by rw [showsSign, none, bne_self_eq_false, Bool.and_false]
    rw [plain]
    exact congrArg (signedText false) (text_rounded_eq_zero_iff.mpr none)

theorem withOtherSign_signedText (negative : Bool) (d : Decimal) :
    withOtherSign (String.ofList (signedText negative d.text)) =
      String.ofList (signedText (!negative) d.text) := by
  rw [withOtherSign, String.toList_ofList]
  cases negative with
  | true => rfl
  | false =>
    change (match d.text with | '-' :: cs => _ | cs => _) = String.ofList ('-' :: d.text)
    split
    · rename_i cs minus
      exact absurd minus (text_ne_minus_cons d cs)
    · rfl

theorem roundedText_neg (finite : isFinite x = true) : roundedText (-x) =
    if roundedText x = "0" then "0" else withOtherSign (roundedText x) := by
  have stillFinite : isFinite (-x) = true := (isFinite_neg x).trans finite
  have digits : rounded (-x) = rounded x := by rw [rounded_eq, rank_neg, rounded_eq]
  split
  · rename_i zero
    rw [roundedText_eq_zero_iff finite] at zero
    rw [roundedText_eq_zero_iff stillFinite, digits, zero]
  · rename_i some
    rw [roundedText_eq_zero_iff finite] at some
    have sign : showsSign (-x) = !showsSign x := by
      rw [showsSign, showsSign, isNegative_neg (isNaN_of_isFinite finite), digits,
        bne_iff_ne.mpr some, Bool.and_true, Bool.and_true]
    rw [roundedText_eq_signedText stillFinite, roundedText_eq_signedText finite,
      withOtherSign_signedText, sign, digits]

/-- The shown text is the one with all the shown places, without the zeros at its end and then the
point, if it is left there. -/
theorem roundedText_eq_shortened (finite : isFinite x = true) : roundedText x = String.ofList
    (shortened (signedText (isNegative x) (text ⟨(shownUnits x).natAbs, shownPlaces⟩))) := by
  have fixed : text ⟨(shownUnits x).natAbs, shownPlaces⟩ =
      pointedText shownPlaces (shownUnits x).natAbs := text_eq_pointedText 9 _
  rw [roundedText_eq_signedText finite, String.ofList_inj, shortened, fixed,
    withoutZeros_signedText, ← text_reduce, ← rounded_eq_reduce finite, showsSign]
  cases isNegative x with
  | false =>
    have noMinus : signedText false (rounded x).text ≠ ['-', '0'] := by
      rw [signedText_false]
      exact text_ne_minus_cons (rounded x) ['0']
    rw [if_neg noMinus, Bool.false_and]
  | true =>
    by_cases zero : (rounded x).coefficient = 0
    · rw [zero, text_rounded_eq_zero_iff.mpr zero]
      rfl
    · have digits : (rounded x).text ≠ ['0'] := mt text_rounded_eq_zero_iff.mp zero
      have noZero : signedText true (rounded x).text ≠ ['-', '0'] :=
        fun same => digits (List.cons.inj same).2
      rw [bne_iff_ne.mpr zero, if_neg noZero, Bool.and_true]

theorem showsSign_of_zero_le (finite : isFinite x = true) (above : 0.0 ≤ x) :
    showsSign x = false := by
  rw [zero_le_iff finite, exact_eq finite] at above
  rw [showsSign]
  cases sign : isNegative x with
  | false => rw [Bool.false_and]
  | true =>
    rw [sign, signed, if_pos rfl, neg_nonneg] at above
    have none : rank x = 0 := magnitude_eq_zero_iff.mp (le_antisymm above (magnitude_nonneg _))
    rw [coefficient_rounded_of_rank none, bne_self_eq_false, Bool.and_false]

/-- A finite double is shown as a canonical literal with at most ten places, behind a sign if it is
below zero and not shown as zero. The number shown is the exact value, rounded to ten places, for
only zeros at the end and the point are taken off the text with all ten. So two doubles are shown
alike exactly when their rounded values are the same, the negation of a double is shown with the
other sign, and what is shown of a double not below zero is read as one number. -/
theorem roundedText_canonical (finite : isFinite x = true) :
    (∃ (negative : Bool) (l : Literal),
      roundedText x = String.ofList (signedText negative l.text) ∧
      l.IsCanonical ∧ l.fraction.length ≤ 10 ∧ (negative = true → l.text ≠ ['0']) ∧
      signed negative l.decimal.exact = toPlaces 10 (Binary64.exact x)) ∧
    roundedText x = String.ofList (shortened (signedText (isNegative x)
      (text ⟨(nearestInteger (Binary64.exact x * 10 ^ 10)).natAbs, 10⟩))) ∧
    (∀ y, isFinite y = true → (roundedText x = roundedText y ↔
      toPlaces 10 (Binary64.exact x) = toPlaces 10 (Binary64.exact y))) ∧
    roundedText (-x) = (if roundedText x = "0" then "0" else withOtherSign (roundedText x)) ∧
    (0.0 ≤ x → ∃ value, tokenize (roundedText x) = .ok [.number value]) := by
  have shown := roundedText_eq_signedText finite
  refine ⟨⟨showsSign x, (rounded x).literal, shown, ?_, ?_, ?_, ?_⟩,
    roundedText_eq_shortened finite, fun y => roundedText_eq_iff finite, roundedText_neg finite,
    fun above => ⟨(rounded x).toFloat, ?_⟩⟩
  · rw [rounded_eq_reduce finite]
    exact isCanonical_reduce _ _
  · rw [length_fraction_literal, rounded_eq]
    exact places_reduce_le _ _
  · intro sign zero
    have some : (rounded x).coefficient ≠ 0 := by
      rw [showsSign, Bool.and_eq_true, bne_iff_ne] at sign
      exact sign.2
    exact some (coefficient_eq_zero_of_text zero)
  · rw [decimal_literal]
    exact (toPlaces_exact finite).symm
  · rw [shown, showsSign_of_zero_le finite above, signedText_false, Display.tokenize_text]

/-- Just between two shown numbers the one with an even last digit is shown, and so it is for the
next double on that side. -/
theorem roundedText_canonical_between : ∃ x y : Float,
    isFinite x = true ∧ isFinite y = true ∧ x ≠ y ∧
    roundedText x = "-0.0004882812" ∧ roundedText y = "-0.0004882812" ∧
    toPlaces 10 (Binary64.exact x) = toPlaces 10 (Binary64.exact y) ∧
    roundedText (-x) = "0.0004882812" := by
  let x : Float := Float.ofBits 0xBF40000000000000
  let y : Float := Float.ofBits 0xBF3FFFFFFFFFFFFF
  have finite : isFinite x = true := by decide +kernel
  have finiteOther : isFinite y = true := by decide +kernel
  have shown : roundedText x = "-0.0004882812" := by decide +kernel
  have shownOther : roundedText y = "-0.0004882812" := by decide +kernel
  obtain ⟨-, -, alike, negated, -⟩ := roundedText_canonical finite
  refine ⟨x, y, finite, finiteOther, by decide, shown, shownOther, ?_, ?_⟩
  · exact (alike y finiteOther).mp (shown.trans shownOther.symm)
  · rw [negated, shown]
    decide

end

end Decimal

end DeskCalculator
