import DeskCalculator.Decimal.FloatingNotation
import DeskCalculator.Proofs.Infix.Phrase
import DeskCalculator.Proofs.Lexeme.Product
import DeskCalculator.Proofs.Lexeme.Splitting
import DeskCalculator.Proofs.Postfix.Running
set_option autoImplicit false

/-!
# Floating notation read as an expression

A number in floating notation is more than a literal where an expression is read: the letter of an
exponent starts a name, and its sign is an operator. If it can be read at all, its tokens hold at
most one number more than binary operators. So no operator in front of it finds enough values.
-/

namespace DeskCalculator.Lexeme
open Text Decimal Infix

theorem starts_of_isUnsignedNumber {c : Char} {cs : List Char}
    (number : isUnsignedNumber (c :: cs) = true) :
    (c.isDigit || (c == '.' && startsWithDigit cs)) = true := by
  by_cases digit : c.isDigit = true
  · rw [digit, Bool.true_or]
  · rw [isUnsignedNumber, List.takeWhile_cons_of_neg digit, List.dropWhile_cons_of_neg digit]
      at number
    by_cases point : c = '.'
    · subst point
      cases cs with
      | nil => cases number
      | cons d rest =>
        cases starts : d.isDigit with
        | true => exact starts
        | false =>
          have none : (d :: rest).takeWhile Char.isDigit = [] :=
            List.takeWhile_cons_of_neg (Bool.eq_false_iff.mp starts)
          simp [none] at number
    · simp [point] at number

/-- After a literal comes the exponent, or the point of a literal without places. -/
theorem isOptionalExponent_takeLiteral {cs : List Char} (number : isUnsignedNumber cs = true) :
    isOptionalExponent (takeLiteral cs).2 = true ∨
      ∃ rest, (takeLiteral cs).2 = '.' :: rest ∧ ¬ startsWithDigit rest = true := by
  rw [isUnsignedNumber] at number
  cases after : cs.dropWhile Char.isDigit with
  | nil =>
    have rest : (takeLiteral cs).2 = [] := by simp [takeLiteral, after]
    rw [rest]
    exact .inl rfl
  | cons d others =>
    rw [after] at number
    by_cases point : d = '.'
    · subst point
      have exponent := (Bool.and_eq_true_iff.mp number).2
      rw [takeLiteral, after]
      by_cases starts : startsWithDigit others = true
      · simp only [starts, if_true]
        exact .inl exponent
      · simp only [starts]
        exact .inr ⟨others, rfl, starts⟩
    · have rest : (takeLiteral cs).2 = d :: others := by simp [takeLiteral, after, point]
      have parts : (cs.takeWhile Char.isDigit).isEmpty = false ∧
          isOptionalExponent (d :: others) = true := by simpa [point] using number
      rw [rest]
      exact .inl parts.2

theorem isNameStart_of_exponent {letter : Char} (isLetter : letter = 'e' ∨ letter = 'E') :
    isNameStart letter = true := by
  rcases isLetter with rfl | rfl <;> rfl

theorem dropSign_eq (cs : List Char) : dropSign cs = cs ∨
    ∃ op : SumSign, cs = op.operator.symbol.toList ++ dropSign cs := by
  unfold dropSign
  split
  · exact .inr ⟨.plus, rfl⟩
  · exact .inr ⟨.minus, rfl⟩
  · exact .inl rfl

/-- What may stand behind the literal of a number in floating notation, with the lexemes it is read
as. The digits of an exponent belong to its letter, unless a sign stands between them. -/
inductive Exponent : List Char → List Lexeme → Prop
  | none : Exponent [] []
  | name {letter : Char} {digits : List Char} (isLetter : letter = 'e' ∨ letter = 'E')
      (isDigits : isDigits digits = true) : Exponent (letter :: digits) [word (letter :: digits)]
  | sum {letter : Char} {digits : List Char} (isLetter : letter = 'e' ∨ letter = 'E')
      (op : SumSign) (isDigits : isDigits digits = true) :
      Exponent (letter :: op.operator.symbol.toList ++ digits)
        [word [letter], sign (.binary op.operator), numeral ⟨digits, []⟩]

section

variable {position : Nat} {cs rest : List Char} {lexemes others : List Lexeme} {l : Literal}

theorem exists_exponent (exponent : isOptionalExponent cs = true) : ∃ others, Exponent cs others := by
  cases cs with
  | nil => exact ⟨_, .none⟩
  | cons letter cs =>
    obtain ⟨isLetter, digits⟩ := Bool.and_eq_true_iff.mp exponent
    have isLetter : letter = 'e' ∨ letter = 'E' := by simpa using isLetter
    rcases dropSign_eq cs with unsigned | ⟨op, split⟩
    · rw [unsigned] at digits
      exact ⟨_, .name isLetter digits⟩
    · rw [split]
      exact ⟨_, .sum isLetter op digits⟩

theorem scan_digits (digits : isDigits cs = true) :
    scan position cs = .ok [numeral ⟨cs, []⟩] := by
  obtain ⟨some, all⟩ := Bool.and_eq_true_iff.mp digits
  have written : (numeral ⟨cs, []⟩).IsWritten :=
    ⟨List.all_eq_true.mp all, nofun, .inl (by rintro rfl; cases some)⟩
  exact scan_alone written position

theorem isWritten_sumSign (op : SumSign) : (sign (.binary op.operator)).IsWritten := by
  cases op <;> exact nofun

theorem Exponent.scan_eq (exponent : Exponent cs lexemes) (position : Nat) :
    scan position cs = .ok lexemes := by
  cases exponent with
  | none => exact scan_nil position
  | @name letter digits isLetter isDigits =>
    have all := List.all_eq_true.mp (Bool.and_eq_true_iff.mp isDigits).2
    have written : (word (letter :: digits)).IsWritten :=
      .inr ⟨letter, digits, rfl, isNameStart_of_exponent isLetter,
        fun d mem => isNameChar_of_isDigit (all d mem)⟩
    exact scan_alone written position
  | @sum letter digits isLetter op isDigits =>
    have written : (word [letter]).IsWritten :=
      .inr ⟨letter, [], rfl, isNameStart_of_exponent isLetter, nofun⟩
    let plusOrMinus : Lexeme := sign (.binary op.operator)
    have apart : (word [letter]).isExtendedBy (plusOrMinus.text ++ digits) = false := by
      cases op <;> exact Bool.and_false _
    change scan position ((word [letter]).text ++ (plusOrMinus.text ++ digits)) = _
    rw [scan_text written apart, scan_text (isWritten_sumSign op) rfl, scan_digits isDigits]
    rfl

theorem Exponent.not_extended (exponent : Exponent rest others) (l : Literal) :
    (numeral l).isExtendedBy rest = false := by
  cases exponent with
  | none => simp [isExtendedBy, startsWithDigit]
  | name isLetter | sum isLetter =>
    rcases isLetter with rfl | rfl <;> simp [isExtendedBy, startsWithDigit]

theorem scan_number (written : l.IsWritten) (exponent : Exponent rest others) (position : Nat) :
    scan position (l.text ++ rest) = .ok (numeral l :: others) := by
  have isWritten : (numeral l).IsWritten := written
  have split : l.text = (numeral l).text := rfl
  rw [split, scan_text isWritten (exponent.not_extended l), exponent.scan_eq]
  rfl

theorem scan_unsignedNumber (number : isUnsignedNumber cs = true)
    (scanned : scan position cs = .ok lexemes) : ∃ literal rest others,
      literal.IsWritten ∧ cs = literal.text ++ rest ∧ Exponent rest others ∧
        lexemes = numeral literal :: others := by
  cases cs with
  | nil => cases number
  | cons c cs =>
    have starts := starts_of_isUnsignedNumber number
    have written := takeLiteral_isWritten starts
    have split := (takeLiteral_split (c :: cs)).symm
    rcases isOptionalExponent_takeLiteral number with some | ⟨rest, point, other⟩
    · obtain ⟨others, exponent⟩ := exists_exponent some
      rw [split, scan_number written exponent] at scanned
      exact ⟨_, _, others, written, split, exponent, (Except.ok.inj scanned).symm⟩
    · -- a point without digits after it starts no lexeme
      have taken : takeLexeme? c cs =
          some (numeral (takeLiteral (c :: cs)).1, (takeLiteral (c :: cs)).2) :=
        if_pos starts
      rw [scan_lexeme position (isBlank_of_starts starts) taken, point,
        scan_fault _ rfl (takeLexeme?_point other)] at scanned
      cases scanned

theorem scan_nonFiniteWord (nonFinite : isNonFiniteWord cs = true) :
    scan position cs = .ok [word cs] := by
  obtain ⟨name, mem, same⟩ := List.any_eq_true.mp nonFinite
  have letters : ∀ c ∈ cs, isNameStart c = true := by
    intro c among
    have small : c.toLower ∈ name.toList := by
      rw [← eq_of_beq same]
      exact List.mem_map_of_mem among
    have all : ["inf", "infinity", "nan"].all (fun word => word.toList.all isNameStart) = true := by
      decide
    rw [← isNameStart_toLower]
    exact List.all_eq_true.mp (List.all_eq_true.mp all name mem) _ small
  have some : cs ≠ [] := by
    rintro rfl
    cases nonFinite
  obtain ⟨c, cs, rfl⟩ := List.exists_cons_of_ne_nil some
  obtain ⟨start, others⟩ := List.forall_mem_cons.mp letters
  have written : (word (c :: cs)).IsWritten :=
    .inr ⟨c, cs, rfl, start, fun d mem => isNameChar_iff.mpr (.inl (others d mem))⟩
  exact scan_alone written position

/-- Whether the tokens of the lexemes hold at most one number more than binary operators. -/
def FewNumbers (lexemes : List Lexeme) : Prop :=
  (tokens lexemes).countP Token.isNumber ≤ (tokens lexemes).countP Token.isBinary + 1

theorem tokens_sign (op : Operator) (lexemes : List Lexeme) :
    tokens (sign op :: lexemes) = .operator op :: tokens lexemes := by
  cases lexemes <;> rfl

/-- The letter and the digits of an exponent are a name that stands for nothing else. -/
theorem standsFor_exponent {letter : Char} (isLetter : letter = 'e' ∨ letter = 'E')
    (digits : isDigits cs = true) : StandsFor (word (letter :: cs))
      (.name (String.ofList ((letter :: cs).map Char.toLower))) := by
  apply StandsFor.name
  have some : cs ≠ [] := by
    rintro rfl
    cases digits
  have small : letter.toLower = 'e' := by rcases isLetter with rfl | rfl <;> rfl
  simp [small, some]

theorem standsFor_letter {letter : Char} (isLetter : letter = 'e' ∨ letter = 'E') :
    StandsFor (word [letter]) (.number Constant.e.value) := by
  have small : [letter].map Char.toLower = ['e'] := by rcases isLetter with rfl | rfl <;> rfl
  exact .e small

theorem tokens_name {letter : Char} (l : Literal) (isLetter : letter = 'e' ∨ letter = 'E')
    (digits : isDigits cs = true) :
    tokens [numeral l, word (letter :: cs)] = [.number l.value, .operator (.binary .times),
      .name (String.ofList ((letter :: cs).map Char.toLower))] := by
  have name := standsFor_exponent isLetter digits
  exact spells_iff.mp
    (.product ⟨.inl ⟨_, .numeral l⟩, .inr (.inl ⟨_, name⟩)⟩ (.numeral l) (.last name))

theorem tokens_sum {letter : Char} (l m : Literal) (op : BinaryOperator)
    (isLetter : letter = 'e' ∨ letter = 'E') :
    tokens [numeral l, word [letter], sign (.binary op), numeral m] =
      [.number l.value, .operator (.binary .times), .number Constant.e.value,
        .operator (.binary op), .number m.value] := by
  have constant := standsFor_letter isLetter
  have later : tokens [word [letter], sign (.binary op), numeral m] =
      [.number Constant.e.value, .operator (.binary op), .number m.value] := by
    rw [tokens_of_apart (Bool.and_false _), constant.token_eq]
    rfl
  exact spells_iff.mp (.product
    ⟨.inl ⟨_, .numeral l⟩, .inr (.inr (.inl ⟨_, _, rfl, constant⟩))⟩ (.numeral l)
    (spells_iff.mpr later))

theorem Exponent.fewNumbers (exponent : Exponent cs others) (l : Literal) :
    FewNumbers (numeral l :: others) := by
  rw [FewNumbers]
  cases exponent with
  | none => exact Nat.le_refl 1
  | name isLetter isDigits =>
    rw [tokens_name l isLetter isDigits]
    exact Nat.le_succ 1
  | sum isLetter =>
    rw [tokens_sum l _ _ isLetter]
    exact Nat.le_refl 3

theorem fewNumbers_magnitude (magnitude : (isNonFiniteWord cs || isUnsignedNumber cs) = true)
    (scanned : scan position cs = .ok lexemes) : FewNumbers lexemes := by
  rcases Bool.or_eq_true_iff.mp magnitude with nonFinite | number
  · rw [scan_nonFiniteWord nonFinite] at scanned
    rw [← Except.ok.inj scanned]
    exact Nat.le_trans List.countP_le_length (Nat.le_add_left 1 _)
  · obtain ⟨literal, rest, others, -, -, exponent, rfl⟩ := scan_unsignedNumber number scanned
    exact exponent.fewNumbers literal

theorem numbers_of_sign (op : BinaryOperator) (few : FewNumbers lexemes) :
    (tokens (sign (.binary op) :: lexemes)).countP Token.isNumber ≤
      (tokens (sign (.binary op) :: lexemes)).countP Token.isBinary := by
  rw [tokens_sign, List.countP_cons_of_neg Bool.false_ne_true, List.countP_cons_of_pos rfl]
  exact few

theorem numbers_of_signed (op : SumSign)
    (magnitude : (isNonFiniteWord cs || isUnsignedNumber cs) = true)
    (scanned : scan position (op.operator.symbol.toList ++ cs) = .ok lexemes) :
    (tokens lexemes).countP Token.isNumber ≤ (tokens lexemes).countP Token.isBinary := by
  have split : op.operator.symbol.toList = (sign (.binary op.operator)).text := rfl
  rw [split, scan_text (isWritten_sumSign op) rfl] at scanned
  obtain ⟨others, later, rfl⟩ := map_eq_ok scanned
  exact numbers_of_sign op.operator (fewNumbers_magnitude magnitude later)

theorem fewNumbers_floatingNotation (number : isFloatingNotation cs = true)
    (scanned : scan position cs = .ok lexemes) : FewNumbers lexemes := by
  rcases dropSign_eq cs with unsigned | ⟨op, split⟩
  · rw [isFloatingNotation, unsigned] at number
    exact fewNumbers_magnitude number scanned
  · rw [split] at scanned
    exact Nat.le_succ_of_le (numbers_of_signed op number scanned)

end

end DeskCalculator.Lexeme
