import DeskCalculator.Proofs.Expression
set_option autoImplicit false

namespace DeskCalculator

theorem Literal.value_zero_cons (l : Literal) :
    (Literal.mk ('0' :: l.whole) l.fraction).value = l.value := by
  have digits : Nat.ofDigitChars 10 ('0' :: (l.whole ++ l.fraction)) 0 =
      Nat.ofDigitChars 10 (l.whole ++ l.fraction) 0 := Nat.ofDigitChars_cons
  rw [value, value, decimal, decimal, List.cons_append, digits]

namespace Lexeme

theorem takeLiteral_zero (cs : List Char) : takeLiteral ('0' :: cs) =
    (⟨'0' :: (takeLiteral cs).1.whole, (takeLiteral cs).1.fraction⟩, (takeLiteral cs).2) := by
  have taken : ('0' :: cs).takeWhile Char.isDigit = '0' :: cs.takeWhile Char.isDigit :=
    List.takeWhile_cons_of_pos rfl
  have dropped : ('0' :: cs).dropWhile Char.isDigit = cs.dropWhile Char.isDigit :=
    List.dropWhile_cons_of_pos rfl
  rw [takeLiteral, takeLiteral, taken, dropped]
  split
  · split <;> rfl
  · rfl

/-- Nothing but its value matters to the tokens that a literal begins. -/
theorem tokens_numeral {first second : Literal} (same : first.value = second.value)
    (others : List Lexeme) :
    tokens (numeral first :: others) = tokens (numeral second :: others) := by
  have token : (numeral first).token = (numeral second).token := congrArg Token.number same
  cases others with
  | nil => exact congrArg ([·]) token
  | cons right others =>
    have starts : startsFactor (numeral first) right = startsFactor (numeral second) right := rfl
    rw [tokens, tokens, token, starts]
    rfl

theorem scan_zero_literal {c : Char} {cs : List Char}
    (number : (c.isDigit || (c == '.' && startsWithDigit cs)) = true) (position : Nat)
    (all : List Token) : (scan position ('0' :: c :: cs)).map tokens = .ok all ↔
      (scan position (c :: cs)).map tokens = .ok all := by
  let literal := (takeLiteral (c :: cs)).1
  let rest := (takeLiteral (c :: cs)).2
  have alone : takeLexeme? c cs = some (numeral literal, rest) := if_pos number
  have behind : takeLexeme? '0' (c :: cs) =
      some (numeral ⟨'0' :: literal.whole, literal.fraction⟩, rest) := by
    change some ((takeLiteral ('0' :: c :: cs)).map numeral id) = _
    rw [takeLiteral_zero]
    rfl
  rw [scan_lexeme position rfl behind, scan_lexeme position (isBlank_of_starts number) alone,
    scan_add position, scan_add position]
  cases scan position rest with
  | error fault => exact ⟨fun h => (nomatch h), fun h => (nomatch h)⟩
  | ok others =>
    change Except.ok (tokens (numeral _ :: others)) = _ ↔ Except.ok (tokens (numeral _ :: others)) = _
    rw [tokens_numeral literal.value_zero_cons others]

theorem scan_zero_point {cs : List Char} (none : ¬ startsWithDigit cs = true) (position : Nat)
    (all : List Token) : (scan position ('0' :: '.' :: cs)).map tokens = .ok all ↔
      (scan position ('.' :: cs)).map tokens = .ok all := by
  have fault : ∀ position, scan position ('.' :: cs) =
      .error (.unexpectedCharacter '.' position) :=
    fun position => scan_fault position rfl (takeLexeme?_point none)
  have point : takeLiteral ('.' :: cs) = (⟨[], []⟩, '.' :: cs) := by
    simp [takeLiteral, none]
  have behind : takeLexeme? '0' ('.' :: cs) = some (numeral ⟨['0'], []⟩, '.' :: cs) := by
    change some ((takeLiteral ('0' :: '.' :: cs)).map numeral id) = _
    rw [takeLiteral_zero, point]
    rfl
  rw [scan_lexeme position rfl behind, fault, fault]
  constructor <;> rintro ⟨⟩

theorem scan_zero {c : Char} (starts : (c.isDigit || c == '.') = true) (cs : List Char)
    (position : Nat) (all : List Token) : (scan position ('0' :: c :: cs)).map tokens = .ok all ↔
      (scan position (c :: cs)).map tokens = .ok all := by
  by_cases number : (c.isDigit || (c == '.' && startsWithDigit cs)) = true
  · exact scan_zero_literal number position all
  · have point : c = '.' ∧ ¬ startsWithDigit cs = true := by
      simp only [Bool.or_eq_true, Bool.and_eq_true, beq_iff_eq, not_or, not_and] at starts number
      have same := starts.resolve_left number.1
      exact ⟨same, number.2 same⟩
    obtain ⟨rfl, none⟩ := point
    exact scan_zero_point none position all

/-- Whether a zero in front of the text makes no difference, since the text starts with a digit or a
point, or with a parenthesis that closes nothing. -/
def extendsZero : List Char → Bool
  | [] => false
  | c :: _ => c.isDigit || c == '.' || c == ')'

theorem extendsZero_append {zeros cs : List Char} (all : ∀ c ∈ zeros, c = '0')
    (starts : extendsZero cs = true) : extendsZero (zeros ++ cs) = true := by
  cases zeros with
  | nil => exact starts
  | cons c zeros =>
    cases all c List.mem_cons_self
    rfl

theorem trim_ne_empty {text : String} (starts : extendsZero text.toList = true) :
    Text.trim text ≠ "" := by
  cases read : text.toList with
  | nil =>
    rw [read] at starts
    cases starts
  | cons c cs =>
    have first : c ∈ text.toList := by
      rw [read]
      exact List.mem_cons_self
    rw [read] at starts
    apply Text.trim_ne_empty first
    rcases Bool.or_eq_true_iff.mp starts with number | closes
    · rcases Bool.or_eq_true_iff.mp number with digit | point
      · exact Text.isBlank_of_isDigit digit
      · rw [eq_of_beq point]
        rfl
    · rw [eq_of_beq closes]
      rfl

end Lexeme

namespace Expression
open Lexeme

theorem workOut_zero_append {text : String} (starts : extendsZero text.toList = true)
    (angle : Angle) (outcome : Outcome) :
    workOut angle ("0" ++ text) = .ok outcome ↔ workOut angle text = .ok outcome := by
  have zero : ("0" ++ text).toList = '0' :: text.toList := String.toList_append
  cases read : text.toList with
  | nil =>
    rw [read] at starts
    cases starts
  | cons c cs =>
    rw [read] at starts zero
    rcases Bool.or_eq_true_iff.mp starts with number | closes
    · apply workOut_congr
      intro all
      rw [tokenize, tokenize, zero, read]
      exact scan_zero number cs 0 all
    · -- the parenthesis has no partner, with the zero or without it
      cases eq_of_beq closes
      constructor
      · intro worked
        have balanced := isBalanced_of_value (value_of_workOut worked)
        rw [zero] at balanced
        cases balanced
      · intro worked
        have balanced := isBalanced_of_value (value_of_workOut worked)
        rw [read] at balanced
        cases balanced

theorem workOut_zeros_append {zeros : List Char} (all : ∀ c ∈ zeros, c = '0') {text : String}
    (starts : extendsZero text.toList = true) (angle : Angle) (outcome : Outcome) :
    workOut angle (String.ofList (zeros ++ text.toList)) = .ok outcome ↔
      workOut angle text = .ok outcome := by
  induction zeros with
  | nil => rw [List.nil_append, String.ofList_toList]
  | cons c zeros ih =>
    obtain ⟨rfl, others⟩ := List.forall_mem_cons.mp all
    have first : String.ofList ('0' :: zeros ++ text.toList) =
        "0" ++ String.ofList (zeros ++ text.toList) := by
      rw [List.cons_append, ← List.singleton_append, String.ofList_append]
    have later : extendsZero (String.ofList (zeros ++ text.toList)).toList = true := by
      rw [String.toList_ofList]
      exact extendsZero_append others starts
    rw [first, workOut_zero_append later, ih others]

end Expression

end DeskCalculator
