import DeskCalculator.Constant
import DeskCalculator.Decimal.Literal
import DeskCalculator.Text.Blank
import DeskCalculator.Token
set_option autoImplicit false

/-!
# Lexemes

The pieces in which an expression is written: literals, words, operator signs and parentheses. A
text is read from left to right, always taking the longest lexeme; white space lies between lexemes
and is skipped.
-/

namespace DeskCalculator

inductive Lexeme
  | numeral (literal : Literal)
  | word (letters : List Char)
  | sign (op : Operator)
  | opening
  | closing
deriving DecidableEq

namespace Lexeme

def text : Lexeme → List Char
  | numeral literal => literal.text
  | word letters => letters
  | sign op => op.symbol.toList
  | opening => ['(']
  | closing => [')']

/-- A word is a constant, the operator `mod`, or else a name in small letters. -/
def wordToken (word : String) : Token :=
  match Constant.named? word with
  | some constant => .number constant.value
  | none =>
    if Text.foldCase word = "mod" then .operator (.binary .modulo) else .name (Text.foldCase word)

def token : Lexeme → Token
  | numeral literal => .number literal.value
  | word letters => wordToken (String.ofList letters)
  | sign op => .operator op
  | opening => .opening
  | closing => .closing

def startsWithDigit : List Char → Bool
  | [] => false
  | c :: _ => c.isDigit

def takeLiteral (cs : List Char) : Literal × List Char :=
  let whole := cs.takeWhile Char.isDigit
  match cs.dropWhile Char.isDigit with
  | '.' :: rest =>
    if startsWithDigit rest then
      (⟨whole, rest.takeWhile Char.isDigit⟩, rest.dropWhile Char.isDigit)
    else (⟨whole, []⟩, '.' :: rest)
  | rest => (⟨whole, []⟩, rest)

def takeLexeme? (c : Char) (cs : List Char) : Option (Lexeme × List Char) :=
  if c.isDigit || (c == '.' && startsWithDigit cs) then
    some ((takeLiteral (c :: cs)).map numeral id)
  else if Text.isNameStart c then
    some (word (c :: cs.takeWhile Text.isNameChar), cs.dropWhile Text.isNameChar)
  else if c == 'π' then some (word [c], cs)
  else if c == '(' then some (opening, cs)
  else if c == ')' then some (closing, cs)
  else (Operator.ofChar? c).map fun op => (sign op, cs)

theorem length_dropWhile_le (p : Char → Bool) (cs : List Char) :
    (cs.dropWhile p).length ≤ cs.length :=
  (List.dropWhile_sublist p).length_le

theorem takeLiteral_rest_length (c : Char) (cs : List Char)
    (h : c.isDigit || (c == '.' && startsWithDigit cs)) :
    (takeLiteral (c :: cs)).2.length ≤ cs.length := by
  unfold takeLiteral
  by_cases digit : c.isDigit
  · simp only [List.dropWhile_cons_of_pos digit]
    have shorter := length_dropWhile_le Char.isDigit cs
    split
    · rename_i rest eq
      rw [eq] at shorter
      have := length_dropWhile_le Char.isDigit rest
      split <;> simp only [List.length_cons] at shorter ⊢ <;> omega
    · exact shorter
  · obtain ⟨rfl, starts⟩ : c = '.' ∧ startsWithDigit cs := by simpa [digit] using h
    simp only [List.dropWhile_cons_of_neg digit, starts, if_true]
    exact length_dropWhile_le _ _

theorem takeLexeme?_rest_length {c : Char} {cs rest : List Char} {lexeme : Lexeme}
    (h : takeLexeme? c cs = some (lexeme, rest)) : rest.length ≤ cs.length := by
  unfold takeLexeme? at h
  split at h
  · rename_i number
    cases h
    exact takeLiteral_rest_length c cs number
  · split at h
    · cases h
      exact length_dropWhile_le _ _
    · repeat' split at h
      case isFalse.isFalse.isFalse =>
        obtain ⟨_, _, eq⟩ := Option.map_eq_some_iff.mp h
        cases eq
        exact Nat.le_refl _
      all_goals cases h
      all_goals exact Nat.le_refl _

/-- The lexemes of a text that starts at `position`, or its first character that cannot start one. -/
def scan (position : Nat) : List Char → Except Fault (List Lexeme)
  | [] => .ok []
  | c :: cs =>
    if Text.isBlank c then scan (position + 1) cs
    else
      match taken : takeLexeme? c cs with
      | none => .error (.unexpectedCharacter c position)
      | some (lexeme, rest) =>
        have := takeLexeme?_rest_length taken
        (scan (position + lexeme.text.length) rest).map (lexeme :: ·)
termination_by cs => cs.length
decreasing_by all_goals simp only [List.length_cons]; omega

theorem scan_nil (position : Nat) : scan position [] = .ok [] := by
  rw [scan]

theorem scan_blank {c : Char} (position : Nat) (cs : List Char) (blank : Text.isBlank c = true) :
    scan position (c :: cs) = scan (position + 1) cs := by
  rw [scan, if_pos blank]

theorem scan_lexeme {c : Char} {cs rest : List Char} {lexeme : Lexeme} (position : Nat)
    (blank : Text.isBlank c = false) (taken : takeLexeme? c cs = some (lexeme, rest)) :
    scan position (c :: cs) = (scan (position + lexeme.text.length) rest).map (lexeme :: ·) := by
  rw [scan, if_neg (by simp [blank])]
  split
  · rename_i none
    cases none.symm.trans taken
  · rename_i some
    cases some.symm.trans taken
    rfl

theorem scan_fault {c : Char} {cs : List Char} (position : Nat)
    (blank : Text.isBlank c = false) (taken : takeLexeme? c cs = none) :
    scan position (c :: cs) = .error (.unexpectedCharacter c position) := by
  rw [scan, if_neg (by simp [blank])]
  split
  · rfl
  · rename_i some
    cases some.symm.trans taken

def isWord : Lexeme → Bool
  | word _ => true
  | _ => false

/-- Whether `left` can be the left factor of an unwritten product. A name before a parenthesis is a
function and not a factor. -/
def endsFactor (left right : Lexeme) : Bool :=
  match left.token with
  | .number _ | .closing => true
  | .name _ => right != opening
  | _ => false

/-- Whether `right` can be the right factor of an unwritten product. A literal can only after a
parenthesis, so two literals in a row stay an error. -/
def startsFactor (left right : Lexeme) : Bool :=
  match right.token with
  | .opening | .name _ => true
  | .number _ => right.isWord || left == closing
  | _ => false

/-- The tokens of the lexemes, with a product sign wherever one is left unwritten. -/
def tokens : List Lexeme → List Token
  | [] => []
  | [lexeme] => [lexeme.token]
  | left :: right :: others =>
    if endsFactor left right && startsFactor left right then
      left.token :: .operator (.binary .times) :: tokens (right :: others)
    else left.token :: tokens (right :: others)

theorem tokens_of_apart {left right : Lexeme}
    (apart : (endsFactor left right && startsFactor left right) = false) (others : List Lexeme) :
    tokens (left :: right :: others) = left.token :: tokens (right :: others) := by
  rw [tokens, apart, if_neg Bool.false_ne_true]

end Lexeme

def tokenize (text : String) : Except Fault (List Token) :=
  (Lexeme.scan 0 text.toList).map Lexeme.tokens

end DeskCalculator
