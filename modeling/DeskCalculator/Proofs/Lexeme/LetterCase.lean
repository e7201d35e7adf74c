import DeskCalculator.Expression
import DeskCalculator.Proofs.Lexeme.Stray
import DeskCalculator.Proofs.Lexeme.Touching
set_option autoImplicit false

namespace DeskCalculator.Text

/-- Whether two characters are the same, or the capital and the small form of a letter of ASCII. -/
def SameLetter (c d : Char) : Prop :=
  c = d ∨ (c.isAlpha = true ∧ d.isAlpha = true ∧
    (d.toNat = c.toNat + 32 ∨ c.toNat = d.toNat + 32))

/-- Whether two texts differ in nothing but the case of letters. -/
def DifferInCase (s t : String) : Prop :=
  List.Forall₂ SameLetter s.toList t.toList

theorem isAlpha_iff {c : Char} : c.isAlpha = true ↔
    65 ≤ c.toNat ∧ c.toNat ≤ 90 ∨ 97 ≤ c.toNat ∧ c.toNat ≤ 122 := by
  simp [Char.isAlpha, Char.isUpper, Char.isLower, UInt32.le_iff_toNat_le]

theorem sameLetter_iff {c d : Char} : SameLetter c d ↔ c.toLower = d.toLower := by
  have small := toNat_toLower c
  have other := toNat_toLower d
  rw [SameLetter, isAlpha_iff, isAlpha_iff, ← Char.toNat_inj, ← Char.toNat_inj]
  split at small <;> split at other <;> omega

theorem differInCase_iff {s t : String} : DifferInCase s t ↔ foldCase s = foldCase t := by
  have same : SameLetter = fun c d => c.toLower = d.toLower :=
    funext fun c => funext fun d => propext sameLetter_iff
  rw [DifferInCase, same, foldCase, foldCase, String.ofList_inj, ← List.forall₂_eq_eq_eq,
    List.forall₂_map_left_iff, List.forall₂_map_right_iff]

theorem isAlpha_toLower (c : Char) : c.toLower.isAlpha = c.isAlpha := by
  rw [Bool.eq_iff_iff, isAlpha_iff, isAlpha_iff, toNat_toLower]
  split <;> omega

theorem toLower_of_not_isAlpha {c : Char} (other : c.isAlpha = false) : c.toLower = c := by
  have noLetter := mt isAlpha_iff.mpr (Bool.eq_false_iff.mp other)
  apply Char.toNat_inj.mp
  rw [toNat_toLower, if_neg (fun capital => noLetter (.inl capital))]

theorem toLower_eq_iff {c d : Char} (other : d.isAlpha = false) : c.toLower = d ↔ c = d := by
  constructor
  · rintro rfl
    rw [isAlpha_toLower] at other
    exact (toLower_of_not_isAlpha other).symm
  · rintro rfl
    exact toLower_of_not_isAlpha other

theorem not_isAlpha_of_isDigit {c : Char} (digit : c.isDigit = true) : c.isAlpha = false := by
  have bounds : 48 ≤ c.toNat ∧ c.toNat ≤ 57 := Char.isDigit_iff_toNat.mp digit
  rw [Bool.eq_false_iff, ne_eq, isAlpha_iff]
  omega

theorem isDigit_toLower (c : Char) : c.toLower.isDigit = c.isDigit := by
  rw [Bool.eq_iff_iff]
  constructor
  · intro digit
    have other := not_isAlpha_of_isDigit digit
    rw [isAlpha_toLower] at other
    rwa [toLower_of_not_isAlpha other] at digit
  · intro digit
    rwa [toLower_of_not_isAlpha (not_isAlpha_of_isDigit digit)]

theorem not_isAlpha_of_not_isNameChar {c : Char} (other : isNameChar c = false) :
    c.isAlpha = false := by
  rw [Bool.eq_false_iff, ne_eq, isNameChar_iff, isNameStart_iff] at other
  rw [Bool.eq_false_iff, ne_eq, isAlpha_iff]
  omega

theorem not_isAlpha_of_isBlank {c : Char} (blank : isBlank c = true) : c.isAlpha = false := by
  rw [Bool.eq_false_iff, ne_eq, isAlpha_iff]
  intro letter
  cases blank.symm.trans (isBlank_eq_false (by omega) (by omega))

end DeskCalculator.Text

namespace DeskCalculator.Lexeme
open Text

def foldCase : Lexeme → Lexeme
  | word letters => word (letters.map Char.toLower)
  | lexeme => lexeme

section

variable {lexeme : Lexeme} {rest : List Char}

theorem map_toLower_of_no_letter {cs : List Char} (others : ∀ c ∈ cs, c.isAlpha = false) :
    cs.map Char.toLower = cs := by
  rw [List.map_congr_left fun c mem => toLower_of_not_isAlpha (others c mem), List.map_id']

theorem not_isAlpha_of_mem_literal {l : Literal} (written : l.IsWritten) {c : Char}
    (mem : c ∈ l.text) : c.isAlpha = false := by
  rcases written.digit_or_point mem with digit | rfl
  · exact not_isAlpha_of_isDigit digit
  · rfl

theorem not_isAlpha_of_mem_signs {c : Char} (mem : c ∈ signs) : c.isAlpha = false := by
  have all : signs.all (fun c => !c.isAlpha) = true := rfl
  simpa using List.all_eq_true.mp all c mem

theorem text_foldCase (written : lexeme.IsWritten) :
    lexeme.foldCase.text = lexeme.text.map Char.toLower := by
  cases lexeme with
  | word => rfl
  | numeral literal =>
    exact (map_toLower_of_no_letter fun c => not_isAlpha_of_mem_literal written).symm
  | sign op =>
    exact (map_toLower_of_no_letter fun c mem =>
      not_isAlpha_of_mem_signs (mem_signs_of_mem_symbol written mem)).symm
  | opening | closing => rfl

theorem isWritten_map_toLower (written : lexeme.IsWritten) : lexeme.foldCase.IsWritten := by
  cases lexeme with
  | numeral | sign | opening | closing => exact written
  | word => exact isWritten_word_toLower written

theorem any_map_toLower {p : Char → Bool} (same : ∀ c, p c.toLower = p c) (next : Option Char) :
    (next.map Char.toLower).any p = next.any p := by
  cases next with
  | none => rfl
  | some c => exact same c

theorem startsWithDigit_map_toLower (cs : List Char) :
    startsWithDigit (cs.map Char.toLower) = startsWithDigit cs := by
  rw [startsWithDigit_eq, startsWithDigit_eq, List.head?_map, any_map_toLower isDigit_toLower]

theorem map_toLower_eq_pi_iff {letters : List Char} :
    letters.map Char.toLower = ['π'] ↔ letters = ['π'] := by
  constructor
  · intro same
    obtain ⟨c, cs, rfl, small, none⟩ := List.map_eq_cons_iff.mp same
    rw [List.map_eq_nil_iff.mp none, (toLower_eq_iff rfl).mp small]
  · rintro rfl
    rfl

/-- Whether a lexeme goes on with a text does not depend on the case of letters. -/
theorem isExtendedBy_foldCase (lexeme : Lexeme) (rest : List Char) :
    lexeme.foldCase.isExtendedBy (rest.map Char.toLower) = lexeme.isExtendedBy rest := by
  cases lexeme with
  | sign | opening | closing => rfl
  | word letters =>
    have pi : (letters.map Char.toLower != ['π']) = (letters != ['π']) := by
      rw [Bool.eq_iff_iff, bne_iff_ne, bne_iff_ne, ne_eq, map_toLower_eq_pi_iff]
    rw [foldCase, isExtendedBy, isExtendedBy, pi, List.head?_map,
      any_map_toLower isNameChar_toLower]
  | numeral literal =>
    have point : ((rest.map Char.toLower).head? == some '.') = (rest.head? == some '.') := by
      cases rest with
      | nil => rfl
      | cons c rest =>
        rw [Bool.eq_iff_iff, beq_iff_eq, beq_iff_eq, List.map_cons, List.head?_cons,
          List.head?_cons, Option.some_inj, Option.some_inj, toLower_eq_iff rfl]
    change (numeral literal).isExtendedBy (rest.map Char.toLower) = _
    rw [isExtendedBy, isExtendedBy, startsWithDigit_map_toLower, point, ← List.map_tail,
      startsWithDigit_map_toLower]

theorem isStray_toLower (c : Char) (next : Option Char) :
    isStray c.toLower (next.map Char.toLower) = isStray c next := by
  cases name : isNameChar c with
  | true =>
    have folded : isNameChar c.toLower = true := (isNameChar_toLower c).trans name
    rw [isStray_eq_false (.inr (.inl folded)), isStray_eq_false (.inr (.inl name))]
  | false =>
    rw [toLower_of_not_isAlpha (not_isAlpha_of_not_isNameChar name), isStray, isStray,
      any_map_toLower isDigit_toLower]

theorem not_isAlpha_of_isStray {c : Char} {next : Option Char} (stray : isStray c next = true) :
    c.isAlpha = false := by
  apply not_isAlpha_of_not_isNameChar
  rw [Bool.eq_false_iff]
  intro name
  cases stray.symm.trans (isStray_eq_false (.inr (.inl name)) next)

/-- A text in small letters is cut into the lexemes of the text, in small letters. -/
theorem scan_map_toLower (position : Nat) (cs : List Char) :
    scan position (cs.map Char.toLower) = (scan position cs).map (List.map foldCase) := by
  fun_induction scan position cs with
  | case1 position => exact scan_nil position
  | case2 position c cs blank ih =>
    rw [List.map_cons, toLower_of_not_isAlpha (not_isAlpha_of_isBlank blank),
      scan_blank position _ blank]
    exact ih
  | case3 position c cs visible none =>
    have stray := isStray_of_takeLexeme?_none (Bool.eq_false_iff.mpr visible) none
    have other := not_isAlpha_of_isStray stray
    rw [← isStray_toLower, ← List.head?_map, toLower_of_not_isAlpha other] at stray
    rw [List.map_cons, toLower_of_not_isAlpha other]
    exact (scan_eq_error_iff position _ _).mpr
      ⟨0, c, (firstStray_iff_zero stray).mpr ⟨rfl, rfl⟩, rfl⟩
  | case4 position c cs visible lexeme rest taken shorter ih =>
    have written := isWritten_of_takeLexeme? taken
    have ends : lexeme.foldCase.isExtendedBy (rest.map Char.toLower) = false := by
      rw [isExtendedBy_foldCase]
      exact not_extended_of_taken taken
    have length : lexeme.foldCase.text.length = lexeme.text.length := by
      rw [text_foldCase written, List.length_map]
    rw [← takeLexeme?_split taken, List.map_append, ← text_foldCase written,
      scan_text (isWritten_map_toLower written) ends, length, ih]
    cases scan (position + lexeme.text.length) rest <;> rfl

theorem token_foldCase (lexeme : Lexeme) : lexeme.foldCase.token = lexeme.token := by
  cases lexeme with
  | numeral | sign | opening | closing => rfl
  | word letters =>
    have same : Text.foldCase (String.ofList (letters.map Char.toLower)) =
        Text.foldCase (String.ofList letters) := by
      rw [← foldCase_ofList, foldCase_foldCase]
    rw [foldCase, token, token, wordToken, wordToken, Constant.named?, Constant.named?, same]

theorem endsFactor_foldCase (left right : Lexeme) :
    endsFactor left.foldCase right.foldCase = endsFactor left right := by
  have call : (right.foldCase != opening) = (right != opening) := by cases right <;> rfl
  rw [endsFactor, endsFactor, token_foldCase, call]

theorem startsFactor_foldCase (left right : Lexeme) :
    startsFactor left.foldCase right.foldCase = startsFactor left right := by
  have closes : (left.foldCase == closing) = (left == closing) := by cases left <;> rfl
  have word : right.foldCase.isWord = right.isWord := by cases right <;> rfl
  rw [startsFactor, startsFactor, token_foldCase, closes, word]

theorem tokens_map_foldCase (lexemes : List Lexeme) :
    tokens (lexemes.map foldCase) = tokens lexemes := by
  fun_induction tokens lexemes with
  | case1 => rfl
  | case2 lexeme => exact congrArg (fun token => [token]) (token_foldCase lexeme)
  | case3 left right others product ih =>
    rw [List.map_cons, List.map_cons, tokens, endsFactor_foldCase, startsFactor_foldCase,
      if_pos product, token_foldCase, ← List.map_cons, ih]
  | case4 left right others product ih =>
    rw [List.map_cons, List.map_cons, tokens, endsFactor_foldCase, startsFactor_foldCase,
      if_neg product, token_foldCase, ← List.map_cons, ih]

end

end DeskCalculator.Lexeme

namespace DeskCalculator

theorem tokenize_foldCase (text : String) : tokenize (Text.foldCase text) = tokenize text := by
  rw [tokenize, tokenize, Text.foldCase, String.toList_ofList, Lexeme.scan_map_toLower]
  cases Lexeme.scan 0 text.toList with
  | error fault => rfl
  | ok lexemes => exact congrArg Except.ok (Lexeme.tokens_map_foldCase lexemes)

/-- Texts that differ in the case of letters only are read as the same tokens, or have the same
fault in the same place. So they are worked out in the same way, whatever comes of it. -/
theorem letter_case_ignored {s t : String} (same : Text.DifferInCase s t) :
    tokenize s = tokenize t ∧
      ∀ angle, Expression.workOut angle s = Expression.workOut angle t := by
  have read : tokenize s = tokenize t := by
    rw [← tokenize_foldCase s, ← tokenize_foldCase t, Text.differInCase_iff.mp same]
  refine ⟨read, fun angle => ?_⟩
  rw [Expression.workOut, Expression.workOut, read]

theorem letter_case_ignored_in_words :
    (Text.DifferInCase "7 Mod SIN(pI)X" "7 mOD sin(Pi)x" ∧
      tokenize "7 Mod SIN(pI)X" = tokenize "7 mOD sin(Pi)x" ∧
      ∀ angle, Expression.workOut angle "7 Mod SIN(pI)X" =
        Expression.workOut angle "7 mOD sin(Pi)x") ∧
    (Text.DifferInCase "LN$" "ln$" ∧ tokenize "LN$" = tokenize "ln$" ∧
      tokenize "ln$" = .error (.unexpectedCharacter '$' 2)) := by
  have words : Text.DifferInCase "7 Mod SIN(pI)X" "7 mOD sin(Pi)x" :=
    Text.differInCase_iff.mpr (by cbv)
  have stray : Text.DifferInCase "LN$" "ln$" := Text.differInCase_iff.mpr (by cbv)
  exact ⟨⟨words, letter_case_ignored words⟩, stray, (letter_case_ignored stray).1, by cbv⟩

end DeskCalculator
