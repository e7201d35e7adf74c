import DeskCalculator.Lexeme
import DeskCalculator.Proofs.Decimal.Literal
import DeskCalculator.Proofs.Fault
import DeskCalculator.Proofs.Prefix
import DeskCalculator.Proofs.Text.Blank
import DeskCalculator.Proofs.Text.Name
set_option autoImplicit false

namespace DeskCalculator.Lexeme
open Text

/-- Whether the lexeme is written as lexemes of its kind are. -/
def IsWritten : Lexeme → Prop
  | numeral literal => literal.IsWritten
  | word letters => letters = ['π'] ∨ ∃ c cs, letters = c :: cs ∧ isNameStart c = true ∧
      ∀ other ∈ cs, isNameChar other = true
  | sign op => op ≠ .binary .modulo
  | opening | closing => True

/-- Whether neither a literal nor a word goes on with the text. -/
def Stops : List Char → Prop
  | [] => True
  | c :: _ => isNameChar c = false ∧ c ≠ '.'

/-- Whether the lexeme ends where the text begins. -/
def EndsBefore (rest : List Char) : Lexeme → Prop
  | numeral _ | word _ => Stops rest
  | _ => True

theorem Stops.endsBefore {rest : List Char} (stops : Stops rest) (lexeme : Lexeme) :
    lexeme.EndsBefore rest := by
  cases lexeme with
  | numeral | word => exact stops
  | sign | opening | closing => trivial

theorem isNameChar_of_isDigit {c : Char} (digit : c.isDigit = true) : isNameChar c = true :=
  isNameChar_iff.mpr (.inr (Char.isDigit_iff_toNat.mp digit))

/-- Whether the lexeme goes on with the text: a literal does with a digit, or with a point in front
of a digit if it has none yet, and a name does with the characters of names. -/
def isExtendedBy (rest : List Char) : Lexeme → Bool
  | numeral literal => startsWithDigit rest ||
      (literal.fraction.isEmpty && rest.head? == some '.' && startsWithDigit rest.tail)
  | word letters => letters != ['π'] && rest.head?.any isNameChar
  | _ => false

theorem EndsBefore.not_extended {rest : List Char} {lexeme : Lexeme}
    (ends : lexeme.EndsBefore rest) : lexeme.isExtendedBy rest = false := by
  cases lexeme with
  | sign | opening | closing => rfl
  | numeral literal =>
    cases rest with
    | nil => simp [isExtendedBy, startsWithDigit]
    | cons c rest =>
      obtain ⟨noName, noPoint⟩ := ends
      have noDigit : c.isDigit = false :=
        Bool.eq_false_iff.mpr fun digit => Bool.eq_false_iff.mp noName (isNameChar_of_isDigit digit)
      simp [isExtendedBy, startsWithDigit, noDigit, noPoint]
  | word letters =>
    cases rest with
    | nil => simp [isExtendedBy]
    | cons c rest => simp [isExtendedBy, ends.1]

section

variable {p : Char → Bool} {cs rest : List Char}

theorem Stops.not_goes_on {c : Char} (stops : Stops (c :: rest))
    (name : ∀ c, p c = true → isNameChar c = true) : ¬ p c = true :=
  fun goesOn => Bool.eq_false_iff.mp stops.1 (name c goesOn)

theorem Stops.takeWhile_append (stops : Stops rest) (name : ∀ c, p c = true → isNameChar c = true)
    (cs : List Char) : (cs ++ rest).takeWhile p = cs.takeWhile p := by
  apply takeWhile_append_stop
  cases rest with
  | nil => rfl
  | cons d rest => exact List.takeWhile_cons_of_neg (stops.not_goes_on name)

theorem Stops.dropWhile_append (stops : Stops rest) (name : ∀ c, p c = true → isNameChar c = true)
    (cs : List Char) : (cs ++ rest).dropWhile p = cs.dropWhile p ++ rest := by
  apply dropWhile_append_stop
  cases rest with
  | nil => rfl
  | cons d rest => exact List.dropWhile_cons_of_neg (stops.not_goes_on name)

end

theorem startsWithDigit_append {cs : List Char} (some : cs ≠ [])
    (all : ∀ c ∈ cs, c.isDigit = true) (rest : List Char) :
    startsWithDigit (cs ++ rest) = true := by
  cases cs with
  | nil => exact absurd rfl some
  | cons c cs => exact all c List.mem_cons_self

theorem takeLiteral_point {whole cs : List Char} (digits : ∀ c ∈ whole, c.isDigit = true)
    (starts : startsWithDigit cs = true) : takeLiteral (whole ++ '.' :: cs) =
      (⟨whole, cs.takeWhile Char.isDigit⟩, cs.dropWhile Char.isDigit) := by
  have point : ('.' :: cs).takeWhile Char.isDigit = [] := rfl
  have after : ('.' :: cs).dropWhile Char.isDigit = '.' :: cs := rfl
  rw [takeLiteral, List.takeWhile_append_of_pos digits, List.dropWhile_append_of_pos digits, point,
    after, List.append_nil]
  exact if_pos starts

theorem startsWithDigit_eq (cs : List Char) : startsWithDigit cs = cs.head?.any Char.isDigit := by
  cases cs <;> rfl

theorem takeLiteral_text {l : Literal} (written : l.IsWritten) {rest : List Char}
    (ends : (numeral l).isExtendedBy rest = false) : takeLiteral (l.text ++ rest) = (l, rest) := by
  obtain ⟨whole, fraction⟩ := l
  obtain ⟨digits, places, -⟩ := written
  obtain ⟨digit, point⟩ := Bool.or_eq_false_iff.mp ends
  rw [startsWithDigit_eq] at digit
  by_cases integral : fraction = []
  · subst integral
    have text : (Literal.mk whole []).text = whole := rfl
    rw [text, takeLiteral, takeWhile_append_all digits digit, dropWhile_append_all digits digit]
    split
    · exact if_neg (Bool.eq_false_iff.mp point)
    · rfl
  · rw [Literal.text_of_fraction integral, List.append_assoc, List.cons_append,
      takeLiteral_point digits (startsWithDigit_append integral places rest),
      takeWhile_append_all places digit, dropWhile_append_all places digit]

theorem literal_starts {l : Literal} (written : l.IsWritten) (rest : List Char) :
    ∃ c cs, l.text ++ rest = c :: cs ∧ isBlank c = false ∧
      (c.isDigit || (c == '.' && startsWithDigit cs)) = true := by
  obtain ⟨whole, fraction⟩ := l
  obtain ⟨digits, places, some⟩ := written
  cases whole with
  | nil =>
    have integral : fraction ≠ [] := some.resolve_left (· rfl)
    have starts := startsWithDigit_append integral places rest
    refine ⟨'.', fraction ++ rest, ?_, rfl, by simp [starts]⟩
    rw [Literal.text_of_fraction integral]
    rfl
  | cons c whole =>
    have digit : c.isDigit = true := digits c List.mem_cons_self
    have visible := isBlank_of_isDigit digit
    by_cases integral : fraction = []
    · subst integral
      exact ⟨c, whole ++ rest, rfl, visible, by rw [digit]; rfl⟩
    · refine ⟨c, whole ++ '.' :: fraction ++ rest, ?_, visible, by rw [digit]; rfl⟩
      rw [Literal.text_of_fraction integral]
      rfl

theorem isBlank_of_mem_literal {l : Literal} (written : l.IsWritten) {c : Char}
    (mem : c ∈ l.text) : isBlank c = false := by
  rcases written.digit_or_point mem with digit | rfl
  · exact isBlank_of_isDigit digit
  · rfl

theorem isBlank_of_starts {c : Char} {cs : List Char}
    (number : (c.isDigit || (c == '.' && startsWithDigit cs)) = true) : isBlank c = false := by
  rcases Bool.or_eq_true_iff.mp number with digit | point
  · exact isBlank_of_isDigit digit
  · rw [eq_of_beq (Bool.and_eq_true_iff.mp point).1]
    rfl

theorem takeLexeme?_point {cs : List Char} (none : ¬ startsWithDigit cs = true) :
    takeLexeme? '.' cs = .none := by
  rw [takeLexeme?, if_neg (by simpa using none)]
  rfl

theorem not_digit_of_isNameStart {c : Char} (start : isNameStart c = true) (cs : List Char) :
    (c.isDigit || (c == '.' && startsWithDigit cs)) = false := by
  have letter := isNameStart_iff.mp start
  have digit : c.isDigit = false := by
    rw [Bool.eq_false_iff]
    intro digit
    have bounds : 48 ≤ c.toNat ∧ c.toNat ≤ 57 := Char.isDigit_iff_toNat.mp digit
    omega
  have point : (c == '.') = false := by
    rw [beq_eq_false_iff_ne]
    rintro rfl
    cases start
  rw [digit, point]
  rfl

theorem takeLexeme?_name {c : Char} (start : isNameStart c = true) (cs : List Char) :
    takeLexeme? c cs = some (word (c :: cs.takeWhile isNameChar), cs.dropWhile isNameChar) := by
  rw [takeLexeme?, if_neg (by simp [not_digit_of_isNameStart start]), if_pos start]

theorem isBlank_of_isNameStart {c : Char} (start : isNameStart c = true) : isBlank c = false := by
  have bounds := isNameStart_iff.mp start
  exact isBlank_eq_false (by omega) (by omega)

theorem takeLexeme?_text {lexeme : Lexeme} (written : lexeme.IsWritten) {rest : List Char}
    (ends : lexeme.isExtendedBy rest = false) :
    ∃ c cs, lexeme.text ++ rest = c :: cs ∧ isBlank c = false ∧
      takeLexeme? c cs = some (lexeme, rest) := by
  match lexeme, written with
  | numeral l, written =>
    obtain ⟨c, cs, split, visible, number⟩ := literal_starts written rest
    refine ⟨c, cs, split, visible, ?_⟩
    have taken := takeLiteral_text written ends
    rw [split] at taken
    rw [takeLexeme?, if_pos number, taken]
    rfl
  | word _, .inl rfl => exact ⟨'π', rest, rfl, rfl, rfl⟩
  | word _, .inr ⟨c, cs, rfl, start, all⟩ =>
    refine ⟨c, cs ++ rest, rfl, isBlank_of_isNameStart start, ?_⟩
    have noName : rest.head?.any isNameChar = false := by
      have notPi : (c :: cs != ['π']) = true := by
        rw [bne_iff_ne]
        rintro ⟨⟩
        cases start
      rwa [isExtendedBy, notPi, Bool.true_and] at ends
    rw [takeLexeme?_name start, takeWhile_append_all all noName, dropWhile_append_all all noName]
  | sign .percent, _ => exact ⟨'%', rest, rfl, rfl, rfl⟩
  | sign (.binary op), written =>
    cases op with
    | plus => exact ⟨'+', rest, rfl, rfl, rfl⟩
    | minus => exact ⟨'-', rest, rfl, rfl, rfl⟩
    | times => exact ⟨'*', rest, rfl, rfl, rfl⟩
    | divide => exact ⟨'/', rest, rfl, rfl, rfl⟩
    | modulo => exact absurd rfl written
    | power => exact ⟨'^', rest, rfl, rfl, rfl⟩
  | opening, _ => exact ⟨'(', rest, rfl, rfl, rfl⟩
  | closing, _ => exact ⟨')', rest, rfl, rfl, rfl⟩

theorem scan_text {lexeme : Lexeme} (written : lexeme.IsWritten) {rest : List Char}
    (ends : lexeme.isExtendedBy rest = false) (position : Nat) :
    scan position (lexeme.text ++ rest) =
      (scan (position + lexeme.text.length) rest).map (lexeme :: ·) := by
  obtain ⟨c, cs, split, visible, taken⟩ := takeLexeme?_text written ends
  rw [split, scan_lexeme position visible taken]

theorem scan_alone {lexeme : Lexeme} (written : lexeme.IsWritten) (position : Nat) :
    scan position lexeme.text = .ok [lexeme] := by
  have none : Stops [] := trivial
  have scanned := scan_text written (none.endsBefore lexeme).not_extended position
  rw [List.append_nil, scan_nil] at scanned
  rw [scanned]
  rfl

/-- Lexemes with a blank between neighbours are read back one by one. -/
theorem scan_intercalate {lexemes : List Lexeme} (written : ∀ lexeme ∈ lexemes, lexeme.IsWritten)
    (position : Nat) :
    scan position ([' '].intercalate (lexemes.map text)) = .ok lexemes := by
  induction lexemes generalizing position with
  | nil => exact scan_nil position
  | cons lexeme others ih =>
    have first := written lexeme List.mem_cons_self
    have later := ih fun other mem => written other (List.mem_cons_of_mem _ mem)
    cases others with
    | nil => rw [List.map_singleton, List.intercalate_singleton, scan_alone first]
    | cons next others =>
      have blank : Stops (' ' :: [' '].intercalate ((next :: others).map text)) :=
        ⟨rfl, by decide⟩
      rw [List.map_cons, List.map_cons, List.intercalate_cons_cons, ← List.map_cons,
        List.append_assoc, List.singleton_append, scan_text first (blank.endsBefore _).not_extended,
        scan_blank _ _ rfl, later]
      rfl

theorem takeWhile_ne_nil {p : Char → Bool} {c : Char} (pos : p c = true) (cs : List Char) :
    (c :: cs).takeWhile p ≠ [] := by
  rw [List.takeWhile_cons_of_pos pos]
  exact List.cons_ne_nil _ _

theorem takeDigits_ne_nil {cs : List Char} (starts : startsWithDigit cs = true) :
    cs.takeWhile Char.isDigit ≠ [] := by
  cases cs with
  | nil => cases starts
  | cons c cs => exact takeWhile_ne_nil starts cs

theorem takeLiteral_isWritten {c : Char} {cs : List Char}
    (h : (c.isDigit || (c == '.' && startsWithDigit cs)) = true) :
    (takeLiteral (c :: cs)).1.IsWritten := by
  have digits : ∀ cs : List Char, ∀ d ∈ cs.takeWhile Char.isDigit, d.isDigit = true :=
    fun _ => List.all_eq_true.mp List.all_takeWhile
  by_cases digit : c.isDigit = true
  · have some := takeWhile_ne_nil digit cs
    unfold takeLiteral
    split
    · split
      · exact ⟨digits _, digits _, .inl some⟩
      · exact ⟨digits _, nofun, .inl some⟩
    · exact ⟨digits _, nofun, .inl some⟩
  · obtain ⟨rfl, starts⟩ : c = '.' ∧ startsWithDigit cs = true := by simpa [digit] using h
    have after : ('.' :: cs).dropWhile Char.isDigit = '.' :: cs := List.dropWhile_cons_of_neg digit
    simp only [takeLiteral, after, starts, if_true]
    exact ⟨digits _, digits _, .inr (takeDigits_ne_nil starts)⟩

theorem ne_modulo_of_ofChar? {c : Char} {op : Operator} (h : Operator.ofChar? c = some op) :
    op ≠ .binary .modulo := by
  rintro rfl
  unfold Operator.ofChar? at h
  split at h <;> cases h

theorem isWritten_of_takeLexeme? {c : Char} {cs rest : List Char} {lexeme : Lexeme}
    (h : takeLexeme? c cs = some (lexeme, rest)) : lexeme.IsWritten := by
  unfold takeLexeme? at h
  split_ifs at h with number start pi opens closes
  · cases h
    exact takeLiteral_isWritten number
  · cases h
    exact .inr ⟨c, _, rfl, start, fun _ mem => List.all_eq_true.mp List.all_takeWhile _ mem⟩
  · cases h
    rw [eq_of_beq pi]
    exact .inl rfl
  · cases h
    trivial
  · cases h
    trivial
  · obtain ⟨op, found, same⟩ := Option.map_eq_some_iff.mp h
    cases same
    exact ne_modulo_of_ofChar? found

theorem isWritten_of_scan {position : Nat} {cs : List Char} {lexemes : List Lexeme}
    (h : scan position cs = .ok lexemes) : ∀ lexeme ∈ lexemes, lexeme.IsWritten := by
  fun_induction scan position cs generalizing lexemes with
  | case1 =>
    cases h
    nofun
  | case2 position c cs blank ih => exact ih h
  | case3 => cases h
  | case4 position c cs blank lexeme rest taken shorter ih =>
    obtain ⟨others, scanned, rfl⟩ := map_eq_ok h
    intro other mem
    rcases List.mem_cons.mp mem with rfl | later
    · exact isWritten_of_takeLexeme? taken
    · exact ih scanned other later

end DeskCalculator.Lexeme
