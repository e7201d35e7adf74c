import DeskCalculator.Proofs.Lexeme.Product
import DeskCalculator.Proofs.Lexeme.Splitting
set_option autoImplicit false

namespace DeskCalculator.Lexeme
open Text

/-- Whether the lexeme, with `rest` after it, is the longest one that begins where it does. -/
structure IsLongest (lexeme : Lexeme) (rest : List Char) : Prop where
  isWritten : lexeme.IsWritten
  longest : ∀ other : Lexeme, other.IsWritten → other.text <+: lexeme.text ++ rest →
    other.text.length ≤ lexeme.text.length

inductive Piece
  | blank (c : Char)
  | lexeme (lexeme : Lexeme)

/-- Whether the text is made of these pieces, each blank being white space and each lexeme the
longest in its place. -/
inductive Cut : List Char → List Piece → Prop
  | nil : Cut [] []
  | blank {c : Char} {cs : List Char} {pieces : List Piece} (blank : isBlank c = true)
      (later : Cut cs pieces) : Cut (c :: cs) (.blank c :: pieces)
  | lexeme {lexeme : Lexeme} {cs rest : List Char} {pieces : List Piece}
      (split : cs = lexeme.text ++ rest) (longest : lexeme.IsLongest rest)
      (later : Cut rest pieces) : Cut cs (.lexeme lexeme :: pieces)

def Piece.lexeme? : Piece → Option Lexeme
  | .blank _ => none
  | .lexeme found => some found

section

variable {c : Char} {cs rest : List Char} {lexeme : Lexeme}

theorem length_takeWhile_append {p : Char → Bool} (all : ∀ c ∈ cs, p c = true)
    (rest : List Char) : cs.length ≤ ((cs ++ rest).takeWhile p).length := by
  rw [List.takeWhile_append_of_pos all, List.length_append]
  exact Nat.le_add_right _ _

theorem length_text_le {first second : Literal} (whole : first.whole.length ≤ second.whole.length)
    (fraction : first.fraction.length ≤ second.fraction.length) :
    first.text.length ≤ second.text.length := by
  rw [Literal.text, Literal.text]
  split
  · split
    · exact whole
    · rw [List.length_append]
      exact Nat.le_add_right_of_le whole
  · rename_i some
    have length := List.length_pos_iff.mpr (mt List.isEmpty_iff.mpr some)
    rw [if_neg (mt List.isEmpty_iff.mp (List.ne_nil_of_length_pos (length.trans_le fraction))),
      List.length_append, List.length_append]
    exact Nat.add_le_add whole (Nat.succ_le_succ fraction)

theorem whole_takeLiteral (cs : List Char) :
    (takeLiteral cs).1.whole = cs.takeWhile Char.isDigit := by
  rw [takeLiteral]
  split
  · split <;> rfl
  · rfl

theorem length_le_takeLiteral {l : Literal} (written : l.IsWritten) (rest : List Char) :
    l.text.length ≤ (takeLiteral (l.text ++ rest)).1.text.length := by
  obtain ⟨whole, fraction⟩ := l
  obtain ⟨digits, places, -⟩ := written
  by_cases integral : fraction = []
  · subst integral
    have text : (Literal.mk whole []).text = whole := rfl
    refine length_text_le ?_ (Nat.zero_le _)
    rw [text, whole_takeLiteral]
    exact length_takeWhile_append digits rest
  · rw [Literal.text_of_fraction integral, List.append_assoc, List.cons_append,
      takeLiteral_point digits (startsWithDigit_append integral places rest),
      ← Literal.text_of_fraction integral]
    exact length_text_le (Nat.le_refl _) (length_takeWhile_append places rest)

theorem takeLexeme?_of_starts (starts : (c.isDigit || (c == '.' && startsWithDigit cs)) = true) :
    takeLexeme? c cs = some (numeral (takeLiteral (c :: cs)).1, (takeLiteral (c :: cs)).2) :=
  if_pos starts

/-- A text that begins with a lexeme begins with one that is taken, and that is not shorter. -/
theorem exists_taken (written : lexeme.IsWritten) (rest : List Char) :
    ∃ c cs, lexeme.text ++ rest = c :: cs ∧ isBlank c = false ∧
      ∃ taken after, takeLexeme? c cs = some (taken, after) ∧
        lexeme.text.length ≤ taken.text.length := by
  match lexeme, written with
  | numeral literal, written =>
    obtain ⟨c, cs, split, visible, starts⟩ := literal_starts written rest
    refine ⟨c, cs, split, visible, _, _, takeLexeme?_of_starts starts, ?_⟩
    have taken := length_le_takeLiteral written rest
    rw [split] at taken
    exact taken
  | word _, .inl rfl => exact ⟨'π', rest, rfl, rfl, _, _, rfl, Nat.le_refl 1⟩
  | word _, .inr ⟨c, cs, rfl, start, all⟩ =>
    refine ⟨c, cs ++ rest, rfl, isBlank_of_isNameStart start, _, _, takeLexeme?_name start _, ?_⟩
    exact Nat.succ_le_succ (length_takeWhile_append all rest)
  | sign op, written =>
    obtain ⟨c, cs, split, visible, taken⟩ := @takeLexeme?_text (sign op) written rest rfl
    exact ⟨c, cs, split, visible, _, _, taken, Nat.le_refl _⟩
  | opening, _ => exact ⟨'(', rest, rfl, rfl, _, _, rfl, Nat.le_refl 1⟩
  | closing, _ => exact ⟨')', rest, rfl, rfl, _, _, rfl, Nat.le_refl 1⟩

theorem isLongest_of_taken (taken : takeLexeme? c cs = some (lexeme, rest)) :
    lexeme.IsLongest rest := by
  refine ⟨isWritten_of_takeLexeme? taken, fun other written initial => ?_⟩
  rw [takeLexeme?_split taken] at initial
  obtain ⟨last, split⟩ := initial
  obtain ⟨d, ds, same, -, longer, after, takenLonger, bound⟩ := exists_taken written last
  cases same.symm.trans split
  cases takenLonger.symm.trans taken
  exact bound

theorem eq_of_text {first second : Lexeme} (writtenFirst : first.IsWritten)
    (writtenSecond : second.IsWritten) (same : first.text = second.text) : first = second := by
  have none : Stops [] := trivial
  obtain ⟨c, cs, split, -, taken⟩ := takeLexeme?_text writtenFirst (none.endsBefore first).not_extended
  obtain ⟨d, ds, splitSecond, -, takenSecond⟩ :=
    takeLexeme?_text writtenSecond (none.endsBefore second).not_extended
  rw [same, splitSecond] at split
  cases split
  cases taken.symm.trans takenSecond
  rfl

theorem IsLongest.exists_taken (longest : lexeme.IsLongest rest) :
    ∃ c cs, lexeme.text ++ rest = c :: cs ∧ isBlank c = false ∧
      takeLexeme? c cs = some (lexeme, rest) := by
  obtain ⟨c, cs, split, visible, taken, after, takes, bound⟩ :=
    Lexeme.exists_taken longest.isWritten rest
  have whole := takeLexeme?_split takes
  have written := isWritten_of_takeLexeme? takes
  have initial : taken.text <+: lexeme.text ++ rest := ⟨after, whole.trans split.symm⟩
  have length := Nat.le_antisymm bound (longest.longest taken written initial)
  obtain ⟨same, rfl⟩ := List.append_inj (split.trans whole.symm) length
  obtain rfl := eq_of_text longest.isWritten written same
  exact ⟨c, cs, split, visible, takes⟩

end

section

variable {cs : List Char} {pieces : List Piece}

theorem Cut.unique {other : List Piece} (first : Cut cs pieces) (second : Cut cs other) :
    other = pieces := by
  induction first generalizing other with
  | nil =>
    cases second with
    | nil => rfl
    | lexeme split longest _ =>
      obtain ⟨c, rest, same, -⟩ := longest.exists_taken
      cases split.trans same
  | blank blank _ ih =>
    cases second with
    | blank _ later => rw [ih later]
    | lexeme split longest _ =>
      obtain ⟨c, rest, same, visible, -⟩ := longest.exists_taken
      cases split.trans same
      cases visible.symm.trans blank
  | lexeme split longest _ ih =>
    obtain ⟨c, rest, same, visible, taken⟩ := longest.exists_taken
    cases second with
    | nil => cases split.trans same
    | blank blank _ =>
      cases split.trans same
      cases visible.symm.trans blank
    | lexeme splitSecond longestSecond later =>
      obtain ⟨d, ds, sameSecond, -, takenSecond⟩ := longestSecond.exists_taken
      cases (split.trans same).symm.trans (splitSecond.trans sameSecond)
      cases taken.symm.trans takenSecond
      rw [ih later]

theorem Cut.scan_eq (cut : Cut cs pieces) (position : Nat) :
    scan position cs = .ok (pieces.filterMap Piece.lexeme?) := by
  induction cut generalizing position with
  | nil => exact scan_nil position
  | blank blank _ ih =>
    rw [scan_blank position _ blank]
    exact ih _
  | lexeme split longest _ ih =>
    obtain ⟨c, rest, same, visible, taken⟩ := longest.exists_taken
    rw [split, same, scan_lexeme position visible taken, ih]
    rfl

theorem exists_cut_of_scan {position : Nat} {lexemes : List Lexeme}
    (scanned : scan position cs = .ok lexemes) :
    ∃ pieces, Cut cs pieces ∧ pieces.filterMap Piece.lexeme? = lexemes := by
  fun_induction scan position cs generalizing lexemes with
  | case1 =>
    cases scanned
    exact ⟨[], .nil, rfl⟩
  | case2 position c cs blank ih =>
    obtain ⟨pieces, cut, same⟩ := ih scanned
    exact ⟨.blank c :: pieces, .blank blank cut, same⟩
  | case3 => cases scanned
  | case4 position c cs blank lexeme rest taken shorter ih =>
    obtain ⟨others, later, rfl⟩ := map_eq_ok scanned
    obtain ⟨pieces, cut, rfl⟩ := ih later
    exact ⟨.lexeme lexeme :: pieces,
      .lexeme (takeLexeme?_split taken).symm (isLongest_of_taken taken) cut, rfl⟩

end

end DeskCalculator.Lexeme

namespace DeskCalculator
open Lexeme

/-- A text is read as these tokens exactly when it can be cut into white space and lexemes, each the
longest in its place, that spell them. There is one way to cut it so. -/
theorem read_as_longest_lexemes (text : String) (tokens : List Token) :
    tokenize text = .ok tokens ↔ ∃ pieces, Cut text.toList pieces ∧
      (∀ other, Cut text.toList other → other = pieces) ∧
      Spells (pieces.filterMap Piece.lexeme?) tokens := by
  constructor
  · intro read
    obtain ⟨lexemes, scanned, rfl⟩ := map_eq_ok read
    obtain ⟨pieces, cut, rfl⟩ := exists_cut_of_scan scanned
    exact ⟨pieces, cut, fun other second => cut.unique second, spells_tokens _⟩
  · rintro ⟨pieces, cut, -, spells⟩
    rw [tokenize, cut.scan_eq]
    exact congrArg Except.ok (spells_iff.mp spells)

/-- A second point ends a literal and begins another. -/
example : scan 0 "1.2.3".toList = .ok [.numeral ⟨['1'], ['2']⟩, .numeral ⟨[], ['3']⟩] := by cbv

end DeskCalculator
