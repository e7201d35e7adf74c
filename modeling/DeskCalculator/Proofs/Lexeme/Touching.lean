import DeskCalculator.Proofs.Lexeme.Longest
set_option autoImplicit false

namespace DeskCalculator.Lexeme
open Text

section

variable {c : Char} {cs rest : List Char} {lexeme : Lexeme}

theorem head?_dropWhile {p : Char → Bool} (cs : List Char) :
    (cs.dropWhile p).head?.any p = false := by
  have head := List.head?_dropWhile_not p cs
  cases after : (cs.dropWhile p).head? with
  | none => rfl
  | some c =>
    rw [after] at head
    exact head

theorem takeLiteral_not_extended (cs : List Char) :
    (numeral (takeLiteral cs).1).isExtendedBy (takeLiteral cs).2 = false := by
  have noDigit := head?_dropWhile (p := Char.isDigit)
  rw [takeLiteral]
  split
  · rename_i rest point
    split
    · rename_i starts
      have some := takeDigits_ne_nil starts
      simp [isExtendedBy, startsWithDigit_eq, noDigit, some]
    · rename_i none
      have pointed : startsWithDigit ('.' :: rest) = false := rfl
      simp [isExtendedBy, pointed, Bool.eq_false_iff.mpr none]
  · rename_i other
    have noPoint : (cs.dropWhile Char.isDigit).head? ≠ some '.' := by
      intro point
      obtain ⟨rest, split⟩ := List.head?_eq_some_iff.mp point
      exact other rest split
    simp [isExtendedBy, startsWithDigit_eq, noDigit, noPoint]

theorem not_extended_of_taken (taken : takeLexeme? c cs = some (lexeme, rest)) :
    lexeme.isExtendedBy rest = false := by
  unfold takeLexeme? at taken
  split_ifs at taken with number start pi opens closes
  · cases taken
    exact takeLiteral_not_extended (c :: cs)
  · cases taken
    rw [isExtendedBy, head?_dropWhile, Bool.and_false]
  · cases taken
    rw [isExtendedBy, eq_of_beq pi]
    rfl
  · cases taken
    rfl
  · cases taken
    rfl
  · obtain ⟨op, -, same⟩ := Option.map_eq_some_iff.mp taken
    cases same
    rfl

theorem isLongest_iff (written : lexeme.IsWritten) :
    lexeme.IsLongest rest ↔ lexeme.isExtendedBy rest = false := by
  constructor
  · intro longest
    obtain ⟨c, cs, -, -, taken⟩ := longest.exists_taken
    exact not_extended_of_taken taken
  · intro ends
    obtain ⟨c, cs, -, -, taken⟩ := takeLexeme?_text written ends
    exact isLongest_of_taken taken

/-- No more than two characters tell whether a lexeme goes on, and one that is not a point. -/
theorem isExtendedBy_append (some : rest ≠ []) (more : rest ≠ ['.']) (lexeme : Lexeme)
    (added : List Char) : lexeme.isExtendedBy (rest ++ added) = lexeme.isExtendedBy rest := by
  obtain ⟨c, rest, rfl⟩ := List.exists_cons_of_ne_nil some
  cases lexeme with
  | sign | opening | closing | word => rfl
  | numeral literal =>
    cases rest with
    | cons d rest => rfl
    | nil =>
      have noPoint : c ≠ '.' := by
        rintro rfl
        exact more rfl
      simp [isExtendedBy, startsWithDigit, noPoint]

theorem IsLongest.of_append {more : List Char} (longest : lexeme.IsLongest (rest ++ more)) :
    lexeme.IsLongest rest where
  isWritten := longest.isWritten
  longest other written initial := by
    apply longest.longest other written
    rw [← List.append_assoc]
    exact initial.trans (List.prefix_append _ _)

end

section

variable {cs first last : List Char} {before after pieces : List Piece}

/-- Whether the last of the pieces, if it is a lexeme, does not go on with the text. -/
def EndBefore (rest : List Char) (pieces : List Piece) : Prop :=
  ∀ lexeme, pieces.getLast? = some (.lexeme lexeme) → lexeme.isExtendedBy rest = false

theorem EndBefore.tail {rest : List Char} {piece : Piece} (ends : EndBefore rest (piece :: pieces)) :
    EndBefore rest pieces := by
  cases pieces with
  | nil => exact nofun
  | cons next others => exact fun lexeme same => ends lexeme (List.getLast?_cons_cons.trans same)

theorem Cut.eq_nil (cut : Cut cs []) : cs = [] := by
  cases cut
  rfl

theorem Cut.eq_blank {c : Char} (cut : Cut cs [.blank c]) : isBlank c = true ∧ cs = [c] := by
  cases cut with
  | blank blank later => exact ⟨blank, congrArg (c :: ·) later.eq_nil⟩

theorem Cut.eq_text {lexeme : Lexeme} (cut : Cut cs [.lexeme lexeme]) :
    cs = lexeme.text ∧ lexeme.IsWritten := by
  cases cut with
  | lexeme split longest later =>
    rw [later.eq_nil, List.append_nil] at split
    exact ⟨split, longest.isWritten⟩

theorem Cut.ne_point (cut : Cut cs pieces) : cs ≠ ['.'] := by
  rintro rfl
  cases cut with
  | blank blank _ => cases blank
  | lexeme split longest _ =>
    obtain ⟨c, rest, same, -, taken⟩ := longest.exists_taken
    cases split.trans same
    cases taken

theorem Cut.ne_nil {piece : Piece} (cut : Cut cs (piece :: pieces)) : cs ≠ [] := by
  cases cut with
  | blank => exact List.cons_ne_nil _ _
  | lexeme split longest _ =>
    obtain ⟨c, rest, same, -⟩ := longest.exists_taken
    rw [split, same]
    exact List.cons_ne_nil _ _

theorem Cut.append (cut : Cut first before) (next : Cut last after) (ends : EndBefore last before) :
    Cut (first ++ last) (before ++ after) := by
  induction cut with
  | nil => exact next
  | blank blank _ ih => exact .blank blank (ih ends.tail)
  | @lexeme lexeme cs rest pieces split longest later ih =>
    have written := longest.isWritten
    have complete : lexeme.isExtendedBy (rest ++ last) = false := by
      cases pieces with
      | nil =>
        rw [later.eq_nil, List.nil_append]
        exact ends lexeme rfl
      | cons piece pieces =>
        rw [isExtendedBy_append later.ne_nil later.ne_point]
        exact (isLongest_iff written).mp longest
    rw [split, List.append_assoc]
    exact .lexeme rfl ((isLongest_iff written).mpr complete) (ih ends.tail)

theorem Cut.split (cut : Cut cs (before ++ after)) : ∃ first last, cs = first ++ last ∧
    Cut first before ∧ Cut last after ∧ EndBefore last before := by
  induction before generalizing cs with
  | nil => exact ⟨[], cs, rfl, .nil, cut, nofun⟩
  | cons piece before ih =>
    cases cut with
    | @blank c cs _ blank later =>
      obtain ⟨first, last, rfl, cutFirst, cutLast, ends⟩ := ih later
      refine ⟨c :: first, last, rfl, .blank blank cutFirst, cutLast, ?_⟩
      cases before with
      | nil => exact nofun
      | cons => exact ends
    | @lexeme lexeme _ rest _ split longest later =>
      obtain ⟨first, last, rfl, cutFirst, cutLast, ends⟩ := ih later
      refine ⟨lexeme.text ++ first, last, ?_, .lexeme rfl longest.of_append cutFirst, cutLast, ?_⟩
      · rw [split, List.append_assoc]
      · cases before with
        | nil =>
          rintro _ ⟨⟩
          rw [cutFirst.eq_nil, List.nil_append] at longest
          exact (isLongest_iff longest.isWritten).mp longest
        | cons => exact ends

/-- Two texts that touch are read as each is by itself, if the last lexeme of the first does not go
on with the second. -/
theorem scan_touching (cut : Cut first before) (ends : EndBefore last before)
    {lexemes : List Lexeme} (scanned : scan 0 last = .ok lexemes) (position : Nat) :
    scan position (first ++ last) = .ok (before.filterMap Piece.lexeme? ++ lexemes) := by
  obtain ⟨after, cutLast, rfl⟩ := exists_cut_of_scan scanned
  rw [(cut.append cutLast ends).scan_eq, List.filterMap_append]

end

end DeskCalculator.Lexeme
