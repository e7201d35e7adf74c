import DeskCalculator.Proofs.Lexeme.Reading
set_option autoImplicit false

namespace DeskCalculator

/-- The same fault that much farther on. -/
def Fault.moved (distance : Nat) : Fault → Fault
  | unexpectedCharacter char position => .unexpectedCharacter char (position + distance)
  | fault => fault

theorem mapError_eq_ok {α : Type} {f : Fault → Fault} {result : Except Fault α} {out : α} :
    result.mapError f = .ok out ↔ result = .ok out := by
  cases result with
  | error fault => exact ⟨fun h => (nomatch h), fun h => (nomatch h)⟩
  | ok inner => exact Iff.rfl

namespace Lexeme
open Text

section

variable {rest : List Char}

theorem Stops.append (stops : Stops rest) (some : rest ≠ []) (cs : List Char) :
    Stops (rest ++ cs) := by
  cases rest with
  | nil => exact absurd rfl some
  | cons c rest => exact stops

theorem Stops.startsWithDigit_append (stops : Stops rest) (cs : List Char) :
    startsWithDigit (cs ++ rest) = startsWithDigit cs := by
  cases cs with
  | cons c cs => rfl
  | nil =>
    cases rest with
    | nil => rfl
    | cons d rest =>
      exact Bool.eq_false_iff.mpr (stops.not_goes_on fun _ => isNameChar_of_isDigit)

theorem Stops.takeLiteral_append (stops : Stops rest) (cs : List Char) :
    takeLiteral (cs ++ rest) = ((takeLiteral cs).1, (takeLiteral cs).2 ++ rest) := by
  have name : ∀ c : Char, c.isDigit = true → isNameChar c = true := fun _ => isNameChar_of_isDigit
  rw [takeLiteral, takeLiteral, stops.takeWhile_append name, stops.dropWhile_append name]
  cases cs.dropWhile Char.isDigit with
  | nil =>
    rw [List.nil_append]
    split
    · exact absurd rfl stops.2
    · rfl
  | cons d others =>
    by_cases point : d = '.'
    · subst point
      simp only [List.cons_append, stops.startsWithDigit_append, stops.takeWhile_append name,
        stops.dropWhile_append name]
      split <;> rfl
    · simp [point]

theorem Stops.takeLexeme?_append (stops : Stops rest) (c : Char) (cs : List Char) :
    takeLexeme? c (cs ++ rest) =
      (takeLexeme? c cs).map fun taken => (taken.1, taken.2 ++ rest) := by
  rw [takeLexeme?, takeLexeme?, stops.startsWithDigit_append, ← List.cons_append,
    stops.takeLiteral_append, stops.takeWhile_append (fun _ => id),
    stops.dropWhile_append (fun _ => id)]
  split_ifs
  case neg => cases Operator.ofChar? c <;> rfl
  all_goals rfl

end

theorem takeLiteral_split (cs : List Char) :
    (takeLiteral cs).1.text ++ (takeLiteral cs).2 = cs := by
  have whole := List.takeWhile_append_dropWhile (p := Char.isDigit) (l := cs)
  rw [takeLiteral]
  split
  · rename_i rest point
    rw [point] at whole
    split
    · rename_i starts
      rw [Literal.text_of_fraction (takeDigits_ne_nil starts)]
      simp [whole]
    · exact whole
  · exact whole

theorem symbol_of_ofChar? {c : Char} {op : Operator} (h : Operator.ofChar? c = some op) :
    op.symbol.toList = [c] := by
  unfold Operator.ofChar? at h
  split at h <;> cases h <;> rfl

theorem takeLexeme?_split {c : Char} {cs rest : List Char} {lexeme : Lexeme}
    (h : takeLexeme? c cs = some (lexeme, rest)) : lexeme.text ++ rest = c :: cs := by
  unfold takeLexeme? at h
  split_ifs at h with number start pi opens closes
  · cases h
    exact takeLiteral_split (c :: cs)
  · cases h
    exact congrArg (c :: ·) List.takeWhile_append_dropWhile
  · cases h
    rfl
  · cases h
    rw [eq_of_beq opens]
    rfl
  · cases h
    rw [eq_of_beq closes]
    rfl
  · obtain ⟨op, found, same⟩ := Option.map_eq_some_iff.mp h
    cases same
    exact congrArg (· ++ cs) (symbol_of_ofChar? found)

/-- Where neither a literal nor a word goes on, a text is read in two parts. -/
theorem scan_append {rest : List Char} (stops : Stops rest) (position : Nat) (cs : List Char) :
    scan position (cs ++ rest) = do
      let first ← scan position cs
      let last ← scan (position + cs.length) rest
      return first ++ last := by
  fun_induction scan position cs with
  | case1 position =>
    change scan position rest = (scan position rest >>= Except.ok)
    cases scan position rest <;> rfl
  | case2 position c cs blank ih =>
    have after : position + (c :: cs).length = position + 1 + cs.length := by
      rw [List.length_cons]
      omega
    rw [List.cons_append, scan_blank position _ blank, ih, after]
  | case3 position c cs blank taken =>
    have visible : isBlank c = false := by simpa using blank
    rw [List.cons_append, scan_fault position visible]
    · rfl
    · rw [stops.takeLexeme?_append, taken]
      rfl
  | case4 position c cs blank lexeme others taken shorter ih =>
    have visible : isBlank c = false := by simpa using blank
    have after : position + (c :: cs).length =
        position + lexeme.text.length + others.length := by
      rw [← takeLexeme?_split taken, List.length_append, Nat.add_assoc]
    have appended : takeLexeme? c (cs ++ rest) = some (lexeme, others ++ rest) := by
      rw [stops.takeLexeme?_append, taken]
      rfl
    rw [List.cons_append, scan_lexeme position visible appended, ih, after]
    cases scan (position + lexeme.text.length) others with
    | error fault => rfl
    | ok first =>
      change Except.map _ (scan _ rest >>= fun last => .ok (first ++ last)) =
        (scan _ rest >>= fun last => .ok (lexeme :: (first ++ last)))
      cases scan (position + lexeme.text.length + others.length) rest <;> rfl

theorem scan_add (position distance : Nat) (cs : List Char) :
    scan (position + distance) cs = (scan position cs).mapError (Fault.moved distance) := by
  fun_induction scan position cs with
  | case1 position => exact scan_nil _
  | case2 position c cs blank ih =>
    rw [scan_blank _ _ blank, Nat.add_right_comm, ih]
  | case3 position c cs blank taken =>
    exact scan_fault _ (by simpa using blank) taken
  | case4 position c cs blank lexeme rest taken shorter ih =>
    rw [scan_lexeme _ (by simpa using blank) taken, Nat.add_right_comm, ih]
    cases scan (position + lexeme.text.length) rest <;> rfl

section

variable {blanks : List Char}

theorem scan_blanks_append (blank : ∀ c ∈ blanks, isBlank c = true) (position : Nat)
    (cs : List Char) : scan position (blanks ++ cs) = scan (position + blanks.length) cs := by
  induction blanks generalizing position with
  | nil => rfl
  | cons c blanks ih =>
    obtain ⟨first, others⟩ := List.forall_mem_cons.mp blank
    rw [List.cons_append, scan_blank position _ first, ih others, List.length_cons, Nat.add_assoc,
      Nat.add_comm 1]

theorem stops_of_blank (blank : ∀ c ∈ blanks, isBlank c = true) : Stops blanks := by
  cases blanks with
  | nil => trivial
  | cons c blanks =>
    have first := blank c List.mem_cons_self
    refine ⟨?_, ?_⟩
    · rw [Bool.eq_false_iff]
      intro name
      have bounds := isNameChar_iff.mp name
      rw [isNameStart_iff] at bounds
      rw [isBlank_eq_false (by omega) (by omega)] at first
      cases first
    · rintro rfl
      cases first

theorem scan_append_blanks (blank : ∀ c ∈ blanks, isBlank c = true) (position : Nat)
    (cs : List Char) : scan position (cs ++ blanks) = scan position cs := by
  have none := scan_blanks_append blank (position + cs.length) []
  rw [List.append_nil, scan_nil] at none
  rw [scan_append (stops_of_blank blank), none]
  cases scan position cs with
  | error fault => rfl
  | ok lexemes => exact congrArg Except.ok (List.append_nil lexemes)

end

end Lexeme

/-- White space around a text does not matter, but for the position of a fault. -/
theorem tokenize_trim (text : String) : ∃ distance,
    tokenize text = (tokenize (Text.trim text)).mapError (Fault.moved distance) := by
  obtain ⟨before, after, split, blankBefore, blankAfter⟩ := Text.exists_blanks text.toList
  refine ⟨before.length, ?_⟩
  have trimmed : (Text.trim text).toList = Text.trimEnd (text.toList.dropWhile Text.isBlank) :=
    String.toList_ofList
  rw [← trimmed] at split
  rw [tokenize, tokenize, split, Lexeme.scan_append_blanks blankAfter,
    Lexeme.scan_blanks_append blankBefore, Lexeme.scan_add]
  cases Lexeme.scan 0 (Text.trim text).toList <;> rfl

theorem tokenize_trim_eq_ok {text : String} {tokens : List Token} :
    tokenize (Text.trim text) = .ok tokens ↔ tokenize text = .ok tokens := by
  obtain ⟨distance, same⟩ := tokenize_trim text
  rw [same, mapError_eq_ok]

end DeskCalculator
