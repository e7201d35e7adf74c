import DeskCalculator.Display
import DeskCalculator.Proofs.Lexeme.Splitting
import DeskCalculator.Proofs.Postfix.Contents
set_option autoImplicit false

namespace DeskCalculator.Lexeme
open Text Display

def isParenthesis (c : Char) : Bool :=
  c == '(' || c == ')'

theorem isParenthesis_eq_false {p : Char → Bool} (opens : p '(' = false) (closes : p ')' = false)
    {c : Char} (h : p c = true) : isParenthesis c = false := by
  rw [isParenthesis, Bool.or_eq_false_iff, beq_eq_false_iff_ne, beq_eq_false_iff_ne]
  constructor
  · rintro rfl
    cases opens.symm.trans h
  · rintro rfl
    cases closes.symm.trans h

theorem isParenthesis_of_mem_text {lexeme : Lexeme} (written : lexeme.IsWritten)
    (inside : lexeme.token.isParenthesis = false) :
    ∀ c ∈ lexeme.text, isParenthesis c = false := by
  intro c mem
  match lexeme, written with
  | numeral literal, written =>
    rcases written.digit_or_point mem with digit | rfl
    · exact isParenthesis_eq_false rfl rfl digit
    · rfl
  | word _, .inl rfl =>
    cases List.mem_singleton.mp mem
    rfl
  | word _, .inr ⟨d, cs, rfl, start, all⟩ =>
    apply isParenthesis_eq_false (p := isNameChar) rfl rfl
    rcases List.mem_cons.mp mem with rfl | later
    · exact isNameChar_iff.mpr (.inl start)
    · exact all c later
  | sign op, _ =>
    have none : op.symbol.toList.all (fun c => !isParenthesis c) = true := by
      cases op with
      | percent => rfl
      | binary op => cases op <;> rfl
    simpa using List.all_eq_true.mp none c mem
  | opening, _ | closing, _ => cases inside

theorem isBalanced_append {cs : List Char} (none : ∀ c ∈ cs, isParenthesis c = false)
    (depth : Nat) (rest : List Char) : isBalanced depth (cs ++ rest) = isBalanced depth rest := by
  induction cs with
  | nil => rfl
  | cons c cs ih =>
    obtain ⟨first, others⟩ := List.forall_mem_cons.mp none
    rw [List.cons_append, isBalanced, ih others]
    · rintro rfl
      cases first
    · rintro rfl
      cases first

theorem balanced_operator (depth : Nat) (token : Token) (op : Operator) (tokens : List Token) :
    Balanced depth (token :: .operator op :: tokens) ↔ Balanced depth (token :: tokens) := by
  cases token with
  | closing => cases depth <;> exact Iff.rfl
  | _ => exact Iff.rfl

theorem balanced_tokens_cons (depth : Nat) (lexeme : Lexeme) (lexemes : List Lexeme) :
    Balanced depth (tokens (lexeme :: lexemes)) ↔
      Balanced depth (lexeme.token :: tokens lexemes) := by
  cases lexemes with
  | nil => exact Iff.rfl
  | cons next others =>
    rw [tokens]
    split
    · exact balanced_operator _ _ _ _
    · exact Iff.rfl

theorem balanced_token_cons {token : Token} (inside : token.isParenthesis = false) (depth : Nat)
    (tokens : List Token) : Balanced depth (token :: tokens) ↔ Balanced depth tokens := by
  cases token with
  | opening | closing => cases inside
  | number | operator | name => exact Iff.rfl

/-- The parentheses of a text have their partners exactly when those of its tokens have. -/
theorem isBalanced_iff {position : Nat} {cs : List Char} {lexemes : List Lexeme}
    (scanned : scan position cs = .ok lexemes) (depth : Nat) :
    isBalanced depth cs = true ↔ Balanced depth (tokens lexemes) := by
  fun_induction scan position cs generalizing depth lexemes with
  | case1 =>
    cases scanned
    exact beq_iff_eq
  | case2 position c cs blank ih =>
    have visible : ∀ d ∈ [c], isParenthesis d = false := by
      intro d mem
      cases List.mem_singleton.mp mem
      exact isParenthesis_eq_false rfl rfl blank
    have skipped := isBalanced_append visible depth cs
    rw [List.singleton_append] at skipped
    rw [skipped]
    exact ih scanned depth
  | case3 => cases scanned
  | case4 position c cs blank lexeme rest taken shorter ih =>
    obtain ⟨others, later, rfl⟩ := map_eq_ok scanned
    have written := isWritten_of_takeLexeme? taken
    rw [← takeLexeme?_split taken, balanced_tokens_cons]
    cases inside : lexeme.token.isParenthesis with
    | false =>
      rw [isBalanced_append (isParenthesis_of_mem_text written inside),
        balanced_token_cons inside]
      exact ih later depth
    | true =>
      cases lexeme with
      | opening => exact ih later (depth + 1)
      | closing =>
        cases depth with
        | zero => exact ⟨fun balanced => absurd balanced Bool.false_ne_true, False.elim⟩
        | succ depth => exact ih later depth
      | numeral | sign => cases inside
      | word letters =>
        rw [token, wordToken] at inside
        split at inside
        · cases inside
        · split at inside <;> cases inside

theorem tokens_opening (lexemes : List Lexeme) :
    tokens (opening :: lexemes) = .opening :: tokens lexemes := by
  cases lexemes <;> rfl

theorem tokens_append_closing (lexemes : List Lexeme) :
    tokens (lexemes ++ [closing]) = tokens lexemes ++ [.closing] := by
  fun_induction tokens lexemes with
  | case1 => rfl
  | case2 lexeme => exact tokens_of_apart (Bool.and_false _) []
  | case3 left right others product ih =>
    rw [List.cons_append, List.cons_append, tokens, if_pos product]
    exact congrArg (left.token :: Token.operator (.binary .times) :: ·) ih
  | case4 left right others product ih =>
    rw [List.cons_append, List.cons_append, tokens, if_neg product]
    exact congrArg (left.token :: ·) ih

theorem tokens_call {name : List Char} {text : String} (called : (word name).token = .name text)
    (lexemes : List Lexeme) : tokens (word name :: opening :: (lexemes ++ [closing])) =
      .name text :: .opening :: tokens lexemes ++ [.closing] := by
  have apart : endsFactor (word name) opening = false := by
    rw [endsFactor, called]
    rfl
  rw [tokens_of_apart (by rw [apart, Bool.false_and]), called, tokens_opening,
    tokens_append_closing]
  rfl

theorem scan_call {name : List Char} (written : (word name).IsWritten) (cs : List Char)
    (position : Nat) : scan position (name ++ '(' :: (cs ++ [')'])) =
      (scan (position + name.length + 1) cs).map fun lexemes =>
        word name :: opening :: (lexemes ++ [closing]) := by
  have ends : (word name).EndsBefore (opening.text ++ (cs ++ closing.text)) := ⟨rfl, by decide⟩
  have stops : Stops closing.text := ⟨rfl, by decide⟩
  have opens : opening.IsWritten := trivial
  have closes : closing.IsWritten := trivial
  change scan position ((word name).text ++ (opening.text ++ (cs ++ closing.text))) = _
  rw [scan_text written ends.not_extended, scan_text opens rfl, scan_append stops,
    scan_alone closes]
  change Except.map _ (Except.map _ (scan (position + name.length + 1) cs >>= _)) = _
  cases scan (position + name.length + 1) cs <;> rfl

end DeskCalculator.Lexeme

namespace DeskCalculator.Display

theorem isBalanced_iff_balanced {text : String} {tokens : List Token}
    (read : tokenize text = .ok tokens) :
    isBalanced 0 text.toList = true ↔ Balanced 0 tokens := by
  obtain ⟨lexemes, scanned, rfl⟩ := map_eq_ok read
  exact Lexeme.isBalanced_iff scanned 0

theorem toList_negation (cs : List Char) :
    (negation (String.ofList cs)).toList = ['n', 'e', 'g', '('] ++ cs ++ [')'] := by
  have inner : (String.ofList cs).toList = cs := String.toList_ofList
  rw [negation, String.toList_append, String.toList_append, inner]
  rfl

theorem tokenize_negation (s : String) : tokenize (negation s) =
    ((tokenize s).map (.name "neg" :: .opening :: · ++ [.closing])).mapError (Fault.moved 4) := by
  have written : (Lexeme.word ['n', 'e', 'g']).IsWritten :=
    .inr ⟨'n', ['e', 'g'], rfl, rfl, List.all_eq_true.mp rfl⟩
  have text := toList_negation s.toList
  rw [String.ofList_toList, List.append_assoc] at text
  have later := Lexeme.scan_add 0 4 s.toList
  rw [tokenize, tokenize, text]
  change Except.map _ (Lexeme.scan 0 (['n', 'e', 'g'] ++ '(' :: (s.toList ++ [')']))) = _
  rw [Lexeme.scan_call written]
  change Except.map _ (Except.map _ (Lexeme.scan (0 + 4) s.toList)) = _
  rw [later]
  cases Lexeme.scan 0 s.toList with
  | error fault => rfl
  | ok lexemes => exact congrArg Except.ok (Lexeme.tokens_call rfl lexemes)

end DeskCalculator.Display
