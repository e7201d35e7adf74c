import DeskCalculator.Proofs.Rendering
set_option autoImplicit false

namespace DeskCalculator.Lexeme

/-- Whether the lexeme stands for the token. The case of the letters of a word does not matter. -/
inductive StandsFor : Lexeme → Token → Prop
  | numeral (literal : Literal) : StandsFor (numeral literal) (.number literal.value)
  | pi {letters : List Char}
      (small : letters.map Char.toLower = ['p', 'i'] ∨ letters.map Char.toLower = ['π']) :
      StandsFor (word letters) (.number Constant.pi.value)
  | e {letters : List Char} (small : letters.map Char.toLower = ['e']) :
      StandsFor (word letters) (.number Constant.e.value)
  | modulo {letters : List Char} (small : letters.map Char.toLower = ['m', 'o', 'd']) :
      StandsFor (word letters) (.operator (.binary .modulo))
  | name {letters : List Char}
      (other : letters.map Char.toLower ∉ [['p', 'i'], ['π'], ['e'], ['m', 'o', 'd']]) :
      StandsFor (word letters) (.name (String.ofList (letters.map Char.toLower)))
  | sign (op : Operator) : StandsFor (sign op) (.operator op)
  | opening : StandsFor opening .opening
  | closing : StandsFor closing .closing

section

variable {letters : List Char} {left right lexeme : Lexeme} {token : Token}

theorem foldCase_ofList (letters : List Char) :
    Text.foldCase (String.ofList letters) = String.ofList (letters.map Char.toLower) := by
  rw [Text.foldCase, String.toList_ofList]

theorem wordToken_of_other
    (other : letters.map Char.toLower ∉ [['p', 'i'], ['π'], ['e'], ['m', 'o', 'd']]) :
    wordToken (String.ofList letters) = .name (String.ofList (letters.map Char.toLower)) := by
  have unlike : ∀ cs ∈ [['p', 'i'], ['π'], ['e'], ['m', 'o', 'd']],
      String.ofList (letters.map Char.toLower) ≠ String.ofList cs := by
    intro cs mem same
    rw [String.ofList_injective same] at other
    exact other mem
  have notConstant : Constant.named? (String.ofList letters) = none := by
    unfold Constant.named?
    rw [foldCase_ofList]
    split
    · rename_i same
      exact absurd same (unlike ['p', 'i'] (by decide))
    · rename_i same
      exact absurd same (unlike ['π'] (by decide))
    · rename_i same
      exact absurd same (unlike ['e'] (by decide))
    · rfl
  rw [wordToken, notConstant, foldCase_ofList]
  exact if_neg (unlike ['m', 'o', 'd'] (by decide))

theorem StandsFor.token_eq (stands : StandsFor lexeme token) : lexeme.token = token := by
  have folded : ∀ {letters small : List Char}, letters.map Char.toLower = small →
      Text.foldCase (String.ofList letters) = String.ofList small :=
    fun {letters} _ same => (foldCase_ofList letters).trans (congrArg String.ofList same)
  cases stands with
  | numeral | sign | opening | closing => rfl
  | pi small =>
    rcases small with small | small
    · rw [Lexeme.token, wordToken, Constant.named?, folded small]
      rfl
    · rw [Lexeme.token, wordToken, Constant.named?, folded small]
      rfl
  | e small =>
    rw [Lexeme.token, wordToken, Constant.named?, folded small]
    rfl
  | modulo small =>
    rw [Lexeme.token, wordToken, Constant.named?, folded small]
    rfl
  | name other => exact wordToken_of_other other

theorem exists_standsFor (lexeme : Lexeme) : ∃ token, StandsFor lexeme token := by
  cases lexeme with
  | numeral literal => exact ⟨_, .numeral literal⟩
  | sign op => exact ⟨_, .sign op⟩
  | opening => exact ⟨_, .opening⟩
  | closing => exact ⟨_, .closing⟩
  | word letters =>
    by_cases known : letters.map Char.toLower ∈ [['p', 'i'], ['π'], ['e'], ['m', 'o', 'd']]
    · simp only [List.mem_cons, List.not_mem_nil, or_false] at known
      rcases known with small | small | small | small
      · exact ⟨_, .pi (.inl small)⟩
      · exact ⟨_, .pi (.inr small)⟩
      · exact ⟨_, .e small⟩
      · exact ⟨_, .modulo small⟩
    · exact ⟨_, .name known⟩

theorem standsFor_iff : StandsFor lexeme token ↔ lexeme.token = token := by
  refine ⟨StandsFor.token_eq, ?_⟩
  rintro rfl
  obtain ⟨token, stands⟩ := exists_standsFor lexeme
  rwa [stands.token_eq]

/-- Whether a product of two neighbours is left unwritten. The left one is a number, a closing
parenthesis, or a name that is not followed by an opening one. The right one is an opening
parenthesis, a name, a number that is written as a word, or a literal after a closing
parenthesis. -/
def LeavesProduct (left right : Lexeme) : Prop :=
  ((∃ value, StandsFor left (.number value)) ∨ left = closing ∨
    (∃ text, StandsFor left (.name text)) ∧ right ≠ opening) ∧
  (right = opening ∨ (∃ text, StandsFor right (.name text)) ∨
    (∃ letters value, right = word letters ∧ StandsFor right (.number value)) ∨
    (∃ literal, right = numeral literal) ∧ left = closing)

theorem eq_opening_of_token (h : lexeme.token = .opening) : lexeme = opening := by
  rw [← standsFor_iff] at h
  cases h
  rfl

theorem endsFactor_iff : endsFactor left right = true ↔
    (∃ value, StandsFor left (.number value)) ∨ left = closing ∨
      (∃ text, StandsFor left (.name text)) ∧ right ≠ opening := by
  simp only [standsFor_iff]
  rw [endsFactor]
  cases same : left.token with
  | number value => exact ⟨fun _ => .inl ⟨value, rfl⟩, fun _ => rfl⟩
  | closing => exact ⟨fun _ => .inr (.inl (eq_closing_of_token same)), fun _ => rfl⟩
  | opening | operator | name =>
    have apart : left ≠ closing := by
      rintro rfl
      cases same
    simp [apart]

theorem startsFactor_iff : startsFactor left right = true ↔
    right = opening ∨ (∃ text, StandsFor right (.name text)) ∨
      (∃ letters value, right = word letters ∧ StandsFor right (.number value)) ∨
      (∃ literal, right = numeral literal) ∧ left = closing := by
  simp only [standsFor_iff]
  rw [startsFactor]
  cases right with
  | numeral literal => simp [Lexeme.token, isWord]
  | sign op => simp [Lexeme.token]
  | opening => simp [Lexeme.token]
  | closing => simp [Lexeme.token]
  | word letters =>
    cases same : (word letters).token with
    | opening => cases eq_opening_of_token same
    | number | operator | closing | name => simp [isWord]

theorem leavesProduct_iff : LeavesProduct left right ↔ joins left right = true := by
  rw [joins, Bool.and_eq_true_iff, endsFactor_iff, startsFactor_iff]
  exact Iff.rfl

end

/-- Whether the tokens are those that the lexemes stand for, in their order, with a product sign
wherever one is left unwritten and nowhere else. -/
inductive Spells : List Lexeme → List Token → Prop
  | nil : Spells [] []
  | last {lexeme : Lexeme} {token : Token} (stands : StandsFor lexeme token) :
      Spells [lexeme] [token]
  | product {left right : Lexeme} {others : List Lexeme} {token : Token} {tokens : List Token}
      (unwritten : LeavesProduct left right) (stands : StandsFor left token)
      (later : Spells (right :: others) tokens) :
      Spells (left :: right :: others) (token :: .operator (.binary .times) :: tokens)
  | apart {left right : Lexeme} {others : List Lexeme} {token : Token} {tokens : List Token}
      (none : ¬ LeavesProduct left right) (stands : StandsFor left token)
      (later : Spells (right :: others) tokens) :
      Spells (left :: right :: others) (token :: tokens)

theorem spells_tokens (lexemes : List Lexeme) : Spells lexemes (tokens lexemes) := by
  fun_induction tokens lexemes with
  | case1 => exact .nil
  | case2 lexeme => exact .last (standsFor_iff.mpr rfl)
  | case3 left right others product ih =>
    exact .product (leavesProduct_iff.mpr product) (standsFor_iff.mpr rfl) ih
  | case4 left right others none ih =>
    exact .apart (mt leavesProduct_iff.mp none) (standsFor_iff.mpr rfl) ih

theorem spells_iff {lexemes : List Lexeme} {out : List Token} :
    Spells lexemes out ↔ tokens lexemes = out := by
  constructor
  · intro spells
    induction spells with
    | nil => rfl
    | last stands => rw [tokens, stands.token_eq]
    | product unwritten stands _ ih =>
      have product := leavesProduct_iff.mp unwritten
      rw [tokens, ← joins, if_pos product, stands.token_eq, ih]
    | apart none stands _ ih =>
      have unjoined := mt leavesProduct_iff.mpr none
      rw [tokens, ← joins, if_neg unjoined, stands.token_eq, ih]
  · rintro rfl
    exact spells_tokens lexemes

/-- The product sign between two lists of lexemes, if it is left unwritten there. -/
def seam (first last : List Lexeme) : List Token :=
  match first.getLast?, last.head? with
  | some left, some right => if joins left right then [.operator (.binary .times)] else []
  | _, _ => []

theorem tokens_append (first last : List Lexeme) :
    tokens (first ++ last) = tokens first ++ seam first last ++ tokens last := by
  fun_induction tokens first with
  | case1 => rfl
  | case2 lexeme =>
    cases last with
    | nil => rfl
    | cons next others =>
      change tokens (lexeme :: next :: others) =
        lexeme.token :: (if joins lexeme next then _ else _) ++ tokens (next :: others)
      rw [tokens, joins]
      split <;> rfl
  | case3 left right others product ih =>
    rw [List.cons_append, List.cons_append, tokens, if_pos product]
    exact congrArg (left.token :: Token.operator (.binary .times) :: ·) ih
  | case4 left right others none ih =>
    rw [List.cons_append, List.cons_append, tokens, if_neg none]
    exact congrArg (left.token :: ·) ih

end DeskCalculator.Lexeme
