import DeskCalculator.Proofs.Binary64.Bits
import DeskCalculator.Proofs.Decimal.Shortest
import DeskCalculator.Proofs.Lexeme.Reading
set_option autoImplicit false

/-!
# Rendered tokens read again

Each token is rendered as one lexeme. Reading it gives the token back, unless it is an infinite
number, which is read as a name. No rendering of tokens that were read leaves a product unwritten,
for all were written out when the tokens were read.
-/

namespace DeskCalculator
open Binary64

namespace Token

/-- The lexeme that a token is rendered as. -/
def lexeme : Token → Lexeme
  | number value =>
    if isFinite value then .numeral (Decimal.shortest (rank value)).literal
    else .word ['i', 'n', 'f']
  | operator (.binary .modulo) => .word ['m', 'o', 'd']
  | operator op => .sign op
  | opening => .opening
  | closing => .closing
  | name text => .word text.toList

/-- Whether reading a text can give the token. -/
def IsRead : Token → Prop
  | number value => ∃ rank ≤ infinityRank, value = ofRank false rank
  | name text => (Lexeme.word text.toList).IsWritten ∧ Lexeme.wordToken text = .name text
  | _ => True

def IsInfinite : Token → Prop
  | number value => rank value = infinityRank
  | _ => False

theorem lexeme_of_lt {r : Nat} (finite : r < infinityRank) :
    (number (ofRank false r)).lexeme = .numeral (Decimal.shortest r).literal := by
  have fits := Nat.le_of_lt finite
  rw [lexeme, isFinite_ofRank false fits, rank_ofRank false fits]
  exact if_pos (decide_eq_true finite)

theorem lexeme_infinity :
    (number (ofRank false infinityRank)).lexeme = .word ['i', 'n', 'f'] := by
  rw [lexeme, isFinite_ofRank false (Nat.le_refl _)]
  exact if_neg (by simp)

theorem text_lexeme {token : Token} (read : token.IsRead) : token.lexeme.text = token.text := by
  match token, read with
  | number _, ⟨r, fits, rfl⟩ =>
    have notNaN := isNaN_ofRank false fits
    have positive := isNegative_ofRank false fits
    rw [text, Decimal.shortestText, notNaN, positive]
    rcases Nat.lt_or_eq_of_le fits with finite | rfl
    · rw [lexeme_of_lt finite, isFinite_ofRank false fits, rank_ofRank false fits,
        decide_eq_true finite]
      rfl
    · rw [lexeme_infinity, isFinite_ofRank false fits, decide_eq_false (Nat.lt_irrefl _)]
      rfl
  | operator op, _ =>
    cases op with
    | percent => rfl
    | binary op => cases op <;> rfl
  | opening, _ | closing, _ | name _, _ => rfl

theorem isWritten_lexeme {token : Token} (read : token.IsRead) : token.lexeme.IsWritten := by
  match token, read with
  | number _, ⟨r, fits, rfl⟩ =>
    rcases Nat.lt_or_eq_of_le fits with finite | rfl
    · rw [lexeme_of_lt finite]
      exact Decimal.literal_isWritten _
    · rw [lexeme_infinity]
      exact .inr ⟨'i', ['n', 'f'], rfl, rfl, List.all_eq_true.mp rfl⟩
  | operator op, _ =>
    cases op with
    | percent => exact nofun
    | binary op =>
      cases op with
      | modulo => exact .inr ⟨'m', ['o', 'd'], rfl, rfl, List.all_eq_true.mp rfl⟩
      | _ => exact nofun
  | opening, _ | closing, _ => trivial
  | name _, read => exact read.1

def ReadsBack (token : Token) : Prop :=
  token.IsRead ∧ ¬ token.IsInfinite

theorem lexeme_of_readsBack {value : Float} (fixed : (number value).ReadsBack) :
    ∃ r ≤ infinityRank, value = ofRank false r ∧
      (number value).lexeme = .numeral (Decimal.shortest r).literal := by
  obtain ⟨⟨r, fits, rfl⟩, finite⟩ := fixed
  have bound : r < infinityRank := by
    apply Nat.lt_of_le_of_ne fits
    rintro rfl
    exact finite (rank_ofRank false fits)
  exact ⟨r, fits, rfl, lexeme_of_lt bound⟩

theorem ReadsBack.token_lexeme {token : Token} (fixed : token.ReadsBack) :
    token.lexeme.token = token := by
  match token, fixed with
  | number _, fixed =>
    obtain ⟨r, fits, same, lexeme⟩ := lexeme_of_readsBack fixed
    rw [lexeme, Lexeme.token, Decimal.value_literal, Decimal.toFloat_shortest fits, same]
  | operator op, _ =>
    cases op with
    | percent => rfl
    | binary op => cases op <;> rfl
  | opening, _ | closing, _ => rfl
  | name text, fixed => rw [lexeme, Lexeme.token, String.ofList_toList, fixed.1.2]

theorem ReadsBack.isWord_lexeme {token : Token} (fixed : token.ReadsBack) {value : Float}
    (same : token = number value) : token.lexeme.isWord = false := by
  subst same
  obtain ⟨r, -, -, lexeme⟩ := lexeme_of_readsBack fixed
  rw [lexeme]
  rfl

theorem finite_token_lexeme {token : Token} (read : token.IsRead) :
    ¬ token.lexeme.token.IsInfinite := by
  by_cases infinite : token.IsInfinite
  · match token, read with
    | number _, ⟨r, fits, rfl⟩ =>
      obtain rfl : r = infinityRank := (rank_ofRank false fits).symm.trans infinite
      rw [lexeme_infinity]
      exact id
  · rwa [ReadsBack.token_lexeme ⟨read, infinite⟩]

end Token

namespace Lexeme

theorem wordToken_foldCase {word : String} (notConstant : Constant.named? word = none)
    (notModulo : Text.foldCase word ≠ "mod") :
    wordToken (Text.foldCase word) = .name (Text.foldCase word) := by
  have same : Constant.named? (Text.foldCase word) = none := by
    rw [Constant.named?, Text.foldCase_foldCase]
    exact notConstant
  rw [wordToken, same, Text.foldCase_foldCase]
  exact if_neg notModulo

theorem isWritten_word_toLower {letters : List Char} (written : (word letters).IsWritten) :
    (word (letters.map Char.toLower)).IsWritten := by
  rcases written with rfl | ⟨c, cs, rfl, start, all⟩
  · exact .inl rfl
  · refine .inr ⟨c.toLower, cs.map Char.toLower, rfl, ?_, ?_⟩
    · rwa [Text.isNameStart_toLower]
    · intro other mem
      obtain ⟨original, among, rfl⟩ := List.mem_map.mp mem
      rw [Text.isNameChar_toLower]
      exact all original among

theorem isWritten_foldCase {letters : List Char} (written : (word letters).IsWritten) :
    (word (Text.foldCase (String.ofList letters)).toList).IsWritten := by
  rw [Text.foldCase, String.toList_ofList, String.toList_ofList]
  exact isWritten_word_toLower written

theorem isRead_token {lexeme : Lexeme} (written : lexeme.IsWritten) : lexeme.token.IsRead := by
  match lexeme, written with
  | numeral literal, _ => exact ⟨_, nearestRank_le _ _, rfl⟩
  | sign _, _ | opening, _ | closing, _ => trivial
  | word letters, written =>
    rw [token, wordToken]
    split
    · rename_i constant _
      cases constant with
      | pi => exact ⟨0x400921FB54442D18, by decide, rfl⟩
      | e => exact ⟨0x4005BF0A8B145769, by decide, rfl⟩
    · rename_i notConstant
      split
      · trivial
      · rename_i notModulo
        exact ⟨isWritten_foldCase written, wordToken_foldCase notConstant notModulo⟩

theorem mem_tokens {lexemes : List Lexeme} {token : Token} (mem : token ∈ tokens lexemes) :
    token = .operator (.binary .times) ∨ ∃ lexeme ∈ lexemes, token = lexeme.token := by
  fun_induction tokens lexemes with
  | case1 => cases mem
  | case2 lexeme => exact .inr ⟨lexeme, List.mem_cons_self, List.mem_singleton.mp mem⟩
  | case3 left right others product ih =>
    rcases List.mem_cons.mp mem with rfl | mem
    · exact .inr ⟨left, List.mem_cons_self, rfl⟩
    · rcases List.mem_cons.mp mem with rfl | mem
      · exact .inl rfl
      · exact (ih mem).imp_right fun ⟨lexeme, among, same⟩ =>
          ⟨lexeme, List.mem_cons_of_mem _ among, same⟩
  | case4 left right others product ih =>
    rcases List.mem_cons.mp mem with rfl | mem
    · exact .inr ⟨left, List.mem_cons_self, rfl⟩
    · exact (ih mem).imp_right fun ⟨lexeme, among, same⟩ =>
        ⟨lexeme, List.mem_cons_of_mem _ among, same⟩

theorem tokens_cons (lexeme : Lexeme) (others : List Lexeme) :
    ∃ rest, tokens (lexeme :: others) = lexeme.token :: rest := by
  cases others with
  | nil => exact ⟨[], rfl⟩
  | cons next others =>
    rw [tokens]
    split
    · exact ⟨_, rfl⟩
    · exact ⟨_, rfl⟩

/-- Whether a product of the two lexemes is left unwritten. -/
def joins (left right : Lexeme) : Bool :=
  endsFactor left right && startsFactor left right

theorem tokens_eq_map {lexemes : List Lexeme}
    (written : lexemes.IsChain fun left right => joins left right = false) :
    tokens lexemes = lexemes.map token := by
  fun_induction tokens lexemes with
  | case1 => rfl
  | case2 => rfl
  | case3 left right others product ih =>
    have unjoined := (List.isChain_cons_cons.mp written).1
    rw [joins, product] at unjoined
    cases unjoined
  | case4 left right others product ih =>
    rw [ih written.tail]
    rfl

theorem wordToken_ne_closing (word : String) : wordToken word ≠ .closing := by
  unfold wordToken
  split
  · nofun
  · split <;> nofun

theorem eq_closing_of_token {lexeme : Lexeme} (h : lexeme.token = .closing) : lexeme = closing := by
  cases lexeme with
  | closing => rfl
  | word letters => exact absurd h (wordToken_ne_closing _)
  | numeral | sign | opening => cases h

theorem joins_times_right (left : Lexeme) : joins left (.sign (.binary .times)) = false :=
  Bool.and_false _

theorem joins_times_left (right : Lexeme) : joins (.sign (.binary .times)) right = false :=
  rfl

/-- Of the lexemes that two tokens are rendered as no product is left unwritten if none is of the
lexemes they come from. A constant is rendered as a literal, which joins in fewer places. -/
theorem joins_lexeme_token {left right : Lexeme} (first : left.token.ReadsBack)
    (second : right.token.ReadsBack) (unjoined : joins left right = false) :
    joins left.token.lexeme right.token.lexeme = false := by
  have readLeft := first.token_lexeme
  have readRight := second.token_lexeme
  have closes : left.token.lexeme = closing → left = closing := by
    intro same
    rw [same] at readLeft
    exact eq_closing_of_token readLeft.symm
  rw [Bool.eq_false_iff] at unjoined ⊢
  intro joined
  obtain ⟨ends, starts⟩ := Bool.and_eq_true_iff.mp joined
  refine unjoined (Bool.and_eq_true_iff.mpr ⟨?_, ?_⟩)
  · rw [endsFactor, readLeft] at ends
    rw [endsFactor]
    split at ends
    · rfl
    · rfl
    · rw [bne_iff_ne] at ends ⊢
      rintro rfl
      exact ends rfl
    · cases ends
  · rw [startsFactor, readRight] at starts
    rw [startsFactor]
    split at starts
    · rfl
    · rfl
    · -- whatever word the number was, it is a literal now and joins a closing parenthesis only
      rename_i value same
      rw [second.isWord_lexeme same, Bool.false_or, beq_iff_eq] at starts
      rw [closes starts]
      exact Bool.or_true _
    · cases starts

theorem isChain_lexeme_tokens {lexemes : List Lexeme}
    (fixed : ∀ token ∈ tokens lexemes, token.ReadsBack) :
    ((tokens lexemes).map Token.lexeme).IsChain fun left right => joins left right = false := by
  fun_induction tokens lexemes with
  | case1 => exact .nil
  | case2 => exact .singleton _
  | case3 left right others product ih =>
    obtain ⟨-, -, later⟩ := List.forall_mem_cons.mp fixed |>.imp_right List.forall_mem_cons.mp
    have chain := ih later
    obtain ⟨rest, split⟩ := tokens_cons right others
    rw [split] at chain ⊢
    exact List.isChain_cons_cons.mpr ⟨joins_times_right _,
      List.isChain_cons_cons.mpr ⟨joins_times_left _, chain⟩⟩
  | case4 left right others product ih =>
    obtain ⟨first, later⟩ := List.forall_mem_cons.mp fixed
    have chain := ih later
    obtain ⟨rest, split⟩ := tokens_cons right others
    rw [split] at chain later ⊢
    have second := later right.token List.mem_cons_self
    exact List.isChain_cons_cons.mpr
      ⟨joins_lexeme_token first second (Bool.eq_false_iff.mpr product), chain⟩

theorem tokens_map_lexeme {lexemes : List Lexeme}
    (fixed : ∀ token ∈ tokens lexemes, token.ReadsBack) :
    tokens ((tokens lexemes).map Token.lexeme) = tokens lexemes := by
  have same : (tokens lexemes).map (token ∘ Token.lexeme) = (tokens lexemes).map id :=
    List.map_congr_left fun token mem => (fixed token mem).token_lexeme
  rw [tokens_eq_map (isChain_lexeme_tokens fixed), List.map_map, same, List.map_id]

end Lexeme

theorem tokenize_render {tokens : List Token} (read : ∀ token ∈ tokens, token.IsRead) :
    tokenize (Token.render tokens) = .ok (Lexeme.tokens (tokens.map Token.lexeme)) := by
  have texts : tokens.map Token.text = (tokens.map Token.lexeme).map Lexeme.text := by
    rw [List.map_map]
    exact List.map_congr_left fun token mem => (Token.text_lexeme (read token mem)).symm
  have written : ∀ lexeme ∈ tokens.map Token.lexeme, lexeme.IsWritten := by
    intro lexeme mem
    obtain ⟨token, among, rfl⟩ := List.mem_map.mp mem
    exact Token.isWritten_lexeme (read token among)
  rw [tokenize, Token.render, String.toList_ofList, texts, Lexeme.scan_intercalate written]
  rfl

theorem isRead_of_tokenize {text : String} {tokens : List Token} (h : tokenize text = .ok tokens) :
    ∃ lexemes, tokens = Lexeme.tokens lexemes ∧ ∀ token ∈ tokens, token.IsRead := by
  obtain ⟨lexemes, scanned, rfl⟩ := map_eq_ok h
  refine ⟨lexemes, rfl, fun token mem => ?_⟩
  rcases Lexeme.mem_tokens mem with rfl | ⟨lexeme, among, rfl⟩
  · trivial
  · exact Lexeme.isRead_token (Lexeme.isWritten_of_scan scanned lexeme among)

/-- Reading the rendering of tokens always gives tokens, which are the same ones unless one was an
infinite number, and which are not changed by being rendered and read once more. -/
theorem rendered_read_again (text : String) (tokens : List Token) (h : tokenize text = .ok tokens) :
    ∃ again, tokenize (Token.render tokens) = .ok again ∧
      (again = tokens ↔ ¬ ∃ token ∈ tokens, token.IsInfinite) ∧
      tokenize (Token.render again) = .ok again := by
  obtain ⟨lexemes, split, read⟩ := isRead_of_tokenize h
  have fixed : ∀ token ∈ Lexeme.tokens (tokens.map Token.lexeme), token.ReadsBack := by
    intro token mem
    rcases Lexeme.mem_tokens mem with rfl | ⟨lexeme, among, rfl⟩
    · exact ⟨trivial, id⟩
    · -- an infinite number has become a name by now
      obtain ⟨original, source, rfl⟩ := List.mem_map.mp among
      exact ⟨Lexeme.isRead_token (Token.isWritten_lexeme (read original source)),
        Token.finite_token_lexeme (read original source)⟩
  refine ⟨_, tokenize_render read, ⟨?_, ?_⟩, ?_⟩
  · rintro same ⟨token, mem, infinite⟩
    rw [← same] at mem
    exact (fixed token mem).2 infinite
  · intro finite
    subst split
    exact Lexeme.tokens_map_lexeme fun token mem =>
      ⟨read token mem, fun infinite => finite ⟨token, mem, infinite⟩⟩
  · rw [tokenize_render fun token mem => (fixed token mem).1, Lexeme.tokens_map_lexeme fixed]

theorem rendered_read_again_constant : ∃ tokens again, tokenize "2pi%" = .ok tokens ∧
    tokenize (Token.render tokens) = .ok again ∧
      (again = tokens ↔ ¬ ∃ token ∈ tokens, token.IsInfinite) ∧
      tokenize (Token.render again) = .ok again := by
  have scanned : Lexeme.scan 0 "2pi%".toList =
      .ok [.numeral ⟨['2'], []⟩, .word ['p', 'i'], .sign .percent] := by cbv
  have read : tokenize "2pi%" = .ok [.number (Literal.mk ['2'] []).value,
      .operator (.binary .times), .number pi, .operator .percent] := by
    rw [tokenize, scanned]
    rfl
  obtain ⟨again, reread, same, fixed⟩ := rendered_read_again _ _ read
  exact ⟨_, again, read, reread, same, fixed⟩

end DeskCalculator
