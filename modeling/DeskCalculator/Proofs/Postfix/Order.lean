import DeskCalculator.Proofs.Balance
import DeskCalculator.Proofs.Postfix.Replacement
import DeskCalculator.Proofs.Rendering
set_option autoImplicit false

namespace DeskCalculator

theorem exists_balanced_of_append {depth : Nat} {before after : List Token}
    (h : Balanced depth (before ++ after)) : ∃ depth, Balanced depth after := by
  induction before generalizing depth with
  | nil => exact ⟨depth, h⟩
  | cons token before ih =>
    cases token with
    | closing =>
      cases depth with
      | zero => exact h.elim
      | succ depth => exact ih h
    | opening | number | operator | name => exact ih h

theorem exists_partner {inner depth : Nat} {tokens : List Token}
    (h : Balanced (inner + (depth + 1)) tokens) : ∃ inside after,
      tokens = inside ++ .closing :: after ∧ Balanced inner inside ∧ Balanced depth after := by
  induction tokens generalizing inner with
  | nil => exact absurd h (Nat.succ_ne_zero _)
  | cons token tokens ih =>
    cases token with
    | opening =>
      rw [Balanced, Nat.add_right_comm] at h
      obtain ⟨inside, after, rfl, closed, rest⟩ := ih h
      exact ⟨.opening :: inside, after, rfl, closed, rest⟩
    | closing =>
      cases inner with
      | zero =>
        rw [Nat.zero_add] at h
        exact ⟨[], tokens, rfl, rfl, h⟩
      | succ inner =>
        rw [Nat.succ_add] at h
        obtain ⟨inside, after, rfl, closed, rest⟩ := ih h
        exact ⟨.closing :: inside, after, rfl, closed, rest⟩
    | number | operator | name =>
      obtain ⟨inside, after, rfl, closed, rest⟩ := ih h
      exact ⟨_ :: inside, after, rfl, closed, rest⟩

namespace Postfix

/-- The numbers and the names that are not those of functions, in their order. -/
def operands : List Token → List Token
  | [] => []
  | .number value :: tokens => .number value :: operands tokens
  | .name _ :: .opening :: tokens => operands tokens
  | .name text :: tokens => .name text :: operands tokens
  | _ :: tokens => operands tokens

theorem operands_sublist {stack : List Pending} {tokens out : List Token}
    (h : convert stack tokens = .ok out) : (operands tokens).Sublist out := by
  fun_induction convert stack tokens generalizing out with
  | case1 stack => exact List.nil_sublist out
  | case2 stack value tokens ih =>
    obtain ⟨after, converted, rfl⟩ := map_eq_ok h
    exact (ih converted).cons_cons _
  | case3 stack text tokens ih => exact ih h
  | case4 stack text tokens noCall ih =>
    obtain ⟨after, converted, rfl⟩ := map_eq_ok h
    rw [operands]
    · exact (ih converted).cons_cons _
    · exact noCall
  | case5 stack op tokens ih =>
    obtain ⟨after, converted, rfl⟩ := map_eq_ok h
    exact (ih converted).trans (List.sublist_append_right _ after)
  | case6 stack tokens ih => exact ih h
  | case7 stack tokens ih =>
    obtain ⟨⟨carried, rest⟩, closed, converted⟩ := bind_eq_ok h
    change Except.map _ (convert rest tokens) = _ at converted
    obtain ⟨after, others, rfl⟩ := map_eq_ok converted
    exact (ih rest others).trans (List.sublist_append_right carried after)

section

variable {tokens out : List Token}

theorem ofTokens_perm (h : ofTokens tokens = .ok out) :
    out.Perm (tokens.filter (!·.isParenthesis)) :=
  convert_perm h

theorem mem_of_ofTokens (h : ofTokens tokens = .ok out) {token : Token} (mem : token ∈ out) :
    token ∈ tokens ∧ token.isParenthesis = false := by
  have kept := List.mem_filter.mp ((ofTokens_perm h).mem_iff.mp mem)
  exact ⟨kept.1, by simpa using kept.2⟩

/-- The argument of a function ends at the partner of its parenthesis. Its own postfix order comes
out in one piece with the function behind it, and around it is all that stands around the call. -/
theorem exists_call_of_ofTokens {before rest : List Token} {name : String}
    (h : ofTokens (before ++ .name name :: .opening :: rest) = .ok out) :
    ∃ inside after inner first last, rest = inside ++ .closing :: after ∧ Paired inside ∧
      ofTokens inside = .ok inner ∧ out = first ++ (inner ++ [Token.name name]) ++ last ∧
      (first ++ last).Perm ((before ++ after).filter (!·.isParenthesis)) := by
  have balanced := (convert_isOk_iff [] _).mp ⟨out, h⟩
  obtain ⟨depth, called⟩ := exists_balanced_of_append balanced
  have opened : Balanced (0 + (depth + 1)) rest := by rwa [Nat.zero_add]
  obtain ⟨inside, after, rfl, closed, -⟩ := exists_partner opened
  obtain ⟨inner, converted⟩ := (convert_isOk_iff [] inside).mpr closed
  obtain ⟨first, last, around⟩ := convert_enclosed (.call name) rfl [] before after nofun
  obtain ⟨last, -, rfl⟩ := map_eq_ok ((around converted).symm.trans h)
  refine ⟨inside, after, inner, first, last, rfl, (balanced_iff_paired inside).mp closed,
    converted, rfl, ?_⟩
  rw [List.perm_iff_count]
  intro token
  have whole := List.perm_iff_count.mp (ofTokens_perm h) token
  have part := List.perm_iff_count.mp (ofTokens_perm converted) token
  simp only [Pending.closed, List.filter_append, List.filter_cons_of_pos, List.filter_cons_of_neg,
    Token.isParenthesis, Bool.not_true, Bool.not_false, Bool.false_eq_true, not_false_eq_true,
    List.count_append, List.count_cons, List.count_nil] at whole part ⊢
  omega

end

end Postfix

theorem Token.IsRead.ne_parenthesis {text : String} (read : (Token.name text).IsRead) :
    text ≠ "(" ∧ text ≠ ")" := by
  have inside : (Lexeme.word text.toList).token.isParenthesis = false := by
    rw [Lexeme.token, String.ofList_toList, read.2]
    rfl
  have none := Lexeme.isParenthesis_of_mem_text read.1 inside
  constructor
  · rintro rfl
    cases none '(' (by decide)
  · rintro rfl
    cases none ')' (by decide)

namespace Expression

theorem unknownSymbol_ne_parenthesis {angle : Angle} {text symbol : String}
    (h : value angle text = .error (.unknownSymbol symbol)) : symbol ≠ "(" ∧ symbol ≠ ")" := by
  rw [value_eq_bind] at h
  cases read : tokenize text with
  | error fault =>
    obtain ⟨c, position, rfl⟩ := fault_of_tokenize read
    rw [read] at h
    cases h
  | ok tokens =>
    rw [read] at h
    change (Postfix.ofTokens tokens >>= Postfix.evaluate angle) = _ at h
    cases converted : Postfix.ofTokens tokens with
    | error fault =>
      obtain ⟨-, rfl⟩ := Postfix.ofTokens_eq_error_iff.mp converted
      rw [converted] at h
      cases h
    | ok ordered =>
      rw [converted] at h
      rcases Postfix.fault_of_evaluate h with division | ⟨count, leftover⟩ | ⟨token, mem, _, faulty⟩
      · cases division
      · cases leftover
      · obtain ⟨among, inside⟩ := Postfix.mem_of_ofTokens converted mem
        rcases Token.fault?_eq_some faulty with ⟨other, missing⟩ | ⟨other, same, parenthesis | rfl⟩
        · cases missing
        · cases inside.symm.trans parenthesis
        · cases same
          obtain ⟨lexemes, -, isRead⟩ := isRead_of_tokenize read
          exact (isRead _ among).ne_parenthesis

end Expression

open Postfix

/-- A postfix order holds the tokens it was made from, each as often, but no parenthesis, so the
value of a text never fails because of one. The numbers and the names without an argument stay in
their order. The argument of a function ends at the partner of its parenthesis, and its own postfix
order stands in one piece right before the function, with all the other tokens around it. -/
theorem order_kept :
    (∀ tokens out, ofTokens tokens = .ok out →
      out.Perm (tokens.filter (!·.isParenthesis)) ∧
      (∀ token ∈ out, token.isParenthesis = false) ∧
      (operands tokens).Sublist out ∧
      ∀ before name rest, tokens = before ++ .name name :: .opening :: rest →
        ∃ inside after inner first last, rest = inside ++ .closing :: after ∧ Paired inside ∧
          ofTokens inside = .ok inner ∧ out = first ++ (inner ++ [Token.name name]) ++ last ∧
          (first ++ last).Perm ((before ++ after).filter (!·.isParenthesis))) ∧
    ∀ angle text symbol, Expression.value angle text = .error (.unknownSymbol symbol) →
      symbol ≠ "(" ∧ symbol ≠ ")" := by
  refine ⟨fun tokens out h => ⟨ofTokens_perm h, fun token mem => (mem_of_ofTokens h mem).2,
    operands_sublist h, ?_⟩, fun angle text symbol => Expression.unknownSymbol_ne_parenthesis⟩
  rintro before name rest rfl
  exact exists_call_of_ofTokens h

theorem order_kept_empty_argument : ∃ tokens out, tokens =
    [.name "f", .opening, .name "f", .operator (.binary .plus), .number 2.0, .closing,
      .operator (.binary .times), .name "f", .opening, .closing] ∧
    ofTokens tokens = .ok out ∧ out.Perm (tokens.filter (!·.isParenthesis)) ∧
    (operands tokens).Sublist out := by
  have converted : ofTokens
      [.name "f", .opening, .name "f", .operator (.binary .plus), .number 2.0, .closing,
        .operator (.binary .times), .name "f", .opening, .closing] =
      .ok [.name "f", .number 2.0, .operator (.binary .plus), .name "f", .name "f",
        .operator (.binary .times)] := rfl
  obtain ⟨same, -, ordered, -⟩ := order_kept.1 _ _ converted
  exact ⟨_, _, rfl, converted, same, ordered⟩

end DeskCalculator
