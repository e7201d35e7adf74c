import DeskCalculator.Proofs.Expression
import DeskCalculator.Proofs.Lexeme.Stray
import DeskCalculator.Proofs.Postfix.Shape
set_option autoImplicit false

namespace DeskCalculator

/-- Whether no more parentheses are closed than opened at any point, and as many in the end. -/
def Paired (tokens : List Token) : Prop :=
  (∀ before, before <+: tokens → before.count .closing ≤ before.count .opening) ∧
    tokens.count .closing = tokens.count .opening

theorem forall_initial_cons {α : Type} {p : List α → Prop} {a : α} {list : List α} :
    (∀ before, before <+: a :: list → p before) ↔
      p [] ∧ ∀ before, before <+: list → p (a :: before) := by
  constructor
  · exact fun all => ⟨all [] List.nil_prefix, fun before initial =>
      all (a :: before) ((List.prefix_cons_inj a).mpr initial)⟩
  · rintro ⟨none, some⟩ before initial
    rcases List.prefix_cons_iff.mp initial with rfl | ⟨rest, rfl, shorter⟩
    · exact none
    · exact some rest shorter

theorem balanced_iff_count (depth : Nat) (tokens : List Token) : Balanced depth tokens ↔
    (∀ before, before <+: tokens → before.count .closing ≤ before.count .opening + depth) ∧
      tokens.count .closing = tokens.count .opening + depth := by
  induction tokens generalizing depth with
  | nil => simp [Balanced, eq_comm]
  | cons token tokens ih =>
    rw [forall_initial_cons]
    cases token with
    | opening => simp [Balanced, ih, Nat.add_assoc, Nat.add_comm 1]
    | closing =>
      cases depth with
      | zero =>
        refine ⟨False.elim, fun ⟨⟨_, never⟩, _⟩ => ?_⟩
        cases never [] List.nil_prefix
      | succ depth => simp [Balanced, ih, ← Nat.add_assoc]
    | number | operator | name => simp [Balanced, ih]

theorem balanced_iff_paired (tokens : List Token) : Balanced 0 tokens ↔ Paired tokens :=
  balanced_iff_count 0 tokens

namespace Postfix

theorem fault_of_close {stack : List Pending} {fault : Fault} (h : close stack = .error fault) :
    fault = .unbalancedParentheses := by
  unfold close at h
  split at h
  · exact (Except.error.inj h).symm
  · cases h
  · cases h

theorem fault_of_convert {stack : List Pending} {tokens : List Token} {fault : Fault}
    (h : convert stack tokens = .error fault) : fault = .unbalancedParentheses := by
  fun_induction convert stack tokens with
  | case1 stack =>
    unfold finish at h
    split at h
    · cases h
    · exact (Except.error.inj h).symm
  | case2 stack value tokens ih => exact ih (map_eq_error_iff.mp h)
  | case3 stack text tokens ih => exact ih h
  | case4 stack text tokens _ ih => exact ih (map_eq_error_iff.mp h)
  | case5 stack op tokens ih => exact ih (map_eq_error_iff.mp h)
  | case6 stack tokens ih => exact ih h
  | case7 stack tokens ih =>
    rcases closed : close stack with other | ⟨carried, rest⟩
    · rw [closed] at h
      cases h
      exact fault_of_close closed
    · rw [closed] at h
      exact ih rest (map_eq_error_iff.mp h)

variable {tokens : List Token}

theorem ofTokens_isOk_iff : (∃ out, ofTokens tokens = .ok out) ↔ Paired tokens :=
  (convert_isOk_iff [] tokens).trans (balanced_iff_paired tokens)

theorem ofTokens_eq_error_iff {fault : Fault} :
    ofTokens tokens = .error fault ↔ ¬ Paired tokens ∧ fault = .unbalancedParentheses := by
  rw [← ofTokens_isOk_iff]
  cases converted : ofTokens tokens with
  | ok out => exact ⟨nofun, fun refused => absurd ⟨out, rfl⟩ refused.1⟩
  | error other =>
    obtain rfl := fault_of_convert converted
    exact ⟨fun same => ⟨not_exists_ok, (Except.error.inj same).symm⟩,
      fun refused => congrArg _ refused.2.symm⟩

theorem evaluate_ne_unbalanced (angle : Angle) (tokens : List Token) :
    evaluate angle tokens ≠ .error .unbalancedParentheses := by
  intro failed
  rcases fault_of_evaluate failed with division | ⟨count, leftover⟩ | ⟨token, -, height, faulty⟩
  · cases division
  · cases leftover
  · rcases Token.fault?_eq_some faulty with ⟨symbol, missing⟩ | ⟨symbol, unknown, -⟩
    · cases missing
    · cases unknown

theorem value_eq_unbalanced_iff {angle : Angle} :
    value angle tokens = .error .unbalancedParentheses ↔ ¬ Paired tokens := by
  rw [value, ← ofTokens_isOk_iff]
  cases converted : ofTokens tokens with
  | ok out =>
    exact ⟨fun failed => absurd failed (evaluate_ne_unbalanced angle out),
      fun refused => absurd ⟨out, rfl⟩ refused⟩
  | error fault =>
    obtain rfl := fault_of_convert converted
    exact ⟨fun _ => not_exists_ok, fun _ => rfl⟩

end Postfix

namespace Display

theorem isBalanced_iff_paired {text : String} {tokens : List Token}
    (read : tokenize text = .ok tokens) : isBalanced 0 text.toList = true ↔ Paired tokens :=
  (isBalanced_iff_balanced read).trans (balanced_iff_paired tokens)

end Display

open Postfix

/-- Tokens can be put in postfix order exactly when their parentheses are balanced, whatever else
they are, and otherwise that is the fault. It is what the counter over the characters of a text says
as well, also when it counts in 32 bits and the text is not too long for that. So a text has this
fault, and no other, exactly when it can be read and its parentheses are not balanced. -/
theorem refused_iff_unbalanced :
    (∀ tokens, ((∃ out, ofTokens tokens = .ok out) ↔ Paired tokens) ∧
      ∀ fault, ofTokens tokens = .error fault ↔
        ¬ Paired tokens ∧ fault = .unbalancedParentheses) ∧
    (∀ text tokens, tokenize text = .ok tokens →
      ((∃ out, ofTokens tokens = .ok out) ↔ Display.isBalanced 0 text.toList = true) ∧
      (text.length < 2 ^ 31 →
        ((∃ out, ofTokens tokens = .ok out) ↔ Display.isBalanced32 0 text.toList = true))) ∧
    ∀ angle text, Expression.value angle text = .error .unbalancedParentheses ↔
      (∃ tokens, tokenize text = .ok tokens) ∧ Display.isBalanced 0 text.toList = false := by
  refine ⟨fun tokens => ⟨ofTokens_isOk_iff, fun fault => ofTokens_eq_error_iff⟩,
    fun text tokens read => ?_, fun angle text => ?_⟩
  · have counted := ofTokens_isOk_iff.trans (Display.isBalanced_iff_paired read).symm
    refine ⟨counted, fun short => ?_⟩
    have same : Display.isBalanced32 0 text.toList = Display.isBalanced 0 text.toList :=
      Display.isBalanced32_eq (by rwa [Nat.zero_add, String.length_toList])
    rw [same]
    exact counted
  · rw [Expression.value_eq_bind]
    cases read : tokenize text with
    | error fault =>
      -- a text that cannot be read has a stray character, and that is its fault
      refine ⟨fun failed => ?_, fun ⟨readable, _⟩ => absurd readable not_exists_ok⟩
      obtain ⟨c, position, rfl⟩ := fault_of_tokenize read
      cases failed
    | ok tokens =>
      change Postfix.value angle tokens = _ ↔ _
      rw [value_eq_unbalanced_iff, ← Display.isBalanced_iff_paired read, Bool.not_eq_true]
      exact ⟨fun unbalanced => ⟨⟨tokens, rfl⟩, unbalanced⟩, And.right⟩

/-- The parentheses of `)(` are as many, but the first is closed before it is opened. -/
theorem refused_iff_unbalanced_reversed : ∃ tokens, tokenize ")(" = .ok tokens ∧
    ((∃ out, ofTokens tokens = .ok out) ↔ Display.isBalanced32 0 ")(".toList = true) ∧
    Expression.value .degrees ")(" = .error .unbalancedParentheses := by
  have scanned : Lexeme.scan 0 ")(".toList = .ok [.closing, .opening] := by cbv
  have read : tokenize ")(" = .ok [.closing, .operator (.binary .times), .opening] := by
    rw [tokenize, scanned]
    rfl
  obtain ⟨-, texts, faults⟩ := refused_iff_unbalanced
  have counted := (texts _ _ read).2 (by decide)
  exact ⟨_, read, counted, (faults .degrees ")(").mpr ⟨⟨_, read⟩, by decide⟩⟩

end DeskCalculator
