import DeskCalculator.Proofs.Infix.Phrase
import DeskCalculator.Proofs.Postfix.Conversion
import DeskCalculator.Proofs.Postfix.Running
set_option autoImplicit false

/-!
# Infix phrases are evaluated as written

Converting the tokens of a phrase to postfix order and running them gives the value of the phrase. A
phrase is converted wherever the operators waiting on the stack bind less than it does and what
comes next carries out all that the phrase leaves waiting.
-/

namespace DeskCalculator.Infix
open Postfix

namespace Rank

/-- An operator below this precedence goes on waiting while a phrase of the rank is read. -/
def floor : Rank → Nat
  | sum => 2
  | product => 3
  | power | atom => 5

/-- An operator up to this precedence carries out all that a phrase of the rank leaves waiting. -/
def ceiling : Rank → Nat
  | sum => 2
  | product | power => 3
  | atom => 4

end Rank

def Admits (rank : Rank) : List Pending → Prop
  | .operator first :: _ => first.precedence < rank.floor
  | _ => True

def Follows (rank : Rank) : List Token → Prop
  | [] => True
  | .closing :: _ => True
  | .operator op :: _ => op.precedence ≤ rank.ceiling
  | _ => False

theorem Admits.mono {small large : Rank} {stack : List Pending}
    (h : small.floor ≤ large.floor) (admits : Admits small stack) : Admits large stack := by
  match stack, admits with
  | [], _ => trivial
  | .operator op :: _, bound => exact Nat.lt_of_lt_of_le bound h
  | .group :: _, _ => trivial
  | .call _ :: _, _ => trivial

theorem Follows.mono {small large : Rank} {tokens : List Token}
    (h : small.ceiling ≤ large.ceiling) (follows : Follows small tokens) :
    Follows large tokens := by
  match tokens, follows with
  | [], _ => trivial
  | .closing :: _, _ => trivial
  | .operator op :: _, bound => exact Nat.le_trans bound h

theorem Follows.not_opening {rank : Rank} {tokens : List Token} (follows : Follows rank tokens) :
    tokens.head? ≠ some .opening := by
  rintro opening
  cases tokens with
  | nil => cases opening
  | cons token tokens =>
    cases Option.some.inj opening
    exact follows

theorem Follows.carriesOut {rank : Rank} {tokens : List Token} {op : Operator}
    (follows : Follows rank tokens) (low : rank.ceiling < 4) (h : rank.ceiling ≤ op.precedence) :
    CarriesOut op tokens := by
  match tokens, follows with
  | [], _ => trivial
  | .closing :: _, _ => trivial
  | .operator next :: _, bound =>
    change next.precedence ≤ rank.ceiling at bound
    have other : next ≠ .binary .power := by
      rintro rfl
      simp only [Operator.precedence, BinaryOperator.precedence] at bound
      omega
    change next.yieldsTo op = true
    rw [yieldsTo_of_ne other]
    exact decide_eq_true (Nat.le_trans bound h)

theorem Admits.convert_operator {rank : Rank} {stack : List Pending} {op : Operator}
    (admits : Admits rank stack) (tokens : List Token) (other : op ≠ .binary .power)
    (h : rank.floor ≤ op.precedence) :
    convert stack (.operator op :: tokens) = convert (.operator op :: stack) tokens := by
  apply Postfix.convert_operator
  intro first mem
  match stack, admits with
  | .operator waiting :: _, bound =>
    cases Option.some.inj mem
    change waiting.precedence < rank.floor at bound
    change op.yieldsTo waiting = false
    rw [yieldsTo_of_ne other, decide_eq_false_iff_not]
    omega
  | .group :: _, _ => cases Option.some.inj mem; rfl
  | .call _ :: _, _ => cases Option.some.inj mem; rfl

theorem convert_binary {op : Operator} {left right leftOrdered rightOrdered rest : List Token}
    {stack : List Pending}
    (first : convert stack (left ++ .operator op :: (right ++ rest)) =
      (convert stack (.operator op :: (right ++ rest))).map (leftOrdered ++ ·))
    (push : convert stack (.operator op :: (right ++ rest)) =
      convert (.operator op :: stack) (right ++ rest))
    (second : convert (.operator op :: stack) (right ++ rest) =
      (convert (.operator op :: stack) rest).map (rightOrdered ++ ·))
    (out : CarriesOut op rest) :
    convert stack (left ++ .operator op :: right ++ rest) =
      (convert stack rest).map (leftOrdered ++ rightOrdered ++ [.operator op] ++ ·) := by
  rw [List.append_assoc, List.cons_append, first, push, second, convert_waiting op stack out,
    map_append_map, map_append_map, List.append_assoc]

/-- A phrase is put in postfix order where it stands, whatever waits below it. -/
theorem convert_tokens {rank : Rank} (phrase : Phrase rank) (stack : List Pending)
    (rest : List Token) (admits : Admits rank stack) (follows : Follows rank rest) :
    convert stack (phrase.tokens ++ rest) = (convert stack rest).map (phrase.ordered ++ ·) := by
  -- a part of the phrase meets a stack with one more operator on it and has more to follow
  induction phrase generalizing stack rest with
  | sum left sign right ihLeft ihRight =>
    have level := sign.precedence_operator
    have above : Admits .product (.operator (.binary sign.operator) :: stack) :=
      Nat.lt_of_le_of_lt (Nat.le_of_eq level) (by decide)
    exact convert_binary (ihLeft _ _ admits (Nat.le_of_eq level))
      (admits.convert_operator _ sign.operator_ne_power (Nat.le_of_eq level.symm))
      (ihRight _ _ above (follows.mono (by decide)))
      (follows.carriesOut (by decide) (Nat.le_of_eq level.symm))
  | ofProduct whole ih =>
    exact ih stack rest (admits.mono (by decide)) (follows.mono (by decide))
  | product left sign right ihLeft ihRight =>
    have level := sign.precedence_operator
    have above : Admits .power (.operator (.binary sign.operator) :: stack) :=
      Nat.lt_of_le_of_lt (Nat.le_of_eq level) (by decide)
    exact convert_binary (ihLeft _ _ admits (Nat.le_of_eq level))
      (admits.convert_operator _ sign.operator_ne_power (Nat.le_of_eq level.symm))
      (ihRight _ _ above (follows.mono (by decide)))
      (follows.carriesOut (by decide) (Nat.le_of_eq level.symm))
  | percent operand ih =>
    have after : Follows .product (.operator .percent :: rest) := Nat.le_refl 3
    have out : CarriesOut .percent rest := follows.carriesOut (by decide) (by decide)
    rw [Phrase.tokens, List.append_assoc, List.cons_append, List.nil_append, ih _ _ admits after,
      admits.convert_operator _ (by decide) (by decide), convert_waiting _ _ out, map_append_map,
      Phrase.ordered]
  | ofPower whole ih => exact ih stack rest (admits.mono (by decide)) follows
  | power base exponent ihBase ihExponent =>
    -- only the atom before a power can be followed by one; the exponent is a power itself
    have after : Follows .atom (.operator (.binary .power) :: (exponent.tokens ++ rest)) :=
      Nat.le_refl 4
    have above : Admits .power (.operator (.binary .power) :: stack) := Nat.lt_succ_self 4
    exact convert_binary (ihBase _ _ (admits.mono (by decide)) after) (convert_power _ _)
      (ihExponent _ _ above follows) (follows.carriesOut (by decide) (by decide))
  | ofAtom whole ih =>
    exact ih stack rest (admits.mono (by decide)) (follows.mono (by decide))
  | number value => exact convert_number stack value rest
  | bare name => exact convert_name stack name rest follows.not_opening
  | call name argument ih =>
    have inner : Admits .sum (.call name :: stack) := trivial
    have after : Follows .sum (.closing :: rest) := trivial
    rw [Phrase.tokens, List.cons_append, List.cons_append, List.cons_append, List.cons_append,
      convert_call, List.append_assoc, List.singleton_append, ih _ _ inner after,
      convert_call_closing, map_append_map, Phrase.ordered]
  | group inner ih =>
    have below : Admits .sum (.group :: stack) := trivial
    have after : Follows .sum (.closing :: rest) := trivial
    rw [Phrase.tokens, List.cons_append, List.cons_append, convert_opening, List.append_assoc,
      List.singleton_append, ih _ _ below after, convert_group_closing, Phrase.ordered]

theorem ofTokens_tokens (phrase : Phrase .sum) :
    Postfix.ofTokens phrase.tokens = .ok phrase.ordered := by
  have whole := convert_tokens phrase [] [] trivial trivial
  rw [List.append_nil, convert_nil] at whole
  rw [ofTokens, whole]
  simp [Except.map, finish, emit]

theorem run_binary {angle : Angle} {stack : List Float} {first second : List Token}
    {left right : Except Fault Float} {op : BinaryOperator}
    (hLeft : run angle stack first = left.map (· :: stack))
    (hRight : ∀ a, run angle (a :: stack) second = right.map (· :: a :: stack)) :
    run angle stack (first ++ second ++ [.operator (.binary op)]) =
      (do let a ← left; let b ← right; op.apply a b : Except Fault Float).map (· :: stack) := by
  rw [run_append, run_append, hLeft]
  cases left with
  | error fault => rfl
  | ok a =>
    change (run angle (a :: stack) second >>= fun after => run angle after _) = _
    rw [hRight a]
    cases right with
    | error fault => rfl
    | ok b =>
      change run angle (b :: a :: stack) _ = _
      rw [run_singleton, step_binary]
      rfl

theorem run_ordered {rank : Rank} (phrase : Phrase rank) (closed : phrase.bareNames = [])
    (angle : Angle) (stack : List Float) :
    run angle stack phrase.ordered = (phrase.value angle).map (· :: stack) := by
  induction phrase generalizing stack with
  | sum left sign right ihLeft ihRight =>
    obtain ⟨closedLeft, closedRight⟩ := List.append_eq_nil_iff.mp closed
    rw [Phrase.ordered, run_binary (ihLeft closedLeft stack) fun a => ihRight closedRight _]
    simp only [SumSign.apply_operator]
    rfl
  | ofProduct whole ih => exact ih closed stack
  | product left sign right ihLeft ihRight =>
    obtain ⟨closedLeft, closedRight⟩ := List.append_eq_nil_iff.mp closed
    rw [Phrase.ordered, run_binary (ihLeft closedLeft stack) fun a => ihRight closedRight _]
    simp only [ProductSign.apply_operator]
    rfl
  | percent operand ih =>
    rw [Phrase.ordered, run_append, ih closed, Phrase.value]
    cases operand.value angle with
    | error fault => rfl
    | ok a =>
      change run angle (a :: stack) [.operator .percent] = _
      rw [run_singleton, step_percent]
      rfl
  | ofPower whole ih => exact ih closed stack
  | power base exponent ihBase ihExponent =>
    obtain ⟨closedBase, closedExponent⟩ := List.append_eq_nil_iff.mp closed
    exact run_binary (ihBase closedBase stack) fun a => ihExponent closedExponent _
  | ofAtom whole ih => exact ih closed stack
  | number value => exact run_singleton angle stack _
  | bare name => cases closed
  | call name argument ih =>
    rw [Phrase.ordered, run_append, ih closed]
    cases named : UnaryFunction.named? name with
    | some function =>
      rw [Phrase.value_call_of_named named]
      cases argument.value angle with
      | error fault => rfl
      | ok a =>
        change run angle (a :: stack) [.name name] = _
        rw [run_singleton, step, named]
        rfl
    | none =>
      rw [Phrase.value_call_of_unnamed named]
      cases argument.value angle with
      | error fault => rfl
      | ok a =>
        change run angle (a :: stack) [.name name] = _
        rw [run_singleton, step, named]
        rfl
  | group inner ih => exact ih closed stack

theorem evaluate_ordered (phrase : Phrase .sum) (closed : phrase.bareNames = [])
    (angle : Angle) : Postfix.evaluate angle phrase.ordered = phrase.value angle := by
  rw [Postfix.evaluate, run_ordered phrase closed]
  cases phrase.value angle <;> rfl

theorem workOut_of_tokens {text : String} {phrase : Phrase .sum} (closed : phrase.bareNames = [])
    (angle : Angle) (h : tokenize text = .ok phrase.tokens) :
    Expression.workOut angle text = (phrase.value angle).map fun value =>
      ⟨value, ⟨Token.render phrase.tokens, Token.render phrase.ordered⟩⟩ := by
  have ordered := ofTokens_tokens phrase
  have evaluated := evaluate_ordered phrase closed angle
  rw [Expression.workOut, h]
  change (Postfix.ofTokens phrase.tokens >>= fun ordered => _) = _
  rw [ordered]
  change (Postfix.evaluate angle phrase.ordered >>= fun value => _) = _
  rw [evaluated]
  cases phrase.value angle <;> rfl

theorem value_of_tokens {text : String} {phrase : Phrase .sum} (closed : phrase.bareNames = [])
    (angle : Angle) (h : tokenize text = .ok phrase.tokens) :
    Expression.value angle text = phrase.value angle := by
  rw [Expression.value, workOut_of_tokens closed angle h]
  cases phrase.value angle <;> rfl

/-- The tokens of a phrase without bare names can be put in postfix order, and that order has the
value, or the first fault, that is found by working through the phrase itself. So has every text
with these tokens. -/
theorem phrase_evaluated (phrase : Phrase .sum) (closed : phrase.bareNames = []) (angle : Angle) :
    (∃ ordered, Postfix.ofTokens phrase.tokens = .ok ordered ∧
      Postfix.evaluate angle ordered = phrase.value angle) ∧
    ∀ text, tokenize text = .ok phrase.tokens →
      Expression.value angle text = phrase.value angle :=
  ⟨⟨phrase.ordered, ofTokens_tokens phrase, evaluate_ordered phrase closed angle⟩,
    fun _ => value_of_tokens closed angle⟩

theorem phrase_evaluated_first_fault : ∃ phrase : Phrase .sum, phrase.bareNames = [] ∧
    tokenize "1/(2-2)+f(3)" = .ok phrase.tokens ∧
    (∃ ordered, Postfix.ofTokens phrase.tokens = .ok ordered ∧
      Postfix.evaluate .degrees ordered = .error .divisionByZero) ∧
    Expression.value .degrees "1/(2-2)+f(3)" = .error .divisionByZero := by
  let one : Float := (Literal.mk ['1'] []).value
  let two : Float := (Literal.mk ['2'] []).value
  let three : Float := (Literal.mk ['3'] []).value
  let atom : Float → Phrase .product := fun x => .ofPower (.ofAtom (.number x))
  let difference : Phrase .sum := .sum (.ofProduct (atom two)) .minus (atom two)
  let phrase : Phrase .sum :=
    .sum (.ofProduct (.product (atom one) .divide (.ofAtom (.group difference)))) .plus
      (.ofPower (.ofAtom (.call "f" (.ofProduct (atom three)))))
  have zero : (two - two == 0.0) = true := by decide +kernel
  have value : phrase.value .degrees = .error .divisionByZero := by
    simp [phrase, difference, atom, Phrase.value, SumSign.combine, ProductSign.combine, zero,
      bind, Except.bind, pure, Except.pure]
  have read : tokenize "1/(2-2)+f(3)" = .ok phrase.tokens := by
    have scanned : Lexeme.scan 0 "1/(2-2)+f(3)".toList = .ok
        [.numeral ⟨['1'], []⟩, .sign (.binary .divide), .opening, .numeral ⟨['2'], []⟩,
          .sign (.binary .minus), .numeral ⟨['2'], []⟩, .closing, .sign (.binary .plus),
          .word ['f'], .opening, .numeral ⟨['3'], []⟩, .closing] := by cbv
    rw [tokenize, scanned]
    rfl
  have evaluated := phrase_evaluated phrase rfl .degrees
  rw [value] at evaluated
  exact ⟨phrase, rfl, read, evaluated.1, evaluated.2 _ read⟩

end DeskCalculator.Infix
