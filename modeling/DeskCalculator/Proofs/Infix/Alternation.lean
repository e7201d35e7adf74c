import DeskCalculator.Proofs.Infix.Evaluation
set_option autoImplicit false

/-!
# Which texts have a value

Nothing checks that operands and operators take turns; the only checks are that each operator finds
enough values and that one value is left. These counts find every operand that is missing, for
without two operands side by side there is none to stand in for it. A text with a value is therefore
a phrase, unless two operands stand side by side in it or a power follows a percent sign.
-/

namespace DeskCalculator
open Postfix

namespace Token

def endsOperand : Token → Bool
  | number _ | name _ | closing | operator .percent => true
  | _ => false

def startsOperand : Token → Bool
  | number _ | name _ | opening => true
  | _ => false

/-- Whether no phrase has these neighbours although neither lacks an operand: two operands side by
side, unless they are a name and the parenthesis of its argument, or a power of a percentage. -/
def Clashes : Token → Token → Prop
  | name _, opening => False
  | operator .percent, operator (.binary .power) => True
  | left, right => left.endsOperand = true ∧ right.startsOperand = true

theorem Clashes.of_operands {left right : Token} (ends : left.endsOperand = true)
    (starts : right.startsOperand = true) (apart : ∀ text, left = name text → right ≠ opening) :
    Clashes left right := by
  match left, right with
  | name text, opening => exact absurd rfl (apart text rfl)
  | operator .percent, operator (.binary .power) => trivial
  | name _, number _ | name _, name _ => exact ⟨ends, starts⟩
  | number _, _ | closing, _ => exact ⟨ends, starts⟩
  | operator .percent, number _ | operator .percent, name _ | operator .percent, opening =>
    exact ⟨ends, starts⟩

theorem not_clashes_binary (op : BinaryOperator) (right : Token) :
    ¬ Clashes (operator (.binary op)) right := by
  rintro ⟨ends, -⟩
  cases ends

theorem not_clashes_opening (right : Token) : ¬ Clashes opening right := by
  rintro ⟨ends, -⟩
  cases ends

theorem Clashes.startsOperand_or_power {left right : Token} (h : Clashes left right) :
    right.startsOperand = true ∨ left = operator .percent ∧ right = operator (.binary .power) := by
  match left, right with
  | operator .percent, operator (.binary .power) => exact .inr ⟨rfl, rfl⟩
  | operator .percent, number _ | operator .percent, name _ | operator .percent, opening =>
    exact .inl rfl
  | number _, _ | closing, _ => exact .inl h.2
  | name _, number _ | name _, name _ | name _, opening => exact .inl rfl

end Token

namespace Infix

inductive Place
  | operand
  | operator

/-- Whether operands and operators take turns, from a place for the one or the other on. A name
stands for an operand only with an argument. -/
def Alternates : Place → List Token → Prop
  | .operand, .number _ :: tokens => Alternates .operator tokens
  | .operand, .name _ :: .opening :: tokens => Alternates .operand tokens
  | .operand, .opening :: tokens => Alternates .operand tokens
  | .operand, _ => False
  | .operator, [] => True
  | .operator, .operator .percent :: tokens => Alternates .operator tokens
  | .operator, .operator (.binary _) :: tokens => Alternates .operand tokens
  | .operator, .closing :: tokens => Alternates .operator tokens
  | .operator, _ => False

abbrev Apart (tokens : List Token) : Prop :=
  tokens.IsChain fun left right => ¬ left.Clashes right

def Place.due : Place → Nat
  | operand => 1
  | operator => 0

theorem Apart.head_not_startsOperand {left : Token} {tokens : List Token}
    (apart : Apart (left :: tokens)) (ends : left.endsOperand = true)
    (noCall : ∀ text, left = .name text → tokens.head? ≠ some .opening) :
    ∀ right ∈ tokens.head?, right.startsOperand = false := by
  intro right mem
  by_contra starts
  rw [Bool.not_eq_false] at starts
  refine (List.isChain_cons.mp apart).1 right mem (.of_operands ends starts ?_)
  rintro text name rfl
  exact noCall text name mem

theorem few_numbers {numbers binaries : Nat} {turns : Prop} (few : numbers ≤ binaries) :
    numbers ≤ binaries + 1 ∧ (numbers = binaries + 1 → turns) :=
  ⟨Nat.le_succ_of_le few, fun all => absurd few (by omega)⟩

/-- Without clashing neighbours there are at most as many numbers as are wanted, and if there are as
many then operands and operators take turns. -/
theorem numbers_le {place : Place} {tokens : List Token} (apart : Apart tokens)
    (head : place = .operator → ∀ first ∈ tokens.head?, first.startsOperand = false) :
    tokens.countP Token.isNumber ≤ tokens.countP Token.isBinary + place.due ∧
      (tokens.countP Token.isNumber = tokens.countP Token.isBinary + place.due →
        Alternates place tokens) := by
  induction tokens generalizing place with
  | nil =>
    cases place with
    | operand => exact ⟨Nat.zero_le _, fun none => (nomatch none)⟩
    | operator => exact ⟨Nat.le_refl _, fun _ => trivial⟩
  | cons token tokens ih =>
    -- after a token that ends an operand no operand can start, or the two would clash
    have operands := @ih .operand (List.IsChain.tail apart) nofun
    have operators := fun ends noCall => @ih .operator (List.IsChain.tail apart)
      fun _ => Apart.head_not_startsOperand apart ends noCall
    have starts : place = .operator → token.startsOperand = false := fun h => head h token rfl
    rw [List.countP_cons, List.countP_cons]
    cases token with
    | number value =>
      obtain ⟨bound, turns⟩ := operators rfl nofun
      cases place with
      | operand => exact ⟨Nat.add_le_add_right bound 1, fun all => turns (Nat.succ.inj all)⟩
      | operator => cases starts rfl
    | operator op =>
      cases op with
      | binary op =>
        cases place with
        | operand => exact few_numbers operands.1
        | operator => exact operands
      | percent =>
        cases place with
        | operand => exact few_numbers (operators rfl nofun).1
        | operator => exact operators rfl nofun
    | opening =>
      cases place with
      | operand => exact operands
      | operator => cases starts rfl
    | closing =>
      cases place with
      | operand => exact few_numbers (operators rfl nofun).1
      | operator => exact operators rfl nofun
    | name text =>
      cases place with
      | operand =>
        -- only with an argument does a name stand for an operand
        by_cases call : tokens.head? = some .opening
        · obtain ⟨rest, rfl⟩ := List.head?_eq_some_iff.mp call
          exact operands
        · exact few_numbers (operators rfl fun _ _ => call).1
      | operator => cases starts rfl

end Infix

end DeskCalculator
