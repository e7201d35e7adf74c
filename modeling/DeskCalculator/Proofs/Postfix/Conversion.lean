import DeskCalculator.Postfix
import Mathlib
set_option autoImplicit false

namespace DeskCalculator.Postfix

theorem map_nil_append (result : Except Fault (List Token)) :
    result.map ([] ++ ·) = result := by
  cases result <;> rfl

theorem map_append_map (first second : List Token) (result : Except Fault (List Token)) :
    (result.map (second ++ ·)).map (first ++ ·) = result.map (first ++ second ++ ·) := by
  cases result <;> simp [Except.map]

theorem power_yieldsTo (first : Operator) : (Operator.binary .power).yieldsTo first = false := by
  cases first with
  | percent => decide
  | binary op => cases op <;> decide

theorem yieldsTo_of_ne {op : Operator} (h : op ≠ .binary .power) (first : Operator) :
    op.yieldsTo first = decide (op.precedence ≤ first.precedence) := by
  have left : op.groupsRight = false := by simpa [Operator.groupsRight] using h
  simp [Operator.yieldsTo, left]

/-- Whether what comes next carries out an operator that is waiting on top of the stack. -/
def CarriesOut (op : Operator) : List Token → Prop
  | [] => True
  | .closing :: _ => True
  | .operator next :: _ => next.yieldsTo op = true
  | _ => False

theorem convert_nil (stack : List Pending) : convert stack [] = finish stack := by
  rw [convert]

theorem convert_number (stack : List Pending) (value : Float) (tokens : List Token) :
    convert stack (.number value :: tokens) =
      (convert stack tokens).map ([.number value] ++ ·) := by
  rw [convert]
  rfl

theorem convert_name (stack : List Pending) (text : String) (tokens : List Token)
    (h : tokens.head? ≠ some .opening) :
    convert stack (.name text :: tokens) = (convert stack tokens).map ([.name text] ++ ·) := by
  rw [convert]
  · rfl
  · rintro rest rfl
    exact h rfl

theorem convert_operator (op : Operator) (stack : List Pending) (tokens : List Token)
    (h : ∀ first ∈ stack.head?, first.precedes op = false) :
    convert stack (.operator op :: tokens) = convert (.operator op :: stack) tokens := by
  rw [convert]
  cases stack with
  | nil => exact map_nil_append _
  | cons first stack =>
    have waits := h first rfl
    rw [List.takeWhile_cons_of_neg (by simp [waits]), List.dropWhile_cons_of_neg (by simp [waits])]
    exact map_nil_append _

theorem convert_power (stack : List Pending) (tokens : List Token) :
    convert stack (.operator (.binary .power) :: tokens) =
      convert (.operator (.binary .power) :: stack) tokens := by
  apply convert_operator
  intro first _
  cases first with
  | operator waiting => exact power_yieldsTo waiting
  | group | call => rfl

theorem convert_opening (stack : List Pending) (tokens : List Token) :
    convert stack (.opening :: tokens) = convert (.group :: stack) tokens := by
  rw [convert]

theorem convert_call (stack : List Pending) (name : String) (tokens : List Token) :
    convert stack (.name name :: .opening :: tokens) = convert (.call name :: stack) tokens := by
  rw [convert]

theorem convert_group_closing (stack : List Pending) (tokens : List Token) :
    convert (.group :: stack) (.closing :: tokens) = convert stack tokens := by
  rw [convert]
  exact map_nil_append _

theorem convert_call_closing (name : String) (stack : List Pending) (tokens : List Token) :
    convert (.call name :: stack) (.closing :: tokens) =
      (convert stack tokens).map ([.name name] ++ ·) := by
  rw [convert]
  rfl

theorem close_operator (op : Operator) (stack : List Pending) :
    close (.operator op :: stack) =
      (close stack).map fun out => (.operator op :: out.1, out.2) := by
  have drop : (Pending.operator op :: stack).dropWhile Pending.isOperator =
      stack.dropWhile Pending.isOperator := List.dropWhile_cons_of_pos rfl
  have take : (Pending.operator op :: stack).takeWhile Pending.isOperator =
      .operator op :: stack.takeWhile Pending.isOperator := List.takeWhile_cons_of_pos rfl
  rw [close, close, drop, take]
  rcases stack.dropWhile Pending.isOperator with _ | ⟨_ | _ | _, rest⟩ <;> rfl

theorem convert_waiting (op : Operator) (stack : List Pending) {tokens : List Token}
    (h : CarriesOut op tokens) :
    convert (.operator op :: stack) tokens = (convert stack tokens).map ([.operator op] ++ ·) := by
  match tokens, h with
  | [], _ =>
    rw [convert_nil, convert_nil, finish, finish]
    simp only [List.all_cons, Pending.isOperator, Bool.true_and]
    split <;> rfl
  | .closing :: tokens, _ =>
    rw [convert, convert, close_operator]
    rcases close stack with fault | ⟨out, rest⟩
    · rfl
    · exact (map_append_map [.operator op] out (convert rest tokens)).symm
  | .operator next :: tokens, yields =>
    have precedes : (Pending.operator op).precedes next = true := yields
    rw [convert, convert, List.takeWhile_cons_of_pos precedes, List.dropWhile_cons_of_pos precedes,
      map_append_map]
    rfl

end DeskCalculator.Postfix
