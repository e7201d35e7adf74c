import DeskCalculator.Proofs.Fault
import DeskCalculator.Proofs.Postfix.Conversion
set_option autoImplicit false

/-!
# What a postfix order is made of

A postfix order holds the tokens it was made from, parentheses apart, and it exists exactly when the
parentheses have their partners. The stack of a conversion holds tokens that are still to come, and
as many open parentheses as the tokens to come have to close.
-/

namespace DeskCalculator

def Token.isParenthesis : Token → Bool
  | opening | closing => true
  | _ => false

/-- Whether every parenthesis has its partner, `depth` of them being open before the tokens. -/
def Balanced : (depth : Nat) → List Token → Prop
  | depth, [] => depth = 0
  | depth, .opening :: tokens => Balanced (depth + 1) tokens
  | 0, .closing :: _ => False
  | depth + 1, .closing :: tokens => Balanced depth tokens
  | depth, _ :: tokens => Balanced depth tokens

namespace Postfix

def Pending.token? : Pending → Option Token
  | operator op => some (.operator op)
  | group => none
  | call name => some (.name name)

def held (stack : List Pending) : List Token :=
  stack.filterMap Pending.token?

def depth (stack : List Pending) : Nat :=
  stack.countP (!·.isOperator)

theorem emit_eq_held {stack : List Pending} (h : ∀ pending ∈ stack, pending.isOperator = true) :
    emit stack = held stack := by
  induction stack with
  | nil => rfl
  | cons pending stack ih =>
    have rest := ih fun other mem => h other (List.mem_cons_of_mem _ mem)
    cases pending with
    | operator op => exact congrArg (Token.operator op :: ·) rest
    | group | call name => cases h _ List.mem_cons_self

theorem held_append (first second : List Pending) :
    held (first ++ second) = held first ++ held second :=
  List.filterMap_append

theorem isOperator_of_precedes {op : Operator} {pending : Pending}
    (h : pending.precedes op = true) : pending.isOperator = true := by
  cases pending with
  | operator first => rfl
  | group | call name => cases h

theorem held_split (op : Operator) (stack : List Pending) :
    held stack = emit (stack.takeWhile (Pending.precedes op)) ++
      held (stack.dropWhile (Pending.precedes op)) := by
  rw [emit_eq_held, ← held_append, List.takeWhile_append_dropWhile]
  intro pending mem
  exact isOperator_of_precedes (List.all_eq_true.mp List.all_takeWhile pending mem)

theorem depth_dropWhile_precedes (op : Operator) (stack : List Pending) :
    depth (stack.dropWhile (Pending.precedes op)) = depth stack := by
  have split := List.takeWhile_append_dropWhile (p := Pending.precedes op) (l := stack)
  have none : depth (stack.takeWhile (Pending.precedes op)) = 0 := by
    rw [depth, List.countP_eq_zero]
    intro pending mem
    have precedes := List.all_eq_true.mp List.all_takeWhile pending mem
    simp [isOperator_of_precedes precedes]
  have sum := congrArg depth split
  rw [depth, List.countP_append, ← depth, ← depth, none] at sum
  omega

theorem held_close {stack rest : List Pending} {out : List Token}
    (h : close stack = .ok (out, rest)) : held stack = out ++ held rest := by
  induction stack generalizing out with
  | nil => cases h
  | cons pending stack ih =>
    cases pending with
    | operator op =>
      rw [close_operator] at h
      obtain ⟨⟨after, rest⟩, closed, same⟩ := map_eq_ok h
      cases same
      exact congrArg (Token.operator op :: ·) (ih closed)
    | group => cases h; rfl
    | call name => cases h; rfl

theorem depth_close {stack rest : List Pending} {out : List Token}
    (h : close stack = .ok (out, rest)) : depth stack = depth rest + 1 := by
  induction stack generalizing out with
  | nil => cases h
  | cons pending stack ih =>
    cases pending with
    | operator op =>
      rw [close_operator] at h
      obtain ⟨⟨after, rest⟩, closed, same⟩ := map_eq_ok h
      cases same
      exact (List.countP_cons_of_neg (by simp [Pending.isOperator])).trans (ih closed)
    | group => cases h; exact List.countP_cons_of_pos rfl
    | call name => cases h; exact List.countP_cons_of_pos rfl

theorem depth_eq_zero_of_close {stack : List Pending} {fault : Fault}
    (h : close stack = .error fault) : depth stack = 0 := by
  induction stack with
  | nil => rfl
  | cons pending stack ih =>
    cases pending with
    | operator op =>
      rw [close_operator] at h
      have below : close stack = .error fault := by
        rcases closed : close stack with other | out
        · rw [closed] at h
          exact h
        · rw [closed] at h
          cases h
      exact (List.countP_cons_of_neg (by simp [Pending.isOperator])).trans (ih below)
    | group => cases h
    | call name => cases h

theorem finish_eq_ok {stack : List Pending} {out : List Token} (h : finish stack = .ok out) :
    depth stack = 0 ∧ out = held stack := by
  unfold finish at h
  split at h
  · rename_i operators
    cases h
    have all := List.all_eq_true.mp operators
    refine ⟨List.countP_eq_zero.mpr fun pending mem => ?_, emit_eq_held all⟩
    simp [all pending mem]
  · cases h

/-- A postfix order holds what waited before and the tokens to come, parentheses apart. -/
theorem convert_perm {stack : List Pending} {tokens out : List Token}
    (h : convert stack tokens = .ok out) :
    out.Perm (held stack ++ tokens.filter (!·.isParenthesis)) := by
  fun_induction convert stack tokens generalizing out with
  | case1 stack =>
    obtain ⟨-, rfl⟩ := finish_eq_ok h
    simp
  | case2 stack value tokens ih =>
    obtain ⟨after, converted, rfl⟩ := map_eq_ok h
    exact ((ih converted).cons _).trans List.perm_middle.symm
  | case3 stack text tokens ih =>
    exact (ih h).trans List.perm_middle.symm
  | case4 stack text tokens _ ih =>
    obtain ⟨after, converted, rfl⟩ := map_eq_ok h
    exact ((ih converted).cons _).trans List.perm_middle.symm
  | case5 stack op tokens ih =>
    obtain ⟨after, converted, rfl⟩ := map_eq_ok h
    rw [held_split op stack, List.append_assoc]
    exact ((ih converted).trans List.perm_middle.symm).append_left _
  | case6 stack tokens ih => exact ih h
  | case7 stack tokens ih =>
    obtain ⟨⟨carried, rest⟩, closed, converted⟩ := bind_eq_ok h
    change Except.map _ (convert rest tokens) = _ at converted
    obtain ⟨after, rest_converted, rfl⟩ := map_eq_ok converted
    rw [held_close closed, List.append_assoc]
    exact (ih rest rest_converted).append_left carried

/-- A postfix order exists exactly when the parentheses have their partners. -/
theorem convert_isOk_iff (stack : List Pending) (tokens : List Token) :
    (∃ out, convert stack tokens = .ok out) ↔ Balanced (depth stack) tokens := by
  fun_induction convert stack tokens with
  | case1 stack =>
    rw [finish]
    split
    · rename_i operators
      have none : depth stack = 0 := (finish_eq_ok (if_pos operators)).1
      exact ⟨fun _ => none, fun _ => ⟨_, rfl⟩⟩
    · rename_i some
      refine ⟨fun ok => absurd ok not_exists_ok, fun none => absurd ?_ some⟩
      have zero := List.countP_eq_zero.mp none
      exact List.all_eq_true.mpr fun pending mem => by simpa using zero pending mem
  | case2 stack value tokens ih => exact exists_map_eq_ok.trans ih
  | case3 stack text tokens ih =>
    have deeper : depth (.call text :: stack) = depth stack + 1 := List.countP_cons_of_pos rfl
    rw [ih, deeper]
    rfl
  | case4 stack text tokens _ ih => exact exists_map_eq_ok.trans ih
  | case5 stack op tokens ih =>
    have same : depth (.operator op :: stack.dropWhile (Pending.precedes op)) = depth stack :=
      (List.countP_cons_of_neg (by simp [Pending.isOperator])).trans
        (depth_dropWhile_precedes op stack)
    rw [exists_map_eq_ok, ih, same]
    rfl
  | case6 stack tokens ih =>
    have deeper : depth (.group :: stack) = depth stack + 1 := List.countP_cons_of_pos rfl
    rw [ih, deeper]
    rfl
  | case7 stack tokens ih =>
    -- closing fails only when nothing is open, and then nothing balances the parenthesis
    rcases closed : close stack with fault | ⟨carried, rest⟩
    · rw [depth_eq_zero_of_close closed]
      exact ⟨fun ok => absurd ok not_exists_ok, False.elim⟩
    · rw [depth_close closed]
      exact exists_map_eq_ok.trans (ih rest)

end Postfix

end DeskCalculator
