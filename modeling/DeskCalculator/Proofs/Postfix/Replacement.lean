import DeskCalculator.Proofs.Postfix.Running
import DeskCalculator.Proofs.Prefix
set_option autoImplicit false

/-!
# A parenthesised part can be replaced by its value

What stands between two parentheses is put in postfix order as it would be alone: the stack below
the opening one is not touched, and what comes out is not mixed with anything else. Running it does
not touch the values that were there before. So nothing but its value matters to the rest.
-/

namespace DeskCalculator.Postfix

def value (angle : Angle) (tokens : List Token) : Except Fault Float := do
  evaluate angle (← ofTokens tokens)

def Pending.closed : Pending → List Token
  | operator _ | group => []
  | call name => [.name name]

def Pending.opened : Pending → List Token
  | operator _ => []
  | group => [.opening]
  | call name => [.name name, .opening]

/-- Whether `bar` is what its tokens put on the stack behind the tokens `before`: behind a name, a
parenthesis is that of an argument. -/
def Pending.FitsBehind (bar : Pending) (before : List Token) : Prop :=
  bar = .group → ∀ text, ¬ [.name text] <:+ before

section

variable {bar : Pending} {inner below : List Pending}

theorem close_append {out : List Token} {rest : List Pending}
    (h : close inner = .ok (out, rest)) (below : List Pending) :
    close (inner ++ below) = .ok (out, rest ++ below) := by
  induction inner generalizing out with
  | nil => cases h
  | cons pending inner ih =>
    cases pending with
    | operator op =>
      rw [close_operator] at h
      obtain ⟨⟨after, rest⟩, closed, same⟩ := map_eq_ok h
      cases same
      rw [List.cons_append, close_operator, ih closed]
      rfl
    | group | call name => cases h; rfl

theorem close_bar (enclosing : bar.isOperator = false) {out : List Token}
    (h : finish inner = .ok out) :
    close (inner ++ bar :: below) = .ok (out ++ bar.closed, below) := by
  unfold finish at h
  split at h
  · rename_i operators
    cases h
    have all := List.all_eq_true.mp operators
    rw [close, List.dropWhile_append_of_pos all, List.takeWhile_append_of_pos all,
      List.dropWhile_cons_of_neg (by simp [enclosing]),
      List.takeWhile_cons_of_neg (by simp [enclosing]), List.append_nil]
    cases bar with
    | operator op => cases enclosing
    | group => exact congrArg (fun out => Except.ok (out, below)) (List.append_nil _).symm
    | call name => rfl
  · cases h

theorem convert_inside (enclosing : bar.isOperator = false) {tokens out : List Token}
    (h : convert inner tokens = .ok out) (rest : List Token) :
    convert (inner ++ bar :: below) (tokens ++ .closing :: rest) =
      (convert below rest).map (out ++ bar.closed ++ ·) := by
  have waits : ∀ op, ¬ bar.precedes op = true :=
    fun op precedes => by cases enclosing.symm.trans (isOperator_of_precedes precedes)
  fun_induction convert inner tokens generalizing out with
  | case1 inner =>
    rw [List.nil_append, convert, close_bar enclosing h]
    rfl
  | case2 inner value tokens ih =>
    obtain ⟨after, converted, rfl⟩ := map_eq_ok h
    rw [List.cons_append, convert_number, ih converted, map_append_map]
    rfl
  | case3 inner text tokens ih =>
    rw [List.cons_append, List.cons_append, convert_call]
    exact ih h
  | case4 inner text tokens noCall ih =>
    obtain ⟨after, converted, rfl⟩ := map_eq_ok h
    have bare : (tokens ++ .closing :: rest).head? ≠ some .opening := by
      cases tokens with
      | nil =>
        intro opening
        cases opening
      | cons token tokens =>
        intro opening
        cases Option.some.inj opening
        exact noCall tokens rfl
    rw [List.cons_append, convert_name _ _ _ bare, ih converted, map_append_map]
    rfl
  | case5 inner op tokens ih =>
    obtain ⟨after, converted, rfl⟩ := map_eq_ok h
    have deeper := ih converted
    rw [List.cons_append] at deeper
    rw [List.cons_append, convert, takeWhile_append_stop (List.takeWhile_cons_of_neg (waits op)),
      dropWhile_append_stop (List.dropWhile_cons_of_neg (waits op)), deeper, map_append_map]
    simp only [List.append_assoc]
  | case6 inner tokens ih =>
    rw [List.cons_append, convert_opening]
    exact ih h
  | case7 inner tokens ih =>
    obtain ⟨⟨carried, waiting⟩, closed, others⟩ := bind_eq_ok h
    change Except.map _ (convert waiting tokens) = _ at others
    obtain ⟨after, converted, rfl⟩ := map_eq_ok others
    rw [List.cons_append, convert, close_append closed]
    change Except.map _ (convert (waiting ++ bar :: below) _) = _
    rw [ih waiting converted, map_append_map]
    simp only [List.append_assoc]

theorem Pending.FitsBehind.tail {token : Token} {before : List Token}
    (fits : bar.FitsBehind (token :: before)) : bar.FitsBehind before :=
  fun group text ending => fits group text (ending.trans (List.suffix_cons token before))

theorem convert_opened (enclosing : bar.isOperator = false) (tokens : List Token) :
    convert below (bar.opened ++ tokens) = convert (bar :: below) tokens := by
  cases bar with
  | operator op => cases enclosing
  | group => exact convert_opening below tokens
  | call name => exact convert_call below name tokens

/-- What is enclosed in parentheses comes out in one piece, followed by its function, and what comes
before and after it does not depend on it. -/
theorem convert_enclosed (bar : Pending) (enclosing : bar.isOperator = false)
    (stack : List Pending) (before rest : List Token)
    (fits : bar.FitsBehind before) :
    ∃ (first : List Token) (last : Except Fault (List Token)), ∀ {inner out : List Token},
      convert [] inner = .ok out →
        convert stack (before ++ (bar.opened ++ (inner ++ .closing :: rest))) =
          last.map (first ++ (out ++ bar.closed) ++ ·) := by
  fun_induction convert stack before with
  | case1 stack =>
    refine ⟨[], convert stack rest, fun converted => ?_⟩
    rw [List.nil_append, convert_opened enclosing]
    exact @convert_inside bar [] stack enclosing _ _ converted rest
  | case2 stack value before ih =>
    obtain ⟨first, last, around⟩ := ih fits.tail
    refine ⟨.number value :: first, last, fun converted => ?_⟩
    rw [List.cons_append, convert_number, around converted, map_append_map]
    rfl
  | case3 stack text before ih =>
    obtain ⟨first, last, around⟩ := ih fits.tail.tail
    refine ⟨first, last, fun converted => ?_⟩
    rw [List.cons_append, List.cons_append, convert_call]
    exact around converted
  | case4 stack text before noCall ih =>
    obtain ⟨first, last, around⟩ := ih fits.tail
    refine ⟨.name text :: first, last, fun {inner out} converted => ?_⟩
    have bare : (before ++ (bar.opened ++ (inner ++ .closing :: rest))).head? ≠ some .opening := by
      intro opening
      cases before with
      | nil =>
        cases bar with
        | operator op => cases enclosing
        | group => exact fits rfl text List.suffix_rfl
        | call name => cases opening
      | cons token before =>
        cases Option.some.inj opening
        exact noCall before rfl
    rw [List.cons_append, convert_name _ _ _ bare, around converted, map_append_map]
    rfl
  | case5 stack op before ih =>
    obtain ⟨first, last, around⟩ := ih fits.tail
    refine ⟨emit (stack.takeWhile (Pending.precedes op)) ++ first, last, fun converted => ?_⟩
    rw [List.cons_append, convert, around converted, map_append_map]
    simp only [List.append_assoc]
  | case6 stack before ih =>
    obtain ⟨first, last, around⟩ := ih fits.tail
    refine ⟨first, last, fun converted => ?_⟩
    rw [List.cons_append, convert_opening]
    exact around converted
  | case7 stack before ih =>
    rcases closed : close stack with fault | ⟨carried, waiting⟩
    · refine ⟨[], .error fault, fun _ => ?_⟩
      rw [List.cons_append, convert, closed]
      rfl
    · obtain ⟨first, last, around⟩ := ih waiting fits.tail
      refine ⟨carried ++ first, last, fun converted => ?_⟩
      rw [List.cons_append, convert, closed]
      change Except.map _ (convert waiting _) = _
      rw [around converted, map_append_map]
      simp only [List.append_assoc]

end

theorem convert_around (stack : List Pending) (before rest : List Token) :
    ∃ (first : List Token) (last : Except Fault (List Token)), ∀ {inner out : List Token},
      convert [] inner = .ok out →
        convert stack (before ++ .opening :: (inner ++ .closing :: rest)) =
          last.map (first ++ out ++ ·) := by
  by_cases called : ∃ text, [.name text] <:+ before
  · -- the parenthesis is that of an argument
    obtain ⟨text, front, rfl⟩ := called
    obtain ⟨first, last, around⟩ := convert_enclosed (.call text) rfl stack front rest nofun
    refine ⟨first, last.map ([.name text] ++ ·), fun converted => ?_⟩
    rw [map_append_map, List.append_assoc, List.append_assoc first]
    exact around converted
  · have fits : Pending.group.FitsBehind before := fun _ text ending => called ⟨text, ending⟩
    obtain ⟨first, last, around⟩ := convert_enclosed .group rfl stack before rest fits
    refine ⟨first, last, fun {inner out} converted => ?_⟩
    have group := around converted
    rwa [Pending.closed, List.append_nil] at group

variable {angle : Angle}

theorem step_append {stack after : List Float} {token : Token}
    (h : step angle stack token = .ok after) (below : List Float) :
    step angle (stack ++ below) token = .ok (after ++ below) := by
  cases token with
  | number value => cases h; rfl
  | operator op =>
    cases op with
    | percent =>
      cases stack with
      | nil => cases h
      | cons a rest => cases h; rfl
    | binary op =>
      match stack with
      | [] | [_] => cases h
      | b :: a :: rest =>
        rw [step_binary] at h
        obtain ⟨value, applied, rfl⟩ := map_eq_ok h
        rw [List.cons_append, List.cons_append, step_binary, applied]
        rfl
  | opening | closing => cases h
  | name text =>
    rw [step] at h ⊢
    cases named : UnaryFunction.named? text with
    | none =>
      rw [named] at h
      cases h
    | some function =>
      rw [named] at h
      cases stack with
      | nil => cases h
      | cons a rest => cases h; rfl

theorem run_append_stack {stack after : List Float} {tokens : List Token}
    (h : run angle stack tokens = .ok after) (below : List Float) :
    run angle (stack ++ below) tokens = .ok (after ++ below) := by
  induction tokens generalizing stack with
  | nil => cases h; rfl
  | cons token tokens ih =>
    rw [run_cons] at h ⊢
    obtain ⟨middle, stepped, ran⟩ := bind_eq_ok h
    rw [step_append stepped]
    exact ih ran

theorem run_of_evaluate {tokens : List Token} {v : Float} (h : evaluate angle tokens = .ok v)
    (below : List Float) : run angle below tokens = .ok (v :: below) :=
  run_append_stack (evaluate_eq_ok h) below

theorem value_eq_ok {tokens : List Token} {v : Float} (h : value angle tokens = .ok v) :
    ∃ ordered, convert [] tokens = .ok ordered ∧ evaluate angle ordered = .ok v :=
  bind_eq_ok h

theorem value_call_eq_ok_iff {name : String} {function : UnaryFunction}
    (named : UnaryFunction.named? name = some function) {argument out : List Token}
    (converted : convert [] argument = .ok out) (v : Float) :
    value angle (.name name :: .opening :: argument ++ [.closing]) = .ok v ↔
      ∃ a, value angle argument = .ok a ∧ v = function.apply angle a := by
  have call := @convert_inside (.call name) [] [] rfl _ _ converted []
  have applied : ∀ a, step angle [a] (.name name) = .ok [function.apply angle a] := by
    intro a
    rw [step, named]
  rw [value, ofTokens, List.cons_append, List.cons_append, convert_call]
  change (convert ([] ++ [.call name]) _ >>= evaluate angle) = _ ↔ _
  rw [call]
  change evaluate angle (out ++ [.name name] ++ []) = _ ↔ _
  rw [List.append_nil, evaluate, run_append]
  constructor
  · intro worked
    obtain ⟨after, whole, last⟩ := bind_eq_ok worked
    obtain ⟨stack, ran, stepped⟩ := bind_eq_ok whole
    rw [run_singleton] at stepped
    rcases stack with _ | ⟨a, _ | ⟨b, rest⟩⟩
    · rw [step, named] at stepped
      cases stepped
    · rw [applied] at stepped
      cases stepped
      cases last
      refine ⟨a, ?_, rfl⟩
      rw [value, ofTokens, converted]
      change single =<< run angle [] out = _
      rw [ran]
      rfl
    · rw [step, named] at stepped
      cases stepped
      cases last
  · rintro ⟨a, argued, rfl⟩
    obtain ⟨ordered, same, evaluated⟩ := value_eq_ok argued
    cases converted.symm.trans same
    rw [run_of_evaluate evaluated]
    change single =<< run angle [a] [.name name] = _
    rw [run_singleton, applied]
    rfl

/-- A part in parentheses that has a value of its own can be replaced by this value, whatever stands
around it: the whole has the same value or the same fault. -/
theorem value_replaced (before inner rest : List Token) (v : Float)
    (h : value angle inner = .ok v) :
    value angle (before ++ [.opening] ++ inner ++ [.closing] ++ rest) =
      value angle (before ++ [.opening, .number v, .closing] ++ rest) := by
  obtain ⟨ordered, converted, evaluated⟩ := value_eq_ok h
  obtain ⟨first, last, around⟩ := convert_around [] before rest
  have alone : convert [] [.number v] = .ok [.number v] := rfl
  have part := around converted
  have number := around alone
  simp only [List.append_assoc, List.cons_append, List.nil_append]
    at part number ⊢
  rw [value, value, ofTokens, ofTokens, part, number]
  cases last with
  | error fault => rfl
  | ok last =>
    -- both runs have the same stack before the part, and the same one after it
    change evaluate angle (first ++ (ordered ++ last)) = evaluate angle (first ++ (.number v :: last))
    rw [evaluate, evaluate, run_append, run_append]
    cases run angle [] first with
    | error fault => rfl
    | ok stack =>
      change single =<< run angle stack (ordered ++ last) =
        single =<< run angle stack (.number v :: last)
      rw [run_append, run_of_evaluate evaluated]
      rfl

/-- In `sqrt(1+3)*` the argument of the root is replaced, and an operand is missing all the same. -/
theorem value_replaced_argument : ∃ v,
    value .degrees [.number 1.0, .operator (.binary .plus), .number 3.0] = .ok v ∧
      value .degrees ([.name "sqrt"] ++ [.opening] ++
          [.number 1.0, .operator (.binary .plus), .number 3.0] ++ [.closing] ++
          [.operator (.binary .times)]) =
        value .degrees
          ([.name "sqrt"] ++ [.opening, .number v, .closing] ++ [.operator (.binary .times)]) :=
  ⟨1.0 + 3.0, rfl, value_replaced [.name "sqrt"] _ [.operator (.binary .times)] _ rfl⟩

end DeskCalculator.Postfix
