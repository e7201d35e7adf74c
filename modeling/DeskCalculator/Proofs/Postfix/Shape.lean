import DeskCalculator.Proofs.Postfix.Running
set_option autoImplicit false

namespace DeskCalculator

namespace Token

/-- Why the token cannot be carried out on `height` values, if it cannot whatever they are. A name
is looked up before values are taken. -/
def fault? (height : Int) : Token → Option Fault
  | number _ => none
  | operator .percent => if height < 1 then some (.missingOperands "%") else none
  | operator (.binary op) => if height < 2 then some (.missingOperands op.symbol) else none
  | name text =>
    if UnaryFunction.named? text = none then some (.unknownSymbol text)
    else if height < 1 then some (.missingOperands text)
    else none
  | opening => some (.unknownSymbol "(")
  | closing => some (.unknownSymbol ")")

theorem fault?_eq_some {height : Int} {token : Token} {fault : Fault}
    (h : token.fault? height = some fault) : (∃ symbol, fault = .missingOperands symbol) ∨
      ∃ symbol, fault = .unknownSymbol symbol ∧
        (token.isParenthesis = true ∨ token = .name symbol) := by
  cases token with
  | number value => cases h
  | operator op =>
    cases op with
    | percent =>
      rw [fault?, Option.ite_none_right_eq_some] at h
      exact .inl ⟨_, (Option.some.inj h.2).symm⟩
    | binary op =>
      rw [fault?, Option.ite_none_right_eq_some] at h
      exact .inl ⟨_, (Option.some.inj h.2).symm⟩
  | name text =>
    rw [fault?] at h
    split at h
    · cases h
      exact .inr ⟨text, rfl, .inr rfl⟩
    · rw [Option.ite_none_right_eq_some] at h
      exact .inl ⟨text, (Option.some.inj h.2).symm⟩
  | opening =>
    cases h
    exact .inr ⟨"(", rfl, .inl rfl⟩
  | closing =>
    cases h
    exact .inr ⟨")", rfl, .inl rfl⟩

theorem takes_of_no_fault {height : Int} {token : Token} (nonnegative : 0 ≤ height)
    (sound : token.fault? height = none) :
    1 + (token.isBinary.toNat : Int) ≤ height + token.isNumber.toNat := by
  unfold fault? at sound
  split at sound
  · change (1 : Int) + 0 ≤ height + 1
    omega
  · split at sound
    · cases sound
    · change (1 : Int) + 0 ≤ height + 0
      omega
  · split at sound
    · cases sound
    · change (1 : Int) + 1 ≤ height + 0
      omega
  · split at sound
    · cases sound
    · split at sound
      · cases sound
      · change (1 : Int) + 0 ≤ height + 0
        omega
  · cases sound
  · cases sound

def shape : Token → Token
  | number _ => number 0.0
  | token => token

theorem fault?_shape (height : Int) (token : Token) :
    token.shape.fault? height = token.fault? height := by
  cases token <;> rfl

theorem isNumber_shape (token : Token) : token.shape.isNumber = token.isNumber := by
  cases token <;> rfl

theorem isBinary_shape (token : Token) : token.shape.isBinary = token.isBinary := by
  cases token <;> rfl

end Token

namespace Postfix

/-- The numbers less the binary operators: what the tokens leave on an empty stack. -/
def height (tokens : List Token) : Int :=
  tokens.countP Token.isNumber - tokens.countP Token.isBinary

/-- Whether each token finds the values it needs, and names are those of functions. -/
def FaultFree (tokens : List Token) : Prop :=
  ∀ before token after, tokens = before ++ token :: after → token.fault? (height before) = none

def FirstFault (tokens : List Token) (fault : Fault) : Prop :=
  ∃ before token after, tokens = before ++ token :: after ∧ FaultFree before ∧
    token.fault? (height before) = some fault

def DividesByZero (stack : List Float) (token : Token) : Prop :=
  ∃ op divisor dividend rest, token = .operator (.binary op) ∧ (op = .divide ∨ op = .modulo) ∧
    stack = divisor :: dividend :: rest ∧ (divisor == 0.0) = true

/-- Whether a token that divides by zero is carried out before any token is faulty. -/
def MeetsZeroDivisor (angle : Angle) (tokens : List Token) : Prop :=
  ∃ before token after stack, tokens = before ++ token :: after ∧ FaultFree (before ++ [token]) ∧
    run angle [] before = .ok stack ∧ DividesByZero stack token

section

variable {angle : Angle} {stack : List Float} {token : Token} {fault : Fault}

theorem step_of_fault (h : token.fault? stack.length = some fault) :
    step angle stack token = .error fault := by
  unfold Token.fault? at h
  split at h
  · cases h
  · split at h
    · rename_i few
      cases h
      obtain rfl : stack = [] := List.length_eq_zero_iff.mp (by omega)
      rfl
    · cases h
  · rename_i op
    split at h
    · rename_i few
      cases h
      match stack, few with
      | [], _ | [_], _ => rfl
      | _ :: _ :: _, few => simp only [List.length_cons] at few; omega
    · cases h
  · rename_i text
    split at h
    · rename_i unnamed
      cases h
      rw [step, unnamed]
    · rename_i named
      obtain ⟨function, named⟩ := Option.ne_none_iff_exists'.mp named
      split at h
      · rename_i few
        cases h
        obtain rfl : stack = [] := List.length_eq_zero_iff.mp (by omega)
        rw [step, named]
      · cases h
  · cases h
    rfl
  · cases h
    rfl

theorem apply_isOk_or_dividesByZero (op : BinaryOperator) (divisor dividend : Float)
    (rest : List Float) : (∃ value, op.apply dividend divisor = .ok value) ∨
      (DividesByZero (divisor :: dividend :: rest) (.operator (.binary op)) ∧
        op.apply dividend divisor = .error .divisionByZero) := by
  cases zero : divisor == 0.0 with
  | false => cases op <;> simp [BinaryOperator.apply, zero]
  | true =>
    cases op with
    | divide => exact .inr ⟨⟨_, _, _, _, rfl, .inl rfl, rfl, zero⟩, if_pos zero⟩
    | modulo => exact .inr ⟨⟨_, _, _, _, rfl, .inr rfl, rfl, zero⟩, if_pos zero⟩
    | plus | minus | times | power => exact .inl ⟨_, rfl⟩

theorem step_of_no_fault (angle : Angle) (h : token.fault? stack.length = none) :
    (∃ after, step angle stack token = .ok after) ∨
      (DividesByZero stack token ∧ step angle stack token = .error .divisionByZero) := by
  unfold Token.fault? at h
  split at h
  · exact .inl ⟨_, rfl⟩
  · split at h
    · cases h
    · rename_i enough
      cases stack with
      | nil => exact absurd Int.one_pos enough
      | cons a rest => exact .inl ⟨_, rfl⟩
  · rename_i op
    split at h
    · cases h
    · rename_i enough
      match stack, enough with
      | [], enough | [_], enough => exact absurd (by simp) enough
      | divisor :: dividend :: rest, _ =>
        rw [step_binary]
        rcases apply_isOk_or_dividesByZero op divisor dividend rest with
          ⟨value, applied⟩ | ⟨zero, failed⟩
        · exact .inl ⟨value :: rest, by rw [applied]; rfl⟩
        · exact .inr ⟨zero, by rw [failed]; rfl⟩
  · split at h
    · cases h
    · rename_i named
      obtain ⟨function, named⟩ := Option.ne_none_iff_exists'.mp named
      split at h
      · cases h
      · rename_i enough
        cases stack with
        | nil => exact absurd Int.one_pos enough
        | cons a rest => exact .inl ⟨function.apply angle a :: rest, by rw [step, named]⟩
  · cases h
  · cases h

theorem step_of_dividesByZero (angle : Angle) (zero : DividesByZero stack token) :
    step angle stack token = .error .divisionByZero := by
  obtain ⟨op, divisor, dividend, rest, rfl, divides, rfl, zero⟩ := zero
  have fails : op.apply dividend divisor = .error .divisionByZero := by
    rcases divides with rfl | rfl <;> exact if_pos zero
  rw [step_binary, fails]
  rfl

theorem fault_of_step (h : step angle stack token = .error fault) :
    fault = .divisionByZero ∨ token.fault? stack.length = some fault := by
  cases faulty : token.fault? stack.length with
  | some other => exact .inr (congrArg some (Except.error.inj ((step_of_fault faulty).symm.trans h)))
  | none =>
    rcases step_of_no_fault angle faulty with ⟨after, stepped⟩ | ⟨-, failed⟩
    · cases stepped.symm.trans h
    · exact .inl (Except.error.inj (h.symm.trans failed))

end

section

variable {angle : Angle} {tokens : List Token} {fault : Fault}

/-- What is wrong with a run is a zero divisor or the fault of one of its tokens. -/
theorem fault_of_run {stack : List Float} (h : run angle stack tokens = .error fault) :
    fault = .divisionByZero ∨ ∃ token ∈ tokens, ∃ height, token.fault? height = some fault := by
  induction tokens generalizing stack with
  | nil => cases h
  | cons token tokens ih =>
    rw [run_cons] at h
    cases stepped : step angle stack token with
    | error other =>
      rw [stepped] at h
      cases h
      exact (fault_of_step stepped).imp_right fun faulty => ⟨token, List.mem_cons_self, _, faulty⟩
    | ok after =>
      rw [stepped] at h
      exact (ih h).imp_right fun ⟨other, mem, faulty⟩ =>
        ⟨other, List.mem_cons_of_mem _ mem, faulty⟩

theorem evaluate_of_run_error (failed : run angle [] tokens = .error fault) :
    evaluate angle tokens = .error fault := by
  rw [evaluate, failed]
  rfl

theorem evaluate_of_run_ok {stack : List Float} (ran : run angle [] tokens = .ok stack) :
    evaluate angle tokens = single stack := by
  rw [evaluate, ran]
  rfl

theorem fault_of_evaluate (h : evaluate angle tokens = .error fault) :
    fault = .divisionByZero ∨ (∃ count, fault = .leftoverValues count) ∨
      ∃ token ∈ tokens, ∃ height, token.fault? height = some fault := by
  cases ran : run angle [] tokens with
  | error other =>
    rw [evaluate_of_run_error ran] at h
    cases h
    exact (fault_of_run ran).imp_right .inr
  | ok stack =>
    rw [evaluate_of_run_ok ran] at h
    unfold single at h
    split at h
    · cases h
    · cases h
      exact .inr (.inl ⟨_, rfl⟩)

theorem height_of_run {stack : List Float} (ran : run angle [] tokens = .ok stack) :
    (stack.length : Int) = height tokens := by
  have count := run_length ran
  rw [List.length_nil] at count
  rw [height]
  omega

theorem FaultFree.nil : FaultFree [] := by
  intro before token after split
  cases List.append_ne_nil_of_right_ne_nil before (List.cons_ne_nil token after) split.symm

theorem FaultFree.of_append {more : List Token} (free : FaultFree (tokens ++ more)) :
    FaultFree tokens := by
  rintro before token after rfl
  apply free before token (after ++ more)
  rw [List.append_assoc, List.cons_append]

theorem FaultFree.append_singleton {token : Token} (free : FaultFree tokens)
    (sound : token.fault? (height tokens) = none) : FaultFree (tokens ++ [token]) := by
  intro before other after split
  rcases List.eq_nil_or_concat after with rfl | ⟨between, last, rfl⟩
  · obtain ⟨rfl, same⟩ := List.append_inj' split rfl
    cases same
    exact sound
  · rw [List.concat_eq_append, ← List.cons_append, ← List.append_assoc] at split
    exact free before other between (List.append_inj' split rfl).1

theorem height_append_singleton (tokens : List Token) (token : Token) :
    height (tokens ++ [token]) =
      height tokens + token.isNumber.toNat - token.isBinary.toNat := by
  have numbers : [token].countP Token.isNumber = token.isNumber.toNat := by
    cases number : token.isNumber <;> simp [number]
  have binaries : [token].countP Token.isBinary = token.isBinary.toNat := by
    cases binary : token.isBinary <;> simp [binary]
  rw [height, height, List.countP_append, List.countP_append, numbers, binaries]
  omega

theorem one_le_height_append {token : Token} (nonnegative : 0 ≤ height tokens)
    (sound : token.fault? (height tokens) = none) : 1 ≤ height (tokens ++ [token]) := by
  have takes := Token.takes_of_no_fault nonnegative sound
  rw [height_append_singleton]
  omega

theorem FaultFree.one_le_height (free : FaultFree tokens) (some : tokens ≠ []) :
    1 ≤ height tokens := by
  induction tokens using List.reverseRecOn with
  | nil => exact absurd rfl some
  | append_singleton before token ih =>
    have nonnegative : 0 ≤ height before := by
      by_cases none : before = []
      · rw [none]
        exact Int.le_refl 0
      · exact Int.le_trans (by decide) (ih free.of_append none)
    exact one_le_height_append nonnegative (free before token [] rfl)

theorem FirstFault.append (first : FirstFault tokens fault) (more : List Token) :
    FirstFault (tokens ++ more) fault := by
  obtain ⟨before, token, after, rfl, free, faulty⟩ := first
  exact ⟨before, token, after ++ more, by rw [List.append_assoc, List.cons_append], free, faulty⟩

theorem MeetsZeroDivisor.append (meets : MeetsZeroDivisor angle tokens) (more : List Token) :
    MeetsZeroDivisor angle (tokens ++ more) := by
  obtain ⟨before, token, after, stack, rfl, rest⟩ := meets
  exact ⟨before, token, after ++ more, stack, by rw [List.append_assoc, List.cons_append], rest⟩

theorem faultFree_or_firstFault (tokens : List Token) :
    FaultFree tokens ∨ ∃ fault, FirstFault tokens fault := by
  induction tokens using List.reverseRecOn with
  | nil => exact .inl .nil
  | append_singleton tokens token ih =>
    rcases ih with free | ⟨fault, first⟩
    · cases faulty : token.fault? (height tokens) with
      | none => exact .inl (free.append_singleton faulty)
      | some fault => exact .inr ⟨fault, tokens, token, [], rfl, free, faulty⟩
    · exact .inr ⟨fault, first.append [token]⟩

theorem run_of_meetsZeroDivisor (meets : MeetsZeroDivisor angle tokens) :
    run angle [] tokens = .error .divisionByZero := by
  obtain ⟨before, token, after, stack, rfl, -, ran, zero⟩ := meets
  rw [run_append, ran]
  change run angle stack (token :: after) = _
  rw [run_cons, step_of_dividesByZero angle zero]
  rfl

theorem run_of_faultFree (angle : Angle) (free : FaultFree tokens) :
    (∃ stack, run angle [] tokens = .ok stack) ∨ MeetsZeroDivisor angle tokens := by
  -- by the last token: all before it have been carried out, so the stack has the height they give
  induction tokens using List.reverseRecOn with
  | nil => exact .inl ⟨[], rfl⟩
  | append_singleton before token ih =>
    rcases ih free.of_append with ⟨stack, ran⟩ | meets
    · have sound : token.fault? stack.length = none := by
        rw [height_of_run ran]
        exact free before token [] rfl
      have last : run angle [] (before ++ [token]) = step angle stack token := by
        rw [run_append, ran]
        exact run_singleton angle stack token
      rw [last]
      exact (step_of_no_fault angle sound).imp_right fun failed =>
        ⟨before, token, [], stack, rfl, free, ran, failed.1⟩
    · exact .inr (meets.append [token])

/-- The first fault ends the run, unless a divisor is zero before it. -/
theorem run_of_firstFault (angle : Angle) (first : FirstFault tokens fault) :
    run angle [] tokens = .error fault ∨ MeetsZeroDivisor angle tokens := by
  obtain ⟨before, token, after, rfl, free, faulty⟩ := first
  rcases run_of_faultFree angle free with ⟨stack, ran⟩ | meets
  · left
    rw [← height_of_run ran] at faulty
    rw [run_append, ran]
    change run angle stack (token :: after) = _
    rw [run_cons, step_of_fault faulty]
    rfl
  · exact .inr (meets.append (token :: after))

end

section

variable {tokens other : List Token}

theorem height_map_shape (tokens : List Token) : height (tokens.map Token.shape) = height tokens := by
  have numbers : Token.isNumber ∘ Token.shape = Token.isNumber := funext Token.isNumber_shape
  have binaries : Token.isBinary ∘ Token.shape = Token.isBinary := funext Token.isBinary_shape
  rw [height, height, List.countP_map, List.countP_map, numbers, binaries]

theorem height_congr (same : tokens.map Token.shape = other.map Token.shape) :
    height tokens = height other := by
  rw [← height_map_shape, same, height_map_shape]

theorem fault?_congr {first second : Token} (same : first.shape = second.shape) (height : Int) :
    first.fault? height = second.fault? height := by
  rw [← Token.fault?_shape, same, Token.fault?_shape]

theorem exists_split_of_shape {before after : List Token} {token : Token}
    (same : tokens.map Token.shape = (before ++ token :: after).map Token.shape) :
    ∃ first middle last, tokens = first ++ middle :: last ∧
      first.map Token.shape = before.map Token.shape ∧ middle.shape = token.shape := by
  rw [List.map_append, List.map_cons] at same
  obtain ⟨first, rest, rfl, sameFirst, sameRest⟩ := List.map_eq_append_iff.mp same
  obtain ⟨middle, last, rfl, sameMiddle, -⟩ := List.map_eq_cons_iff.mp sameRest
  exact ⟨first, middle, last, rfl, sameFirst, sameMiddle⟩

theorem FaultFree.of_shape (same : tokens.map Token.shape = other.map Token.shape)
    (free : FaultFree tokens) : FaultFree other := by
  rintro before token after rfl
  obtain ⟨first, middle, last, split, sameFirst, sameMiddle⟩ := exists_split_of_shape same
  rw [← height_congr sameFirst, ← fault?_congr sameMiddle]
  exact free first middle last split

theorem FirstFault.of_shape {fault : Fault} (same : tokens.map Token.shape = other.map Token.shape)
    (first : FirstFault other fault) : FirstFault tokens fault := by
  obtain ⟨before, token, after, rfl, free, faulty⟩ := first
  obtain ⟨first, middle, last, split, sameFirst, sameMiddle⟩ := exists_split_of_shape same
  rw [← height_congr sameFirst, ← fault?_congr sameMiddle] at faulty
  exact ⟨first, middle, last, split, free.of_shape sameFirst.symm, faulty⟩

end

section

variable {angle : Angle} {tokens : List Token}

theorem evaluate_of_firstFault {fault : Fault} (nonzero : ¬ MeetsZeroDivisor angle tokens)
    (first : FirstFault tokens fault) : evaluate angle tokens = .error fault :=
  evaluate_of_run_error ((run_of_firstFault angle first).resolve_right nonzero)

theorem evaluate_of_faultFree (nonzero : ¬ MeetsZeroDivisor angle tokens)
    (free : FaultFree tokens) :
    (height tokens = 1 → ∃ value, evaluate angle tokens = .ok value) ∧
    (height tokens ≠ 1 → ∃ count : Nat, (count : Int) = height tokens ∧
      evaluate angle tokens = .error (.leftoverValues count)) := by
  obtain ⟨stack, ran⟩ := (run_of_faultFree angle free).resolve_right nonzero
  have length := height_of_run ran
  rw [evaluate_of_run_ok ran, ← length]
  match stack with
  | [value] => exact ⟨fun _ => ⟨value, rfl⟩, fun other => absurd rfl other⟩
  | [] => exact ⟨nofun, fun _ => ⟨0, rfl, rfl⟩⟩
  | a :: b :: rest =>
    refine ⟨fun one => ?_, fun _ => ⟨_, rfl, rfl⟩⟩
    simp only [List.length_cons] at one
    omega

/-- A division by zero that is carried out before any token is faulty is the fault of the whole.
Otherwise the first faulty token decides, and if there is none, the number of values that are left.
So orders that differ in their numbers only, and divide by no zero, both have a value or both have
the same fault. -/
theorem outcome_of_shape (angle : Angle) (tokens : List Token) :
    (MeetsZeroDivisor angle tokens → evaluate angle tokens = .error .divisionByZero) ∧
    (¬ MeetsZeroDivisor angle tokens →
      (FaultFree tokens ∨ ∃ fault, FirstFault tokens fault) ∧
      (∀ fault, FirstFault tokens fault → evaluate angle tokens = .error fault) ∧
      (FaultFree tokens →
        (height tokens = 1 → ∃ value, evaluate angle tokens = .ok value) ∧
        (height tokens ≠ 1 → ∃ count : Nat, (count : Int) = height tokens ∧
          evaluate angle tokens = .error (.leftoverValues count)))) ∧
    (∀ other, tokens.map Token.shape = other.map Token.shape →
      ¬ MeetsZeroDivisor angle tokens → ¬ MeetsZeroDivisor angle other →
        (∃ value another, evaluate angle tokens = .ok value ∧
          evaluate angle other = .ok another) ∨
        ∃ fault, evaluate angle tokens = .error fault ∧ evaluate angle other = .error fault) := by
  refine ⟨fun meets => evaluate_of_run_error (run_of_meetsZeroDivisor meets), fun nonzero =>
    ⟨faultFree_or_firstFault tokens, fun fault => evaluate_of_firstFault nonzero,
      evaluate_of_faultFree nonzero⟩, fun other same nonzero nonzeroOther => ?_⟩
  rcases faultFree_or_firstFault tokens with free | ⟨fault, first⟩
  · obtain ⟨some, none⟩ := evaluate_of_faultFree nonzero free
    obtain ⟨someOther, noneOther⟩ := evaluate_of_faultFree nonzeroOther (free.of_shape same)
    rw [← height_congr same] at someOther noneOther
    by_cases one : height tokens = 1
    · obtain ⟨value, valued⟩ := some one
      obtain ⟨another, valuedOther⟩ := someOther one
      exact .inl ⟨value, another, valued, valuedOther⟩
    · obtain ⟨count, counted, failed⟩ := none one
      obtain ⟨countOther, countedOther, failedOther⟩ := noneOther one
      obtain rfl : countOther = count := Int.ofNat.inj (countedOther.trans counted.symm)
      exact .inr ⟨_, failed, failedOther⟩
  · exact .inr ⟨fault, evaluate_of_firstFault nonzero first,
      evaluate_of_firstFault nonzeroOther (first.of_shape same.symm)⟩

/-- In `1 0 / +` the zero is met before the sum that lacks an operand. -/
theorem outcome_of_shape_zero_first : ∃ tokens : List Token,
    tokens = [.number 1.0, .number 0.0, .operator (.binary .divide), .operator (.binary .plus)] ∧
      MeetsZeroDivisor .degrees tokens ∧ FirstFault tokens (.missingOperands "+") ∧
      evaluate .degrees tokens = .error .divisionByZero := by
  have one : FaultFree [.number 1.0] := FaultFree.nil.append_singleton rfl
  have two : FaultFree [.number 1.0, .number 0.0] := one.append_singleton rfl
  have three : FaultFree [.number 1.0, .number 0.0, .operator (.binary .divide)] :=
    two.append_singleton rfl
  have zero : ((0.0 : Float) == 0.0) = true := by decide +kernel
  have meets : MeetsZeroDivisor .degrees [.number 1.0, .number 0.0, .operator (.binary .divide),
      .operator (.binary .plus)] :=
    ⟨[.number 1.0, .number 0.0], _, [.operator (.binary .plus)], _, rfl, three, rfl,
      .divide, 0.0, 1.0, [], rfl, .inl rfl, rfl, zero⟩
  exact ⟨_, rfl, meets, ⟨_, _, [], rfl, three, rfl⟩, (outcome_of_shape _ _).1 meets⟩

end

end Postfix

end DeskCalculator
