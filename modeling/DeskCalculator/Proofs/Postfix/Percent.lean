import DeskCalculator.Proofs.Balance
import DeskCalculator.Proofs.Postfix.Replacement
set_option autoImplicit false

namespace DeskCalculator.Postfix

/-- A number, or tokens with balanced parentheses between two parentheses, which may be those of an
argument. -/
inductive Operand : List Token → Prop
  | number (value : Float) : Operand [.number value]
  | group {inside : List Token} (paired : Paired inside) :
      Operand (.opening :: (inside ++ [.closing]))
  | call (name : String) {inside : List Token} (paired : Paired inside) :
      Operand (.name name :: .opening :: (inside ++ [.closing]))

inductive Tower : List Token → Prop
  | ofOperand {base : List Token} (operand : Operand base) : Tower base
  | power {base exponent : List Token} (operand : Operand base) (tower : Tower exponent) :
      Tower (base ++ .operator (.binary .power) :: exponent)

theorem yieldsTo_percent {op : Operator} (other : op ≠ .binary .power) :
    op.yieldsTo .percent = true := by
  rw [yieldsTo_of_ne other, decide_eq_true_iff]
  cases op with
  | percent => exact Nat.le_refl 3
  | binary op =>
    cases op with
    | power => exact absurd rfl other
    | plus | minus | times | divide | modulo => decide

theorem yieldsTo_power {op : Operator} (other : op ≠ .binary .power) :
    op.yieldsTo (.binary .power) = true := by
  have low := yieldsTo_percent other
  rw [yieldsTo_of_ne other, decide_eq_true_iff] at low ⊢
  exact Nat.le_succ_of_le low

def GoesOn (rest : List Token) : Prop :=
  rest = [] ∨ ∃ op after, rest = .operator op :: after ∧ op ≠ .binary .power

section

variable {operand exponent rest : List Token}

theorem GoesOn.carriesOut_percent (goesOn : GoesOn rest) : CarriesOut .percent rest := by
  rcases goesOn with rfl | ⟨op, after, rfl, other⟩
  · trivial
  · exact yieldsTo_percent other

theorem GoesOn.carriesOut_power (goesOn : GoesOn rest) : CarriesOut (.binary .power) rest := by
  rcases goesOn with rfl | ⟨op, after, rfl, other⟩
  · trivial
  · exact yieldsTo_power other

theorem exists_ordered_enclosed (bar : Pending) (enclosing : bar.isOperator = false)
    {inside : List Token} (paired : Paired inside) : ∃ ordered, ∀ stack rest,
      convert stack (bar.opened ++ (inside ++ [.closing]) ++ rest) =
        (convert stack rest).map (ordered ++ ·) := by
  obtain ⟨ordered, converted⟩ := ofTokens_isOk_iff.mpr paired
  refine ⟨ordered ++ bar.closed, fun stack rest => ?_⟩
  rw [List.append_assoc, List.append_assoc, List.singleton_append, convert_opened enclosing]
  exact @convert_inside bar [] stack enclosing _ _ converted rest

theorem Operand.exists_ordered (h : Operand operand) : ∃ ordered, ∀ stack rest,
    convert stack (operand ++ rest) = (convert stack rest).map (ordered ++ ·) := by
  cases h with
  | number value => exact ⟨[.number value], fun stack rest => convert_number stack value rest⟩
  | group paired => exact exists_ordered_enclosed .group rfl paired
  | call name paired => exact exists_ordered_enclosed (.call name) rfl paired

/-- The last power of a tower is carried out first, and all of them before what comes next. -/
theorem Tower.exists_ordered (h : Tower exponent) : ∃ ordered, ∀ stack rest,
    CarriesOut (.binary .power) rest →
      convert stack (exponent ++ rest) = (convert stack rest).map (ordered ++ ·) := by
  induction h with
  | ofOperand operand =>
    obtain ⟨ordered, converted⟩ := operand.exists_ordered
    exact ⟨ordered, fun stack rest _ => converted stack rest⟩
  | power operand _ ih =>
    obtain ⟨base, convertedBase⟩ := operand.exists_ordered
    obtain ⟨exponent, convertedExponent⟩ := ih
    refine ⟨base ++ exponent ++ [.operator (.binary .power)], fun stack rest out => ?_⟩
    rw [List.append_assoc, List.cons_append, convertedBase, convert_power,
      convertedExponent _ _ out, convert_waiting _ _ out, map_append_map, map_append_map,
      List.append_assoc]

theorem convert_percent {stack : List Pending}
    (waits : ∀ first ∈ stack.head?, first.precedes .percent = false)
    (out : CarriesOut .percent rest) : convert stack (.operator .percent :: rest) =
      (convert stack rest).map ([.operator .percent] ++ ·) := by
  rw [convert_operator _ _ _ waits, convert_waiting _ _ out]

theorem nothing_precedes (op : Operator) :
    ∀ first ∈ ([] : List Pending).head?, first.precedes op = false := by
  rintro _ ⟨⟩

theorem group_not_precedes (op : Operator) (below : List Pending) :
    ∀ first ∈ (Pending.group :: below).head?, first.precedes op = false := by
  rintro _ ⟨⟩
  rfl

theorem ofTokens_percent (h : Operand operand) (out : CarriesOut .percent rest) :
    ofTokens (operand ++ .operator .percent :: rest) =
      ofTokens (.opening :: (operand ++ .operator .percent :: .closing :: rest)) := by
  obtain ⟨ordered, converted⟩ := h.exists_ordered
  have closes : CarriesOut .percent (.closing :: rest) := trivial
  rw [ofTokens, ofTokens, convert_opening, converted, converted,
    convert_percent (nothing_precedes _) out, convert_percent (group_not_precedes _ _) closes,
    convert_group_closing]

theorem ofTokens_percent_power (h : Operand operand) (tower : Tower exponent)
    (goesOn : GoesOn rest) :
    ofTokens (operand ++ .operator .percent :: .operator (.binary .power) :: (exponent ++ rest)) =
      ofTokens (.opening :: (operand ++ .operator (.binary .power) ::
        (exponent ++ .closing :: .operator .percent :: rest))) := by
  obtain ⟨base, convertedBase⟩ := h.exists_ordered
  obtain ⟨power, convertedPower⟩ := tower.exists_ordered
  have out := goesOn.carriesOut_power
  have closes : CarriesOut (.binary .power) (.closing :: .operator .percent :: rest) := trivial
  -- on the left the power is put on top of the percent sign, on the right it is closed before it
  rw [ofTokens, ofTokens, convert_opening, convertedBase, convertedBase,
    convert_operator _ _ _ (nothing_precedes _), convert_power, convert_power,
    convertedPower _ _ out, convertedPower _ _ closes, convert_waiting _ _ out,
    convert_waiting _ _ closes, convert_waiting _ _ goesOn.carriesOut_percent,
    convert_group_closing, convert_percent (nothing_precedes _) goesOn.carriesOut_percent]

end

/-- A percent sign after the first operand can be put in parentheses with it when any operator but a
power follows. When a power follows, it is the power that can be put in parentheses: the percent
sign takes the operand with all its exponents. -/
theorem percent_of_first_operand (angle : Angle) {operand : List Token} (h : Operand operand) :
    (∀ op rest, op ≠ .binary .power →
      value angle (operand ++ .operator .percent :: .operator op :: rest) =
        value angle
          (.opening :: (operand ++ .operator .percent :: .closing :: .operator op :: rest))) ∧
    ∀ exponent rest, Tower exponent → GoesOn rest →
      value angle
          (operand ++ .operator .percent :: .operator (.binary .power) :: (exponent ++ rest)) =
        value angle (.opening :: (operand ++ .operator (.binary .power) ::
          (exponent ++ .closing :: .operator .percent :: rest))) := by
  refine ⟨fun op rest other => ?_, fun exponent rest tower goesOn => ?_⟩
  · have out : CarriesOut .percent (.operator op :: rest) := yieldsTo_percent other
    rw [value, value, ofTokens_percent h out]
  · rw [value, value, ofTokens_percent_power h tower goesOn]

theorem percent_of_first_operand_call :
    Operand [.name "sqrt", .opening, .number 16.0, .closing] ∧
    value .degrees [.name "sqrt", .opening, .number 16.0, .closing, .operator .percent,
        .operator (.binary .modulo), .number 3.0] =
      value .degrees [.opening, .name "sqrt", .opening, .number 16.0, .closing, .operator .percent,
        .closing, .operator (.binary .modulo), .number 3.0] ∧
    value .degrees [.name "sqrt", .opening, .number 16.0, .closing, .operator .percent,
        .operator (.binary .power), .number 2.0, .operator (.binary .plus), .number 1.0] =
      value .degrees [.opening, .name "sqrt", .opening, .number 16.0, .closing,
        .operator (.binary .power), .number 2.0, .closing, .operator .percent,
        .operator (.binary .plus), .number 1.0] := by
  have paired : Paired [.number 16.0] := (balanced_iff_paired _).mp rfl
  have root : Operand [.name "sqrt", .opening, .number 16.0, .closing] := .call "sqrt" paired
  obtain ⟨alone, powers⟩ := percent_of_first_operand .degrees root
  have goesOn : GoesOn [.operator (.binary .plus), .number 1.0] :=
    .inr ⟨.binary .plus, [.number 1.0], rfl, nofun⟩
  exact ⟨root, alone (.binary .modulo) [.number 3.0] nofun,
    powers _ _ (.ofOperand (.number 2.0)) goesOn⟩

/-- A power after a percent sign takes the operand before the sign as its base: the hundredth part of
a square is not the square of the hundredth part, and where there is no base, it is the power that
lacks it. So the sign does not go with its operand before every operator. -/
theorem power_after_percent :
    value .degrees [.number 50.0, .operator .percent, .operator (.binary .power), .number 2.0] =
      .ok (Float.pow 50.0 2.0 / 100.0) ∧
    value .degrees [.opening, .number 50.0, .operator .percent, .closing,
      .operator (.binary .power), .number 2.0] = .ok (Float.pow (50.0 / 100.0) 2.0) ∧
    value .degrees [.opening, .closing, .operator .percent, .operator (.binary .power),
      .number 2.0] = .error (.missingOperands "^") ∧
    value .degrees [.opening, .opening, .closing, .operator .percent, .closing,
      .operator (.binary .power), .number 2.0] = .error (.missingOperands "%") ∧
    ¬ ∀ angle operand op rest, Operand operand →
      value angle (operand ++ .operator .percent :: .operator op :: rest) =
        value angle
          (.opening :: (operand ++ .operator .percent :: .closing :: .operator op :: rest)) := by
  have empty : Paired [] := (balanced_iff_paired _).mp rfl
  refine ⟨rfl, rfl, rfl, rfl, fun alone => ?_⟩
  have same : (.error (.missingOperands "^") : Except Fault Float) =
      .error (.missingOperands "%") :=
    alone .degrees _ (.binary .power) [.number 2.0] (.group empty)
  exact absurd (Fault.missingOperands.inj (Except.error.inj same)) (by decide)

end DeskCalculator.Postfix
