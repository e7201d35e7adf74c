import DeskCalculator.Proofs.Infix.Alternation
set_option autoImplicit false

namespace DeskCalculator.Infix
open Postfix

structure Sound (place : Place) (depth : Nat) (tokens : List Token) : Prop where
  alternates : Alternates place tokens
  balanced : Balanced depth tokens
  apart : Apart tokens

/-- An operator from this precedence on goes on with a phrase of the rank. -/
def Rank.limit : Rank → Nat
  | sum => 2
  | product => 3
  | power => 4
  | atom => 5

def Ends (rank : Rank) : List Token → Prop
  | .operator op :: _ => op.precedence < rank.limit
  | _ => True

/-- Whether the tokens begin with a phrase of the rank that cannot be made longer. -/
def Begins (rank : Rank) (depth : Nat) (tokens : List Token) : Prop :=
  ∃ (phrase : Phrase rank) (rest : List Token),
    tokens = phrase.tokens ++ rest ∧ Sound .operator depth rest ∧ Ends rank rest

namespace Sound
variable {depth : Nat} {tokens : List Token}

theorem after_number {value : Float} (sound : Sound .operand depth (.number value :: tokens)) :
    Sound .operator depth tokens :=
  ⟨sound.alternates, sound.balanced, sound.apart.tail⟩

theorem after_opening (sound : Sound .operand depth (.opening :: tokens)) :
    Sound .operand (depth + 1) tokens :=
  ⟨sound.alternates, sound.balanced, sound.apart.tail⟩

theorem after_call {name : String}
    (sound : Sound .operand depth (.name name :: .opening :: tokens)) :
    Sound .operand (depth + 1) tokens :=
  ⟨sound.alternates, sound.balanced, sound.apart.tail.tail⟩

theorem after_binary {op : BinaryOperator}
    (sound : Sound .operator depth (.operator (.binary op) :: tokens)) :
    Sound .operand depth tokens :=
  ⟨sound.alternates, sound.balanced, sound.apart.tail⟩

theorem after_percent (sound : Sound .operator depth (.operator .percent :: tokens)) :
    Sound .operator depth tokens :=
  ⟨sound.alternates, sound.balanced, sound.apart.tail⟩

theorem ends_atom (sound : Sound .operator depth tokens) : Ends .atom tokens := by
  match tokens, sound.alternates with
  | [], _ | .closing :: _, _ => trivial
  | .operator .percent :: _, _ => exact Nat.lt_of_lt_of_le (Nat.lt_succ_self 3) (by decide)
  | .operator (.binary op) :: _, _ =>
    change Operator.precedence (.binary op) < 5
    cases op <;> decide

theorem ends_power (sound : Sound .operator depth tokens)
    (other : tokens.head? ≠ some (.operator (.binary .power))) : Ends .power tokens := by
  match tokens, sound.alternates with
  | [], _ | .closing :: _, _ => trivial
  | .operator .percent :: _, _ => exact Nat.lt_succ_self 3
  | .operator (.binary op) :: _, _ =>
    change Operator.precedence (.binary op) < 4
    rcases operator_cases op with ⟨sign, rfl⟩ | ⟨sign, rfl⟩ | rfl
    · rw [sign.precedence_operator]
      decide
    · rw [sign.precedence_operator]
      decide
    · exact absurd rfl other

theorem ends_percent (sound : Sound .operator depth (.operator .percent :: tokens)) :
    Ends .power tokens := by
  apply sound.after_percent.ends_power
  intro power
  exact (List.isChain_cons.mp sound.apart).1 _ power trivial

end Sound

theorem Sound.sum_rest {depth : Nat} {rest : List Token} (sound : Sound .operator depth rest)
    (ends : Ends .sum rest) : rest = [] ∨ ∃ after, rest = .closing :: after := by
  match rest, sound.alternates, ends with
  | [], _, _ => exact .inl rfl
  | .closing :: after, _, _ => exact .inr ⟨after, rfl⟩
  | .operator .percent :: _, _, ends => exact absurd ends (by decide : ¬ 3 < 2)
  | .operator (.binary op) :: _, _, ends =>
    change Operator.precedence (.binary op) < 2 at ends
    cases op <;> exact absurd ends (by decide)

theorem Begins.group {depth : Nat} {tokens : List Token} (begins : Begins .sum (depth + 1) tokens) :
    ∃ (inner : Phrase .sum) (rest : List Token),
      tokens = inner.tokens ++ .closing :: rest ∧ Sound .operator depth rest := by
  obtain ⟨inner, rest, split, sound, ends⟩ := begins
  rcases sound.sum_rest ends with rfl | ⟨after, rfl⟩
  · cases sound.balanced
  · exact ⟨inner, after, split, sound.alternates, sound.balanced, sound.apart.tail⟩

theorem Phrase.rest_length_lt {rank : Rank} (phrase : Phrase rank) {tokens rest : List Token}
    (h : tokens = phrase.tokens ++ rest) : rest.length < tokens.length := by
  have some := phrase.tokens_length_pos
  rw [h, List.length_append]
  omega

-- by the length of the tokens, and for the same tokens from the atoms up
mutual

theorem begins_atom {depth : Nat} {tokens : List Token} (sound : Sound .operand depth tokens) :
    Begins .atom depth tokens := by
  match tokens, sound with
  | .number value :: rest, sound =>
    exact ⟨.number value, rest, rfl, sound.after_number, sound.after_number.ends_atom⟩
  | .name name :: .opening :: inside, sound =>
    obtain ⟨argument, rest, rfl, after⟩ := (begins_sum sound.after_call).group
    exact ⟨.call name argument, rest, by simp [Phrase.tokens], after, after.ends_atom⟩
  | .opening :: inside, sound =>
    obtain ⟨inner, rest, rfl, after⟩ := (begins_sum sound.after_opening).group
    exact ⟨.group inner, rest, by simp [Phrase.tokens], after, after.ends_atom⟩
termination_by (tokens.length, 0)

theorem begins_power {depth : Nat} {tokens : List Token} (sound : Sound .operand depth tokens) :
    Begins .power depth tokens := by
  obtain ⟨base, rest, split, after, -⟩ := begins_atom sound
  have shorter := base.rest_length_lt split
  by_cases power : rest.head? = some (.operator (.binary .power))
  · obtain ⟨next, rfl⟩ := List.head?_eq_some_iff.mp power
    have shorter : next.length < tokens.length := Nat.lt_of_succ_lt shorter
    obtain ⟨exponent, last, rfl, final, ends⟩ := begins_power after.after_binary
    refine ⟨.power base exponent, last, ?_, final, ends⟩
    rw [split, Phrase.tokens, List.append_assoc, List.cons_append]
  · exact ⟨.ofAtom base, rest, split, after, after.ends_power power⟩
termination_by (tokens.length, 1)

theorem extends_product {depth : Nat} {tokens : List Token} (left : Phrase .product)
    (sound : Sound .operator depth tokens) (ends : Ends .power tokens) :
    Begins .product depth (left.tokens ++ tokens) := by
  match tokens, sound, ends with
  | [], sound, _ | .closing :: _, sound, _ => exact ⟨left, _, rfl, sound, trivial⟩
  | .operator .percent :: rest, sound, _ =>
    -- the percent sign takes the whole product that was read so far
    have longer := extends_product (.percent left) sound.after_percent sound.ends_percent
    rwa [Phrase.tokens, List.append_assoc, List.singleton_append] at longer
  | .operator (.binary op) :: rest, sound, ends =>
    rcases operator_cases op with ⟨sign, rfl⟩ | ⟨sign, rfl⟩ | rfl
    · exact ⟨left, _, rfl, sound, Nat.lt_of_le_of_lt (Nat.le_of_eq sign.precedence_operator)
        (Nat.lt_succ_self 2)⟩
    · obtain ⟨right, next, split, after, endsRight⟩ := begins_power sound.after_binary
      have shorter := right.rest_length_lt split
      have longer := extends_product (.product left sign right) after endsRight
      rwa [Phrase.tokens, List.append_assoc, List.cons_append, ← split] at longer
    · exact absurd ends (Nat.lt_irrefl 4)
termination_by (tokens.length, 2)

theorem begins_product {depth : Nat} {tokens : List Token} (sound : Sound .operand depth tokens) :
    Begins .product depth tokens := by
  obtain ⟨first, rest, split, after, ends⟩ := begins_power sound
  have shorter := first.rest_length_lt split
  have longer := extends_product (.ofPower first) after ends
  rwa [Phrase.tokens, ← split] at longer
termination_by (tokens.length, 3)

theorem extends_sum {depth : Nat} {tokens : List Token} (left : Phrase .sum)
    (sound : Sound .operator depth tokens) (ends : Ends .product tokens) :
    Begins .sum depth (left.tokens ++ tokens) := by
  match tokens, sound, ends with
  | [], sound, _ | .closing :: _, sound, _ => exact ⟨left, _, rfl, sound, trivial⟩
  | .operator .percent :: rest, _, ends => exact absurd ends (Nat.lt_irrefl 3)
  | .operator (.binary op) :: rest, sound, ends =>
    rcases operator_cases op with ⟨sign, rfl⟩ | ⟨sign, rfl⟩ | rfl
    · obtain ⟨right, next, split, after, endsRight⟩ := begins_product sound.after_binary
      have shorter := right.rest_length_lt split
      have longer := extends_sum (.sum left sign right) after endsRight
      rwa [Phrase.tokens, List.append_assoc, List.cons_append, ← split] at longer
    · have high := sign.precedence_operator
      change Operator.precedence (.binary sign.operator) < 3 at ends
      omega
    · exact absurd ends (by decide : ¬ 4 < 3)
termination_by (tokens.length, 4)

theorem begins_sum {depth : Nat} {tokens : List Token} (sound : Sound .operand depth tokens) :
    Begins .sum depth tokens := by
  obtain ⟨first, rest, split, after, ends⟩ := begins_product sound
  have shorter := first.rest_length_lt split
  have longer := extends_sum (.ofProduct first) after ends
  rwa [Phrase.tokens, ← split] at longer
termination_by (tokens.length, 5)

end

theorem exists_phrase {tokens : List Token} (sound : Sound .operand 0 tokens) :
    ∃ phrase : Phrase .sum, phrase.tokens = tokens := by
  obtain ⟨phrase, rest, rfl, after, ends⟩ := begins_sum sound
  rcases after.sum_rest ends with rfl | ⟨last, rfl⟩
  · exact ⟨phrase, (List.append_nil _).symm⟩
  · exact after.balanced.elim

theorem Follows.not_clashes {rank : Rank} {tokens : List Token} {left : Token}
    (follows : Follows rank tokens) (low : left = .operator .percent → rank.ceiling < 4) :
    ∀ next ∈ tokens.head?, ¬ left.Clashes next := by
  intro next mem clashes
  match tokens, follows with
  | .closing :: _, _ =>
    cases Option.some.inj mem
    obtain starts | ⟨-, power⟩ := clashes.startsOperand_or_power
    · cases starts
    · cases power
  | .operator op :: _, bound =>
    cases Option.some.inj mem
    obtain starts | ⟨percent, power⟩ := clashes.startsOperand_or_power
    · cases starts
    · cases power
      have high : 4 ≤ rank.ceiling := bound
      have := low percent
      omega

theorem apart_binary {op : BinaryOperator} {left right rest : List Token}
    (first : Apart (.operator (.binary op) :: (right ++ rest)) →
      Apart (left ++ .operator (.binary op) :: (right ++ rest)))
    (second : Apart (right ++ rest)) : Apart (left ++ .operator (.binary op) :: right ++ rest) := by
  rw [List.append_assoc, List.cons_append]
  exact first (List.isChain_cons.mpr ⟨fun next _ => Token.not_clashes_binary op next, second⟩)

theorem apart_tokens {rank : Rank} (phrase : Phrase rank) {rest : List Token} (apart : Apart rest)
    (follows : Follows rank rest) : Apart (phrase.tokens ++ rest) := by
  induction phrase generalizing rest with
  | sum left sign right ihLeft ihRight =>
    exact apart_binary (fun after => ihLeft after (Nat.le_of_eq sign.precedence_operator))
      (ihRight apart (follows.mono (by decide)))
  | ofProduct whole ih => exact ih apart (follows.mono (by decide))
  | product left sign right ihLeft ihRight =>
    exact apart_binary (fun after => ihLeft after (Nat.le_of_eq sign.precedence_operator))
      (ihRight apart (follows.mono (by decide)))
  | percent operand ih =>
    have after : Apart (.operator .percent :: rest) :=
      List.isChain_cons.mpr ⟨follows.not_clashes fun _ => by decide, apart⟩
    rw [Phrase.tokens, List.append_assoc, List.singleton_append]
    exact ih after (Nat.le_refl 3)
  | ofPower whole ih => exact ih apart follows
  | power base exponent ihBase ihExponent =>
    exact apart_binary (fun after => ihBase after (Nat.le_refl 4)) (ihExponent apart follows)
  | ofAtom whole ih => exact ih apart (follows.mono (by decide))
  | number value => exact List.isChain_cons.mpr ⟨follows.not_clashes nofun, apart⟩
  | bare name => exact List.isChain_cons.mpr ⟨follows.not_clashes nofun, apart⟩
  | call name argument ih =>
    have after : Apart (.closing :: rest) :=
      List.isChain_cons.mpr ⟨follows.not_clashes nofun, apart⟩
    have inside : Apart (.opening :: (argument.tokens ++ .closing :: rest)) :=
      List.isChain_cons.mpr ⟨fun next _ => Token.not_clashes_opening next, ih after trivial⟩
    rw [Phrase.tokens, List.append_assoc]
    exact List.isChain_cons_cons.mpr ⟨id, inside⟩
  | group inner ih =>
    have after : Apart (.closing :: rest) :=
      List.isChain_cons.mpr ⟨follows.not_clashes nofun, apart⟩
    rw [Phrase.tokens, List.append_assoc]
    exact List.isChain_cons.mpr ⟨fun next _ => Token.not_clashes_opening next, ih after trivial⟩

theorem value_eq_ok {angle : Angle} {text : String} {value : Float}
    (h : Expression.value angle text = .ok value) :
    ∃ tokens ordered, tokenize text = .ok tokens ∧ convert [] tokens = .ok ordered ∧
      run angle [] ordered = .ok [value] := by
  obtain ⟨outcome, worked, rfl⟩ := map_eq_ok h
  obtain ⟨tokens, tokenized, worked⟩ := bind_eq_ok worked
  obtain ⟨ordered, converted, worked⟩ := bind_eq_ok worked
  obtain ⟨value, evaluated, worked⟩ := bind_eq_ok worked
  cases worked
  exact ⟨tokens, ordered, tokenized, converted, evaluate_eq_ok evaluated⟩

theorem countP_of_convert {tokens ordered : List Token} (kind : Token → Bool)
    (h : convert [] tokens = .ok ordered) (apart : ∀ token, kind token → !token.isParenthesis) :
    ordered.countP kind = tokens.countP kind := by
  have same := (convert_perm h).countP_eq kind
  rw [same, held, List.filterMap_nil, List.nil_append, List.countP_filter]
  congr 1
  funext token
  cases holds : kind token with
  | false => rfl
  | true => exact apart token holds

theorem numbers_eq {angle : Angle} {tokens ordered : List Token} {value : Float}
    (converted : convert [] tokens = .ok ordered) (ran : run angle [] ordered = .ok [value]) :
    tokens.countP Token.isNumber = tokens.countP Token.isBinary + 1 := by
  have count := run_length ran
  rw [countP_of_convert _ converted, countP_of_convert _ converted] at count
  · change 1 + _ = 0 + _ at count
    omega
  · intro token number
    cases token <;> first | rfl | cases number
  · intro token binary
    cases token <;> first | rfl | cases binary

/-- A text with a value is a phrase exactly when no two neighbours among its tokens clash. -/
theorem derivable_iff_apart (angle : Angle) (text : String) (value : Float)
    (h : Expression.value angle text = .ok value) :
    ∃ tokens, tokenize text = .ok tokens ∧
      ((∃ phrase : Phrase .sum, phrase.tokens = tokens) ↔ Apart tokens) := by
  obtain ⟨tokens, ordered, tokenized, converted, ran⟩ := value_eq_ok h
  refine ⟨tokens, tokenized, ?_, fun apart => ?_⟩
  · rintro ⟨phrase, rfl⟩
    have whole := @apart_tokens _ phrase [] .nil trivial
    rwa [List.append_nil] at whole
  · have balanced : Balanced 0 tokens := (convert_isOk_iff [] tokens).mp ⟨ordered, converted⟩
    have turns := (@numbers_le .operand tokens apart nofun).2 (numbers_eq converted ran)
    exact exists_phrase ⟨turns, balanced, apart⟩

theorem derivable_iff_apart_product : ∃ value tokens,
    Expression.value .radians "2(3)" = .ok value ∧ tokenize "2(3)" = .ok tokens ∧
      (∃ phrase : Phrase .sum, phrase.tokens = tokens) ∧ Apart tokens := by
  let two : Float := (Literal.mk ['2'] []).value
  let three : Float := (Literal.mk ['3'] []).value
  let phrase : Phrase .sum := .ofProduct (.product (.ofPower (.ofAtom (.number two))) .times
    (.ofAtom (.group (.ofProduct (.ofPower (.ofAtom (.number three)))))))
  have scanned : Lexeme.scan 0 "2(3)".toList = .ok
      [.numeral ⟨['2'], []⟩, .opening, .numeral ⟨['3'], []⟩, .closing] := by cbv
  have value : Expression.value .radians "2(3)" = .ok (two * three) := by
    rw [Expression.value, Expression.workOut, tokenize, scanned]
    rfl
  have derived : tokenize "2(3)" = .ok phrase.tokens := by
    rw [tokenize, scanned]
    rfl
  obtain ⟨tokens, read, same⟩ := derivable_iff_apart .radians "2(3)" _ value
  cases derived.symm.trans read
  exact ⟨_, _, value, read, ⟨phrase, rfl⟩, same.mp ⟨phrase, rfl⟩⟩

/-- The operands of `2 3 +` stand side by side, and it has a value all the same. -/
theorem value_of_operands_side_by_side : ∃ value,
    Expression.value .radians "2 3 +" = .ok value ∧
      ∀ tokens, tokenize "2 3 +" = .ok tokens →
        ¬ ∃ phrase : Phrase .sum, phrase.tokens = tokens := by
  have scanned : Lexeme.scan 0 "2 3 +".toList = .ok
      [.numeral ⟨['2'], []⟩, .numeral ⟨['3'], []⟩, .sign (.binary .plus)] := by cbv
  refine ⟨(Literal.mk ['2'] []).value + (Literal.mk ['3'] []).value, ?_, ?_⟩
  · rw [Expression.value, Expression.workOut, tokenize, scanned]
    rfl
  · rintro tokens read ⟨phrase, rfl⟩
    rw [tokenize, scanned] at read
    have apart := @apart_tokens _ phrase [] .nil trivial
    rw [List.append_nil, ← Except.ok.inj read] at apart
    exact (List.isChain_cons_cons.mp apart).1 ⟨rfl, rfl⟩

end DeskCalculator.Infix
