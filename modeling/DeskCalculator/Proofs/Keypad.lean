import DeskCalculator.Keypad
import DeskCalculator.Proofs.Calculator
import DeskCalculator.Proofs.LeadingZero
set_option autoImplicit false

namespace DeskCalculator

namespace Display
open Text Binary64

/-- Whether the text changes the display, and no name is at its end that another one would merge
with. -/
structure IsPart (text : String) : Prop where
  some : text ≠ ""
  noName : endsInName text = false

theorem endsInName_failure : endsInName failure = true := by
  cbv

theorem endsInName_append {display text : String} (before : endsInName display = false)
    (after : endsInName text = false) : endsInName (display ++ text) = false := by
  rw [endsInName] at before after
  rw [endsInName, String.toList_append, List.reverse_append, List.takeWhile_append]
  split
  · rename_i all
    rw [(List.takeWhile_sublist isNameChar).eq_of_length all] at after
    rw [List.any_append, before, after]
    rfl
  · exact after

theorem endsInName_ofResult {x : Float} (finite : isFinite x = true) :
    endsInName (ofResult x) = false := by
  rw [ofResult_of_isFinite finite, endsInName]
  cases Decimal.showsSign x with
  | true =>
    change ((negation _).toList.reverse.takeWhile isNameChar).any isNameStart = false
    rw [toList_negation, List.reverse_append]
    rfl
  | false =>
    change ((String.ofList _).toList.reverse.takeWhile isNameChar).any isNameStart = false
    rw [String.toList_ofList, List.any_eq_false]
    intro c mem start
    have among := List.mem_reverse.mp ((List.takeWhile_sublist _).mem mem)
    rcases (Decimal.literal_isWritten _).digit_or_point among with digit | rfl
    · have none := Lexeme.not_digit_of_isNameStart start []
      rw [digit] at none
      cases none
    · cases start

section

variable {display : String}

theorem insert_of_noName (noName : endsInName display = false) (text : String) :
    insert display text = if display = "0" then text else display ++ text := by
  have noFailure : display ≠ failure := by
    rintro rfl
    cases noName.symm.trans endsInName_failure
  have nothing : endsInName "" = false := by cbv
  by_cases zero : display = "0"
  · rw [insert, if_pos (.inl zero), if_pos zero, join, nothing, Bool.false_and]
    exact String.empty_append
  · rw [insert, if_neg (by simp [zero, noFailure]), if_neg zero, join, noName, Bool.false_and]
    rfl

theorem append_ne_zero (some : display ≠ "") {text : String} (part : text ≠ "") :
    display ++ text ≠ "0" := by
  intro same
  have lengths := congrArg String.length same
  have left := String.length_eq_zero_iff.not.mpr some
  have right := String.length_eq_zero_iff.not.mpr part
  rw [String.length_append] at lengths
  change display.length + text.length = 1 at lengths
  omega

theorem foldl_insert (noName : endsInName display = false) (some : display ≠ "")
    (other : display ≠ "0") {texts : List String} (parts : ∀ text ∈ texts, IsPart text) :
    texts.foldl insert display = display ++ String.join texts := by
  induction texts generalizing display with
  | nil => rw [List.foldl_nil, String.join_nil, String.append_empty]
  | cons text texts ih =>
    obtain ⟨part, others⟩ := List.forall_mem_cons.mp parts
    rw [List.foldl_cons, insert_of_noName noName, if_neg other,
      ih (endsInName_append noName part.noName) (by simp [some]) (append_ne_zero some part.some)
        others, String.join_cons, String.append_assoc]

def afterZeros (texts : List String) : String :=
  String.join (texts.dropWhile (· == "0"))

theorem afterZeros_of_head {texts : List String} (other : texts.head? ≠ .some "0") :
    afterZeros texts = String.join texts := by
  cases texts with
  | nil => rfl
  | cons text texts =>
    have same : text ≠ "0" := fun same => other (congrArg Option.some same)
    rw [afterZeros, List.dropWhile_cons_of_neg (by simpa using same)]

theorem insert_of_zero (zero : display = "" ∨ display = "0") (text : String) :
    insert display text = text := by
  have nothing : endsInName "0" = false := by cbv
  rcases zero with rfl | rfl
  · exact Calculator.insert_empty text
  · exact insert_of_noName nothing text

/-- On a display that is empty or a zero alone, a zero stays until another text takes its place. -/
theorem foldl_insert_zero (zero : display = "" ∨ display = "0") {texts : List String}
    (some : texts ≠ []) (parts : ∀ text ∈ texts, IsPart text) :
    texts.foldl insert display = if afterZeros texts = "" then "0" else afterZeros texts := by
  induction texts generalizing display with
  | nil => exact absurd rfl some
  | cons text texts ih =>
    obtain ⟨part, others⟩ := List.forall_mem_cons.mp parts
    rw [List.foldl_cons, insert_of_zero zero]
    by_cases again : text = "0"
    · subst again
      have same : afterZeros ("0" :: texts) = afterZeros texts := rfl
      rw [same]
      by_cases last : texts = []
      · subst last
        rfl
      · exact ih (.inr rfl) last others
    · have other : (text :: texts).head? ≠ .some "0" := fun same => again (Option.some.inj same)
      rw [afterZeros_of_head other, String.join_cons, if_neg (by simp [part.some]),
        foldl_insert part.noName part.some again others]

theorem append_ofList (s : String) (cs : List Char) :
    s ++ String.ofList cs = String.ofList (s.toList ++ cs) := by
  rw [String.ofList_append, String.ofList_toList]

theorem exists_zeros (zero : display = "" ∨ display = "0") {texts : List String}
    (some : texts ≠ []) (parts : ∀ text ∈ texts, IsPart text) :
    ∃ zeros : List Char, (∀ c ∈ zeros, c = '0') ∧
      display ++ String.join texts =
        String.ofList (zeros ++ (texts.foldl insert display).toList) := by
  have zeros : ∀ c ∈ display.toList, c = '0' := by
    rcases zero with rfl | rfl
    · exact List.forall_mem_nil _
    · exact fun c mem => List.mem_singleton.mp mem
  induction texts generalizing display with
  | nil => exact absurd rfl some
  | cons text texts ih =>
    obtain ⟨part, others⟩ := List.forall_mem_cons.mp parts
    rw [List.foldl_cons, insert_of_zero zero, String.join_cons]
    by_cases settled : text = "0" ∧ texts ≠ []
    · obtain ⟨rfl, later⟩ := settled
      obtain ⟨further, all, split⟩ := ih (.inr rfl) later others fun c => List.mem_singleton.mp
      refine ⟨display.toList ++ further, fun c => ?_, ?_⟩
      · rw [List.mem_append]
        exact Or.rec (zeros c) (all c)
      · rw [split, append_ofList, List.append_assoc]
    · have entered : texts.foldl insert text = text ++ String.join texts := by
        by_cases last : texts = []
        · subst last
          exact String.append_empty.symm
        · exact foldl_insert part.noName part.some (fun again => settled ⟨again, last⟩) others
      refine ⟨display.toList, zeros, ?_⟩
      rw [entered, ← append_ofList, String.ofList_toList]

/-- Whether a zero, shown or entered first, stands alone when a text comes that does not extend it. -/
def LosesZero (display : String) (texts : List String) : Prop :=
  (display = "0" ∨ display = "" ∧ texts.head? = some "0") ∧ afterZeros texts ≠ "" ∧
    Lexeme.extendsZero (afterZeros texts).toList = false

theorem foldl_insert_of_losesZero {texts : List String} (lost : LosesZero display texts)
    (parts : ∀ text ∈ texts, IsPart text) : texts.foldl insert display = afterZeros texts := by
  obtain ⟨zero, some, -⟩ := lost
  have entered : texts ≠ [] := by
    rintro rfl
    exact some rfl
  rw [foldl_insert_zero (zero.symm.imp_left And.left) entered parts, if_neg some]

theorem foldl_insert_of_keepsZero (noName : endsInName display = false) {texts : List String}
    (kept : ¬ LosesZero display texts) (some : texts ≠ [])
    (parts : ∀ text ∈ texts, IsPart text) :
    texts.foldl insert display = display ++ String.join texts ∨
      (display = "" ∨ display = "0") ∧
        Lexeme.extendsZero (texts.foldl insert display).toList = true := by
  by_cases zero : display = "" ∨ display = "0"
  · have entered := foldl_insert_zero zero some parts
    split at entered
    · rw [entered]
      exact .inr ⟨zero, rfl⟩
    · rename_i later
      rw [entered]
      cases starts : Lexeme.extendsZero (afterZeros texts).toList with
      | true => exact .inr ⟨zero, rfl⟩
      | false =>
        -- nothing has stood alone, so there was no zero to begin with
        have noZero := not_or.mp fun alone => kept ⟨alone, later, starts⟩
        have empty := zero.resolve_right noZero.1
        left
        rw [afterZeros_of_head fun head => noZero.2 ⟨empty, head⟩, empty]
        exact String.empty_append.symm
  · have apart := not_or.mp zero
    exact .inl (foldl_insert noName apart.1 apart.2 parts)

end

end Display

namespace Keypad

def entryKeys : List String :=
  ["0", "1", "2", "3", "4", "5", "6", "7", "8", "9", ".", "+", "-", "×", "÷", "%", "(", ")", "x^y",
    "x²", "1/x", "mod", "√", "sin", "cos", "tan", "log", "ln", "π"]

def entered (label : String) : String :=
  match action label with
  | .insert text => text
  | _ => ""

theorem action_of_mem_entryKeys {label : String} (mem : label ∈ entryKeys) :
    action label = .insert (entered label) ∧ Display.IsPart (entered label) := by
  have all : entryKeys.all (fun label => action label == .insert (entered label) &&
      entered label != "" && !Display.endsInName (entered label)) = true := by decide
  have holds := List.all_eq_true.mp all label mem
  simp only [Bool.and_eq_true, beq_iff_eq, bne_iff_ne, Bool.not_eq_true'] at holds
  exact ⟨holds.1.1, holds.1.2, holds.2⟩

end Keypad

namespace Calculator
open Binary64

/-- A calculator that has just been cleared, or has just evaluated its display to a finite value. -/
inductive IsFresh : Calculator → Prop
  | cleared (c : Calculator) : IsFresh c.clear
  | evaluated {c : Calculator} {outcome : Outcome} (gives : c.Gives outcome)
    (finite : isFinite outcome.value = true) : IsFresh c.evaluate

theorem IsFresh.noName {c : Calculator} (fresh : c.IsFresh) :
    Display.endsInName c.display = false := by
  cases fresh with
  | cleared before =>
    change Display.endsInName "" = false
    cbv
  | evaluated gives finite =>
    rw [evaluate_of_gives gives]
    exact Display.endsInName_ofResult finite

theorem IsFresh.wantsFocus {c : Calculator} (fresh : c.IsFresh) : c.wantsFocus = true := by
  cases fresh with
  | cleared before => rfl
  | evaluated gives finite => rw [evaluate_of_gives gives]

theorem press_equals (c : Calculator) : c.press "=" = c.evaluate := by
  have action : Keypad.action "=" = .evaluate := by decide
  rw [press, action, perform]

theorem foldl_press {c : Calculator} (focus : c.wantsFocus = true) {keys : List String}
    (entry : ∀ key ∈ keys, key ∈ Keypad.entryKeys) : keys.foldl press c =
      { c with display := (keys.map Keypad.entered).foldl Display.insert c.display } := by
  induction keys generalizing c with
  | nil => rfl
  | cons key keys ih =>
    obtain ⟨first, others⟩ := List.forall_mem_cons.mp entry
    have pressed : c.press key =
        { c with display := Display.insert c.display (Keypad.entered key) } := by
      rw [press, (Keypad.action_of_mem_entryKeys first).1, perform, insert, ← focus]
    rw [List.foldl_cons, pressed]
    exact ih focus others

theorem evaluate_congr (c : Calculator) {first second : String} (someFirst : Text.trim first ≠ "")
    (someSecond : Text.trim second ≠ "") (same : ∀ outcome,
      Expression.workOut c.angle first = .ok outcome ↔
        Expression.workOut c.angle second = .ok outcome) :
    ({ c with display := first } : Calculator).evaluate =
      ({ c with display := second } : Calculator).evaluate := by
  have trimmed : ∀ outcome, Expression.workOut c.angle (Text.trim first) = .ok outcome ↔
      Expression.workOut c.angle (Text.trim second) = .ok outcome := by
    intro outcome
    rw [Expression.workOut_trim_eq_ok, Expression.workOut_trim_eq_ok, same]
  rw [evaluate, evaluate]
  simp only [someFirst, someSecond, if_false]
  cases worked : Expression.workOut c.angle (Text.trim first) with
  | ok outcome => rw [(trimmed outcome).mp worked]
  | error fault =>
    cases other : Expression.workOut c.angle (Text.trim second) with
    | ok outcome => cases worked.symm.trans ((trimmed outcome).mpr other)
    | error fault => rfl

theorem evaluate_of_keepsZero {c : Calculator} (noName : Display.endsInName c.display = false)
    {texts : List String} (kept : ¬ Display.LosesZero c.display texts) (some : texts ≠ [])
    (parts : ∀ text ∈ texts, Display.IsPart text) :
    ({ c with display := texts.foldl Display.insert c.display } : Calculator).evaluate =
      ({ c with display := c.display ++ String.join texts } : Calculator).evaluate := by
  rcases Display.foldl_insert_of_keepsZero noName kept some parts with whole | ⟨zero, starts⟩
  · rw [whole]
  · obtain ⟨zeros, all, split⟩ := Display.exists_zeros zero some parts
    rw [split]
    apply evaluate_congr
    · exact Lexeme.trim_ne_empty starts
    · apply Lexeme.trim_ne_empty
      rw [String.toList_ofList]
      exact Lexeme.extendsZero_append all starts
    · exact fun outcome => (Expression.workOut_zeros_append all starts c.angle outcome).symm

/-- What is keyed behind an empty display or a finite result is what is computed: the calculator is
then in the state that evaluating the display with the entered texts behind it leads to. But if a
zero has stood alone when a text came that does not extend it, this zero is left out. -/
theorem keyed_is_computed (c : Calculator) (keys : List String) (fresh : c.IsFresh)
    (some : keys ≠ []) (entry : ∀ key ∈ keys, key ∈ Keypad.entryKeys) :
    (¬ Display.LosesZero c.display (keys.map Keypad.entered) →
      (keys.foldl press c).press "=" =
        ({ c with display := c.display ++ String.join (keys.map Keypad.entered) } :
          Calculator).evaluate) ∧
    (Display.LosesZero c.display (keys.map Keypad.entered) →
      (keys.foldl press c).press "=" =
        ({ c with display := Display.afterZeros (keys.map Keypad.entered) } :
          Calculator).evaluate) := by
  have parts : ∀ text ∈ keys.map Keypad.entered, Display.IsPart text := by
    intro text mem
    obtain ⟨key, pressed, rfl⟩ := List.mem_map.mp mem
    exact (Keypad.action_of_mem_entryKeys (entry key pressed)).2
  have texts : keys.map Keypad.entered ≠ [] := by simpa using some
  rw [foldl_press fresh.wantsFocus entry, press_equals]
  constructor
  · intro kept
    exact evaluate_of_keepsZero fresh.noName kept texts parts
  · intro lost
    rw [Display.foldl_insert_of_losesZero lost parts]

theorem evaluate_zero : (evaluate { display := "0" }).IsFresh ∧
    (evaluate { display := "0" }).display = "0" ∧
    (evaluate { display := "0" }).angle = .degrees := by
  have scanned : Lexeme.scan 0 "0".toList = .ok [.numeral ⟨['0'], []⟩] := by cbv
  have trimmed : Text.trim "0" = "0" := by cbv
  have value : Expression.value .degrees (Text.trim "0") = .ok (Literal.mk ['0'] []).value := by
    rw [trimmed, Expression.value_eq_bind, tokenize, scanned]
    rfl
  obtain ⟨outcome, worked, worth⟩ := map_eq_ok value
  have gives : Gives { display := "0" } outcome := worked
  have finite : isFinite outcome.value = true := by
    rw [worth]
    decide +kernel
  have shown : Display.ofResult outcome.value = "0" := by
    rw [worth]
    decide +kernel
  have after := evaluate_of_gives gives
  exact ⟨.evaluated gives finite, (congrArg Calculator.display after).trans shown,
    congrArg Calculator.angle after⟩

/-- Behind a zero as the result, `.5` is a literal of its own, and has the value of `0.5`. -/
theorem keyed_is_computed_behind_zero : ∃ c : Calculator, c = evaluate { display := "0" } ∧
    c.IsFresh ∧ [".", "5"] ≠ [] ∧ (∀ key ∈ [".", "5"], key ∈ Keypad.entryKeys) ∧
    ¬ Display.LosesZero c.display ([".", "5"].map Keypad.entered) ∧
    (¬ Display.LosesZero c.display ([".", "5"].map Keypad.entered) →
      ([".", "5"].foldl press c).press "=" =
        ({ c with display := c.display ++ String.join ([".", "5"].map Keypad.entered) } :
          Calculator).evaluate) ∧
    (Display.LosesZero c.display ([".", "5"].map Keypad.entered) →
      ([".", "5"].foldl press c).press "=" =
        ({ c with display := Display.afterZeros ([".", "5"].map Keypad.entered) } :
          Calculator).evaluate) := by
  have fresh := evaluate_zero.1
  have some : [".", "5"] ≠ [] := List.cons_ne_nil _ _
  have entry : ∀ key ∈ [".", "5"], key ∈ Keypad.entryKeys := by decide
  have starts : Lexeme.extendsZero
      (Display.afterZeros ([".", "5"].map Keypad.entered)).toList = true := by cbv
  have kept : ∀ display, ¬ Display.LosesZero display ([".", "5"].map Keypad.entered) :=
    fun _ lost => Bool.false_ne_true (lost.2.2.symm.trans starts)
  exact ⟨_, rfl, fresh, some, entry, kept _, keyed_is_computed _ _ fresh some entry⟩

/-- A zero as the result cannot be continued with a sign: `+1` is evaluated instead of `0+1`. -/
theorem zero_not_continued : ∃ c : Calculator, c = evaluate { display := "0" } ∧ c.IsFresh ∧
    c.display = "0" ∧ (∀ key ∈ ["+", "1"], key ∈ Keypad.entryKeys) ∧
    ((["+", "1"].foldl press c).press "=").display = Display.failure ∧
    ({ c with display := c.display ++ String.join (["+", "1"].map Keypad.entered) } :
      Calculator).evaluate.display = "1" := by
  obtain ⟨c, defined⟩ : ∃ c : Calculator, c = evaluate { display := "0" } := ⟨_, rfl⟩
  obtain ⟨fresh, shown, degrees⟩ := evaluate_zero
  rw [← defined] at fresh shown degrees
  have entry : ∀ key ∈ ["+", "1"], key ∈ Keypad.entryKeys := by decide
  refine ⟨c, defined, fresh, shown, entry, ?_, ?_⟩
  · have typed : (["+", "1"].map Keypad.entered).foldl Display.insert "0" = "+1" := by cbv
    have trimmed : Text.trim "+1" = "+1" := by cbv
    have scanned : Lexeme.scan 0 "+1".toList =
        .ok [.sign (.binary .plus), .numeral ⟨['1'], []⟩] := by cbv
    have worked : Expression.workOut .degrees "+1" = .error (.missingOperands "+") := by
      rw [Expression.workOut, tokenize, scanned]
      rfl
    rw [foldl_press fresh.wantsFocus entry, shown, typed, press_equals]
    simp only [evaluate, trimmed, degrees, worked]
    rfl
  · have trimmed : Text.trim "0+1" = "0+1" := by cbv
    have scanned : Lexeme.scan 0 "0+1".toList = .ok
        [.numeral ⟨['0'], []⟩, .sign (.binary .plus), .numeral ⟨['1'], []⟩] := by cbv
    have value : Expression.value .degrees (Text.trim "0+1") =
        .ok ((Literal.mk ['0'] []).value + (Literal.mk ['1'] []).value) := by
      rw [trimmed, Expression.value_eq_bind, tokenize, scanned]
      rfl
    obtain ⟨outcome, worked, worth⟩ := map_eq_ok value
    have one : Display.ofResult outcome.value = "1" := by
      rw [worth]
      decide +kernel
    rw [← degrees] at worked
    have gives : Gives { c with display := "0+1" } outcome := worked
    rw [shown]
    exact (congrArg Calculator.display (evaluate_of_gives gives)).trans one

end Calculator

end DeskCalculator
