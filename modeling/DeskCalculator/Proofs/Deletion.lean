import DeskCalculator.Proofs.Insertion
import DeskCalculator.Proofs.Keypad
set_option autoImplicit false

namespace DeskCalculator

namespace Display
open Text

variable {before text display : String}

def gap (display inserted : String) : String :=
  if endsInName display && startsWithNameChar inserted then " " else ""

theorem join_eq_append (display inserted : String) :
    join display inserted = display ++ gap display inserted ++ inserted := by
  rw [join, gap]
  split
  · rfl
  · rw [String.append_empty]

theorem tokenize_append_gap (display inserted : String) :
    tokenize (display ++ gap display inserted) = tokenize display := by
  have blank : ∀ c ∈ (gap display inserted).toList, isBlank c = true := by
    rw [gap]
    split
    · exact List.all_eq_true.mp rfl
    · exact List.forall_mem_nil _
  rw [tokenize, tokenize, String.toList_append, Lexeme.scan_append_blanks blank]

theorem endsInName_of_letter {cs : List Char} {c : Char} (ends : display.toList = cs ++ [c])
    (letter : isNameStart c = true) : endsInName display = true := by
  have name : isNameChar c = true := isNameChar_iff.mpr (.inl letter)
  rw [endsInName, ends, List.reverse_concat, List.takeWhile_cons_of_pos name, List.any_cons, letter]
  rfl

theorem endsInName_append_gap (starts : startsWithNameChar text = true) :
    endsInName (display ++ gap display text) = false := by
  rw [gap, starts, Bool.and_true]
  cases named : endsInName display with
  | true =>
    have blank : (display ++ " ").toList.reverse = ' ' :: display.toList.reverse := by
      rw [String.toList_append]
      exact List.reverse_concat
    change endsInName (display ++ " ") = false
    rw [endsInName, blank]
    rfl
  | false =>
    change endsInName (display ++ "") = false
    rw [String.append_empty, named]

/-- Whether a text that a key enters is deleted at once: it is one of the words, or a character.
No other word ends it, and none ends in it but the name of an inverse function. -/
structure IsUndone (text : String) : Prop where
  whole : text ∈ deletedWhole ∨ text.length = 1
  noFailure : text.toList.getLast?.any (· != 'r') = true
  within : ∀ word ∈ deletedWhole, word.toList <:+ text.toList → word = text
  beyond : ∀ word ∈ deletedWhole, text.toList <:+ word.toList →
    word = text ∨ word.toList = 'a' :: text.toList ∧ startsWithNameChar text = true

theorem IsUndone.append_ne_failure (undone : IsUndone text) (before : String) :
    before ++ text ≠ failure := by
  intro same
  have last : (before ++ text).toList.getLast? = some 'r' := by
    rw [same]
    rfl
  have ends := undone.noFailure
  rw [String.toList_append, List.getLast?_append] at last
  cases entered : text.toList.getLast? with
  | none =>
    rw [entered] at ends
    cases ends
  | some c =>
    rw [entered] at ends last
    cases last
    cases ends

theorem IsUndone.eq_of_suffix (undone : IsUndone text) {word : String} (mem : word ∈ deletedWhole)
    (suffix : word.toList <:+ (display ++ gap display text ++ text).toList) : word = text := by
  rw [String.toList_append] at suffix
  rcases List.suffix_or_suffix_of_suffix suffix (List.suffix_append _ text.toList) with
    inside | outside
  · exact undone.within word mem inside
  · rcases undone.beyond word mem outside with same | ⟨inverse, starts⟩
    · exact same
    · -- the letter of the inverse function would stand right in front of the entered name
      obtain ⟨rest, split⟩ := suffix
      rw [inverse, List.append_cons, List.append_cancel_right_eq] at split
      have named := endsInName_of_letter split.symm rfl
      rw [endsInName_append_gap starts] at named
      cases named

theorem IsUndone.deleteLast_eq (undone : IsUndone text) (display : String) :
    deleteLast (display ++ gap display text ++ text) = display ++ gap display text := by
  have split : (display ++ gap display text ++ text).toList =
      (display ++ gap display text).toList ++ text.toList := String.toList_append
  rw [deleteLast, if_neg (undone.append_ne_failure _)]
  dsimp only
  cases found : deletedWhole.findSome? fun word =>
      withoutEnding? (display ++ gap display text ++ text).toList word.toList with
  | some rest =>
    obtain ⟨word, mem, taken⟩ := List.exists_of_findSome?_eq_some found
    have ending := withoutEnding?_eq_some_iff.mp taken
    obtain rfl := undone.eq_of_suffix mem ⟨rest, ending.symm⟩
    rw [split, List.append_cancel_right_eq] at ending
    rw [Option.getD_some, ← ending, String.ofList_toList]
  | none =>
    have noWord : text ∉ deletedWhole := by
      intro mem
      have none := List.findSome?_eq_none_iff.mp found text mem
      rw [withoutEnding?_eq_some_iff.mpr split] at none
      cases none
    obtain ⟨c, entered⟩ := List.length_eq_one_iff.mp (undone.whole.resolve_left noWord)
    rw [Option.getD_none, split, entered, List.dropLast_concat, String.ofList_toList]

end Display

namespace Keypad

def undoneKeys : List String :=
  ["sin", "cos", "tan", "log", "ln", "√", "mod", "x^y", "0", "1", "2", "3", "4", "5", "6", "7", "8",
    "9", ".", "+", "-", "×", "÷", "%", ")", "π", "e"]

theorem action_of_mem_undoneKeys {label : String} (mem : label ∈ undoneKeys) :
    action label = .insert (entered label) ∧ Display.IsUndone (entered label) := by
  have all : ∀ label ∈ undoneKeys, action label = .insert (entered label) ∧
      (entered label ∈ Display.deletedWhole ∨ (entered label).length = 1) ∧
      (entered label).toList.getLast?.any (· != 'r') = true ∧
      (∀ word ∈ Display.deletedWhole, word.toList <:+ (entered label).toList →
        word = entered label) ∧
      ∀ word ∈ Display.deletedWhole, (entered label).toList <:+ word.toList →
        word = entered label ∨ word.toList = 'a' :: (entered label).toList ∧
          Display.startsWithNameChar (entered label) = true := by
    decide
  obtain ⟨acts, whole, noFailure, within, beyond⟩ := all label mem
  exact ⟨acts, whole, noFailure, within, beyond⟩

end Keypad

namespace Calculator

/-- Deleting after a key undoes it: the display is what it was, with the blank behind it if the key
put one there. It is read as it was, and nothing else of the state has changed. -/
theorem key_undone (c : Calculator) {key : String} (mem : key ∈ Keypad.undoneKeys)
    (zero : c.display ≠ "0") (noFailure : c.display ≠ Display.failure) :
    ∃ blank, (blank = "" ∨ blank = " ") ∧
      (c.press key).display = c.display ++ blank ++ Keypad.entered key ∧
      (c.press key).press "DEL" = { c with display := c.display ++ blank, wantsFocus := true } ∧
      tokenize (c.display ++ blank) = tokenize c.display := by
  obtain ⟨acts, undone⟩ := Keypad.action_of_mem_undoneKeys mem
  let text := Keypad.entered key
  have pressed : c.press key = { c with
      display := c.display ++ Display.gap c.display text ++ text
      wantsFocus := true } := by
    rw [press, acts, perform, insert, Display.insert_eq_join zero noFailure,
      Display.join_eq_append]
  have delete : Keypad.action "DEL" = .deleteLast := by decide
  refine ⟨Display.gap c.display text, ?_, by rw [pressed], ?_,
    Display.tokenize_append_gap c.display text⟩
  · rw [Display.gap]
    split
    · exact .inr rfl
    · exact .inl rfl
  · rw [press, delete, perform, pressed, deleteLast, undone.deleteLast_eq]

/-- Behind a letter, a name is entered with a blank in front of it. -/
theorem key_undone_behind_letter : ∃ c : Calculator, c.display = "2a" ∧
    "sin" ∈ Keypad.undoneKeys ∧ c.display ≠ "0" ∧ c.display ≠ Display.failure ∧
    ∃ blank, (blank = "" ∨ blank = " ") ∧
      (c.press "sin").display = c.display ++ blank ++ Keypad.entered "sin" ∧
      (c.press "sin").press "DEL" =
        { c with display := c.display ++ blank, wantsFocus := true } ∧
      tokenize (c.display ++ blank) = tokenize c.display := by
  let c : Calculator := { display := "2a" }
  have mem : "sin" ∈ Keypad.undoneKeys := by decide
  have zero : c.display ≠ "0" := by decide
  have noFailure : c.display ≠ Display.failure := by decide
  exact ⟨c, rfl, mem, zero, noFailure, key_undone c mem zero noFailure⟩

end Calculator

end DeskCalculator
