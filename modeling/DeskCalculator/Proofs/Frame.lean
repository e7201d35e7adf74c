import DeskCalculator.Proofs.Focus
import DeskCalculator.Window
set_option autoImplicit false

namespace DeskCalculator

namespace Toolkit

/-- What is relied on in a toolkit, `active` being whether the entry field has the keyboard. -/
structure Laws (t : Toolkit) (active : t.Memory → Bool) : Prop where
  active_giveKeyboard : ∀ memory, active (t.giveKeyboard memory) = true
  active_button : ∀ input memory label, active (t.button input memory label).2 = active memory
  active_panel : ∀ input memory title, active (t.panel input memory title).2 = active memory

/-- Whether an input presses neither Escape nor Enter and clicks on no button but this one. -/
structure ClicksOnly (t : Toolkit) (input : t.Input) (only : Option String) : Prop where
  noEscape : t.escapePressed input = false
  noEnter : t.enterPressed input = false
  clicked : ∀ memory label, (t.button input memory label).1 = (only == some label)

variable {t : Toolkit}

/-- Whether an input is a click on a button, which takes the keyboard away from the field. -/
structure IsClick (active : t.Memory → Bool) (input : t.Input) (label : String) : Prop
    extends t.ClicksOnly input (some label) where
  text : ∀ memory text, (t.field input memory text).1.text = text
  active : ∀ memory text, active (t.field input memory text).2 = false

structure IsPause (active : t.Memory → Bool) (input : t.Input) : Prop
    extends t.ClicksOnly input none where
  text : ∀ memory text, (t.field input memory text).1.text = text
  active : ∀ memory text, active (t.field input memory text).2 = active memory

/-- Whether an input is a typed text, which goes into the field if that has the keyboard, and nowhere
otherwise. -/
structure IsTyping (active : t.Memory → Bool) (input : t.Input) (typed : String) : Prop
    extends t.ClicksOnly input none where
  lost : ∀ memory text, active memory = false → (t.field input memory text).1.text = text
  entered : ∀ memory text, active memory = true → ∃ before after,
    text = before ++ after ∧ (t.field input memory text).1.text = before ++ typed ++ after

end Toolkit

namespace View
open Toolkit

variable {t : Toolkit} {active : t.Memory → Bool} {input : t.Input} {only : Option String}
  {label : String}

structure Unchanged (active : t.Memory → Bool) (before after : View t) : Prop where
  calculator : after.calculator = before.calculator
  active : active after.memory = active before.memory

theorem Unchanged.trans {u v w : View t} (first : Unchanged active u v)
    (second : Unchanged active v w) : Unchanged active u w where
  calculator := second.calculator.trans first.calculator
  active := second.active.trans first.active

theorem Unchanged.perform {v w : View t} (h : Unchanged active v w) (action : Action) :
    Unchanged active (v.perform action) (w.perform action) where
  calculator := congrArg (Calculator.perform · action) h.calculator
  active := h.active

theorem drawField_of_noEnter (laws : t.Laws active) (noEnter : t.enterPressed input = false)
    (v : View t) :
    (v.drawField input).calculator =
      { v.calculator with
        display := (t.field input v.memory v.calculator.display).1.text, wantsFocus := false } ∧
    active (v.drawField input).memory =
      (v.calculator.wantsFocus || active (t.field input v.memory v.calculator.display).2) := by
  have entered : (v.calculator.perform (.overwrite
      (t.field input v.memory v.calculator.display).1.text)).wantsFocus =
        v.calculator.wantsFocus := rfl
  rw [drawField]
  dsimp only
  rw [noEnter, Bool.and_false, if_neg Bool.false_ne_true, entered]
  split
  · rename_i wants
    rw [wants]
    exact ⟨rfl, laws.active_giveKeyboard _⟩
  · rename_i idle
    rw [Bool.eq_false_iff.mpr idle]
    refine ⟨?_, rfl⟩
    rw [← Bool.eq_false_iff.mpr idle]
    rfl

theorem drawUnit_of_other (laws : t.Laws active) (h : t.ClicksOnly input only) {unit : Angle}
    (other : only ≠ some unit.label) (v : View t) : Unchanged active v (drawUnit input v unit) := by
  rw [drawUnit]
  dsimp only
  rw [h.clicked, beq_eq_false_iff_ne.mpr other, Bool.false_and, if_neg Bool.false_ne_true]
  exact ⟨rfl, laws.active_button _ _ _⟩

theorem drawUnits_of_other (laws : t.Laws active) (h : t.ClicksOnly input only)
    (other : ∀ unit : Angle, only ≠ some unit.label) (v : View t) :
    Unchanged active v (units.foldl (drawUnit input) v) :=
  (drawUnit_of_other laws h (other .degrees) v).trans
    (drawUnit_of_other laws h (other .radians) _)

theorem drawKey_of_other (laws : t.Laws active) (h : t.ClicksOnly input only)
    (other : only ≠ some label) (v : View t) : Unchanged active v (drawKey input v label) := by
  rw [drawKey]
  dsimp only
  rw [h.clicked, beq_eq_false_iff_ne.mpr other, if_neg Bool.false_ne_true]
  exact ⟨rfl, laws.active_button _ _ _⟩

theorem drawKey_self (laws : t.Laws active) (h : t.ClicksOnly input (some label)) (v : View t) :
    Unchanged active (v.perform (Keypad.action label)) (drawKey input v label) := by
  rw [drawKey]
  dsimp only
  rw [h.clicked, beq_self_eq_true, if_pos rfl]
  exact ⟨rfl, laws.active_button _ _ _⟩

theorem drawKeys_of_other (laws : t.Laws active) (h : t.ClicksOnly input only)
    {labels : List String} (other : ∀ label ∈ labels, only ≠ some label) (v : View t) :
    Unchanged active v (labels.foldl (drawKey input) v) := by
  induction labels generalizing v with
  | nil => exact ⟨rfl, rfl⟩
  | cons label labels ih =>
    obtain ⟨first, others⟩ := List.forall_mem_cons.mp other
    exact (drawKey_of_other laws h first v).trans (ih others _)

theorem drawKeys_of_mem (laws : t.Laws active) (h : t.ClicksOnly input (some label))
    {labels : List String} (distinct : labels.Nodup) (mem : label ∈ labels) (v : View t) :
    Unchanged active (v.perform (Keypad.action label)) (labels.foldl (drawKey input) v) := by
  induction labels generalizing v with
  | nil => cases mem
  | cons first labels ih =>
    obtain ⟨absent, distinctRest⟩ := List.nodup_cons.mp distinct
    rcases List.mem_cons.mp mem with rfl | later
    · have others : ∀ other ∈ labels, some label ≠ some other := by
        intro other isLater same
        exact absent (Option.some.inj same ▸ isLater)
      exact (drawKey_self laws h v).trans (drawKeys_of_other laws h others _)
    · have other : some label ≠ some first := by
        intro same
        exact absent (Option.some.inj same ▸ later)
      exact ((drawKey_of_other laws h other v).perform _).trans (ih distinctRest later _)

theorem drawPanel_unchanged (laws : t.Laws active) (input : t.Input) (v : View t) :
    Unchanged active v (v.drawPanel input) :=
  ⟨rfl, laws.active_panel _ _ _⟩

theorem ne_label_of_key (key : label ∈ Keypad.labels) (unit : Angle) : label ≠ unit.label := by
  rintro rfl
  cases unit <;> revert key <;> decide

theorem frame_of_noEscape (noEscape : t.escapePressed input = false) (v : View t) :
    v.frame input = (Keypad.labels.foldl (drawKey input)
      (units.foldl (drawUnit input) (v.drawField input))).drawPanel input := by
  rw [frame, noEscape]
  rfl

theorem frame_of_noClick (laws : t.Laws active) (h : t.ClicksOnly input none) (v : View t) :
    Unchanged active (v.drawField input) (v.frame input) := by
  rw [frame_of_noEscape h.noEscape]
  have nothing : ∀ label : String, none ≠ some label := fun label => (Option.some_ne_none label).symm
  exact ((drawUnits_of_other laws h (fun unit => nothing unit.label) _).trans
    (drawKeys_of_other laws h (fun label _ => nothing label) _)).trans
      (drawPanel_unchanged laws input _)

theorem frame_of_key (laws : t.Laws active) (h : t.ClicksOnly input (some label))
    (key : label ∈ Keypad.labels) (v : View t) :
    Unchanged active ((v.drawField input).perform (Keypad.action label)) (v.frame input) := by
  have noUnit : ∀ unit : Angle, some label ≠ some unit.label :=
    fun unit same => ne_label_of_key key unit (Option.some.inj same)
  have distinct : Keypad.labels.Nodup := by decide
  have chosen := (drawUnits_of_other laws h noUnit (v.drawField input)).perform
    (Keypad.action label)
  rw [frame_of_noEscape h.noEscape]
  exact (chosen.trans (drawKeys_of_mem laws h distinct key _)).trans
    (drawPanel_unchanged laws input _)

theorem frame_of_pause (laws : t.Laws active) (pause : IsPause active input) (v : View t) :
    (v.frame input).calculator = { v.calculator with wantsFocus := false } ∧
      active (v.frame input).memory = (v.calculator.wantsFocus || active v.memory) := by
  have field := drawField_of_noEnter laws pause.noEnter v
  have drawn := frame_of_noClick laws pause.toClicksOnly v
  rw [pause.text, pause.active] at field
  exact ⟨drawn.calculator.trans field.1, drawn.active.trans field.2⟩

/-- A click on a key presses it when the field has lost the keyboard, and what the key asks for is
still pending at the end of the frame. -/
theorem frame_of_click (laws : t.Laws active) (click : IsClick active input label)
    (key : label ∈ Keypad.labels) {v : View t} (served : v.calculator.wantsFocus = false) :
    (v.frame input).calculator = v.calculator.press label ∧
      active (v.frame input).memory = false := by
  obtain ⟨calculator, keyboard⟩ := drawField_of_noEnter laws click.noEnter v
  rw [click.text, ← served] at calculator
  rw [click.active, served] at keyboard
  have drawn := frame_of_key laws click.toClicksOnly key v
  exact ⟨drawn.calculator.trans (congrArg (Calculator.press · label) calculator),
    drawn.active.trans keyboard⟩

/-- When a key has been clicked and the frame after that is over, the field has the keyboard if the
key asks for it. Then a text that is typed goes into the display, and it is lost otherwise. -/
theorem typed_after_click (laws : t.Laws active) {click pause typing : t.Input} {typed : String}
    (isClick : IsClick active click label) (isPause : IsPause active pause)
    (isTyping : IsTyping active typing typed) (key : label ∈ Keypad.labels) {v : View t}
    (served : v.calculator.wantsFocus = false) :
    let asks := v.calculator.asksForFocus (Keypad.action label)
    let after := (v.frame click).frame pause
    after.calculator = { v.calculator.press label with wantsFocus := false } ∧
    active after.memory = asks ∧
    (asks = false → (after.frame typing).calculator = after.calculator) ∧
    (asks = true → ∃ before behind, after.calculator.display = before ++ behind ∧
      (after.frame typing).calculator =
        { after.calculator with display := before ++ typed ++ behind }) := by
  intro asks after
  obtain ⟨clicked, inactive⟩ := frame_of_click laws isClick key served
  obtain ⟨paused, active_paused⟩ := frame_of_pause laws isPause (v.frame click)
  rw [clicked] at paused
  have keyboard : active after.memory = asks := by
    rw [active_paused, inactive, clicked, Bool.or_false, Calculator.press,
      Calculator.wantsFocus_perform, served, Bool.false_or]
  have idle : after.calculator.wantsFocus = false := by rw [paused]
  have entered := (frame_of_noClick laws isTyping.toClicksOnly after).calculator.trans
    (drawField_of_noEnter laws isTyping.noEnter after).1
  rw [← idle] at entered
  refine ⟨paused, keyboard, fun lost => ?_, fun has => ?_⟩
  · rw [isTyping.lost _ _ (keyboard.trans lost)] at entered
    exact entered
  · obtain ⟨before, behind, split, text⟩ :=
      isTyping.entered after.memory after.calculator.display (keyboard.trans has)
    rw [text] at entered
    exact ⟨before, behind, split, entered⟩

end View

namespace Window
open Toolkit View

theorem toolkit_laws : toolkit.Laws Memory.fieldActive where
  active_giveKeyboard _ := rfl
  active_button _ _ _ := rfl
  active_panel _ _ _ := rfl

theorem isPause_none : IsPause (t := toolkit) Memory.fieldActive none where
  noEscape := rfl
  noEnter := rfl
  clicked _ _ := rfl
  text _ _ := rfl
  active _ _ := rfl

theorem target?_eq_key_iff {label other : String} (key : label ∈ Keypad.labels) :
    target? other = some (.key label) ↔ other = label := by
  constructor
  · intro hit
    unfold target? at hit
    split_ifs at hit <;> cases hit
    rfl
  · rintro rfl
    have noPanel : other ≠ panelTitle := by
      rintro rfl
      revert key
      decide
    rw [target?, if_neg (ne_label_of_key key .degrees), if_neg (ne_label_of_key key .radians),
      if_neg noPanel, if_pos (List.contains_iff_mem.mpr key)]

theorem isClick_key {label : String} (key : label ∈ Keypad.labels) :
    IsClick (t := toolkit) Memory.fieldActive (some (.click (.key label))) label where
  noEscape := rfl
  noEnter := rfl
  clicked _ other := by
    change (target? other == some (.key label)) = (some label == some other)
    rw [Bool.eq_iff_iff, beq_iff_eq, beq_iff_eq, target?_eq_key_iff key, Option.some_inj, eq_comm]
  text _ _ := rfl
  active _ _ := rfl

theorem isTyping_type (typed : String) :
    IsTyping (t := toolkit) Memory.fieldActive (some (.type typed)) typed where
  noEscape := rfl
  noEnter := rfl
  clicked _ _ := rfl
  lost memory text inactive := by
    change (if memory.fieldActive then text ++ typed else text) = text
    rw [inactive, if_neg Bool.false_ne_true]
  entered memory text has := by
    refine ⟨text, "", String.append_empty.symm, ?_⟩
    change (if memory.fieldActive then text ++ typed else text) = text ++ typed ++ ""
    rw [has, if_pos rfl, String.append_empty]

def run (w : Window) (events : List Event) : Window :=
  events.foldl handle w

theorem wantsFocus_run (angle : Angle) (events : List Event) :
    ((start angle).run events).calculator.wantsFocus = false := by
  rcases events.eq_nil_or_concat' with rfl | ⟨earlier, event, rfl⟩
  · exact congrArg Calculator.wantsFocus (frame_of_pause toolkit_laws isPause_none _).1
  · rw [run, List.foldl_concat]
    exact congrArg Calculator.wantsFocus (frame_of_pause toolkit_laws isPause_none _).1

theorem fieldActive_click {label : String} (key : label ∈ Keypad.labels) (angle : Angle)
    (events : List Event) :
    let before := (start angle).run events
    (before.handle (.click (.key label))).fieldActive =
      before.calculator.asksForFocus (Keypad.action label) :=
  (typed_after_click toolkit_laws (isClick_key key) isPause_none (isTyping_type "") key
    (wantsFocus_run angle events)).2.1

end Window

end DeskCalculator
