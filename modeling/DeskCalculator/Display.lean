import DeskCalculator.Decimal.FloatingNotation
import DeskCalculator.Decimal.Rounded
import DeskCalculator.Text.Blank
import DeskCalculator.Text.Name
set_option autoImplicit false

namespace DeskCalculator.Display

def failure : String :=
  "Error"

/-- Whether the text ends in a name, and not in a literal alone. -/
def endsInName (s : String) : Bool :=
  (s.toList.reverse.takeWhile Text.isNameChar).any Text.isNameStart

def startsWithNameChar (s : String) : Bool :=
  s.toList.head?.any Text.isNameChar

def join (display inserted : String) : String :=
  if endsInName display && startsWithNameChar inserted then display ++ " " ++ inserted
  else display ++ inserted

/-- The display with something entered. A zero alone and a failure give way to it. -/
def insert (display inserted : String) : String :=
  join (if display = "0" ∨ display = failure then "" else display) inserted

def deletedWhole : List String :=
  ["sqrt(", "asin(", "acos(", "atan(", "sin(", "cos(", "tan(", "log(", "ln(", "neg(", " mod "]

def withoutEnding? (cs ending : List Char) : Option (List Char) :=
  if ending.isSuffixOf cs then some (cs.take (cs.length - ending.length)) else none

theorem withoutEnding?_eq_some_iff {cs ending rest : List Char} :
    withoutEnding? cs ending = some rest ↔ cs = rest ++ ending := by
  rw [withoutEnding?]
  constructor
  · intro h
    split at h
    · rename_i suffix
      obtain ⟨before, rfl⟩ := List.isSuffixOf_iff_suffix.mp suffix
      cases h
      rw [List.length_append, Nat.add_sub_cancel, List.take_left]
    · cases h
  · rintro rfl
    rw [if_pos (List.isSuffixOf_iff_suffix.mpr (List.suffix_append rest ending)),
      List.length_append, Nat.add_sub_cancel, List.take_left]

def deleteLast (display : String) : String :=
  if display = failure then ""
  else
    let cs := display.toList
    String.ofList ((deletedWhole.findSome? (withoutEnding? cs ·.toList)).getD cs.dropLast)

/-- Whether every parenthesis has its partner, `depth` of them being open before the text. -/
def isBalanced (depth : Nat) : List Char → Bool
  | [] => depth == 0
  | '(' :: cs => isBalanced (depth + 1) cs
  | ')' :: cs => depth != 0 && isBalanced (depth - 1) cs
  | _ :: cs => isBalanced depth cs

/-- `isBalanced` with the depth in a word of 32 bits, which wraps around. -/
def isBalanced32 (depth : Int32) : List Char → Bool
  | [] => depth == 0
  | '(' :: cs => isBalanced32 (depth + 1) cs
  | ')' :: cs => !decide (depth - 1 < 0) && isBalanced32 (depth - 1) cs
  | _ :: cs => isBalanced32 depth cs

theorem ofNat_succ_sub_one (depth : Nat) : Int32.ofNat (depth + 1) - 1 = Int32.ofNat depth := by
  rw [Int32.ofNat_add]
  exact Int32.add_sub_cancel _ _

theorem isBalanced32_eq {depth : Nat} {cs : List Char} (short : depth + cs.length < Nat.pow 2 31) :
    isBalanced32 (Int32.ofNat depth) cs = isBalanced depth cs := by
  fun_induction isBalanced depth cs with
  | case1 depth =>
    have fits : depth < Nat.pow 2 31 := short
    rw [isBalanced32, Bool.eq_iff_iff, beq_iff_eq, beq_iff_eq, ← Int32.toInt_inj,
      Int32.toInt_ofNat_of_lt fits]
    exact Int.ofNat_inj
  | case2 depth cs ih =>
    rw [List.length_cons] at short
    have deeper := ih (by omega)
    rw [Int32.ofNat_add] at deeper
    rw [isBalanced32]
    exact deeper
  | case3 depth cs ih =>
    rw [List.length_cons] at short
    rw [isBalanced32]
    cases depth with
    | zero => rfl
    | succ depth =>
      have fits : depth < Nat.pow 2 31 := Nat.lt_of_le_of_lt (by omega) short
      have positive : ¬ Int32.ofNat depth < 0 := by
        rw [Int32.lt_iff_toInt_lt, Int32.toInt_ofNat_of_lt fits]
        exact Int.not_lt.mpr (Int.natCast_nonneg depth)
      rw [ofNat_succ_sub_one, decide_eq_false positive]
      exact ih (by omega)
  | case4 depth c cs opens closes ih =>
    rw [List.length_cons] at short
    rw [isBalanced32]
    · exact ih (by omega)
    · exact opens
    · exact closes

def negation (s : String) : String :=
  "neg(" ++ s ++ ")"

def negated? (cs : List Char) : Option (List Char) :=
  if "neg(".toList.isPrefixOf cs then
    (withoutEnding? (cs.drop "neg(".length) [')']).filter (isBalanced 0)
  else none

def unsigned? : List Char → Option (List Char)
  | '-' :: cs => if Decimal.isFloatingNotation cs then some cs else none
  | _ => none

def toggleSign? (display : String) : Option String :=
  let shown := Text.trim display
  if shown = "" ∨ shown = "0" ∨ shown = failure then none
  else
    match (unsigned? shown.toList).or (negated? shown.toList) with
    | some cs => some (String.ofList cs)
    | none => some (negation shown)

/-- A finite result as an expression with that value, up to the rounding: an expression has no minus
sign for a single number. -/
def readable? (x : Float) : Option String :=
  if Binary64.isFinite x then
    let magnitude := Decimal.roundedText x.abs
    some (if x < 0.0 ∧ magnitude ≠ "0" then negation magnitude else magnitude)
  else none

def ofResult (x : Float) : String :=
  (readable? x).getD (Decimal.roundedText x)

end DeskCalculator.Display
