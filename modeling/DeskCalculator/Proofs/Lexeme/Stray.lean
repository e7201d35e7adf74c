import DeskCalculator.Decimal.FloatingNotation
import DeskCalculator.Proofs.Lexeme.Splitting
set_option autoImplicit false

namespace DeskCalculator.Lexeme
open Text

/-- The characters that are lexemes by themselves, apart from π. -/
def signs : List Char :=
  ['(', ')', '+', '-', '*', '/', '^', '%']

/-- Whether a character is neither white space nor part of a lexeme. A point is part of a literal
only in front of a digit. -/
def isStray (c : Char) (next : Option Char) : Bool :=
  !(isBlank c || isNameChar c || c == 'π' || signs.contains c ||
    (c == '.' && next.any Char.isDigit))

def StrayAt (cs : List Char) (position : Nat) (c : Char) : Prop :=
  cs[position]? = some c ∧ isStray c cs[position + 1]? = true

def FirstStray (cs : List Char) (position : Nat) (c : Char) : Prop :=
  StrayAt cs position c ∧ ∀ earlier other, StrayAt cs earlier other → position ≤ earlier

theorem not_strayAt_nil (position : Nat) (c : Char) : ¬ StrayAt [] position c :=
  fun stray => nomatch stray.1

/-- Whether the stray characters of a text are those of a part of it, `lead` characters farther
on. -/
def StrayAfter (lead : Nat) (cs rest : List Char) : Prop :=
  ∀ position c, StrayAt cs position c ↔ ∃ later, position = later + lead ∧ StrayAt rest later c

section

variable {c : Char} {cs rest : List Char}

theorem StrayAfter.trans {first second : Nat} {middle : List Char}
    (outer : StrayAfter first cs middle) (inner : StrayAfter second middle rest) :
    StrayAfter (second + first) cs rest := by
  intro position c
  rw [outer]
  constructor
  · rintro ⟨_, rfl, after⟩
    obtain ⟨later, rfl, stray⟩ := (inner _ c).mp after
    exact ⟨later, Nat.add_assoc _ _ _, stray⟩
  · rintro ⟨later, rfl, stray⟩
    exact ⟨later + second, (Nat.add_assoc _ _ _).symm, (inner _ c).mpr ⟨later, rfl, stray⟩⟩

theorem strayAfter_cons (fits : isStray c cs.head? = false) : StrayAfter 1 (c :: cs) cs := by
  intro position d
  cases position with
  | zero =>
    constructor
    · rintro ⟨here, stray⟩
      cases here
      rw [List.getElem?_cons_succ, ← List.head?_eq_getElem?, fits] at stray
      cases stray
    · rintro ⟨later, same, -⟩
      cases same
  | succ later =>
    constructor
    · exact fun stray => ⟨later, rfl, stray⟩
    · rintro ⟨_, same, stray⟩
      cases same
      exact stray

theorem strayAfter_append (never : ∀ c ∈ cs, ∀ next, isStray c next = false) :
    StrayAfter cs.length (cs ++ rest) rest := by
  induction cs with
  | nil =>
    intro position c
    exact ⟨fun stray => ⟨position, rfl, stray⟩, fun ⟨_, same, stray⟩ => same.symm ▸ stray⟩
  | cons c cs ih =>
    obtain ⟨first, others⟩ := List.forall_mem_cons.mp never
    exact (strayAfter_cons (first _)).trans (ih others)

theorem isStray_eq_false (known : isBlank c = true ∨ isNameChar c = true ∨ c = 'π' ∨ c ∈ signs)
    (next : Option Char) : isStray c next = false := by
  rcases known with blank | name | rfl | sign
  · simp [isStray, blank]
  · simp [isStray, name]
  · rfl
  · rw [isStray, List.contains_iff_mem.mpr sign, Bool.or_true, Bool.true_or]
    rfl

/-- No character of a literal is stray, for the point in it stands in front of a digit. -/
theorem strayAfter_literal {l : Literal} (written : l.IsWritten) :
    StrayAfter l.text.length (l.text ++ rest) rest := by
  have never : ∀ {cs : List Char}, (∀ c ∈ cs, c.isDigit = true) →
      ∀ c ∈ cs, ∀ next, isStray c next = false :=
    fun digits c mem => isStray_eq_false (.inr (.inl (isNameChar_of_isDigit (digits c mem))))
  obtain ⟨whole, fraction⟩ := l
  obtain ⟨digits, places, -⟩ := written
  cases fraction with
  | nil => exact strayAfter_append (never digits)
  | cons first others =>
    have text : (Literal.mk whole (first :: others)).text = whole ++ '.' :: first :: others := rfl
    have point : isStray '.' (first :: others ++ rest).head? = false := by
      have digit : first.isDigit = true := places first List.mem_cons_self
      simp [isStray, digit]
    have after := (strayAfter_cons point).trans (strayAfter_append (never places))
    rw [text, List.append_assoc, List.length_append, Nat.add_comm]
    exact (strayAfter_append (never digits)).trans after

theorem mem_signs_of_mem_symbol {op : Operator} (other : op ≠ .binary .modulo)
    (mem : c ∈ op.symbol.toList) : c ∈ signs := by
  have all : op.symbol.toList.all signs.contains = true := by
    cases op with
    | percent => rfl
    | binary op =>
      cases op with
      | modulo => exact absurd rfl other
      | plus | minus | times | divide | power => rfl
  exact List.contains_iff_mem.mp (List.all_eq_true.mp all c mem)

theorem isStray_of_mem_lexeme {lexeme : Lexeme} (written : lexeme.IsWritten)
    (other : ∀ literal, lexeme ≠ numeral literal) :
    ∀ c ∈ lexeme.text, ∀ next, isStray c next = false := by
  intro c mem
  apply isStray_eq_false
  right
  match lexeme, written with
  | numeral literal, _ => exact absurd rfl (other literal)
  | word _, .inl rfl => exact .inr (.inl (List.mem_singleton.mp mem))
  | word _, .inr ⟨first, others, rfl, start, all⟩ =>
    left
    rcases List.mem_cons.mp mem with rfl | later
    · exact isNameChar_iff.mpr (.inl start)
    · exact all c later
  | sign op, written => exact .inr (.inr (mem_signs_of_mem_symbol written mem))
  | opening, _ | closing, _ =>
    rw [List.mem_singleton.mp mem]
    decide

theorem strayAfter_lexeme {lexeme : Lexeme} (taken : takeLexeme? c cs = some (lexeme, rest)) :
    StrayAfter lexeme.text.length (c :: cs) rest := by
  have written := isWritten_of_takeLexeme? taken
  rw [← takeLexeme?_split taken]
  cases lexeme with
  | numeral literal => exact strayAfter_literal written
  | word | sign | opening | closing =>
    exact strayAfter_append (isStray_of_mem_lexeme written nofun)

theorem ofChar?_isSome_of_mem_signs (mem : c ∈ signs) (opens : c ≠ '(') (closes : c ≠ ')') :
    (Operator.ofChar? c).isSome = true := by
  have all : signs.all (fun c => c == '(' || c == ')' || (Operator.ofChar? c).isSome) = true := rfl
  simpa [opens, closes] using List.all_eq_true.mp all c mem

theorem isStray_of_takeLexeme?_none (visible : isBlank c = false)
    (none : takeLexeme? c cs = none) : isStray c cs.head? = true := by
  have digits : cs.head?.any Char.isDigit = startsWithDigit cs := by cases cs <;> rfl
  unfold takeLexeme? at none
  split_ifs at none with number start pi opens closes
  have sign : c ∉ signs := by
    intro mem
    have some := ofChar?_isSome_of_mem_signs mem (by simpa using opens) (by simpa using closes)
    rw [Option.map_eq_none_iff.mp none] at some
    cases some
  obtain ⟨digit, point⟩ := not_or.mp (mt Bool.or_eq_true_iff.mpr number)
  have name : ¬ isNameChar c = true := by
    intro name
    rcases isNameChar_iff.mp name with first | bounds
    · exact start first
    · exact digit (Char.isDigit_iff_toNat.mpr bounds)
  rw [isStray, digits]
  simp [visible, name, pi, sign, point]

end

section

variable {cs rest : List Char} {lead start position : Nat} {c : Char}

theorem StrayAfter.firstStray_iff (after : StrayAfter lead cs rest) :
    FirstStray cs position c ↔ ∃ later, position = later + lead ∧ FirstStray rest later c := by
  constructor
  · rintro ⟨first, least⟩
    obtain ⟨later, rfl, stray⟩ := (after _ _).mp first
    refine ⟨later, rfl, stray, fun earlier other among => ?_⟩
    exact Nat.le_of_add_le_add_right (least _ _ ((after _ _).mpr ⟨earlier, rfl, among⟩))
  · rintro ⟨later, rfl, stray, least⟩
    refine ⟨(after _ _).mpr ⟨later, rfl, stray⟩, fun earlier other among => ?_⟩
    obtain ⟨before, rfl, stray⟩ := (after _ _).mp among
    exact Nat.add_le_add_right (least _ _ stray) lead

theorem firstStray_iff_zero (stray : isStray c cs.head? = true) {d : Char} :
    FirstStray (c :: cs) position d ↔ position = 0 ∧ d = c := by
  have here : StrayAt (c :: cs) 0 c := by
    refine ⟨rfl, ?_⟩
    rwa [List.getElem?_cons_succ, ← List.head?_eq_getElem?]
  constructor
  · rintro ⟨⟨among, -⟩, least⟩
    obtain rfl := Nat.le_zero.mp (least 0 c here)
    exact ⟨rfl, (Option.some.inj among).symm⟩
  · rintro ⟨rfl, rfl⟩
    exact ⟨here, fun _ _ _ => Nat.zero_le _⟩

theorem exists_firstStray_iff (cs : List Char) :
    (∃ position c, FirstStray cs position c) ↔ ∃ position c, StrayAt cs position c := by
  classical
  constructor
  · rintro ⟨position, c, stray, -⟩
    exact ⟨position, c, stray⟩
  · intro some
    obtain ⟨c, stray⟩ := Nat.find_spec some
    exact ⟨_, c, stray, fun earlier other among => Nat.find_min' some ⟨other, among⟩⟩

/-- Whether the fault is the first stray character of the text, which starts at `start`. -/
def IsFirstStray (start : Nat) (cs : List Char) (fault : Fault) : Prop :=
  ∃ position c, FirstStray cs position c ∧ fault = .unexpectedCharacter c (start + position)

theorem StrayAfter.isFirstStray_iff (after : StrayAfter lead cs rest) (fault : Fault) :
    IsFirstStray start cs fault ↔ IsFirstStray (start + lead) rest fault := by
  constructor
  · rintro ⟨position, c, first, rfl⟩
    obtain ⟨later, rfl, stray⟩ := after.firstStray_iff.mp first
    exact ⟨later, c, stray, by rw [Nat.add_assoc, Nat.add_comm lead]⟩
  · rintro ⟨later, c, stray, rfl⟩
    refine ⟨later + lead, c, after.firstStray_iff.mpr ⟨later, rfl, stray⟩, ?_⟩
    rw [Nat.add_assoc, Nat.add_comm lead]

theorem scan_eq_error_iff (start : Nat) (cs : List Char) (fault : Fault) :
    scan start cs = .error fault ↔ IsFirstStray start cs fault := by
  fun_induction scan start cs with
  | case1 start =>
    constructor
    · rintro ⟨⟩
    · rintro ⟨position, c, ⟨stray, -⟩, -⟩
      exact absurd stray (not_strayAt_nil position c)
  | case2 start c cs blank ih =>
    have fits : isStray c cs.head? = false := isStray_eq_false (.inl blank) _
    rw [ih, (strayAfter_cons fits).isFirstStray_iff]
  | case3 start c cs blank taken =>
    have stray := isStray_of_takeLexeme?_none (by simpa using blank) taken
    constructor
    · intro same
      exact ⟨0, c, (firstStray_iff_zero stray).mpr ⟨rfl, rfl⟩, (Except.error.inj same).symm⟩
    · rintro ⟨position, d, first, rfl⟩
      obtain ⟨rfl, rfl⟩ := (firstStray_iff_zero stray).mp first
      rfl
  | case4 start c cs blank lexeme rest taken shorter ih =>
    rw [map_eq_error_iff, ih, (strayAfter_lexeme taken).isFirstStray_iff]

theorem scan_isOk_iff (start : Nat) (cs : List Char) :
    (∃ lexemes, scan start cs = .ok lexemes) ↔ ¬ ∃ position c, StrayAt cs position c := by
  rw [← exists_firstStray_iff]
  constructor
  · rintro ⟨lexemes, scanned⟩ ⟨position, c, first⟩
    cases scanned.symm.trans ((scan_eq_error_iff start cs _).mpr ⟨position, c, first, rfl⟩)
  · intro none
    cases scanned : scan start cs with
    | ok lexemes => exact ⟨lexemes, rfl⟩
    | error fault =>
      obtain ⟨position, c, first, -⟩ := (scan_eq_error_iff start cs fault).mp scanned
      exact absurd ⟨position, c, first⟩ none

end

theorem dropSign_of_isUnsignedNumber {cs : List Char}
    (number : Decimal.isUnsignedNumber cs = true) : Decimal.dropSign cs = cs := by
  unfold Decimal.dropSign
  split
  · cases number
  · cases number
  · rfl

theorem isUnsignedNumber_literal {l : Literal} (written : l.IsWritten) :
    Decimal.isUnsignedNumber l.text = true := by
  obtain ⟨whole, fraction⟩ := l
  obtain ⟨digits, places, some⟩ := written
  cases fraction with
  | nil =>
    have text : (Literal.mk whole []).text = whole ++ [] := (List.append_nil whole).symm
    have integral : whole.isEmpty = false :=
      List.isEmpty_eq_false_iff.mpr (some.resolve_right fun absent => absent rfl)
    rw [text, Decimal.isUnsignedNumber, takeWhile_append_all digits rfl,
      dropWhile_append_all digits rfl, integral]
    rfl
  | cons first others =>
    have text : (Literal.mk whole (first :: others)).text = whole ++ '.' :: first :: others := rfl
    have point : ('.' :: first :: others).takeWhile Char.isDigit = [] := rfl
    have after : ('.' :: first :: others).dropWhile Char.isDigit = '.' :: first :: others := rfl
    have all : (first :: others).takeWhile Char.isDigit = first :: others :=
      List.takeWhile_eq_self_iff.mpr places
    have nothing : (first :: others).dropWhile Char.isDigit = [] :=
      List.dropWhile_eq_nil_iff.mpr places
    rw [text, Decimal.isUnsignedNumber, List.takeWhile_append_of_pos digits,
      List.dropWhile_append_of_pos digits, point, after]
    simp only [all, nothing]
    simp [Decimal.isOptionalExponent]

theorem isFloatingNotation_literal {l : Literal} (written : l.IsWritten) :
    Decimal.isFloatingNotation l.text = true := by
  have number := isUnsignedNumber_literal written
  rw [Decimal.isFloatingNotation, dropSign_of_isUnsignedNumber number, number, Bool.or_true]

end DeskCalculator.Lexeme

namespace DeskCalculator
open Lexeme

theorem fault_of_tokenize {text : String} {fault : Fault} (h : tokenize text = .error fault) :
    ∃ c position, fault = .unexpectedCharacter c position := by
  obtain ⟨position, c, -, stray⟩ := (scan_eq_error_iff 0 _ fault).mp (map_eq_error_iff.mp h)
  exact ⟨c, _, stray⟩

/-- A text can be read exactly when none of its characters is stray. If it cannot, the fault is the
first stray character, with its position, and nothing else. No other fault can come up, for every
literal that is taken is the notation of a number. -/
theorem unread_at_first_stray (text : String) :
    ((∃ tokens, tokenize text = .ok tokens) ↔ ¬ ∃ position c, StrayAt text.toList position c) ∧
    (∀ fault, tokenize text = .error fault ↔ ∃ position c,
      FirstStray text.toList position c ∧ fault = .unexpectedCharacter c position) ∧
    ∀ c cs literal rest, takeLexeme? c cs = some (.numeral literal, rest) →
      Decimal.isFloatingNotation literal.text = true := by
  refine ⟨?_, fun fault => ?_, fun c cs literal rest taken => ?_⟩
  · rw [tokenize, exists_map_eq_ok, scan_isOk_iff]
  · rw [tokenize, map_eq_error_iff, scan_eq_error_iff, IsFirstStray]
    simp only [Nat.zero_add]
  · exact isFloatingNotation_literal (isWritten_of_takeLexeme? taken)

example : tokenize "3." = .error (.unexpectedCharacter '.' 1) := by cbv

end DeskCalculator
