import DeskCalculator.Binary64.Basic
import Mathlib
set_option autoImplicit false

namespace DeskCalculator.Binary64
open Float.Model Float.Model.UnpackedFloat

theorem rank_eq (x : Float) : rank x = x.toBits.toNat % 2 ^ 63 :=
  rfl

theorem isNegative_eq (x : Float) : isNegative x = decide (2 ^ 63 ≤ x.toBits.toNat) :=
  rfl

theorem infinityRank_eq : infinityRank = 2047 * 2 ^ 52 :=
  rfl

theorem unpackSign_packComponents (sign : Sign) (exponent : BitVec 11) (mantissa : BitVec 52) :
    unpackSign (packComponents .binary64 sign exponent mantissa) = sign.toBitVec := by
  apply BitVec.eq_of_getLsbD_eq
  intro i small
  obtain rfl : i = 0 := by omega
  change ((sign.toBitVec ++ exponent ++ mantissa).extractLsb 63 63).getLsbD 0 = _
  rw [BitVec.getLsbD_extractLsb, BitVec.getLsbD_append, BitVec.getLsbD_append]
  simp

theorem toNat_one_append (mantissa : BitVec 52) :
    (1#1 ++ mantissa).toNat = 2 ^ 52 + mantissa.toNat := by
  rw [BitVec.toNat_append, ← Nat.shiftLeft_add_eq_or_of_lt mantissa.isLt]
  rfl

theorem pack_subnormal (sign : Sign) {m : Nat} (some : 0 < m) (small : m < 2 ^ 52) :
    UnpackedFloat.pack .binary64 (.finite sign m (-1074) some) =
      packComponents .binary64 sign 0#11 (BitVec.ofNat 52 m) := by
  have bits : m.log2 + 1 ≠ Format.binary64.mantissaBits := by
    have : m.log2 < 52 := (Nat.log2_lt (Nat.ne_of_gt some)).mpr small
    change m.log2 + 1 ≠ 53
    omega
  rw [UnpackedFloat.pack]
  simp only [bits, if_false]
  rfl

theorem pack_normal (sign : Sign) {m e : Nat} (low : 2 ^ 52 ≤ m) (high : m < 2 ^ 53)
    (fits : e < 2047) (some : 0 < m) :
    UnpackedFloat.pack .binary64 (.finite sign m (e - 1075) some) =
      packComponents .binary64 sign (BitVec.ofNat 11 e) (BitVec.ofNat 52 m) := by
  have bits : m.log2 + 1 = Format.binary64.mantissaBits := by
    have : m.log2 < 53 := (Nat.log2_lt (Nat.ne_of_gt some)).mpr high
    have : 52 ≤ m.log2 := (Nat.le_log2 (Nat.ne_of_gt some)).mpr low
    change m.log2 + 1 = 53
    omega
  have biased : ((e : Int) - 1075 + Format.binary64.exponentBias +
      Format.binary64.mantissaBitsWithoutImplicit).toNat = e := by
    change ((e : Int) - 1075 + (1023 : Nat) + (52 : Nat)).toNat = e
    omega
  rw [UnpackedFloat.pack]
  simp only [bits, biased, if_true]
  exact if_neg (by change ¬ 2048 ≤ e + 1; omega)

/-- The number with a given sign and the given fields for its exponent and mantissa. -/
def decoded (sign : Sign) (exponent : BitVec 11) (mantissa : BitVec 52) : UnpackedFloat :=
  if exponent = -1#_ then
    if mantissa = 0#_ then .infinity sign else .notANumber
  else if exponent = 0#_ then
    if zero : mantissa = 0#_ then .zero sign
    else
      .finite sign mantissa.toNat (-1074)
        (Nat.pos_of_ne_zero fun none => zero (BitVec.eq_of_toNat_eq none))
  else
    .finite sign (1#1 ++ mantissa).toNat (exponent.toNat - 1075)
      (by rw [toNat_one_append]; omega)

theorem unpack_packComponents (sign : Sign) (exponent : BitVec 11) (mantissa : BitVec 52) :
    UnpackedFloat.unpack .binary64 (packComponents .binary64 sign exponent mantissa) =
      decoded sign exponent mantissa := by
  have same : Sign.ofBitVec sign.toBitVec = sign := by cases sign <;> rfl
  rw [UnpackedFloat.unpack, decoded]
  simp only [unpackMantissa_packComponents, unpackExponent_packComponents,
    unpackSign_packComponents, same]
  split
  · rfl
  · split
    · rename_i none
      subst none
      rfl
    · rfl

theorem neg_decoded (sign : Sign) (exponent : BitVec 11) (mantissa : BitVec 52) :
    (decoded sign exponent mantissa).neg = decoded (-sign) exponent mantissa := by
  rw [decoded, decoded]
  split
  · split <;> rfl
  · split
    · split <;> rfl
    · rfl

theorem abs_decoded (sign : Sign) (exponent : BitVec 11) (mantissa : BitVec 52) :
    (decoded sign exponent mantissa).abs = decoded .positive exponent mantissa := by
  rw [decoded, decoded]
  split
  · split <;> rfl
  · split
    · split <;> rfl
    · rfl

/-- Of the numbers, all that have a minus sign are below zero but zero itself. -/
theorem decoded_lt_zero_iff {sign : Sign} {exponent : BitVec 11} {mantissa : BitVec 52}
    (number : exponent = -1#_ → mantissa = 0#_) :
    (decoded sign exponent mantissa).lt (.zero .positive) = true ↔
      sign = .negative ∧ ¬ (exponent = 0#_ ∧ mantissa = 0#_) := by
  have signed : ∀ {lower : Bool} {zero : Prop}, lower = (sign == .negative) → ¬ zero →
      (lower = true ↔ sign = .negative ∧ ¬ zero) := by
    intro lower zero same some
    subst same
    cases sign with
    | negative => exact ⟨fun _ => ⟨rfl, some⟩, fun _ => rfl⟩
    | positive => exact ⟨nofun, fun below => (nomatch below.1)⟩
  rw [decoded]
  split
  · rename_i greatest
    rw [if_pos (number greatest)]
    refine signed ?_ ?_
    · cases sign <;> rfl
    · rintro ⟨least, -⟩
      cases greatest.symm.trans least
  · split
    · split
      · rename_i least zero
        exact ⟨fun h => (nomatch h), fun h => absurd ⟨least, zero⟩ h.2⟩
      · rename_i least some
        refine signed ?_ fun zero => some zero.2
        cases sign <;> rfl
    · rename_i more
      refine signed ?_ fun zero => more zero.1
      cases sign <;> rfl

theorem pack_decoded (sign : Sign) {exponent : BitVec 11} {mantissa : BitVec 52}
    (number : exponent = -1#_ → mantissa = 0#_) :
    UnpackedFloat.pack .binary64 (decoded sign exponent mantissa) =
      packComponents .binary64 sign exponent mantissa := by
  rw [decoded]
  split
  · rename_i greatest
    rw [if_pos (number greatest), greatest, number greatest]
    rfl
  · rename_i below
    split
    · -- the least exponent field is that of zero and of the subnormal numbers
      rename_i least
      rw [least]
      split
      · rename_i zero
        rw [zero]
        rfl
      · rw [pack_subnormal _ _ mantissa.isLt, BitVec.ofNat_toNat, BitVec.setWidth_eq]
    · have fits : exponent.toNat ≠ 2047 := fun last => below (BitVec.eq_of_toNat_eq last)
      have fits : exponent.toNat < 2047 := by omega
      have small := mantissa.isLt
      have whole := toNat_one_append mantissa
      rw [pack_normal _ (by omega) (by omega) fits, whole, BitVec.ofNat_toNat, BitVec.setWidth_eq]
      congr 1
      apply BitVec.eq_of_toNat_eq
      rw [BitVec.toNat_ofNat]
      omega

def sign (negative : Bool) : Sign :=
  if negative then .negative else .positive

def word (negative : Bool) (rank : Nat) : BitVec 64 :=
  packComponents .binary64 (sign negative) (BitVec.ofNat 11 (rank / 2 ^ 52)) (BitVec.ofNat 52 rank)

theorem toNat_word (negative : Bool) {rank : Nat} (fits : rank < 2 ^ 63) :
    (word negative rank).toNat = if negative then 2 ^ 63 + rank else rank := by
  have low : (BitVec.ofNat 52 rank).toNat = rank % 2 ^ 52 := BitVec.toNat_ofNat _ _
  have middle : (BitVec.ofNat 11 (rank / 2 ^ 52)).toNat = rank / 2 ^ 52 := by
    rw [BitVec.toNat_ofNat]
    omega
  have top : (sign negative).toBitVec.toNat = negative.toNat := by cases negative <;> rfl
  change ((sign negative).toBitVec ++ BitVec.ofNat 11 (rank / 2 ^ 52) ++
    BitVec.ofNat 52 rank).toNat = _
  rw [BitVec.toNat_append, BitVec.toNat_append, top,
    ← Nat.shiftLeft_add_eq_or_of_lt (BitVec.isLt _),
    ← Nat.shiftLeft_add_eq_or_of_lt (BitVec.isLt _),
    low, middle, Nat.shiftLeft_eq, Nat.shiftLeft_eq]
  cases negative with
  | false => simp; omega
  | true => simp; omega

theorem mantissa_eq_zero {rank : Nat} (number : rank ≤ infinityRank)
    (greatest : BitVec.ofNat 11 (rank / 2 ^ 52) = -1#_) : BitVec.ofNat 52 rank = 0#_ := by
  have field : (BitVec.ofNat 11 (rank / 2 ^ 52)).toNat = 2047 := congrArg BitVec.toNat greatest
  rw [BitVec.toNat_ofNat] at field
  rw [infinityRank_eq] at number
  obtain rfl : rank = 2047 * 2 ^ 52 := by omega
  rfl

theorem fields_eq_zero_iff {rank : Nat} (fits : rank < 2 ^ 63) :
    BitVec.ofNat 11 (rank / 2 ^ 52) = 0#_ ∧ BitVec.ofNat 52 rank = 0#_ ↔ rank = 0 := by
  constructor
  · rintro ⟨high, low⟩
    have exponent : (BitVec.ofNat 11 (rank / 2 ^ 52)).toNat = 0 := congrArg BitVec.toNat high
    have mantissa : (BitVec.ofNat 52 rank).toNat = 0 := congrArg BitVec.toNat low
    rw [BitVec.toNat_ofNat] at exponent mantissa
    omega
  · rintro rfl
    exact ⟨rfl, rfl⟩

theorem pack_unpack_word (negative : Bool) {rank : Nat} (number : rank ≤ infinityRank) :
    UnpackedFloat.pack .binary64 (UnpackedFloat.unpack .binary64 (word negative rank)) =
      word negative rank := by
  rw [word, unpack_packComponents, pack_decoded _ (mantissa_eq_zero number)]

theorem neg_unpack_word (negative : Bool) (rank : Nat) :
    (UnpackedFloat.unpack .binary64 (word negative rank)).neg =
      UnpackedFloat.unpack .binary64 (word (!negative) rank) := by
  rw [word, word, unpack_packComponents, unpack_packComponents, neg_decoded]
  cases negative <;> rfl

theorem abs_unpack_word (negative : Bool) (rank : Nat) :
    (UnpackedFloat.unpack .binary64 (word negative rank)).abs =
      UnpackedFloat.unpack .binary64 (word false rank) := by
  rw [word, word, unpack_packComponents, unpack_packComponents, abs_decoded]
  rfl

theorem unpack_word_lt_zero_iff (negative : Bool) {rank : Nat} (number : rank ≤ infinityRank) :
    (UnpackedFloat.unpack .binary64 (word negative rank)).lt (.zero .positive) = true ↔
      negative = true ∧ rank ≠ 0 := by
  have fits : rank < 2 ^ 63 := Nat.lt_of_le_of_lt number (by decide)
  rw [word, unpack_packComponents, decoded_lt_zero_iff (mantissa_eq_zero number),
    fields_eq_zero_iff fits]
  cases negative <;> simp [sign]

theorem ofRank_eq_ofModel (negative : Bool) {rank : Nat} (number : rank ≤ infinityRank) :
    ofRank negative rank =
      .ofModel (.pack (UnpackedFloat.unpack .binary64 (word negative rank))) := by
  have fits : rank < 2 ^ 63 := Nat.lt_of_le_of_lt number (by decide)
  have same : (UInt64.ofNat (if negative then 2 ^ 63 + rank else rank)).toBitVec =
      word negative rank := by
    apply BitVec.eq_of_toNat_eq
    rw [toNat_word negative fits]
    change (if negative then 2 ^ 63 + rank else rank) % 2 ^ 64 = _
    split <;> omega
  rw [ofRank, ← same]
  rfl

theorem toBits_ofRank (negative : Bool) {rank : Nat} (number : rank ≤ infinityRank) :
    (ofRank negative rank).toBits.toNat = if negative then 2 ^ 63 + rank else rank := by
  have fits : rank < 2 ^ 63 := Nat.lt_of_le_of_lt number (by decide)
  rw [ofRank_eq_ofModel negative number, ← toNat_word negative fits]
  exact congrArg BitVec.toNat (pack_unpack_word negative number)

theorem rank_ofRank (negative : Bool) {r : Nat} (number : r ≤ infinityRank) :
    rank (ofRank negative r) = r := by
  have fits : r < 2 ^ 63 := Nat.lt_of_le_of_lt number (by decide)
  rw [rank_eq, toBits_ofRank negative number]
  split <;> omega

theorem isNegative_ofRank (negative : Bool) {rank : Nat} (number : rank ≤ infinityRank) :
    isNegative (ofRank negative rank) = negative := by
  have fits : rank < 2 ^ 63 := Nat.lt_of_le_of_lt number (by decide)
  rw [isNegative_eq, toBits_ofRank negative number]
  cases negative with
  | false => exact decide_eq_false (by simp; omega)
  | true => exact decide_eq_true (by simp)

theorem isNaN_ofRank (negative : Bool) {rank : Nat} (number : rank ≤ infinityRank) :
    isNaN (ofRank negative rank) = false := by
  rw [isNaN, rank_ofRank negative number]
  exact decide_eq_false (Nat.not_lt.mpr number)

theorem isFinite_ofRank (negative : Bool) {rank : Nat} (number : rank ≤ infinityRank) :
    isFinite (ofRank negative rank) = decide (rank < infinityRank) := by
  rw [isFinite, rank_ofRank negative number]

theorem neg_ofRank (negative : Bool) {rank : Nat} (number : rank ≤ infinityRank) :
    -ofRank negative rank = ofRank (!negative) rank := by
  rw [ofRank_eq_ofModel negative number, ofRank_eq_ofModel (!negative) number]
  change Float.ofModel (.pack (UnpackedFloat.unpack .binary64
    (UnpackedFloat.pack .binary64 (UnpackedFloat.unpack .binary64 (word negative rank)))).neg) = _
  rw [pack_unpack_word negative number, neg_unpack_word]

theorem abs_ofRank (negative : Bool) {rank : Nat} (number : rank ≤ infinityRank) :
    (ofRank negative rank).abs = ofRank false rank := by
  rw [ofRank_eq_ofModel negative number, ofRank_eq_ofModel false number]
  change Float.ofModel (.pack (UnpackedFloat.unpack .binary64
    (UnpackedFloat.pack .binary64 (UnpackedFloat.unpack .binary64 (word negative rank)))).abs) = _
  rw [pack_unpack_word negative number, abs_unpack_word]

theorem ofRank_lt_zero_iff (negative : Bool) {rank : Nat} (number : rank ≤ infinityRank) :
    ofRank negative rank < 0.0 ↔ negative = true ∧ rank ≠ 0 := by
  have zero : (0.0 : Float).toModel.unpack = .zero .positive := by rfl
  rw [ofRank_eq_ofModel negative number]
  change decide ((UnpackedFloat.unpack .binary64 (UnpackedFloat.pack .binary64
    (UnpackedFloat.unpack .binary64 (word negative rank)))).lt
      (0.0 : Float).toModel.unpack = true) = true ↔ _
  rw [zero, pack_unpack_word negative number, decide_eq_true_iff,
    unpack_word_lt_zero_iff negative number]

theorem eq_of_toBits {x y : Float} (same : x.toBits.toBitVec = y.toBits.toBitVec) : x = y := by
  obtain ⟨⟨⟨_⟩, _⟩⟩ := x
  obtain ⟨⟨⟨_⟩, _⟩⟩ := y
  cases same
  rfl

theorem rank_lt (x : Float) : rank x < 2 ^ 63 :=
  Nat.mod_lt _ (by decide)

theorem word_rank (x : Float) : word (isNegative x) (rank x) = x.toBits.toBitVec := by
  apply BitVec.eq_of_toNat_eq
  rw [toNat_word _ (rank_lt x), isNegative_eq, rank_eq]
  have small : x.toBits.toNat < 2 ^ 64 := x.toBits.toBitVec.isLt
  change _ = x.toBits.toNat
  by_cases negative : 2 ^ 63 ≤ x.toBits.toNat
  · rw [decide_eq_true negative]
    simp only [if_true]
    omega
  · rw [decide_eq_false negative]
    simp only [Bool.false_eq_true, if_false]
    omega

theorem ofRank_rank {x : Float} (number : rank x ≤ infinityRank) :
    ofRank (isNegative x) (rank x) = x := by
  apply eq_of_toBits
  rw [ofRank_eq_ofModel _ number, ← word_rank x]
  exact pack_unpack_word _ number

theorem abs_eq_ofRank {x : Float} (number : rank x ≤ infinityRank) :
    x.abs = ofRank false (rank x) := by
  have same := abs_ofRank (isNegative x) number
  rwa [ofRank_rank number] at same

theorem lt_zero_iff {x : Float} (number : rank x ≤ infinityRank) :
    x < 0.0 ↔ isNegative x = true ∧ rank x ≠ 0 := by
  have same := ofRank_lt_zero_iff (isNegative x) number
  rwa [ofRank_rank number] at same

/-- There is one double that is not a number, whatever its sign was. -/
theorem neg_of_isNaN {x : Float} (beyond : infinityRank < rank x) : -x = x := by
  have bound := rank_lt x
  rw [infinityRank_eq] at beyond
  have greatest : BitVec.ofNat 11 (rank x / 2 ^ 52) = -1#_ := by
    apply BitVec.eq_of_toNat_eq
    rw [BitVec.toNat_ofNat]
    change _ = 2047
    omega
  have some : BitVec.ofNat 52 (rank x) ≠ 0#_ := by
    intro zero
    have field : (BitVec.ofNat 52 (rank x)).toNat = 0 := congrArg BitVec.toNat zero
    rw [BitVec.toNat_ofNat] at field
    omega
  have canonical : word (isNegative x) (rank x) = packedNaN .binary64 := by
    have valid := x.toModel.valid
    change Format.binary64.Valid x.toBits.toBitVec at valid
    rw [← word_rank] at valid
    apply valid.eq_packedNaN
    · rw [word, unpackExponent_packComponents, greatest]
    · rw [word, unpackMantissa_packComponents]
      exact some
  have unpacked : UnpackedFloat.unpack .binary64 (word (isNegative x) (rank x)) = .notANumber := by
    rw [word, unpack_packComponents, decoded, if_pos greatest, if_neg some]
  apply eq_of_toBits
  change UnpackedFloat.pack .binary64 (UnpackedFloat.unpack .binary64 x.toBits.toBitVec).neg = _
  rw [← word_rank, unpacked, canonical]
  rfl

theorem neg_neg_eq (x : Float) : - -x = x := by
  by_cases number : rank x ≤ infinityRank
  · rw [← ofRank_rank number, neg_ofRank _ number, neg_ofRank _ number, Bool.not_not]
  · have same := neg_of_isNaN (Nat.lt_of_not_le number)
    rw [same, same]

theorem rank_neg (x : Float) : rank (-x) = rank x := by
  by_cases number : rank x ≤ infinityRank
  · have same := congrArg rank (neg_ofRank (isNegative x) number)
    rwa [ofRank_rank number, rank_ofRank _ number] at same
  · rw [neg_of_isNaN (Nat.lt_of_not_le number)]

theorem isFinite_neg (x : Float) : isFinite (-x) = isFinite x := by
  rw [isFinite, isFinite, rank_neg]

theorem isNaN_of_isFinite {x : Float} (finite : isFinite x = true) : isNaN x = false :=
  decide_eq_false (Nat.not_lt.mpr (Nat.le_of_lt (of_decide_eq_true finite)))

theorem isNegative_neg {x : Float} (number : isNaN x = false) :
    isNegative (-x) = !isNegative x := by
  have fits : rank x ≤ infinityRank := Nat.le_of_not_lt (of_decide_eq_false number)
  have same := congrArg isNegative (neg_ofRank (isNegative x) fits)
  rwa [ofRank_rank fits, isNegative_ofRank _ fits] at same

end DeskCalculator.Binary64
