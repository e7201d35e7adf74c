import DeskCalculator.Binary64.Basic
import Mathlib
set_option autoImplicit false

namespace DeskCalculator.Binary64

theorem steps_eq (rank : Nat) : steps rank =
    if rank < 2 ^ 52 then rank else (2 ^ 52 + rank % 2 ^ 52) * 2 ^ (rank / 2 ^ 52 - 1) :=
  rfl

theorem steps_zero : steps 0 = 0 := by
  rw [steps_eq, if_pos (by decide)]

theorem unit_eq : unit = 2 ^ 1074 := by
  unfold unit
  generalize 1074 = halvings
  rfl

/-- A block starts at twice its spacing, but for the first one, which starts at zero. -/
structure InBlock (exponent significand : Nat) : Prop where
  low : exponent = 0 ∨ 2 ^ 52 ≤ significand
  high : significand ≤ 2 ^ 53

theorem steps_block {e m : Nat} (block : InBlock e m) : steps (e * 2 ^ 52 + m) = m * 2 ^ e := by
  obtain ⟨low, high⟩ := block
  rw [steps_eq]
  by_cases subnormal : m < 2 ^ 52
  · obtain rfl : e = 0 := by omega
    rw [if_pos (by omega)]
    simp
  · rw [if_neg (by omega)]
    by_cases last : m = 2 ^ 53
    · have block : (e * 2 ^ 52 + m) / 2 ^ 52 = e + 2 := by omega
      have first : (e * 2 ^ 52 + m) % 2 ^ 52 = 0 := by omega
      rw [block, first, last, Nat.add_zero, ← Nat.pow_add, ← Nat.pow_add]
      congr 1
      omega
    · have block : (e * 2 ^ 52 + m) / 2 ^ 52 = e + 1 := by omega
      have offset : 2 ^ 52 + (e * 2 ^ 52 + m) % 2 ^ 52 = m := by omega
      rw [block, offset, Nat.add_sub_cancel]

theorem exists_block (rank : Nat) :
    ∃ e m, rank = e * 2 ^ 52 + m ∧ InBlock e m ∧ m < 2 ^ 53 := by
  refine ⟨rank / 2 ^ 52 - 1, rank - (rank / 2 ^ 52 - 1) * 2 ^ 52, ?_, ⟨?_, ?_⟩, ?_⟩ <;> omega

theorem steps_strictMono : StrictMono steps := by
  apply strictMono_nat_of_lt_succ
  intro rank
  obtain ⟨e, m, rfl, block, room⟩ := exists_block rank
  have next : InBlock e (m + 1) := ⟨by have := block.low; omega, room⟩
  rw [Nat.add_assoc, steps_block block, steps_block next]
  exact Nat.mul_lt_mul_of_pos_right (Nat.lt_succ_self m) (Nat.two_pow_pos e)

theorem dvd_steps_or_lt (rank e : Nat) : 2 ^ e ∣ steps rank ∨ steps rank < 2 ^ (52 + e) := by
  obtain ⟨spacing, m, rfl, block, room⟩ := exists_block rank
  rw [steps_block block]
  by_cases fine : e ≤ spacing
  · exact .inl (Nat.dvd_mul_left_of_dvd (Nat.pow_dvd_pow 2 fine) m)
  · right
    calc
      m * 2 ^ spacing < 2 ^ 53 * 2 ^ spacing :=
        Nat.mul_lt_mul_of_pos_right room (Nat.two_pow_pos spacing)
      _ = 2 ^ (53 + spacing) := (Nat.pow_add 2 53 spacing).symm
      _ ≤ 2 ^ (52 + e) := Nat.pow_le_pow_right (by omega) (by omega)

theorem steps_last_add (e : Nat) :
    steps (e * 2 ^ 52 + (2 ^ 53 - 1)) + 2 ^ e = steps ((e + 2) * 2 ^ 52) := by
  have last : InBlock e (2 ^ 53 - 1) := ⟨.inr (by omega), by decide⟩
  have next : InBlock (e + 1) (2 ^ 52) := ⟨.inr (by omega), by decide⟩
  have split : (e + 2) * 2 ^ 52 = (e + 1) * 2 ^ 52 + 2 ^ 52 := by omega
  rw [split, steps_block last, steps_block next, Nat.pow_succ]
  omega

theorem unit_pos : 0 < unit := by
  rw [unit_eq]
  apply Nat.pow_pos
  decide

theorem unit_lt {e : Nat} (h : 1074 < e) : unit < 2 ^ e := by
  rw [unit_eq]
  generalize 1074 = halvings at h ⊢
  exact Nat.pow_lt_pow_right (by omega) h

theorem steps_add_unit_lt : steps (infinityRank - 1) + unit < steps infinityRank := by
  have greatest : infinityRank - 1 = 2045 * 2 ^ 52 + (2 ^ 53 - 1) := by decide
  have infinite : infinityRank = (2045 + 2) * 2 ^ 52 := by decide
  rw [greatest, infinite, ← steps_last_add]
  apply Nat.add_lt_add_left
  apply unit_lt
  decide

/-- No finite magnitude lies within one of infinity. -/
theorem lt_infinityRank {finite other : Nat} (h : finite < infinityRank)
    (close : steps other ≤ steps finite + unit) : other < infinityRank := by
  by_contra beyond
  have low := steps_strictMono.monotone (Nat.le_sub_one_of_lt h)
  have high := steps_strictMono.monotone (Nat.le_of_not_lt beyond)
  have apart := steps_add_unit_lt
  omega

end DeskCalculator.Binary64
