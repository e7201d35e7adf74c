import DeskCalculator.Fault
import Mathlib
set_option autoImplicit false

namespace DeskCalculator

theorem map_eq_ok {α β : Type} {f : α → β} {result : Except Fault α} {out : β}
    (h : result.map f = .ok out) : ∃ inner, result = .ok inner ∧ f inner = out := by
  cases result with
  | error fault => cases h
  | ok inner => exact ⟨inner, rfl, Except.ok.inj h⟩

theorem map_eq_error_iff {α β : Type} {f : α → β} {result : Except Fault α} {fault : Fault} :
    result.map f = .error fault ↔ result = .error fault := by
  cases result with
  | ok inner => exact ⟨nofun, nofun⟩
  | error other =>
    constructor
    · rintro ⟨⟩
      rfl
    · rintro ⟨⟩
      rfl

theorem bind_eq_ok {α β : Type} {f : α → Except Fault β} {result : Except Fault α} {out : β}
    (h : result >>= f = .ok out) : ∃ inner, result = .ok inner ∧ f inner = .ok out := by
  cases result with
  | error fault => cases h
  | ok inner => exact ⟨inner, rfl, h⟩

theorem not_exists_ok {α : Type} {fault : Fault} :
    ¬ ∃ out : α, (.error fault : Except Fault α) = .ok out := by
  rintro ⟨out, ⟨⟩⟩

theorem exists_map_eq_ok {α β : Type} {f : α → β} {result : Except Fault α} :
    (∃ out, result.map f = .ok out) ↔ ∃ inner, result = .ok inner := by
  cases result with
  | error fault => exact ⟨fun ⟨_, h⟩ => (nomatch h), fun ⟨_, h⟩ => (nomatch h)⟩
  | ok inner => exact ⟨fun _ => ⟨inner, rfl⟩, fun _ => ⟨f inner, rfl⟩⟩

end DeskCalculator
