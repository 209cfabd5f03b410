import Mathlib.Logic.Function.Basic

/-! A registry binds names to owners. A move of one actor may claim free names
and give up names of its own; the names of everybody else stay as they are. -/

namespace VirtualLan.Registry

universe u v
variable {κ : Type u} {ν : Type v}

structure Move (actor : ν) (before after : κ → Option ν) : Prop where
  keeps : ∀ key owner, before key = some owner → owner ≠ actor → after key = some owner
  claims : ∀ key owner, after key = some owner → before key = some owner ∨ owner = actor ∧ before key = none

theorem Move.refl (actor : ν) (binding : κ → Option ν) : Move actor binding binding :=
  ⟨fun _ _ bound _ => bound, fun _ _ bound => Or.inl bound⟩

/-- A move never takes a name away from anybody but its actor. -/
theorem Move.lost {actor : ν} {before after : κ → Option ν} (move : Move actor before after) {key : κ} {owner : ν}
    (bound : before key = some owner) (gone : after key ≠ some owner) : owner = actor := by
  by_contra other
  exact gone (move.keeps key owner bound other)

variable [DecidableEq κ]

theorem Move.claim (actor : ν) {before : κ → Option ν} {key : κ} (free : before key = none) :
    Move actor before (Function.update before key (some actor)) := by
  constructor
  · intro other owner bound _
    have different : other ≠ key := by
      rintro rfl
      rw [free] at bound
      cases bound
    rw [Function.update_of_ne different]
    exact bound
  · intro other owner bound
    by_cases same : other = key
    · subst same
      rw [Function.update_self] at bound
      cases bound
      exact Or.inr ⟨rfl, free⟩
    · rw [Function.update_of_ne same] at bound
      exact Or.inl bound

theorem Move.release {actor : ν} {before : κ → Option ν} {key : κ} (own : before key = some actor) :
    Move actor before (Function.update before key none) := by
  constructor
  · intro other owner bound different
    have elsewhere : other ≠ key := by
      rintro rfl
      rw [own] at bound
      cases bound
      exact different rfl
    rw [Function.update_of_ne elsewhere]
    exact bound
  · intro other owner bound
    by_cases same : other = key
    · subst same
      rw [Function.update_self] at bound
      cases bound
    · rw [Function.update_of_ne same] at bound
      exact Or.inl bound

end VirtualLan.Registry
