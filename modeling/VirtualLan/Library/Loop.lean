import Mathlib.Computability.StateTransition

/-! While loops. One pass through the condition and the body is a partial function on
the variables; where it is undefined, the condition has failed and the loop is left. -/

namespace VirtualLan.Loop
open StateTransition

universe u
variable {σ : Type u} {step : σ → Option σ} {invariant : σ → Prop} {variant : σ → Nat}

/-- What every pass keeps, and what it decreases. -/
structure Rule (step : σ → Option σ) (invariant : σ → Prop) (variant : σ → Nat) : Prop where
  keeps : ∀ before after, invariant before → step before = some after → invariant after
  decreases : ∀ before after, invariant before → step before = some after → variant after < variant before

theorem eval_done {state : σ} (done : step state = none) : eval step state = Part.some state :=
  Part.eq_some_iff.mpr (mem_eval.mpr ⟨Relation.ReflTransGen.refl, done⟩)

theorem eval_next {before after : σ} (moved : step before = some after) : eval step before = eval step after :=
  reaches_eval (Relation.ReflTransGen.single moved)

/-- The loop is left after finitely many passes, in a state that has the invariant
and fails the condition. -/
theorem Rule.finishes (rule : Rule step invariant variant) {start : σ} (entry : invariant start) :
    ∃ final, eval step start = Part.some final ∧ invariant final ∧ step final = none := by
  induction bound : variant start using Nat.strongRecOn generalizing start with
  | ind passes ih =>
    cases pass : step start with
    | none => exact ⟨start, eval_done pass, entry, pass⟩
    | some after =>
      have kept := rule.keeps start after entry pass
      have less := rule.decreases start after entry pass
      obtain ⟨final, left, holds, done⟩ := ih (variant after) (by omega) kept rfl
      exact ⟨final, (eval_next pass).trans left, holds, done⟩

/-- A loop that comes back to the state that it is in is never left. -/
theorem eval_stuck {state : σ} (stuck : step state = some state) : ¬ (eval step state).Dom := by
  intro left
  obtain ⟨reached, done⟩ := mem_eval.mp (Part.get_mem left)
  have stays : ∀ later, Reaches step state later → later = state := by
    intro later reaches
    induction reaches with
    | refl => rfl
    | tail _ moved ih =>
      subst ih
      exact Option.some.inj ((Option.mem_def.mp moved).symm.trans stuck)
  rw [stays _ reached, stuck] at done
  cases done

end VirtualLan.Loop
