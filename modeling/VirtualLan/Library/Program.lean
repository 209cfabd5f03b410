/-! Programs that change a state and may stop with an error. An error keeps the
changes made before it. Runs compose, so code is executed one call at a time. -/

namespace VirtualLan

abbrev Program (ε σ : Type) := ExceptT ε (StateM σ)

namespace Program
variable {ε σ α β : Type}

theorem ok_of_bind {outcome : Except ε α} {next : α → Except ε β} {value : β} (returned : outcome >>= next = .ok value) :
    ∃ first, outcome = .ok first ∧ next first = .ok value := by
  cases outcome with
  | error error => cases returned
  | ok first => exact ⟨first, rfl, returned⟩

def run (action : Program ε σ α) (state : σ) : Except ε α × σ := StateT.run (ExceptT.run action) state

def andThen (outcome : Except ε α × σ) (next : α → σ → Except ε β × σ) : Except ε β × σ :=
  match outcome with
  | (.ok value, after) => next value after
  | (.error error, after) => (.error error, after)

@[simp] theorem andThen_ok (value : α) (after : σ) (next : α → σ → Except ε β × σ) :
    andThen (.ok value, after) next = next value after := rfl

@[simp] theorem andThen_error (error : ε) (after : σ) (next : α → σ → Except ε β × σ) :
    andThen (.error error, after) next = (.error error, after) := rfl

theorem andThen_unit (outcome : Except ε Unit × σ) : andThen outcome (fun _ after => (.ok (), after)) = outcome := by
  obtain ⟨result, after⟩ := outcome
  cases result <;> rfl

@[simp] theorem run_pure (value : α) : run (pure value : Program ε σ α) = fun state => (.ok value, state) := rfl

@[simp] theorem run_throw (error : ε) : run (throw error : Program ε σ α) = fun state => (.error error, state) := rfl

@[simp] theorem run_bind (action : Program ε σ α) (next : α → Program ε σ β) :
    run (action >>= next) = fun state => andThen (run action state) (fun value => run (next value)) := by
  funext state
  simp only [run, ExceptT.run_bind, StateT.run_bind]
  cases (ExceptT.run action).run state with
  | mk result after => cases result <;> rfl

@[simp] theorem run_get : run (get : Program ε σ σ) = fun state => (.ok state, state) := rfl

@[simp] theorem run_set (after : σ) : run (set after : Program ε σ PUnit) = fun _ => (.ok PUnit.unit, after) := rfl

@[simp] theorem run_modify (change : σ → σ) :
    run (modify change : Program ε σ PUnit) = fun state => (.ok PUnit.unit, change state) := rfl

@[simp] theorem run_lift (result : Except ε α) : run (liftM result : Program ε σ α) = fun state => (result, state) := rfl

end Program

end VirtualLan
