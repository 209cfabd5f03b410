import Mathlib.Logic.Function.Basic

/-! Actors that share a system but each follow an automaton of their own. What
such a system does to one actor depends on that actor's actions alone, so two
orders with the same actions of every actor cannot be told apart. -/

namespace VirtualLan

universe u v w x y

structure Automaton (σ : Type u) (α : Type v) (ω : Type w) where
  next : σ → α → σ
  answer : σ → α → ω

namespace Automaton
variable {σ : Type u} {α : Type v} {ω : Type w} (automaton : Automaton σ α ω)

def final (start : σ) (actions : List α) : σ := actions.foldl automaton.next start

def answers (start : σ) : List α → List ω
  | [] => []
  | action :: actions => automaton.answer start action :: answers (automaton.next start action) actions

end Automaton

namespace Interleaving
variable {κ : Type x} {α : Type v} {σ : Type u} {τ : Type y} {ω view : Type w} [DecidableEq κ]

/-- The part of an order that belongs to one actor. -/
def projection (order : List (κ × α)) (actor : κ) : List α := (order.filter (·.1 == actor)).map Prod.snd

theorem mem_projection {order : List (κ × α)} {actor : κ} {action : α} :
    action ∈ projection order actor ↔ (actor, action) ∈ order := by
  simp [projection]

theorem projection_cons_self (actor : κ) (action : α) (order : List (κ × α)) :
    projection ((actor, action) :: order) actor = action :: projection order actor := by
  simp [projection]

theorem projection_cons_other {actor other : κ} (different : actor ≠ other) (action : α) (order : List (κ × α)) :
    projection ((actor, action) :: order) other = projection order other := by
  simp [projection, different]

variable (perform : τ → κ → α → Option (τ × List (κ × ω)))

/-- The actions in order, with all that they send to anybody on the way. -/
def performAll (state : τ) : List (κ × α) → Option (τ × List (κ × ω))
  | [] => some (state, [])
  | (actor, action) :: order =>
    match perform state actor action with
    | none => none
    | some (after, sent) => (performAll after order).map fun (final, later) => (final, sent ++ later)

variable (automaton : Automaton σ α view) (seen : ω → view)

/-- The system follows the automata of its actors: an action moves the state of
its actor alone, and it is answered, as far as the answer is looked at, from it. -/
structure Follows (actors : κ → Prop) (describes : (κ → σ) → τ → Prop) : Prop where
  step : ∀ states state actor action, actors actor → describes states state → ∃ after answer,
    perform state actor action = some (after, [(actor, answer)]) ∧ seen answer = automaton.answer (states actor) action ∧
      describes (Function.update states actor (automaton.next (states actor) action)) after

variable {perform automaton seen} {actors : κ → Prop} {describes : (κ → σ) → τ → Prop}

theorem Follows.run (follows : Follows perform automaton seen actors describes) {order : List (κ × α)}
    (known : ∀ entry ∈ order, actors entry.1) {states : κ → σ} {state : τ} (start : describes states state) :
    ∃ final sent, performAll perform state order = some (final, sent) ∧
      describes (fun actor => automaton.final (states actor) (projection order actor)) final ∧
      ∀ actor, (projection sent actor).map seen = automaton.answers (states actor) (projection order actor) := by
  induction order generalizing states state with
  | nil => exact ⟨state, [], rfl, start, fun _ => rfl⟩
  | cons entry order ih =>
    obtain ⟨actor, action⟩ := entry
    obtain ⟨after, answer, performed, answered, described⟩ :=
      follows.step states state actor action (known _ List.mem_cons_self) start
    obtain ⟨final, sent, rest, reached, told⟩ :=
      ih (fun entry member => known entry (List.mem_cons_of_mem _ member)) described
    have ends : (fun other => automaton.final (Function.update states actor (automaton.next (states actor) action) other)
        (projection order other)) =
        fun other => automaton.final (states other) (projection ((actor, action) :: order) other) := by
      funext other
      by_cases same : other = actor
      · subst same
        rw [Function.update_self, projection_cons_self, Automaton.final, Automaton.final, List.foldl_cons]
      · rw [Function.update_of_ne same, projection_cons_other (Ne.symm same)]
    refine ⟨final, (actor, answer) :: sent, ?_, ends ▸ reached, ?_⟩
    · simp only [performAll, performed, rest, Option.map_some, List.singleton_append]
    · intro other
      have later := told other
      by_cases same : other = actor
      · subst same
        rw [Function.update_self] at later
        rw [projection_cons_self, projection_cons_self, List.map_cons, later, answered]
        rfl
      · rw [Function.update_of_ne same] at later
        rw [projection_cons_other (Ne.symm same), projection_cons_other (Ne.symm same), later]

/-- Two orders of the same actions end in states of the same description, with
the same answers to every actor. -/
theorem Follows.independent (follows : Follows perform automaton seen actors describes) {first second : List (κ × α)}
    (known : ∀ entry ∈ first, actors entry.1) (same : ∀ actor, projection first actor = projection second actor)
    {states : κ → σ} {state : τ} (start : describes states state) : ∃ final sent final' sent',
      performAll perform state first = some (final, sent) ∧
      performAll perform state second = some (final', sent') ∧
      (∃ ends, describes ends final ∧ describes ends final') ∧
      ∀ actor, (projection sent actor).map seen = (projection sent' actor).map seen := by
  have others : ∀ entry ∈ second, actors entry.1 := by
    intro entry member
    have inside : entry.2 ∈ projection first entry.1 := same entry.1 ▸ mem_projection.mpr member
    exact known entry (mem_projection.mp inside)
  obtain ⟨final, sent, performed, described, told⟩ := follows.run known start
  obtain ⟨final', sent', performed', described', told'⟩ := follows.run others start
  have ends : (fun actor => automaton.final (states actor) (projection first actor)) =
      fun actor => automaton.final (states actor) (projection second actor) := by
    funext actor
    rw [same actor]
  refine ⟨final, sent, final', sent', performed, performed', ⟨_, described, ends ▸ described'⟩, ?_⟩
  intro actor
  rw [told actor, told' actor, same actor]

end Interleaving

end VirtualLan
