import Mathlib.Data.List.Basic

/-! Executable transition systems with recorded histories. A guarded step yields
the next state and its visible output. A history keeps every step a run took,
latest first, so a result may speak about what happened earlier. -/

namespace VirtualLan

universe u v w

structure System (σ : Type u) (ε : Type v) (ω : Type w) where
  initial : σ
  step : σ → ε → Option (σ × ω)

/-- One step of a run, with the states around it. -/
structure Moment (σ : Type u) (ε : Type v) (ω : Type w) where
  before : σ
  event : ε
  output : ω
  after : σ

namespace System
variable {σ : Type u} {ε : Type v} {ω : Type w} (system : System σ ε ω)

def Legal (moment : Moment σ ε ω) : Prop :=
  system.step moment.before moment.event = some (moment.after, moment.output)

inductive Run : List (Moment σ ε ω) → σ → Prop
  | start : Run [] system.initial
  | next {history : List (Moment σ ε ω)} (moment : Moment σ ε ω)
      (past : Run history moment.before) (legal : system.Legal moment) : Run (moment :: history) moment.after

def Reachable (state : σ) : Prop := ∃ history, system.Run history state

variable {system}

theorem Reachable.start : system.Reachable system.initial := ⟨[], .start⟩

theorem Run.extended {history : List (Moment σ ε ω)} {before after : σ} {event : ε} {output : ω}
    (run : system.Run history before) (stepped : system.step before event = some (after, output)) :
    ∃ moment, moment.output = output ∧ system.Run (moment :: history) after :=
  ⟨⟨before, event, output, after⟩, rfl, .next _ run stepped⟩

theorem Reachable.next {before after : σ} {event : ε} {output : ω} (reached : system.Reachable before)
    (legal : system.step before event = some (after, output)) : system.Reachable after := by
  obtain ⟨history, run⟩ := reached
  obtain ⟨moment, _, longer⟩ := run.extended legal
  exact ⟨moment :: history, longer⟩

/-- An assertion about histories and states that starts true and survives every
legal step holds along the whole run. -/
theorem Run.history_invariant {history : List (Moment σ ε ω)} {state : σ} (run : system.Run history state)
    (assertion : List (Moment σ ε ω) → σ → Prop) (initial : assertion [] system.initial)
    (preserved : ∀ history moment, system.Run history moment.before → assertion history moment.before →
      system.Legal moment → assertion (moment :: history) moment.after) : assertion history state := by
  induction run with
  | start => exact initial
  | next moment past legal ih => exact preserved _ moment past ih legal

theorem Reachable.invariant {state : σ} (reached : system.Reachable state) (assertion : σ → Prop)
    (initial : assertion system.initial)
    (preserved : ∀ before event after output, assertion before →
      system.step before event = some (after, output) → assertion after) : assertion state := by
  obtain ⟨history, run⟩ := reached
  exact run.history_invariant (fun _ => assertion) initial
    (fun _ moment _ kept legal => preserved _ _ _ _ kept legal)

theorem Run.earlier {newer older : List (Moment σ ε ω)} {moment : Moment σ ε ω} {state : σ}
    (run : system.Run (newer ++ moment :: older) state) :
    system.Run older moment.before ∧ system.Legal moment := by
  induction newer generalizing state with
  | nil =>
    cases run with
    | next _ past legal => exact ⟨past, legal⟩
  | cons latest newer ih =>
    cases run with
    | next _ past legal => exact ih past

/-- A history leads to one state. -/
theorem Run.unique {history : List (Moment σ ε ω)} {first second : σ} (run : system.Run history first)
    (other : system.Run history second) : first = second := by
  cases run with
  | start =>
    cases other
    rfl
  | next =>
    cases other
    rfl

theorem Run.split {history : List (Moment σ ε ω)} {state : σ} (run : system.Run history state) (index : Nat)
    (inside : index < history.length) :
    system.Run (history.take index ++ history.get ⟨index, inside⟩ :: history.drop (index + 1)) state := by
  rw [List.get_eq_getElem, ← List.drop_eq_getElem_cons inside, List.take_append_drop]
  exact run

/-- Every recorded moment was legal and started from a reachable state. -/
theorem Run.recorded {history : List (Moment σ ε ω)} {state : σ} (run : system.Run history state)
    {moment : Moment σ ε ω} (member : moment ∈ history) :
    system.Reachable moment.before ∧ system.Legal moment := by
  obtain ⟨newer, older, rfl⟩ := List.mem_iff_append.mp member
  exact ⟨⟨older, run.earlier.1⟩, run.earlier.2⟩

def visited (history : List (Moment σ ε ω)) (state : σ) : List σ := state :: history.map Moment.before

theorem Run.before_visited {history : List (Moment σ ε ω)} {state : σ} {moment : Moment σ ε ω}
    (member : moment ∈ history) : moment.before ∈ visited history state :=
  List.mem_cons_of_mem _ (List.mem_map.mpr ⟨moment, member, rfl⟩)

theorem Run.after_visited {history : List (Moment σ ε ω)} {state : σ} (run : system.Run history state)
    {moment : Moment σ ε ω} (member : moment ∈ history) : moment.after ∈ visited history state := by
  induction run with
  | start => cases member
  | next latest past legal ih =>
    rcases List.mem_cons.mp member with rfl | earlier
    · exact List.mem_cons_self
    · exact List.mem_cons_of_mem _ (ih earlier)

/-- What every harmless step preserves holds in every state that a run of
harmless steps passes through. -/
theorem Run.visited_invariant {history : List (Moment σ ε ω)} {state : σ} (run : system.Run history state)
    (assertion : σ → Prop) {harmless : Moment σ ε ω → Prop} (initial : assertion system.initial)
    (preserved : ∀ moment, system.Legal moment → assertion moment.before → harmless moment → assertion moment.after)
    (safe : ∀ moment ∈ history, harmless moment) : ∀ passed ∈ visited history state, assertion passed := by
  induction run with
  | start =>
    intro passed member
    rw [List.mem_singleton.mp member]
    exact initial
  | next moment past legal ih =>
    have earlier := ih fun other member => safe other (List.mem_cons_of_mem _ member)
    intro passed member
    rcases List.mem_cons.mp member with rfl | before
    · exact preserved moment legal (earlier _ List.mem_cons_self) (safe moment List.mem_cons_self)
    · exact earlier passed before

/-- When harmless steps are the ones that preserve an assertion, it holds in all
states that a run passes through exactly when all of its steps are harmless. -/
theorem Run.visited_iff {history : List (Moment σ ε ω)} {state : σ} (run : system.Run history state)
    (assertion : σ → Prop) {harmless : Moment σ ε ω → Prop} (initial : assertion system.initial)
    (exact : ∀ moment, system.Legal moment → assertion moment.before → (assertion moment.after ↔ harmless moment)) :
    (∀ passed ∈ visited history state, assertion passed) ↔ ∀ moment ∈ history, harmless moment := by
  constructor
  · intro kept moment member
    have before := kept moment.before (Run.before_visited member)
    exact (exact moment (run.recorded member).2 before).mp (kept moment.after (run.after_visited member))
  · exact run.visited_invariant assertion initial fun moment legal before => (exact moment legal before).mpr

/-- A step property that amounts to a condition on each legal step amounts to
that condition along every run. -/
theorem Run.forall_iff {property condition : Moment σ ε ω → Prop}
    {history : List (Moment σ ε ω)} {state : σ} (run : system.Run history state)
    (exact : ∀ moment, system.Legal moment → (property moment ↔ condition moment)) :
    (∀ moment ∈ history, property moment) ↔ ∀ moment ∈ history, condition moment := by
  constructor
  · intro kept moment member
    exact (exact moment (run.recorded member).2).mp (kept moment member)
  · intro kept moment member
    exact (exact moment (run.recorded member).2).mpr (kept moment member)

/-- When each step of one system is some steps of a finer one that show the same,
each run of it is a run of the finer one. -/
theorem Run.simulated {σ' : Type u} {ε' : Type v} {ω' : Type w} {τ : Type} {fine : System σ' ε' ω'}
    (rests : σ' → σ → Prop) (seen : Moment σ ε ω → List τ) (seen' : Moment σ' ε' ω' → List τ)
    (initial : rests fine.initial system.initial)
    (simulates : ∀ trace low moment, fine.Run trace low → rests low moment.before → system.Legal moment →
      ∃ steps after, fine.Run (steps ++ trace) after ∧ rests after moment.after ∧ steps.flatMap seen' = seen moment)
    {history : List (Moment σ ε ω)} {state : σ} (run : system.Run history state) :
    ∃ trace low, fine.Run trace low ∧ rests low state ∧ trace.flatMap seen' = history.flatMap seen := by
  induction run with
  | start => exact ⟨[], _, .start, initial, rfl⟩
  | next moment past legal ih =>
    obtain ⟨trace, low, taken, resting, same⟩ := ih
    obtain ⟨steps, after, longer, rested, shown⟩ := simulates trace low moment taken resting legal
    refine ⟨steps ++ trace, after, longer, rested, ?_⟩
    rw [List.flatMap_append, List.flatMap_cons, shown, same]

variable (system)

/-- Play events in order and record them; a disabled event is skipped. -/
def playFrom (start : List (Moment σ ε ω) × σ) : List ε → List (Moment σ ε ω) × σ
  | [] => start
  | event :: events =>
    match system.step start.2 event with
    | none => playFrom start events
    | some (after, output) => playFrom (⟨start.2, event, output, after⟩ :: start.1, after) events

def play (events : List ε) : List (Moment σ ε ω) × σ := system.playFrom ([], system.initial) events

theorem run_playFrom (events : List ε) {start : List (Moment σ ε ω) × σ} (past : system.Run start.1 start.2) :
    system.Run (system.playFrom start events).1 (system.playFrom start events).2 := by
  induction events generalizing start with
  | nil => exact past
  | cons event events ih =>
    unfold playFrom
    split
    next => exact ih past
    next after output stepped => exact ih (Run.next ⟨start.2, event, output, after⟩ past stepped)

theorem run_play (events : List ε) : system.Run (system.play events).1 (system.play events).2 :=
  system.run_playFrom events .start

theorem reachable_play (events : List ε) : system.Reachable (system.play events).2 := ⟨_, system.run_play events⟩

end System

end VirtualLan
