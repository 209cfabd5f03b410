import VirtualLan.Library.History

/-! What a run has shown so far. A chronicle collects what each step shows, oldest
first; where a queue takes in one chronicle and gives out another, the two differ
by what still waits in it. -/

namespace VirtualLan.System

universe u v w
variable {σ : Type u} {ε : Type v} {ω : Type w} {τ τ' : Type}

def chronicle (shown : Moment σ ε ω → List τ) (history : List (Moment σ ε ω)) : List τ :=
  history.reverse.flatMap shown

variable {shown other : Moment σ ε ω → List τ} {history : List (Moment σ ε ω)}

@[simp] theorem chronicle_nil : chronicle shown [] = [] := rfl

@[simp] theorem chronicle_cons (moment : Moment σ ε ω) :
    chronicle shown (moment :: history) = chronicle shown history ++ shown moment := by
  simp [chronicle]

theorem mem_chronicle {item : τ} : item ∈ chronicle shown history ↔ ∃ moment ∈ history, item ∈ shown moment := by
  simp [chronicle]

theorem chronicle_filter (keep : τ → Bool) :
    (chronicle shown history).filter keep = chronicle (fun moment => (shown moment).filter keep) history := by
  induction history with
  | nil => rfl
  | cons moment history ih => simp [ih]

theorem chronicle_map (f : τ → τ') :
    (chronicle shown history).map f = chronicle (fun moment => (shown moment).map f) history := by
  induction history with
  | nil => rfl
  | cons moment history ih => simp [ih]

theorem chronicle_flatMap (f : τ → List τ') :
    (chronicle shown history).flatMap f = chronicle (fun moment => (shown moment).flatMap f) history := by
  induction history with
  | nil => rfl
  | cons moment history ih => simp [ih]

variable {system : System σ ε ω} {state : σ}

/-- Two chronicles are equal when every step of the run shows the same in both. -/
theorem Run.chronicle_congr (run : system.Run history state)
    (same : ∀ moment ∈ history, system.Reachable moment.before → system.Legal moment → shown moment = other moment) :
    chronicle shown history = chronicle other history := by
  induction run with
  | start => rfl
  | next moment past legal ih =>
    have earlier := ih fun moment member => same moment (List.mem_cons_of_mem _ member)
    rw [chronicle_cons, chronicle_cons, earlier, same moment List.mem_cons_self ⟨_, past⟩ legal]

theorem Run.chronicle_sublist (run : system.Run history state)
    (within : ∀ moment ∈ history, system.Reachable moment.before → system.Legal moment →
      List.Sublist (shown moment) (other moment)) :
    List.Sublist (chronicle shown history) (chronicle other history) := by
  induction run with
  | start => exact List.Sublist.refl _
  | next moment past legal ih =>
    have earlier := ih fun moment member => within moment (List.mem_cons_of_mem _ member)
    rw [chronicle_cons, chronicle_cons]
    exact earlier.append (within moment List.mem_cons_self ⟨_, past⟩ legal)

/-- A log that every step extends by what it shows is the chronicle. -/
theorem Run.logged (run : system.Run history state) (log : σ → List τ) (empty : log system.initial = [])
    (extends' : ∀ moment, system.Reachable moment.before → system.Legal moment →
      log moment.after = log moment.before ++ shown moment) : log state = chronicle shown history := by
  induction run with
  | start => exact empty
  | next moment past legal ih => rw [chronicle_cons, extends' moment ⟨_, past⟩ legal, ih]

/-- First in, first out: what entered a queue is what left it, followed by what
is still in it. -/
theorem Run.conserved {entering leaving : Moment σ ε ω → List τ} (run : system.Run history state)
    (queue : σ → List τ) (empty : queue system.initial = [])
    (balanced : ∀ moment, system.Reachable moment.before → system.Legal moment →
      leaving moment ++ queue moment.after = queue moment.before ++ entering moment) :
    chronicle entering history = chronicle leaving history ++ queue state := by
  induction run with
  | start => rw [empty]; rfl
  | next moment past legal ih =>
    have balance := balanced moment ⟨_, past⟩ legal
    rw [chronicle_cons, chronicle_cons, List.append_assoc, balance, ih, List.append_assoc]

end VirtualLan.System
