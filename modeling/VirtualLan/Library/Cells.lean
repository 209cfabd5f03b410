import Mathlib.Data.List.Basic

/-! Arrays of cells that hold nothing until they are written, and loops that count.
Reading a cell before it is written is a fault, and so is an index out of bounds. -/

namespace VirtualLan

universe u v

/-- What a computation with assertions and arrays can run into. -/
inductive Fault where
  | outOfBounds
  | unwritten
  | assertion
  | endless
  deriving DecidableEq

/-- An assertion of the source. -/
def require (condition : Prop) [Decidable condition] : Except Fault Unit :=
  if condition then .ok () else .error .assertion

theorem require_true {condition : Prop} [Decidable condition] (holds : condition) : require condition = .ok () :=
  if_pos holds

namespace Cells

variable {α : Type u} {cells : List (Option α)} {index bound : Nat} {item : α}

def read (cells : List (Option α)) (index : Nat) : Except Fault α :=
  match cells[index]? with
  | some (some item) => .ok item
  | some none => .error .unwritten
  | none => .error .outOfBounds

def write (cells : List (Option α)) (index : Nat) (item : α) : Except Fault (List (Option α)) :=
  if index < cells.length then .ok (cells.set index (some item)) else .error .outOfBounds

def Has (cells : List (Option α)) (index : Nat) (item : α) : Prop := cells[index]? = some (some item)

theorem Has.read (has : Has cells index item) : Cells.read cells index = .ok item := by
  rw [Cells.read, has]

theorem write_inside (inside : index < cells.length) (item : α) : write cells index item = .ok (cells.set index (some item)) :=
  if_pos inside

theorem has_set (inside : index < cells.length) (item : α) : Has (cells.set index (some item)) index item :=
  List.getElem?_set_self inside

theorem Has.set {other : Nat} {change : α} (has : Has cells index item) (apart : other ≠ index) :
    Has (cells.set other (some change)) index item :=
  (List.getElem?_set_ne apart).trans has

end Cells

/-- The rule for a loop from `start` on: what holds before each round, indexed by the
round, holds behind the last one. -/
theorem foldlM_range' {ε : Type u} {σ : Type v} {body : σ → Nat → Except ε σ} {start count : Nat} (invariant : Nat → σ → Prop)
    (step : ∀ index state, start ≤ index → index < start + count → invariant index state →
      ∃ after, body state index = .ok after ∧ invariant (index + 1) after)
    {state : σ} (entry : invariant start state) : ∃ final,
      (List.range' start count).foldlM body state = .ok final ∧ invariant (start + count) final := by
  induction count generalizing start state with
  | zero => exact ⟨state, rfl, entry⟩
  | succ count ih =>
    obtain ⟨after, same, holds⟩ := step start state (Nat.le_refl _) (Nat.lt_add_of_pos_right (Nat.succ_pos _)) entry
    have later : ∃ final, (List.range' (start + 1) count).foldlM body after = .ok final ∧ invariant (start + 1 + count) final := by
      apply ih ?_ holds
      intro index state from' inside
      exact step index state (Nat.le_of_succ_le from') (by omega)
    obtain ⟨final, folds, done⟩ := later
    refine ⟨final, ?_, by rwa [Nat.add_assoc, Nat.add_comm 1] at done⟩
    rw [List.range'_succ, List.foldlM_cons, same]
    exact folds

end VirtualLan
