import Mathlib.Data.List.Basic

/-! Messages on a byte stream. A reader sees the concatenation of the messages
in pieces that need not begin or end where a message does. -/

namespace VirtualLan.Segmentation

universe u
variable {α : Type u}

/-- The pieces that a reader may get of a sequence of messages. -/
structure Cuts (messages chunks : List (List α)) : Prop where
  same : chunks.flatten = messages.flatten
  nonempty : ∀ chunk ∈ chunks, chunk ≠ []

theorem Cuts.refl {messages : List (List α)} (nonempty : ∀ message ∈ messages, message ≠ []) :
    Cuts messages messages := ⟨rfl, nonempty⟩

theorem Cuts.of_nil {chunks : List (List α)} (cuts : Cuts [] chunks) : chunks = [] := by
  cases chunks with
  | nil => rfl
  | cons chunk chunks =>
    have empty := cuts.same
    rw [List.flatten_cons, List.flatten_nil, List.append_eq_nil_iff] at empty
    exact absurd empty.1 (cuts.nonempty chunk List.mem_cons_self)

/-- The first piece is the first message, falls short of it, or goes beyond it. -/
theorem Cuts.first {message chunk : List α} {messages chunks : List (List α)}
    (cuts : Cuts (message :: messages) (chunk :: chunks)) :
    (chunk = message ∧ Cuts messages chunks) ∨
    (∃ rest, rest ≠ [] ∧ message = chunk ++ rest ∧ chunks.flatten = rest ++ messages.flatten) ∨
    (∃ extra, extra ≠ [] ∧ chunk = message ++ extra ∧ messages.flatten = extra ++ chunks.flatten) := by
  have same := cuts.same
  rw [List.flatten_cons, List.flatten_cons, List.append_eq_append_iff] at same
  have later : ∀ piece ∈ chunks, piece ≠ [] := fun piece member => cuts.nonempty piece (List.mem_cons_of_mem _ member)
  rcases same with ⟨rest, message, tail⟩ | ⟨extra, chunk, tail⟩
  · by_cases empty : rest = []
    · subst empty
      rw [List.append_nil] at message
      exact Or.inl ⟨message.symm, tail, later⟩
    · exact Or.inr (Or.inl ⟨rest, empty, message, tail⟩)
  · by_cases empty : extra = []
    · subst empty
      rw [List.append_nil] at chunk
      exact Or.inl ⟨chunk, tail.symm, later⟩
    · exact Or.inr (Or.inr ⟨extra, empty, chunk, tail⟩)

theorem Cuts.ne_nil {message : List α} {messages chunks : List (List α)} (cuts : Cuts (message :: messages) chunks)
    (nonempty : message ≠ []) : chunks ≠ [] := by
  rintro rfl
  have same := cuts.same
  rw [List.flatten_cons, List.flatten_nil, eq_comm, List.append_eq_nil_iff] at same
  exact nonempty same.1

theorem piece_behind {first : α} {rest : List α} {chunks : List (List α)} (same : chunks.flatten = first :: rest)
    (nonempty : ∀ chunk ∈ chunks, chunk ≠ []) : ∃ piece others, chunks = (first :: piece) :: others ∧
      rest = piece ++ others.flatten := by
  cases chunks with
  | nil => cases same
  | cons chunk others =>
    cases chunk with
    | nil => exact absurd rfl (nonempty [] List.mem_cons_self)
    | cons byte piece =>
      rw [List.flatten_cons, List.cons_append, List.cons.injEq] at same
      exact ⟨piece, others, by rw [same.1], same.2.symm⟩

end VirtualLan.Segmentation
