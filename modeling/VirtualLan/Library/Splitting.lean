import Mathlib.Data.List.Basic

/-! Texts cut at every separator. The pieces are determined by the text, and a
separator at its end has an empty piece behind it. -/

namespace VirtualLan.Splitting

universe u
variable {α : Type u} {separator : α} {text : List α} {pieces : List (List α)}

structure Splits (separator : α) (text : List α) (pieces : List (List α)) : Prop where
  nonempty : pieces ≠ []
  solid : ∀ piece ∈ pieces, separator ∉ piece
  joined : [separator].intercalate pieces = text

theorem intercalate_concat (nonempty : pieces ≠ []) (last : List α) :
    [separator].intercalate (pieces ++ [last]) = [separator].intercalate pieces ++ separator :: last := by
  induction pieces with
  | nil => exact absurd rfl nonempty
  | cons piece pieces ih =>
    by_cases single : pieces = []
    · subst single
      rw [List.cons_append, List.nil_append, List.intercalate_cons_cons, List.intercalate_singleton,
        List.intercalate_singleton, List.append_assoc, List.singleton_append]
    · rw [List.cons_append, List.intercalate_cons_of_ne_nil (List.append_ne_nil_of_left_ne_nil single _), ih single,
        List.intercalate_cons_of_ne_nil single, List.append_assoc, List.append_assoc, List.append_assoc]

variable [BEq α]

theorem length_splitOn (separator : α) (text : List α) :
    (text.splitOn separator).length = text.count separator + 1 := by
  induction text with
  | nil => rfl
  | cons first text ih =>
    rw [List.splitOn_cons_eq_if_modifyHead, List.count_cons]
    split
    next => rw [List.length_cons, ih]
    next => rw [List.length_modifyHead, ih, Nat.add_zero]

variable [LawfulBEq α]

theorem splitOn_solid {piece : List α} (member : piece ∈ text.splitOn separator) : separator ∉ piece := by
  induction text generalizing piece with
  | nil =>
    rw [List.splitOn_nil, List.mem_singleton] at member
    subst member
    exact List.not_mem_nil
  | cons first text ih =>
    rw [List.splitOn_cons_eq_if_modifyHead] at member
    split at member
    next =>
      rcases List.mem_cons.mp member with rfl | later
      · exact List.not_mem_nil
      · exact ih later
    next other =>
      obtain ⟨head, others, shape⟩ := List.exists_cons_of_ne_nil (List.splitOn_ne_nil separator text)
      rw [shape, List.modifyHead_cons, List.mem_cons] at member
      rw [shape] at ih
      rcases member with rfl | later
      · intro inside
        rcases List.mem_cons.mp inside with rfl | inside
        · exact other (beq_self_eq_true _)
        · exact ih List.mem_cons_self inside
      · exact ih (List.mem_cons_of_mem _ later)

/-- There is one way to cut a text. -/
theorem splits_iff : Splits separator text pieces ↔ pieces = text.splitOn separator := by
  constructor
  · rintro ⟨nonempty, solid, rfl⟩
    exact (List.splitOn_intercalate separator solid nonempty).symm
  · rintro rfl
    exact ⟨List.splitOn_ne_nil separator text, fun _ => splitOn_solid, List.intercalate_splitOn separator⟩

theorem splitOn_trailing (separator : α) (text : List α) :
    (text ++ [separator]).splitOn separator = text.splitOn separator ++ [[]] :=
  List.splitOn_append_cons_self text []

/-- An empty piece at the end is the one behind a trailing separator, or the only one. -/
theorem splitOn_empty_last (empty : text.splitOn separator = pieces ++ [[]]) :
    (text = [] ∧ pieces = []) ∨
      ∃ front, text = front ++ [separator] ∧ pieces = front.splitOn separator := by
  have joined : [separator].intercalate (text.splitOn separator) = text := List.intercalate_splitOn separator
  rw [empty] at joined
  by_cases single : pieces = []
  · subst single
    exact Or.inl ⟨joined.symm, rfl⟩
  · rw [intercalate_concat single] at joined
    refine Or.inr ⟨[separator].intercalate pieces, joined.symm, ?_⟩
    refine (List.splitOn_intercalate separator ?_ single).symm
    intro piece member
    have cut : piece ∈ text.splitOn separator := by
      rw [empty]
      exact List.mem_append_left _ member
    exact splitOn_solid cut

/-- The pieces between blanks, without the empty ones. -/
def words (blank : α → Bool) (text : List α) : List (List α) :=
  (text.splitOnP blank).filter fun piece => !piece.isEmpty

variable {blank : α → Bool}

omit [BEq α] [LawfulBEq α]

theorem words_blank {first : α} (separates : blank first = true) (text : List α) :
    words blank (first :: text) = words blank text := by
  simp [words, List.splitOnP_cons_eq_if_modifyHead, separates]

/-- A reader that skips blanks and then takes what is not blank finds the first word. -/
theorem words_eq (text : List α) : words blank text =
    if text.dropWhile blank = [] then []
    else (text.dropWhile blank).takeWhile (fun item => !blank item) ::
      words blank ((text.dropWhile blank).dropWhile fun item => !blank item) := by
  induction text with
  | nil => rfl
  | cons first text ih =>
    cases separates : blank first with
    | true => rw [words_blank separates, ih, List.dropWhile_cons_of_pos separates]
    | false =>
      have stays : (first :: text).dropWhile blank = first :: text := List.dropWhile_cons_of_neg (by simp [separates])
      rw [stays, if_neg (List.cons_ne_nil _ _)]
      have solid : ∀ item ∈ (first :: text).takeWhile fun item => !blank item, blank item = false := by
        have all : ((first :: text).takeWhile fun item => !blank item).all (fun item => !blank item) = true :=
          List.all_takeWhile
        exact fun item member => by simpa using List.all_eq_true.mp all item member
      have filled : ((first :: text).takeWhile fun item => !blank item).isEmpty = false := by
        rw [List.takeWhile_cons_of_pos (by simp [separates])]
        rfl
      have parts : ((first :: text).takeWhile fun item => !blank item) ++
          ((first :: text).dropWhile fun item => !blank item) = first :: text := List.takeWhile_append_dropWhile
      have behind := List.head?_dropWhile_not (fun item => !blank item) (first :: text)
      generalize ((first :: text).takeWhile fun item => !blank item) = word at solid filled parts ⊢
      generalize ((first :: text).dropWhile fun item => !blank item) = rest at parts behind ⊢
      rw [← parts]
      cases rest with
      | nil => simp [words, List.splitOnP_eq_singleton solid, filled]
      | cons separator rest =>
        have blank' : blank separator = true := by simpa using behind
        rw [words_blank blank', words, List.splitOnP_append_cons_of_forall_mem solid separator blank',
          List.filter_cons_of_pos (by rw [filled]; rfl)]
        rfl

theorem words_solid {text piece : List α} (member : piece ∈ words blank text) :
    ∀ item ∈ piece, blank item = false := by
  generalize size : (words blank text).length = length
  induction length using Nat.strongRecOn generalizing text with
  | ind length ih =>
    have parts : words blank text = _ := words_eq text
    split at parts
    next =>
      rw [parts] at member
      cases member
    next =>
      rw [parts] at member
      rcases List.mem_cons.mp member with rfl | later
      · have all : ((text.dropWhile blank).takeWhile fun item => !blank item).all (fun item => !blank item) = true :=
          List.all_takeWhile
        exact fun item inside => by simpa using List.all_eq_true.mp all item inside
      · exact ih _ (by rw [← size, parts]; exact Nat.lt_succ_self _) later rfl

end VirtualLan.Splitting
