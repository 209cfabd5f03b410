import VirtualLan.Library.Loop
import VirtualLan.Library.Splitting
import VirtualLan.Process

/-! The loop of `main` over any input. It is left at a `0` where a command is read,
and nowhere else: at the end of the input it goes on for ever. -/

namespace VirtualLan.Peer
open StateTransition
open Splitting (words words_eq)

/-- The commands up to the word that ends the loop, if there is one. The word behind a
`4` is no command. -/
def session : List Bytes → Option (List Command)
  | [] => none
  | word :: rest =>
    if word = bytes "0" then some []
    else if word = bytes "4" then
      match rest with
      | [] => none
      | text :: rest => (session rest).map (.text text :: ·)
    else (session rest).map (plainCommand word ++ ·)

theorem extract_words (input : Bytes) :
    extract input = none ∧ words isBlank input = [] ∨
    ∃ word rest, extract input = some (word, rest) ∧ words isBlank input = word :: words isBlank rest := by
  unfold extract
  rw [words_eq]
  by_cases empty : input.dropWhile isBlank = []
  · exact Or.inl (by simp [empty])
  · refine Or.inr ⟨(input.dropWhile isBlank).takeWhile (fun byte => !isBlank byte),
      (input.dropWhile isBlank).dropWhile (fun byte => !isBlank byte), by simp [empty], ?_⟩
    rw [if_neg empty]

theorem session_cons (word : Bytes) (rest : List Bytes) : session (word :: rest) =
    if word = bytes "0" then some []
    else if word = bytes "4" then
      match rest with
      | [] => none
      | text :: rest => (session rest).map (.text text :: ·)
    else (session rest).map (plainCommand word ++ ·) := by
  cases rest <;> rfl

private theorem names_apart : ([] : Bytes) ≠ bytes "0" ∧ ([] : Bytes) ≠ bytes "4" ∧ bytes "4" ≠ bytes "0" ∧
    plainCommand [] = [] := by
  decide

/-- At the end of the input every further word is empty, and nothing changes. -/
theorem mainPass_ended {input : Bytes} (ended : extract input = none) (commands : List Command) :
    mainPass ⟨input, commands⟩ = some ⟨[], commands⟩ := by
  obtain ⟨zero, four, _, nothing⟩ := names_apart
  simp only [mainPass, ended, Option.getD_none, if_neg zero, if_neg four, nothing, List.append_nil]

theorem main_stuck {input : Bytes} (ended : extract input = none) (commands : List Command) :
    ¬ (eval mainPass ⟨input, commands⟩).Dom := by
  rw [Loop.eval_next (mainPass_ended ended commands)]
  exact Loop.eval_stuck (mainPass_ended rfl commands)

theorem main_outcome (input : Bytes) (commands : List Command) :
    (∀ later, session (words isBlank input) = some later →
      ∃ rest, eval mainPass ⟨input, commands⟩ = Part.some ⟨rest, commands ++ later⟩) ∧
    (session (words isBlank input) = none → ¬ (eval mainPass ⟨input, commands⟩).Dom) := by
  obtain ⟨_, _, four, _⟩ := names_apart
  generalize size : (words isBlank input).length = length
  induction length using Nat.strongRecOn generalizing input commands with
  | ind length ih =>
    rcases extract_words input with ⟨ended, empty⟩ | ⟨word, rest, read, filled⟩
    · rw [empty]
      exact ⟨nofun, fun _ => main_stuck ended commands⟩
    rw [filled, session_cons]
    by_cases quits : word = bytes "0"
    · have done : mainPass ⟨input, commands⟩ = none := by
        simp only [mainPass, read, Option.getD_some, if_pos quits]
      rw [if_pos quits, Loop.eval_done done]
      exact ⟨fun later same => ⟨input, by cases same; rw [List.append_nil]⟩, nofun⟩
    rw [if_neg quits]
    by_cases sends : word = bytes "4"
    · rw [if_pos sends]
      subst sends
      rcases extract_words rest with ⟨ended, empty⟩ | ⟨text, behind, again, more⟩
      · have moved : mainPass ⟨input, commands⟩ = some ⟨[], commands ++ [.text []]⟩ := by
          simp only [mainPass, read, ended, Option.getD_some, Option.getD_none, if_neg four, if_true]
        rw [empty, Loop.eval_next moved]
        exact ⟨nofun, fun _ => main_stuck rfl _⟩
      · have moved : mainPass ⟨input, commands⟩ = some ⟨behind, commands ++ [.text text]⟩ := by
          simp only [mainPass, read, again, Option.getD_some, if_neg four, if_true]
        have later := ih (words isBlank behind).length
          (by rw [← size, filled, more, List.length_cons, List.length_cons]; omega) behind (commands ++ [.text text]) rfl
        rw [more, Loop.eval_next moved]
        simpa using later
    · rw [if_neg sends]
      have moved : mainPass ⟨input, commands⟩ = some ⟨rest, commands ++ plainCommand word⟩ := by
        simp only [mainPass, read, Option.getD_some, if_neg quits, if_neg sends]
      have later := ih (words isBlank rest).length
        (by rw [← size, filled, List.length_cons]; omega) rest (commands ++ plainCommand word) rfl
      rw [Loop.eval_next moved]
      simpa using later

/-- What the console does is what the model of a client's life lets its user do. -/
theorem session_possible {typed : List Bytes} (solid : ∀ word ∈ typed, (0x20 : UInt8) ∉ word) {commands : List Command}
    (ends : session typed = some commands) (device : Device) (accepts reaches : Bool) :
    ∀ command ∈ commands, ∀ action ∈ command.actions accepts reaches, (device.step action).isSome = true := by
  have plain (word : Bytes) : ∀ command ∈ plainCommand word, ∀ action ∈ command.actions accepts reaches,
      (device.step action).isSome = true := by
    intro command member action inside
    have known : command ∈ [Command.join, .members, .leave, .reconnect] := by
      unfold plainCommand at member
      repeat' split at member
      all_goals simp_all
    simp only [List.mem_cons, List.not_mem_nil, or_false] at known
    rcases known with rfl | rfl | rfl | rfl <;> simp only [Command.actions, List.mem_cons, List.not_mem_nil, or_false] at inside
    · rcases inside with rfl | rfl <;> rfl
    all_goals
      subst inside
      rfl
  have shorter (text : Bytes) : text ∈ typed → (device.step (.text text accepts)).isSome = true := by
    intro member
    rw [Device.step, if_neg (solid text member)]
    rfl
  generalize size : typed.length = length
  induction length using Nat.strongRecOn generalizing typed commands with
  | ind length ih =>
    cases typed with
    | nil => cases ends
    | cons word rest =>
      rw [session_cons] at ends
      split at ends
      next =>
        cases ends
        exact nofun
      next =>
        split at ends
        next =>
          cases rest with
          | nil => cases ends
          | cons text rest =>
            obtain ⟨later, typed, rfl⟩ := Option.map_eq_some_iff.mp ends
            have inside : ∀ other ∈ rest, other ∈ word :: text :: rest := fun other member =>
              List.mem_cons_of_mem _ (List.mem_cons_of_mem _ member)
            have next := ih rest.length (by rw [← size]; simp only [List.length_cons]; omega)
              (fun other member => solid other (inside other member)) typed
              (fun other member => shorter other (inside other member)) rfl
            intro command member
            rcases List.mem_cons.mp member with rfl | earlier
            · intro action only
              rw [List.mem_singleton.mp only]
              exact shorter text (List.mem_cons_of_mem _ List.mem_cons_self)
            · exact next command earlier
        next =>
          obtain ⟨later, typed, rfl⟩ := Option.map_eq_some_iff.mp ends
          have next := ih rest.length (by rw [← size]; exact Nat.lt_succ_self _)
            (fun other member => solid other (List.mem_cons_of_mem _ member)) typed
            (fun other member => shorter other (List.mem_cons_of_mem _ member)) rfl
          intro command member
          rcases List.mem_append.mp member with first | earlier
          · exact plain word command first
          · exact next command earlier

/-- `main` returns exactly when a word of its input ends it, having carried out the
commands before this word in order; every one of them is a step of a client's life. -/
theorem main_returns_iff (input : Bytes) (commands : List Command) :
    ((∃ rest, eval mainPass ⟨input, []⟩ = Part.some ⟨rest, commands⟩) ↔
      session (words isBlank input) = some commands) ∧
    (session (words isBlank input) = some commands → ∀ command ∈ commands, ∀ device accepts reaches,
      ∀ action ∈ command.actions accepts reaches, (Device.step device action).isSome = true) := by
  have outcome := main_outcome input []
  refine ⟨⟨?_, ?_⟩, ?_⟩
  · rintro ⟨rest, left⟩
    cases typed : session (words isBlank input) with
    | none =>
      refine absurd ?_ (outcome.2 typed)
      rw [left]
      trivial
    | some later =>
      obtain ⟨other, same⟩ := outcome.1 later typed
      rw [left, Part.some_inj] at same
      cases same
      rfl
  · exact outcome.1 commands
  · intro typed command member device accepts reaches
    refine session_possible ?_ typed device accepts reaches command member
    intro word inside blank
    cases Splitting.words_solid inside _ blank

end VirtualLan.Peer
