import VirtualLan.Library.Loop
import VirtualLan.Library.Splitting
import VirtualLan.Tokenizer
import VirtualLan.Proofs.Responses

/-! The tokens of a command. The collected tokens and the tokens of what is left are
those of the command after every pass, and every pass shortens what is left. -/

namespace VirtualLan.Peer
open StateTransition Splitting

variable {text command : Bytes} {locals after : Locals} {pos : Nat}

theorem delimiter_eq : delimiter = [0x20] := by decide

theorem delimiter_at : delimiter.isPrefixOf (text.drop pos) = true ↔ text[pos]? = some 0x20 := by
  rw [delimiter_eq, ← List.head?_drop]
  cases text.drop pos with
  | nil => simp
  | cons byte rest =>
    rw [List.head?_cons, Option.some.injEq, List.isPrefixOf_cons_cons, List.isPrefixOf_nil_left, Bool.and_true,
      beq_iff_eq]
    exact eq_comm

theorem find_some (found : find text delimiter = some pos) :
    ∃ token rest, text = token ++ 0x20 :: rest ∧ 0x20 ∉ token ∧ token.length = pos := by
  rw [find, List.find?_range_eq_some] at found
  obtain ⟨stands, _, first⟩ := found
  obtain ⟨inside, blank⟩ := List.getElem?_eq_some_iff.mp (delimiter_at.mp stands)
  refine ⟨text.take pos, text.drop (pos + 1), ?_, ?_, ?_⟩
  · rw [← blank, ← List.drop_eq_getElem_cons inside, List.take_append_drop]
  · intro member
    obtain ⟨index, before, same⟩ := List.mem_take_iff_getElem.mp member
    have absent := first index (by omega)
    rw [Bool.not_eq_true', ← Bool.not_eq_true, delimiter_at, List.getElem?_eq_getElem (by omega), same] at absent
    exact absent rfl
  · rw [List.length_take, Nat.min_eq_left (by omega)]

theorem find_none (missing : find text delimiter = none) : 0x20 ∉ text := by
  rw [find, List.find?_range_eq_none] at missing
  intro member
  obtain ⟨index, inside, blank⟩ := List.getElem_of_mem member
  have absent := missing index (by omega)
  rw [Bool.not_eq_true', ← Bool.not_eq_true, delimiter_at, List.getElem?_eq_getElem inside, blank] at absent
  exact absent rfl

theorem takeToken_some (pass : takeToken locals = some after) : ∃ token rest,
    locals.str = token ++ 0x20 :: rest ∧ 0x20 ∉ token ∧ after = ⟨locals.tokens ++ [token], rest⟩ := by
  unfold takeToken at pass
  split at pass
  next => cases pass
  next pos found =>
    obtain ⟨token, rest, shape, solid, size⟩ := find_some found
    refine ⟨token, rest, shape, solid, ?_⟩
    cases pass
    rw [substr, erase, shape, delimiter_eq, ← size]
    simp

theorem takeToken_none (done : takeToken locals = none) : 0x20 ∉ locals.str := by
  unfold takeToken at done
  split at done
  next missing => exact find_none missing
  next => cases done

/-- The tokens of the command are the collected ones and those of what is left. -/
def Accounts (command : Bytes) (locals : Locals) : Prop :=
  command.splitOn 0x20 = locals.tokens ++ locals.str.splitOn 0x20

theorem takeToken_rule (command : Bytes) :
    Loop.Rule takeToken (Accounts command) (fun locals => locals.str.length) := by
  constructor
  · intro before after accounts pass
    obtain ⟨token, rest, shape, solid, rfl⟩ := takeToken_some pass
    rw [Accounts, shape, List.splitOn_append_cons_self_of_not_mem solid] at accounts
    rw [Accounts, accounts, List.append_assoc, List.singleton_append]
  · intro before after _ pass
    obtain ⟨token, rest, shape, _, rfl⟩ := takeToken_some pass
    rw [shape, List.length_append, List.length_cons]
    change rest.length < _
    omega

theorem eval_takeToken (command : Bytes) :
    ∃ final, eval takeToken ⟨[], command⟩ = Part.some final ∧ final.pushRest = tokenize command := by
  have entry : Accounts command ⟨[], command⟩ := rfl
  obtain ⟨final, left, accounts, done⟩ := (takeToken_rule command).finishes entry
  refine ⟨final, left, ?_⟩
  rw [Accounts, List.splitOn_eq_singleton (takeToken_none done)] at accounts
  rw [tokenize_eq_splitOn, accounts, Locals.pushRest]

/-- The loop is left after every command, and its tokens are the only way to cut the
command at its spaces. -/
theorem handleResponse_tokens (str : Bytes) :
    (∃ final, eval takeToken ⟨[], str⟩ = Part.some final ∧ final.pushRest = tokenize str) ∧
    (∀ tokens, Splits 0x20 str tokens ↔ tokens = tokenize str) ∧
    (tokenize str).length = str.count 0x20 + 1 ∧
    tokenize (str ++ [0x20]) = tokenize str ++ [[]] ∧
    ((∃ earlier, tokenize str = earlier ++ [[]]) ↔ str = [] ∨ ∃ front, str = front ++ [0x20]) := by
  simp only [tokenize_eq_splitOn]
  refine ⟨?_, ?_, ?_, ?_, ?_, ?_⟩
  · rw [← tokenize_eq_splitOn]
    exact eval_takeToken str
  · intro tokens
    exact splits_iff
  · exact length_splitOn 0x20 str
  · exact splitOn_trailing 0x20 str
  · rintro ⟨earlier, last⟩
    rcases splitOn_empty_last last with ⟨empty, _⟩ | ⟨front, ends, _⟩
    · exact Or.inl empty
    · exact Or.inr ⟨front, ends⟩
  · rintro (rfl | ⟨front, rfl⟩)
    · exact ⟨[], rfl⟩
    · exact ⟨front.splitOn 0x20, splitOn_trailing 0x20 front⟩

end VirtualLan.Peer
