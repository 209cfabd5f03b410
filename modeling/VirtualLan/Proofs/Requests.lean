import VirtualLan.Stream
import VirtualLan.Proofs.RelaySteps

/-! The requests of a client as the relay reads them: three words, of which the
second says what is asked for and the third names an address. -/

namespace VirtualLan.Relay

def requestText (verb : Verb) (rest : Str) : Str := "command".toList ++ ' ' :: (verb.word ++ ' ' :: rest)

theorem requestText_eq (verb : Verb) (rest : Str) :
    requestText verb rest = "command".toList ++ ' ' :: (verb.word ++ ' ' :: rest) := rfl

theorem requestText_append (verb : Verb) (rest more : Str) :
    requestText verb rest ++ more = requestText verb (rest ++ more) := by
  simp only [requestText_eq, List.append_assoc, List.cons_append]

private theorem lines : "command join ".toList = "command".toList ++ ' ' :: ("join".toList ++ [' ']) ∧
    "command list ".toList = "command".toList ++ ' ' :: ("list".toList ++ [' ']) ∧
    "command leave ".toList = "command".toList ++ ' ' :: ("leave".toList ++ [' ']) := by
  decide

private theorem line_append {line first second : Str} (same : line = first ++ ' ' :: (second ++ [' '])) (text : Str) :
    encode line ++ encode text = encode (first ++ ' ' :: (second ++ ' ' :: text)) := by
  rw [same, ← encode_append]
  simp

theorem request_eq (name : Name) (verb : Verb) : request name verb = encode (requestText verb name.text) := by
  obtain ⟨join, list, leave⟩ := lines
  cases verb with
  | join => exact line_append join name.text
  | list => exact line_append list name.text
  | leave => exact line_append leave name.text

theorem Verb.token (verb : Verb) : Token verb.word := by
  cases verb <;> exact ⟨by decide, by decide⟩

theorem command_token : Token "command".toList := ⟨by decide, by decide⟩

theorem split_requestText (verb : Verb) (rest : Str) :
    split (requestText verb rest) = "command".toList :: verb.word :: split rest := by
  have blank : isSpace ' ' = true := by decide
  rw [requestText_eq, split_cons command_token blank, split_cons (Verb.token verb) blank]

theorem encode_command (rest : Str) : (bytes "command").isPrefixOf (encode ("command".toList ++ rest)) = true := by
  have first : encode "command".toList <+: encode ("command".toList ++ rest) := by
    rw [encode_append]
    exact List.prefix_append _ _
  exact List.isPrefixOf_iff_prefix.mpr first

theorem requestText_command (verb : Verb) (rest : Str) :
    (bytes "command").isPrefixOf (encode (requestText verb rest)) = true := encode_command _

/-- The relay reads a request as the client meant it. -/
theorem request_asks (name : Name) (verb : Verb) : Asks (request name verb) verb name.text := by
  have words : split (requestText verb name.text) = ["command".toList, verb.word, name.text] := by
    rw [split_requestText, split_token name.token]
  rw [request_eq]
  refine ⟨requestText_command verb name.text, _, decode_encode _, ?_, ?_⟩
  · simp only [words, List.getElem?_cons_succ, List.getElem?_cons_zero]
  · simp only [words, List.getElem?_cons_succ, List.getElem?_cons_zero]

theorem request_length (name : Name) (verb : Verb) : (request name verb).length ≤ 14 + 4 * name.text.length := by
  have size := encode_length name.text
  have words : (bytes "command join ").length ≤ 14 ∧ (bytes "command list ").length ≤ 14 ∧
      (bytes "command leave ").length ≤ 14 := by decide
  cases verb <;> simp only [request, List.length_append] <;> omega

theorem request_injective (name : Name) : Function.Injective (request name) := by
  intro verb other same
  exact ((request_asks name verb).unique (same ▸ request_asks name other)).1

end VirtualLan.Relay
