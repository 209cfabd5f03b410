import Mathlib.Data.List.Infix
import VirtualLan.Proofs.Requests
import VirtualLan.Proofs.Addresses

/-! Pieces of the stream that are no whole message, as the relay takes them: parts
of commands, commands with another message's first byte behind them, and bytes
that are neither a command nor a packet. -/

namespace VirtualLan.Relay

variable {zlib : Zlib} {lobbyList : Lobby} {socket : Socket} {piece : Bytes}

/-- Neither a command nor a zlib stream. -/
structure Junk (zlib : Zlib) (piece : Bytes) : Prop where
  nonempty : piece ≠ []
  payload : (bytes "command").isPrefixOf piece = false
  broken : zlib.decompress piece = none

variable (lobbyList socket) in
theorem Junk.react (junk : Junk zlib piece) : react zlib lobbyList socket piece =
    if isClientJoin lobbyList socket then .crashed .zlibError else .rejected := by
  have message : piece.isEmpty = false := by simpa using junk.nonempty
  simp only [Relay.react, message, junk.payload, Bool.false_eq_true, if_false, reactPacket, junk.broken]

theorem Junk.of_head (lawful : zlib.Lawful) {byte : UInt8} (tail : Bytes) (other : byte ≠ 0x63)
    (method : byte.toNat % 16 ≠ 8) : Junk zlib (byte :: tail) :=
  ⟨List.cons_ne_nil _ _, payload_of_head other, lawful.broken_of_head method⟩

theorem Junk.of_short (lawful : zlib.Lawful) {rest : Bytes} (nonempty : piece ≠ []) (few : piece.length < 7)
    (whole : (bytes "command").isPrefixOf (piece ++ rest) = true) : Junk zlib piece := by
  obtain ⟨byte, tail, rfl⟩ := List.exists_cons_of_ne_nil nonempty
  obtain rfl : byte = 0x63 := Option.some.inj (head_of_command whole)
  refine ⟨nonempty, ?_, lawful.broken_of_head (by decide)⟩
  cases starts : (bytes "command").isPrefixOf (0x63 :: tail) with
  | false => rfl
  | true =>
    have length : (bytes "command").length = 7 := by decide
    have fits := (List.isPrefixOf_iff_prefix.mp starts).length_le
    omega

/-- What is left of the last word of a command, with other messages behind it. -/
theorem Junk.of_address (lawful : zlib.Lawful) {byte : UInt8} {tail : Bytes} (inside : byte ∈ addressBytes)
    (behind : ∀ next ∈ tail.head?, next ∈ 0x63 :: 0x78 :: addressBytes) : Junk zlib (byte :: tail) := by
  have apart : ∀ cmf ∈ addressBytes, cmf ≠ 0x63 ∧
      ∀ flg ∈ 0x63 :: 0x78 :: addressBytes, ¬ Zlib.Header cmf flg := by decide
  refine ⟨List.cons_ne_nil _ _, payload_of_head (apart byte inside).1, ?_⟩
  cases decoded : zlib.decompress (byte :: tail) with
  | none => rfl
  | some packet =>
    obtain ⟨cmf, flg, rest, same, header⟩ := lawful.header _ packet decoded
    obtain ⟨rfl, rfl⟩ := List.cons.inj same
    exact absurd header ((apart byte inside).2 flg (behind flg rfl))

inductive Part (verb : Verb) (ip start : Str) : Prop
  | short (few : (encode start).length < 7)
  | broken (starts : (bytes "command").isPrefixOf (encode start) = true)
      (missing : ∀ lobbyList socket, reactCommand lobbyList socket (split start) = .crashed .indexError)
  | idle (letter : Char) (rest : Str) (starts : (bytes "command").isPrefixOf (encode start) = true)
      (unknown : ∀ lobbyList socket, reactCommand lobbyList socket (split start) = .ignored)
      (inside : letter ∈ verb.word) (whole : requestText verb ip = start ++ letter :: rest)
  | named (name more : Str) (asks : Asks (encode start) verb name) (whole : ip = name ++ more)
      (text : requestText verb ip = start ++ more)

theorem prefix_append_cases {α : Type} {part first second : List α} (inside : part <+: first ++ second) :
    part <+: first ∨ ∃ rest, rest ≠ [] ∧ part = first ++ rest ∧ rest <+: second := by
  obtain ⟨tail, whole⟩ := inside
  rcases List.append_eq_append_iff.mp whole with ⟨more, same, _⟩ | ⟨more, same, after⟩
  · exact Or.inl ⟨more, same.symm⟩
  · by_cases empty : more = []
    · subst empty
      rw [List.append_nil] at same
      exact Or.inl (same ▸ List.prefix_refl _)
    · exact Or.inr ⟨more, empty, same, tail, after.symm⟩

private theorem command_part : ∀ start ∈ "command".toList.inits,
    (encode start).length < 7 ∨ start = "command".toList := by
  decide

private theorem verb_part : ∀ verb : Verb, ∀ start ∈ verb.word.inits,
    start = [] ∨ start = verb.word ∨ verb? start = none := by
  intro verb
  cases verb <;> decide

private theorem reactCommand_bare (lobbyList : Lobby) (socket : Socket) :
    reactCommand lobbyList socket ["command".toList] = .crashed .indexError := rfl

private theorem reactCommand_nameless (verb : Verb) (lobbyList : Lobby) (socket : Socket) :
    reactCommand lobbyList socket ["command".toList, verb.word] = .crashed .indexError := by
  have known : verb? verb.word = some verb := verb?_eq_some_iff.mpr rfl
  simp only [reactCommand, List.getElem?_cons_succ, List.getElem?_cons_zero, known]
  rfl

private theorem reactCommand_unknown {word : Str} (unknown : verb? word = none) (lobbyList : Lobby) (socket : Socket) :
    reactCommand lobbyList socket ["command".toList, word] = .ignored := by
  simp only [reactCommand, List.getElem?_cons_succ, List.getElem?_cons_zero, unknown]

private theorem part_of_word {verb : Verb} {words : Str} (ip : Str) (inside : words <+: verb.word) :
    Part verb ip ("command".toList ++ ' ' :: words) := by
  have blank : isSpace ' ' = true := by decide
  have tokens : split ("command".toList ++ ' ' :: words) = "command".toList :: split words :=
    split_cons command_token blank words
  rcases verb_part verb words ((List.mem_inits _ _).mpr inside) with rfl | rfl | unknown
  · refine .broken (encode_command _) fun lobbyList socket => ?_
    rw [tokens]
    exact reactCommand_bare lobbyList socket
  · refine .broken (encode_command _) fun lobbyList socket => ?_
    rw [tokens, split_token (Verb.token verb), reactCommand_nameless]
  · obtain ⟨tail, whole⟩ := inside
    cases words with
    | nil =>
      refine .broken (encode_command _) fun lobbyList socket => ?_
      rw [tokens]
      exact reactCommand_bare lobbyList socket
    | cons char words =>
      cases tail with
      | nil =>
        rw [List.append_nil] at whole
        rw [whole, verb?_eq_some_iff.mpr rfl] at unknown
        cases unknown
      | cons letter tail =>
        have token : Token (char :: words) := by
          refine ⟨List.cons_ne_nil _ _, fun other member => (Verb.token verb).solid other ?_⟩
          exact whole ▸ List.mem_append_left _ member
        refine .idle letter (tail ++ ' ' :: ip) (encode_command _) (fun lobbyList socket => ?_) ?_ ?_
        · rw [tokens, split_token token, reactCommand_unknown unknown]
        · exact whole ▸ List.mem_append_right _ List.mem_cons_self
        · rw [requestText_eq, ← whole]
          simp only [List.append_assoc, List.cons_append]

private theorem part_of_name {verb : Verb} {ip name : Str} (solid : ∀ char ∈ ip, isSpace char = false)
    (inside : name <+: ip) : Part verb ip (requestText verb name) := by
  obtain ⟨more, whole⟩ := inside
  by_cases empty : name = []
  · subst empty
    refine .broken (encode_command _) fun lobbyList socket => ?_
    rw [split_requestText]
    exact reactCommand_nameless verb lobbyList socket
  · have token : Token name := ⟨empty, fun char member => solid char (whole ▸ List.mem_append_left _ member)⟩
    have asks := request_asks ⟨name, token⟩ verb
    rw [request_eq] at asks
    refine .named name more asks whole.symm ?_
    rw [requestText_append, whole]

/-- A part of a request ends in its first, its second or its third word. -/
theorem part_cases {verb : Verb} {ip start : Str} (solid : ∀ char ∈ ip, isSpace char = false)
    (inside : start <+: requestText verb ip) : Part verb ip start := by
  rw [requestText_eq] at inside
  rcases prefix_append_cases inside with first | ⟨rest, nonempty, rfl, behind⟩
  · rcases command_part start ((List.mem_inits _ _).mpr first) with few | rfl
    · exact .short few
    · refine .broken (by decide) fun lobbyList socket => ?_
      rw [split_token command_token, reactCommand_bare]
  rcases List.prefix_cons_iff.mp behind with empty | ⟨words, rfl, words'⟩
  · exact absurd empty nonempty
  rcases prefix_append_cases words' with part | ⟨rest, filled, rfl, last⟩
  · exact part_of_word ip part
  rcases List.prefix_cons_iff.mp last with empty | ⟨name, rfl, named⟩
  · exact absurd empty filled
  exact part_of_name solid named

theorem word_letters (verb : Verb) {letter : Char} (inside : letter ∈ verb.word) :
    ∃ byte, String.utf8EncodeChar letter = [byte] ∧ byte ≠ 0x63 ∧ byte.toNat % 16 ≠ 8 := by
  have all : ∀ verb : Verb, ∀ letter ∈ verb.word, String.utf8EncodeChar letter = [letter.toNat.toUInt8] ∧
      letter.toNat.toUInt8 ≠ 0x63 ∧ letter.toNat.toUInt8.toNat % 16 ≠ 8 := by
    intro verb
    cases verb <;> decide
  exact ⟨_, all verb letter inside⟩

theorem address_char {b c d : UInt8} {letter : Char} (inside : letter ∈ (address b c d).text) :
    ∃ byte ∈ addressBytes, String.utf8EncodeChar letter = [byte] := (dotted_chars inside).2

private theorem ascii_of_byte {letter : Char} {byte : UInt8} (written : String.utf8EncodeChar letter = [byte]) :
    letter.utf8Size = 1 := by
  rw [← String.length_utf8EncodeChar, written]
  rfl

theorem requestText_ascii (verb : Verb) (b c d : UInt8) :
    ∀ letter ∈ requestText verb (address b c d).text, letter.utf8Size = 1 := by
  have command : ∀ letter ∈ "command".toList, letter.utf8Size = 1 := by decide
  intro letter member
  rw [requestText_eq, List.mem_append, List.mem_cons, List.mem_append, List.mem_cons] at member
  rcases member with first | rfl | second | rfl | third
  · exact command letter first
  · decide
  · obtain ⟨byte, written, _⟩ := word_letters verb second
    exact ascii_of_byte written
  · decide
  · obtain ⟨byte, _, written⟩ := address_char third
    exact ascii_of_byte written

/-- How the relay takes the first piece of a command that is cut in two, and
what the second one begins with. -/
inductive Fragment (zlib : Zlib) (verb : Verb) (ip : Str) (piece rest : Bytes) : Prop
  | junk (junk : Junk zlib piece)
  | fatal (fails : ∀ lobbyList socket, ∃ exn, react zlib lobbyList socket piece = .crashed exn)
  | idle (byte : UInt8) (tail : Bytes) (unknown : ∀ lobbyList socket, react zlib lobbyList socket piece = .ignored)
      (next : rest = byte :: tail) (lower : byte ≠ 0x63) (method : byte.toNat % 16 ≠ 8)
  | named (name : Str) (byte : UInt8) (tail : Bytes) (asks : Asks piece verb name) (shorter : name ≠ ip)
      (next : rest = byte :: tail) (inside : ∀ other ∈ rest, other ∈ addressBytes)

theorem fragment_cases (lawful : zlib.Lawful) {verb : Verb} {b c d : UInt8} {rest : Bytes} (nonempty : piece ≠ [])
    (missing : rest ≠ []) (cut : request (address b c d) verb = piece ++ rest) :
    Fragment zlib verb (address b c d).text piece rest := by
  rw [request_eq] at cut
  obtain ⟨start, inside, rfl⟩ := encode_prefix (requestText_ascii verb b c d) ⟨rest, cut.symm⟩
  have behind : ∀ {more : Str}, requestText verb (address b c d).text = start ++ more → rest = encode more := by
    intro more whole
    rw [whole, encode_append] at cut
    exact (List.append_cancel_left cut).symm
  cases part_cases (address b c d).token.solid inside with
  | short few =>
    exact .junk (.of_short lawful nonempty few (cut ▸ requestText_command verb _))
  | broken starts fails =>
    refine .fatal fun lobbyList socket => ⟨.indexError, ?_⟩
    rw [react_command starts, decode_encode]
    exact fails lobbyList socket
  | idle letter more starts unknown member whole =>
    obtain ⟨byte, written, lower, method⟩ := word_letters verb member
    refine .idle byte (encode more) (fun lobbyList socket => ?_) ?_ lower method
    · rw [react_command starts, decode_encode]
      exact unknown lobbyList socket
    · rw [behind whole, encode_cons, written]
      rfl
  | named name more asks whole text =>
    have bytes : ∀ other ∈ rest, other ∈ addressBytes := by
      rw [behind text]
      intro other member
      obtain ⟨letter, inside, written⟩ := List.mem_flatMap.mp member
      obtain ⟨byte, digit, single⟩ := address_char (whole ▸ List.mem_append_right name inside)
      rw [single, List.mem_singleton] at written
      exact written ▸ digit
    obtain ⟨byte, tail, next⟩ := List.exists_cons_of_ne_nil missing
    refine .named name byte tail asks ?_ next bytes
    rintro rfl
    rw [List.self_eq_append_right] at whole
    subst whole
    exact missing (behind text)

variable {verb : Verb} {b c d : UInt8}

variable (zlib lobbyList socket verb b c d) in
/-- Any byte that begins another message spoils the address in front of it. -/
theorem react_run_on {byte : UInt8} (begins : byte = 0x63 ∨ byte = 0x78) (extra : Bytes) :
    (∃ exn, react zlib lobbyList socket (request (address b c d) verb ++ byte :: extra) = .crashed exn) ∨
    react zlib lobbyList socket (request (address b c d) verb ++ byte :: extra) = .refused verb := by
  obtain ⟨letter, written, solid, other⟩ : ∃ letter, encode [letter] = [byte] ∧ isSpace letter = false ∧
      ¬ (letter = '.' ∨ isDigitChar letter = true) := by
    rcases begins with rfl | rfl
    · exact ⟨'c', by decide, by decide, by decide⟩
    · exact ⟨'x', by decide, by decide, by decide⟩
  have whole : request (address b c d) verb ++ byte :: extra =
      encode (requestText verb ((address b c d).text ++ [letter])) ++ extra := by
    rw [request_eq, ← requestText_append, encode_append, written, List.append_assoc, List.singleton_append]
  rw [whole]
  have starts : (bytes "command").isPrefixOf
      (encode (requestText verb ((address b c d).text ++ [letter])) ++ extra) = true := by
    have first := List.isPrefixOf_iff_prefix.mp (requestText_command verb ((address b c d).text ++ [letter]))
    exact List.isPrefixOf_iff_prefix.mpr (first.trans (List.prefix_append _ _))
  cases decoded : decode (encode (requestText verb ((address b c d).text ++ [letter])) ++ extra) with
  | error exn => exact Or.inl ⟨exn, by simp only [react_command starts, decoded]⟩
  | ok text =>
    obtain ⟨rest, rfl⟩ := decode_append decoded
    have token : Token ((address b c d).text ++ [letter]) := by
      refine ⟨by simp, ?_⟩
      intro char member
      rcases List.mem_append.mp member with inside | last
      · exact (address b c d).token.solid char inside
      · rw [List.mem_singleton.mp last]
        exact solid
    obtain ⟨more, others, third⟩ := split_word token rest
    have words : split (requestText verb ((address b c d).text ++ [letter]) ++ rest) =
        "command".toList :: verb.word :: ((address b c d).text ++ [letter] ++ more) :: others := by
      rw [requestText_append, split_requestText, third]
    have asks : Asks (encode (requestText verb ((address b c d).text ++ [letter])) ++ extra) verb
        ((address b c d).text ++ [letter] ++ more) :=
      ⟨starts, _, decoded, by rw [words]; rfl, by rw [words]; rfl⟩
    rcases react_asked zlib lobbyList socket asks with
      crashed | ⟨valid, _⟩ | ⟨_, refused⟩
    · exact Or.inl crashed
    · exact absurd (isValidIpv4_chars valid (by simp)) other
    · exact Or.inr refused

end VirtualLan.Relay
