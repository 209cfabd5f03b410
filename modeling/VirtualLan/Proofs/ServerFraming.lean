import VirtualLan.Proofs.Conversation
import VirtualLan.Proofs.Fragments
import VirtualLan.StoredZlib

/-! The relay's reads are pieces of a byte stream, but it handles each of them as
one message. Where every message has an effect, this shows: no other cut of the
stream than the one at the messages has the same outcome. -/

namespace VirtualLan.Relay
open Segmentation

variable {zlib : Zlib} {state : State} {socket : Socket} {chunk : Bytes} {chunks : List Bytes} {reaction : Reaction}

theorem converse_turn (running : state.phase socket = .running) (short : chunk.length ≤ 1500)
    (reacts : react zlib state.lobbyList socket chunk = reaction)
    (calm : reaction.raised everyone socket chunk state.lobbyList state.closed = none)
    (goes : reaction.continues = true) :
    let later := converse zlib socket { state with lobbyList := reaction.lobby state.lobbyList socket } chunks
    converse zlib socket state (chunk :: chunks) =
      (later.1, (reaction.outgoing state.lobbyList socket chunk).toList ++ later.2) := by
  have sent := Reaction.sent_of_calm calm
  have after : reaction.after everyone socket chunk state =
      { state with lobbyList := reaction.lobby state.lobbyList socket } := by
    simp [Reaction.after, Reaction.output, calm, goes, phaseAfter, ← running]
  simp only [converse, step_receive, running, short, and_self, if_true, reacts, after, Reaction.output, sent]

variable (chunks) in
/-- A turn that raises ends the handler, and the cleanup takes an entry. -/
theorem converse_crashed (running : state.phase socket = .running) (short : chunk.length ≤ 1500) {exn : Exn}
    (reacts : react zlib state.lobbyList socket chunk = .crashed exn) :
    ∃ final, converse zlib socket state (chunk :: chunks) = (final, []) ∧
      (Holds state.lobbyList socket → ∃ key, state.lobbyList.get? key = some socket ∧
        final.lobbyList = state.lobbyList.erase key) := by
  have ending : ((Reaction.crashed exn).after everyone socket chunk state).phase socket = .ending :=
    Function.update_self ..
  have outside : ((Reaction.crashed exn).after everyone socket chunk state).phase socket ≠ .running := by simp [ending]
  cases finished : step zlib ((Reaction.crashed exn).after everyone socket chunk state) (.finish socket) with
  | none => simp [step, ending] at finished
  | some result =>
    obtain ⟨final, last⟩ := result
    refine ⟨final, ?_, ?_⟩
    · have silent : last.sent = [] := by
        cases steps_of_step finished <;> rfl
      simp only [converse, step_receive, running, short, and_self, if_true, reacts, if_neg outside, finished, silent]
      rfl
    · intro member
      cases steps_of_step finished with
      | @finish _ key _ found => exact ⟨key, Dict.get?_eq_some_iff.mpr (findDelkey_some found), rfl⟩
      | abandon _ outsider => exact absurd member outsider

theorem mailOf_cons (target other : Socket) (message : Bytes) (sent : List (Socket × Bytes)) :
    mailOf ((target, message) :: sent) other =
      if target = other then message :: mailOf sent other else mailOf sent other := by
  by_cases same : target = other <;> simp [mailOf, same]

variable {first second : State} {target : Socket} {message other : Bytes} {sent rest : List (Socket × Bytes)}

theorem Alike.silent (alike : Alike (first, sent) (second, [])) : sent = [] := by
  cases sent with
  | nil => rfl
  | cons entry sent =>
    have mail := alike.mail entry.1
    rw [mailOf_cons, if_pos rfl] at mail
    cases mail

theorem Alike.not_silent (alike : Alike (first, (target, message) :: sent) (second, [])) : False :=
  List.cons_ne_nil _ _ alike.silent

theorem Alike.head (alike : Alike (first, (target, message) :: sent) (second, (target, other) :: rest)) :
    message = other := by
  have mail := alike.mail target
  rw [mailOf_cons, mailOf_cons, if_pos rfl, if_pos rfl] at mail
  exact (List.cons.inj mail).1

theorem Alike.tail (alike : Alike (first, (target, message) :: sent) (second, (target, message) :: rest)) :
    Alike (first, sent) (second, rest) := by
  refine ⟨alike.lobby, ?_⟩
  intro other
  have mail := alike.mail other
  simp only [mailOf_cons] at mail
  split at mail
  · exact (List.cons.inj mail).2
  · exact mail

/-- A command with status 1, or a packet whose destination is bound. -/
def Message.Effect : Message → Reaction → Prop
  | .command verb b c d, reaction => reaction = verb.success (address b c d).text
  | .packet _, reaction => ∃ ip target, reaction = .forwarded ip target

structure Effective (zlib : Zlib) (socket : Socket) (state : State) (message : Message) : Prop where
  effect : message.Effect (react zlib state.lobbyList socket (message.bytes zlib))
  calm : (react zlib state.lobbyList socket (message.bytes zlib)).raised everyone socket (message.bytes zlib)
    state.lobbyList state.closed = none

/-- Each message has its effect after the ones before it. -/
def AllEffective (zlib : Zlib) (socket : Socket) : State → List Message → Prop
  | _, [] => True
  | state, message :: messages =>
    Effective zlib socket state message ∧
    AllEffective zlib socket { state with
      lobbyList := (react zlib state.lobbyList socket (message.bytes zlib)).lobby state.lobbyList socket } messages

/-- A message that one read can take, of a packet that an interface can hold. -/
def Message.Fits (zlib : Zlib) (message : Message) : Prop :=
  (message.bytes zlib).length ≤ 1500 ∧ ∀ content, message = .packet content → content.length ≤ 65535

variable {msg : Message} {messages : List Message} {later : List Bytes}

theorem Effective.continues (effective : Effective zlib socket state msg) :
    (react zlib state.lobbyList socket (msg.bytes zlib)).continues = true := by
  have effect := effective.effect
  cases msg with
  | command verb b c d =>
    rw [effect]
    cases verb <;> rfl
  | packet content =>
    obtain ⟨ip, target, forwarded⟩ := effect
    rw [forwarded]
    rfl

theorem Effective.turn (effective : Effective zlib socket state msg) (fits : msg.Fits zlib)
    (running : state.phase socket = .running) :
    let reaction := react zlib state.lobbyList socket (msg.bytes zlib)
    let later := converse zlib socket { state with lobbyList := reaction.lobby state.lobbyList socket } chunks
    converse zlib socket state (msg.bytes zlib :: chunks) =
      (later.1, (reaction.outgoing state.lobbyList socket (msg.bytes zlib)).toList ++ later.2) :=
  converse_turn running fits.1 rfl effective.calm effective.continues

def granting (lobbyList : Lobby) : Verb → Reply
  | .join => .joined
  | .list => .listed lobbyList.keys
  | .leave => .left

theorem success_outgoing (lobbyList : Lobby) (verb : Verb) (ip : Str) (socket : Socket) (data : Bytes) :
    (verb.success ip).outgoing lobbyList socket data = some (socket, (granting lobbyList verb).bytes) := by
  cases verb with
  | join | leave => rfl
  | list => rw [granting, ← listReply_bytes]; rfl

theorem meaning_eq {one two : Reply} (same : one.bytes = two.bytes) : Peer.meaning one = Peer.meaning two := by
  have answer := Peer.response_reply one
  rw [same, Peer.response_reply two] at answer
  exact (Except.ok.inj answer).symm

theorem granting_ne (lobbyList : Lobby) (verb other : Verb) :
    (granting lobbyList verb).bytes ≠ Reply.error.bytes ∧
    (granting lobbyList verb).bytes ≠ (Reply.refused other).bytes := by
  constructor <;> intro same <;> cases verb <;> cases meaning_eq same

theorem Effective.outgoing (effective : Effective zlib socket state msg) :
    ∃ target reply, (react zlib state.lobbyList socket (msg.bytes zlib)).outgoing state.lobbyList socket
        (msg.bytes zlib) = some (target, reply) ∧ reply ≠ Reply.error.bytes := by
  have effect := effective.effect
  cases msg with
  | command verb b c d =>
    rw [effect, success_outgoing]
    exact ⟨socket, _, rfl, (granting_ne state.lobbyList verb verb).1⟩
  | packet content =>
    obtain ⟨ip, target, forwarded⟩ := effect
    refine ⟨target, (Message.packet content).bytes zlib, by rw [forwarded]; rfl, ?_⟩
    intro same
    have reacts := react_reacts zlib state.lobbyList socket ((Message.packet content).bytes zlib)
    rw [forwarded] at reacts
    cases reacts with
    | forwarded member payload =>
      rw [same] at payload
      revert payload
      decide

/-- An effective message is answered, and one that raises is not. -/
theorem Effective.not_crashed (effective : Effective zlib socket state msg) (fits : msg.Fits zlib)
    (running : state.phase socket = .running) (short : chunk.length ≤ 1500) {exn : Exn}
    (crashed : react zlib state.lobbyList socket chunk = .crashed exn) :
    ¬ Alike (converse zlib socket state (msg.bytes zlib :: later)) (converse zlib socket state (chunk :: chunks)) := by
  obtain ⟨target, reply, outgoing, _⟩ := effective.outgoing
  obtain ⟨final, same, _⟩ := converse_crashed chunks running short crashed
  rw [effective.turn fits running, outgoing, same]
  exact fun alike => alike.not_silent

/-- Handled alone, effective messages are answered one by one without an error. -/
theorem aligned_sent (effective : AllEffective zlib socket state messages) (fits : ∀ msg ∈ messages, msg.Fits zlib)
    (running : state.phase socket = .running) :
    (converse zlib socket state (messages.map (Message.bytes zlib))).2.length = messages.length ∧
    ∀ mail ∈ (converse zlib socket state (messages.map (Message.bytes zlib))).2, mail.2 ≠ Reply.error.bytes := by
  induction messages generalizing state with
  | nil => exact ⟨rfl, by simp [converse]⟩
  | cons msg messages ih =>
    obtain ⟨first, later⟩ := effective
    obtain ⟨target, reply, outgoing, clean⟩ := first.outgoing
    obtain ⟨count, others⟩ := ih later (fun msg member => fits msg (List.mem_cons_of_mem _ member)) running
    rw [List.map_cons, first.turn (fits msg List.mem_cons_self) running, outgoing]
    refine ⟨congrArg Nat.succ count, ?_⟩
    intro mail member
    rcases List.mem_cons.mp member with rfl | member
    · exact clean
    · exact others mail member

theorem raised_eq_none_iff {reply : Bytes}
    (outgoing : reaction.outgoing state.lobbyList socket chunk = some (socket, reply)) :
    reaction.raised everyone socket chunk state.lobbyList state.closed = none ↔ socket ∉ state.closed := by
  cases reaction with
  | crashed exn => cases outgoing
  | _ => simp [Reaction.raised, outgoing, takes, everyone]

variable (chunks) in
/-- A piece of something else costs a member its entry, and earns anybody else
an error reply. -/
theorem converse_junk (running : state.phase socket = .running) (short : chunk.length ≤ 1500) (junk : Junk zlib chunk)
    (open' : socket ∉ state.closed) :
    (∃ final key, converse zlib socket state (chunk :: chunks) = (final, []) ∧
      state.lobbyList.get? key = some socket ∧ final.lobbyList = state.lobbyList.erase key) ∨
    ∃ final sent, converse zlib socket state (chunk :: chunks) = (final, (socket, Reply.error.bytes) :: sent) := by
  have reacts := junk.react state.lobbyList socket
  cases member : isClientJoin state.lobbyList socket with
  | true =>
    rw [member, if_pos rfl] at reacts
    obtain ⟨final, same, lost⟩ := converse_crashed chunks running short reacts
    obtain ⟨key, bound, erased⟩ := lost (isClientJoin_iff.mp member)
    exact Or.inl ⟨final, key, same, bound, erased⟩
  | false =>
    rw [member, if_neg Bool.false_ne_true] at reacts
    have reply : Reaction.rejected.outgoing state.lobbyList socket chunk = some (socket, Reply.error.bytes) := rfl
    have calm := (raised_eq_none_iff reply).mpr open'
    exact Or.inr ⟨_, _, converse_turn running short reacts calm rfl⟩

theorem Alike.no_error (alike : Alike (first, sent) (second, (target, Reply.error.bytes) :: rest)) :
    ∃ mail ∈ sent, mail.2 = Reply.error.bytes := by
  have mail := alike.mail target
  rw [mailOf_cons, if_pos rfl] at mail
  have member : Reply.error.bytes ∈ mailOf sent target := mail ▸ List.mem_cons_self
  obtain ⟨entry, inside, same⟩ := List.mem_map.mp member
  exact ⟨entry, (List.mem_filter.mp inside).1, same⟩

/-- Effective messages go like a conversation that meets junk only if there are
none of them, and then an entry is lost. -/
theorem Alike.junk_lost {moved : State} (alike : Alike (converse zlib socket state (messages.map (Message.bytes zlib)))
      (converse zlib socket moved (chunk :: chunks))) (effective : AllEffective zlib socket state messages)
    (fits : ∀ msg ∈ messages, msg.Fits zlib) (running : state.phase socket = .running)
    (same : moved.phase = state.phase) (short : chunk.length ≤ 1500) (junk : Junk zlib chunk)
    (open' : socket ∉ moved.closed) :
    messages = [] ∧ ∃ key, moved.lobbyList.get? key = some socket ∧
      ∀ ip, state.lobbyList.get? ip = (moved.lobbyList.erase key).get? ip := by
  obtain ⟨count, clean⟩ := aligned_sent effective fits running
  rcases converse_junk chunks (same ▸ running) short junk open' with
    ⟨final, key, ends, held, lost⟩ | ⟨final, sent, ends⟩
  · rw [ends] at alike
    rw [Alike.silent alike] at count
    obtain rfl : messages = [] := List.eq_nil_of_length_eq_zero count.symm
    exact ⟨rfl, key, held, lost ▸ alike.lobby⟩
  · rw [ends] at alike
    obtain ⟨mail, member, error⟩ := alike.no_error
    exact absurd error (clean mail member)

variable {content : Bytes}

theorem packet_member (effective : Effective zlib socket state (.packet content)) : Holds state.lobbyList socket := by
  obtain ⟨ip, target, forwarded⟩ := effective.effect
  have reacts := react_reacts zlib state.lobbyList socket ((Message.packet content).bytes zlib)
  rw [forwarded] at reacts
  cases reacts with
  | forwarded member => exact member

theorem packet_cut_short (lawful : zlib.Lawful) (effective : Effective zlib socket state (.packet content))
    (fits : (Message.packet content).Fits zlib) (running : state.phase socket = .running) (short : chunk.length ≤ 1500)
    (nonempty : chunk ≠ []) {rest : Bytes} (missing : rest ≠ []) (cut : zlib.stream content = chunk ++ rest) :
    ¬ Alike (converse zlib socket state ((Message.packet content).bytes zlib :: later))
      (converse zlib socket state (chunk :: chunks)) := by
  have small := fits.2 content rfl
  have payload : (bytes "command").isPrefixOf chunk = false := by
    have window := lawful.window content small
    obtain ⟨byte, tail, rfl⟩ := List.exists_cons_of_ne_nil nonempty
    rw [cut, List.cons_append, List.head?_cons, Option.some.injEq] at window
    exact payload_of_head (by rw [window]; decide)
  have junk : Junk zlib chunk := ⟨nonempty, payload, lawful.truncated content chunk rest small missing cut⟩
  have reacts := junk.react state.lobbyList socket
  rw [isClientJoin_iff.mpr (packet_member effective), if_pos rfl] at reacts
  exact effective.not_crashed fits running short reacts

theorem packet_run_on (lawful : zlib.Lawful) (effective : Effective zlib socket state (.packet content))
    (fits : (Message.packet content).Fits zlib) (running : state.phase socket = .running) (short : chunk.length ≤ 1500)
    {extra : Bytes} (more : extra ≠ []) (cut : chunk = zlib.stream content ++ extra) :
    ¬ Alike (converse zlib socket state ((Message.packet content).bytes zlib :: later))
      (converse zlib socket state (chunk :: chunks)) := by
  have small := fits.2 content rfl
  obtain ⟨ip, target, forwarded⟩ := effective.effect
  have reacts := react_reacts zlib state.lobbyList socket ((Message.packet content).bytes zlib)
  rw [forwarded] at reacts
  cases reacts with
  | @forwarded _ _ packet member _ decoded addressed bound =>
    have decoded' : zlib.decompress chunk = some packet := cut ▸ lawful.trailing _ packet extra decoded
    have filled : chunk ≠ [] := by
      rw [cut]
      exact List.append_ne_nil_of_right_ne_nil _ more
    have longer := react_forwarded filled member (lawful.payload decoded') decoded' addressed bound
    have open' : target ∉ state.closed := by
      have calm := effective.calm
      rw [forwarded] at calm
      simpa [Reaction.raised, Reaction.outgoing, takes, everyone] using calm
    have calm : (Reaction.forwarded ip target).raised everyone socket chunk state.lobbyList state.closed = none := by
      simp [Reaction.raised, Reaction.outgoing, takes, everyone, open']
    rw [effective.turn fits running, forwarded, converse_turn running short longer calm rfl]
    intro alike
    have same : zlib.stream content = chunk := alike.head
    rw [cut, List.self_eq_append_right] at same
    exact more same

variable {verb : Verb} {b c d : UInt8}

theorem Effective.granting (effective : Effective zlib socket state (.command verb b c d)) :
    (react zlib state.lobbyList socket ((Message.command verb b c d).bytes zlib)).outgoing state.lobbyList socket
      ((Message.command verb b c d).bytes zlib) = some (socket, (granting state.lobbyList verb).bytes) ∧
    socket ∉ state.closed := by
  have outgoing := success_outgoing state.lobbyList verb (address b c d).text socket
    ((Message.command verb b c d).bytes zlib)
  rw [← effective.effect] at outgoing
  exact ⟨outgoing, (raised_eq_none_iff outgoing).mp effective.calm⟩

/-- The same for a command that is granted alone and refused otherwise. -/
theorem Effective.not_refused (effective : Effective zlib socket state (.command verb b c d))
    (fits : (Message.command verb b c d).Fits zlib) (running : state.phase socket = .running)
    (short : chunk.length ≤ 1500) (refused : react zlib state.lobbyList socket chunk = .refused verb) :
    ¬ Alike (converse zlib socket state ((Message.command verb b c d).bytes zlib :: later))
      (converse zlib socket state (chunk :: chunks)) := by
  obtain ⟨outgoing, open'⟩ := effective.granting
  have reply : (Reaction.refused verb).outgoing state.lobbyList socket chunk =
      some (socket, (Reply.refused verb).bytes) := rfl
  rw [effective.turn fits running, outgoing,
    converse_turn running short refused ((raised_eq_none_iff reply).mpr open') rfl, reply]
  exact fun alike => (granting_ne state.lobbyList verb verb).2 alike.head

theorem command_run_on (effective : Effective zlib socket state (.command verb b c d))
    (fits : (Message.command verb b c d).Fits zlib) (running : state.phase socket = .running)
    (short : chunk.length ≤ 1500) {byte : UInt8} (begins : byte = 0x63 ∨ byte = 0x78) {extra : Bytes}
    (cut : chunk = request (address b c d) verb ++ byte :: extra) :
    ¬ Alike (converse zlib socket state ((Message.command verb b c d).bytes zlib :: later))
      (converse zlib socket state (chunk :: chunks)) := by
  rcases react_run_on zlib state.lobbyList socket verb b c d begins extra with ⟨exn, crashed⟩ | refused
  · rw [← cut] at crashed
    exact effective.not_crashed fits running short crashed
  · rw [← cut] at refused
    exact effective.not_refused fits running short refused

theorem message_head (lawful : zlib.Lawful) (fits : msg.Fits zlib) :
    (msg.bytes zlib).head? = some 0x63 ∨ (msg.bytes zlib).head? = some 0x78 := by
  cases msg with
  | command verb b c d => exact Or.inl (head_of_command (request_asks (address b c d) verb).1)
  | packet content => exact Or.inr (lawful.window content (fits.2 content rfl))

theorem messages_head (lawful : zlib.Lawful) (fits : ∀ msg ∈ messages, msg.Fits zlib) :
    ∀ byte ∈ (messages.map (Message.bytes zlib)).flatten.head?, byte = 0x63 ∨ byte = 0x78 := by
  cases messages with
  | nil => simp
  | cons msg messages =>
    rw [List.map_cons, List.flatten_cons, List.head?_append]
    rcases message_head lawful (fits msg List.mem_cons_self) with first | first <;> simp [first]

/-- Where the lobby differs between a granted command and one that names another
address and then loses an entry. -/
theorem lobby_differs {lobbyList : Lobby} {ip name key : Str} (other : name ≠ ip)
    (granted : Granted lobbyList socket ip verb) (named : Granted lobbyList socket name verb)
    (held : ((verb.success name).lobby lobbyList socket).get? key = some socket) :
    ∃ place, ((verb.success ip).lobby lobbyList socket).get? place ≠
      (((verb.success name).lobby lobbyList socket).erase key).get? place := by
  cases verb with
  | join =>
    refine ⟨ip, ?_⟩
    have free : lobbyList.get? ip = none := Dict.get?_eq_none_iff.mpr granted
    simp only [Verb.success, Reaction.lobby, Dict.get?_set, Dict.get?_erase, if_pos, if_neg other.symm, free]
    simp
  | list =>
    refine ⟨key, ?_⟩
    simp only [Verb.success, Reaction.lobby] at held ⊢
    rw [held, Dict.get?_erase, if_pos rfl]
    exact Option.some_ne_none _
  | leave =>
    refine ⟨name, ?_⟩
    simp only [Verb.success, Reaction.lobby, Dict.get?_erase, if_neg other]
    have present : lobbyList.get? name ≠ none := fun absent => Dict.get?_eq_none_iff.mp absent named.1
    simpa using present

theorem Effective.granted (effective : Effective zlib socket state (.command verb b c d)) :
    Granted state.lobbyList socket (address b c d).text verb := by
  have effect : react zlib state.lobbyList socket (request (address b c d) verb) = _ := effective.effect
  rcases react_asked zlib state.lobbyList socket (request_asks (address b c d) verb)
    with ⟨exn, crashed⟩ | ⟨_, granted, _⟩ | ⟨_, refused⟩
  · rw [crashed] at effect
    cases verb <;> cases effect
  · exact granted
  · rw [refused] at effect
    cases verb <;> cases effect

/-- A command whose address was cut names another address. Even when that is
granted, what is left of the address is taken for a message of its own. -/
theorem command_cut_named (lawful : zlib.Lawful)
    (effective : AllEffective zlib socket state (.command verb b c d :: messages))
    (fits : ∀ msg ∈ Message.command verb b c d :: messages, msg.Fits zlib) (running : state.phase socket = .running)
    (nonempty : ∀ piece ∈ chunk :: chunks, piece ≠ []) (short : ∀ piece ∈ chunk :: chunks, piece.length ≤ 1500)
    {name : Str} {byte : UInt8} {tail : Bytes} (asks : Asks chunk verb name) (shorter : name ≠ (address b c d).text)
    (inside : ∀ other ∈ byte :: tail, other ∈ addressBytes)
    (behind : chunks.flatten = byte :: tail ++ (messages.map (Message.bytes zlib)).flatten) :
    ¬ Alike (converse zlib socket state ((Message.command verb b c d :: messages).map (Message.bytes zlib)))
      (converse zlib socket state (chunk :: chunks)) := by
  obtain ⟨first, others⟩ := effective
  have small := short chunk List.mem_cons_self
  have later : ∀ msg ∈ messages, msg.Fits zlib := fun msg member => fits msg (List.mem_cons_of_mem _ member)
  have whole : (Message.command verb b c d).Fits zlib := fits _ List.mem_cons_self
  rcases react_asked zlib state.lobbyList socket asks with
    ⟨exn, crashed⟩ | ⟨valid, granted, reacts⟩ | ⟨_, refused⟩
  · exact first.not_crashed whole running small crashed
  · obtain ⟨outgoing, open'⟩ := first.granting
    have reply := success_outgoing state.lobbyList verb name socket chunk
    rw [List.map_cons, first.turn whole running, outgoing,
      converse_turn running small reacts ((raised_eq_none_iff reply).mpr open') (by cases verb <;> rfl), reply]
    intro alike
    obtain ⟨piece, pieces, rfl, same⟩ := piece_behind (behind.trans (List.cons_append ..))
      (fun piece member => nonempty piece (List.mem_cons_of_mem _ member))
    have junk : Junk zlib (byte :: piece) := by
      refine .of_address lawful (inside byte List.mem_cons_self) ?_
      intro next begins
      have upcoming : next ∈ (tail ++ (messages.map (Message.bytes zlib)).flatten).head? := by
        rw [same, List.head?_append_of_ne_nil _ (by rintro rfl; cases begins)]
        exact begins
      rw [List.head?_append, Option.mem_def, Option.or_eq_some_iff] at upcoming
      rcases upcoming with left | ⟨_, right⟩
      · have digit := inside next (List.mem_cons_of_mem _ (List.mem_of_mem_head? left))
        exact List.mem_cons_of_mem _ (List.mem_cons_of_mem _ digit)
      · rcases messages_head lawful later next right with rfl | rfl <;> decide
    obtain ⟨rfl, key, held, lost⟩ := alike.tail.junk_lost others later running rfl
      (short _ (List.mem_cons_of_mem _ List.mem_cons_self)) junk open'
    obtain ⟨place, differs⟩ := lobby_differs shorter first.granted granted held
    rw [← first.effect] at differs
    exact differs (lost place)
  · exact first.not_refused whole running small refused

theorem command_cut_short (lawful : zlib.Lawful)
    (effective : AllEffective zlib socket state (.command verb b c d :: messages))
    (fits : ∀ msg ∈ Message.command verb b c d :: messages, msg.Fits zlib) (running : state.phase socket = .running)
    (nonempty : ∀ piece ∈ chunk :: chunks, piece ≠ []) (short : ∀ piece ∈ chunk :: chunks, piece.length ≤ 1500)
    {rest : Bytes} (missing : rest ≠ []) (cut : request (address b c d) verb = chunk ++ rest)
    (behind : chunks.flatten = rest ++ (messages.map (Message.bytes zlib)).flatten) :
    ¬ Alike (converse zlib socket state ((Message.command verb b c d :: messages).map (Message.bytes zlib)))
      (converse zlib socket state (chunk :: chunks)) := by
  have small := short chunk List.mem_cons_self
  have open' := effective.1.granting.2
  cases fragment_cases lawful (nonempty chunk List.mem_cons_self) missing cut with
  | junk junk =>
    intro alike
    cases (alike.junk_lost effective fits running rfl small junk open').1
  | fatal fails =>
    obtain ⟨exn, crashed⟩ := fails state.lobbyList socket
    exact effective.1.not_crashed (fits _ List.mem_cons_self) running small crashed
  | idle byte tail unknown next lower method =>
    subst next
    obtain ⟨piece, pieces, rfl, _⟩ := piece_behind (behind.trans (List.cons_append ..))
      (fun piece member => nonempty piece (List.mem_cons_of_mem _ member))
    rw [converse_turn running small (unknown state.lobbyList socket) rfl rfl]
    intro alike
    cases (alike.junk_lost effective fits running rfl (short _ (List.mem_cons_of_mem _ List.mem_cons_self))
      (.of_head lawful piece lower method) open').1
  | named name byte tail asks shorter next inside =>
    subst next
    exact command_cut_named lawful effective fits running nonempty short asks shorter inside behind

/-- A conversation in which every message has its effect has the same outcome
for no other pieces than the messages themselves. -/
theorem converse_alike_iff (lawful : zlib.Lawful) (running : state.phase socket = .running)
    (fits : ∀ msg ∈ messages, msg.Fits zlib) (effective : AllEffective zlib socket state messages)
    (cuts : Cuts (messages.map (Message.bytes zlib)) chunks) (short : ∀ chunk ∈ chunks, chunk.length ≤ 1500) :
    Alike (converse zlib socket state (messages.map (Message.bytes zlib))) (converse zlib socket state chunks) ↔
      chunks = messages.map (Message.bytes zlib) := by
  refine ⟨?_, fun same => by rw [same]; exact ⟨fun _ => rfl, fun _ => rfl⟩⟩
  intro alike
  induction messages generalizing state chunks with
  | nil => exact cuts.of_nil
  | cons msg messages ih =>
    have small : msg.Fits zlib := fits msg List.mem_cons_self
    have started : msg.bytes zlib ≠ [] := by
      intro empty
      rcases message_head lawful small with first | first <;> rw [empty] at first <;> cases first
    cases chunks with
    | nil => exact absurd rfl (cuts.ne_nil started)
    | cons chunk chunks =>
      have narrow := short chunk List.mem_cons_self
      rcases cuts.first with ⟨rfl, later⟩ | ⟨rest, missing, cut, behind⟩ | ⟨extra, more, cut, behind⟩
      · obtain ⟨target, reply, outgoing, _⟩ := effective.1.outgoing
        rw [List.map_cons, effective.1.turn small running, effective.1.turn small running, outgoing] at alike
        rw [List.map_cons, ih (by exact running) (fun msg member => fits msg (List.mem_cons_of_mem _ member))
          effective.2 later (fun chunk member => short chunk (List.mem_cons_of_mem _ member)) alike.tail]
      · cases msg with
        | command verb b c d =>
          exact absurd alike (command_cut_short lawful effective fits running cuts.nonempty short missing cut behind)
        | packet content =>
          exact absurd alike (packet_cut_short lawful effective.1 small running narrow
            (cuts.nonempty chunk List.mem_cons_self) missing cut)
      · cases msg with
        | command verb b c d =>
          obtain ⟨byte, tail, rfl⟩ := List.exists_cons_of_ne_nil more
          have begins := messages_head lawful (fun msg member => fits msg (List.mem_cons_of_mem _ member)) byte
            (by rw [behind]; rfl)
          exact absurd alike (command_run_on effective.1 small running narrow begins cut)
        | packet content => exact absurd alike (packet_run_on lawful effective.1 small running narrow more cut)

theorem effective_command_iff : Effective zlib socket state (.command verb b c d) ↔
    Granted state.lobbyList socket (address b c d).text verb ∧ socket ∉ state.closed := by
  refine ⟨fun effective => ⟨effective.granted, effective.granting.2⟩, ?_⟩
  rintro ⟨granted, open'⟩
  have reacts : react zlib state.lobbyList socket (request (address b c d) verb) = _ :=
    react_granted (request_asks (address b c d) verb) (isValidIpv4_dotted 100 b c d) granted
  have outgoing := success_outgoing state.lobbyList verb (address b c d).text socket
    ((Message.command verb b c d).bytes zlib)
  rw [← reacts] at outgoing
  exact ⟨reacts, (raised_eq_none_iff outgoing).mpr open'⟩

def arrived : State := ((system StoredZlib.zlib).play [.accept 1]).2

/-- What the client sends to join and to see the others. -/
def greetings : List Message := [.command .join 0 0 1, .command .list 0 0 1]

theorem greetings_fit : ∀ msg ∈ greetings, msg.Fits StoredZlib.zlib := by
  intro msg member
  simp only [greetings, List.mem_cons, List.not_mem_nil, or_false] at member
  rcases member with rfl | rfl
  · exact ⟨by decide, nofun⟩
  · exact ⟨by decide, nofun⟩

/-- The same bytes, cut within the address of the first command. -/
def cutGreetings : List Bytes := [bytes "command join 100", bytes ".0.0.1command list 100.0.0.1"]

theorem converse_alike_iff_greetings :
    Alike (converse StoredZlib.zlib 1 arrived (greetings.map (Message.bytes StoredZlib.zlib)))
      (converse StoredZlib.zlib 1 arrived cutGreetings) ↔
    cutGreetings = greetings.map (Message.bytes StoredZlib.zlib) := by
  refine converse_alike_iff StoredZlib.lawful (by decide) greetings_fit ?_ ⟨by decide, by decide⟩ (by decide)
  have join : Granted arrived.lobbyList 1 (address 0 0 1).text .join := by
    change _ ∉ _
    decide
  refine ⟨effective_command_iff.mpr ⟨join, by decide⟩, effective_command_iff.mpr ⟨⟨by decide, ?_⟩, by decide⟩, trivial⟩
  exact isClientJoin_iff.mp (by decide)

/-- Both commands in one read are one command with a bad address. -/
theorem greetings_merged :
    ¬ ∀ (messages : List Message) (chunks : List Bytes),
      Cuts (messages.map (Message.bytes StoredZlib.zlib)) chunks → (∀ chunk ∈ chunks, chunk.length ≤ 1500) →
      (∀ msg ∈ messages, msg.Fits StoredZlib.zlib) →
      Alike (converse StoredZlib.zlib 1 arrived (messages.map (Message.bytes StoredZlib.zlib)))
        (converse StoredZlib.zlib 1 arrived chunks) := by
  intro same
  have alike := same greetings [bytes "command join 100.0.0.1command list 100.0.0.1"] ⟨by decide, by decide⟩ (by decide)
    greetings_fit
  have lobby := alike.lobby "100.0.0.1".toList
  revert lobby
  decide

end VirtualLan.Relay
