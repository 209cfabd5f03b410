import VirtualLan.Stream
import VirtualLan.Proofs.Conversation
import VirtualLan.Proofs.HandlerCleanup

/-! The client's reads are pieces of a byte stream too. A read that begins with a
whole message is taken as that message, so it is enough that what follows it in
the same read would have changed nothing. -/

namespace VirtualLan.Peer
open Program Relay Segmentation

variable {zlib : Zlib} {allocates : Nat → Bool}

inductive Mail where
  | reply (answer : Reply)
  | packet (data : Bytes)

def Mail.bytes : Mail → Bytes
  | .reply answer => answer.bytes
  | .packet data => data

/-- The relay passes on nothing that it could not decompress. -/
def Mail.Sound (zlib : Zlib) : Mail → Prop
  | .reply _ => True
  | .packet data => ∃ packet, zlib.decompress data = some packet

def Mail.Ended : Mail → Prop
  | .reply answer => Closed answer
  | .packet _ => True

/-- Every message of the relay is one of these. -/
theorem sent_sound {before after : State} {event : Event} {output : Output} {receiver : Socket} {message : Bytes}
    (stepped : Relay.step zlib before event = some (after, output)) (sent : (receiver, message) ∈ output.sent) :
    ∃ mail : Mail, mail.Sound zlib ∧ mail.bytes = message := by
  cases steps_of_step stepped with
  | @receive _ _ _ reaction running short same reacts =>
    simp only [Reaction.output, Reaction.sent, Option.mem_toList, Option.filter_eq_some_iff] at sent
    rcases Reaction.outgoing_reply sent.1 with ⟨answer, replied⟩ | ⟨ip, target, rfl, forward⟩
    · cases replied
      exact ⟨.reply answer, trivial, rfl⟩
    · cases forward
      cases reacts with
      | @forwarded _ _ packet _ _ decoded => exact ⟨.packet message, ⟨packet, decoded⟩, rfl⟩
  | accept | fail | finish | abandon => cases sent

/-- A message with an end of its own is handled like itself, whatever follows. -/
theorem callback_ended (lawful : zlib.Lawful) {mail : Mail} (sound : mail.Sound zlib) (ended : mail.Ended)
    (tail : Bytes) (world : World) : run (callbackLiteningToServer zlib allocates (mail.bytes ++ tail)) world =
      run (callbackLiteningToServer zlib allocates mail.bytes) world := by
  cases mail with
  | reply answer =>
    have longer := List.isPrefixOf_iff_prefix.mpr (answer.bytes_command.trans (List.prefix_append _ tail))
    simp only [Mail.bytes, callbackLiteningToServer, startsWithCommand_eq, answer.starts, longer, if_true, handleResponse_run,
      answered, response_closed ended tail, response_reply]
  | packet data =>
    obtain ⟨packet, decoded⟩ := sound
    have longer := lawful.trailing data packet tail decoded
    obtain ⟨same, size⟩ := decompressZlib_trailing lawful decoded tail
    simp only [Mail.bytes, callbackLiteningToServer, startsWithCommand_eq, lawful.payload decoded, lawful.payload longer,
      Bool.false_eq_true, if_false, sendPacket_congr same size]

theorem callback_refused (verb : Verb) (world : World) :
    run (callbackLiteningToServer zlib allocates (Reply.refused verb).bytes) world = (.ok (), world) := by
  rw [callbackLiteningToServer, if_pos (startsWithCommand_reply _), handleResponse_run, answered, response_reply]
  rfl

theorem listen_cons {chunk : Bytes} (short : chunk.length < bufferSize) (chunks : List Bytes) (world : World) :
    listen zlib allocates world (chunk :: chunks) =
      andThen (run (callbackLiteningToServer zlib allocates chunk) world) fun _ after =>
        listen zlib allocates after chunks := by
  rw [listen, listeningTurn, if_pos short]

theorem handleEach_append (first second : List Bytes) (world : World) :
    handleEach zlib allocates world (first ++ second) =
      andThen (handleEach zlib allocates world first) fun _ after => handleEach zlib allocates after second := by
  induction first generalizing world with
  | nil => rfl
  | cons message first ih =>
    simp only [List.cons_append, handleEach]
    obtain ⟨result, after⟩ := run (callbackLiteningToServer zlib allocates message) world
    cases result with
    | error fault => rfl
    | ok => exact ih after

theorem handleEach_refused (verbs : List Verb) (world : World) :
    handleEach zlib allocates world (verbs.map fun verb => (Reply.refused verb).bytes) = (.ok (), world) := by
  induction verbs with
  | nil => rfl
  | cons verb verbs ih => rw [List.map_cons, handleEach, callback_refused, andThen_ok, ih]

/-- A read that fits the buffer: one message, and behind it status 0 replies,
unless the message has no end of its own. -/
structure Portion (zlib : Zlib) where
  mail : Mail
  behind : List Verb
  sound : mail.Sound zlib
  ended : behind ≠ [] → mail.Ended
  fits : (mail.bytes ++ behind.flatMap fun verb => (Reply.refused verb).bytes).length < bufferSize

def Portion.messages (portion : Portion zlib) : List Bytes :=
  portion.mail.bytes :: portion.behind.map fun verb => (Reply.refused verb).bytes

def Portion.bytes (portion : Portion zlib) : Bytes := portion.messages.flatten

theorem Portion.bytes_eq (portion : Portion zlib) :
    portion.bytes = portion.mail.bytes ++ portion.behind.flatMap fun verb => (Reply.refused verb).bytes := by
  rw [bytes, messages, List.flatten_cons, List.flatMap_def]

theorem Portion.callback (lawful : zlib.Lawful) (portion : Portion zlib) (world : World) :
    run (callbackLiteningToServer zlib allocates portion.bytes) world =
      run (callbackLiteningToServer zlib allocates portion.mail.bytes) world := by
  rw [portion.bytes_eq]
  by_cases alone : portion.behind = []
  · rw [alone, List.flatMap_nil, List.append_nil]
  · exact callback_ended lawful portion.sound (portion.ended alone) _ world

/-- Reads of this kind leave the client as its messages do when each is handled
alone: the same flag and members, and the same packets in the same order. -/
theorem listen_portions (lawful : zlib.Lawful) (portions : List (Portion zlib)) (world : World) :
    listen zlib allocates world (portions.map Portion.bytes) =
      handleEach zlib allocates world (portions.flatMap Portion.messages) := by
  induction portions generalizing world with
  | nil => rfl
  | cons portion portions ih =>
    have short : portion.bytes.length < bufferSize := by
      rw [portion.bytes_eq]
      exact portion.fits
    rw [List.map_cons, listen_cons short, portion.callback lawful, List.flatMap_cons, handleEach_append,
      Portion.messages, handleEach]
    obtain ⟨result, after⟩ := run (callbackLiteningToServer zlib allocates portion.mail.bytes) world
    cases result with
    | error fault => rfl
    | ok =>
      simp only [andThen_ok, handleEach_refused]
      exact ih after

def stranger : World := ⟨⟨true⟩, ⟨[], bytes "100.0.0.2", false⟩, [], []⟩

/-- A grant, a packet with a refusal behind it, and the members. -/
def welcome : List (Portion StoredZlib.zlib) :=
  [⟨.reply .joined, [], trivial, nofun, by decide⟩,
   ⟨.packet (StoredZlib.deflate greeting), [.list], ⟨greeting, by decide⟩, fun _ => trivial, by decide⟩,
   ⟨.reply (.listed ["100.0.0.1".toList, "100.0.0.2".toList]), [], trivial, nofun, by decide⟩]

theorem listen_portions_welcome :
    listen StoredZlib.zlib (fun _ => true) stranger (welcome.map Portion.bytes) =
      handleEach StoredZlib.zlib (fun _ => true) stranger (welcome.flatMap Portion.messages) :=
  listen_portions StoredZlib.lawful welcome stranger

/-- A grant and the members in one read: the members are lost. -/
theorem members_merged :
    ¬ ∀ (mails : List Mail) (chunks : List Bytes), (∀ mail ∈ mails, mail.Sound StoredZlib.zlib) →
      Cuts (mails.map Mail.bytes) chunks → (∀ chunk ∈ chunks, chunk.length < bufferSize) →
      let whole := (handleEach StoredZlib.zlib (fun _ => true) stranger (mails.map Mail.bytes)).2
      let pieces := (listen StoredZlib.zlib (fun _ => true) stranger chunks).2
      pieces.lobby.join = whole.lobby.join ∧ pieces.lobby.memberList = whole.lobby.memberList ∧
        pieces.injected = whole.injected := by
  intro same
  have sound : ∀ mail ∈ [Mail.reply .joined, .reply (.listed ["100.0.0.2".toList])], mail.Sound StoredZlib.zlib := by
    intro mail member
    simp only [List.mem_cons, List.not_mem_nil, or_false] at member
    rcases member with rfl | rfl <;> trivial
  have lost := (same _ [bytes "command join 1 command list 1 100.0.0.2 "] sound ⟨by decide, by decide⟩ (by decide)).2.1
  rw [listen_cons (by decide)] at lost
  simp only [List.map_cons, List.map_nil, handleEach, listen, callbackLiteningToServer_run (fun _ => true) rfl] at lost
  revert lost
  decide

end VirtualLan.Peer
