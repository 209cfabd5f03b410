import VirtualLan.Proofs.ClientFraming
import VirtualLan.Proofs.ReplyCodec

/-! Commands and packets of others share one channel to the client. The relay
passes on only what its own prefix test turned down, and the client applies the
same test, so a client takes as a reply only what the relay wrote for it. -/

namespace VirtualLan.Peer
open Program Relay

variable {zlib : Zlib} {allocates : Nat → Bool} {state : State} {history : List (Moment State Event Output)}

theorem callback_packet {data : Bytes} (payload : (bytes "command").isPrefixOf data = false) (world : World) :
    run (callbackLiteningToServer zlib allocates data) world =
      (.ok (), { world with injected := world.injected ++ delivered zlib allocates data }) := by
  rw [callbackLiteningToServer, startsWithCommand_eq, payload, if_neg Bool.false_ne_true, sendPacket, delivered]
  split
  · rfl
  · simp

theorem callback_reply (reply : Reply) (world : World) :
    run (callbackLiteningToServer zlib allocates reply.bytes) world =
      (.ok (), { world with lobby := (meaning reply).apply world.lobby }) := by
  rw [callbackLiteningToServer, if_pos (startsWithCommand_reply reply), handleResponse_reply]

/-- The relay's step answers a message that this connection sent. -/
def answering (socket : Socket) (moment : Moment State Event Output) : Bool :=
  match moment.event with
  | .receive sender data _ => sender == socket && answers moment.before.lobbyList sender data
  | _ => false

theorem origin {moment : Moment State Event Output} (legal : (system zlib).Legal moment) {socket : Socket}
    {message : Bytes} (sent : (socket, message) ∈ moment.output.sent) :
    (answering socket moment = true ∧ ∃ reply : Reply, message = reply.bytes) ∨
    (answering socket moment = false ∧ (bytes "command").isPrefixOf message = false) := by
  obtain ⟨before, event, output, after⟩ := moment
  cases event with
  | receive sender data accepts =>
    rcases sent_cases legal sent with ⟨answer, rfl, reply, same, _⟩ | ⟨silent, rfl⟩
    · refine Or.inl ⟨?_, reply, same⟩
      simp [answering, answer]
    · refine Or.inr ⟨?_, ?_⟩
      · simp [answering, silent]
      · rw [answers, Bool.or_eq_false_iff] at silent
        exact silent.1
  | accept | fail | finish =>
    have steps : Steps zlib before _ after output := legal_steps legal
    cases steps <;> cases sent

/-- A message is taken as a reply exactly when the relay wrote it as an answer to
its receiver, and only the other messages reach the interface. -/
structure Genuine (zlib : Zlib) (allocates : Nat → Bool) (socket : Socket) (moment : Moment State Event Output)
    (message : Bytes) : Prop where
  origin : startsWithCommand message = true ↔ answering socket moment = true
  reply : startsWithCommand message = true → ∃ reply : Reply, message = reply.bytes
  harmless : answering socket moment = false → ∀ world,
    (run (callbackLiteningToServer zlib allocates message) world).2.lobby = world.lobby
  internal : answering socket moment = true → ∀ world,
    (run (callbackLiteningToServer zlib allocates message) world).2.injected = world.injected

theorem sent_genuine {moment : Moment State Event Output} (legal : (system zlib).Legal moment) {socket : Socket}
    {message : Bytes} (sent : (socket, message) ∈ moment.output.sent) :
    Genuine zlib allocates socket moment message := by
  rcases origin legal sent with ⟨answer, reply, rfl⟩ | ⟨silent, payload⟩
  · have starts := startsWithCommand_reply reply
    refine ⟨by rw [starts, answer], fun _ => ⟨reply, rfl⟩, ?_, ?_⟩
    · rw [answer]
      exact nofun
    · intro _ world
      rw [callback_reply]
  · have other : startsWithCommand message = false := by rw [startsWithCommand_eq, payload]
    refine ⟨by rw [other, silent], ?_, ?_, ?_⟩
    · rw [other]
      exact nofun
    · intro _ world
      rw [callback_packet payload]
    · rw [silent]
      exact nofun

/-- All that a run sent to a connection, in order. -/
def inbox (history : List (Moment State Event Output)) (socket : Socket) : List Bytes :=
  history.reverse.flatMap fun moment => mailOf moment.output.sent socket

theorem inbox_cons (moment : Moment State Event Output) (history : List (Moment State Event Output)) (socket : Socket) :
    inbox (moment :: history) socket = inbox history socket ++ mailOf moment.output.sent socket := by
  simp [inbox]

theorem mem_mailOf {sent : List (Socket × Bytes)} {socket : Socket} {message : Bytes} :
    message ∈ mailOf sent socket ↔ (socket, message) ∈ sent := by
  simp [mailOf]

theorem inbox_filter {socket : Socket} {picks : Moment State Event Output → Bool} {kind : Bytes → Bool}
    (agree : ∀ moment ∈ history, ∀ message, (socket, message) ∈ moment.output.sent → kind message = picks moment) :
    inbox (history.filter picks) socket = (inbox history socket).filter kind := by
  induction history with
  | nil => rfl
  | cons moment history ih =>
    have first := agree moment List.mem_cons_self
    have earlier := ih fun past member => agree past (List.mem_cons_of_mem _ member)
    rw [inbox_cons, List.filter_append, ← earlier]
    cases picked : picks moment with
    | true =>
      have all : (mailOf moment.output.sent socket).filter kind = mailOf moment.output.sent socket := by
        apply List.filter_eq_self.mpr
        intro message member
        rw [first message (mem_mailOf.mp member), picked]
      rw [List.filter_cons_of_pos picked, inbox_cons, all]
    | false =>
      have none : (mailOf moment.output.sent socket).filter kind = [] := by
        apply List.filter_eq_nil_iff.mpr
        intro message member
        rw [first message (mem_mailOf.mp member), picked]
        exact Bool.false_ne_true
      rw [List.filter_cons_of_neg (by rw [picked]; exact Bool.false_ne_true), none, List.append_nil]

/-- Replies change the lobby alone and packets the interface alone, so each kind
does by itself what it does among the others. -/
theorem handleEach_split {messages : List Bytes}
    (sound : ∀ message ∈ messages, (∃ reply : Reply, message = reply.bytes) ∨
      (bytes "command").isPrefixOf message = false) :
    ∃ (change : Lobby → Lobby) (packets : List Bytes), ∀ world,
      handleEach zlib allocates world messages =
        (.ok (), { world with lobby := change world.lobby, injected := world.injected ++ packets }) ∧
      handleEach zlib allocates world (messages.filter startsWithCommand) =
        (.ok (), { world with lobby := change world.lobby }) ∧
      handleEach zlib allocates world (messages.filter fun message => !startsWithCommand message) =
        (.ok (), { world with injected := world.injected ++ packets }) := by
  induction messages with
  | nil => exact ⟨id, [], fun world => by simp [handleEach]⟩
  | cons message messages ih =>
    obtain ⟨change, packets, later⟩ := ih fun other member => sound other (List.mem_cons_of_mem _ member)
    rcases sound message List.mem_cons_self with ⟨reply, rfl⟩ | payload
    · have starts := startsWithCommand_reply reply
      refine ⟨fun lobby => change ((meaning reply).apply lobby), packets, fun world => ?_⟩
      obtain ⟨all, answers, _⟩ := later { world with lobby := (meaning reply).apply world.lobby }
      obtain ⟨_, _, others⟩ := later world
      simp only [handleEach, callback_reply, andThen_ok, List.filter_cons, starts, Bool.not_true, if_true, if_false,
        Bool.false_eq_true]
      exact ⟨all, answers, others⟩
    · have other : startsWithCommand message = false := by rw [startsWithCommand_eq, payload]
      refine ⟨change, delivered zlib allocates message ++ packets, fun world => ?_⟩
      obtain ⟨all, _, others⟩ := later { world with injected := world.injected ++ delivered zlib allocates message }
      obtain ⟨_, answers, _⟩ := later world
      simp only [handleEach, callback_packet payload, andThen_ok, List.filter_cons, other, Bool.not_false, if_true,
        if_false, Bool.false_eq_true, ← List.append_assoc]
      exact ⟨all, answers, others⟩

/-- In every run, a connection's replies are the relay's answers to it. They
alone decide its lobby, and the messages of others alone reach its interface. -/
theorem run_genuine (run : (system zlib).Run history state) (allocates : Nat → Bool) (socket : Socket) :
    (∀ moment ∈ history, ∀ message, (socket, message) ∈ moment.output.sent →
      Genuine zlib allocates socket moment message) ∧
    ∃ (change : Lobby → Lobby) (packets : List Bytes), ∀ world,
      handleEach zlib allocates world (inbox history socket) =
        (.ok (), { world with lobby := change world.lobby, injected := world.injected ++ packets }) ∧
      handleEach zlib allocates world (inbox (history.filter (answering socket)) socket) =
        (.ok (), { world with lobby := change world.lobby }) ∧
      handleEach zlib allocates world (inbox (history.filter fun moment => !answering socket moment) socket) =
        (.ok (), { world with injected := world.injected ++ packets }) := by
  have genuine : ∀ moment ∈ history, ∀ message, (socket, message) ∈ moment.output.sent →
      Genuine zlib allocates socket moment message :=
    fun moment member message sent => sent_genuine (run.recorded member).2 sent
  have agree : ∀ moment ∈ history, ∀ message, (socket, message) ∈ moment.output.sent →
      startsWithCommand message = answering socket moment := by
    intro moment member message sent
    exact Bool.eq_iff_iff.mpr (genuine moment member message sent).origin
  have disagree : ∀ moment ∈ history, ∀ message, (socket, message) ∈ moment.output.sent →
      (!startsWithCommand message) = !answering socket moment :=
    fun moment member message sent => congrArg Bool.not (agree moment member message sent)
  refine ⟨genuine, ?_⟩
  rw [inbox_filter agree, inbox_filter disagree]
  apply handleEach_split
  intro message member
  obtain ⟨moment, inside, mail⟩ := List.mem_flatMap.mp member
  rcases origin (run.recorded (List.mem_reverse.mp inside)).2 (mem_mailOf.mp mail) with ⟨_, reply⟩ | ⟨_, payload⟩
  · exact Or.inl reply
  · exact Or.inr payload

/-- Two connections join, and the first one's packet for the second one is cut
from what follows a valid stream. -/
def disguise : List Event := pair ++ [.receive 1 (StoredZlib.deflate greeting ++ bytes "command leave 1 ") everyone]

theorem run_genuine_disguise :
    (∀ moment ∈ ((system StoredZlib.zlib).play disguise).1, ∀ message, (2, message) ∈ moment.output.sent →
      Genuine StoredZlib.zlib (fun _ => true) 2 moment message) ∧
    ∃ (change : Lobby → Lobby) (packets : List Bytes), ∀ world,
      handleEach StoredZlib.zlib (fun _ => true) world (inbox ((system StoredZlib.zlib).play disguise).1 2) =
        (.ok (), { world with lobby := change world.lobby, injected := world.injected ++ packets }) ∧
      handleEach StoredZlib.zlib (fun _ => true) world
          (inbox (((system StoredZlib.zlib).play disguise).1.filter (answering 2)) 2) =
        (.ok (), { world with lobby := change world.lobby }) ∧
      handleEach StoredZlib.zlib (fun _ => true) world
          (inbox (((system StoredZlib.zlib).play disguise).1.filter fun moment => !answering 2 moment) 2) =
        (.ok (), { world with injected := world.injected ++ packets }) :=
  run_genuine ((system StoredZlib.zlib).run_play disguise) (fun _ => true) 2

end VirtualLan.Peer
