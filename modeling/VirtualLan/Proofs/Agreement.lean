import VirtualLan.Network
import VirtualLan.Proofs.Conversation
import VirtualLan.Proofs.Requests

/-! Client and relay agree on membership whenever nothing is under way between
them. While messages are under way, the flag that the client will have after its
pending replies stands for its flag, and a pending leave for a missing one. -/

namespace VirtualLan.Network
open Program Peer Relay

variable {zlib : Zlib} {allocates : Nat → Bool} {names : Socket → Name}

def Plain (name : Name) (data : Bytes) : Prop :=
  (∃ verb, data = request name verb) ∨ data ≠ [] ∧ (bytes "command").isPrefixOf data = false

/-- What no step of a client changes. -/
structure Kept (name : Name) (session : Session) : Prop where
  connected : session.world.server.connected = true
  unsent : session.world.sent = []
  named : session.world.lobby.myip = encode name.text
  plain : ∀ data ∈ session.requests, Plain name data

variable {name : Name} {session : Session}

theorem start_kept (name : Name) : Kept name (start name) := ⟨rfl, rfl, rfl, by simp [start]⟩

theorem plain_snoc (kept : Kept name session) {data : Bytes} (plain : Plain name data) :
    ∀ other ∈ session.requests ++ [data], Plain name other := by
  intro other member
  rcases List.mem_append.mp member with old | new
  · exact kept.plain other old
  · exact List.mem_singleton.mp new ▸ plain

private theorem world_eta (kept : Kept name session) : { session.world with sent := [] } = session.world := by
  rw [← kept.unsent]

theorem perform_joinRequest (kept : Kept name session) : perform (joinRequest true) session =
    { session with requests := session.requests ++ [request name .join] } := by
  simp [perform, joinRequest, sendDataText, kept.connected, kept.unsent, kept.named, world_eta kept, request]

theorem perform_getLobbyMembers (kept : Kept name session) : perform (getLobbyMembers true) session =
    { session with requests := session.requests ++ [request name .list] } := by
  simp [perform, getLobbyMembers, sendDataText, kept.connected, kept.unsent, kept.named, world_eta kept, request]

theorem perform_leaveLobby (kept : Kept name session) : perform (leaveLobby true) session =
    { session with
      world := { session.world with lobby := { session.world.lobby with join := false } }
      requests := session.requests ++ [request name .leave] } := by
  simp [perform, leaveLobby, sendDataText, kept.connected, kept.unsent, kept.named, request]

theorem perform_sendData (kept : Kept name session) (data : Bytes) :
    perform (sendData true ⟨data, data.length⟩) session = { session with requests := session.requests ++ [data] } := by
  simp [perform, sendData, kept.connected, kept.unsent, world_eta kept]

/-- Handling a message keeps the connection and the name, and sets the flag as
`heard` says. -/
theorem hear_world (zlib : Zlib) (allocates : Nat → Bool) (data : Bytes) (world : Peer.World) :
    (run (callbackLiteningToServer zlib allocates data) world).2.server = world.server ∧
    (run (callbackLiteningToServer zlib allocates data) world).2.sent = world.sent ∧
    (run (callbackLiteningToServer zlib allocates data) world).2.lobby.myip = world.lobby.myip ∧
    (run (callbackLiteningToServer zlib allocates data) world).2.lobby.join = heard world.lobby.join data := by
  rw [callbackLiteningToServer, startsWithCommand_eq, heard]
  split
  · rw [handleResponse_run, answered]
    cases response (data.splitOn 0x20) with
    | error fault => exact ⟨rfl, rfl, rfl, rfl⟩
    | ok response => cases response <;> exact ⟨rfl, rfl, rfl, rfl⟩
  · unfold sendPacket
    split <;> exact ⟨rfl, rfl, rfl, rfl⟩

/-- The flag that the client has once it has handled its pending replies. -/
def pending (session : Session) : Bool := session.replies.foldl heard session.world.lobby.join

/-- `later` is the flag after the pending replies. It is set only for a bound
address, and where it is not set a leave is still on its way. -/
structure Agrees (name : Name) (socket : Socket) (lobbyList : Relay.Lobby) (requests : List Bytes) (later : Bool) :
    Prop where
  bound : later = true → lobbyList.get? name.text = some socket
  leaving : lobbyList.get? name.text = some socket → later = true ∨ request name .leave ∈ requests

variable {socket : Socket} {lobbyList after : Relay.Lobby} {requests : List Bytes} {later : Bool}

theorem Agrees.more (agrees : Agrees name socket lobbyList requests later) (data : Bytes) :
    Agrees name socket lobbyList (requests ++ [data]) later := by
  refine ⟨agrees.bound, ?_⟩
  intro bound
  rcases agrees.leaving bound with set | member
  · exact Or.inl set
  · exact Or.inr (List.mem_append_left _ member)

theorem Agrees.taken {data : Bytes} (agrees : Agrees name socket lobbyList (data :: requests) later)
    (other : data ≠ request name .leave) : Agrees name socket lobbyList requests later := by
  refine ⟨agrees.bound, ?_⟩
  intro bound
  rcases agrees.leaving bound with set | member
  · exact Or.inl set
  · rcases List.mem_cons.mp member with same | rest
    · exact absurd same.symm other
    · exact Or.inr rest

theorem foldl_heard_mono (replies : List Bytes) {join : Bool} (set : replies.foldl heard false = true) :
    replies.foldl heard join = true := by
  cases join with
  | false => exact set
  | true =>
    induction replies with
    | nil => cases set
    | cons data replies ih =>
      rw [List.foldl_cons] at set ⊢
      cases first : heard false data with
      | true =>
        rw [first] at set
        rw [heard_mono first]
        exact set
      | false =>
        rw [first] at set
        cases second : heard true data with
        | true => exact ih set
        | false => exact set

/-- An unbound address leaves nothing to agree on but a flag that is not set. -/
theorem Agrees.unbound {name : Name} {requests : List Bytes} (missing : lobbyList.get? name.text ≠ some socket) :
    Agrees name socket lobbyList requests false :=
  ⟨fun set => absurd set (by decide), fun bound => absurd bound missing⟩

theorem Agrees.not_set (agrees : Agrees name socket lobbyList requests later)
    (missing : lobbyList.get? name.text ≠ some socket) : later = false :=
  Bool.eq_false_iff.mpr fun set => missing (agrees.bound set)

def Own (names : Socket → Name) (lobbyList : Relay.Lobby) : Prop :=
  ∀ ip socket, lobbyList.get? ip = some socket → ip = (names socket).text ∧ isValidIpv4 ip = .ok true

/-- The relay's own steps, and the handling of a message that a client wrote. -/
def Polite (names : Socket → Name) : Relay.Event → Prop
  | .receive socket data _ => data = [] ∨ Plain (names socket) data
  | .accept _ | .fail _ | .finish _ => True

theorem Plain.asks {data : Bytes} {verb : Verb} {ip : Str} (polite : data = [] ∨ Plain name data)
    (asks : Asks data verb ip) : data = request name verb ∧ ip = name.text := by
  rcases polite with rfl | ⟨other, rfl⟩ | ⟨_, payload⟩
  · cases asks.1
  · obtain ⟨rfl, rfl⟩ := asks.unique (request_asks name other)
    exact ⟨rfl, rfl⟩
  · rw [asks.1] at payload
    cases payload

variable {before final : Relay.State} {event : Relay.Event} {output : Output}

theorem own_honest (own : Own names before.lobbyList) (polite : Polite names event) :
    ¬ Trespass before.lobbyList event := by
  cases event with
  | receive sender data accepts =>
    rintro ⟨ip, owner, asks, _, ⟨key, held⟩, bound, other⟩
    obtain ⟨_, rfl⟩ := Plain.asks polite asks
    obtain ⟨rfl, _⟩ := own key sender held
    rw [held] at bound
    exact other (Option.some.inj bound).symm
  | accept | fail | finish => exact id

theorem Own.step (own : Own names before.lobbyList) (polite : Polite names event)
    (steps : Steps zlib before event final output) : Own names final.lobbyList := by
  intro ip owner bound
  rcases steps.bound bound with old | ⟨_, valid, data, accepts, rfl, asks⟩
  · exact own ip owner old
  · exact ⟨(Plain.asks polite asks).2, valid⟩

/-- The entry of a connection is not touched by the steps of others. -/
theorem Own.others (own : Own names before.lobbyList) (polite : Polite names event)
    (steps : Steps zlib before event final output) {ip : Str} (other : socket ≠ event.socket) :
    final.lobbyList.get? ip = some socket ↔ before.lobbyList.get? ip = some socket := by
  have move := steps.move (own_honest own polite)
  constructor
  · intro bound
    rcases move.claims ip socket bound with old | ⟨same, _⟩
    · exact old
    · exact absurd same other
  · exact fun bound => move.keeps ip socket bound other

theorem foldl_payload {messages : List Bytes} (payload : ∀ data ∈ messages, (bytes "command").isPrefixOf data = false)
    (join : Bool) : messages.foldl heard join = join := by
  induction messages with
  | nil => rfl
  | cons data messages ih =>
    rw [List.foldl_cons, heard_payload _ (payload data List.mem_cons_self)]
    exact ih fun other member => payload other (List.mem_cons_of_mem _ member)

/-- What a connection receives from the steps of others are packets. -/
theorem others_payload (steps : Steps zlib before event final output) {message : Socket × Bytes}
    (member : message ∈ output.sent) (other : message.1 ≠ event.socket) :
    (bytes "command").isPrefixOf message.2 = false := by
  cases steps with
  | @receive sender data accepts reaction running short same reacts =>
    simp only [Reaction.output, Reaction.sent, Option.mem_toList, Option.filter_eq_some_iff] at member
    rcases Reaction.outgoing_reply member.1 with ⟨reply, rfl⟩ | ⟨ip, target, rfl, rfl⟩
    · exact absurd rfl other
    · cases reacts with
      | forwarded _ payload => exact payload
  | accept | fail | finish | abandon => cases member

theorem pending_post (sent : List (Socket × Bytes)) :
    pending (post sent socket session) = (mailOf sent socket).foldl heard (pending session) := by
  simp [pending, post, List.foldl_append]

theorem pending_others (steps : Steps zlib before event final output) (other : socket ≠ event.socket) :
    pending (post output.sent socket session) = pending session := by
  rw [pending_post, foldl_payload]
  intro data inside
  obtain ⟨message, member, rfl⟩ := List.mem_map.mp inside
  obtain ⟨listed, target⟩ := List.mem_filter.mp member
  obtain rfl := beq_iff_eq.mp target
  exact others_payload steps listed other

theorem pending_reply (reply : Reply) :
    pending (post [(socket, reply.bytes)] socket session) = (meaning reply).flag (pending session) := by
  simp [pending_post, mailOf, heard_reply]

theorem pending_silence : pending (post [] socket session) = pending session := by
  simp [pending_post, mailOf]

variable {accepts : Socket → Bool} {data : Bytes}

private theorem request_agrees {verb : Verb} {reaction : Reaction} (own : Own names before.lobbyList)
    (agrees : Agrees (names socket) socket before.lobbyList (request (names socket) verb :: requests) (pending session))
    (same : react zlib before.lobbyList socket (request (names socket) verb) = reaction)
    (running : (reaction.after accepts socket (request (names socket) verb) before).phase socket = .running) :
    Agrees (names socket) socket (reaction.lobby before.lobbyList socket) requests
      (pending (post (reaction.output accepts socket (request (names socket) verb) before).sent socket session)) := by
  obtain ⟨sent, healthy⟩ := sent_of_running running
  rcases react_asked zlib _ socket (request_asks (names socket) verb) with
    ⟨exn, crashed⟩ | ⟨valid, granted, success⟩ | ⟨denied, refused⟩
  · exact absurd (same.symm.trans crashed) (healthy exn)
  · obtain rfl := same.symm.trans success
    rw [sent]
    cases verb with
    | join =>
      change Agrees _ _ (Dict.set _ _ _) _ (pending (post [(socket, Reply.joined.bytes)] socket session))
      rw [pending_reply]
      exact ⟨fun _ => by rw [Dict.get?_set, if_pos rfl], fun _ => Or.inl rfl⟩
    | list =>
      change Agrees _ _ before.lobbyList _ (pending (post [(socket, encode (listReply before.lobbyList))] socket session))
      rw [listReply_bytes, pending_reply]
      exact agrees.taken fun equal => by cases request_injective _ equal
    | leave =>
      change Agrees _ _ (Dict.erase _ _) _ (pending (post [(socket, Reply.left.bytes)] socket session))
      rw [pending_reply]
      exact .unbound (by simp [Dict.get?_erase])
  · obtain rfl := same.symm.trans refused
    rw [sent]
    change Agrees _ _ before.lobbyList _ (pending (post [(socket, (Reply.refused verb).bytes)] socket session))
    rw [pending_reply]
    change Agrees _ _ before.lobbyList _ (pending session)
    by_cases leaves : verb = .leave
    · subst leaves
      have missing : before.lobbyList.get? (names socket).text ≠ some socket := by
        intro bound
        refine denied ⟨(own _ socket bound).2, ?_, ⟨_, bound⟩⟩
        exact Dict.mem_keys_iff.mpr ⟨socket, Dict.get?_eq_some_iff.mp bound⟩
      rw [agrees.not_set missing]
      exact .unbound missing
    · exact agrees.taken fun equal => leaves (request_injective _ equal)

private theorem payload_agrees {reaction : Reaction} (message : data ≠ [])
    (payload : (bytes "command").isPrefixOf data = false)
    (agrees : Agrees (names socket) socket before.lobbyList (data :: requests) (pending session))
    (reacts : Reacts zlib before.lobbyList socket data reaction)
    (running : (reaction.after accepts socket data before).phase socket = .running) :
    Agrees (names socket) socket (reaction.lobby before.lobbyList socket) requests
      (pending (post (reaction.output accepts socket data before).sent socket session)) := by
  obtain ⟨sent, healthy⟩ := sent_of_running running
  have other : data ≠ request (names socket) .leave := by
    rintro rfl
    rw [(request_asks (names socket) .leave).1] at payload
    cases payload
  have rest := agrees.taken other
  rw [sent]
  cases reacts with
  | closing empty => exact absurd empty message
  | crashed exn => exact absurd rfl (healthy exn)
  | joined asks | listed asks | left asks | refused asks =>
    rw [asks.1] at payload
    cases payload
  | @forwarded ip target packet member _ decoded addressed bound =>
    change Agrees _ _ before.lobbyList _ (pending (post [(target, data)] socket session))
    rw [pending_post, foldl_payload]
    · exact rest
    · intro mail inside
      obtain ⟨item, listed, rfl⟩ := List.mem_map.mp inside
      obtain rfl := List.mem_singleton.mp (List.mem_filter.mp listed).1
      exact payload
  | ignored | dropped =>
    change Agrees _ _ before.lobbyList _ (pending (post [] socket session))
    rw [pending_silence]
    exact rest
  | rejected outsider =>
    change Agrees _ _ before.lobbyList _ (pending (post [(socket, Reply.error.bytes)] socket session))
    rw [pending_reply]
    exact .unbound fun bound => outsider ⟨_, bound⟩

theorem served_agrees (own : Own names before.lobbyList) (plain : Plain (names socket) data)
    (agrees : Agrees (names socket) socket before.lobbyList (data :: requests) (pending session))
    (steps : Steps zlib before (.receive socket data accepts) final output) (running : final.phase socket = .running) :
    Agrees (names socket) socket final.lobbyList requests (pending (post output.sent socket session)) := by
  cases steps with
  | receive _ _ same reacts =>
    rcases plain with ⟨verb, rfl⟩ | ⟨message, payload⟩
    · exact request_agrees own agrees same running
    · exact payload_agrees message payload agrees reacts running

def Open (relay : Relay.State) (socket : Socket) : Prop :=
  relay.phase socket = .absent ∨ relay.phase socket = .running

theorem not_open {relay : Relay.State} (leaving : relay.phase socket = .ending ∨ relay.phase socket = .ended) :
    ¬ Open relay socket := by
  rintro (absent | running) <;> rcases leaving with phase | phase <;> simp_all

theorem served_running (steps : Steps zlib before (.receive socket data accepts) final output)
    (stays : Open final socket) : before.phase socket = .running ∧ final.phase socket = .running := by
  cases steps with
  | @receive _ _ _ reaction running short same reacts =>
    refine ⟨running, stays.resolve_left ?_⟩
    simp only [Reaction.after, Function.update_self]
    cases (reaction.output accepts socket data before).raised <;> cases reaction.continues <;> simp [phaseAfter]

structure Valid (names : Socket → Name) (state : State) : Prop where
  own : Own names state.relay.lobbyList
  kept : ∀ socket, Kept (names socket) (state.sessions socket)
  agrees : ∀ socket, Open state.relay socket → Agrees (names socket) socket state.relay.lobbyList
    (state.sessions socket).requests (pending (state.sessions socket))

theorem initial_valid (names : Socket → Name) : Valid names (initial names) := by
  have empty : ∀ ip socket, (initial names).relay.lobbyList.get? ip ≠ some socket := by
    intro ip socket bound
    cases bound
  refine ⟨fun ip socket bound => absurd bound (empty ip socket), fun socket => start_kept _, ?_⟩
  exact fun socket _ => .unbound (empty _ socket)

variable {state next : State}

theorem Valid.client (valid : Valid names state) (stepped : clientStep state socket session = some next)
    (kept : Kept (names socket) session)
    (agrees : ∀ lobbyList, Agrees (names socket) socket lobbyList (state.sessions socket).requests
        (pending (state.sessions socket)) →
      Agrees (names socket) socket lobbyList session.requests (pending session)) : Valid names next := by
  simp only [clientStep, Option.ite_none_left_eq_some, Option.some.injEq] at stepped
  obtain ⟨_, rfl⟩ := stepped
  refine ⟨valid.own, ?_, ?_⟩
  · intro other
    by_cases same : other = socket
    · subst same
      simpa using kept
    · simpa [Function.update_of_ne same] using valid.kept other
  · intro other open'
    by_cases same : other = socket
    · subst same
      simpa using agrees _ (valid.agrees other open')
    · simpa [Function.update_of_ne same] using valid.agrees other open'

/-- A step of the relay concerns the connection that it serves, and leaves at
most packets in the mail of the others. -/
theorem Valid.relayed {sessions : Socket → Session} (own : Own names before.lobbyList)
    (kept : ∀ socket, Kept (names socket) (sessions socket)) (polite : Polite names event)
    (steps : Steps zlib before event final output)
    (others : ∀ socket, socket ≠ event.socket → Open before socket → Agrees (names socket) socket before.lobbyList
      (sessions socket).requests (pending (sessions socket)))
    (self : Open final event.socket → Agrees (names event.socket) event.socket final.lobbyList
      (sessions event.socket).requests (pending (post output.sent event.socket (sessions event.socket)))) :
    Valid names ⟨final, fun socket => post output.sent socket (sessions socket)⟩ := by
  refine ⟨own.step polite steps, ?_, ?_⟩
  · intro socket
    exact ⟨(kept socket).connected, (kept socket).unsent, (kept socket).named, (kept socket).plain⟩
  · intro socket stays
    by_cases same : socket = event.socket
    · subst same
      exact self stays
    · have was : Open before socket := by
        rw [Open, steps.phase_other same] at stays
        exact stays
      have agrees := others socket same was
      have entry := @Own.others zlib names socket before final event output own polite steps (names socket).text same
      change Agrees _ _ _ (sessions socket).requests (pending (post output.sent socket (sessions socket)))
      rw [pending_others steps same]
      exact ⟨fun set => entry.mpr (agrees.bound set), fun bound => agrees.leaving (entry.mp bound)⟩

theorem Valid.relay (valid : Valid names state) (quiet : silent event = true)
    (stepped : relayStep zlib state event = some next) : Valid names next := by
  obtain ⟨⟨final, output⟩, relayed, rfl⟩ := Option.map_eq_some_iff.mp stepped
  have steps := steps_of_step relayed
  have polite : Polite names event := by
    cases event with
    | receive socket data accepts => exact Or.inl (List.isEmpty_iff.mp quiet)
    | accept | fail | finish => trivial
  refine .relayed valid.own valid.kept polite steps (fun socket _ => valid.agrees socket) ?_
  intro stays
  cases steps with
  | accept absent =>
    rw [pending_silence]
    exact valid.agrees _ (Or.inl absent)
  | @receive socket data accepts reaction running short same reacts =>
    obtain rfl := List.isEmpty_iff.mp quiet
    obtain rfl : Reaction.closing = reaction := same
    exact absurd stays (not_open (Or.inl (Function.update_self ..)))
  | fail => exact absurd stays (not_open (Or.inl (Function.update_self ..)))
  | finish | abandon => exact absurd stays (not_open (Or.inr (Function.update_self ..)))

theorem Valid.served (valid : Valid names state) (stepped : step zlib allocates state (.serve socket) = some next) :
    Valid names next := by
  simp only [step] at stepped
  split at stepped
  next => cases stepped
  next data requests waiting =>
    obtain ⟨⟨final, output⟩, relayed, rfl⟩ := Option.map_eq_some_iff.mp stepped
    have steps := steps_of_step relayed
    have plain : Plain (names socket) data := (valid.kept socket).plain data (by simp [waiting])
    have polite : Polite names (.receive socket data everyone) := Or.inr plain
    refine .relayed valid.own ?_ polite steps ?_ ?_
    · intro other
      by_cases same : other = socket
      · subst same
        have kept := valid.kept other
        simp only [Function.update_self]
        refine ⟨kept.connected, kept.unsent, kept.named, ?_⟩
        exact fun message member => kept.plain message (by simp [waiting, member])
      · simpa [Function.update_of_ne same] using valid.kept other
    · intro other different was
      have same : other ≠ socket := different
      simpa [Function.update_of_ne same] using valid.agrees other was
    · intro stays
      obtain ⟨was, running⟩ := served_running steps stays
      have agrees := valid.agrees socket (Or.inr was)
      rw [waiting] at agrees
      simp only [Relay.Event.socket, Function.update_self]
      exact served_agrees valid.own plain agrees steps running

theorem Valid.step (valid : Valid names state) {event : Event} (stepped : step zlib allocates state event = some next) :
    Valid names next := by
  cases event with
  | relay event =>
    simp only [Network.step, Option.ite_none_right_eq_some] at stepped
    exact valid.relay stepped.1 stepped.2
  | join socket =>
    have kept := valid.kept socket
    simp only [Network.step, perform_joinRequest kept] at stepped
    refine valid.client stepped ⟨kept.connected, kept.unsent, kept.named, plain_snoc kept (Or.inl ⟨_, rfl⟩)⟩ ?_
    exact fun lobbyList agrees => agrees.more _
  | list socket =>
    have kept := valid.kept socket
    simp only [Network.step, perform_getLobbyMembers kept] at stepped
    refine valid.client stepped ⟨kept.connected, kept.unsent, kept.named, plain_snoc kept (Or.inl ⟨_, rfl⟩)⟩ ?_
    exact fun lobbyList agrees => agrees.more _
  | leave socket =>
    have kept := valid.kept socket
    simp only [Network.step, perform_leaveLobby kept] at stepped
    refine valid.client stepped ⟨kept.connected, kept.unsent, kept.named, plain_snoc kept (Or.inl ⟨_, rfl⟩)⟩ ?_
    intro lobbyList agrees
    refine ⟨fun set => agrees.bound (foldl_heard_mono _ set), fun _ => Or.inr ?_⟩
    exact List.mem_append_right _ List.mem_cons_self
  | read socket =>
    have kept := valid.kept socket
    simp only [Network.step, Option.ite_none_right_eq_some] at stepped
    exact valid.client stepped.2 ⟨kept.connected, kept.unsent, kept.named, kept.plain⟩ (fun _ agrees => agrees)
  | packet socket data =>
    have kept := valid.kept socket
    simp only [Network.step, Option.ite_none_right_eq_some, perform_sendData kept, Bool.and_eq_true,
      Bool.not_eq_true', startsWithCommand_eq, List.isEmpty_eq_false_iff] at stepped
    obtain ⟨⟨⟨_, message⟩, payload⟩, stepped⟩ := stepped
    have plain : Plain (names socket) data := Or.inr ⟨message, payload⟩
    refine valid.client stepped ⟨kept.connected, kept.unsent, kept.named, plain_snoc kept plain⟩ ?_
    exact fun lobbyList agrees => agrees.more _
  | serve socket => exact valid.served stepped
  | hear socket =>
    have kept := valid.kept socket
    simp only [Network.step] at stepped
    split at stepped
    next => cases stepped
    next data replies waiting =>
      obtain ⟨server, sent, named, flag⟩ := hear_world zlib allocates data (state.sessions socket).world
      refine valid.client stepped ⟨?_, sent.trans kept.unsent, named.trans kept.named, kept.plain⟩ ?_
      · exact (congrArg Server.connected server).trans kept.connected
      · intro lobbyList agrees
        rw [pending, waiting, List.foldl_cons, ← flag] at agrees
        exact agrees

/-- Whenever nothing is under way on an open connection, the client's flag says
whether the relay binds its address to it. -/
theorem join_iff_bound (reached : (system zlib allocates names).Reachable state)
    (running : state.relay.phase socket = .running) (served : (state.sessions socket).requests = [])
    (heard' : (state.sessions socket).replies = []) :
    (state.sessions socket).world.lobby.join = true ↔
      state.relay.lobbyList.get? (names socket).text = some socket := by
  have valid : Valid names state := by
    refine reached.invariant (Valid names) (initial_valid names) ?_
    intro before event after output valid stepped
    have mapped : (step zlib allocates before event).map (·, ()) = some (after, output) := stepped
    obtain ⟨next, taken, same⟩ := Option.map_eq_some_iff.mp mapped
    cases same
    exact valid.step taken
  have agrees := valid.agrees socket (Or.inr running)
  rw [pending, served, heard', List.foldl_nil] at agrees
  constructor
  · exact agrees.bound
  · intro bound
    rcases agrees.leaving bound with set | waiting
    · exact set
    · cases waiting

def home : Name := ⟨"100.0.0.1".toList, ⟨by decide, by decide⟩⟩

/-- One client connects, joins and hears of it. -/
def arrival : List Event := [.relay (.accept 1), .join 1, .serve 1, .hear 1]

theorem join_iff_bound_arrival :
    let arrived := ((system StoredZlib.zlib (fun _ => true) fun _ => home).play arrival).2
    (arrived.sessions 1).world.lobby.join = true ↔ arrived.relay.lobbyList.get? home.text = some 1 :=
  join_iff_bound ((system StoredZlib.zlib (fun _ => true) fun _ => home).reachable_play arrival) (by decide) rfl rfl

end VirtualLan.Network
