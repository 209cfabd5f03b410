import VirtualLan.Proofs.EndToEnd

/-! What a client knows of the lobby, and since when. Everything that it knows was
true at the relay when the relay answered it, and it is still true as long as the
lobby has not changed. Messages are read alone and whole, by a client however long they
are, each client asks for its own address, and none reconnects. -/

namespace VirtualLan.Network
open Program Peer Relay

variable {zlib : Zlib} {allocates : Nat → Bool} {names : Socket → Name} {moment : Instant} {socket : Socket}
variable {history newer older : List Instant} {state : State}

/-- What one step posts to a connection, and what it shows of the lobby. -/
inductive Posts (names : Socket → Name) (moment : Instant) (socket : Socket) : List Bytes → Prop
  | nothing : Posts names moment socket []
  | packet {data : Bytes} (payload : (bytes "command").isPrefixOf data = false) : Posts names moment socket [data]
  | joined (serves : moment.event = .serve socket)
      (free : moment.before.relay.lobbyList.get? (names socket).text = none)
      (bound : moment.after.relay.lobbyList.get? (names socket).text = some socket) :
      Posts names moment socket [Reply.joined.bytes]
  | listed (serves : moment.event = .serve socket)
      (bound : moment.before.relay.lobbyList.get? (names socket).text = some socket)
      (same : moment.after.relay.lobbyList = moment.before.relay.lobbyList) :
      Posts names moment socket [(Reply.listed moment.before.relay.lobbyList.keys).bytes]
  | left (serves : moment.event = .serve socket)
      (bound : moment.before.relay.lobbyList.get? (names socket).text = some socket)
      (missing : moment.after.relay.lobbyList.get? (names socket).text = none) :
      Posts names moment socket [Reply.left.bytes]
  | refused (verb : Verb) : Posts names moment socket [(Reply.refused verb).bytes]
  | rejected : Posts names moment socket [Reply.error.bytes]

/-- The client of a connection sent what its handler is served. -/
theorem served_plain (reached : (system zlib allocates names).Reachable moment.before) {data : Bytes}
    (read : served socket moment = [data]) : Plain (names socket) data := by
  have plain := ((valid_of_reached reached).kept socket).plain
  obtain ⟨before, event, ⟨⟩, after⟩ := moment
  cases event with
  | relay | join | list | leave | read | packet | hear => cases read
  | serve client =>
    by_cases own : client = socket
    · simp only [served, own, if_true, Option.toList_eq_singleton_iff] at read
      exact plain data (List.mem_of_mem_head? read)
    · rw [served_other (.serve client) (Ne.symm own)] at read
      cases read

theorem mailOf_self (socket : Socket) (data : Bytes) : mailOf [(socket, data)] socket = [data] := by
  simp [mailOf]

theorem posts_posted (reached : (system zlib allocates names).Reachable moment.before)
    (legal : (system zlib allocates names).Legal moment) (socket : Socket) :
    Posts names moment socket (posted zlib socket moment) := by
  have own := (valid_of_reached reached).own
  have mails := mails_mail legal
  unfold posted
  generalize mail zlib moment = sent at mails
  cases mails with
  | nothing => exact .nothing
  | @message sender data reaction message serves read lobby reacts outgoing =>
    obtain ⟨receiver, reply⟩ := message
    by_cases same : receiver = socket
    · subst same
      have asked {verb : Verb} {ip : Str} (asks : Asks data verb ip) : ip = (names sender).text :=
        (Plain.asks (Or.inr (served_plain reached read)) asks).2
      rw [mailOf_self]
      cases reacts with
      | closing | crashed | ignored | dropped => cases outgoing
      | joined asks valid free =>
        cases outgoing
        obtain rfl := asked asks
        refine .joined serves (Dict.get?_eq_none_iff.mpr free) ?_
        rw [lobby, Reaction.lobby, Dict.get?_set, if_pos rfl]
      | listed asks valid present member =>
        cases outgoing
        rw [listReply_bytes]
        exact .listed serves (held_own own member) lobby
      | left asks valid present member =>
        cases outgoing
        obtain rfl := asked asks
        refine .left serves (held_own own member) ?_
        rw [lobby, Reaction.lobby, Dict.get?_erase, if_pos rfl]
      | @refused verb =>
        cases outgoing
        exact .refused verb
      | forwarded member payload =>
        cases outgoing
        exact .packet payload
      | rejected =>
        cases outgoing
        exact .rejected
    · simp only [mailOf, List.filter_singleton, beq_eq_false_iff_ne.mpr same]
      exact .nothing

def learned (lobby : Peer.Lobby) (data : Bytes) : Peer.Lobby :=
  if (bytes "command").isPrefixOf data then
    match response (data.splitOn 0x20) with
    | .error _ => lobby
    | .ok response => response.apply lobby
  else lobby

theorem hear_lobby (zlib : Zlib) (allocates : Nat → Bool) (data : Bytes) (world : Peer.World) :
    (run (callbackLiteningToServer zlib allocates data) world).2.lobby = learned world.lobby data := by
  rw [callbackLiteningToServer, startsWithCommand_eq, learned]
  split
  · rw [handleResponse_run, answered]
    cases response (data.splitOn 0x20) <;> rfl
  · unfold sendPacket
    split <;> rfl

theorem learned_reply (lobby : Peer.Lobby) (reply : Reply) : learned lobby reply.bytes = (meaning reply).apply lobby := by
  rw [learned, if_pos reply.starts, response_reply]

theorem learned_payload (lobby : Peer.Lobby) {data : Bytes} (payload : (bytes "command").isPrefixOf data = false) :
    learned lobby data = lobby := by
  simp [learned, payload]

/-- The list of members as a client holds it. -/
def listing (lobbyList : Relay.Lobby) : List Client := lobbyList.keys.map fun key => ⟨encode key⟩

theorem learned_listed {lobbyList : Relay.Lobby} (own : Own names lobbyList) (lobby : Peer.Lobby) :
    learned lobby (Reply.listed lobbyList.keys).bytes = { lobby with memberList := listing lobbyList } := by
  rw [learned_reply, meaning_understood, understood, listing]
  intro keys same key member
  cases same
  obtain ⟨holder, bound⟩ := Dict.mem_keys_iff.mp member
  exact isValidIpv4_solid (own key holder (Dict.get?_eq_some_iff.mpr bound)).2

/-- A step changes what a client knows by the message that it reads, if any; to
leave, it takes back its flag. -/
structure Learns (moment : Instant) (socket : Socket) : Prop where
  lobby : (moment.after.sessions socket).world.lobby =
      (received socket moment).foldl learned (moment.before.sessions socket).world.lobby ∨
    received socket moment = [] ∧ (moment.after.sessions socket).world.lobby =
      { (moment.before.sessions socket).world.lobby with join := false }
  armed : (moment.after.sessions socket).armed = true →
    (moment.before.sessions socket).armed = true ∨ (moment.before.sessions socket).world.lobby.join = true

theorem learns_client {before after : State} (event : Event) {session : Session}
    (stepped : clientStep before event.socket session = some after)
    (own : Learns ⟨before, event, (), { before with sessions := fun _ => session }⟩ event.socket) (socket : Socket) :
    Learns ⟨before, event, (), after⟩ socket := by
  obtain ⟨_, self, others⟩ := clientStep_sessions stepped
  by_cases same : socket = event.socket
  · subst same
    exact ⟨self ▸ own.lobby, self ▸ own.armed⟩
  · have untouched := others socket same
    refine ⟨Or.inl ?_, ?_⟩
    · simp [received_other event same, untouched]
    · simp only [untouched]
      exact Or.inl

theorem learns (reached : (system zlib allocates names).Reachable moment.before)
    (legal : (system zlib allocates names).Legal moment) (socket : Socket) : Learns moment socket := by
  obtain ⟨before, event, ⟨⟩, after⟩ := moment
  have kept := (valid_of_reached reached).kept
  have stepped := legal_step legal
  have relayed {sessions : Socket → Session} {relayed : Relay.Event}
      (stepped : relayStep zlib ⟨before.relay, sessions⟩ relayed = some after)
      (unheard : received socket ⟨before, event, (), after⟩ = [])
      (same : (sessions socket).world = (before.sessions socket).world ∧
        (sessions socket).armed = (before.sessions socket).armed) : Learns ⟨before, event, (), after⟩ socket := by
    obtain ⟨⟨final, output⟩, _, rfl⟩ := Option.map_eq_some_iff.mp stepped
    refine ⟨Or.inl ?_, ?_⟩
    · rw [unheard]
      exact congrArg World.lobby same.1
    · simp only [post, same.2]
      exact Or.inl
  cases event with
  | relay event =>
    simp only [step, Option.ite_none_right_eq_some] at stepped
    exact relayed stepped.2 rfl ⟨rfl, rfl⟩
  | join client =>
    simp only [step, perform_joinRequest (kept client)] at stepped
    exact learns_client (.join client) stepped ⟨Or.inl rfl, Or.inl⟩ socket
  | list client =>
    simp only [step, perform_getLobbyMembers (kept client)] at stepped
    exact learns_client (.list client) stepped ⟨Or.inl rfl, Or.inl⟩ socket
  | leave client =>
    simp only [step, perform_leaveLobby (kept client)] at stepped
    exact learns_client (.leave client) stepped ⟨Or.inr ⟨rfl, rfl⟩, Or.inl⟩ socket
  | read client =>
    simp only [step, Option.ite_none_right_eq_some] at stepped
    exact learns_client (.read client) stepped.2 ⟨Or.inl rfl, fun _ => Or.inr stepped.1⟩ socket
  | packet client data =>
    simp only [step, Option.ite_none_right_eq_some, perform_sendData (kept client)] at stepped
    exact learns_client (.packet client data) stepped.2 ⟨Or.inl rfl, fun armed => by cases armed⟩ socket
  | serve client =>
    simp only [step] at stepped
    split at stepped
    next => cases stepped
    next data requests waiting =>
      apply relayed stepped rfl
      by_cases same : socket = client
      · subst same
        simp
      · simp [Function.update_of_ne same]
  | hear client =>
    simp only [step] at stepped
    split at stepped
    next => cases stepped
    next data replies waiting =>
      apply learns_client (.hear client) stepped
      refine ⟨Or.inl ?_, Or.inl⟩
      simp [Event.socket, received, waiting, hear_lobby]

/-- What every message from the relay keeps true of a client's lobby is true of it
throughout; the messages may have been posted long before they are read. -/
theorem known (run : (system zlib allocates names).Run history state)
    (assertion : List Instant → Peer.Lobby → Prop) (socket : Socket)
    (start : assertion [] ⟨[], encode (names socket).text, false⟩)
    (later : ∀ moment history lobby, assertion history lobby → assertion (moment :: history) lobby)
    (leaves : ∀ history lobby, assertion history lobby → assertion history { lobby with join := false })
    (posts : ∀ newer moment older, (system zlib allocates names).Run older moment.before →
      (system zlib allocates names).Legal moment → ∀ data ∈ posted zlib socket moment, ∀ lobby,
      assertion (newer ++ moment :: older) lobby → assertion (newer ++ moment :: older) (learned lobby data)) :
    assertion history (state.sessions socket).world.lobby := by
  have both : assertion history (state.sessions socket).world.lobby ∧
      ∀ data ∈ (state.sessions socket).replies, ∀ newer lobby,
        assertion (newer ++ history) lobby → assertion (newer ++ history) (learned lobby data) := by
    apply run.history_invariant fun history state => assertion history (state.sessions socket).world.lobby ∧
      ∀ data ∈ (state.sessions socket).replies, ∀ newer lobby,
        assertion (newer ++ history) lobby → assertion (newer ++ history) (learned lobby data)
    · refine ⟨start, ?_⟩
      intro data member
      cases member
    · intro history moment past kept legal
      have changes := learns ⟨history, past⟩ legal socket
      have balanced := (balance legal socket).replies
      have held : assertion (moment :: history) (moment.before.sessions socket).world.lobby := later _ _ _ kept.1
      -- A message in the mail was there before, or it is posted in this step.
      have taught : ∀ data ∈ (moment.before.sessions socket).replies ++ posted zlib socket moment, ∀ newer lobby,
          assertion (newer ++ moment :: history) lobby → assertion (newer ++ moment :: history) (learned lobby data) := by
        intro data member newer lobby holds
        rcases List.mem_append.mp member with old | new
        · have again := kept.2 data old (newer ++ [moment]) lobby
          rw [List.append_assoc] at again
          exact again holds
        · exact posts newer moment history past legal data new lobby holds
      rw [← balanced] at taught
      refine ⟨?_, fun data member => taught data (List.mem_append_right _ member)⟩
      have heard : ∀ (messages : List Bytes) lobby, (∀ data ∈ messages, data ∈ received socket moment) →
          assertion (moment :: history) lobby → assertion (moment :: history) (messages.foldl learned lobby) := by
        intro messages
        induction messages with
        | nil => exact fun lobby _ holds => holds
        | cons data messages ih =>
          intro lobby within holds
          have inside := List.mem_append_left (moment.after.sessions socket).replies (within data List.mem_cons_self)
          exact ih _ (fun other member => within other (List.mem_cons_of_mem _ member))
            (taught data inside [] lobby holds)
      rcases changes.lobby with read | ⟨_, left⟩
      · rw [read]
        exact heard _ _ (fun _ member => member) held
      · rw [left]
        exact leaves _ _ held
  exact both.1

/-- The relay accepted the client's join in one of these steps. -/
def Admitted (names : Socket → Name) (history : List Instant) (socket : Socket) : Prop :=
  ∃ moment ∈ history, moment.event = .serve socket ∧
    moment.before.relay.lobbyList.get? (names socket).text = none ∧
    moment.after.relay.lobbyList.get? (names socket).text = some socket

theorem Admitted.more {history : List Instant} (admitted : Admitted names history socket) (newer : List Instant) :
    Admitted names (newer ++ history) socket := by
  obtain ⟨moment, member, joined⟩ := admitted
  exact ⟨moment, List.mem_append_right _ member, joined⟩

theorem join_admitted (run : (system zlib allocates names).Run history state) (socket : Socket) :
    (state.sessions socket).world.lobby.join = true → Admitted names history socket := by
  apply known run (fun history lobby => lobby.join = true → Admitted names history socket) socket
  · intro set
    cases set
  · intro moment history lobby holds set
    exact (holds set).more [moment]
  · intro history lobby _ set
    cases set
  · intro newer moment older past legal data member lobby holds set
    have posts := posts_posted ⟨older, past⟩ legal socket
    generalize posted zlib socket moment = messages at posts member
    cases posts with
    | nothing => cases member
    | packet payload =>
      obtain rfl := List.mem_singleton.mp member
      rw [learned_payload lobby payload] at set
      exact holds set
    | joined serves free bound =>
      exact Admitted.more ⟨moment, List.mem_cons_self, serves, free, bound⟩ newer
    | listed | refused =>
      obtain rfl := List.mem_singleton.mp member
      rw [learned_reply] at set
      exact holds set
    | left | rejected =>
      obtain rfl := List.mem_singleton.mp member
      rw [learned_reply] at set
      cases set

/-- A client that keeps its connection sends no packet before the relay has bound its
address to it. -/
theorem packet_after_admission (run : (system zlib allocates names).Run (newer ++ moment :: older) state) {data : Bytes}
    (sends : data ∈ transmitted socket moment) : Admitted names older socket := by
  obtain ⟨past, legal⟩ := run.earlier
  have armed : ∀ {history state}, (system zlib allocates names).Run history state →
      (state.sessions socket).armed = true → Admitted names history socket := by
    intro history state run
    apply run.history_invariant fun history state =>
      (state.sessions socket).armed = true → Admitted names history socket
    · intro set
      cases set
    · intro history moment past held legal set
      rcases (learns ⟨history, past⟩ legal socket).armed set with before | join
      · exact (held before).more [moment]
      · exact (join_admitted past socket join).more [moment]
  apply armed past
  obtain ⟨before, event, ⟨⟩, after⟩ := moment
  have stepped := legal_step legal
  cases event with
  | relay | join | list | leave | read | serve | hear => cases sends
  | packet client data =>
    by_cases own : client = socket
    · subst own
      simp only [step, Option.ite_none_right_eq_some, Bool.and_eq_true] at stepped
      exact stepped.1.1.1
    · simp [transmitted, own] at sends

theorem packet_after_admission_call :
    let called := (system StoredZlib.zlib (fun _ => true) household).play call
    ∃ newer moment older, called.1 = newer ++ moment :: older ∧
      StoredZlib.zlib.stream greeting ∈ transmitted 1 moment ∧ Admitted household older 1 := by
  have run := (system StoredZlib.zlib (fun _ => true) household).run_play call
  have sent : StoredZlib.zlib.stream greeting ∈ System.chronicle (transmitted 1)
      ((system StoredZlib.zlib (fun _ => true) household).play call).1 := by decide +kernel
  obtain ⟨moment, member, sends⟩ := System.mem_chronicle.mp sent
  obtain ⟨newer, older, split⟩ := List.mem_iff_append.mp member
  exact ⟨newer, moment, older, split, sends, packet_after_admission (split ▸ run) sends⟩

def Snapshot (names : Socket → Name) (socket : Socket) (history : List Instant) (memberList : List Client) : Prop :=
  memberList = [] ∨ ∃ moment ∈ history, moment.event = .serve socket ∧
    moment.before.relay.lobbyList.get? (names socket).text = some socket ∧
    memberList = listing moment.before.relay.lobbyList

/-- Where replies are read whole, a client's view of the lobby is empty, or it is the
whole lobby of one moment, when the relay answered it and held its address for it. -/
theorem view_snapshot (run : (system zlib allocates names).Run history state) (socket : Socket) :
    Snapshot names socket history (state.sessions socket).world.lobby.memberList := by
  have more {older : List Instant} {memberList : List Client} (newer : List Instant)
      (held : Snapshot names socket older memberList) : Snapshot names socket (newer ++ older) memberList := by
    rcases held with empty | ⟨moment, member, listed⟩
    · exact Or.inl empty
    · exact Or.inr ⟨moment, List.mem_append_right _ member, listed⟩
  apply known run (fun history lobby => Snapshot names socket history lobby.memberList) socket
  · exact Or.inl rfl
  · exact fun moment history lobby held => more [moment] held
  · exact fun history lobby held => held
  · intro newer moment older past legal data member lobby held
    have own := (valid_of_reached ⟨older, past⟩).own
    have posts := posts_posted ⟨older, past⟩ legal socket
    generalize posted zlib socket moment = messages at posts member
    cases posts with
    | nothing => cases member
    | packet payload =>
      obtain rfl := List.mem_singleton.mp member
      rw [learned_payload lobby payload]
      exact held
    | listed serves bound =>
      obtain rfl := List.mem_singleton.mp member
      rw [learned_listed own]
      exact Or.inr ⟨moment, List.mem_append_right _ List.mem_cons_self, serves, bound, rfl⟩
    | joined | refused | rejected =>
      obtain rfl := List.mem_singleton.mp member
      rw [learned_reply]
      exact held
    | left =>
      obtain rfl := List.mem_singleton.mp member
      rw [learned_reply]
      exact Or.inl rfl

/-- The second of two members asks for the lobby, and the first one leaves before the
second has read the reply. -/
def farewell : List Event := call ++ [.list 2, .serve 2, .leave 1, .serve 1, .hear 2]

/-- The view is the lobby of the moment of the answer, not of the moment of reading. -/
theorem view_snapshot_farewell :
    let parted := (system StoredZlib.zlib (fun _ => true) household).play farewell
    Snapshot household 2 parted.1 (parted.2.sessions 2).world.lobby.memberList ∧
      (parted.2.sessions 2).world.lobby.memberList = [⟨bytes "100.0.0.1"⟩, ⟨bytes "100.0.0.2"⟩] ∧
      parted.2.relay.lobbyList.keys = ["100.0.0.2".toList] :=
  ⟨view_snapshot ((system StoredZlib.zlib (fun _ => true) household).run_play farewell) 2, by decide +kernel,
    by decide +kernel⟩

/-- The lobby that a client has once it has read its mail. -/
def expected (session : Session) : Peer.Lobby := session.replies.foldl learned session.world.lobby

theorem learned_memberList {first second : Peer.Lobby} (same : first.memberList = second.memberList) (data : Bytes) :
    (learned first data).memberList = (learned second data).memberList := by
  unfold learned
  split
  · cases response (data.splitOn 0x20) with
    | error fault => exact same
    | ok response => cases response <;> first | exact same | rfl
  · exact same

theorem foldl_learned_memberList (messages : List Bytes) {first second : Peer.Lobby}
    (same : first.memberList = second.memberList) :
    (messages.foldl learned first).memberList = (messages.foldl learned second).memberList := by
  induction messages generalizing first second with
  | nil => exact same
  | cons data messages ih => exact ih (learned_memberList same data)

/-- Reading mail changes nothing of what a client expects, new mail alone does. -/
theorem expected_step (reached : (system zlib allocates names).Reachable moment.before)
    (legal : (system zlib allocates names).Legal moment) (socket : Socket) :
    (expected (moment.after.sessions socket)).memberList =
      ((posted zlib socket moment).foldl learned (expected (moment.before.sessions socket))).memberList := by
  have balanced := (balance legal socket).replies
  unfold expected
  rw [← List.foldl_append, ← balanced, List.foldl_append]
  rcases (learns reached legal socket).lobby with read | ⟨unread, left⟩
  · rw [read]
  · rw [unread, left]
    exact foldl_learned_memberList _ rfl

theorem expected_steady (reached : (system zlib allocates names).Reachable moment.before)
    (legal : (system zlib allocates names).Legal moment)
    (steady : moment.after.relay.lobbyList = moment.before.relay.lobbyList)
    (current : (expected (moment.before.sessions socket)).memberList = listing moment.before.relay.lobbyList) :
    (expected (moment.after.sessions socket)).memberList = listing moment.after.relay.lobbyList := by
  have own := (valid_of_reached reached).own
  have posts := posts_posted reached legal socket
  rw [expected_step reached legal, steady]
  generalize posted zlib socket moment = messages at posts
  cases posts with
  | nothing => exact current
  | packet payload =>
    rw [List.foldl_cons, List.foldl_nil, learned_payload _ payload]
    exact current
  | listed =>
    rw [List.foldl_cons, List.foldl_nil, learned_listed own]
  | joined | refused | rejected =>
    rw [List.foldl_cons, List.foldl_nil, learned_reply]
    exact current
  | left serves bound missing =>
    rw [steady, bound] at missing
    cases missing

/-- The relay answers a member's list request with the lobby. -/
theorem posted_listed (reached : (system zlib allocates names).Reachable moment.before)
    (legal : (system zlib allocates names).Legal moment)
    (asks : served socket moment = [request (names socket) .list])
    (bound : moment.before.relay.lobbyList.get? (names socket).text = some socket) :
    moment.after.relay.lobbyList = moment.before.relay.lobbyList ∧
      posted zlib socket moment = [(Reply.listed moment.before.relay.lobbyList.keys).bytes] := by
  have closed := reachable_closed (relay_reachable reached)
  have valid := ((valid_of_reached reached).own _ _ bound).2
  have keyed : (names socket).text ∈ moment.before.relay.lobbyList.keys :=
    Dict.mem_keys_iff.mpr ⟨socket, Dict.get?_eq_some_iff.mp bound⟩
  have granted : react zlib moment.before.relay.lobbyList socket (request (names socket) .list) = .listed _ :=
    react_granted (request_asks (names socket) .list) valid ⟨keyed, ⟨_, bound⟩⟩
  obtain ⟨before, event, ⟨⟩, after⟩ := moment
  have stepped := legal_step legal
  cases event with
  | relay | join | list | leave | read | packet | hear => cases asks
  | serve client =>
    by_cases own : client = socket
    · subst own
      simp only [served, if_true] at asks
      simp only [step] at stepped
      split at stepped
      next => cases stepped
      next data requests waiting =>
        obtain rfl : data = request (names client) .list := by simpa [waiting] using asks
        obtain ⟨⟨final, output⟩, taken, rfl⟩ := Option.map_eq_some_iff.mp stepped
        have taken : Relay.step zlib before.relay (.receive client (request (names client) .list) everyone) =
            some (final, output) := taken
        have ready := taken
        rw [step_receive, Option.ite_none_right_eq_some] at ready
        obtain ⟨⟨running, short⟩, _⟩ := ready
        have opened : client ∉ before.relay.closed := by
          intro member
          cases running.symm.trans (closed client member)
        have answer := step_answered running opened short granted rfl
        rw [answer] at taken
        cases taken
        refine ⟨rfl, ?_⟩
        simp [posted, mail, relayEvent, waiting, answer, mailOf, listReply_bytes]
    · rw [served_other (.serve client) (Ne.symm own)] at asks
      cases asks

/-- A member that asked for the lobby has it, as soon as its mail is read, each message
whole, for as long as the lobby does not change. -/
theorem view_current (run : (system zlib allocates names).Run (newer ++ moment :: older) state)
    (asks : served socket moment = [request (names socket) .list])
    (bound : moment.before.relay.lobbyList.get? (names socket).text = some socket)
    (steady : ∀ later ∈ newer, later.after.relay.lobbyList = later.before.relay.lobbyList)
    (calm : (state.sessions socket).replies = []) :
    (state.sessions socket).world.lobby.memberList = listing state.relay.lobbyList := by
  have current : (expected (state.sessions socket)).memberList = listing state.relay.lobbyList := by
    clear calm
    induction newer generalizing state with
    | nil =>
      cases run with
      | next _ past legal =>
        obtain ⟨same, replied⟩ := posted_listed ⟨older, past⟩ legal asks bound
        rw [expected_step ⟨older, past⟩ legal, replied, same, List.foldl_cons, List.foldl_nil,
          learned_listed (valid_of_reached ⟨older, past⟩).own]
    | cons latest newer ih =>
      cases run with
      | next _ past legal =>
        have earlier := ih past fun later member => steady later (List.mem_cons_of_mem _ member)
        exact expected_steady ⟨_, past⟩ legal (steady latest List.mem_cons_self) earlier
  rw [expected, calm] at current
  exact current

/-- One of two members asks for the lobby. Before it reads the reply it sends a packet
to the other one, which asks for the lobby itself. -/
def inquiry : List Event :=
  call ++ [.list 1, .serve 1, .read 1, .packet 1 (StoredZlib.zlib.stream greeting), .list 2, .serve 1, .serve 2,
    .hear 2, .hear 2, .hear 1]

theorem view_current_inquiry :
    let asked := (system StoredZlib.zlib (fun _ => true) household).play inquiry
    (asked.2.sessions 1).world.lobby.memberList = listing asked.2.relay.lobbyList ∧
      asked.2.relay.lobbyList.keys = ["100.0.0.1".toList, "100.0.0.2".toList] := by
  have run := (system StoredZlib.zlib (fun _ => true) household).run_play inquiry
  refine ⟨?_, by decide +kernel⟩
  exact view_current (run.split 8 (by decide +kernel)) (by decide +kernel) (by decide +kernel) (by decide +kernel)
    (by decide +kernel)

end VirtualLan.Network
