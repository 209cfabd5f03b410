import VirtualLan.Traffic
import VirtualLan.Proofs.Agreement

/-! Every connection conserves its messages. What a step takes from a connection
and puts on it is read off the step once, for all connections together; what holds
of whole runs follows from the rule for queues. -/

namespace VirtualLan.Network
open Program Peer Relay

variable {zlib : Zlib} {allocates : Nat → Bool} {names : Socket → Name} {moment : Instant} {socket : Socket}

theorem legal_step (legal : (system zlib allocates names).Legal moment) :
    step zlib allocates moment.before moment.event = some moment.after := by
  have mapped : (step zlib allocates moment.before moment.event).map (·, ()) = some (moment.after, moment.output) := legal
  obtain ⟨after, stepped, same⟩ := Option.map_eq_some_iff.mp mapped
  rw [stepped, (Prod.mk.inj same).1]

theorem valid_of_reached {state : State} (reached : (system zlib allocates names).Reachable state) :
    Valid names state := by
  apply reached.invariant (Valid names) (initial_valid names)
  intro before event after output valid stepped
  have legal : (system zlib allocates names).Legal ⟨before, event, output, after⟩ := stepped
  exact valid.step (legal_step legal)

/-- What a message does to the packets that a client has put on its interface. -/
theorem hear_injected (data : Bytes) (world : Peer.World) :
    (run (callbackLiteningToServer zlib allocates data) world).2.injected =
      world.injected ++ arrived zlib allocates data := by
  rw [callbackLiteningToServer, arrived]
  split
  · rw [handleResponse_run, answered]
    cases response (data.splitOn 0x20) <;> simp
  · unfold sendPacket
    split
    next room => simp [delivered, room]
    next refused => simp [delivered, refused]

theorem writer_injected {event : Event} {action : Cpp Unit} (writes : event.writer = some action)
    (world : Peer.World) : (run action world).2.injected = world.injected := by
  cases event with
  | relay | read | serve | hear => cases writes
  | join =>
    cases writes
    simp only [joinRequest, sendDataText, run_bind, run_get, andThen_ok]
    split <;> rfl
  | list =>
    cases writes
    simp only [getLobbyMembers, sendDataText, run_bind, run_get, andThen_ok]
    split <;> rfl
  | leave =>
    cases writes
    simp only [leaveLobby, sendDataText, run_bind, run_get, andThen_ok]
    split <;> rfl
  | packet socket data =>
    cases writes
    simp only [sendData, run_bind, run_get, andThen_ok, if_true]
    split <;> rfl

/-- What a step takes from the connections and puts on them. -/
structure Balance (zlib : Zlib) (allocates : Nat → Bool) (moment : Instant) (socket : Socket) : Prop where
  requests : served socket moment ++ (moment.after.sessions socket).requests =
    (moment.before.sessions socket).requests ++ written socket moment
  replies : received socket moment ++ (moment.after.sessions socket).replies =
    (moment.before.sessions socket).replies ++ posted zlib socket moment
  injected : (moment.after.sessions socket).world.injected = (moment.before.sessions socket).world.injected ++
    (received socket moment).flatMap (arrived zlib allocates)

variable {before after : State} (event : Event)

theorem served_other (other : socket ≠ event.socket) : served socket ⟨before, event, (), after⟩ = [] := by
  cases event with
  | serve client => exact if_neg (Ne.symm other)
  | relay | join | list | leave | read | packet | hear => rfl

theorem received_other (other : socket ≠ event.socket) : received socket ⟨before, event, (), after⟩ = [] := by
  cases event with
  | hear client => exact if_neg (Ne.symm other)
  | relay | join | list | leave | read | packet | serve => rfl

theorem written_other (other : socket ≠ event.socket) : written socket ⟨before, event, (), after⟩ = [] := by
  unfold written
  split
  next => exact if_neg (Ne.symm other)
  next => rfl

theorem clientStep_sessions {session : Session} (stepped : clientStep before socket session = some after) :
    after.relay = before.relay ∧ after.sessions socket = session ∧
      ∀ other, other ≠ socket → after.sessions other = before.sessions other := by
  simp only [clientStep, Option.ite_none_left_eq_some, Option.some.injEq] at stepped
  obtain ⟨_, rfl⟩ := stepped
  exact ⟨rfl, Function.update_self .., fun other different => Function.update_of_ne different ..⟩

/-- A step of a client moves nothing on the connections of others. -/
theorem balance_client {session : Session} (stepped : clientStep before event.socket session = some after)
    (calm : relayEvent before event = none)
    (requests : served event.socket ⟨before, event, (), after⟩ ++ session.requests =
      (before.sessions event.socket).requests ++ written event.socket ⟨before, event, (), after⟩)
    (replies : received event.socket ⟨before, event, (), after⟩ ++ session.replies =
      (before.sessions event.socket).replies)
    (injected : session.world.injected = (before.sessions event.socket).world.injected ++
      (received event.socket ⟨before, event, (), after⟩).flatMap (arrived zlib allocates)) (socket : Socket) :
    Balance zlib allocates ⟨before, event, (), after⟩ socket := by
  obtain ⟨_, self, others⟩ := clientStep_sessions stepped
  have silence : posted zlib socket ⟨before, event, (), after⟩ = [] := by simp [posted, mail, calm, mailOf]
  by_cases same : socket = event.socket
  · subst same
    refine ⟨?_, ?_, ?_⟩
    · exact self ▸ requests
    · rw [silence, List.append_nil]
      exact self ▸ replies
    · exact self ▸ injected
  · have untouched := others socket same
    refine ⟨?_, ?_, ?_⟩
    · simp [served_other event same, written_other event same, untouched]
    · simp [received_other event same, silence, untouched]
    · simp [received_other event same, untouched]

theorem balance_writer {action : Cpp Unit} {session : Session} (writes : event.writer = some action)
    (stepped : clientStep before event.socket session = some after)
    (performed : session = { perform action (before.sessions event.socket) with armed := session.armed })
    (socket : Socket) : Balance zlib allocates ⟨before, event, (), after⟩ socket := by
  have calm : relayEvent before event = none := by
    cases event <;> first | rfl | cases writes
  have unserved : served event.socket ⟨before, event, (), after⟩ = [] := by
    cases event <;> first | rfl | cases writes
  have unheard : received event.socket ⟨before, event, (), after⟩ = [] := by
    cases event <;> first | rfl | cases writes
  rw [performed] at stepped
  apply balance_client event stepped calm
  · simp [unserved, written, writes, perform]
  · simp [unheard, perform]
  · simp [unheard, perform, writer_injected writes]

/-- A step of the relay, on sessions that it took at most one request from. -/
theorem balance_relayed {sessions : Socket → Session} {relayed : Relay.Event}
    (stepped : relayStep zlib ⟨before.relay, sessions⟩ relayed = some after)
    (handles : relayEvent before event = some relayed) (silent : event.writer = none)
    (requests : ∀ socket, served socket ⟨before, event, (), after⟩ ++ (sessions socket).requests =
      (before.sessions socket).requests)
    (kept : ∀ socket, (sessions socket).world = (before.sessions socket).world ∧
      (sessions socket).replies = (before.sessions socket).replies) (socket : Socket) :
    Balance zlib allocates ⟨before, event, (), after⟩ socket := by
  obtain ⟨⟨final, output⟩, taken, rfl⟩ := Option.map_eq_some_iff.mp stepped
  have taken : Relay.step zlib before.relay relayed = some (final, output) := taken
  have unheard : ∀ after, received socket ⟨before, event, (), after⟩ = [] := by
    intro after
    cases event <;> first | rfl | cases handles
  obtain ⟨world, replies⟩ := kept socket
  refine ⟨?_, ?_, ?_⟩
  · have none : ∀ after, written socket ⟨before, event, (), after⟩ = [] := by simp [written, silent]
    rw [none, List.append_nil]
    exact requests socket
  · rw [unheard]
    simp [posted, mail, handles, taken, post, replies]
  · rw [unheard]
    simp [post, world]

theorem balance (legal : (system zlib allocates names).Legal moment) (socket : Socket) :
    Balance zlib allocates moment socket := by
  obtain ⟨before, event, ⟨⟩, after⟩ := moment
  have stepped := legal_step legal
  cases event with
  | relay relayed =>
    simp only [step, Option.ite_none_right_eq_some] at stepped
    exact balance_relayed (.relay relayed) stepped.2 rfl rfl (fun _ => rfl) (fun _ => ⟨rfl, rfl⟩) socket
  | join client => exact balance_writer (.join client) rfl stepped rfl socket
  | list client => exact balance_writer (.list client) rfl stepped rfl socket
  | leave client => exact balance_writer (.leave client) rfl stepped rfl socket
  | read client =>
    simp only [step, Option.ite_none_right_eq_some] at stepped
    exact balance_client (.read client) stepped.2 rfl (List.append_nil _).symm rfl (List.append_nil _).symm socket
  | packet client data =>
    simp only [step, Option.ite_none_right_eq_some] at stepped
    exact balance_writer (.packet client data) rfl stepped.2 rfl socket
  | serve client =>
    simp only [step] at stepped
    split at stepped
    next => cases stepped
    next data requests waiting =>
      have handles : relayEvent before (.serve client) = some (.receive client data everyone) := by
        simp [relayEvent, waiting]
      apply balance_relayed (.serve client) stepped handles rfl
      · intro other
        by_cases same : other = client
        · subst same
          simp [served, waiting]
        · simp [served_other (.serve client) same, Function.update_of_ne same]
      · intro other
        by_cases same : other = client
        · subst same
          simp
        · simp [Function.update_of_ne same]
  | hear client =>
    simp only [step] at stepped
    split at stepped
    next => cases stepped
    next data replies waiting =>
      have reads : received client ⟨before, .hear client, (), after⟩ = [data] := by
        simp [received, waiting]
      apply balance_client (.hear client) stepped rfl
      · exact (List.append_nil _).symm
      · rw [Event.socket, reads, waiting]
        rfl
      · rw [Event.socket, reads, hear_injected, List.flatMap_singleton]

theorem silent_mail {relay final : Relay.State} {event : Relay.Event} {output : Output} (quiet : silent event = true)
    (stepped : Relay.step zlib relay event = some (final, output)) : output.sent = [] := by
  cases steps_of_step stepped with
  | accept | fail | finish | abandon => rfl
  | @receive socket data accepts reaction running short same reacts =>
    obtain rfl := List.isEmpty_iff.mp quiet
    obtain rfl : Reaction.closing = reaction := same
    rfl

/-- A step of the network is a step of the relay, or it leaves the relay alone. -/
theorem relay_step (legal : (system zlib allocates names).Legal moment) :
    moment.after.relay = moment.before.relay ∨
      ∃ event output, Relay.step zlib moment.before.relay event = some (moment.after.relay, output) := by
  obtain ⟨before, event, ⟨⟩, after⟩ := moment
  have stepped := legal_step legal
  have relayed {sessions : Socket → Session} {event : Relay.Event}
      (stepped : relayStep zlib ⟨before.relay, sessions⟩ event = some after) :
      ∃ event output, Relay.step zlib before.relay event = some (after.relay, output) := by
    obtain ⟨⟨final, output⟩, taken, rfl⟩ := Option.map_eq_some_iff.mp stepped
    exact ⟨event, output, taken⟩
  cases event with
  | relay event =>
    simp only [step, Option.ite_none_right_eq_some] at stepped
    exact Or.inr (relayed stepped.2)
  | serve client =>
    simp only [step] at stepped
    split at stepped
    next => cases stepped
    next => exact Or.inr (relayed stepped)
  | join | list | leave => exact Or.inl (clientStep_sessions stepped).1
  | read | packet =>
    simp only [step, Option.ite_none_right_eq_some] at stepped
    exact Or.inl (clientStep_sessions stepped.2).1
  | hear client =>
    simp only [step] at stepped
    split at stepped
    next => cases stepped
    next => exact Or.inl (clientStep_sessions stepped).1

/-- What holds of every reachable relay holds of the relay of a network. -/
theorem relay_reachable {state : State} (reached : (system zlib allocates names).Reachable state) :
    (Relay.system zlib).Reachable state.relay := by
  obtain ⟨history, run⟩ := reached
  apply run.history_invariant fun _ state => (Relay.system zlib).Reachable state.relay
  · exact .start
  · intro history moment past kept legal
    rcases relay_step legal with same | ⟨event, output, stepped⟩
    · rw [same]
      exact kept
    · exact kept.next stepped

/-- The relay sends nothing in a step, or what its reaction to one message asks for. -/
inductive Mails (zlib : Zlib) (moment : Instant) : List (Socket × Bytes) → Prop
  | nothing : Mails zlib moment []
  | message {sender : Socket} {data : Bytes} {reaction : Reaction} {message : Socket × Bytes}
      (serves : moment.event = .serve sender) (read : served sender moment = [data])
      (lobby : moment.after.relay.lobbyList = reaction.lobby moment.before.relay.lobbyList sender)
      (reacts : Reacts zlib moment.before.relay.lobbyList sender data reaction)
      (outgoing : reaction.outgoing moment.before.relay.lobbyList sender data = some message) :
      Mails zlib moment [message]

theorem mails_mail (legal : (system zlib allocates names).Legal moment) : Mails zlib moment (mail zlib moment) := by
  obtain ⟨before, event, ⟨⟩, after⟩ := moment
  have stepped := legal_step legal
  cases event with
  | join | list | leave | read | packet | hear => exact .nothing
  | relay event =>
    simp only [step, Option.ite_none_right_eq_some] at stepped
    obtain ⟨quiet, stepped⟩ := stepped
    obtain ⟨⟨final, output⟩, taken, _⟩ := Option.map_eq_some_iff.mp stepped
    have nothing : mail zlib ⟨before, .relay event, (), after⟩ = [] := by
      simp [mail, relayEvent, taken, silent_mail quiet taken]
    exact nothing ▸ .nothing
  | serve sender =>
    simp only [step] at stepped
    split at stepped
    next => cases stepped
    next data requests waiting =>
      obtain ⟨⟨final, output⟩, taken, final'⟩ := Option.map_eq_some_iff.mp stepped
      have taken : Relay.step zlib before.relay (.receive sender data everyone) = some (final, output) := taken
      have sends : mail zlib ⟨before, .serve sender, (), after⟩ = output.sent := by
        simp [mail, relayEvent, waiting, taken]
      rw [sends]
      cases steps_of_step taken with
      | @receive _ _ _ reaction running short same reacts =>
        simp only [Reaction.output, Reaction.sent]
        cases outgoing : reaction.outgoing before.relay.lobbyList sender data with
        | none => exact .nothing
        | some message =>
          cases accepted : takes everyone before.relay.closed message with
          | true =>
            have read : served sender ⟨before, .serve sender, (), after⟩ = [data] := by simp [served, waiting]
            rw [Option.filter_some_pos accepted]
            exact .message rfl read (by rw [← final']; rfl) reacts outgoing
          | false =>
            rw [Option.filter_some_neg accepted]
            exact .nothing

section Runs
variable {history : List Instant} {state : State} (run : (system zlib allocates names).Run history state)
include run

theorem requests_conserved (socket : Socket) :
    System.chronicle (written socket) history = System.chronicle (served socket) history ++ (state.sessions socket).requests :=
  run.conserved (fun state => (state.sessions socket).requests) rfl fun _ _ legal => (balance legal socket).requests

theorem replies_conserved (socket : Socket) : System.chronicle (posted zlib socket) history =
    System.chronicle (received socket) history ++ (state.sessions socket).replies :=
  run.conserved (fun state => (state.sessions socket).replies) rfl fun _ _ legal => (balance legal socket).replies

theorem injected_logged (socket : Socket) : (state.sessions socket).world.injected =
    (System.chronicle (received socket) history).flatMap (arrived zlib allocates) := by
  rw [System.chronicle_flatMap]
  exact run.logged (fun state => (state.sessions socket).world.injected) rfl
    fun _ _ legal => (balance legal socket).injected

end Runs

end VirtualLan.Network
