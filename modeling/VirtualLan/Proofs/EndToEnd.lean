import Mathlib.Data.List.Flatten
import VirtualLan.Proofs.Channels
import VirtualLan.Proofs.Delivery
import VirtualLan.Proofs.ReplyCodec

/-! Packets from interface to interface over whole runs. The relay passes on what a
client sent for its interface, in the client's order, at most once and only to the
connection that holds the packet's destination. Messages are read alone and whole, a
step handles one, each client asks for its own address, and none reconnects. -/

namespace VirtualLan.Network
open Program Peer Relay

variable {zlib : Zlib} {allocates : Nat → Bool} {names : Socket → Name} {moment : Instant} {socket : Socket}
variable {history : List Instant} {state : State}

theorem startsWithCommand_request (name : Name) (verb : Verb) : startsWithCommand (request name verb) = true := by
  rw [startsWithCommand_eq]
  exact (request_asks name verb).1

theorem written_perform {before after : State} {event : Event} {action : Cpp Unit} {data : Bytes}
    (writes : event.writer = some action) (own : event.socket = socket)
    (performed : (perform action (before.sessions socket)).requests = (before.sessions socket).requests ++ [data]) :
    written socket ⟨before, event, (), after⟩ = [data] := by
  simp only [written, writes, own, if_true]
  exact List.append_cancel_left performed

/-- The messages of a client are its packets and its commands. -/
theorem transmitted_written (reached : (system zlib allocates names).Reachable moment.before)
    (legal : (system zlib allocates names).Legal moment) (socket : Socket) :
    (written socket moment).filter (fun data => !startsWithCommand data) = transmitted socket moment := by
  obtain ⟨before, event, ⟨⟩, after⟩ := moment
  have kept := (valid_of_reached reached).kept socket
  have stepped := legal_step legal
  by_cases own : event.socket = socket
  · cases event with
    | relay | read | serve | hear => rfl
    | join client =>
      have performed := congrArg Session.requests (perform_joinRequest kept)
      rw [written_perform rfl own performed]
      simp [startsWithCommand_request, transmitted]
    | list client =>
      have performed := congrArg Session.requests (perform_getLobbyMembers kept)
      rw [written_perform rfl own performed]
      simp [startsWithCommand_request, transmitted]
    | leave client =>
      have performed := congrArg Session.requests (perform_leaveLobby kept)
      rw [written_perform rfl own performed]
      simp [startsWithCommand_request, transmitted]
    | packet client data =>
      have performed := congrArg Session.requests (perform_sendData kept data)
      rw [written_perform rfl own performed]
      obtain rfl : client = socket := own
      simp only [step, Option.ite_none_right_eq_some, Bool.and_eq_true, Bool.not_eq_true'] at stepped
      simp [stepped.1.2, transmitted]
  · rw [written_other event (Ne.symm own)]
    cases event with
    | packet client data => exact (if_neg own).symm
    | relay | join | list | leave | read | serve | hear => rfl

theorem chronicle_transmitted (run : (system zlib allocates names).Run history state) (socket : Socket) :
    System.chronicle (transmitted socket) history =
      (System.chronicle (written socket) history).filter fun data => !startsWithCommand data := by
  rw [System.chronicle_filter]
  exact run.chronicle_congr fun moment _ reached legal => (transmitted_written reached legal socket).symm

/-- The relay passes on nothing in a step, or one packet that it was just served. -/
inductive Passes (zlib : Zlib) (moment : Instant) : List Delivery → Prop
  | nothing : Passes zlib moment []
  | packet {sender receiver : Socket} {data packet : Bytes} {ip : Str} (serves : moment.event = .serve sender)
      (read : served sender moment = [data]) (payload : startsWithCommand data = false)
      (member : Holds moment.before.relay.lobbyList sender) (decoded : zlib.decompress data = some packet)
      (addressed : getDestinationIp packet = .ok (some ip))
      (bound : moment.before.relay.lobbyList.get? ip = some receiver) : Passes zlib moment [⟨sender, receiver, data⟩]

theorem passes_deliveries (legal : (system zlib allocates names).Legal moment) :
    Passes zlib moment (deliveries zlib moment) := by
  have mails := mails_mail legal
  unfold deliveries
  generalize mail zlib moment = sent at mails
  cases mails with
  | nothing => exact .nothing
  | @message sender data reaction message serves read lobby reacts outgoing =>
    rcases Reaction.outgoing_reply outgoing with ⟨reply, rfl⟩ | ⟨ip, target, rfl, rfl⟩
    · simp only [List.filter_singleton, startsWithCommand_reply]
      exact .nothing
    · cases reacts with
      | forwarded member payload decoded addressed bound =>
        rw [← startsWithCommand_eq] at payload
        simp only [List.filter_singleton, payload, serves]
        exact .packet serves read payload member decoded addressed bound

theorem deliveries_served (legal : (system zlib allocates names).Legal moment) (sender : Socket) :
    List.Sublist (((deliveries zlib moment).filter fun delivery => delivery.sender == sender).map Delivery.data)
      ((served sender moment).filter fun data => !startsWithCommand data) := by
  have passes := passes_deliveries legal
  generalize deliveries zlib moment = passed at passes
  cases passes with
  | nothing => exact List.nil_sublist _
  | @packet client receiver data packet ip serves read payload =>
    by_cases same : client = sender
    · subst same
      simp [read, payload]
    · simp [same]

/-- What the relay posts to a client, apart from its replies, is passed on to it. -/
theorem posted_payload (zlib : Zlib) (receiver : Socket) (moment : Instant) :
    (posted zlib receiver moment).filter (fun data => !startsWithCommand data) =
      ((deliveries zlib moment).filter fun delivery => delivery.receiver == receiver).map Delivery.data := by
  simp only [posted, deliveries, mailOf]
  induction mail zlib moment with
  | nil => rfl
  | cons message messages ih =>
    cases command : startsWithCommand message.2 with
    | true => by_cases same : message.1 = receiver <;> simp [same, command, ih]
    | false => by_cases same : message.1 = receiver <;> simp [same, command, ih]

theorem chronicle_posted (zlib : Zlib) (receiver : Socket) (history : List Instant) :
    (System.chronicle (posted zlib receiver) history).filter (fun data => !startsWithCommand data) =
      ((System.chronicle (deliveries zlib) history).filter fun delivery => delivery.receiver == receiver).map
        Delivery.data := by
  rw [System.chronicle_filter, System.chronicle_filter, System.chronicle_map]
  exact congrArg (System.chronicle · history) (funext (posted_payload zlib receiver))

theorem flatMap_arrived (messages : List Bytes) : messages.flatMap (arrived zlib allocates) =
    (messages.filter fun data => !startsWithCommand data).flatMap (arrived zlib allocates) := by
  induction messages with
  | nil => rfl
  | cons data messages ih => cases command : startsWithCommand data <;> simp [command, ih, arrived]

/-- The second of two clients. -/
def away : Name := ⟨"100.0.0.2".toList, ⟨by decide, by decide⟩⟩

def household : Socket → Name := fun socket => if socket = 1 then home else away

/-- Two clients join, and one sends the other a packet. -/
def call : List Event :=
  [.relay (.accept 1), .relay (.accept 2), .join 1, .serve 1, .join 2, .serve 2, .hear 1, .read 1,
    .packet 1 (StoredZlib.zlib.stream greeting), .serve 1, .hear 2, .hear 2]

/-- The interface of a receiver and its mail, against all that was passed on to it. -/
theorem injected_deliveries (run : (system zlib allocates names).Run history state) (receiver : Socket) :
    (state.sessions receiver).world.injected ++ (state.sessions receiver).replies.flatMap (arrived zlib allocates) =
      ((System.chronicle (deliveries zlib) history).filter fun delivery => delivery.receiver == receiver).flatMap
        (fun delivery => arrived zlib allocates delivery.data) := by
  rw [injected_logged run, ← List.flatMap_append, ← replies_conserved run, flatMap_arrived, chronicle_posted,
    List.flatMap_map]

theorem delivery_decoded (run : (system zlib allocates names).Run history state) {delivery : Delivery}
    (passed : delivery ∈ System.chronicle (deliveries zlib) history) :
    startsWithCommand delivery.data = false ∧ ∃ packet, zlib.decompress delivery.data = some packet := by
  obtain ⟨moment, member, inside⟩ := System.mem_chronicle.mp passed
  have passes := passes_deliveries (run.recorded member).2
  generalize deliveries zlib moment = now at passes inside
  cases passes with
  | nothing => cases inside
  | packet serves read payload holder decoded =>
    obtain rfl := List.mem_singleton.mp inside
    exact ⟨payload, _, decoded⟩

/-- A message with a packet that reaches the interface of its receiver whole. -/
structure Carries (zlib : Zlib) (allocates : Nat → Bool) (data : Bytes) : Prop where
  payload : startsWithCommand data = false
  decoded : ∃ packet, zlib.decompress data = some packet
  fits : Fits zlib allocates data

theorem Carries.arrived (lawful : zlib.Lawful) {data packet : Bytes} (carries : Carries zlib allocates data)
    (decoded : zlib.decompress data = some packet) : arrived zlib allocates data = [packet] := by
  obtain ⟨short, room⟩ := carries.fits packet decoded
  obtain ⟨whole, size⟩ := decompressZlib_size lawful decoded short
  rw [Peer.unpacked, size] at whole
  simp [Network.arrived, delivered, carries.payload, size, room, whole]

theorem map_arrived (lawful : zlib.Lawful) {messages : List Bytes}
    (carries : ∀ data ∈ messages, Carries zlib allocates data) :
    (messages.flatMap (arrived zlib allocates)).map some = messages.map zlib.decompress := by
  induction messages with
  | nil => rfl
  | cons data messages ih =>
    have first := carries data List.mem_cons_self
    obtain ⟨packet, decoded⟩ := first.decoded
    have later := ih fun other member => carries other (List.mem_cons_of_mem _ member)
    rw [List.flatMap_cons, first.arrived lawful decoded, List.map_append, later, List.map_cons (f := zlib.decompress),
      decoded]
    rfl

/-- End to end, over whole runs in which every packet that is passed on has at most 1500
bytes and finds a buffer of the driver: the packets on a client's interface, followed by
those in its mail, are exactly the packets passed on to it, in the order of their
passing. Those of any one sender are among the packets that it sent, in its order, each
at most once. -/
theorem packets_conserved (lawful : zlib.Lawful) (run : (system zlib allocates names).Run history state)
    (receiver : Socket) (fits : ∀ delivery ∈ System.chronicle (deliveries zlib) history,
      delivery.receiver = receiver → Fits zlib allocates delivery.data) :
    ∃ waiting : List Bytes,
      waiting.map some =
        ((state.sessions receiver).replies.filter fun data => !startsWithCommand data).map zlib.decompress ∧
      ((state.sessions receiver).world.injected ++ waiting).map some =
        ((System.chronicle (deliveries zlib) history).filter fun delivery => delivery.receiver == receiver).map
          (fun delivery => zlib.decompress delivery.data) ∧
      ∀ sender, List.Sublist
        (((System.chronicle (deliveries zlib) history).filter fun delivery => delivery.sender == sender).map Delivery.data)
        (System.chronicle (transmitted sender) history) := by
  have carries : ∀ data ∈ ((System.chronicle (deliveries zlib) history).filter fun delivery =>
      delivery.receiver == receiver).map Delivery.data, Carries zlib allocates data := by
    intro data member
    obtain ⟨delivery, passed, rfl⟩ := List.mem_map.mp member
    obtain ⟨passed, same⟩ := List.mem_filter.mp passed
    obtain ⟨payload, decoded⟩ := delivery_decoded run passed
    exact ⟨payload, decoded, fits delivery passed (beq_iff_eq.mp same)⟩
  have mailed : ∀ data ∈ (state.sessions receiver).replies.filter (fun data => !startsWithCommand data),
      Carries zlib allocates data := by
    intro data member
    rw [← chronicle_posted, replies_conserved run, List.filter_append] at carries
    exact carries data (List.mem_append_right _ member)
  refine ⟨(state.sessions receiver).replies.flatMap (arrived zlib allocates), ?_, ?_, ?_⟩
  · rw [flatMap_arrived, map_arrived lawful mailed]
  · rw [injected_deliveries run receiver, ← List.flatMap_map, map_arrived lawful carries, List.map_map]
    rfl
  · intro sender
    have passed := run.chronicle_sublist fun moment _ _ legal => deliveries_served legal sender
    rw [System.chronicle_filter, System.chronicle_map, chronicle_transmitted run, requests_conserved run,
      List.filter_append]
    rw [← System.chronicle_filter] at passed
    exact passed.trans (List.sublist_append_left _ _)

/-- A second packet of the first client waits in the mail of the second. -/
def secondCall : List Event := call ++ [.read 1, .packet 1 (StoredZlib.zlib.stream greeting), .serve 1]

theorem packets_conserved_call :
    let called := (system StoredZlib.zlib (fun _ => true) household).play secondCall
    (called.2.sessions 2).world.injected = [greeting] ∧
    (called.2.sessions 2).replies = [StoredZlib.zlib.stream greeting] ∧
    ∃ waiting : List Bytes,
      waiting.map some = ((called.2.sessions 2).replies.filter fun data => !startsWithCommand data).map
        StoredZlib.zlib.decompress ∧
      ((called.2.sessions 2).world.injected ++ waiting).map some =
        ((System.chronicle (deliveries StoredZlib.zlib) called.1).filter fun delivery => delivery.receiver == 2).map
          (fun delivery => StoredZlib.zlib.decompress delivery.data) ∧
      ∀ sender, List.Sublist (((System.chronicle (deliveries StoredZlib.zlib) called.1).filter fun delivery =>
        delivery.sender == sender).map Delivery.data) (System.chronicle (transmitted sender) called.1) :=
  ⟨by decide +kernel, by decide +kernel, packets_conserved StoredZlib.lawful
    ((system StoredZlib.zlib (fun _ => true) household).run_play secondCall) 2 (by decide +kernel)⟩

/-- A held address is the connection's own. -/
theorem held_own {lobbyList : Relay.Lobby} (own : Own names lobbyList) (member : Holds lobbyList socket) :
    lobbyList.get? (names socket).text = some socket := by
  obtain ⟨ip, bound⟩ := member
  rw [← (own ip socket bound).1]
  exact bound

/-- What a handler reads was sent by its client before. -/
theorem served_written (run : (system zlib allocates names).Run history state)
    (legal : (system zlib allocates names).Legal moment) (before : state = moment.before) {data : Bytes}
    (read : data ∈ served socket moment) : data ∈ System.chronicle (written socket) history := by
  subst before
  rw [requests_conserved run]
  apply List.mem_append_right
  have balanced := (balance legal socket).requests
  obtain ⟨before, event, ⟨⟩, after⟩ := moment
  cases event with
  | serve client =>
    by_cases own : client = socket
    · simp only [served, own, if_true, Option.mem_toList] at read
      exact List.mem_of_mem_head? read
    · rw [served_other (.serve client) (Ne.symm own)] at read
      cases read
  | relay | join | list | leave | read | packet | hear => cases read

/-- Where a step handles one message, every packet that the relay passes on was sent
before by the client of a connection that holds its own address, is addressed to the
receiver's name, and goes to the connection that holds this name. -/
theorem delivery_authorized (run : (system zlib allocates names).Run history state) {delivery : Delivery}
    (passed : delivery ∈ System.chronicle (deliveries zlib) history) :
    ∃ newer moment older, history = newer ++ moment :: older ∧ moment.event = .serve delivery.sender ∧
      delivery.data ∈ System.chronicle (transmitted delivery.sender) older ∧
      moment.before.relay.lobbyList.get? (names delivery.sender).text = some delivery.sender ∧
      moment.before.relay.lobbyList.get? (names delivery.receiver).text = some delivery.receiver ∧
      ∃ packet, zlib.decompress delivery.data = some packet ∧
        getDestinationIp packet = .ok (some (names delivery.receiver).text) := by
  obtain ⟨moment, member, inside⟩ := System.mem_chronicle.mp passed
  obtain ⟨newer, older, rfl⟩ := List.mem_iff_append.mp member
  obtain ⟨past, legal⟩ := run.earlier
  have own := (valid_of_reached ⟨older, past⟩).own
  have passes := passes_deliveries legal
  generalize deliveries zlib moment = now at passes inside
  cases passes with
  | nothing => cases inside
  | @packet sender receiver data packet ip serves read payload holder decoded addressed bound =>
    obtain rfl := List.mem_singleton.mp inside
    obtain ⟨rfl, _⟩ := own ip receiver bound
    refine ⟨newer, moment, older, rfl, serves, ?_, held_own own holder, bound, packet, decoded, addressed⟩
    rw [chronicle_transmitted past]
    apply List.mem_filter.mpr
    have listed : data ∈ served sender moment := read ▸ List.mem_singleton_self data
    exact ⟨served_written past legal rfl listed, by simp [payload]⟩

theorem delivery_authorized_call :
    let called := (system StoredZlib.zlib (fun _ => true) household).play call
    let delivery : Delivery := ⟨1, 2, StoredZlib.zlib.stream greeting⟩
    ∃ newer moment older, called.1 = newer ++ moment :: older ∧ moment.event = .serve delivery.sender ∧
      delivery.data ∈ System.chronicle (transmitted delivery.sender) older ∧
      moment.before.relay.lobbyList.get? (household delivery.sender).text = some delivery.sender ∧
      moment.before.relay.lobbyList.get? (household delivery.receiver).text = some delivery.receiver ∧
      ∃ packet, StoredZlib.zlib.decompress delivery.data = some packet ∧
        getDestinationIp packet = .ok (some (household delivery.receiver).text) :=
  delivery_authorized ((system StoredZlib.zlib (fun _ => true) household).run_play call) (by decide +kernel)

theorem routable_forwarded {relay : Relay.State} {sender receiver : Socket} {data : Bytes} (message : data ≠ [])
    (payload : startsWithCommand data = false) (able : routable zlib relay sender receiver data = true) :
    receiver ∉ relay.closed ∧ ∃ ip, react zlib relay.lobbyList sender data = .forwarded ip receiver := by
  simp only [routable, Bool.and_eq_true, Bool.not_eq_true', List.contains_eq_mem, decide_eq_false_iff_not] at able
  obtain ⟨⟨member, opened⟩, target⟩ := able
  refine ⟨opened, ?_⟩
  split at target
  next => cases target
  next packet decoded =>
    split at target
    next ip addressed =>
      have bound := beq_iff_eq.mp target
      have plain := (startsWithCommand_eq data).symm.trans payload
      exact ⟨ip, react_forwarded message (isClientJoin_iff.mp member) plain decoded addressed bound⟩
    next => cases target

theorem deliveries_routable (legal : (system zlib allocates names).Legal moment) {sender receiver : Socket} {data : Bytes}
    (read : served sender moment = [data]) (message : data ≠ []) (payload : startsWithCommand data = false)
    (able : routable zlib moment.before.relay sender receiver data = true) :
    deliveries zlib moment = [⟨sender, receiver, data⟩] := by
  obtain ⟨before, event, ⟨⟩, after⟩ := moment
  have stepped := legal_step legal
  obtain ⟨opened, ip, forwarded⟩ := routable_forwarded message payload able
  cases event with
  | relay | join | list | leave | read | packet | hear => cases read
  | serve client =>
    by_cases own : client = sender
    · subst own
      simp only [served, if_true] at read
      simp only [step] at stepped
      split at stepped
      next => cases stepped
      next head requests waiting =>
        obtain rfl : head = data := by simpa [waiting] using read
        obtain ⟨⟨final, output⟩, taken, _⟩ := Option.map_eq_some_iff.mp stepped
        have taken : Relay.step zlib before.relay (.receive client head everyone) = some (final, output) := taken
        have sends : mail zlib ⟨before, .serve client, (), after⟩ = output.sent := by
          simp [mail, relayEvent, waiting, taken]
        have accepted : takes everyone before.relay.closed (receiver, head) = true := by
          simpa [takes, everyone] using opened
        cases steps_of_step taken with
        | receive running short same reacts =>
          obtain rfl := same.symm.trans forwarded
          simp [deliveries, sends, Reaction.output, Reaction.sent, Reaction.outgoing, Option.filter, accepted, payload,
            Event.socket]
    · rw [served_other (.serve client) (Ne.symm own)] at read
      cases read

theorem plain_message {name : Name} {data : Bytes} (plain : Plain name data) : data ≠ [] := by
  rcases plain with ⟨verb, rfl⟩ | ⟨message, _⟩
  · intro empty
    have starts := (request_asks name verb).1
    rw [empty] at starts
    cases starts
  · exact message

theorem deliveries_from (reached : (system zlib allocates names).Reachable moment.before)
    (legal : (system zlib allocates names).Legal moment) {sender receiver : Socket}
    (routed : ∀ data ∈ served sender moment, startsWithCommand data = false →
      routable zlib moment.before.relay sender receiver data = true) :
    (served sender moment).filter (fun data => !startsWithCommand data) =
      ((deliveries zlib moment).filter fun delivery =>
        delivery.sender == sender && delivery.receiver == receiver).map Delivery.data := by
  have single : served sender moment = [] ∨ ∃ data, served sender moment = [data] ∧ data ≠ [] := by
    obtain ⟨before, event, ⟨⟩, after⟩ := moment
    cases event with
    | relay | join | list | leave | read | packet | hear => exact Or.inl rfl
    | serve client =>
      by_cases own : client = sender
      · subst own
        cases waiting : (before.sessions client).requests with
        | nil => exact Or.inl (by simp [served, waiting])
        | cons data requests =>
          refine Or.inr ⟨data, by simp [served, waiting], ?_⟩
          have plain := ((valid_of_reached reached).kept client).plain data (by simp [waiting])
          exact plain_message plain
      · exact Or.inl (served_other (.serve client) (Ne.symm own))
  have within := deliveries_served legal sender
  rcases single with nothing | ⟨data, read, message⟩
  · rw [nothing, List.filter_nil] at within ⊢
    have empty := List.map_eq_nil_iff.mp (List.sublist_nil.mp within)
    rw [← List.filter_filter, List.filter_comm, empty]
    rfl
  · cases payload : startsWithCommand data with
    | true =>
      rw [read, List.filter_singleton, payload] at within ⊢
      have empty := List.map_eq_nil_iff.mp (List.sublist_nil.mp within)
      rw [← List.filter_filter, List.filter_comm, empty]
      rfl
    | false =>
      have able := routed data (read ▸ List.mem_singleton_self data) payload
      simp [deliveries_routable legal read message payload able, read, payload]

theorem packets_lossless (run : (system zlib allocates names).Run history state) {sender receiver : Socket}
    (routed : ∀ moment ∈ history, ∀ data ∈ served sender moment, startsWithCommand data = false →
      routable zlib moment.before.relay sender receiver data = true) :
    System.chronicle (transmitted sender) history =
      (((System.chronicle (deliveries zlib) history).filter fun delivery =>
        delivery.sender == sender && delivery.receiver == receiver).map Delivery.data) ++
      ((state.sessions sender).requests.filter fun data => !startsWithCommand data) := by
  rw [chronicle_transmitted run, requests_conserved run, List.filter_append, System.chronicle_filter,
    System.chronicle_filter, System.chronicle_map]
  have same := run.chronicle_congr fun moment member reached legal =>
    deliveries_from reached legal (routed moment member)
  rw [same]

/-- While its packets can be passed on, everything that a client sends arrives, if each
packet has at most 1500 bytes and finds a buffer of the driver: once nothing is under
way, the receiver's interface has had all of its packets, in the order of their sending. -/
theorem session_delivers (lawful : zlib.Lawful) (run : (system zlib allocates names).Run history state)
    {sender receiver : Socket} {packets : List Bytes}
    (sent : System.chronicle (transmitted sender) history = packets.map zlib.stream)
    (short : ∀ packet ∈ packets, packet.length ≤ 1500 ∧ allocates packet.length = true)
    (routed : ∀ moment ∈ history, ∀ data ∈ served sender moment, startsWithCommand data = false →
      routable zlib moment.before.relay sender receiver data = true)
    (calm : (state.sessions sender).requests = [] ∧ (state.sessions receiver).replies = []) :
    List.Sublist packets (state.sessions receiver).world.injected := by
  have conserved := injected_deliveries run receiver
  have arrives : ∀ packet ∈ packets, arrived zlib allocates (zlib.stream packet) = [packet] := by
    intro packet member
    have small := (short packet member).1
    have payload := lawful.stream_payload (Nat.le_trans small (by decide))
    have restored := lawful.restored packet (Nat.le_trans small (by decide))
    refine Carries.arrived lawful ⟨by rw [startsWithCommand_eq, payload], ⟨packet, restored⟩, ?_⟩ restored
    intro other same
    cases restored.symm.trans same
    exact short packet member
  have all : packets = (packets.map zlib.stream).flatMap (arrived zlib allocates) := by
    rw [List.flatMap_map, List.flatMap_congr arrives]
    simp
  rw [calm.2, List.flatMap_nil, List.append_nil] at conserved
  rw [conserved, all, ← sent, packets_lossless run routed, calm.1, List.filter_nil, List.append_nil, List.flatMap_map]
  apply List.Sublist.flatMap
  exact List.monotone_filter_right _ fun delivery both => (Bool.and_eq_true_iff.mp both).2

theorem session_delivers_call :
    let called := (system StoredZlib.zlib (fun _ => true) household).play call
    List.Sublist [greeting] (called.2.sessions 2).world.injected :=
  @session_delivers StoredZlib.zlib (fun _ => true) household _ _ StoredZlib.lawful
    ((system StoredZlib.zlib (fun _ => true) household).run_play call) 1 2 [greeting] (by decide +kernel) (by decide) (by decide +kernel) (by decide +kernel)

end VirtualLan.Network
