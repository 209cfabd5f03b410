import VirtualLan.Proofs.Agreement
import VirtualLan.Proofs.Forgery
import VirtualLan.Proofs.Lifetime

/-! What a round of `checkConnection` does for a client that the relay no longer
knows. The commands of the round and their replies may pass in any order of
sending, serving and hearing; only the served commands and the heard replies
matter in the end. -/

namespace VirtualLan.Network
open Program Peer Relay

/-- The client starts a round or sends its later part, the relay takes its next
command, or the client takes its next reply. -/
inductive Turn where
  | check
  | members
  | serve
  | hear

def Turn.sends : Turn → Bool
  | .check | .members => true
  | .serve | .hear => false

/-- A round up to its next sleep, for a client whose sends succeed. -/
def startRound : Cpp Unit := do
  let _ ← checkConnection false true
  return ()

section System
variable (zlib : Zlib) (allocates : Nat → Bool) (socket : Socket)

def turn (state : State) : Turn → Option State
  | .check => clientStep state socket (perform startRound (state.sessions socket))
  | .members => step zlib allocates state (.list socket)
  | .serve => step zlib allocates state (.serve socket)
  | .hear => step zlib allocates state (.hear socket)

/-- Whether a round goes on with `getLobbyMembers` two seconds later. -/
def continues (world : Peer.World) : Bool :=
  match (run (checkConnection false true) world).1 with
  | .ok more => more
  | .error _ => false

/-- A whole round and nothing else, until all its commands are served and all
replies heard. -/
structure Exchange (state : State) (turns : List Turn) (final : State) : Prop where
  played : turns.foldlM (turn zlib allocates socket) state = some final
  round : turns.filter Turn.sends = .check :: if continues (state.sessions socket).world then [.members] else []
  served : (final.sessions socket).requests = []
  heard : (final.sessions socket).replies = []

/-- The relay and the client's flag once all commands are served and all replies
heard. -/
def settle (relay : Relay.State) (join : Bool) : List Bytes → Option (Relay.State × Bool)
  | [] => some (relay, join)
  | data :: requests =>
    match Relay.step zlib relay (.receive socket data everyone) with
    | none => none
    | some (after, output) => settle after ((mailOf output.sent socket).foldl Peer.heard join) requests

end System

/-- A connected client with nothing under way. -/
structure Idle (name : Name) (session : Session) : Prop where
  connected : session.world.server.connected = true
  unsent : session.world.sent = []
  named : session.world.lobby.myip = encode name.text
  served : session.requests = []
  heard : session.replies = []

variable {zlib : Zlib} {allocates : Nat → Bool} {socket : Socket} {name : Name} {state next final : State}

theorem Idle.kept {session : Session} (idle : Idle name session) : Kept name session := by
  refine ⟨idle.connected, idle.unsent, idle.named, ?_⟩
  rw [idle.served]
  exact nofun

theorem continues_eq {world : Peer.World} (connected : world.server.connected = true) :
    continues world = !world.lobby.join := by
  rw [continues, checkConnection_run, if_pos connected]
  cases world.lobby.join <;> rfl

theorem perform_startRound {session : Session} (connected : session.world.server.connected = true) :
    perform startRound session =
      if session.world.lobby.join then perform (getLobbyMembers true) session else perform (joinRequest true) session := by
  have after : (run startRound session.world).2 = (run (checkConnection false true) session.world).2 := by
    simp only [startRound, run_bind, checkConnection_run, if_pos connected]
    cases session.world.lobby.join <;> rfl
  rw [perform, after, checkConnection_run, if_pos connected]
  cases session.world.lobby.join <;> rfl

theorem present_of_running (running : state.relay.phase socket = .running) : state.relay.phase socket ≠ .absent := by
  intro absent
  cases running.symm.trans absent

theorem clientStep_present (present : state.relay.phase socket ≠ .absent) (session : Session) :
    ∃ next, clientStep state socket session = some next ∧ next.relay = state.relay ∧ next.sessions socket = session :=
  ⟨_, if_neg present, rfl, Function.update_self ..⟩

theorem clientStep_some {session : Session} (stepped : clientStep state socket session = some next) :
    next.relay = state.relay ∧ next.sessions socket = session := by
  simp only [clientStep, Option.ite_none_left_eq_some, Option.some.injEq] at stepped
  obtain ⟨_, rfl⟩ := stepped
  exact ⟨rfl, Function.update_self ..⟩

variable (zlib socket) in
/-- What is left to settle, with the commands that the client will still send. -/
def remaining (state : State) (later : List Bytes) : Option (Relay.State × Bool) :=
  settle zlib socket state.relay (pending (state.sessions socket)) ((state.sessions socket).requests ++ later)

/-- No turn changes what there is to settle: a sent command was still to be sent,
a served one is replaced by its replies, and a heard reply by its effect. -/
theorem turn_remaining (kept : Kept name (state.sessions socket)) {now : Turn}
    (stepped : turn zlib allocates socket state now = some next) (begun : now ≠ .check) (later : List Bytes) :
    Kept name (next.sessions socket) ∧
      remaining zlib socket next later =
        remaining zlib socket state (if now.sends then request name .list :: later else later) := by
  cases now with
  | check => exact absurd rfl begun
  | members =>
    simp only [turn, step, perform_getLobbyMembers kept] at stepped
    obtain ⟨relay, session⟩ := clientStep_some stepped
    refine ⟨session ▸ ⟨kept.connected, kept.unsent, kept.named, plain_snoc kept (Or.inl ⟨_, rfl⟩)⟩, ?_⟩
    simp only [remaining, relay, session, pending, Turn.sends, if_true, List.append_assoc, List.singleton_append]
  | serve =>
    simp only [turn, step] at stepped
    split at stepped
    next => cases stepped
    next data requests waiting =>
      obtain ⟨⟨relay, output⟩, relayed, rfl⟩ := Option.map_eq_some_iff.mp stepped
      have served : Relay.step zlib state.relay (.receive socket data everyone) = some (relay, output) := relayed
      have plain : ∀ message ∈ requests, Plain name message := by
        intro message member
        exact kept.plain message (waiting ▸ List.mem_cons_of_mem _ member)
      simp only [remaining, Function.update_self, Turn.sends, Bool.false_eq_true, if_false]
      refine ⟨⟨kept.connected, kept.unsent, kept.named, plain⟩, ?_⟩
      rw [pending_post, waiting, List.cons_append, settle, served]
      rfl
  | hear =>
    simp only [turn, step] at stepped
    split at stepped
    next => cases stepped
    next data replies waiting =>
      obtain ⟨server, sent, named, flag⟩ := hear_world zlib allocates data (state.sessions socket).world
      obtain ⟨relay, session⟩ := clientStep_some stepped
      refine ⟨session ▸ ⟨?_, sent.trans kept.unsent, named.trans kept.named, kept.plain⟩, ?_⟩
      · exact (congrArg Server.connected server).trans kept.connected
      · simp only [remaining, relay, session, pending, waiting, Turn.sends, flag, List.foldl_cons, Bool.false_eq_true,
          if_false]

theorem turns_remaining {turns : List Turn} (begun : ∀ now ∈ turns, now ≠ .check)
    (kept : Kept name (state.sessions socket)) (played : turns.foldlM (turn zlib allocates socket) state = some final) :
    remaining zlib socket state ((turns.filter Turn.sends).map fun _ => request name .list) =
      remaining zlib socket final [] := by
  induction turns generalizing state with
  | nil =>
    cases played
    rfl
  | cons now turns ih =>
    rw [List.foldlM_cons, Option.bind_eq_bind, Option.bind_eq_some_iff] at played
    obtain ⟨next, stepped, played⟩ := played
    obtain ⟨after, same⟩ := turn_remaining kept stepped (begun now List.mem_cons_self)
      ((turns.filter Turn.sends).map fun _ => request name .list)
    rw [← ih (fun later member => begun later (List.mem_cons_of_mem _ member)) after played, same, List.filter_cons]
    split <;> simp_all

/-- The commands of a round that finds the flag as it is. -/
def commands (name : Name) (join : Bool) : List Bytes :=
  if join then [request name .list] else [request name .join, request name .list]

/-- However a round passes, it ends as if its commands were served one by one. -/
theorem Exchange.settles {turns : List Turn} (exchange : Exchange zlib allocates socket state turns final)
    (idle : Idle name (state.sessions socket)) :
    settle zlib socket state.relay (state.sessions socket).world.lobby.join
        (commands name (state.sessions socket).world.lobby.join) =
      some (final.relay, (final.sessions socket).world.lobby.join) := by
  obtain ⟨played, round, served, heard⟩ := exchange
  rw [continues_eq idle.connected] at round
  cases turns with
  | nil => cases round
  | cons first turns =>
    rw [List.foldlM_cons, Option.bind_eq_bind, Option.bind_eq_some_iff] at played
    obtain ⟨next, stepped, played⟩ := played
    have ends : remaining zlib socket final [] = some (final.relay, (final.sessions socket).world.lobby.join) := by
      simp only [remaining, served, pending, heard]
      rfl
    cases first with
    | members => cases round
    | serve => simp [turn, step, idle.served] at stepped
    | hear => simp [turn, step, idle.heard] at stepped
    | check =>
      have rest : turns.filter Turn.sends = if !(state.sessions socket).world.lobby.join then [.members] else [] :=
        (List.cons.inj round).2
      have begun : ∀ now ∈ turns, now ≠ .check := by
        rintro now member rfl
        have inside : Turn.check ∈ turns.filter Turn.sends := List.mem_filter.mpr ⟨member, rfl⟩
        rw [rest] at inside
        cases (state.sessions socket).world.lobby.join <;> simp at inside
      simp only [turn, perform_startRound idle.connected, perform_getLobbyMembers idle.kept,
        perform_joinRequest idle.kept] at stepped
      obtain ⟨relay, session⟩ := clientStep_some stepped
      have kept : Kept name (next.sessions socket) := by
        rw [session]
        split
        · exact ⟨idle.connected, idle.unsent, idle.named, plain_snoc idle.kept (Or.inl ⟨_, rfl⟩)⟩
        · exact ⟨idle.connected, idle.unsent, idle.named, plain_snoc idle.kept (Or.inl ⟨_, rfl⟩)⟩
      rw [← ends, ← turns_remaining begun kept played, rest, remaining, relay, session]
      cases flag : (state.sessions socket).world.lobby.join <;>
        simp [pending, idle.served, idle.heard, flag, commands]

variable {relay : Relay.State} {join : Bool} {b c d : UInt8}

theorem request_short {verb : Verb} : (request (address b c d) verb).length ≤ 1500 := by
  have size := request_length (address b c d) verb
  have text : (address b c d).text.length ≤ 15 := isValidIpv4_length (isValidIpv4_dotted 100 b c d)
  omega

theorem settle_answered {verb : Verb} {reaction : Reaction} (reply : Reply) {requests : List Bytes}
    {result : Relay.State × Bool} (reached : (Relay.system zlib).Reachable relay)
    (settled : settle zlib socket relay join (request (address b c d) verb :: requests) = some result)
    (same : react zlib relay.lobbyList socket (request (address b c d) verb) = reaction)
    (outgoing : reaction.outgoing relay.lobbyList socket (request (address b c d) verb) = some (socket, reply.bytes)) :
    (Relay.system zlib).Reachable { relay with lobbyList := reaction.lobby relay.lobbyList socket } ∧
      settle zlib socket { relay with lobbyList := reaction.lobby relay.lobbyList socket } ((meaning reply).flag join)
        requests = some result := by
  have running : relay.phase socket = .running := by
    by_contra stopped
    rw [settle, step_receive, if_neg (fun both => stopped both.1)] at settled
    cases settled
  have opened : socket ∉ relay.closed := by
    intro member
    cases running.symm.trans (reachable_closed reached socket member)
  have stepped : (Relay.system zlib).step relay (.receive socket (request (address b c d) verb) everyone) = _ :=
    step_answered running opened request_short same outgoing
  refine ⟨reached.next stepped, ?_⟩
  rw [settle, step_answered running opened request_short same outgoing] at settled
  simpa [mailOf, heard_reply] using settled

/-- The members command leaves the flag and the lobby as they are. -/
theorem settle_list {result : Relay.State × Bool} (reached : (Relay.system zlib).Reachable relay)
    (settled : settle zlib socket relay join [request (address b c d) .list] = some result) :
    result.2 = join ∧ result.1.lobbyList = relay.lobbyList := by
  have asks := request_asks (address b c d) .list
  have valid : isValidIpv4 (address b c d).text = .ok true := isValidIpv4_dotted 100 b c d
  by_cases granted : Granted relay.lobbyList socket (address b c d).text .list
  · have listed : some (socket, encode (listReply relay.lobbyList)) =
        some (socket, (Reply.listed relay.lobbyList.keys).bytes) := by rw [listReply_bytes]
    obtain ⟨_, rest⟩ := settle_answered _ reached settled (react_granted asks valid granted) listed
    cases rest
    exact ⟨rfl, rfl⟩
  · obtain ⟨_, rest⟩ := settle_answered (.refused .list) reached settled (react_denied asks valid granted) rfl
    cases rest
    exact ⟨rfl, rfl⟩

/-- A round that joins ends with the flag set only for a bound address. -/
theorem settle_join {result : Relay.State × Bool} (reached : (Relay.system zlib).Reachable relay)
    (settled : settle zlib socket relay false (commands (address b c d) false) = some result) (set : result.2 = true) :
    result.1.lobbyList.get? (address b c d).text = some socket := by
  have asks := request_asks (address b c d) .join
  have valid : isValidIpv4 (address b c d).text = .ok true := isValidIpv4_dotted 100 b c d
  by_cases granted : Granted relay.lobbyList socket (address b c d).text .join
  · obtain ⟨later, rest⟩ := settle_answered .joined reached settled (react_granted asks valid granted) rfl
    rw [(settle_list later rest).2]
    exact (Dict.get?_set ..).trans (if_pos rfl)
  · obtain ⟨later, rest⟩ := settle_answered (.refused .join) reached settled (react_denied asks valid granted) rfl
    have kept : result.2 = false := (settle_list later rest).1
    cases kept.symm.trans set

/-- A round that starts with a stale flag ends with it. -/
theorem Exchange.stale {turns : List Turn} (exchange : Exchange zlib allocates socket state turns final)
    (reached : (Relay.system zlib).Reachable state.relay) (idle : Idle (address b c d) (state.sessions socket))
    (set : (state.sessions socket).world.lobby.join = true) :
    (final.sessions socket).world.lobby.join = true ∧ final.relay.lobbyList = state.relay.lobbyList := by
  have settled := exchange.settles idle
  rw [set] at settled
  exact settle_list reached settled

/-- A client that the relay does not know finds out in one round exactly when its
flag is not set at the start: the members command's refusal is not listened to. -/
theorem exchange_resyncs_iff {turns : List Turn} (exchange : Exchange zlib allocates socket state turns final)
    (reached : (Relay.system zlib).Reachable state.relay) (idle : Idle (address b c d) (state.sessions socket))
    (missing : state.relay.lobbyList.get? (address b c d).text ≠ some socket) :
    ((final.sessions socket).world.lobby.join = true →
      final.relay.lobbyList.get? (address b c d).text = some socket) ↔
      (state.sessions socket).world.lobby.join = false := by
  constructor
  · intro resynced
    by_contra stale
    obtain ⟨set, kept⟩ := exchange.stale reached idle (Bool.not_eq_false _ ▸ stale)
    exact missing (kept ▸ resynced set)
  · intro clear set
    have settled := exchange.settles idle
    rw [clear, set] at settled
    exact settle_join reached settled rfl

theorem request_answered (lobbyList : Relay.Lobby) (socket : Socket) (verb : Verb) :
    ∃ (reaction : Reaction) (reply : Reply), react zlib lobbyList socket (request (address b c d) verb) = reaction ∧
      reaction.outgoing lobbyList socket (request (address b c d) verb) = some (socket, reply.bytes) := by
  have asks := request_asks (address b c d) verb
  have valid : isValidIpv4 (address b c d).text = .ok true := isValidIpv4_dotted 100 b c d
  by_cases granted : Granted lobbyList socket (address b c d).text verb
  · cases verb with
    | join => exact ⟨_, .joined, react_granted asks valid granted, rfl⟩
    | leave => exact ⟨_, .left, react_granted asks valid granted, rfl⟩
    | list =>
      refine ⟨_, .listed lobbyList.keys, react_granted asks valid granted, ?_⟩
      rw [← listReply_bytes]
      rfl
  · exact ⟨_, .refused verb, react_denied asks valid granted, rfl⟩

theorem serve_turn {verb : Verb} {requests : List Bytes} (running : state.relay.phase socket = .running)
    (opened : socket ∉ state.relay.closed)
    (waiting : (state.sessions socket).requests = request (address b c d) verb :: requests) :
    ∃ next reply, turn zlib allocates socket state .serve = some next ∧ next.relay.phase socket = .running ∧
      socket ∉ next.relay.closed ∧ next.sessions socket = { state.sessions socket with
        requests := requests, replies := (state.sessions socket).replies ++ [Reply.bytes reply] } := by
  obtain ⟨reaction, reply, same, outgoing⟩ := @request_answered zlib b c d state.relay.lobbyList socket verb
  have stepped := step_answered running opened request_short same outgoing
  refine ⟨⟨{ state.relay with lobbyList := reaction.lobby state.relay.lobbyList socket }, fun other =>
    post [(socket, reply.bytes)] other (Function.update state.sessions socket
      { state.sessions socket with requests := requests } other)⟩, reply, ?_, running, opened, ?_⟩
  · simp only [turn, step, waiting, relayStep, stepped, Option.map_some]
  · simp [post, mailOf]

theorem hear_turn {data : Bytes} {replies : List Bytes} (running : state.relay.phase socket = .running)
    (waiting : (state.sessions socket).replies = data :: replies) :
    ∃ next, turn zlib allocates socket state .hear = some next ∧ next.relay = state.relay ∧
      (next.sessions socket).requests = (state.sessions socket).requests ∧
      (next.sessions socket).replies = replies := by
  simp only [turn, step, waiting]
  obtain ⟨next, heard, relay, session⟩ := clientStep_present (present_of_running running) _
  exact ⟨next, heard, relay, by rw [session], by rw [session]⟩

/-- A client whose handler is in its loop gets through a round. -/
theorem exchange_exists (running : state.relay.phase socket = .running) (opened : socket ∉ state.relay.closed)
    (idle : Idle (address b c d) (state.sessions socket)) :
    ∃ turns final, Exchange zlib allocates socket state turns final := by
  have present := present_of_running running
  obtain ⟨first, checked, relay, session⟩ := clientStep_present present (perform startRound (state.sessions socket))
  have checked : turn zlib allocates socket state .check = some first := checked
  rw [perform_startRound idle.connected] at session
  cases flag : (state.sessions socket).world.lobby.join with
  | true =>
    rw [if_pos flag, perform_getLobbyMembers idle.kept, idle.served] at session
    obtain ⟨second, reply, served, running, opened, session'⟩ := @serve_turn zlib allocates socket first b c d .list []
      (relay ▸ running) (relay ▸ opened) (by rw [session]; rfl)
    rw [session, idle.heard] at session'
    obtain ⟨third, heard, _, requests, replies⟩ := @hear_turn zlib allocates socket second reply.bytes [] running
      (by rw [session']; rfl)
    refine ⟨[.check, .serve, .hear], third, ?_, ?_, by rw [requests, session'], replies⟩
    · simp [checked, served, heard]
    · rw [continues_eq idle.connected, flag]
      rfl
  | false =>
    rw [if_neg (flag ▸ Bool.false_ne_true), perform_joinRequest idle.kept] at session
    have kept : Kept (address b c d) (first.sessions socket) := by
      rw [session]
      exact ⟨idle.connected, idle.unsent, idle.named, plain_snoc idle.kept (Or.inl ⟨_, rfl⟩)⟩
    rw [idle.served] at session
    obtain ⟨second, listed, relay', session'⟩ :=
      clientStep_present (relay ▸ present) (perform (getLobbyMembers true) (first.sessions socket))
    have listed : turn zlib allocates socket first .members = some second := listed
    rw [perform_getLobbyMembers kept, session] at session'
    rw [relay] at relay'
    obtain ⟨third, one, served, running, opened, sessionThird⟩ := @serve_turn zlib allocates socket second b c d .join
      [request (address b c d) .list] (relay' ▸ running) (relay' ▸ opened) (by rw [session']; rfl)
    rw [session', idle.heard] at sessionThird
    obtain ⟨fourth, two, served', running, opened, sessionFourth⟩ := @serve_turn zlib allocates socket third b c d .list
      [] running opened (by rw [sessionThird])
    rw [sessionThird] at sessionFourth
    obtain ⟨fifth, heard, relayFifth, requests, replies⟩ := @hear_turn zlib allocates socket fourth one.bytes
      [two.bytes] running (by rw [sessionFourth]; rfl)
    obtain ⟨sixth, heard', _, requests', replies'⟩ := @hear_turn zlib allocates socket fifth two.bytes []
      (relayFifth ▸ running) replies
    refine ⟨[.check, .members, .serve, .serve, .hear, .hear], sixth, ?_, ?_, ?_, replies'⟩
    · simp [checked, listed, served, served', heard, heard']
    · rw [continues_eq idle.connected, flag]
      rfl
    · rw [requests', requests, sessionFourth]

/-- The first connection of `eviction` as its client is once it has handled all
that the relay sent to it. -/
def evicted : State where
  relay := ((Relay.system StoredZlib.zlib).play eviction).2
  sessions _ := { start (address 0 0 1) with
    world := (handleEach StoredZlib.zlib (fun _ => true) (start (address 0 0 1)).world
      (inbox ((Relay.system StoredZlib.zlib).play eviction).1 1)).2 }

theorem evicted_world : (evicted.sessions 1).world =
    { (start (address 0 0 1)).world with lobby := ⟨[], encode (address 0 0 1).text, true⟩ } := by
  have mail : inbox ((Relay.system StoredZlib.zlib).play eviction).1 1 = [Reply.joined.bytes] := by decide
  simp only [evicted, mail, handleEach, callback_reply, andThen_ok]
  rfl

theorem evicted_idle : Idle (address 0 0 1) (evicted.sessions 1) := by
  refine ⟨?_, ?_, ?_, rfl, rfl⟩ <;> rw [evicted_world] <;> rfl

theorem evicted_missing : evicted.relay.lobbyList.get? (address 0 0 1).text ≠ some 1 := by decide

theorem exchange_resyncs_iff_evicted : ∃ turns final,
    Exchange StoredZlib.zlib (fun _ => true) 1 evicted turns final ∧
    (((final.sessions 1).world.lobby.join = true → final.relay.lobbyList.get? (address 0 0 1).text = some 1) ↔
      (evicted.sessions 1).world.lobby.join = false) := by
  obtain ⟨turns, final, exchange⟩ :=
    @exchange_exists StoredZlib.zlib (fun _ => true) 1 evicted 0 0 1 (by decide) (by decide) evicted_idle
  exact ⟨turns, final, exchange, exchange_resyncs_iff exchange ((Relay.system StoredZlib.zlib).reachable_play eviction)
    evicted_idle evicted_missing⟩

/-- It asks for the members, is refused, and believes on. -/
theorem evicted_stays : (Relay.system StoredZlib.zlib).Reachable evicted.relay ∧
    Idle (address 0 0 1) (evicted.sessions 1) ∧ evicted.relay.lobbyList.get? (address 0 0 1).text ≠ some 1 ∧
    ∃ turns final, Exchange StoredZlib.zlib (fun _ => true) 1 evicted turns final ∧
      (final.sessions 1).world.lobby.join = true ∧
      final.relay.lobbyList.get? (address 0 0 1).text ≠ some 1 := by
  have reached := (Relay.system StoredZlib.zlib).reachable_play eviction
  refine ⟨reached, evicted_idle, evicted_missing, ?_⟩
  obtain ⟨turns, final, exchange⟩ :=
    @exchange_exists StoredZlib.zlib (fun _ => true) 1 evicted 0 0 1 (by decide) (by decide) evicted_idle
  obtain ⟨set, kept⟩ := exchange.stale reached evicted_idle (by rw [evicted_world])
  exact ⟨turns, final, exchange, set, kept ▸ evicted_missing⟩

end VirtualLan.Network
