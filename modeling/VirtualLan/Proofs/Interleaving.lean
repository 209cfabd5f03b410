import VirtualLan.Library.Interleaving
import VirtualLan.Proofs.Addresses
import VirtualLan.Proofs.Requests
import VirtualLan.Proofs.Routing

/-! Honest clients do not notice each other. A client that keeps to one address
of its own is answered from its own membership, so the order in which the relay
takes the commands of several such clients makes no difference to any of them. -/

namespace VirtualLan.Relay
open Interleaving

/-- An address that the relay accepts. -/
structure Accepted where
  text : Str
  valid : isValidIpv4 text = .ok true

def Accepted.name (address : Accepted) : Name := ⟨address.text, isValidIpv4_token address.valid⟩

variable {zlib : Zlib}

/-- One command of a connection, handled alone. -/
def serve (zlib : Zlib) (addresses : Socket → Accepted) (state : State) (socket : Socket) (verb : Verb) :
    Option (State × List (Socket × Bytes)) :=
  (step zlib state (.receive socket (request (addresses socket).name verb) everyone)).map
    fun (after, output) => (after, output.sent)

/-- A message without what stands behind `command list 1 `. -/
def masked (message : Bytes) : Bytes :=
  if (bytes "command list 1 ").isPrefixOf message then bytes "command list 1 " else message

/-- The membership of one client, as its own commands alone decide it. -/
def membership : Automaton Bool Verb Bytes where
  next joined
    | .join => true
    | .list => joined
    | .leave => false
  answer
    | false, .join => bytes "command join 1 "
    | true, .join => bytes "command join 0 "
    | false, .list => bytes "command list 0 "
    | true, .list => bytes "command list 1 "
    | false, .leave => bytes "command leave 0 "
    | true, .leave => bytes "command leave 1 "

/-- Connected clients with an address each, none of which is in the lobby yet. -/
structure Fresh (clients : Socket → Prop) (addresses : Socket → Accepted) (state : State) : Prop where
  apart : ∀ first second, clients first → clients second →
    (addresses first).text = (addresses second).text → first = second
  running : ∀ socket, clients socket → state.phase socket = .running
  opened : ∀ socket, clients socket → socket ∉ state.closed
  outside : ∀ socket, clients socket → ¬ Holds state.lobbyList socket
  free : ∀ socket, clients socket → (addresses socket).text ∉ state.lobbyList.keys

/-- The lobby holds the entries of the clients that joined, and everything else
is as it was at the start. -/
structure Tracked (clients : Socket → Prop) (addresses : Socket → Accepted) (start : State) (joined : Socket → Bool)
    (state : State) : Prop where
  phase : state.phase = start.phase
  closed : state.closed = start.closed
  own : ∀ socket, clients socket →
    state.lobbyList.get? (addresses socket).text = if joined socket then some socket else none
  others : ∀ ip, (∀ socket, clients socket → (addresses socket).text ≠ ip) →
    state.lobbyList.get? ip = start.lobbyList.get? ip

variable {clients : Socket → Prop} {addresses : Socket → Accepted} {start state : State} {joined : Socket → Bool}
  {socket : Socket}

theorem Fresh.tracked (fresh : Fresh clients addresses start) :
    Tracked clients addresses start (fun _ => false) start := by
  refine ⟨rfl, rfl, ?_, fun _ _ => rfl⟩
  intro socket client
  exact Dict.get?_eq_none_iff.mpr (fresh.free socket client)

/-- `isClientJoin` looks at the whole lobby, but it finds the client's own entry
or none. -/
theorem Tracked.holds_iff (tracked : Tracked clients addresses start joined state)
    (fresh : Fresh clients addresses start) (client : clients socket) :
    Holds state.lobbyList socket ↔ joined socket = true := by
  constructor
  · rintro ⟨ip, bound⟩
    by_cases known : ∃ other, clients other ∧ (addresses other).text = ip
    · obtain ⟨other, member, rfl⟩ := known
      rw [tracked.own other member, Option.ite_none_right_eq_some] at bound
      obtain ⟨set, same⟩ := bound
      exact Option.some.inj same ▸ set
    · rw [tracked.others ip fun other member same => known ⟨other, member, same⟩] at bound
      exact absurd ⟨ip, bound⟩ (fresh.outside socket client)
  · intro set
    exact ⟨_, by rw [tracked.own socket client, set, if_pos rfl]⟩

theorem Tracked.present_iff (tracked : Tracked clients addresses start joined state) (client : clients socket) :
    (addresses socket).text ∈ state.lobbyList.keys ↔ joined socket = true := by
  rw [← not_iff_not, ← Dict.get?_eq_none_iff, tracked.own socket client]
  cases joined socket <;> simp

theorem Tracked.granted_iff (tracked : Tracked clients addresses start joined state)
    (fresh : Fresh clients addresses start) (client : clients socket) (verb : Verb) :
    Granted state.lobbyList socket (addresses socket).text verb ↔ (joined socket = true ↔ verb ≠ .join) := by
  cases verb <;> simp [Granted, tracked.present_iff client, tracked.holds_iff fresh client]

/-- A change of the client's own entry keeps all the others. -/
theorem Tracked.updated (tracked : Tracked clients addresses start joined state)
    (fresh : Fresh clients addresses start) (client : clients socket) {lobbyList : Lobby} {set : Bool}
    (same : ∀ ip, lobbyList.get? ip = if ip = (addresses socket).text then (if set then some socket else none)
      else state.lobbyList.get? ip) :
    Tracked clients addresses start (Function.update joined socket set) { state with lobbyList := lobbyList } := by
  refine ⟨tracked.phase, tracked.closed, ?_, ?_⟩
  · intro other member
    by_cases equal : other = socket
    · subst equal
      rw [Function.update_self, same, if_pos rfl]
    · have different : (addresses other).text ≠ (addresses socket).text :=
        fun text => equal (fresh.apart other socket member client text)
      rw [Function.update_of_ne equal, same, if_neg different]
      exact tracked.own other member
  · intro ip unknown
    rw [same, if_neg (Ne.symm (unknown socket client))]
    exact tracked.others ip unknown

private theorem masked_replies : masked Reply.joined.bytes = bytes "command join 1 " ∧
    masked Reply.left.bytes = bytes "command leave 1 " ∧
    masked (Reaction.refusal .join) = bytes "command join 0 " ∧
    masked (Reaction.refusal .list) = bytes "command list 0 " ∧
    masked (Reaction.refusal .leave) = bytes "command leave 0 " := by
  decide

private theorem masked_listed (keys : List Str) : masked (Reply.listed keys).bytes = bytes "command list 1 " :=
  if_pos (List.isPrefixOf_iff_prefix.mpr (List.prefix_append _ _))

theorem serve_answered {verb : Verb} {reaction : Reaction} {reply : Bytes} (running : state.phase socket = .running)
    (opened : socket ∉ state.closed)
    (same : react zlib state.lobbyList socket (request (addresses socket).name verb) = reaction)
    (outgoing : reaction.outgoing state.lobbyList socket (request (addresses socket).name verb) = some (socket, reply)) :
    serve zlib addresses state socket verb =
      some ({ state with lobbyList := reaction.lobby state.lobbyList socket }, [(socket, reply)]) := by
  have short : (request (addresses socket).name verb).length ≤ 1500 := by
    have size := request_length (addresses socket).name verb
    have text := isValidIpv4_length (addresses socket).valid
    have same : (addresses socket).name.text = (addresses socket).text := rfl
    rw [same] at size
    omega
  rw [serve, step_answered running opened short same outgoing, Option.map_some]

/-- Every command is answered from the client's own membership. -/
theorem serve_follows (fresh : Fresh clients addresses start) :
    Follows (serve zlib addresses) membership masked clients (Tracked clients addresses start) := by
  constructor
  intro joined state socket verb client tracked
  obtain ⟨joinedSeen, leftSeen, joinSeen, listSeen, leaveSeen⟩ := masked_replies
  have running : state.phase socket = .running := by
    rw [tracked.phase]
    exact fresh.running socket client
  have opened : socket ∉ state.closed := by
    rw [tracked.closed]
    exact fresh.opened socket client
  have asks := request_asks (addresses socket).name verb
  have valid := (addresses socket).valid
  have member := tracked.granted_iff fresh client verb
  have unchanged : ∀ set, joined socket = set →
      Tracked clients addresses start (Function.update joined socket set) state := by
    rintro set rfl
    rwa [Function.update_eq_self]
  by_cases granted : Granted state.lobbyList socket (addresses socket).text verb
  · have success : react zlib state.lobbyList socket (request (addresses socket).name verb) =
        verb.success (addresses socket).text := react_granted asks valid granted
    have served := fun reply => @serve_answered zlib addresses state socket verb _ reply running opened success
    cases verb with
    | join =>
      have outside : joined socket = false := by simpa using member.mp granted
      refine ⟨_, _, served _ rfl, ?_, ?_⟩
      · rw [outside]
        exact joinedSeen
      · exact tracked.updated fresh client fun ip => Dict.get?_set ..
    | list =>
      have inside : joined socket = true := by simpa using member.mp granted
      refine ⟨_, _, served _ rfl, ?_, unchanged _ rfl⟩
      rw [inside, listReply_bytes]
      exact masked_listed _
    | leave =>
      have inside : joined socket = true := by simpa using member.mp granted
      refine ⟨_, _, served _ rfl, ?_, ?_⟩
      · rw [inside]
        exact leftSeen
      · exact tracked.updated fresh client fun ip => Dict.get?_erase ..
  · have refused : react zlib state.lobbyList socket (request (addresses socket).name verb) = .refused verb :=
      react_denied asks valid granted
    have served := serve_answered running opened refused rfl
    rw [member] at granted
    cases verb with
    | join =>
      have inside : joined socket = true := by simpa using granted
      exact ⟨_, _, served, by rw [inside]; exact joinSeen, unchanged _ inside⟩
    | list =>
      have outside : joined socket = false := by simpa using granted
      exact ⟨_, _, served, by rw [outside]; exact listSeen, unchanged _ rfl⟩
    | leave =>
      have outside : joined socket = false := by simpa using granted
      exact ⟨_, _, served, by rw [outside]; exact leaveSeen, unchanged _ outside⟩

theorem Tracked.unique {other : State} (first : Tracked clients addresses start joined state)
    (second : Tracked clients addresses start joined other) (ip : Str) :
    state.lobbyList.get? ip = other.lobbyList.get? ip := by
  by_cases known : ∃ socket, clients socket ∧ (addresses socket).text = ip
  · obtain ⟨socket, client, rfl⟩ := known
    rw [first.own socket client, second.own socket client]
  · have unknown : ∀ socket, clients socket → (addresses socket).text ≠ ip :=
      fun socket client same => known ⟨socket, client, same⟩
    rw [first.others ip unknown, second.others ip unknown]

/-- Two orders of the same commands leave the same entries, and everybody gets
the same replies in the same order, up to the members that a list names. -/
theorem interleavings_agree (fresh : Fresh clients addresses start) {first second : List (Socket × Verb)}
    (known : ∀ entry ∈ first, clients entry.1)
    (same : ∀ socket, projection first socket = projection second socket) : ∃ final sent final' sent',
      performAll (serve zlib addresses) start first = some (final, sent) ∧
      performAll (serve zlib addresses) start second = some (final', sent') ∧
      (∀ ip, final.lobbyList.get? ip = final'.lobbyList.get? ip) ∧
      ∀ socket, (mailOf sent socket).map masked = (mailOf sent' socket).map masked := by
  obtain ⟨final, sent, final', sent', performed, performed', ⟨_, described, described'⟩, told⟩ :=
    (serve_follows fresh).independent known same fresh.tracked
  exact ⟨final, sent, final', sent', performed, performed', described.unique described', told⟩

/-- Connections 1 and 2 use the addresses 100.0.0.1 and 100.0.0.2. -/
def neighbours (socket : Socket) : Accepted :=
  if socket = 1 then ⟨"100.0.0.1".toList, by decide⟩ else ⟨"100.0.0.2".toList, by decide⟩

theorem interleavings_agree_neighbours : ∃ final sent final' sent',
    performAll (serve StoredZlib.zlib neighbours) ((system StoredZlib.zlib).play [.accept 1, .accept 2]).2
      [(1, .join), (1, .list), (2, .join), (1, .leave)] = some (final, sent) ∧
    performAll (serve StoredZlib.zlib neighbours) ((system StoredZlib.zlib).play [.accept 1, .accept 2]).2
      [(2, .join), (1, .join), (1, .list), (1, .leave)] = some (final', sent') ∧
    (∀ ip, final.lobbyList.get? ip = final'.lobbyList.get? ip) ∧
    ∀ socket, (mailOf sent socket).map masked = (mailOf sent' socket).map masked := by
  have fresh : Fresh (fun socket => socket = 1 ∨ socket = 2) neighbours
      ((system StoredZlib.zlib).play [.accept 1, .accept 2]).2 := by
    refine ⟨?_, ?_, ?_, ?_, ?_⟩
    · rintro first second (rfl | rfl) (rfl | rfl) text
      · rfl
      · exact absurd text (by decide)
      · exact absurd text (by decide)
      · rfl
    · rintro socket (rfl | rfl) <;> decide
    · rintro socket (rfl | rfl) <;> decide
    · rintro socket (rfl | rfl) <;> exact isClientJoin_eq_false_iff.mp (by decide)
    · rintro socket (rfl | rfl) <;> decide
  refine interleavings_agree fresh (by simp) ?_
  intro socket
  by_cases one : socket = 1
  · subst one
    rfl
  by_cases two : socket = 2
  · subst two
    rfl
  · simp [projection, Ne.symm one, Ne.symm two]

end VirtualLan.Relay
