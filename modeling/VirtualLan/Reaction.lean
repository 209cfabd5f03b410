import VirtualLan.Relay

/-! What a received message means to the lobby. A reaction is decided from the
lobby, the sender and the bytes alone; its effects are at most one change of
the lobby followed by at most one send. The handler's code does exactly this. -/

namespace VirtualLan.Relay
open Program

inductive Verb where
  | join
  | list
  | leave
  deriving DecidableEq

def Verb.word : Verb → Str
  | .join => "join".toList
  | .list => "list".toList
  | .leave => "leave".toList

/-- What the relay does with one message: end its loop, raise, ignore an unknown
word, act on a command, refuse one, pass a packet on, drop one for an address
that nobody holds, or answer one of an outsider with an error. -/
inductive Reaction where
  | closing
  | crashed (exn : Exn)
  | ignored
  | joined (ip : Str)
  | listed (ip : Str)
  | left (ip : Str)
  | refused (verb : Verb)
  | forwarded (ip : Str) (target : Socket)
  | dropped
  | rejected

def Verb.success (ip : Str) : Verb → Reaction
  | .join => .joined ip
  | .list => .listed ip
  | .leave => .left ip

/-- A valid third word is acted on under the verb's guard, and any other one is
refused. -/
def reactNamed (lobbyList : Lobby) (socket : Socket) (verb : Verb) (ip : Str) : Reaction :=
  match isValidIpv4 ip with
  | .error exn => .crashed exn
  | .ok false => .refused verb
  | .ok true =>
    match verb with
    | .join => if lobbyList.contains ip then .refused .join else .joined ip
    | .list => if lobbyList.contains ip && isClientJoin lobbyList socket then .listed ip else .refused .list
    | .leave => if lobbyList.contains ip && isClientJoin lobbyList socket then .left ip else .refused .leave

def verb? (word : Str) : Option Verb :=
  if word = "join".toList then some .join
  else if word = "list".toList then some .list
  else if word = "leave".toList then some .leave
  else none

def reactVerb (lobbyList : Lobby) (socket : Socket) (parsed : List Str) (verb : Verb) : Reaction :=
  match parsed[2]? with
  | none => .crashed .indexError
  | some ip => reactNamed lobbyList socket verb ip

def reactCommand (lobbyList : Lobby) (socket : Socket) (parsed : List Str) : Reaction :=
  match parsed[1]? with
  | none => .crashed .indexError
  | some word =>
    match verb? word with
    | none => .ignored
    | some verb => reactVerb lobbyList socket parsed verb

def reactPacket (zlib : Zlib) (lobbyList : Lobby) (data : Bytes) : Reaction :=
  match zlib.decompress data with
  | none => .crashed .zlibError
  | some packet =>
    match getDestinationIp packet with
    | .error exn => .crashed exn
    | .ok none => .dropped
    | .ok (some ip) =>
      match lobbyList.get? ip with
      | none => .dropped
      | some target => .forwarded ip target

def react (zlib : Zlib) (lobbyList : Lobby) (socket : Socket) (data : Bytes) : Reaction :=
  if data.isEmpty then .closing
  else if (bytes "command").isPrefixOf data then
    match decode data with
    | .error exn => .crashed exn
    | .ok command => reactCommand lobbyList socket (split command)
  else if isClientJoin lobbyList socket then reactPacket zlib lobbyList data
  else .rejected

def takes (accepts : Socket → Bool) (closed : List Socket) (message : Socket × Bytes) : Bool :=
  accepts message.1 && !closed.contains message.1

namespace Reaction

def lobby (lobbyList : Lobby) (socket : Socket) : Reaction → Lobby
  | .joined ip => lobbyList.set ip socket
  | .left ip => lobbyList.erase ip
  | _ => lobbyList

def refusal : Verb → Bytes
  | .join => bytes "command join 0 "
  | .list => bytes "command list 0 "
  | .leave => bytes "command leave 0 "

/-- The one send that a reaction attempts, after its change of the lobby. -/
def outgoing (lobbyList : Lobby) (socket : Socket) (data : Bytes) : Reaction → Option (Socket × Bytes)
  | .joined _ => some (socket, bytes "command join 1 ")
  | .listed _ => some (socket, encode (listReply lobbyList))
  | .left _ => some (socket, bytes "command leave 1 ")
  | .refused verb => some (socket, refusal verb)
  | .forwarded _ target => some (target, data)
  | .rejected => some (socket, bytes "command error")
  | .closing | .crashed _ | .ignored | .dropped => none

def sent (reaction : Reaction) (accepts : Socket → Bool) (socket : Socket) (data : Bytes) (lobbyList : Lobby)
    (closed : List Socket) : List (Socket × Bytes) :=
  ((reaction.outgoing lobbyList socket data).filter (takes accepts closed)).toList

def raised (reaction : Reaction) (accepts : Socket → Bool) (socket : Socket) (data : Bytes) (lobbyList : Lobby)
    (closed : List Socket) : Option Exn :=
  match reaction with
  | .crashed exn => some exn
  | _ => if (reaction.outgoing lobbyList socket data).all (takes accepts closed) then none else some .osError

def perform (reaction : Reaction) (accepts : Socket → Bool) (socket : Socket) (data : Bytes) (world : World) :
    Except Exn Unit × World :=
  (match reaction.raised accepts socket data world.lobbyList world.closed with
    | none => .ok ()
    | some exn => .error exn,
   ⟨reaction.lobby world.lobbyList socket, world.closed,
    world.sent ++ reaction.sent accepts socket data world.lobbyList world.closed⟩)

def continues : Reaction → Bool
  | .closing => false
  | _ => true

end Reaction

theorem listReply_eq (lobbyList : Lobby) :
    listReply lobbyList = "command list 1 ".toList ++ lobbyList.keys.flatMap (· ++ " ".toList) := by
  rw [listReply, List.foldl_append_eq_append, List.flatMap_def]

inductive Reply where
  | joined
  | listed (keys : List Str)
  | left
  | refused (verb : Verb)
  | error

def Reply.bytes : Reply → Bytes
  | .joined => VirtualLan.bytes "command join 1 "
  | .listed keys => VirtualLan.bytes "command list 1 " ++ encode (keys.flatMap (· ++ " ".toList))
  | .left => VirtualLan.bytes "command leave 1 "
  | .refused verb => Reaction.refusal verb
  | .error => VirtualLan.bytes "command error"

theorem Reply.bytes_command (reply : Reply) : VirtualLan.bytes "command" <+: reply.bytes := by
  cases reply with
  | joined | left | error => decide
  | refused verb => cases verb <;> decide
  | listed keys =>
    have line : VirtualLan.bytes "command" <+: VirtualLan.bytes "command list 1 " := by decide
    exact line.trans (List.prefix_append _ _)

theorem Reply.starts (reply : Reply) : (VirtualLan.bytes "command").isPrefixOf reply.bytes = true :=
  List.isPrefixOf_iff_prefix.mpr reply.bytes_command

theorem listReply_bytes (lobbyList : Lobby) : encode (listReply lobbyList) = (Reply.listed lobbyList.keys).bytes := by
  rw [listReply_eq, encode_append]
  rfl

/-- A reaction sends a reply to its own connection, or it forwards the message. -/
theorem Reaction.outgoing_reply {reaction : Reaction} {lobbyList : Lobby} {socket : Socket} {data : Bytes}
    {message : Socket × Bytes} (outgoing : reaction.outgoing lobbyList socket data = some message) :
    (∃ reply : Reply, message = (socket, reply.bytes)) ∨
      ∃ ip target, reaction = .forwarded ip target ∧ message = (target, data) := by
  cases reaction with
  | closing | crashed | ignored | dropped => cases outgoing
  | forwarded ip target =>
    cases outgoing
    exact Or.inr ⟨ip, target, rfl, rfl⟩
  | joined =>
    cases outgoing
    exact Or.inl ⟨.joined, rfl⟩
  | left =>
    cases outgoing
    exact Or.inl ⟨.left, rfl⟩
  | rejected =>
    cases outgoing
    exact Or.inl ⟨.error, rfl⟩
  | refused verb =>
    cases outgoing
    exact Or.inl ⟨.refused verb, rfl⟩
  | listed =>
    cases outgoing
    exact Or.inl ⟨.listed lobbyList.keys, by rw [listReply_bytes]⟩

@[simp] theorem run_storeKey (key : Str) (socket : Socket) (world : World) : run (storeKey key socket) world =
    (.ok (), { world with lobbyList := world.lobbyList.set key socket }) := rfl

@[simp] theorem run_close (socket : Socket) (world : World) : run (close socket) world =
    (.ok (), { world with closed := socket :: world.closed }) := rfl

theorem run_deleteKey {key : Str} {world : World} (present : world.lobbyList.contains key = true) :
    run (deleteKey key) world = (.ok (), { world with lobbyList := world.lobbyList.erase key }) := by
  simp [deleteKey, present]

theorem run_send (accepts : Socket → Bool) (socket : Socket) (data : Bytes) (world : World) :
    run (send accepts socket data) world =
      if takes accepts world.closed (socket, data) then
        (.ok (), { world with sent := world.sent ++ [(socket, data)] })
      else (.error .osError, world) := by
  have guard : (accepts socket && !world.closed.contains socket) = takes accepts world.closed (socket, data) := rfl
  simp only [send, run_bind, run_get, andThen_ok, guard]
  cases takes accepts world.closed (socket, data) <;> rfl

section Code
variable (accepts : Socket → Bool) (socket : Socket) (data : Bytes) (world : World)

theorem Reaction.perform_crashed (exn : Exn) :
    (crashed exn).perform accepts socket data world = (.error exn, world) := by
  simp [perform, raised, lobby, sent, outgoing]

theorem Reaction.raised_sending {reaction : Reaction} {message : Socket × Bytes} {lobbyList : Lobby}
    (sending : reaction.outgoing lobbyList socket data = some message) (closed : List Socket) :
    reaction.raised accepts socket data lobbyList closed =
      if takes accepts closed message then none else some .osError := by
  cases reaction <;> simp [raised, sending]
  cases sending

theorem Reaction.perform_sending {reaction : Reaction} {target : Socket} {reply : Bytes}
    (sending : reaction.outgoing world.lobbyList socket data = some (target, reply)) :
    reaction.perform accepts socket data world =
      run (send accepts target reply) { world with lobbyList := reaction.lobby world.lobbyList socket } := by
  rw [run_send, perform, raised_sending accepts socket data sending, sent, sending]
  cases taken : takes accepts world.closed (target, reply) <;> simp [Option.filter, taken]

theorem handleJoin_run (parsed : List Str) : run (handleJoin accepts parsed socket) world =
    (reactVerb world.lobbyList socket parsed .join).perform accepts socket data world := by
  cases third : parsed[2]? with
  | none => simp [handleJoin, item, third, reactVerb, Reaction.perform_crashed]
  | some ip =>
    simp only [handleJoin, item, third, run_bind, run_lift, andThen_ok, reactVerb, reactNamed]
    cases isValidIpv4 ip with
    | error exn => simp [Reaction.perform_crashed]
    | ok valid =>
      cases valid with
      | false =>
        rw [Reaction.perform_sending accepts socket data world rfl]
        simp [Reaction.lobby, Reaction.refusal]
      | true =>
        cases present : world.lobbyList.contains ip <;>
          simp only [if_true, if_false, Bool.false_eq_true] <;>
          rw [Reaction.perform_sending accepts socket data world rfl] <;>
          simp [present, Reaction.lobby, Reaction.refusal]

theorem isGranted_run {parsed : List Str} {ip : Str} (third : parsed[2]? = some ip) :
    run (isGranted parsed socket) world = ((isValidIpv4 ip).map fun valid =>
      valid && (world.lobbyList.contains ip && isClientJoin world.lobbyList socket), world) := by
  simp only [isGranted, item, third, run_bind, run_lift, run_get, andThen_ok]
  cases isValidIpv4 ip with
  | error exn => rfl
  | ok valid => simp [Except.map, Bool.and_assoc]

theorem handleList_run (parsed : List Str) : run (handleList accepts parsed socket) world =
    (reactVerb world.lobbyList socket parsed .list).perform accepts socket data world := by
  cases third : parsed[2]? with
  | none => simp [handleList, isGranted, item, third, reactVerb, Reaction.perform_crashed]
  | some ip =>
    simp only [handleList, run_bind, isGranted_run socket world third, reactVerb, third, reactNamed]
    cases isValidIpv4 ip with
    | error exn => rw [Reaction.perform_crashed]; rfl
    | ok valid =>
      cases valid with
      | false => rw [Reaction.perform_sending accepts socket data world rfl]; rfl
      | true =>
        simp only [Except.map, Bool.true_and, andThen_ok]
        split <;> rw [Reaction.perform_sending accepts socket data world rfl] <;> rfl

theorem handleLeave_run (parsed : List Str) : run (handleLeave accepts parsed socket) world =
    (reactVerb world.lobbyList socket parsed .leave).perform accepts socket data world := by
  cases third : parsed[2]? with
  | none => simp [handleLeave, isGranted, item, third, reactVerb, Reaction.perform_crashed]
  | some ip =>
    simp only [handleLeave, run_bind, isGranted_run socket world third, reactVerb, third, reactNamed]
    cases isValidIpv4 ip with
    | error exn => rw [Reaction.perform_crashed]; rfl
    | ok valid =>
      cases valid with
      | false => rw [Reaction.perform_sending accepts socket data world rfl]; rfl
      | true =>
        simp only [Except.map, Bool.true_and, andThen_ok]
        split
        next granted =>
          rw [Bool.and_eq_true] at granted
          simp only [run_bind, item, third, run_lift, andThen_ok, run_deleteKey granted.1]
          rw [Reaction.perform_sending accepts socket data world rfl]
          rfl
        next =>
          rw [Reaction.perform_sending accepts socket data world rfl]
          rfl

private theorem verbs_apart : "join".toList ≠ "list".toList ∧ "join".toList ≠ "leave".toList ∧
    "list".toList ≠ "leave".toList := by
  decide

/-- The three tests of `handle_command` exclude each other, so a command takes
at most one branch. -/
theorem handleCommand_run (command : Str) : run (handleCommand accepts command socket) world =
    (reactCommand world.lobbyList socket (split command)).perform accepts socket data world := by
  obtain ⟨joinList, joinLeave, listLeave⟩ := verbs_apart
  cases second : (split command)[1]? with
  | none =>
    simp only [handleCommand, item, second, reactCommand, Reaction.perform_crashed, run_bind, run_lift, andThen_error]
  | some word =>
    simp only [handleCommand, item, second, run_bind, run_lift, andThen_ok, reactCommand, verb?]
    by_cases join : word = "join".toList
    · subst join
      simp only [if_pos, if_neg joinList, if_neg joinLeave, run_pure, run_bind, run_lift, andThen_ok, andThen_unit,
        handleJoin_run accepts socket data world]
    by_cases list : word = "list".toList
    · subst list
      simp only [if_pos, if_neg joinList.symm, if_neg listLeave, run_pure, run_bind, run_lift, andThen_ok, andThen_unit,
        handleList_run accepts socket data world]
    by_cases leave : word = "leave".toList
    · subst leave
      simp only [if_pos, if_neg joinLeave.symm, if_neg listLeave.symm, run_bind, run_lift, andThen_ok,
        handleLeave_run accepts socket data world]
    simp only [if_neg join, if_neg list, if_neg leave, run_bind, run_lift, andThen_ok, run_pure]
    simp [Reaction.perform, Reaction.raised, Reaction.lobby, Reaction.sent, Reaction.outgoing]

theorem forwardPackets_run (zlib : Zlib) : run (forwardPackets accepts zlib data) world =
    (reactPacket zlib world.lobbyList data).perform accepts socket data world := by
  simp only [forwardPackets, zlibDecompress, reactPacket, run_bind, run_lift]
  cases zlib.decompress data with
  | none => simp [Reaction.perform_crashed]
  | some packet =>
    simp only [andThen_ok]
    cases getDestinationIp packet with
    | error exn => simp [Reaction.perform_crashed]
    | ok destination =>
      cases destination with
      | none => simp [Reaction.perform, Reaction.raised, Reaction.lobby, Reaction.sent, Reaction.outgoing]
      | some ip =>
        simp only [run_bind, run_get, andThen_ok]
        cases world.lobbyList.get? ip with
        | none => simp [Reaction.perform, Reaction.raised, Reaction.lobby, Reaction.sent, Reaction.outgoing]
        | some target =>
          rw [Reaction.perform_sending accepts socket data world rfl]
          simp [Reaction.lobby]

theorem reactNamed_continues (lobbyList : Lobby) (verb : Verb) (ip : Str) :
    (reactNamed lobbyList socket verb ip).continues = true := by
  unfold reactNamed
  split
  · rfl
  · rfl
  · cases verb <;> simp only <;> split <;> rfl

theorem reactCommand_continues (lobbyList : Lobby) (parsed : List Str) :
    (reactCommand lobbyList socket parsed).continues = true := by
  unfold reactCommand
  split
  · rfl
  · split
    · rfl
    · unfold reactVerb
      split
      · rfl
      · exact reactNamed_continues socket lobbyList _ _

theorem reactPacket_continues (zlib : Zlib) (lobbyList : Lobby) :
    (reactPacket zlib lobbyList data).continues = true := by
  unfold reactPacket
  split
  · rfl
  · split
    · rfl
    · rfl
    · split <;> rfl

/-- One turn of the handler's loop performs the reaction to the received bytes. -/
theorem handleClientTurn_run (zlib : Zlib) : run (handleClientTurn accepts zlib data socket) world =
    andThen ((react zlib world.lobbyList socket data).perform accepts socket data world)
      (fun _ after => (.ok (react zlib world.lobbyList socket data).continues, after)) := by
  simp only [handleClientTurn, react]
  split
  · simp [Reaction.perform, Reaction.raised, Reaction.lobby, Reaction.sent, Reaction.outgoing, Reaction.continues]
  · split
    · simp only [run_bind, run_lift]
      cases decode data with
      | error exn => simp [Reaction.perform_crashed]
      | ok command =>
        simp only [andThen_ok, run_pure, handleCommand_run accepts socket data world, reactCommand_continues]
    · simp only [run_bind, run_get, andThen_ok]
      split
      · simp only [run_bind, run_pure, forwardPackets_run accepts socket data world, reactPacket_continues]
      · rw [Reaction.perform_sending accepts socket data world rfl]
        simp only [run_bind, run_pure, Reaction.lobby, Reaction.continues]

end Code

end VirtualLan.Relay
