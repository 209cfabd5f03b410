import VirtualLan.Library.Dict
import VirtualLan.Library.History
import VirtualLan.Library.Program
import VirtualLan.Zlib

/-! The relay of `server.py`. Its functions are translated line by line into a
state monad with Python's exceptions, which keep the effects made before them.
Console output is left out. A send queues its bytes whole or raises. -/

namespace VirtualLan.Relay
open Program

/-- The identity of a socket object; `is` compares these. -/
abbrev Socket := Nat

abbrev Lobby := Dict Str Socket

/-- What a handler thread reads and changes: the shared `lobby_list`, the
sockets closed so far, and the bytes sent by the current step. -/
structure World where
  lobbyList : Lobby
  closed : List Socket
  sent : List (Socket × Bytes)
  deriving DecidableEq

abbrev Py := Program Exn World

def isValidParts : List Str → Except Exn Bool
  | [] => .ok true
  | part :: parts =>
    if !isDigit part || !decide (part.length ≤ 3) then .ok false
    else do
      let num ← int part
      if !decide (num ≤ 255) then .ok false else isValidParts parts

def isValidIpv4 (ip : Str) : Except Exn Bool :=
  let parts := ip.splitOn '.'
  if parts.length != 4 || parts[0]? != some "100".toList then .ok false else isValidParts parts

/-- `none` stands for the `False` that the source returns for other addresses. -/
def getDestinationIp (rawPkt : Bytes) : Except Exn (Option Str) :=
  if rawPkt.isEmpty then .error .valueError
  else do
    let dstIp ← inetNtoa ((rawPkt.drop 16).take 4)
    if (← isValidIpv4 dstIp) then .ok (some dstIp) else .ok none

section Network
-- Which peers take the bytes of a send during the current step.
variable (accepts : Socket → Bool)

/-- `socket.send(data)`, which raises when the peer is gone or the socket is
already closed. -/
def send (socket : Socket) (data : Bytes) : Py Unit := do
  let world ← get
  if accepts socket && !world.closed.contains socket then
    set { world with sent := world.sent ++ [(socket, data)] }
  else throw .osError

def close (socket : Socket) : Py Unit :=
  modify fun world => { world with closed := socket :: world.closed }

def item {α : Type} (items : List α) (index : Nat) : Except Exn α :=
  match items[index]? with
  | some value => .ok value
  | none => .error .indexError

def storeKey (key : Str) (socket : Socket) : Py Unit :=
  modify fun world => { world with lobbyList := world.lobbyList.set key socket }

def deleteKey (key : Str) : Py Unit := do
  let world ← get
  if world.lobbyList.contains key then
    set { world with lobbyList := world.lobbyList.erase key }
  else throw .keyError

def isClientJoin (lobbyList : Lobby) (socketToCheck : Socket) : Bool :=
  lobbyList.values.any (fun sock => sock == socketToCheck)

def listReply (lobbyList : Lobby) : Str :=
  lobbyList.keys.foldl (fun a i => a ++ (i ++ " ".toList)) "command list 1 ".toList

/-- The bodies of the three tests in `handle_command`: this one, list and leave. -/
def handleJoin (parsed : List Str) (socket : Socket) : Py Unit := do
  if (← isValidIpv4 (← item parsed 2)) && !(← get).lobbyList.contains (← item parsed 2) then
    storeKey (← item parsed 2) socket
    send accepts socket (bytes "command join 1 ")
  else send accepts socket (bytes "command join 0 ")

/-- The test that the list and leave commands share. -/
def isGranted (parsed : List Str) (socket : Socket) : Py Bool := do
  return (← isValidIpv4 (← item parsed 2)) && (← get).lobbyList.contains (← item parsed 2) &&
    isClientJoin (← get).lobbyList socket

def handleList (parsed : List Str) (socket : Socket) : Py Unit := do
  if (← isGranted parsed socket) then
    send accepts socket (encode (listReply (← get).lobbyList))
  else send accepts socket (bytes "command list 0 ")

def handleLeave (parsed : List Str) (socket : Socket) : Py Unit := do
  if (← isGranted parsed socket) then
    deleteKey (← item parsed 2)
    send accepts socket (bytes "command leave 1 ")
  else send accepts socket (bytes "command leave 0 ")

def handleCommand (command : Str) (socket : Socket) : Py Unit := do
  let parsed := split command
  if (← item parsed 1) = "join".toList then
    handleJoin accepts parsed socket
  if (← item parsed 1) = "list".toList then
    handleList accepts parsed socket
  if (← item parsed 1) = "leave".toList then
    handleLeave accepts parsed socket

variable (zlib : Zlib)

def zlibDecompress (data : Bytes) : Except Exn Bytes :=
  match zlib.decompress data with
  | some packet => .ok packet
  | none => .error .zlibError

def forwardPackets (data : Bytes) : Py Unit := do
  let unpackData ← zlibDecompress zlib data
  let ip ← getDestinationIp unpackData
  match ip with
  | none => pure ()
  | some ip =>
    match (← get).lobbyList.get? ip with
    | none => pure ()
    | some socket => send accepts socket data

/-- One turn of the `while` loop of `handle_client` on the bytes that `recv`
returned; the result tells whether the loop goes on. -/
def handleClientTurn (data : Bytes) (clientSocket : Socket) : Py Bool := do
  if data.isEmpty then
    return false
  else if (bytes "command").isPrefixOf data then
    handleCommand accepts (← decode data) clientSocket
    return true
  else if isClientJoin (← get).lobbyList clientSocket then
    forwardPackets accepts zlib data
    return true
  else
    send accepts clientSocket (bytes "command error")
    return true

end Network

/-- The search of the `finally` block; `none` leaves the local `delkey` unbound. -/
def findDelkey : List (Str × Socket) → Socket → Option Str
  | [], _ => none
  | (key, value) :: items, clientSocket =>
    if value == clientSocket then some key else findDelkey items clientSocket

def handleClientFinally (clientSocket : Socket) : Py Unit := do
  match findDelkey (← get).lobbyList.items clientSocket with
  | none => throw .unboundLocalError
  | some delkey =>
    deleteKey delkey
    close clientSocket

/-- Where the handler of a connection stands: not yet accepted, in its loop,
past its loop but before the `finally` block, or over. -/
inductive Phase where
  | absent
  | running
  | ending
  | ended
  deriving DecidableEq

structure State where
  lobbyList : Lobby
  closed : List Socket
  phase : Socket → Phase

/-- `accept` returned a new socket, `recv(1500)` returned some bytes (none at the
end of the stream) or raised, and a handler leaves through its `finally` block. -/
inductive Event where
  | accept (socket : Socket)
  | receive (socket : Socket) (data : Bytes) (accepts : Socket → Bool)
  | fail (socket : Socket)
  | finish (socket : Socket)

def Event.socket : Event → Socket
  | .accept socket | .receive socket _ _ | .fail socket | .finish socket => socket

/-- What a step shows: the bytes it sent, and the exception that left the code
it ran. -/
structure Output where
  sent : List (Socket × Bytes) := []
  raised : Option Exn := none

def raisedBy {α : Type} : Except Exn α → Option Exn
  | .ok _ => none
  | .error exn => some exn

def nextPhase : Except Exn Bool → Phase
  | .ok true => .running
  | _ => .ending

def State.world (state : State) : World := ⟨state.lobbyList, state.closed, []⟩

def State.moved (state : State) (socket : Socket) (phase : Phase) (world : World) : State :=
  ⟨world.lobbyList, world.closed, Function.update state.phase socket phase⟩

def step (zlib : Zlib) (state : State) : Event → Option (State × Output)
  | .accept socket =>
    if state.phase socket = .absent then some (state.moved socket .running state.world, {}) else none
  | .receive socket data accepts =>
    if state.phase socket = .running ∧ data.length ≤ 1500 then
      let (result, world) := run (handleClientTurn accepts zlib data socket) state.world
      some (state.moved socket (nextPhase result) world, ⟨world.sent, raisedBy result⟩)
    else none
  | .fail socket =>
    if state.phase socket = .running then some (state.moved socket .ending state.world, {}) else none
  | .finish socket =>
    if state.phase socket = .ending then
      let (result, world) := run (handleClientFinally socket) state.world
      some (state.moved socket .ended world, ⟨world.sent, raisedBy result⟩)
    else none

def everyone : Socket → Bool := fun _ => true

def mailOf (sent : List (Socket × Bytes)) (socket : Socket) : List Bytes :=
  (sent.filter (·.1 == socket)).map Prod.snd

def initial : State := ⟨Dict.empty, [], fun _ => .absent⟩

def system (zlib : Zlib) : System State Event Output := ⟨initial, step zlib⟩

end VirtualLan.Relay
