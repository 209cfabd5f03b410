import VirtualLan.Library.Table
import VirtualLan.Reaction

/-! The handlers of `server.py` as threads. Each operation on the shared
`lobby_list` is one step, and so is each advance of an iterator over it, each
`send` and the `close`; between two such steps the threads of other connections
may take theirs. What a thread does by itself belongs to the step before it. -/

namespace VirtualLan.Threads
open Relay (Socket Verb Reaction takes)

/-- What a scan of the lobby is for: the three uses of `isClientJoin`, the loop of
the list command with the text so far, and the loop of the `finally` block. -/
inductive Purpose where
  | packet (data : Bytes)
  | listing
  | leaving (ip : Str)
  | names (text : Str)
  | cleanup

/-- The operation that a thread performs next. To answer is to tell the client that
it has joined; to send is any other `send`. -/
inductive Point where
  | absent
  | receiving
  | testing (verb : Verb) (ip : Str)
  | storing (ip : Str)
  | answering (ip : Str)
  | opening (purpose : Purpose)
  | scanning (purpose : Purpose) (cursor : Cursor)
  | deleting (ip : Str)
  | removing (delkey : Str)
  | closing
  | routing (data : Bytes) (ip : Str)
  | fetching (data : Bytes) (ip : Str)
  | sending (target : Socket) (data : Bytes)
  | ended

/-- An exception of the handler's code, or the iterator's complaint about a lobby
that changed its size. -/
inductive Raised where
  | exn (exn : Exn)
  | changedSize
  deriving DecidableEq

/-- The lobby and the closed sockets are shared by all threads. -/
structure Shared where
  lobbyList : Table Str Socket
  closed : List Socket

structure State where
  shared : Shared
  point : Socket → Point

structure Output where
  sent : List (Socket × Bytes) := []
  raised : Option Raised := none

/-- What a thread's step makes of the shared state and of its own point. -/
structure Effect where
  shared : Shared
  point : Point
  output : Output

section Code
variable (accepts : Socket → Bool) (zlib : Zlib) (socket : Socket) (shared : Shared)

def goto (point : Point) : Effect := ⟨shared, point, {}⟩

/-- An exception inside of `try` leads to the `finally` block. -/
def throws (raised : Raised) : Effect := ⟨shared, .opening .cleanup, ⟨[], some raised⟩⟩

/-- An exception inside of the `finally` block ends the thread. -/
def dies (raised : Raised) : Effect := ⟨shared, .ended, ⟨[], some raised⟩⟩

/-- A `send` ends the turn, unless it raises. -/
def transmits (target : Socket) (data : Bytes) : Effect :=
  if takes accepts shared.closed (target, data) then ⟨shared, .receiving, ⟨[(target, data)], none⟩⟩
  else throws shared (.exn .osError)

def sends (target : Socket) (data : Bytes) : Effect := goto shared (.sending target data)

def refuses (verb : Verb) : Effect := sends shared socket (Reaction.refusal verb)

/-- The words of a command, up to the first look at the lobby. -/
def handleCommand (command : Str) : Effect :=
  match (split command)[1]? with
  | none => throws shared (.exn .indexError)
  | some word =>
    match Relay.verb? word with
    | none => goto shared .receiving
    | some verb =>
      match (split command)[2]? with
      | none => throws shared (.exn .indexError)
      | some ip =>
        match Relay.isValidIpv4 ip with
        | .error exn => throws shared (.exn exn)
        | .ok false => refuses socket shared verb
        | .ok true => goto shared (.testing verb ip)

def handleClient (data : Bytes) : Effect :=
  if data.isEmpty then goto shared (.opening .cleanup)
  else if (bytes "command").isPrefixOf data then
    match decode data with
    | .error exn => throws shared (.exn exn)
    | .ok command => handleCommand socket shared command
  else goto shared (.opening (.packet data))

def forwardPackets (data : Bytes) : Effect :=
  match zlib.decompress data with
  | none => throws shared (.exn .zlibError)
  | some packet =>
    match Relay.getDestinationIp packet with
    | .error exn => throws shared (.exn exn)
    | .ok none => goto shared .receiving
    | .ok (some ip) => goto shared (.routing data ip)

/-- The membership test that each command makes first. -/
def test (verb : Verb) (ip : Str) : Effect :=
  match verb, shared.lobbyList.dict.contains ip with
  | .join, false => goto shared (.storing ip)
  | .list, true => goto shared (.opening .listing)
  | .leave, true => goto shared (.opening (.leaving ip))
  | .join, true | .list, false | .leave, false => refuses socket shared verb

/-- A scan looks at one entry. -/
def visit (key : Str) (value : Socket) (cursor : Cursor) : Purpose → Effect
  | .packet data =>
    if value == socket then forwardPackets zlib shared data else goto shared (.scanning (.packet data) cursor)
  | .listing =>
    if value == socket then goto shared (.opening (.names "command list 1 ".toList))
    else goto shared (.scanning .listing cursor)
  | .leaving ip =>
    if value == socket then goto shared (.deleting ip) else goto shared (.scanning (.leaving ip) cursor)
  | .names text => goto shared (.scanning (.names (text ++ (key ++ " ".toList))) cursor)
  | .cleanup => if value == socket then goto shared (.removing key) else goto shared (.scanning .cleanup cursor)

/-- A scan finds no further entry. -/
def finish : Purpose → Effect
  | .packet _ => sends shared socket (bytes "command error")
  | .listing => refuses socket shared .list
  | .leaving _ => refuses socket shared .leave
  | .names text => sends shared socket (encode text)
  | .cleanup => dies shared (.exn .unboundLocalError)

/-- The iterator of a scan raises. -/
def disturb : Purpose → Effect
  | .cleanup => dies shared .changedSize
  | .packet _ | .listing | .leaving _ | .names _ => throws shared .changedSize

/-- The next operation of a thread, with what follows it up to the next one. -/
def perform : Point → Option Effect
  | .absent | .receiving | .ended => none
  | .testing verb ip => some (test socket shared verb ip)
  | .storing ip =>
    some (goto { shared with lobbyList := shared.lobbyList.set ip socket } (.answering ip))
  | .answering _ => some (transmits accepts shared socket (bytes "command join 1 "))
  | .opening purpose => some (goto shared (.scanning purpose shared.lobbyList.start))
  | .scanning purpose cursor =>
    some (match shared.lobbyList.advance cursor with
      | .changed => disturb shared purpose
      | .finished => finish socket shared purpose
      | .entry key value next => visit zlib socket shared key value next purpose)
  | .deleting ip =>
    some (if shared.lobbyList.dict.contains ip then
      sends { shared with lobbyList := shared.lobbyList.erase ip } socket (bytes "command leave 1 ")
    else throws shared (.exn .keyError))
  | .removing delkey =>
    some (if shared.lobbyList.dict.contains delkey then
      goto { shared with lobbyList := shared.lobbyList.erase delkey } .closing
    else dies shared (.exn .keyError))
  | .closing => some (goto { shared with closed := socket :: shared.closed } .ended)
  | .routing data ip =>
    some (goto shared (if shared.lobbyList.dict.contains ip then .fetching data ip else .receiving))
  | .fetching data ip =>
    some (match shared.lobbyList.dict.get? ip with
      | none => throws shared (.exn .keyError)
      | some target => sends shared target data)
  | .sending target data => some (transmits accepts shared target data)

end Code

/-- A new connection, a message or a failure of `recv`, and the next operation of
a thread. -/
inductive Event where
  | accept (socket : Socket)
  | receive (socket : Socket) (data : Bytes)
  | fail (socket : Socket)
  | advance (socket : Socket) (accepts : Socket → Bool)

def Event.socket : Event → Socket
  | .accept socket | .receive socket _ | .fail socket | .advance socket _ => socket

/-- What the thread of an event does, if it stands where the event is possible. -/
def effect (zlib : Zlib) (state : State) : Event → Option Effect
  | .accept socket =>
    match state.point socket with
    | .absent => some (goto state.shared .receiving)
    | _ => none
  | .receive socket data =>
    match state.point socket with
    | .receiving => if data.length ≤ 1500 then some (handleClient socket state.shared data) else none
    | _ => none
  | .fail socket =>
    match state.point socket with
    | .receiving => some (goto state.shared (.opening .cleanup))
    | _ => none
  | .advance socket accepts => perform accepts zlib socket state.shared (state.point socket)

def step (zlib : Zlib) (state : State) (event : Event) : Option (State × Output) :=
  (effect zlib state event).map fun effect =>
    (⟨effect.shared, Function.update state.point event.socket effect.point⟩, effect.output)

def initial : State := ⟨⟨Table.empty, []⟩, fun _ => .absent⟩

def system (zlib : Zlib) : System State Event Output := ⟨initial, step zlib⟩

end VirtualLan.Threads
