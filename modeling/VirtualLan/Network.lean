import VirtualLan.Callbacks
import VirtualLan.Relay

/-! The relay together with its clients. Every connection carries whole messages
in order, in both directions, and any party may take the next step. A step handles
one message, which is read alone and whole: by a client however long it is, by the
relay if it has at most 1500 bytes. A client asks for its own address only, and it
keeps its connection; reconnects and the text command are left out. -/

namespace VirtualLan.Network
open Program
open Relay (Socket)
open Peer (Cpp)

/-- A connection: its client, the messages under way, and whether the client's
interface thread has found `join` set for a packet that it has not sent yet. -/
structure Session where
  world : Peer.World
  requests : List Bytes
  replies : List Bytes
  armed : Bool

structure State where
  relay : Relay.State
  sessions : Socket → Session

inductive Event where
  | relay (event : Relay.Event)
  | join (socket : Socket)
  | list (socket : Socket)
  | leave (socket : Socket)
  /-- The interface thread reads `join` as set. -/
  | read (socket : Socket)
  /-- It sends its packet, whatever `join` is by now. -/
  | packet (socket : Socket) (data : Bytes)
  | serve (socket : Socket)
  | hear (socket : Socket)

def silent : Relay.Event → Bool
  | .receive _ data _ => data.isEmpty
  | .accept _ | .fail _ | .finish _ => true

def perform (action : Cpp Unit) (session : Session) : Session :=
  let world := (run action session.world).2
  { session with world := { world with sent := [] }, requests := session.requests ++ world.sent }

def post (sent : List (Socket × Bytes)) (socket : Socket) (session : Session) : Session :=
  { session with replies := session.replies ++ Relay.mailOf sent socket }

section System
variable (zlib : Zlib) (allocates : Nat → Bool)

def relayStep (state : State) (event : Relay.Event) : Option State :=
  (Relay.step zlib state.relay event).map fun (relay, output) =>
    ⟨relay, fun socket => post output.sent socket (state.sessions socket)⟩

/-- A client lives as long as its connection, from its start on. -/
def clientStep (state : State) (socket : Socket) (session : Session) : Option State :=
  if state.relay.phase socket = .absent then none
  else some { state with sessions := Function.update state.sessions socket session }

def step (state : State) : Event → Option State
  | .relay event => if silent event then relayStep zlib state event else none
  | .join socket => clientStep state socket (perform (Peer.joinRequest true) (state.sessions socket))
  | .list socket => clientStep state socket (perform (Peer.getLobbyMembers true) (state.sessions socket))
  | .leave socket => clientStep state socket (perform (Peer.leaveLobby true) (state.sessions socket))
  | .read socket =>
    if (state.sessions socket).world.lobby.join then
      clientStep state socket { state.sessions socket with armed := true }
    else none
  | .packet socket data =>
    if (state.sessions socket).armed && !data.isEmpty && !Peer.startsWithCommand data then
      clientStep state socket
        { perform (Peer.sendData true ⟨data, data.length⟩) (state.sessions socket) with armed := false }
    else none
  | .serve socket =>
    match (state.sessions socket).requests with
    | [] => none
    | data :: requests =>
      let taken := { state.sessions socket with requests := requests }
      relayStep zlib { state with sessions := Function.update state.sessions socket taken }
        (.receive socket data Relay.everyone)
  | .hear socket =>
    match (state.sessions socket).replies with
    | [] => none
    | data :: replies =>
      let world := (run (Peer.callbackLiteningToServer zlib allocates data) (state.sessions socket).world).2
      clientStep state socket { state.sessions socket with world := world, replies := replies }

end System

def start (name : Name) : Session := ⟨⟨⟨true⟩, ⟨[], encode name.text, false⟩, [], []⟩, [], [], false⟩

/-- The clients' addresses need not differ. -/
def initial (names : Socket → Name) : State := ⟨Relay.initial, fun socket => start (names socket)⟩

def system (zlib : Zlib) (allocates : Nat → Bool) (names : Socket → Name) : System State Event Unit :=
  ⟨initial names, fun state event => (step zlib allocates state event).map (·, ())⟩

end VirtualLan.Network
