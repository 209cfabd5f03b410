import VirtualLan.Library.Chronicle
import VirtualLan.Network

/-! What the parties of a network put on their connections and take from them,
step by step. Nothing here is kept by the program; it is read off a run. -/

namespace VirtualLan.Network
open Program
open Relay (Socket)
open Peer (Cpp)

abbrev Instant := Moment State Event Unit

/-- The connection whose client or handler takes the step. -/
def Event.socket : Event → Socket
  | .relay event => event.socket
  | .join socket | .list socket | .leave socket | .read socket | .packet socket _ | .serve socket | .hear socket => socket

/-- The function that a step of a client runs to write to its socket. -/
def Event.writer : Event → Option (Cpp Unit)
  | .join _ => some (Peer.joinRequest true)
  | .list _ => some (Peer.getLobbyMembers true)
  | .leave _ => some (Peer.leaveLobby true)
  | .packet _ data => some (Peer.sendData true ⟨data, data.length⟩)
  | .relay _ | .read _ | .serve _ | .hear _ => none

def written (socket : Socket) (moment : Instant) : List Bytes :=
  match moment.event.writer with
  | some action => if moment.event.socket = socket then (run action (moment.before.sessions socket).world).2.sent else []
  | none => []

/-- What a client sends for packets of its interface. -/
def transmitted (socket : Socket) (moment : Instant) : List Bytes :=
  match moment.event with
  | .packet client data => if client = socket then [data] else []
  | _ => []

/-- What the handler of a connection reads from it. -/
def served (socket : Socket) (moment : Instant) : List Bytes :=
  match moment.event with
  | .serve client => if client = socket then (moment.before.sessions socket).requests.head?.toList else []
  | _ => []

def relayEvent (state : State) : Event → Option Relay.Event
  | .relay event => some event
  | .serve socket => (state.sessions socket).requests.head?.map fun data => .receive socket data Relay.everyone
  | _ => none

/-- What the relay sends in a step, and to whom. -/
def mail (zlib : Zlib) (moment : Instant) : List (Socket × Bytes) :=
  match (relayEvent moment.before moment.event).bind (Relay.step zlib moment.before.relay) with
  | some (_, output) => output.sent
  | none => []

def posted (zlib : Zlib) (socket : Socket) (moment : Instant) : List Bytes := Relay.mailOf (mail zlib moment) socket

/-- What a client reads from its connection. -/
def received (socket : Socket) (moment : Instant) : List Bytes :=
  match moment.event with
  | .hear client => if client = socket then (moment.before.sessions socket).replies.head?.toList else []
  | _ => []

structure Delivery where
  sender : Socket
  receiver : Socket
  data : Bytes
  deriving DecidableEq

/-- The packets that the relay passes on in a step. -/
def deliveries (zlib : Zlib) (moment : Instant) : List Delivery :=
  ((mail zlib moment).filter fun message => !Peer.startsWithCommand message.2).map fun message =>
    ⟨moment.event.socket, message.1, message.2⟩

/-- What a message puts on the interface of the client that reads it. -/
def arrived (zlib : Zlib) (allocates : Nat → Bool) (data : Bytes) : List Bytes :=
  if Peer.startsWithCommand data then [] else Peer.delivered zlib allocates data

/-- The packet of a message fits into the client's buffer, and the driver allocates
one of its own for it. -/
def Fits (zlib : Zlib) (allocates : Nat → Bool) (data : Bytes) : Prop :=
  ∀ packet ∈ zlib.decompress data, packet.length ≤ Peer.maxDecompressedSize ∧ allocates packet.length = true

instance (zlib : Zlib) (allocates : Nat → Bool) (data : Bytes) : Decidable (Fits zlib allocates data) :=
  inferInstanceAs (Decidable (∀ packet ∈ zlib.decompress data, _))

/-- The relay can pass a packet on: its sender is registered, and its destination is
held by the receiver, which still takes messages. -/
def routable (zlib : Zlib) (relay : Relay.State) (sender receiver : Socket) (data : Bytes) : Bool :=
  Relay.isClientJoin relay.lobbyList sender && !relay.closed.contains receiver &&
    match zlib.decompress data with
    | none => false
    | some packet =>
      match Relay.getDestinationIp packet with
      | .ok (some ip) => relay.lobbyList.get? ip == some receiver
      | _ => false

end VirtualLan.Network
