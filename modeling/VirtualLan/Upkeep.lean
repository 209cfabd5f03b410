import VirtualLan.Library.History
import VirtualLan.Membership
import VirtualLan.Reaction

/-! A client over its whole life: the rounds of `checkConnection` in `Lobby.h`,
the commands of the user in `main`, the relay's replies and lost connections. -/

namespace VirtualLan.Peer
open Program
open Relay (Reply)

/-- `Server::reconnect`; `reaches` tells whether it gets a new connection. -/
def reconnect (reaches : Bool) : Cpp Unit :=
  if reaches then modify fun world => { world with server := { world.server with connected := true } } else pure ()

/-- One round of `Lobby::checkConnection` up to its next sleep. The result tells
whether that is the sleep inside of `joinlLobby`, behind which `getLobbyMembers`
follows. -/
def checkConnection (reaches accepts : Bool) : Cpp Bool := do
  if !(← get).server.connected then
    setMembers []
    setJoin false
    reconnect reaches
    return false
  else if (← get).server.connected && !(← get).lobby.join then
    joinRequest accepts
    return true
  else
    getLobbyMembers accepts
    return false

/-- `live` tells whether `*clientSocket` is a connection. The last two fields are
kept for the record: whether a join was confirmed since the last attempt to
connect, and whether the user has left and not joined again. -/
structure Device where
  world : World
  live : Bool
  welcomed : Bool
  left : Bool

/-- A round of the background thread; the user's commands 1, 2 and 3, of which
`members` is also the second half of `joinlLobby`; 5 and 4; a reply; and the end
of the connection. `accepts` tells whether a `send` on a connection succeeds. -/
inductive Action where
  | check (reaches accepts : Bool)
  | join (accepts : Bool)
  | members (accepts : Bool)
  | leave (accepts : Bool)
  | reconnect (reaches : Bool)
  | text (word : Bytes) (accepts : Bool)
  | reply (answer : Reply)
  | drop

namespace Device

/-- The state after some code of the client, and what it sent. -/
def act {α : Type} (device : Device) (code : Cpp α) : Device × List Bytes :=
  let world := (run code { device.world with sent := [] }).2
  ({ device with world := { world with sent := [] } }, world.sent)

/-- A list of members answers a registered client only, so a client that gets
one was told before that it had joined. -/
def Expects (device : Device) : Reply → Prop
  | .listed _ => device.welcomed = true
  | .joined | .left | .refused _ | .error => True

instance (device : Device) (answer : Reply) : Decidable (device.Expects answer) := by
  cases answer <;> unfold Expects <;> infer_instance

def welcomes : Reply → Bool
  | .joined => true
  | .listed _ | .left | .refused _ | .error => false

/-- What is typed for command 4 ends at a space. -/
def step (device : Device) : Action → Option (Device × List Bytes)
  | .check reaches accepts =>
    let (after, sent) := device.act (checkConnection reaches (accepts && device.live))
    if device.world.server.connected then some (after, sent)
    else some ({ after with live := reaches, welcomed := false }, sent)
  | .join accepts =>
    let (after, sent) := device.act (joinRequest (accepts && device.live))
    some ({ after with left := false }, sent)
  | .members accepts => some (device.act (getLobbyMembers (accepts && device.live)))
  | .leave accepts =>
    let (after, sent) := device.act (leaveLobby (accepts && device.live))
    some ({ after with left := true }, sent)
  | .reconnect reaches =>
    let (after, sent) := device.act (Peer.reconnect reaches)
    some ({ after with live := reaches, welcomed := false }, sent)
  | .text word accepts =>
    if (0x20 : UInt8) ∈ word then none else some (device.act (sendDataText (accepts && device.live) word))
  | .reply answer =>
    if device.world.server.connected ∧ device.live ∧ device.Expects answer then
      let (after, sent) := device.act (handleResponse answer.bytes)
      some ({ after with welcomed := device.welcomed || welcomes answer }, sent)
    else none
  | .drop =>
    if device.world.server.connected then
      some ({ device with world := { device.world with server := { device.world.server with connected := false } } }, [])
    else none

/-- A client after its first connection attempt. -/
def start (connected : Bool) (myip : Bytes) : Device := ⟨⟨⟨connected⟩, ⟨[], myip, false⟩, [], []⟩, connected, false, false⟩

def system (connected : Bool) (myip : Bytes) : System Device Action (List Bytes) := ⟨start connected myip, step⟩

end Device

end VirtualLan.Peer
