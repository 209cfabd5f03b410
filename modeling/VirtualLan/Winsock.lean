import Mathlib.Logic.Function.Basic
import VirtualLan.Library.History
import VirtualLan.Callbacks

/-! The connection of the client, `Server.cpp`, with what Winsock keeps for it:
how often the library was started and cleaned up, and the state of its sockets. -/

namespace VirtualLan.Winsock
open Peer (Received)

/-- A number that is no socket counts as closed. A socket is broken once a call
on it has reported an error or the end of the stream. -/
inductive Status where
  | closed
  | created
  | connected
  | broken
  deriving DecidableEq

/-- `clientSocket` is `none` for `INVALID_SOCKET`. -/
structure Link where
  startups : Nat
  cleanups : Nat
  status : Nat → Status
  next : Nat
  clientSocket : Option Nat
  connected : Bool

namespace Link

def started (link : Link) : Bool := decide (link.cleanups < link.startups)

def current (link : Link) : Status :=
  match link.clientSocket with
  | none => .closed
  | some handle => link.status handle

def mark (link : Link) (status : Status) : Link :=
  match link.clientSocket with
  | none => link
  | some handle => { link with status := Function.update link.status handle status }

def wsaCleanup (link : Link) : Link := { link with cleanups := link.cleanups + 1 }

def closesocket (link : Link) : Link := link.mark .closed

/-- `*clientSocket = socket(...)`, which fails without a started library;
`creates` stands for everything else that it depends on. -/
def createSocket (creates : Bool) (link : Link) : Link :=
  if creates && link.started then
    { link with
      status := Function.update link.status link.next .created
      next := link.next + 1
      clientSocket := some link.next }
  else { link with clientSocket := none }

def connect (accepts : Bool) (link : Link) : Bool × Link :=
  if accepts && link.current == .created then (true, link.mark .connected) else (false, link)

/-- A `send` or a `recv`. A socket that was never connected cannot succeed. -/
def transfer (succeeds : Bool) (link : Link) : Bool × Link :=
  if succeeds && (link.current == .connected || link.current == .broken) then (true, link)
  else (false, if link.current == .closed then link else link.mark .broken)

def Initialize (starts creates : Bool) (link : Link) : Link :=
  if starts then
    let link := { link with startups := link.startups + 1 }.createSocket creates
    if link.clientSocket.isNone then link.wsaCleanup else link
  else link

def connection (accepts : Bool) (link : Link) : Link :=
  match link.connect accepts with
  | (false, link) => link.closesocket.wsaCleanup
  | (true, link) => { link with connected := true }

/-- The head of `reconnect`. -/
def closeOld (link : Link) : Link :=
  if link.clientSocket.isSome then { link.closesocket with clientSocket := none } else link

def reconnect (creates accepts : Bool) (link : Link) : Link :=
  let link := link.closeOld.createSocket creates
  if link.clientSocket.isNone then link
  else
    match link.connect accepts with
    | (false, link) => { link.closesocket with clientSocket := none }
    | (true, link) => { link with connected := true }

/-- A call whose failure clears the flag. -/
def checked (succeeds : Bool) (link : Link) : Link :=
  let (succeeded, after) := link.transfer succeeds
  if succeeded then after else { after with connected := false }

/-- `Server::sendData(std::string)`. -/
def sendDataText (accepts : Bool) (link : Link) : Link := if link.connected then link.checked accepts else link

def sendData (accepts : Bool) (link : Link) : Link := if link.connected then (link.transfer accepts).2 else link

/-- One turn of `Server::Listening`, without what the callback does. -/
def listening (received : Received) (link : Link) : Link :=
  if link.connected then
    match received with
    | .data _ => link.checked true
    | .closed | .failed => link.checked false
  else link

end Link

/-- `unset` is what an allocated `clientSocket` contains before its first store. -/
def blank (unset : Option Nat) : Link := ⟨0, 0, fun _ => .closed, 0, unset, false⟩

/-- The outcomes of the two calls of the constructor. -/
structure Opening where
  unset : Option Nat
  starts : Bool
  creates : Bool
  accepts : Bool

def Opening.link (opening : Opening) : Link :=
  ((blank opening.unset).Initialize opening.starts opening.creates).connection opening.accepts

inductive Operation where
  | reconnect (creates accepts : Bool)
  | sendDataText (accepts : Bool)
  | sendData (accepts : Bool)
  | listening (received : Received)

def step (link : Link) : Operation → Link
  | .reconnect creates accepts => link.reconnect creates accepts
  | .sendDataText accepts => link.sendDataText accepts
  | .sendData accepts => link.sendData accepts
  | .listening received => link.listening received

def system (opening : Opening) : System Link Operation Unit :=
  ⟨opening.link, fun link operation => some (step link operation, ())⟩

end VirtualLan.Winsock
