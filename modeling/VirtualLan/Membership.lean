import VirtualLan.Library.Program
import VirtualLan.Packet

/-! The client's view of the lobby, `Lobby.h`, and the two `sendData` functions
of `Server.cpp`. Its state is what the callbacks read and change. -/

namespace VirtualLan.Peer
open Program

structure Client where
  ip : Bytes
  deriving DecidableEq

structure Server where
  connected : Bool
  deriving DecidableEq

structure Lobby where
  memberList : List Client
  myip : Bytes
  join : Bool
  deriving DecidableEq

/-- The state of a client process, the messages that it put on its socket and
the packets that it handed to `WintunSendPacket`. -/
structure World where
  server : Server
  lobby : Lobby
  sent : List Bytes
  injected : List Bytes
  deriving DecidableEq

abbrev Cpp := Program Fault World

structure Data where
  data : Bytes
  size : Nat

section Network
variable (accepts : Bool)

/-- `Server::sendData(std::string)`; `accepts` tells whether `send` succeeds. -/
def sendDataText (packet : Bytes) : Cpp Unit := do
  let world ← get
  if world.server.connected then
    if accepts then set { world with sent := world.sent ++ [packet] }
    else set { world with server := { world.server with connected := false } }

def sendData (packet : Data) : Cpp Unit := do
  let world ← get
  if world.server.connected then
    if accepts then set { world with sent := world.sent ++ [packet.data.take packet.size] }

/-- The first send of `joinlLobby`; two seconds later it calls `getLobbyMembers`. -/
def joinRequest : Cpp Unit := do
  sendDataText accepts (bytes "command join " ++ (← get).lobby.myip)

def getLobbyMembers : Cpp Unit := do
  sendDataText accepts (bytes "command list " ++ (← get).lobby.myip)

def leaveLobby : Cpp Unit := do
  sendDataText accepts (bytes "command leave " ++ (← get).lobby.myip)
  modify fun world => { world with lobby := { world.lobby with join := false } }

end Network

/-- The `find`, `substr` and `erase` loop of `handleResponse`. -/
def tokenize (str : Bytes) : List Bytes :=
  match found : str.findIdx? (· == 0x20) with
  | none => [str]
  | some pos => str.take pos :: tokenize (str.drop (pos + 1))
termination_by str.length
decreasing_by
  have inside := (List.findIdx?_eq_some_iff_getElem.mp found).1
  rw [List.length_drop]
  omega

def token (tokens : List Bytes) (index : Nat) : Except Fault Bytes :=
  match tokens[index]? with
  | some text => .ok text
  | none => .error .outOfBounds

def setJoin (join : Bool) : Cpp Unit :=
  modify fun world => { world with lobby := { world.lobby with join := join } }

def setMembers (memberList : List Client) : Cpp Unit :=
  modify fun world => { world with lobby := { world.lobby with memberList := memberList } }

/-- The loop takes the tokens from the fourth to the last but one. -/
def updateLobbyList (tokens : List Bytes) : Cpp Unit :=
  setMembers (((tokens.take (tokens.length - 1)).drop 3).map Client.mk)

def handleResponse (command : Bytes) : Cpp Unit := do
  let tokens := tokenize command
  if (← token tokens 1) = bytes "join" then
    if (← token tokens 2) = bytes "1" then setJoin true
  if (← token tokens 1) = bytes "list" then
    if (← token tokens 2) = bytes "1" then updateLobbyList tokens
  if (← token tokens 1) = bytes "leave" then
    if (← token tokens 2) = bytes "1" then
      setMembers []
      setJoin false
  if (← token tokens 1) = bytes "error" then setJoin false

end VirtualLan.Peer
