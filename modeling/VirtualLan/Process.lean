import VirtualLan.Identity
import VirtualLan.Callbacks
import VirtualLan.Upkeep

/-! The client as a process: its interface thread, `WintunManager.cpp`, the address
that its adapter gets, and the commands of `main`, `sourse.cpp`. -/

namespace VirtualLan.Peer
open Program

/-- A result of `WintunReceivePacket`; without a packet, `GetLastError` says whether
there was merely none. -/
inductive Incoming where
  | packet (data : Bytes)
  | noMoreItems
  | failed

/-- One pass of `WintunManager::Listening`: the server and the lobby as the other
threads have left them, whether a `send` would succeed, and what the driver returns. -/
structure Pass where
  server : Server
  lobby : Lobby
  accepts : Bool
  incoming : Incoming

/-- What the thread has done: the world of the process, and the packets that it gave
back with `WintunReleaseReceivePacket`. -/
structure Adapter where
  world : World
  released : List Bytes

/-- `WintunManager::Listening` on the successive passes. A callback that throws ends
the process. -/
def listening (zlib : Zlib) (unset : UInt16) (adapter : Adapter) : List Pass → Except Fault Unit × Adapter
  | [] => (.ok (), adapter)
  | pass :: passes =>
    let world := { adapter.world with server := pass.server, lobby := pass.lobby }
    match pass.incoming with
    | .packet data =>
      match run (callbackLitentToInterface zlib pass.accepts unset data) world with
      | (.error fault, after) => (.error fault, ⟨after, adapter.released⟩)
      | (.ok _, after) => listening zlib unset ⟨after, adapter.released ++ [data]⟩ passes
    | .noMoreItems => listening zlib unset ⟨world, adapter.released⟩ passes
    | .failed => (.ok (), ⟨world, adapter.released⟩)

/-- `std::wstring_convert::from_bytes`, which throws a range error. -/
def fromBytes (text : Bytes) : Except Fault Str :=
  match decode text with
  | .ok text => .ok text
  | .error _ => .error .runtimeError

def systemIP (volume : Option UInt32) : Except Fault Str := do fromBytes (← getIP volume)

def subnet : Str := "255.0.0.0".toList

/-- One to three decimal digits for a number up to 255. -/
def octet (part : Str) : Option UInt8 :=
  let value := part.foldl (fun value digit => 10 * value + (digit.toNat - 48)) 0
  if part.length ∈ [1, 2, 3] ∧ (part.all fun char => 48 ≤ char.toNat && char.toNat ≤ 57) ∧ value ≤ 255 then
    some (UInt8.ofNat value)
  else none

/-- `InetPton(AF_INET, ...)`, with the octets in network order. -/
def inetPton (text : Str) : Option Bytes :=
  let parts := text.splitOn '.'
  if parts.length = 4 then parts.mapM octet else none

/-- The address and the mask that `configurationIP` passes to `AddIPAddress`. It does
not ask whether `InetPton` found any; `unset` is what the two variables hold before. -/
def configurationIP (unset : Bytes) (ip subnet : Str) : Bytes × Bytes :=
  ((inetPton ip).getD unset, (inetPton subnet).getD unset)

inductive Command where
  | join
  | members
  | leave
  | text (word : Bytes)
  | reconnect
  deriving DecidableEq

def isBlank (byte : UInt8) : Bool := byte == 0x20 || (9 ≤ byte && byte ≤ 13)

/-- `std::cin >> word`: a word and the input behind it, or nothing at its end. -/
def extract (input : Bytes) : Option (Bytes × Bytes) :=
  let rest := input.dropWhile isBlank
  if rest.isEmpty then none
  else some (rest.takeWhile fun byte => !isBlank byte, rest.dropWhile fun byte => !isBlank byte)

/-- The input of `main`, and the commands that it has carried out. -/
structure Console where
  input : Bytes
  commands : List Command

/-- The commands of one word, of those that read no further one. -/
def plainCommand (a : Bytes) : List Command :=
  if a = bytes "1" then [.join]
  else if a = bytes "2" then [.members]
  else if a = bytes "3" then [.leave]
  else if a = bytes "5" then [.reconnect]
  else []

/-- One pass of the loop of `main`, undefined where it breaks. A word that could not
be read is empty. -/
def mainPass (console : Console) : Option Console :=
  let (a, rest) := (extract console.input).getD ([], [])
  if a = bytes "0" then none
  else if a = bytes "4" then
    let (str, rest) := (extract rest).getD ([], [])
    some ⟨rest, console.commands ++ [.text str]⟩
  else some ⟨rest, console.commands ++ plainCommand a⟩

/-- What a command does to a client, for any outcome of its calls. The lobby is asked
for two seconds after a join. -/
def Command.actions (accepts reaches : Bool) : Command → List Action
  | .join => [.join accepts, .members accepts]
  | .members => [.members accepts]
  | .leave => [.leave accepts]
  | .text word => [.text word accepts]
  | .reconnect => [.reconnect reaches]

end VirtualLan.Peer
