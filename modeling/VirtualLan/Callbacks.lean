import VirtualLan.Membership
import VirtualLan.Zlib

/-! The two callbacks of the client and their codecs, `functions.cpp`, with the
calls around them: `WintunManager::sendPacket` and one turn of the receive loop
`Server::Listening`. -/

namespace VirtualLan.Peer
open Program

section Codec
variable (zlib : Zlib)

def compressZlib (input : Bytes) : Data :=
  let compressed := zlib.compress (compressBound input.length) input
  if compressed.code = zOk then ⟨compressed.output, compressed.output.length⟩ else ⟨[], 0⟩

def maxDecompressedSize : Nat := 1500

def decompressZlib (compressedData : Bytes) : Data :=
  let decompressed := zlib.uncompress maxDecompressedSize compressedData
  ⟨decompressed.output, if decompressed.code = zOk then decompressed.output.length else 0⟩

end Codec

def startsWithCommand (data : Bytes) : Bool :=
  let commandPrefix := bytes "command"
  if data.length < commandPrefix.length then false else data.take commandPrefix.length == commandPrefix

/-- The characters of a C string up to its terminator. -/
def cString (text : Bytes) : Bytes := text.takeWhile (· != 0)

section Outbound
variable (zlib : Zlib) (accepts : Bool)

/-- The loop over `memberList`, which breaks at the first match. -/
def sendToMember (temp : Packet) (packet : Bytes) : List Client → Cpp Unit
  | [] => pure ()
  | client :: clients => do
    if (← get).lobby.join && cString temp.dstIp == cString client.ip then
      sendData accepts (compressZlib zlib packet)
    else sendToMember temp packet clients

/-- The callback on a packet in the memory of the driver's ring: the parser, which
knows no size, reads what stands there `behind` the packet as well. `unset` is the
indeterminate field of the parsed packet. -/
def callbackInRing (unset : UInt16) (behind packet : Bytes) : Cpp Unit := do
  let temp ← Packet.create unset (some (packet ++ behind)) false
  sendToMember zlib accepts temp packet (← get).lobby.memberList

/-- The callback with every read behind the packet's end counted as a fault. -/
def callbackLitentToInterface (unset : UInt16) (packet : Bytes) : Cpp Unit :=
  callbackInRing zlib accepts unset [] packet

end Outbound

section Inbound
variable (zlib : Zlib) (allocates : Nat → Bool)

/-- `WintunManager::sendPacket`; `allocates` tells for which sizes
`WintunAllocateSendPacket` returns a buffer. -/
def sendPacket (packet : Data) : Cpp Unit :=
  if allocates packet.size then
    modify fun world => { world with injected := world.injected ++ [packet.data.take packet.size] }
  else pure ()

/-- What a message that is no command leaves on the interface. -/
def delivered (data : Bytes) : List Bytes :=
  let packet := decompressZlib zlib data
  if allocates packet.size then [packet.data.take packet.size] else []

def callbackLiteningToServer (packet : Bytes) : Cpp Unit :=
  if startsWithCommand packet then handleResponse packet
  else sendPacket allocates (decompressZlib zlib packet)

inductive Received where
  | data (buffer : Bytes)
  | closed
  | failed

def bufferSize : Nat := 1500

/-- One turn of `Server::Listening` while `connected` is set. The store of the
terminator behind the received bytes must lie inside the buffer. -/
def listeningTurn : Received → Cpp Unit
  | .data buffer => do
    if buffer.length < bufferSize then callbackLiteningToServer zlib allocates buffer
    else throw .outOfBounds
  | .closed | .failed => modify fun world => { world with server := { world.server with connected := false } }

end Inbound

end VirtualLan.Peer
