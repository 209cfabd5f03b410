import VirtualLan.Text

/-! The packet parser of the client, `Packet.cpp`. Reads go through the bounds of
the buffer, so that a read outside of it is an error of its own. -/

namespace VirtualLan.Peer

/-- How the client's code can fail: its two exceptions, and an access outside of
a buffer or a vector, which C++ leaves undefined. -/
inductive Fault where
  | invalidArgument
  | runtimeError
  | outOfBounds
  deriving DecidableEq, Repr

def readByte (raw : Bytes) (offset : Nat) : Except Fault UInt8 :=
  match raw[offset]? with
  | some byte => .ok byte
  | none => .error .outOfBounds

def ntohs (high low : UInt8) : UInt16 := high.toUInt16 * 256 + low.toUInt16

/-- `inet_ntop(AF_INET, ...)` on the four bytes at an offset. -/
def inetNtop (raw : Bytes) (offset : Nat) : Except Fault Bytes := do
  let a ← readByte raw offset
  let b ← readByte raw (offset + 1)
  let c ← readByte raw (offset + 2)
  let d ← readByte raw (offset + 3)
  return encode (dotted a b c d)

/-- The fields of `Packet`; `payload` is an offset into `raw_pkt`, and absent
when the constructor leaves the pointer unset. -/
structure Packet where
  ethernetHeaderSize : Nat
  packetLength : UInt16
  ipHeaderLength : UInt16
  transHeaderLength : UInt16
  payloadLength : UInt16
  payload : Option Nat
  srcIp : Bytes
  dstIp : Bytes
  deriving DecidableEq

/-- The transport header's length and the offset of the payload. `unset` is the
value found in `trans_header_length` when nothing is stored there. -/
def Packet.transport (unset : UInt16) (raw : Bytes) (start : Nat) (protocol : UInt8) :
    Except Fault (UInt16 × Option Nat) :=
  if protocol = 6 then do
    let offsetReserved ← readByte raw (start + 12)
    let transHeaderLength := offsetReserved.toUInt16 / 16 * 4
    return (transHeaderLength, some (start + transHeaderLength.toNat))
  else if protocol = 17 then return (8, some (start + 8))
  else return (unset, none)

def Packet.create (unset : UInt16) (rawPkt : Option Bytes) (ETHERNET_FRAME : Bool) : Except Fault Packet :=
  let ethernetHeaderSize := if ETHERNET_FRAME then 14 else 0
  match rawPkt with
  | none => .error .invalidArgument
  | some raw => do
    let ihl := (← readByte raw ethernetHeaderSize) % 16
    let ipHeaderLength := ihl.toUInt16 * 4
    let packetLength := ntohs (← readByte raw (ethernetHeaderSize + 2)) (← readByte raw (ethernetHeaderSize + 3)) + 14
    if packetLength < ipHeaderLength then .error .runtimeError
    else do
      let protocol ← readByte raw (ethernetHeaderSize + 9)
      let (transHeaderLength, payload) ← transport unset raw (ethernetHeaderSize + ipHeaderLength.toNat) protocol
      let srcIp ← inetNtop raw (ethernetHeaderSize + 12)
      let dstIp ← inetNtop raw (ethernetHeaderSize + 16)
      let payloadLength := packetLength - (ethernetHeaderSize.toUInt16 + ipHeaderLength + transHeaderLength)
      return ⟨ethernetHeaderSize, packetLength, ipHeaderLength, transHeaderLength, payloadLength, payload, srcIp, dstIp⟩

end VirtualLan.Peer
