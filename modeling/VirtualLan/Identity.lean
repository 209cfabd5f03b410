import VirtualLan.Packet

/-! The address that a machine gives itself, `getIP` of `functions.cpp`. It is
computed from the volume serial number of the system drive. -/

namespace VirtualLan.Peer

def hexDigit (value : Nat) : UInt8 := UInt8.ofNat (if value < 10 then 0x30 + value else 0x37 + value)

/-- The last `width` upper-case hexadecimal digits of a number. -/
def hexText : Nat → Nat → Bytes
  | 0, _ => []
  | width + 1, value => hexText width (value / 16) ++ [hexDigit (value % 16)]

/-- `%08X` of what `GetVolumeInformation` found; `none` stands for its failure. -/
def getVolumeSerialNumber : Option UInt32 → Bytes
  | some serialNumber => hexText 8 serialNumber.toNat
  | none => []

/-- `serial[index]`; behind the last character stands the terminator. -/
def charAt (serial : Bytes) (index : Nat) : Except Fault Nat :=
  if index = serial.length then .ok 0 else (readByte serial index).map UInt8.toNat

/-- The loop of `getIP` from `i` on, `rounds` times. -/
def appendParts (serial : Bytes) : Nat → Nat → Bytes → Except Fault Bytes
  | 0, _, ip => .ok ip
  | rounds + 1, i, ip => do
    let a := (← charAt serial (i * 2)) + (← charAt serial (i * 2 + 1))
    let a := if a > 250 then a % 250 else a
    appendParts serial rounds (i + 1) (ip ++ bytes "." ++ encode (Nat.toDigits 10 a))

def getIP (volume : Option UInt32) : Except Fault Bytes :=
  appendParts (getVolumeSerialNumber volume) 3 0 (bytes "100")

end VirtualLan.Peer
