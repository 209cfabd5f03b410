import VirtualLan.Process
import VirtualLan.Proofs.Identity

/-! The addresses of one machine. The text that it gives the relay in its commands,
the number that it gives its adapter and the destinations that the relay finds in
packets are three readings of one address. -/

namespace VirtualLan.Peer
open Relay

variable {packet : Bytes} {a b c d : UInt8}

theorem octet_decimal (byte : UInt8) : octet (decimal byte) = some byte := by
  have all : ∀ value : Fin 256, octet (Nat.toDigits 10 value) = some (UInt8.ofNat value) := by decide +kernel
  have same := all byte.toBitVec.toFin
  rw [show UInt8.ofNat byte.toBitVec.toFin.val = byte from UInt8.ofNat_toNat] at same
  exact same

theorem inetPton_dotted (a b c d : UInt8) : inetPton (dotted a b c d) = some [a, b, c, d] := by
  simp [inetPton, dotted_splitOn, octet_decimal]

theorem fromBytes_encode (text : Str) : fromBytes (encode text) = .ok text := by
  rw [fromBytes, decode_encode]

theorem systemIP_eq (serial : UInt32) : systemIP (some serial) = .ok (machineAddress serial) := by
  rw [systemIP, getIP_eq]
  exact fromBytes_encode _

theorem inetPton_subnet : inetPton subnet = some [255, 0, 0, 0] := by decide

private theorem and_full (byte : UInt8) : byte &&& 255 = byte := UInt8.eq_of_toBitVec_eq (BitVec.and_allOnes)

/-- Under this mask the first octet decides. -/
theorem masked_eq_iff (a' b' c' d' : UInt8) : List.zipWith (· &&& ·) [a, b, c, d] [255, 0, 0, 0] =
    List.zipWith (· &&& ·) [a', b', c', d'] [255, 0, 0, 0] ↔ a = a' := by
  simp [and_full]

theorem dotted_injective {a' b' c' d' : UInt8} (same : dotted a b c d = dotted a' b' c' d') :
    [a, b, c, d] = [a', b', c', d'] := by
  have read := congrArg inetPton same
  rw [inetPton_dotted, inetPton_dotted] at read
  exact Option.some.inj read

theorem destination_named (four : (packet.drop 16).take 4 = [a, b, c, d]) (b' c' d' : UInt8) :
    [a, b, c, d] = [100, b', c', d'] ↔ getDestinationIp packet = .ok (some (dotted 100 b' c' d')) := by
  rw [getDestinationIp_some_iff, four]
  constructor
  · intro same
    exact ⟨b', c', d', same, rfl⟩
  · rintro ⟨_, _, _, same, text⟩
    rw [same, ← dotted_injective text]

theorem destination_found (four : (packet.drop 16).take 4 = [a, b, c, d]) :
    a = 100 ↔ ∃ key, getDestinationIp packet = .ok (some key) := by
  constructor
  · rintro rfl
    exact ⟨dotted 100 b c d, getDestinationIp_dotted four⟩
  · rintro ⟨key, found⟩
    obtain ⟨b', c', d', other, _⟩ := getDestinationIp_some_iff.mp found
    rw [four] at other
    cases other
    rfl

/-- What a client configures fits what the relay does, on every machine whose volume has
a serial number to read: the text of its join, read as an address, is the adapter's; a
destination agrees with this address under the adapter's mask exactly if the relay looks
a key up for it; and a packet for the adapter's own address is one for the key that the
machine joins under. -/
theorem adapter_matches_relay (unset : Bytes) (serial : UInt32) : ∃ ip mask,
    (systemIP (some serial)).map (configurationIP unset · subnet) = .ok (ip, mask) ∧
    inetNtoa ip = .ok (machineAddress serial) ∧ getIP (some serial) = .ok (encode (machineAddress serial)) ∧
    ∀ packet a b c d, (packet.drop 16).take 4 = [a, b, c, d] →
      (List.zipWith (· &&& ·) [a, b, c, d] mask = List.zipWith (· &&& ·) ip mask ↔
        ∃ key, getDestinationIp packet = .ok (some key)) ∧
      ([a, b, c, d] = ip ↔ getDestinationIp packet = .ok (some (machineAddress serial))) := by
  refine ⟨[100, part serial 0, part serial 1, part serial 2], [255, 0, 0, 0], ?_, rfl, getIP_eq serial, ?_⟩
  · rw [systemIP_eq]
    simp only [Except.map, configurationIP, machineAddress, inetPton_dotted, inetPton_subnet, Option.getD_some]
  · intro packet a b c d four
    constructor
    · rw [masked_eq_iff]
      exact destination_found four
    · exact destination_named four _ _ _

end VirtualLan.Peer
