import VirtualLan.PaddedZlib
import VirtualLan.Proofs.Delivery

/-! Three limits of 1500 bytes: the relay's read, the client's read, and the
packet. A compressor may make a packet longer, so they agree only for packets that
leave room for the longest stream. -/

namespace VirtualLan.Peer
open Relay (greeting)

/-- `compress` never writes past the bound that it is documented with. -/
def Bounded (zlib : Zlib) : Prop :=
  ∀ packet : Bytes, packet.length ≤ 65535 → (zlib.stream packet).length ≤ compressBound packet.length

def message (zlib : Zlib) (packet : Bytes) : Bytes :=
  (compressZlib zlib packet).data.take (compressZlib zlib packet).size

/-- One read takes the whole message, and both decompressors restore the packet
from what one read takes. -/
structure OneRead (zlib : Zlib) (packet : Bytes) : Prop where
  short : (message zlib packet).length ≤ 1500
  relay : zlib.decompress ((message zlib packet).take 1500) = some packet
  client : unpacked zlib ((message zlib packet).take bufferSize) = packet

variable {zlib : Zlib} {packet : Bytes}

theorem oneRead_of_short (lawful : zlib.Lawful) (small : packet.length ≤ 1500)
    (short : (message zlib packet).length ≤ 1500) : OneRead zlib packet := by
  have whole : (message zlib packet).take 1500 = message zlib packet := List.take_of_length_le short
  have restored : zlib.decompress (message zlib packet) = some packet := by
    rw [message, compressZlib_stream lawful (by omega)]
    exact lawful.restored packet (by omega)
  refine ⟨short, by rw [whole, restored], ?_⟩
  rw [bufferSize, whole]
  exact (decompressZlib_size lawful restored small).1

theorem message_length (lawful : zlib.Lawful) (bounded : Bounded zlib) (small : packet.length ≤ 1500) :
    (message zlib packet).length ≤ packet.length + 13 := by
  have bound := bounded packet (by omega)
  have shift : ∀ bits, 12 ≤ bits → packet.length >>> bits = 0 := by
    intro bits large
    rw [Nat.shiftRight_eq_div_pow]
    apply Nat.div_eq_of_lt
    have power := Nat.pow_le_pow_right (by decide : 0 < 2) large
    omega
  rw [compressBound, shift 12 (by decide), shift 14 (by decide), shift 25 (by decide)] at bound
  rw [message, compressZlib_stream lawful (by omega)]
  omega

theorem padded_length (small : packet.length ≤ 65535) :
    (message PaddedZlib.zlib packet).length = packet.length + 13 := by
  rw [message, compressZlib_stream PaddedZlib.lawful small, PaddedZlib.zlib, PaddedZlib.codec.stream_eq small,
    PaddedZlib.length_deflate]

theorem bounded_ofCodec {deflate : Bytes → Bytes} {inflate : Bytes → Option Bytes}
    (codec : Zlib.Codec deflate inflate) :
    Bounded (Zlib.ofCodec deflate inflate) := by
  intro packet small
  rw [codec.stream_eq small]
  exact codec.bounded packet small

/-- Whatever the compressor, a packet fits one read exactly when there is room for
13 more bytes. -/
theorem compressZlib_oneRead_iff (small : packet.length ≤ 1500) :
    (∀ zlib : Zlib, zlib.Lawful → Bounded zlib → OneRead zlib packet) ↔ packet.length ≤ 1487 := by
  constructor
  · intro always
    have short := (always PaddedZlib.zlib PaddedZlib.lawful (bounded_ofCodec PaddedZlib.codec)).short
    rw [padded_length (by omega)] at short
    omega
  · intro room zlib lawful bounded
    have most := message_length lawful bounded small
    exact oneRead_of_short lawful small (by omega)

theorem compressZlib_oneRead_iff_greeting : OneRead StoredZlib.zlib greeting :=
  (compressZlib_oneRead_iff (by decide)).mpr (by decide) StoredZlib.zlib StoredZlib.lawful
    (bounded_ofCodec StoredZlib.codec)

/-- A packet of 1500 bytes that does not compress. -/
def noise : Bytes := (List.range 1500).map fun index => UInt8.ofNat (index * index * index % 65521 / 256)

/-- Stored in a block, these bytes make a message of 1511 bytes. -/
theorem noise_not_oneRead : noise.length = 1500 ∧ StoredZlib.zlib.Lawful ∧ Bounded StoredZlib.zlib ∧
    (message StoredZlib.zlib noise).length = 1511 ∧ ¬ OneRead StoredZlib.zlib noise := by
  have size : noise.length = 1500 := by rw [noise, List.length_map, List.length_range]
  have long : (message StoredZlib.zlib noise).length = 1511 := by
    rw [message, compressZlib_stream StoredZlib.lawful (by omega)]
    exact (congrArg List.length (StoredZlib.codec.stream_eq (by omega))).trans (by rw [StoredZlib.length_deflate, size])
  refine ⟨size, StoredZlib.lawful, bounded_ofCodec StoredZlib.codec, long, ?_⟩
  intro oneRead
  have short := oneRead.short
  omega

end VirtualLan.Peer
