import VirtualLan.Text

/-! The zlib library as the two programs call it. It is not part of the
repository, so its functions are parameters, and what the programs rely on is
the documented contract below. -/

namespace VirtualLan

def zOk : Int := 0
def zDataError : Int := -3
def zBufError : Int := -5

structure ZResult where
  code : Int
  output : Bytes
  deriving DecidableEq

structure Zlib where
  /-- `compress` of zlib.h, into a destination of the given capacity. -/
  compress : Nat → Bytes → ZResult
  /-- `uncompress` of zlib.h, into a destination of the given capacity. -/
  uncompress : Nat → Bytes → ZResult
  /-- Python's `zlib.decompress`, which raises `zlib.error` on `none`. -/
  decompress : Bytes → Option Bytes

def compressBound (sourceLen : Nat) : Nat :=
  sourceLen + (sourceLen >>> 12) + (sourceLen >>> 14) + (sourceLen >>> 25) + 13

namespace Zlib

/-- The stream that `compress` writes when the destination has room for it. -/
def stream (zlib : Zlib) (packet : Bytes) : Bytes := (zlib.compress (compressBound packet.length) packet).output

/-- The RFC 1950 header: method 8, a window of at most 32K, the check bits, and
no preset dictionary. -/
def Header (cmf flg : UInt8) : Prop :=
  cmf.toNat % 16 = 8 ∧ cmf.toNat / 16 ≤ 7 ∧ (cmf.toNat * 256 + flg.toNat) % 31 = 0 ∧ flg.toNat / 32 % 2 = 0

instance (cmf flg : UInt8) : Decidable (Header cmf flg) := by
  unfold Header
  infer_instance

/-- The documented behaviour, for sources up to the largest IP packet. -/
structure Lawful (zlib : Zlib) : Prop where
  compressed : ∀ packet : Bytes, packet.length ≤ 65535 →
    (zlib.compress (compressBound packet.length) packet).code = zOk
  window : ∀ packet : Bytes, packet.length ≤ 65535 → (zlib.stream packet).head? = some 0x78
  restored : ∀ packet : Bytes, packet.length ≤ 65535 → zlib.decompress (zlib.stream packet) = some packet
  uncompressed : ∀ data packet : Bytes, ∀ capacity, zlib.decompress data = some packet →
    packet.length ≤ capacity → zlib.uncompress capacity data = ⟨zOk, packet⟩
  overrun : ∀ data : Bytes, ∀ capacity, (∀ packet, zlib.decompress data = some packet → capacity < packet.length) →
    (zlib.uncompress capacity data).code ≠ zOk
  header : ∀ data packet : Bytes, zlib.decompress data = some packet →
    ∃ cmf flg rest, data = cmf :: flg :: rest ∧ Header cmf flg
  trailing : ∀ data packet tail : Bytes, zlib.decompress data = some packet →
    zlib.decompress (data ++ tail) = some packet
  truncated : ∀ packet part tail : Bytes, packet.length ≤ 65535 → tail ≠ [] →
    zlib.stream packet = part ++ tail → zlib.decompress part = none

end Zlib

private theorem command_bytes : bytes "command" = 0x63 :: bytes "ommand" := by decide

theorem head_of_command {data : Bytes} (starts : (bytes "command").isPrefixOf data = true) :
    data.head? = some 0x63 := by
  cases data with
  | nil => cases starts
  | cons byte tail =>
    rw [command_bytes, List.isPrefixOf_cons_cons, Bool.and_eq_true, beq_iff_eq] at starts
    rw [List.head?_cons, starts.1]

theorem payload_of_head {byte : UInt8} {tail : Bytes} (other : byte ≠ 0x63) :
    (bytes "command").isPrefixOf (byte :: tail) = false := by
  rw [Bool.eq_false_iff]
  intro starts
  exact other (Option.some.inj (head_of_command starts))

namespace Zlib
variable {zlib : Zlib}

/-- Method 8 keeps every stream apart from the letters that begin a command. -/
theorem Lawful.broken_of_head (lawful : zlib.Lawful) {byte : UInt8} {tail : Bytes} (other : byte.toNat % 16 ≠ 8) :
    zlib.decompress (byte :: tail) = none := by
  cases decoded : zlib.decompress (byte :: tail) with
  | none => rfl
  | some packet =>
    obtain ⟨cmf, flg, rest, same, method, _⟩ := lawful.header _ packet decoded
    obtain ⟨rfl, _⟩ := List.cons.inj same
    exact absurd method other

theorem Lawful.payload (lawful : zlib.Lawful) {data packet : Bytes} (decoded : zlib.decompress data = some packet) :
    (bytes "command").isPrefixOf data = false := by
  obtain ⟨cmf, flg, rest, rfl, method, _⟩ := lawful.header data packet decoded
  refine payload_of_head ?_
  rintro rfl
  exact absurd method (by decide)

theorem Lawful.stream_payload (lawful : zlib.Lawful) {packet : Bytes} (small : packet.length ≤ 65535) :
    (bytes "command").isPrefixOf (zlib.stream packet) = false := lawful.payload (lawful.restored packet small)

/-- The library whose functions check the room around one compressor of packets
and one decompressor of streams. -/
def ofCodec (deflate : Bytes → Bytes) (inflate : Bytes → Option Bytes) : Zlib where
  compress capacity packet :=
    if packet.length ≤ 65535 ∧ (deflate packet).length ≤ capacity then ⟨zOk, deflate packet⟩ else ⟨zBufError, []⟩
  uncompress capacity data :=
    match inflate data with
    | some packet => if packet.length ≤ capacity then ⟨zOk, packet⟩ else ⟨zBufError, packet.take capacity⟩
    | none => ⟨zDataError, []⟩
  decompress := inflate

structure Codec (deflate : Bytes → Bytes) (inflate : Bytes → Option Bytes) : Prop where
  bounded : ∀ packet, packet.length ≤ 65535 → (deflate packet).length ≤ compressBound packet.length
  window : ∀ packet, (deflate packet).head? = some 0x78
  restored : ∀ packet, packet.length ≤ 65535 → inflate (deflate packet) = some packet
  header : ∀ data packet, inflate data = some packet → ∃ cmf flg rest, data = cmf :: flg :: rest ∧ Header cmf flg
  trailing : ∀ data packet tail, inflate data = some packet → inflate (data ++ tail) = some packet
  truncated : ∀ packet part tail, packet.length ≤ 65535 → tail ≠ [] → deflate packet = part ++ tail →
    inflate part = none

variable {deflate : Bytes → Bytes} {inflate : Bytes → Option Bytes} {packet : Bytes}

theorem Codec.stream_eq (codec : Codec deflate inflate) (small : packet.length ≤ 65535) :
    (ofCodec deflate inflate).stream packet = deflate packet := by
  simp [stream, ofCodec, small, codec.bounded packet small]

theorem Codec.lawful (codec : Codec deflate inflate) : (ofCodec deflate inflate).Lawful where
  compressed packet small := by simp [ofCodec, small, codec.bounded packet small]
  window packet small := by rw [codec.stream_eq small, codec.window]
  restored packet small := by
    rw [codec.stream_eq small]
    exact codec.restored packet small
  uncompressed data packet capacity accepted room := by
    change inflate data = some packet at accepted
    simp [ofCodec, accepted, room]
  overrun data capacity larger := by
    change ∀ packet, inflate data = some packet → _ at larger
    cases accepted : inflate data with
    | none => simp [ofCodec, accepted, zOk, zDataError]
    | some packet =>
      have narrow : ¬ packet.length ≤ capacity := Nat.not_le_of_lt (larger packet accepted)
      simp [ofCodec, accepted, narrow, zOk, zBufError]
  header := codec.header
  trailing := codec.trailing
  truncated packet part tail small cut whole := by
    rw [codec.stream_eq small] at whole
    exact codec.truncated packet part tail small cut whole

end Zlib

end VirtualLan
