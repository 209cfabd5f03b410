import VirtualLan.Membership

/-! The LZ4 library as `functions.cpp` calls it, and the pair of functions around
it. The library's sources lie next to the client's, but only what its headers
promise matters here. No callback uses this pair. -/

namespace VirtualLan

/-- The returned number, and the bytes that were written. -/
structure Lz4Result where
  code : Int
  output : Bytes
  deriving DecidableEq

structure Lz4 where
  /-- `LZ4_compress_HC` into a destination of the given capacity. -/
  compressHC : Nat → Bytes → Lz4Result
  /-- `LZ4_decompress_safe` into a destination of the given capacity. -/
  decompressSafe : Nat → Bytes → Lz4Result

namespace Lz4

def maxInputSize : Nat := 0x7E000000

def compressBound (inputSize : Nat) : Nat :=
  if inputSize > maxInputSize then 0 else inputSize + inputSize / 255 + 16

/-- The block that `LZ4_compress_HC` writes when the destination has room for it. -/
def block (lz4 : Lz4) (packet : Bytes) : Bytes := (lz4.compressHC (compressBound packet.length) packet).output

/-- The documented behaviour. -/
structure Lawful (lz4 : Lz4) : Prop where
  compressed : ∀ packet : Bytes, packet.length ≤ maxInputSize →
    (lz4.compressHC (compressBound packet.length) packet).code = (lz4.block packet).length ∧ lz4.block packet ≠ []
  restored : ∀ packet : Bytes, ∀ capacity, packet.length ≤ maxInputSize → packet.length ≤ capacity →
    lz4.decompressSafe capacity (lz4.block packet) = ⟨packet.length, packet⟩

/-- A malformed block, or one that does not fit, is reported by a negative number. -/
def Fails (lz4 : Lz4) (capacity : Nat) (data : Bytes) : Prop := (lz4.decompressSafe capacity data).code < 0

end Lz4

namespace Peer

def compressLZ4 (lz4 : Lz4) (input : Bytes) : Data :=
  let compressed := lz4.compressHC (Lz4.compressBound input.length) input
  ⟨compressed.output, compressed.code.toNat⟩

/-- Either branch on the library's answer only prints. -/
def decompressLZ4 (lz4 : Lz4) (compressedData : Bytes) : Data :=
  let inputSize := 1500
  let decompressed := lz4.decompressSafe inputSize compressedData
  if decompressed.code > 0 then ⟨compressedData, compressedData.length⟩
  else ⟨compressedData, compressedData.length⟩

end Peer

end VirtualLan
