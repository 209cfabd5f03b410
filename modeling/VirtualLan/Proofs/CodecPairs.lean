import VirtualLan.LiteralLz4
import VirtualLan.Proofs.Delivery

/-! The two pairs of functions that could take each other's place in the callbacks.
The LZ4 decoder drops what the library decompressed and hands its input back. -/

namespace VirtualLan.Peer

/-- The bytes of a result, as many as its size says. -/
def wire (data : Data) : Bytes := data.data.take data.size

/-- A result of the packet's size with the packet's bytes. -/
def Yields (result : Data) (packet : Bytes) : Prop := result.size = packet.length ∧ wire result = packet

/-- Each decoder restores what its encoder made of the packet. -/
structure Restored (zlib : Zlib) (lz4 : Lz4) (packet : Bytes) : Prop where
  zlib : Yields (decompressZlib zlib (wire (compressZlib zlib packet))) packet
  lz4 : Yields (decompressLZ4 lz4 (wire (compressLZ4 lz4 packet))) packet

/-- Each decoder reports by a size of zero that its library failed. -/
structure Reported (zlib : Zlib) (lz4 : Lz4) (data : Bytes) : Prop where
  zlib : (zlib.uncompress maxDecompressedSize data).code ≠ zOk → (decompressZlib zlib data).size = 0
  lz4 : lz4.Fails maxDecompressedSize data → (decompressLZ4 lz4 data).size = 0

variable {zlib : Zlib} {lz4 : Lz4} {packet data : Bytes}

theorem decompressZlib_yields (lawful : zlib.Lawful) (small : packet.length ≤ 1500) :
    Yields (decompressZlib zlib (wire (compressZlib zlib packet))) packet := by
  rw [wire, compressZlib_stream lawful (by omega)]
  obtain ⟨restored, size⟩ := decompressZlib_size lawful (lawful.restored packet (by omega)) small
  exact ⟨size, restored⟩

theorem decompressZlib_reports (failed : (zlib.uncompress maxDecompressedSize data).code ≠ zOk) :
    (decompressZlib zlib data).size = 0 := by
  simp only [decompressZlib, if_neg failed]

/-- The LZ4 decoder returns its input, whatever the library answers. -/
theorem decompressLZ4_eq (lz4 : Lz4) (data : Bytes) : decompressLZ4 lz4 data = ⟨data, data.length⟩ := by
  simp only [decompressLZ4, ite_self]

theorem compressLZ4_wire (lawful : lz4.Lawful) (small : packet.length ≤ Lz4.maxInputSize) :
    wire (compressLZ4 lz4 packet) = lz4.block packet := by
  have written := (lawful.compressed packet small).1
  simp only [wire, compressLZ4, written, Int.toNat_natCast]
  exact List.take_length

theorem decompressLZ4_yields_iff (lawful : lz4.Lawful) (small : packet.length ≤ 1500) :
    Yields (decompressLZ4 lz4 (wire (compressLZ4 lz4 packet))) packet ↔ lz4.block packet = packet := by
  have large : packet.length ≤ Lz4.maxInputSize := by
    rw [Lz4.maxInputSize]
    omega
  rw [decompressLZ4_eq, compressLZ4_wire lawful large, Yields, wire, List.take_length]
  constructor
  · exact And.right
  · intro same
    exact ⟨congrArg List.length same, same⟩

/-- A packet is restored by both pairs exactly when LZ4 makes the packet itself of
it; and a failure is reported by both exactly when LZ4 does not fail or there were
no bytes at all. -/
theorem codecs_interchangeable_iff (lawful : zlib.Lawful) (lawful' : lz4.Lawful) :
    (∀ packet, packet.length ≤ 1500 → (Restored zlib lz4 packet ↔ lz4.block packet = packet)) ∧
    ∀ data, Reported zlib lz4 data ↔ (lz4.Fails maxDecompressedSize data → data = []) := by
  constructor
  · intro packet small
    rw [← decompressLZ4_yields_iff lawful' small]
    exact ⟨Restored.lz4, fun restored => ⟨decompressZlib_yields lawful small, restored⟩⟩
  · intro data
    have same : (decompressLZ4 lz4 data).size = 0 ↔ data = [] := by rw [decompressLZ4_eq, List.length_eq_zero_iff]
    constructor
    · intro reported failed
      exact same.mp (reported.lz4 failed)
    · intro empty
      exact ⟨decompressZlib_reports, fun failed => same.mpr (empty failed)⟩

theorem codecs_interchangeable_iff_literals :
    (Restored StoredZlib.zlib LiteralLz4.lz4 [0x45] ↔ LiteralLz4.lz4.block [0x45] = [0x45]) ∧
    Reported StoredZlib.zlib LiteralLz4.lz4 (LiteralLz4.lz4.block [0x45]) := by
  obtain ⟨restored, reported⟩ := codecs_interchangeable_iff StoredZlib.lawful LiteralLz4.lawful
  refine ⟨restored [0x45] (by decide), (reported _).mpr ?_⟩
  have answer : ¬ LiteralLz4.lz4.Fails maxDecompressedSize (LiteralLz4.lz4.block [0x45]) := by
    unfold Lz4.Fails
    decide
  exact fun failed => absurd failed answer

/-- A packet of one byte comes back as its block, and a broken block as it was. -/
theorem literals_not_interchangeable :
    (decompressLZ4 LiteralLz4.lz4 (wire (compressLZ4 LiteralLz4.lz4 [0x45]))).data = [0x10, 0x45] ∧
    ¬ Restored StoredZlib.zlib LiteralLz4.lz4 [0x45] ∧
    LiteralLz4.lz4.Fails maxDecompressedSize [0xff] ∧ ¬ Reported StoredZlib.zlib LiteralLz4.lz4 [0xff] := by
  have failed : LiteralLz4.lz4.Fails maxDecompressedSize [0xff] := by
    unfold Lz4.Fails
    decide
  refine ⟨by decide, ?_, failed, ?_⟩
  · intro restored
    have size := restored.lz4.1
    revert size
    decide
  · intro reported
    have size := reported.lz4 failed
    revert size
    decide

end VirtualLan.Peer
