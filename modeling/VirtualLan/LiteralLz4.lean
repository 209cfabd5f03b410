import VirtualLan.Lz4

/-! A concrete LZ4 restricted to blocks of one run of literals. It shows that the
contract can be met, and packets of at most twelve bytes become the very blocks
that LZ4 makes of them. -/

namespace VirtualLan.LiteralLz4

/-- What a length has beyond the fifteen of its token, in steps of 255. -/
def lengthBytes (extra : Nat) : Bytes := List.replicate (extra / 255) 255 ++ [UInt8.ofNat (extra % 255)]

def readLength : Bytes → Option (Nat × Bytes)
  | [] => none
  | byte :: rest =>
    if byte = 255 then (readLength rest).map fun (extra, literals) => (extra + 255, literals)
    else some (byte.toNat, rest)

def compress (packet : Bytes) : Bytes :=
  if packet.length < 15 then UInt8.ofNat (packet.length * 16) :: packet
  else 0xf0 :: (lengthBytes (packet.length - 15) ++ packet)

/-- The length of the literals and what stands behind it. -/
def readToken : Bytes → Option (Nat × Bytes)
  | [] => none
  | token :: rest =>
    if token.toNat / 16 = 15 then (readLength rest).map fun (extra, literals) => (15 + extra, literals)
    else some (token.toNat / 16, rest)

def decompress (data : Bytes) : Option Bytes :=
  (readToken data).bind fun (size, literals) => if literals.length = size then some literals else none

def lz4 : Lz4 where
  compressHC capacity packet :=
    if (compress packet).length ≤ capacity then ⟨(compress packet).length, compress packet⟩ else ⟨0, []⟩
  decompressSafe capacity data :=
    match decompress data with
    | some packet => if packet.length ≤ capacity then ⟨packet.length, packet⟩ else ⟨-1, []⟩
    | none => ⟨-1, []⟩

theorem length_lengthBytes (extra : Nat) : (lengthBytes extra).length = extra / 255 + 1 := by
  rw [lengthBytes, List.length_append, List.length_replicate, List.length_singleton]

theorem readLength_replicate (steps : Nat) (rest : Bytes) : readLength (List.replicate steps 255 ++ rest) =
    (readLength rest).map fun (extra, literals) => (extra + 255 * steps, literals) := by
  induction steps with
  | zero => simp
  | succ steps ih =>
    rw [List.replicate_succ, List.cons_append, readLength, if_pos rfl, ih]
    cases readLength rest with
    | none => simp only [Option.map_none]
    | some found =>
      simp only [Option.map_some, Option.some.injEq, Prod.mk.injEq, and_true]
      omega

theorem readLength_lengthBytes (extra : Nat) (literals : Bytes) :
    readLength (lengthBytes extra ++ literals) = some (extra, literals) := by
  have small : extra % 255 < 255 := Nat.mod_lt _ (by decide)
  have number : (UInt8.ofNat (extra % 255)).toNat = extra % 255 := by
    rw [UInt8.toNat_ofNat']
    omega
  have last : UInt8.ofNat (extra % 255) ≠ 255 := by
    intro same
    rw [same] at number
    change 255 = _ at number
    omega
  rw [lengthBytes, List.append_assoc, readLength_replicate, List.singleton_append, readLength, if_neg last, number]
  simp only [Option.map_some, Option.some.injEq, Prod.mk.injEq, and_true]
  omega

theorem decompress_compress (packet : Bytes) : decompress (compress packet) = some packet := by
  have read : readToken (compress packet) = some (packet.length, packet) := by
    unfold compress
    split
    next short =>
      have number : (UInt8.ofNat (packet.length * 16)).toNat = packet.length * 16 := by
        rw [UInt8.toNat_ofNat']
        omega
      rw [readToken, number, if_neg (by omega)]
      congr 2
      omega
    next long =>
      rw [readToken, if_pos (by decide), readLength_lengthBytes]
      simp only [Option.map_some, Option.some.injEq, Prod.mk.injEq, and_true]
      omega
  rw [decompress, read]
  exact if_pos rfl

theorem length_compress (packet : Bytes) : (compress packet).length ≤ packet.length + packet.length / 255 + 16 := by
  unfold compress
  split
  · rw [List.length_cons]
    omega
  · rw [List.length_cons, List.length_append, length_lengthBytes]
    omega

theorem block_eq {packet : Bytes} (small : packet.length ≤ Lz4.maxInputSize) : lz4.block packet = compress packet := by
  have room : (compress packet).length ≤ Lz4.compressBound packet.length := by
    rw [Lz4.compressBound, if_neg (Nat.not_lt_of_le small)]
    exact length_compress packet
  simp only [Lz4.block, lz4, if_pos room]

theorem lawful : lz4.Lawful where
  compressed packet small := by
    have room : (compress packet).length ≤ Lz4.compressBound packet.length := by
      rw [Lz4.compressBound, if_neg (Nat.not_lt_of_le small)]
      exact length_compress packet
    rw [block_eq small]
    refine ⟨by simp only [lz4, if_pos room], ?_⟩
    unfold compress
    split <;> exact List.cons_ne_nil _ _
  restored packet capacity small fits := by
    rw [block_eq small]
    simp only [lz4, decompress_compress, if_pos fits]

end VirtualLan.LiteralLz4
