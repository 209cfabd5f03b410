import VirtualLan.Zlib

/-! A concrete zlib restricted to one final stored block, RFC 1950 header and
Adler-32 trailer included. It shows that the contract can be met, and on
incompressible packets it writes exactly the bytes that zlib itself writes. -/

namespace VirtualLan.StoredZlib

def adlerStep (sums : Nat × Nat) (byte : UInt8) : Nat × Nat :=
  let low := (sums.1 + byte.toNat) % 65521
  (low, (sums.2 + low) % 65521)

def bigEndian (value : Nat) : Bytes := [UInt8.ofNat (value / 256), UInt8.ofNat value]

def littleEndian (value : Nat) : Bytes := [UInt8.ofNat value, UInt8.ofNat (value / 256)]

def adler32 (data : Bytes) : Bytes :=
  let sums := data.foldl adlerStep (1, 0)
  bigEndian sums.2 ++ bigEndian sums.1

/-- Header, final stored block, trailer. -/
def deflate (packet : Bytes) : Bytes :=
  [0x78, 0x9c, 0x01] ++ littleEndian packet.length ++ littleEndian (65535 - packet.length) ++ packet ++ adler32 packet

def inflate : Bytes → Option Bytes
  | cmf :: flg :: 0x01 :: l0 :: l1 :: n0 :: n1 :: rest =>
    let size := l0.toNat + 256 * l1.toNat
    let packet := rest.take size
    if Zlib.Header cmf flg ∧ size + (n0.toNat + 256 * n1.toNat) = 65535 ∧ size ≤ rest.length ∧
        (rest.drop size).take 4 = adler32 packet then
      some packet
    else none
  | _ => none

def zlib : Zlib := Zlib.ofCodec deflate inflate

theorem length_adler32 (data : Bytes) : (adler32 data).length = 4 := rfl

theorem length_deflate (packet : Bytes) : (deflate packet).length = packet.length + 11 := by
  simp [deflate, littleEndian, length_adler32]

private theorem little_endian_value {value : Nat} (small : value ≤ 65535) :
    (UInt8.ofNat value).toNat + 256 * (UInt8.ofNat (value / 256)).toNat = value := by
  simp only [UInt8.toNat_ofNat']
  omega

private theorem deflate_shape (packet tail : Bytes) : deflate packet ++ tail =
    0x78 :: 0x9c :: 0x01 :: UInt8.ofNat packet.length :: UInt8.ofNat (packet.length / 256) ::
      UInt8.ofNat (65535 - packet.length) :: UInt8.ofNat ((65535 - packet.length) / 256) ::
      (packet ++ (adler32 packet ++ tail)) := by
  simp [deflate, littleEndian]

theorem inflate_deflate (packet tail : Bytes) (small : packet.length ≤ 65535) :
    inflate (deflate packet ++ tail) = some packet := by
  have trailer : ((packet ++ (adler32 packet ++ tail)).drop packet.length).take 4 = adler32 packet := by
    rw [List.drop_left]
    exact List.take_left' (length_adler32 packet)
  have header : Zlib.Header 0x78 0x9c := by decide
  simp only [deflate_shape, inflate, little_endian_value small,
    little_endian_value (Nat.sub_le 65535 packet.length), List.take_left, trailer, List.length_append]
  rw [if_pos ⟨header, by omega, by omega, trivial⟩]

private theorem inflate_some {data packet : Bytes} (accepted : inflate data = some packet) :
    ∃ cmf flg l0 l1 n0 n1 rest, data = cmf :: flg :: 0x01 :: l0 :: l1 :: n0 :: n1 :: rest ∧ Zlib.Header cmf flg ∧
      (l0.toNat + 256 * l1.toNat) + (n0.toNat + 256 * n1.toNat) = 65535 ∧
      packet.length = l0.toNat + 256 * l1.toNat ∧ packet.length + 4 ≤ rest.length ∧
      packet = rest.take packet.length ∧ (rest.drop packet.length).take 4 = adler32 packet := by
  unfold inflate at accepted
  split at accepted
  next cmf flg l0 l1 n0 n1 rest =>
    simp only [Option.ite_none_right_eq_some, Option.some.injEq] at accepted
    obtain ⟨⟨header, complement, inside, trailer⟩, rfl⟩ := accepted
    have size : (rest.take (l0.toNat + 256 * l1.toNat)).length = l0.toNat + 256 * l1.toNat := by
      rw [List.length_take]
      omega
    have room := congrArg List.length trailer
    rw [length_adler32, List.length_take, List.length_drop] at room
    refine ⟨cmf, flg, l0, l1, n0, n1, rest, rfl, header, complement, size, by omega, ?_, ?_⟩
    · rw [size]
    · rw [size]
      exact trailer
  next => cases accepted

theorem inflate_append {data packet : Bytes} (accepted : inflate data = some packet) (tail : Bytes) :
    inflate (data ++ tail) = some packet := by
  obtain ⟨cmf, flg, l0, l1, n0, n1, rest, rfl, header, complement, size, inside, taken, trailer⟩ :=
    inflate_some accepted
  have kept : (rest ++ tail).take packet.length = packet := by
    rw [List.take_append_of_le_length (by omega)]
    exact taken.symm
  have last : ((rest ++ tail).drop packet.length).take 4 = adler32 packet := by
    rw [List.drop_append_of_le_length (by omega), List.take_append_of_le_length (by rw [List.length_drop]; omega)]
    exact trailer
  simp only [List.cons_append, inflate, ← size, kept, last, List.length_append]
  rw [if_pos ⟨header, by omega, by omega, trivial⟩]

/-- A proper prefix of a stored stream ends inside its header, its block or
its trailer, and each of these is missed. -/
theorem inflate_truncated {packet part tail : Bytes} (small : packet.length ≤ 65535) (cut : tail ≠ [])
    (whole : deflate packet = part ++ tail) : inflate part = none := by
  apply Option.eq_none_iff_forall_ne_some.mpr
  intro other accepted
  have same : other = packet := by
    have extended := inflate_append accepted tail
    rw [← whole] at extended
    have restored := inflate_deflate packet [] small
    rw [List.append_nil, extended] at restored
    exact Option.some.inj restored
  obtain ⟨cmf, flg, l0, l1, n0, n1, rest, rfl, header, complement, size, inside, taken, trailer⟩ :=
    inflate_some accepted
  have lengths := congrArg List.length whole
  have positive := List.length_pos_iff.mpr cut
  simp only [length_deflate, List.length_append, List.length_cons] at lengths
  rw [same] at inside
  omega

theorem codec : Zlib.Codec deflate inflate where
  bounded packet small := by
    rw [length_deflate, compressBound]
    omega
  window _ := rfl
  restored packet small := by
    rw [← List.append_nil (deflate packet)]
    exact inflate_deflate packet [] small
  header data packet accepted := by
    obtain ⟨cmf, flg, l0, l1, n0, n1, rest, rfl, header, _⟩ := inflate_some accepted
    exact ⟨cmf, flg, _, rfl, header⟩
  trailing _ _ tail accepted := inflate_append accepted tail
  truncated _ _ _ small cut whole := inflate_truncated small cut whole

theorem lawful : zlib.Lawful := codec.lawful

end VirtualLan.StoredZlib
