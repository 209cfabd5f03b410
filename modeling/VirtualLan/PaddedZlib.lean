import VirtualLan.StoredZlib

/-! A second concrete zlib. It writes two empty blocks with fixed codes before the
final stored block, so that every stream is as long as `compressBound` allows for
packets below 4096 bytes. -/

namespace VirtualLan.PaddedZlib

/-- The stored stream with three other bytes in place of the block's first one. -/
def pad : Bytes → Bytes
  | cmf :: flg :: _ :: rest => cmf :: flg :: 0x02 :: 0x08 :: 0x10 :: rest
  | data => data

def unpad : Bytes → Option Bytes
  | cmf :: flg :: 0x02 :: 0x08 :: 0x10 :: rest => some (cmf :: flg :: 0x01 :: rest)
  | _ => none

def deflate (packet : Bytes) : Bytes := pad (StoredZlib.deflate packet)

def inflate (data : Bytes) : Option Bytes := (unpad data).bind StoredZlib.inflate

def zlib : Zlib := Zlib.ofCodec deflate inflate

/-- What a stored stream says behind the byte that begins its block. -/
def body (packet : Bytes) : Bytes := (StoredZlib.deflate packet).drop 3

theorem stored_eq (packet : Bytes) : StoredZlib.deflate packet = 0x78 :: 0x9c :: 0x01 :: body packet := rfl

theorem deflate_eq (packet : Bytes) : deflate packet = 0x78 :: 0x9c :: 0x02 :: 0x08 :: 0x10 :: body packet := rfl

theorem length_deflate (packet : Bytes) : (deflate packet).length = packet.length + 13 := by
  have size := StoredZlib.length_deflate packet
  rw [stored_eq] at size
  rw [deflate_eq]
  simp only [List.length_cons] at size ⊢
  omega

theorem unpad_some {data stored : Bytes} (accepted : unpad data = some stored) :
    ∃ cmf flg rest, data = cmf :: flg :: 0x02 :: 0x08 :: 0x10 :: rest ∧ stored = cmf :: flg :: 0x01 :: rest := by
  unfold unpad at accepted
  split at accepted
  next cmf flg rest =>
    cases accepted
    exact ⟨cmf, flg, rest, rfl, rfl⟩
  next => cases accepted

theorem inflate_some {data packet : Bytes} (accepted : inflate data = some packet) :
    ∃ cmf flg rest, data = cmf :: flg :: 0x02 :: 0x08 :: 0x10 :: rest ∧
      StoredZlib.inflate (cmf :: flg :: 0x01 :: rest) = some packet := by
  obtain ⟨stored, unpadded, inflated⟩ := Option.bind_eq_some_iff.mp accepted
  obtain ⟨cmf, flg, rest, rfl, rfl⟩ := unpad_some unpadded
  exact ⟨cmf, flg, rest, rfl, inflated⟩

theorem codec : Zlib.Codec deflate inflate where
  bounded packet small := by
    rw [length_deflate, compressBound]
    omega
  window _ := rfl
  restored packet small := StoredZlib.codec.restored packet small
  header data packet accepted := by
    obtain ⟨cmf, flg, rest, rfl, inflated⟩ := inflate_some accepted
    obtain ⟨_, _, _, same, header⟩ := StoredZlib.codec.header _ packet inflated
    cases same
    exact ⟨cmf, flg, _, rfl, header⟩
  trailing data packet tail accepted := by
    obtain ⟨cmf, flg, rest, rfl, inflated⟩ := inflate_some accepted
    exact StoredZlib.codec.trailing _ packet tail inflated
  truncated packet part tail small cut whole := by
    apply Option.eq_none_iff_forall_ne_some.mpr
    intro other accepted
    obtain ⟨cmf, flg, rest, rfl, inflated⟩ := inflate_some accepted
    rw [deflate_eq] at whole
    injection whole with first whole
    injection whole with second whole
    injection whole with _ whole
    injection whole with _ whole
    injection whole with _ whole
    have shorter : StoredZlib.deflate packet = (cmf :: flg :: 0x01 :: rest) ++ tail := by
      rw [stored_eq, whole, first, second]
      rfl
    cases inflated.symm.trans (StoredZlib.codec.truncated packet _ tail small cut shorter)

theorem lawful : zlib.Lawful := codec.lawful

end VirtualLan.PaddedZlib
