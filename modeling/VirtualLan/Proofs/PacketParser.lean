import VirtualLan.Proofs.Delivery

/-! What the client's packet parser computes and reads, for every buffer. The
fields of the header are numbers here; the parser keeps them in 16-bit words, and
its reads fail outside of the buffer. -/

namespace VirtualLan.Peer
open Program

def byteAt (raw : Bytes) (offset : Nat) : UInt8 := raw.getD offset 0

def headerLength (raw : Bytes) (start : Nat) : Nat := (byteAt raw start).toNat % 16 * 4

def totalLength (raw : Bytes) (start : Nat) : Nat :=
  (byteAt raw (start + 2)).toNat * 256 + (byteAt raw (start + 3)).toNat

def protocol (raw : Bytes) (start : Nat) : UInt8 := byteAt raw (start + 9)

/-- Where the data offset of a TCP header stands. -/
def offsetReserved (raw : Bytes) (start : Nat) : Nat := start + headerLength raw start + 12

/-- The length of the transport header; the other protocols have none. -/
def transportLength (raw : Bytes) (start : Nat) : Nat :=
  if protocol raw start = 6 then (byteAt raw (offsetReserved raw start)).toNat / 16 * 4
  else if protocol raw start = 17 then 8
  else 0

def addressAt (raw : Bytes) (offset : Nat) : Bytes :=
  encode (dotted (byteAt raw offset) (byteAt raw (offset + 1)) (byteAt raw (offset + 2)) (byteAt raw (offset + 3)))

variable {raw : Bytes} {start offset : Nat}

theorem readByte_inside (inside : offset < raw.length) : readByte raw offset = .ok (byteAt raw offset) := by
  rw [readByte, byteAt, List.getD_eq_getElem?_getD, List.getElem?_eq_getElem inside]
  rfl

theorem readByte_outside (outside : raw.length ≤ offset) : readByte raw offset = .error .outOfBounds := by
  rw [readByte, List.getElem?_eq_none outside]

theorem inetNtop_inside (inside : offset + 4 ≤ raw.length) : inetNtop raw offset = .ok (addressAt raw offset) := by
  have first : offset < raw.length := by omega
  have second : offset + 1 < raw.length := by omega
  have third : offset + 2 < raw.length := by omega
  have fourth : offset + 3 < raw.length := by omega
  rw [inetNtop, readByte_inside first, readByte_inside second, readByte_inside third, readByte_inside fourth]
  rfl

theorem toNat_ntohs (high low : UInt8) : (ntohs high low).toNat = high.toNat * 256 + low.toNat := by
  have first := high.toNat_lt
  have second := low.toNat_lt
  simp only [ntohs, UInt16.toNat_add, UInt16.toNat_mul, UInt8.toNat_toUInt16, UInt16.reduceToNat]
  omega

def packetLength (raw : Bytes) (start : Nat) : UInt16 :=
  ntohs (byteAt raw (start + 2)) (byteAt raw (start + 3)) + 14

def ipHeaderLength (raw : Bytes) (start : Nat) : UInt16 := (byteAt raw start % 16).toUInt16 * 4

theorem toNat_packetLength : (packetLength raw start).toNat = (totalLength raw start + 14) % 65536 := by
  rw [packetLength, UInt16.toNat_add, toNat_ntohs, totalLength]
  rfl

theorem toNat_ipHeaderLength : (ipHeaderLength raw start).toNat = headerLength raw start := by
  have small := (byteAt raw start).toNat_lt
  simp only [ipHeaderLength, headerLength, UInt16.toNat_mul, UInt8.toNat_toUInt16, UInt8.toNat_mod, UInt16.reduceToNat,
    UInt8.reduceToNat]
  omega

/-- The header of a frame begins behind the Ethernet header. -/
def frameSize (ETHERNET_FRAME : Bool) : Nat := if ETHERNET_FRAME then 14 else 0

/-- The parsed packet, given the transport header's length and the payload. -/
def parsed (raw : Bytes) (start : Nat) (transport : UInt16 × Option Nat) : Packet where
  ethernetHeaderSize := start
  packetLength := packetLength raw start
  ipHeaderLength := ipHeaderLength raw start
  transHeaderLength := transport.1
  payloadLength := packetLength raw start - (start.toUInt16 + ipHeaderLength raw start + transport.1)
  payload := transport.2
  srcIp := addressAt raw (start + 12)
  dstIp := addressAt raw (start + 16)

variable {ETHERNET_FRAME : Bool} {unset : UInt16}

/-- The parser on a buffer that holds a header without options. -/
theorem create_long (long : frameSize ETHERNET_FRAME + 20 ≤ raw.length) :
    Packet.create unset (some raw) ETHERNET_FRAME =
      if packetLength raw (frameSize ETHERNET_FRAME) < ipHeaderLength raw (frameSize ETHERNET_FRAME) then
        .error .runtimeError
      else (Packet.transport unset raw (frameSize ETHERNET_FRAME + headerLength raw (frameSize ETHERNET_FRAME))
        (protocol raw (frameSize ETHERNET_FRAME))).map (parsed raw (frameSize ETHERNET_FRAME)) := by
  have size : (if ETHERNET_FRAME = true then 14 else 0) = frameSize ETHERNET_FRAME := rfl
  have first := @readByte_inside raw (frameSize ETHERNET_FRAME) (by omega)
  have high := @readByte_inside raw (frameSize ETHERNET_FRAME + 2) (by omega)
  have low := @readByte_inside raw (frameSize ETHERNET_FRAME + 3) (by omega)
  have ninth := @readByte_inside raw (frameSize ETHERNET_FRAME + 9) (by omega)
  have source := @inetNtop_inside raw (frameSize ETHERNET_FRAME + 12) (by omega)
  have target := @inetNtop_inside raw (frameSize ETHERNET_FRAME + 16) (by omega)
  have header : (byteAt raw (frameSize ETHERNET_FRAME) % 16).toUInt16 * 4 = ipHeaderLength raw _ := rfl
  have length : ntohs (byteAt raw (frameSize ETHERNET_FRAME + 2)) (byteAt raw (frameSize ETHERNET_FRAME + 3)) + 14 =
    packetLength raw _ := rfl
  have number : byteAt raw (frameSize ETHERNET_FRAME + 9) = protocol raw _ := rfl
  simp only [Packet.create, size, first, high, low, ninth, source, target, bind, Except.bind, pure, Except.pure, header,
    length, number, toNat_ipHeaderLength]
  split
  · rfl
  · cases Packet.transport unset raw (frameSize ETHERNET_FRAME + headerLength raw (frameSize ETHERNET_FRAME))
      (protocol raw (frameSize ETHERNET_FRAME)) <;> rfl

/-- The buffer holds the header, and a TCP header's data offset. -/
def Spacious (raw : Bytes) (start : Nat) : Prop :=
  start + 20 ≤ raw.length ∧ (protocol raw start = 6 → offsetReserved raw start < raw.length)

theorem dataOffset_words (byte : UInt8) : byte.toUInt16 / 16 * 4 = UInt16.ofNat (byte.toNat / 16 * 4) := by
  have small := byte.toNat_lt
  apply UInt16.toNat.inj
  simp only [UInt16.toNat_mul, UInt16.toNat_div, UInt8.toNat_toUInt16, UInt16.toNat_ofNat', UInt16.reduceToNat]

theorem transportLength_small : transportLength raw start ≤ 60 := by
  have small := (byteAt raw (offsetReserved raw start)).toNat_lt
  unfold transportLength
  split
  · omega
  · split <;> omega

/-- Of the protocols, TCP alone is read any further. -/
theorem transport_inside (inside : protocol raw start = 6 → offsetReserved raw start < raw.length) :
    Packet.transport unset raw (start + headerLength raw start) (protocol raw start) =
      .ok (if protocol raw start = 6 ∨ protocol raw start = 17 then
        (UInt16.ofNat (transportLength raw start), some (start + headerLength raw start + transportLength raw start))
      else (unset, none)) := by
  unfold Packet.transport transportLength
  by_cases tcp : protocol raw start = 6
  · have read := readByte_inside (inside tcp)
    have small := (byteAt raw (offsetReserved raw start)).toNat_lt
    have number : (UInt16.ofNat ((byteAt raw (offsetReserved raw start)).toNat / 16 * 4)).toNat =
        (byteAt raw (offsetReserved raw start)).toNat / 16 * 4 := UInt16.toNat_ofNat_of_lt (by rw [UInt16.size]; omega)
    rw [offsetReserved] at read
    simp only [tcp, if_true, true_or, read, bind, Except.bind, dataOffset_words, offsetReserved] at number ⊢
    rw [number]
    rfl
  · rw [if_neg tcp, if_neg tcp]
    by_cases udp : protocol raw start = 17
    · rw [if_pos udp, if_pos udp, if_pos (Or.inr udp)]
      rfl
    · rw [if_neg udp, if_neg (not_or.mpr ⟨tcp, udp⟩)]
      rfl

theorem transport_outside (tcp : protocol raw start = 6) (outside : raw.length ≤ offsetReserved raw start) :
    Packet.transport unset raw (start + headerLength raw start) (protocol raw start) = .error .outOfBounds := by
  have missed := readByte_outside outside
  rw [offsetReserved] at missed
  simp only [Packet.transport, tcp, if_true, missed]
  rfl

/-- What the parser stores of the transport header. -/
def stored (unset : UInt16) (raw : Bytes) (start : Nat) : UInt16 × Option Nat :=
  if protocol raw start = 6 ∨ protocol raw start = 17 then
    (UInt16.ofNat (transportLength raw start), some (start + headerLength raw start + transportLength raw start))
  else (unset, none)

theorem packetLength_lt_iff : packetLength raw start < ipHeaderLength raw start ↔
    (totalLength raw start + 14) % 65536 < headerLength raw start := by
  rw [UInt16.lt_iff_toNat_lt, toNat_packetLength, toNat_ipHeaderLength]

theorem create_spacious (spacious : Spacious raw (frameSize ETHERNET_FRAME)) :
    Packet.create unset (some raw) ETHERNET_FRAME =
      if (totalLength raw (frameSize ETHERNET_FRAME) + 14) % 65536 < headerLength raw (frameSize ETHERNET_FRAME) then
        .error .runtimeError
      else .ok (parsed raw (frameSize ETHERNET_FRAME) (stored unset raw (frameSize ETHERNET_FRAME))) := by
  rw [create_long spacious.1, transport_inside spacious.2]
  simp only [packetLength_lt_iff]
  rfl

theorem create_bare (spacious : Spacious raw 0) : Packet.create unset (some raw) false =
    if (totalLength raw 0 + 14) % 65536 < headerLength raw 0 then .error .runtimeError
    else .ok (parsed raw 0 (stored unset raw 0)) := @create_spacious raw false unset spacious

/-- A buffer that is too short makes the parser fail, if not by a read outside
then by its check of the length before. -/
theorem create_cramped (cramped : ¬ Spacious raw (frameSize ETHERNET_FRAME)) :
    ∃ fault, Packet.create unset (some raw) ETHERNET_FRAME = .error fault := by
  by_cases long : frameSize ETHERNET_FRAME + 20 ≤ raw.length
  · obtain ⟨tcp, outside⟩ := Classical.not_imp.mp fun inside => cramped ⟨long, inside⟩
    rw [create_long long]
    split
    · exact ⟨_, rfl⟩
    · rw [transport_outside tcp (Nat.le_of_not_lt outside)]
      exact ⟨_, rfl⟩
  · cases outcome : Packet.create unset (some raw) ETHERNET_FRAME with
    | error fault => exact ⟨fault, rfl⟩
    | ok packet =>
      obtain ⟨a, b, c, d, four, _⟩ := inetNtop_ok (create_target outcome)
      have size := congrArg List.length four
      rw [List.length_take, List.length_drop] at size
      change min 4 (raw.length - (frameSize ETHERNET_FRAME + 16)) = 4 at size
      omega

/-- A whole packet, as its own header describes it. -/
structure WellFormed (raw : Bytes) (start : Nat) : Prop where
  minimal : 20 ≤ headerLength raw start
  offset : protocol raw start = 6 → offsetReserved raw start < raw.length
  room : headerLength raw start + transportLength raw start ≤ totalLength raw start
  whole : totalLength raw start + start ≤ raw.length

/-- The parser throws nothing, and what it says of the payload is the packet's
own: for TCP and UDP the bytes from behind the transport header to the end, for
the other protocols a length that no unset field decides. -/
structure Measured (raw : Bytes) (ETHERNET_FRAME : Bool) (packet : UInt16 → Packet) : Prop where
  created : ∀ unset, Packet.create unset (some raw) ETHERNET_FRAME = .ok (packet unset)
  payload : protocol raw (frameSize ETHERNET_FRAME) = 6 ∨ protocol raw (frameSize ETHERNET_FRAME) = 17 → ∀ unset,
    (packet unset).payload = some (frameSize ETHERNET_FRAME + headerLength raw (frameSize ETHERNET_FRAME) +
      transportLength raw (frameSize ETHERNET_FRAME)) ∧
    (packet unset).payloadLength.toNat = totalLength raw (frameSize ETHERNET_FRAME) -
      headerLength raw (frameSize ETHERNET_FRAME) - transportLength raw (frameSize ETHERNET_FRAME)
  settled : ∀ unset other, (packet unset).payloadLength = (packet other).payloadLength

theorem totalLength_small : totalLength raw start ≤ 65535 := by
  have high := (byteAt raw (start + 2)).toNat_lt
  have low := (byteAt raw (start + 3)).toNat_lt
  rw [totalLength]
  omega

theorem headerLength_small : headerLength raw start ≤ 60 := by
  rw [headerLength]
  omega

theorem frameSize_cases : (ETHERNET_FRAME = true ∧ frameSize ETHERNET_FRAME = 14) ∨
    (ETHERNET_FRAME = false ∧ frameSize ETHERNET_FRAME = 0) := by
  cases ETHERNET_FRAME with
  | true => exact Or.inl ⟨rfl, rfl⟩
  | false => exact Or.inr ⟨rfl, rfl⟩

theorem WellFormed.spacious (wellFormed : WellFormed raw start) : Spacious raw start := by
  obtain ⟨minimal, offset, room, whole⟩ := wellFormed
  exact ⟨by omega, offset⟩

/-- The sum with the constant 14 wraps for the largest packets, and is then smaller
than any header. -/
theorem create_wellFormed (wellFormed : WellFormed raw (frameSize ETHERNET_FRAME)) :
    Packet.create unset (some raw) ETHERNET_FRAME =
      if totalLength raw (frameSize ETHERNET_FRAME) ≤ 65521 then
        .ok (parsed raw (frameSize ETHERNET_FRAME) (stored unset raw (frameSize ETHERNET_FRAME)))
      else .error .runtimeError := by
  have total := @totalLength_small raw (frameSize ETHERNET_FRAME)
  have minimal := wellFormed.minimal
  have room := wellFormed.room
  rw [create_spacious wellFormed.spacious]
  by_cases fits : totalLength raw (frameSize ETHERNET_FRAME) ≤ 65521
  · rw [if_pos fits, if_neg (by omega)]
  · rw [if_neg fits, if_pos (by omega)]

theorem toNat_payloadLength (inside : start ≤ 14)
    (known : protocol raw start = 6 ∨ protocol raw start = 17) :
    (parsed raw start (stored unset raw start)).payloadLength.toNat =
      (totalLength raw start + 14 +
        (65536 - (start + headerLength raw start + transportLength raw start))) % 65536 := by
  have header := @headerLength_small raw start
  have transport := @transportLength_small raw start
  have total := @totalLength_small raw start
  simp only [stored, if_pos known, parsed]
  rw [UInt16.toNat_sub, UInt16.toNat_add, UInt16.toNat_add, toNat_packetLength, toNat_ipHeaderLength, Nat.toUInt16_eq,
    UInt16.toNat_ofNat', UInt16.toNat_ofNat']
  omega

/-- The constant 14 is in the length for every kind of frame, and belongs to one. -/
theorem payloadLength_exact_iff (wellFormed : WellFormed raw (frameSize ETHERNET_FRAME))
    (known : protocol raw (frameSize ETHERNET_FRAME) = 6 ∨ protocol raw (frameSize ETHERNET_FRAME) = 17)
    (fits : totalLength raw (frameSize ETHERNET_FRAME) ≤ 65521) :
    (parsed raw (frameSize ETHERNET_FRAME) (stored unset raw (frameSize ETHERNET_FRAME))).payloadLength.toNat =
      totalLength raw (frameSize ETHERNET_FRAME) - headerLength raw (frameSize ETHERNET_FRAME) -
        transportLength raw (frameSize ETHERNET_FRAME) ↔ ETHERNET_FRAME = true := by
  have minimal := wellFormed.minimal
  have room := wellFormed.room
  rcases @frameSize_cases ETHERNET_FRAME with ⟨framed, size⟩ | ⟨bare, size⟩
  · rw [toNat_payloadLength (by omega) known]
    exact iff_of_true (by omega) framed
  · rw [toNat_payloadLength (by omega) known]
    exact iff_of_false (by omega) (by rw [bare]; exact Bool.false_ne_true)

theorem payloadLength_unset :
    (parsed raw start (0, none)).payloadLength ≠ (parsed raw start (1, none)).payloadLength := by
  intro same
  have number := congrArg UInt16.toNat same
  simp only [parsed, UInt16.toNat_sub, UInt16.toNat_add, UInt16.reduceToNat] at number
  omega

/-- The parser is right about a well-formed packet exactly when it comes with an
Ethernet header, carries TCP or UDP, and the constant 14 does not overflow. -/
theorem create_measured_iff (wellFormed : WellFormed raw (frameSize ETHERNET_FRAME)) :
    (∃ packet, Measured raw ETHERNET_FRAME packet) ↔ ETHERNET_FRAME = true ∧
      (protocol raw (frameSize ETHERNET_FRAME) = 6 ∨ protocol raw (frameSize ETHERNET_FRAME) = 17) ∧
      totalLength raw (frameSize ETHERNET_FRAME) ≤ 65521 := by
  constructor
  · rintro ⟨packet, created, payload, settled⟩
    have fits : totalLength raw (frameSize ETHERNET_FRAME) ≤ 65521 := by
      by_contra large
      have first := created 0
      rw [create_wellFormed wellFormed, if_neg large] at first
      cases first
    have shape : ∀ unset, packet unset =
        parsed raw (frameSize ETHERNET_FRAME) (stored unset raw (frameSize ETHERNET_FRAME)) := by
      intro unset
      have first := created unset
      rw [create_wellFormed wellFormed, if_pos fits] at first
      exact (Except.ok.inj first).symm
    have known : protocol raw (frameSize ETHERNET_FRAME) = 6 ∨ protocol raw (frameSize ETHERNET_FRAME) = 17 := by
      by_contra other
      have same := settled 0 1
      simp only [shape, stored, if_neg other] at same
      exact payloadLength_unset same
    have measured := (payload known 0).2
    rw [shape 0] at measured
    exact ⟨(payloadLength_exact_iff wellFormed known fits).mp measured, known, fits⟩
  · rintro ⟨framed, known, fits⟩
    refine ⟨fun unset => parsed raw (frameSize ETHERNET_FRAME) (stored unset raw (frameSize ETHERNET_FRAME)),
      ?_, ?_, ?_⟩
    · intro unset
      rw [create_wellFormed wellFormed, if_pos fits]
    · intro _ unset
      have length := (@payloadLength_exact_iff raw ETHERNET_FRAME unset wellFormed known fits).mpr framed
      refine ⟨?_, length⟩
      simp only [stored, if_pos known, parsed]
    · intro unset other
      simp only [stored, if_pos known]

/-- A datagram without data, as it comes from the interface. -/
def datagram : Bytes :=
  [0x45, 0, 0, 28, 0, 0, 0, 0, 64, 17, 0, 0, 100, 0, 0, 1, 100, 0, 0, 2, 0, 7, 0, 7, 0, 8, 0, 0]

def framed : Bytes := List.replicate 14 0 ++ datagram

theorem create_measured_iff_framed : ∃ packet, Measured framed true packet := by
  have wellFormed : WellFormed framed (frameSize true) := ⟨by decide, by decide, by decide, by decide⟩
  exact (create_measured_iff wellFormed).mpr ⟨rfl, by decide, by decide⟩

/-- The client parses packets without an Ethernet header, and takes their payload
for 14 bytes longer than it is. -/
theorem datagram_not_measured : WellFormed datagram (frameSize false) ∧ ¬ ∃ packet, Measured datagram false packet := by
  have wellFormed : WellFormed datagram (frameSize false) := ⟨by decide, by decide, by decide, by decide⟩
  refine ⟨wellFormed, ?_⟩
  rintro ⟨packet, created, payload, _⟩
  have parsed := created 0
  have measured := (payload (by decide) 0).2
  rw [create_wellFormed wellFormed, if_pos (by decide)] at parsed
  rw [← Except.ok.inj parsed] at measured
  revert measured
  decide

variable {zlib : Zlib} {accepts : Bool} {world : World} {packet : Bytes}

theorem sendData_calm (message : Data) (world : World) : (run (sendData accepts message) world).1 = .ok () := by
  simp only [sendData, run_bind, run_get, andThen_ok]
  split
  · split <;> rfl
  · rfl

theorem sendToMember_calm (temp : Packet) (packet : Bytes) (memberList : List Client) (world : World) :
    (run (sendToMember zlib accepts temp packet memberList) world).1 = .ok () := by
  induction memberList with
  | nil => rfl
  | cons client memberList ih =>
    simp only [sendToMember, run_bind, run_get, andThen_ok]
    split
    · exact sendData_calm _ _
    · exact ih

/-- No read outside of the packet, and one that is too short for the reads is
turned away without a trace. -/
structure Contained (zlib : Zlib) (accepts : Bool) (unset : UInt16) (world : World) (packet : Bytes) : Prop where
  inside : (run (callbackLitentToInterface zlib accepts unset packet) world).1 ≠ .error .outOfBounds
  rejected : ¬ Spacious packet 0 → run (callbackLitentToInterface zlib accepts unset packet) world = (.ok (), world)

theorem callback_cramped (cramped : ¬ Spacious packet 0) :
    ∃ fault, run (callbackLitentToInterface zlib accepts unset packet) world = (.error fault, world) := by
  obtain ⟨fault, failed⟩ := @create_cramped packet false unset cramped
  exact ⟨fault, by rw [callbackLitentToInterface_parses, failed]⟩

/-- Parsing stays inside exactly the packets that are long enough; no other packet
is turned away. -/
theorem callbackLitentToInterface_contained_iff (zlib : Zlib) (accepts : Bool) (unset : UInt16) (world : World)
    (packet : Bytes) : Contained zlib accepts unset world packet ↔ Spacious packet 0 := by
  constructor
  · rintro ⟨_, rejected⟩
    by_contra cramped
    obtain ⟨fault, failed⟩ := @callback_cramped unset zlib accepts world packet cramped
    cases failed.symm.trans (rejected cramped)
  · intro spacious
    refine ⟨?_, fun cramped => absurd spacious cramped⟩
    rw [callbackLitentToInterface_parses, create_bare spacious]
    split
    next failed =>
      split at failed <;> cases failed
      simp
    next => rw [sendToMember_calm]; simp

/-- A packet of one byte, and a TCP packet whose header length points behind its
end. -/
theorem truncated_not_contained : ¬ Contained StoredZlib.zlib true 0 acquainted [0x45] ∧
    ¬ Contained StoredZlib.zlib true 0 acquainted
      [0x4f, 0, 0, 60, 0, 0, 0, 0, 64, 6, 0, 0, 100, 0, 0, 1, 100, 0, 0, 2] := by
  constructor
  · intro contained
    exact contained.inside (by decide)
  · intro contained
    exact contained.inside (by decide)

end VirtualLan.Peer
