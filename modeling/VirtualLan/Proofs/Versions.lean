import VirtualLan.Proofs.PacketParser

/-! Packets of other IP versions. Both parsers take bytes 16 to 19 for the
destination without a look at the version, so such a packet goes wherever these
bytes happen to point. -/

namespace VirtualLan.Peer
open Program Relay

/-- The high four bits of the first byte. -/
def version (packet : Bytes) : Nat := (byteAt packet 0).toNat / 16

variable {zlib : Zlib} {accepts : Bool} {unset : UInt16} {world : World} {packet data behind : Bytes}

/-- The parser can read its bytes from the memory at a packet and passes its check of
the length, and a member of the lobby is called like bytes 16 to 19. Behind the end of
a short packet these are whatever the memory holds there. -/
structure Matches (world : World) (memory : Bytes) : Prop where
  readable : Spacious memory 0
  length : headerLength memory 0 ≤ (totalLength memory 0 + 14) % 65536
  connected : world.server.connected = true
  join : world.lobby.join = true
  member : ∃ client ∈ world.lobby.memberList, cString (addressAt memory 16) = cString client.ip

theorem byteAt_append {offset : Nat} (inside : offset < packet.length) :
    byteAt (packet ++ behind) offset = byteAt packet offset := by
  rw [byteAt, byteAt, List.getD_eq_getElem?_getD, List.getD_eq_getElem?_getD, List.getElem?_append_left inside]

/-- What stands behind a packet with a whole header does not matter, as long as there is
enough of it. -/
theorem matches_append_iff (long : 20 ≤ packet.length) (room : 73 ≤ packet.length + behind.length) :
    Matches world (packet ++ behind) ↔ headerLength packet 0 ≤ (totalLength packet 0 + 14) % 65536 ∧
      world.server.connected = true ∧ world.lobby.join = true ∧
      ∃ client ∈ world.lobby.memberList, cString (addressAt packet 16) = cString client.ip := by
  have size : (packet ++ behind).length = packet.length + behind.length := List.length_append
  have same (offset : Nat) (inside : offset < 20) : byteAt (packet ++ behind) offset = byteAt packet offset :=
    byteAt_append (Nat.lt_of_lt_of_le inside long)
  have header : headerLength (packet ++ behind) 0 = headerLength packet 0 := by
    rw [headerLength, headerLength, same 0 (by decide)]
  have total : totalLength (packet ++ behind) 0 = totalLength packet 0 := by
    rw [totalLength, totalLength, same 2 (by decide), same 3 (by decide)]
  have target : addressAt (packet ++ behind) 16 = addressAt packet 16 := by
    rw [addressAt, addressAt, same 16 (by decide), same 17 (by decide), same 18 (by decide), same 19 (by decide)]
  constructor
  · rintro ⟨_, length, connected, join, member⟩
    rw [header, total] at length
    rw [target] at member
    exact ⟨length, connected, join, member⟩
  · rintro ⟨length, connected, join, member⟩
    refine ⟨⟨by omega, ?_⟩, by rwa [header, total], connected, join, by rwa [target]⟩
    intro _
    have small := @headerLength_small packet 0
    rw [offsetReserved, header]
    omega

theorem sendData_sent_iff (message : Data) : (run (sendData accepts message) world).2.sent = world.sent ↔
    ¬ (accepts = true ∧ world.server.connected = true) := by
  simp only [sendData, run_bind, run_get, andThen_ok]
  cases world.server.connected <;> cases accepts <;> simp

theorem sendToMember_sent_iff (temp : Packet) (memberList : List Client) :
    (run (sendToMember zlib accepts temp packet memberList) world).2.sent = world.sent ↔
      ¬ (accepts = true ∧ world.server.connected = true ∧ world.lobby.join = true ∧
        ∃ client ∈ memberList, cString temp.dstIp = cString client.ip) := by
  induction memberList with
  | nil => simp [sendToMember]
  | cons client memberList ih =>
    simp only [sendToMember, run_bind, run_get, andThen_ok]
    split
    next found =>
      rw [Bool.and_eq_true, beq_iff_eq] at found
      rw [sendData_sent_iff]
      simp [found.1, found.2]
    next other =>
      rw [Bool.and_eq_true, beq_iff_eq] at other
      rw [ih]
      simp only [List.mem_cons, exists_eq_or_imp]
      grind

theorem callback_sent_iff : (run (callbackInRing zlib accepts unset behind packet) world).2.sent = world.sent ↔
    ¬ (accepts = true ∧ Matches world (packet ++ behind)) := by
  rw [callbackInRing_parses]
  generalize packet ++ behind = memory
  by_cases readable : Spacious memory 0
  · rw [create_bare readable]
    by_cases short : (totalLength memory 0 + 14) % 65536 < headerLength memory 0
    · rw [if_pos short]
      exact iff_of_true rfl fun sends => Nat.not_le_of_lt short sends.2.length
    · rw [if_neg short]
      simp only [sendToMember_sent_iff]
      apply not_congr
      constructor
      · rintro ⟨accepted, connected, join, member⟩
        exact ⟨accepted, readable, Nat.le_of_not_lt short, connected, join, member⟩
      · rintro ⟨accepted, _, _, connected, join, member⟩
        exact ⟨accepted, connected, join, member⟩
  · obtain ⟨fault, failed⟩ := @create_cramped memory false unset readable
    rw [failed]
    exact iff_of_true rfl fun sends => readable sends.2.readable

variable {reaches : Socket → Bool} {relay : Relay.World}

/-- Bytes 16 to 19 are an address of the server's block, and its holder takes the
message. -/
def Routes (reaches : Socket → Bool) (relay : Relay.World) (packet data : Bytes) : Prop :=
  ∃ b c d target, (packet.drop 16).take 4 = [100, b, c, d] ∧
    relay.lobbyList.get? (dotted 100 b c d) = some target ∧ takes reaches relay.closed (target, data) = true

theorem forwardPackets_sent_iff (compressed : zlib.decompress data = some packet) :
    (run (forwardPackets reaches zlib data) relay).2.sent = relay.sent ↔ ¬ Routes reaches relay packet data := by
  rw [forwardPackets_run reaches 0 data relay zlib, Reaction.perform, List.append_right_eq_self]
  simp only [reactPacket, compressed]
  cases found : getDestinationIp packet with
  | error exn =>
    refine iff_of_true rfl ?_
    rintro ⟨b, c, d, target, four, _⟩
    cases found.symm.trans (getDestinationIp_dotted four)
  | ok destination =>
    cases destination with
    | none =>
      refine iff_of_true rfl ?_
      rintro ⟨b, c, d, target, four, _⟩
      cases found.symm.trans (getDestinationIp_dotted four)
    | some ip =>
      obtain ⟨b, c, d, four, rfl⟩ := getDestinationIp_some_iff.mp found
      have only : Routes reaches relay packet data ↔ ∃ target,
          relay.lobbyList.get? (dotted 100 b c d) = some target ∧ takes reaches relay.closed (target, data) = true := by
        constructor
        · rintro ⟨b', c', d', target, four', held⟩
          cases four.symm.trans four'
          exact ⟨target, held⟩
        · rintro ⟨target, held⟩
          exact ⟨b, c, d, target, four, held⟩
      rw [only]
      cases bound : relay.lobbyList.get? (dotted 100 b c d) with
      | none =>
        simp only [bound]
        exact iff_of_true rfl (by simp)
      | some target => simp [bound, Reaction.sent, Reaction.outgoing]

/-- Neither of the two programs passes the packet on, which stands in the ring
before these bytes. -/
structure Ignored (zlib : Zlib) (accepts : Bool) (unset : UInt16) (reaches : Socket → Bool) (world : World)
    (relay : Relay.World) (behind packet data : Bytes) : Prop where
  client : (run (callbackInRing zlib accepts unset behind packet) world).2.sent = world.sent
  server : (run (forwardPackets reaches zlib data) relay).2.sent = relay.sent

/-- Packets of other versions are left alone exactly where bytes 16 to 19 happen
to match nobody. -/
theorem version_ignored_iff (accepts : Bool) (unset : UInt16) (reaches : Socket → Bool) (world : World)
    (relay : Relay.World) (behind : Bytes) (compressed : zlib.decompress data = some packet) :
    (version packet ≠ 4 → Ignored zlib accepts unset reaches world relay behind packet data) ↔
      (version packet ≠ 4 → ¬ (accepts = true ∧ Matches world (packet ++ behind)) ∧
        ¬ Routes reaches relay packet data) := by
  rw [← callback_sent_iff, ← forwardPackets_sent_iff compressed]
  constructor
  · intro ignored other
    exact ⟨(ignored other).client, (ignored other).server⟩
  · intro unmatched other
    exact ⟨(unmatched other).1, (unmatched other).2⟩

/-- An IPv6 packet with the given bytes 16 to 19, which belong to its source. -/
def ipv6 (first second third fourth : UInt8) : Bytes :=
  [0x60, 0, 0, 0, 0, 0, 59, 64, 0xfe, 0x80, 0, 0, 0, 0, 0, 0] ++ [first, second, third, fourth] ++
    [0, 0, 0, 1] ++ List.replicate 16 0xff

theorem version_ignored_iff_foreign : Ignored StoredZlib.zlib true 0 everyone acquainted
    ((system StoredZlib.zlib).play pair).2.world [] (ipv6 0x20 0x01 0x0d 0xb8)
    (StoredZlib.deflate (ipv6 0x20 0x01 0x0d 0xb8)) := by
  have compressed : StoredZlib.zlib.decompress (StoredZlib.deflate (ipv6 0x20 0x01 0x0d 0xb8)) =
    some (ipv6 0x20 0x01 0x0d 0xb8) := by decide
  refine (version_ignored_iff true 0 everyone acquainted _ [] compressed).mpr ?_ (by decide)
  intro _
  constructor
  · rintro ⟨_, matched⟩
    have member := matched.member
    revert member
    decide
  · rintro ⟨b, c, d, target, four, _⟩
    cases four

/-- Such a packet leaves the client for a member that its source address happens to
spell, and the relay passes it on. -/
theorem ipv6_not_ignored : version (ipv6 100 0 0 2) = 6 ∧
    StoredZlib.zlib.decompress (StoredZlib.deflate (ipv6 100 0 0 2)) = some (ipv6 100 0 0 2) ∧
    (run (callbackInRing StoredZlib.zlib true 0 [] (ipv6 100 0 0 2)) acquainted).2.sent =
      [StoredZlib.deflate (ipv6 100 0 0 2)] ∧
    (run (forwardPackets everyone StoredZlib.zlib (StoredZlib.deflate (ipv6 100 0 0 2)))
      ((system StoredZlib.zlib).play pair).2.world).2.sent = [(2, StoredZlib.deflate (ipv6 100 0 0 2))] ∧
    ¬ Ignored StoredZlib.zlib true 0 everyone acquainted ((system StoredZlib.zlib).play pair).2.world []
      (ipv6 100 0 0 2) (StoredZlib.deflate (ipv6 100 0 0 2)) := by
  refine ⟨by decide, by decide, by decide, by decide, ?_⟩
  intro ignored
  have client := ignored.client
  revert client
  decide

/-- An IPv6 packet of 40 bytes that the parser takes for one of TCP with a header of
60 bytes. -/
def overread : Bytes :=
  [0x6f, 0, 0x12, 0x34, 0, 0, 59, 64, 0xfd, 6, 0, 0, 0, 0, 0, 0, 100, 0, 0, 2, 0, 0, 0, 1] ++ List.replicate 16 0xff

/-- It is sent as well, since the driver's ring goes on behind it. -/
theorem overread_not_ignored (relay : Relay.World) (behind : Bytes) (room : 33 ≤ behind.length) :
    ¬ Ignored StoredZlib.zlib true 0 everyone acquainted relay behind overread (StoredZlib.deflate overread) := by
  have long : 73 ≤ overread.length + behind.length := Nat.add_le_add_left room 40
  intro ignored
  refine callback_sent_iff.mp ignored.client ⟨rfl, (matches_append_iff (by decide) long).mpr ?_⟩
  exact ⟨by decide, rfl, rfl, by decide⟩

end VirtualLan.Peer
