import VirtualLan.Proofs.Responses
import VirtualLan.Proofs.Routing

/-! A packet's way from one client's interface to another's. The client parses
the destination out of the raw packet, the relay out of the decompressed one,
and both read the same text. -/

namespace VirtualLan.Peer
open Program Relay

variable {zlib : Zlib} {unset : UInt16} {packet : Bytes} {temp : Packet}

theorem readByte_ok {raw : Bytes} {offset : Nat} {byte : UInt8} (read : readByte raw offset = .ok byte) :
    raw.drop offset = byte :: raw.drop (offset + 1) := by
  unfold readByte at read
  split at read
  next found =>
    cases read
    obtain ⟨inside, rfl⟩ := List.getElem?_eq_some_iff.mp found
    exact List.drop_eq_getElem_cons inside
  next => cases read

theorem inetNtop_ok {raw : Bytes} {offset : Nat} {text : Bytes} (read : inetNtop raw offset = .ok text) :
    ∃ a b c d, (raw.drop offset).take 4 = [a, b, c, d] ∧ text = encode (dotted a b c d) := by
  obtain ⟨a, first, read⟩ := ok_of_bind read
  obtain ⟨b, second, read⟩ := ok_of_bind read
  obtain ⟨c, third, read⟩ := ok_of_bind read
  obtain ⟨d, fourth, read⟩ := ok_of_bind read
  cases read
  refine ⟨a, b, c, d, ?_, rfl⟩
  rw [readByte_ok first, readByte_ok second, readByte_ok third, readByte_ok fourth]
  rfl

theorem create_target {ETHERNET_FRAME : Bool} (created : Packet.create unset (some packet) ETHERNET_FRAME = .ok temp) :
    inetNtop packet ((if ETHERNET_FRAME then 14 else 0) + 16) = .ok temp.dstIp := by
  simp only [Packet.create] at created
  obtain ⟨first, _, created⟩ := ok_of_bind created
  obtain ⟨high, _, created⟩ := ok_of_bind created
  obtain ⟨low, _, created⟩ := ok_of_bind created
  split at created
  next => cases created
  next =>
    obtain ⟨protocol, _, created⟩ := ok_of_bind created
    obtain ⟨transport, _, created⟩ := ok_of_bind created
    obtain ⟨srcIp, _, created⟩ := ok_of_bind created
    obtain ⟨dstIp, destination, created⟩ := ok_of_bind created
    cases created
    exact destination

/-- A parsed packet carries the text of its bytes 16 to 19. -/
theorem create_dstIp (created : Packet.create unset (some packet) false = .ok temp) :
    ∃ a b c d, (packet.drop 16).take 4 = [a, b, c, d] ∧ temp.dstIp = encode (dotted a b c d) :=
  inetNtop_ok (create_target created)

theorem sendToMember_run {world : World} (join : world.lobby.join = true)
    (memberList : List Client) (member : ⟨temp.dstIp⟩ ∈ memberList) :
    run (sendToMember zlib true temp packet memberList) world =
      run (sendData true (compressZlib zlib packet)) world := by
  induction memberList with
  | nil => cases member
  | cons client memberList ih =>
    simp only [sendToMember, run_bind, run_get, andThen_ok, join, Bool.true_and]
    split
    next => rfl
    next different =>
      apply ih
      rcases List.mem_cons.mp member with same | later
      · rw [← same] at different
        exact absurd (beq_self_eq_true _) different
      · exact later

theorem sendData_run {world : World} (connected : world.server.connected = true) (message : Data) :
    run (sendData true message) world =
      (.ok (), { world with sent := world.sent ++ [message.data.take message.size] }) := by
  simp [sendData, connected]

theorem compressZlib_stream (lawful : zlib.Lawful) (small : packet.length ≤ 65535) :
    (compressZlib zlib packet).data.take (compressZlib zlib packet).size = zlib.stream packet := by
  simp [compressZlib, lawful.compressed packet small, Zlib.stream]

theorem callbackInRing_parses {accepts : Bool} {behind : Bytes} {world : World} :
    run (callbackInRing zlib accepts unset behind packet) world =
      match Packet.create unset (some (packet ++ behind)) false with
      | .error fault => (.error fault, world)
      | .ok temp => run (sendToMember zlib accepts temp packet world.lobby.memberList) world := by
  simp only [callbackInRing, run_bind, run_lift, run_get]
  cases Packet.create unset (some (packet ++ behind)) false <;> rfl

theorem callbackLitentToInterface_parses {accepts : Bool} {world : World} :
    run (callbackLitentToInterface zlib accepts unset packet) world = match Packet.create unset (some packet) false with
    | .error fault => (.error fault, world)
    | .ok temp => run (sendToMember zlib accepts temp packet world.lobby.memberList) world := by
  rw [callbackLitentToInterface, callbackInRing_parses, List.append_nil]

/-- A packet for a listed member leaves the client once, as its stream. -/
theorem callbackLitentToInterface_run (lawful : zlib.Lawful) {world : World}
    (connected : world.server.connected = true) (join : world.lobby.join = true) (small : packet.length ≤ 65535)
    (created : Packet.create unset (some packet) false = .ok temp) (member : ⟨temp.dstIp⟩ ∈ world.lobby.memberList) :
    run (callbackLitentToInterface zlib true unset packet) world =
      (.ok (), { world with sent := world.sent ++ [zlib.stream packet] }) := by
  rw [callbackLitentToInterface_parses, created]
  simp only
  rw [sendToMember_run join _ member, sendData_run connected, compressZlib_stream lawful small]

theorem step_delivers (lawful : zlib.Lawful) {state : State} {sender receiver : Socket} {b c d : UInt8}
    {accepts : Socket → Bool} (small : packet.length ≤ 65535) (fits : (zlib.stream packet).length ≤ 1500)
    (destination : (packet.drop 16).take 4 = [100, b, c, d]) (running : state.phase sender = .running)
    (registered : Holds state.lobbyList sender) (bound : state.lobbyList.get? (dotted 100 b c d) = some receiver)
    (reaches : takes accepts state.closed (receiver, zlib.stream packet) = true) :
    step zlib state (.receive sender (zlib.stream packet) accepts) =
      some (state, ⟨[(receiver, zlib.stream packet)], none⟩) := by
  have payload := lawful.stream_payload small
  have message : zlib.stream packet ≠ [] := by
    intro empty
    have first := lawful.window packet small
    rw [empty] at first
    cases first
  have forwarded := react_forwarded message registered payload (lawful.restored packet small)
    (getDestinationIp_dotted destination) bound
  rw [step_receive, if_pos ⟨running, fits⟩, forwarded]
  simp [Reaction.after, Reaction.output, Reaction.sent, Reaction.raised, Reaction.outgoing, Reaction.lobby,
    Reaction.continues, phaseAfter, Option.filter, reaches, ← running]

/-- End to end: the sender puts one message on its socket, the relay passes
exactly this message to the receiver and to nobody else, and the receiver writes
exactly the packet to its interface. Nothing else changes anywhere. -/
theorem packet_delivered (lawful : zlib.Lawful) (short : packet.length ≤ 1500)
    (fits : (zlib.stream packet).length ≤ 1500) {b c d : UInt8} (destination : (packet.drop 16).take 4 = [100, b, c, d])
    (created : Packet.create unset (some packet) false = .ok temp)
    {here there : World} (connected : here.server.connected = true) (join : here.lobby.join = true)
    (member : ⟨encode (dotted 100 b c d)⟩ ∈ here.lobby.memberList)
    {state : State} {sender receiver : Socket} {accepts : Socket → Bool} (running : state.phase sender = .running)
    (registered : Holds state.lobbyList sender) (bound : state.lobbyList.get? (dotted 100 b c d) = some receiver)
    (reaches : takes accepts state.closed (receiver, zlib.stream packet) = true)
    {allocates : Nat → Bool} (room : allocates packet.length = true) :
    run (callbackLitentToInterface zlib true unset packet) here =
      (.ok (), { here with sent := here.sent ++ [zlib.stream packet] }) ∧
    step zlib state (.receive sender (zlib.stream packet) accepts) =
      some (state, ⟨[(receiver, zlib.stream packet)], none⟩) ∧
    run (callbackLiteningToServer zlib allocates (zlib.stream packet)) there =
      (.ok (), { there with injected := there.injected ++ [packet] }) := by
  have small : packet.length ≤ 65535 := by omega
  refine ⟨?_, step_delivers lawful small fits destination running registered bound reaches, ?_⟩
  · obtain ⟨a', b', c', d', same, text⟩ := create_dstIp created
    rw [destination] at same
    cases same
    exact callbackLitentToInterface_run lawful connected join small created (text ▸ member)
  · obtain ⟨restored, size⟩ := decompressZlib_size lawful (lawful.restored packet small) short
    rw [callbackLiteningToServer_run allocates (size ▸ room), handled, lawful.stream_payload small, restored]
    rfl

/-- A connected member that knows the holder of the second address. -/
def acquainted : World := ⟨⟨true⟩, ⟨[⟨bytes "100.0.0.1"⟩, ⟨bytes "100.0.0.2"⟩], bytes "100.0.0.1", true⟩, [], []⟩

theorem packet_delivered_greeting :
    let paired := ((system StoredZlib.zlib).play pair).2
    let stream := StoredZlib.zlib.stream greeting
    run (callbackLitentToInterface StoredZlib.zlib true 0 greeting) acquainted =
      (.ok (), { acquainted with sent := [stream] }) ∧
    step StoredZlib.zlib paired (.receive 1 stream everyone) = some (paired, ⟨[(2, stream)], none⟩) ∧
    run (callbackLiteningToServer StoredZlib.zlib (fun _ => true) stream) acquainted =
      (.ok (), { acquainted with injected := [greeting] }) :=
  @packet_delivered StoredZlib.zlib 0 greeting _ StoredZlib.lawful (by decide) (by decide) 0 0 2 rfl rfl acquainted
    acquainted rfl rfl (by decide) ((system StoredZlib.zlib).play pair).2 1 2 everyone (by decide)
    (isClientJoin_iff.mp (by decide)) (by decide) (by decide) (fun _ => true) rfl

end VirtualLan.Peer
