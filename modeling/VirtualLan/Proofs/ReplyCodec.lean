import VirtualLan.Proofs.Conversation
import VirtualLan.Proofs.HandlerCleanup

/-! Replies survive the way from the relay's encoder to the client's decoder. The
encoder puts a space behind every address and the decoder drops its last token,
which agree because no address that the relay accepts contains a space. -/

namespace VirtualLan.Relay

variable {zlib : Zlib} {state before after : State} {output : Output}

theorem reachable_valid (reached : (system zlib).Reachable state) :
    ∀ ip ∈ state.lobbyList.keys, isValidIpv4 ip = .ok true := by
  apply reached.invariant fun state => ∀ ip ∈ state.lobbyList.keys, isValidIpv4 ip = .ok true
  · intro ip member
    cases member
  · intro before event after output valid stepped ip member
    obtain ⟨owner, bound⟩ := Dict.mem_keys_iff.mp member
    rw [← Dict.get?_eq_some_iff] at bound
    rcases (steps_of_step stepped).bound bound with old | ⟨_, accepted, _⟩
    · exact valid ip (Dict.mem_keys_iff.mpr ⟨owner, Dict.get?_eq_some_iff.mp old⟩)
    · exact accepted

theorem isValidIpv4_solid {ip : Str} (valid : isValidIpv4 ip = .ok true) : ' ' ∉ ip := by
  intro member
  rcases isValidIpv4_chars valid member with dot | digit
  · exact absurd dot (by decide)
  · exact absurd digit (by decide)

theorem isValidIpv4_nonempty {ip : Str} (valid : isValidIpv4 ip = .ok true) : encode ip ≠ [] := by
  intro empty
  obtain ⟨rest, rfl⟩ := isValidIpv4_prefix valid
  rw [encode_append, List.append_eq_nil_iff] at empty
  exact absurd empty.1 (by decide)

/-- The relay answers such a message itself: `handle_command` does, or the last
branch of `handle_client`. -/
def answers (lobbyList : Lobby) (socket : Socket) (data : Bytes) : Bool :=
  (bytes "command").isPrefixOf data || !isClientJoin lobbyList socket

theorem answers_of_asks {lobbyList : Lobby} {socket : Socket} {data : Bytes} {verb : Verb} {ip : Str}
    (asks : Asks data verb ip) : answers lobbyList socket data = true := by
  rw [answers, asks.1, Bool.true_or]

/-- An answer is a reply to the connection that asked, and anything else is the
received message itself. -/
theorem sent_cases {sender receiver : Socket} {data message : Bytes} {accepts : Socket → Bool}
    (stepped : step zlib before (.receive sender data accepts) = some (after, output))
    (sent : (receiver, message) ∈ output.sent) :
    (answers before.lobbyList sender data = true ∧ receiver = sender ∧ ∃ reply : Reply, message = reply.bytes ∧
      ∀ keys, reply = .listed keys → keys = before.lobbyList.keys) ∨
    (answers before.lobbyList sender data = false ∧ message = data) := by
  cases steps_of_step stepped with
  | @receive _ _ _ reaction running short same reacts =>
    simp only [Reaction.output, Reaction.sent, Option.mem_toList, Option.filter_eq_some_iff] at sent
    obtain ⟨outgoing, _⟩ := sent
    cases reacts with
    | closing | crashed | ignored | dropped => cases outgoing
    | forwarded member payload =>
      cases outgoing
      refine Or.inr ⟨?_, rfl⟩
      rw [answers, payload, isClientJoin_iff.mpr member]
      rfl
    | joined asks =>
      cases outgoing
      exact Or.inl ⟨answers_of_asks asks, rfl, .joined, rfl, fun _ same => by cases same⟩
    | left asks =>
      cases outgoing
      exact Or.inl ⟨answers_of_asks asks, rfl, .left, rfl, fun _ same => by cases same⟩
    | @refused verb _ asks =>
      cases outgoing
      exact Or.inl ⟨answers_of_asks asks, rfl, .refused verb, rfl, fun _ same => by cases same⟩
    | rejected outsider =>
      cases outgoing
      refine Or.inl ⟨?_, rfl, .error, rfl, fun _ same => by cases same⟩
      rw [answers, isClientJoin_eq_false_iff.mpr outsider]
      exact Bool.or_true _
    | listed asks =>
      cases outgoing
      refine Or.inl ⟨answers_of_asks asks, rfl, .listed before.lobbyList.keys, listReply_bytes _, ?_⟩
      rintro keys same
      cases same
      rfl

theorem Reply.listed_of_prefix {reply : Reply} (starts : VirtualLan.bytes "command list 1 " <+: reply.bytes) :
    ∃ keys, reply = .listed keys := by
  cases reply with
  | listed keys => exact ⟨keys, rfl⟩
  | joined | left | error => exact absurd starts (by decide)
  | refused verb => cases verb <;> exact absurd starts (by decide)

/-- A registered connection was told that it had joined, unless its handler has
already left its loop. -/
structure Told (history : List (Moment State Event Output)) (state : State) (socket : Socket) : Prop where
  present : state.phase socket ≠ .absent
  welcomed : state.phase socket = .running → ∃ earlier ∈ history, (socket, Reply.joined.bytes) ∈ earlier.output.sent

variable {history : List (Moment State Event Output)}

theorem Told.later {moment : Moment State Event Output} {socket : Socket} (told : Told history moment.before socket)
    (steps : Steps zlib moment.before moment.event moment.after moment.output) :
    Told (moment :: history) moment.after socket := by
  have remembered : moment.before.phase socket = .running →
      ∃ earlier ∈ moment :: history, (socket, Reply.joined.bytes) ∈ earlier.output.sent := by
    intro running
    obtain ⟨earlier, member, sent⟩ := told.welcomed running
    exact ⟨earlier, List.mem_cons_of_mem _ member, sent⟩
  by_cases own : socket = moment.event.socket
  · obtain ⟨before, event, output, after⟩ := moment
    subst own
    have steps : Steps zlib before event after output := steps
    cases steps with
    | accept absent => exact absurd absent told.present
    | @receive _ data accepts reaction running =>
      refine ⟨?_, fun _ => remembered running⟩
      simp only [Reaction.after, Event.socket, Function.update_self]
      unfold phaseAfter
      split <;> intro same <;> cases same
    | fail | finish | abandon =>
      refine ⟨?_, ?_⟩ <;> simp [State.moved, Event.socket]
  · have same := steps.phase_other own
    exact ⟨same ▸ told.present, fun running => remembered (same ▸ running)⟩

theorem run_told (run : (system zlib).Run history state) {socket : Socket} (member : Holds state.lobbyList socket) :
    Told history state socket := by
  revert socket member
  apply run.history_invariant fun history state => ∀ {socket}, Holds state.lobbyList socket → Told history state socket
  · rintro socket ⟨ip, bound⟩
    cases bound
  · rintro history moment past told legal socket ⟨ip, bound⟩
    have steps := legal_steps legal
    rcases steps.bound bound with old | ⟨free, _, data, accepts, event, _⟩
    · exact (told ⟨ip, old⟩).later steps
    · obtain ⟨before, _, output, after⟩ := moment
      cases event
      have steps : Steps zlib before (.receive socket data accepts) after output := steps
      cases steps with
      | @receive _ _ _ reaction running short same reacts =>
        have joined : ∃ ip, reaction = .joined ip := by
          cases reacts with
          | @joined key => exact ⟨key, rfl⟩
          | left =>
            have kept := (Dict.get?_of_erase bound).2
            exact absurd (Dict.mem_keys_iff.mpr ⟨socket, Dict.get?_eq_some_iff.mp kept⟩) free
          | _ => exact absurd (Dict.mem_keys_iff.mpr ⟨socket, Dict.get?_eq_some_iff.mp bound⟩) free
        obtain ⟨key, rfl⟩ := joined
        refine ⟨?_, ?_⟩
        · simp only [Reaction.after, Function.update_self]
          unfold phaseAfter
          split <;> intro same <;> cases same
        · intro stays
          refine ⟨_, List.mem_cons_self, ?_⟩
          rw [(sent_of_running stays).1]
          exact List.mem_singleton.mpr rfl

/-- A list of members goes to a registered connection. -/
theorem outgoing_listed {lobbyList : Lobby} {sender receiver : Socket} {data : Bytes} {reaction : Reaction}
    {keys : List Str} (reacts : Reacts zlib lobbyList sender data reaction)
    (outgoing : reaction.outgoing lobbyList sender data = some (receiver, (Reply.listed keys).bytes)) :
    receiver = sender ∧ Holds lobbyList sender := by
  have other : ∀ reply : Reply, some (sender, reply.bytes) = some (receiver, (Reply.listed keys).bytes) →
      ∃ keys, reply = .listed keys := by
    intro reply same
    apply Reply.listed_of_prefix
    rw [(Prod.mk.inj (Option.some.inj same)).2]
    exact List.prefix_append _ _
  cases reacts with
  | closing | crashed | ignored | dropped => cases outgoing
  | forwarded _ payload =>
    rw [(Prod.mk.inj (Option.some.inj outgoing)).2, (Reply.listed keys).starts] at payload
    cases payload
  | listed asks valid present member => exact ⟨(Prod.mk.inj (Option.some.inj outgoing)).1.symm, member⟩
  | joined =>
    obtain ⟨_, same⟩ := other .joined outgoing
    cases same
  | left =>
    obtain ⟨_, same⟩ := other .left outgoing
    cases same
  | @refused verb =>
    obtain ⟨_, same⟩ := other (.refused verb) outgoing
    cases same
  | rejected =>
    obtain ⟨_, same⟩ := other .error outgoing
    cases same

/-- A list of members is never the first reply of a connection: a confirmed join
comes before it. -/
theorem listed_after_joined {newer older : List (Moment State Event Output)} {moment : Moment State Event Output}
    (run : (system zlib).Run (newer ++ moment :: older) state) {socket : Socket} {keys : List Str}
    (listed : (socket, (Reply.listed keys).bytes) ∈ moment.output.sent) :
    ∃ earlier ∈ older, (socket, Reply.joined.bytes) ∈ earlier.output.sent := by
  obtain ⟨past, legal⟩ := run.earlier
  obtain ⟨before, event, output, after⟩ := moment
  have steps : Steps zlib before event after output := legal_steps legal
  cases steps with
  | receive running short same reacts =>
    simp only [Reaction.output, Reaction.sent, Option.mem_toList, Option.filter_eq_some_iff] at listed
    obtain ⟨rfl, member⟩ := outgoing_listed reacts listed.1
    exact (run_told past member).welcomed running
  | accept | fail | finish | abandon => cases listed

end VirtualLan.Relay

namespace VirtualLan.Peer
open Program Relay

/-- What a client should make of a reply. -/
def understood (lobby : Lobby) : Reply → Lobby
  | .joined => { lobby with join := true }
  | .listed keys => { lobby with memberList := keys.map fun key => ⟨encode key⟩ }
  | .left => { lobby with memberList := [], join := false }
  | .refused _ => lobby
  | .error => { lobby with join := false }

theorem splitOn_addresses {keys : List Str} (solid : ∀ key ∈ keys, ' ' ∉ key) :
    (encode (keys.flatMap (· ++ " ".toList))).splitOn 0x20 = keys.map encode ++ [[]] := by
  induction keys with
  | nil => rfl
  | cons key keys ih =>
    have space : encode " ".toList = [0x20] := by decide
    have first := space_not_mem_encode (solid key List.mem_cons_self)
    have later := ih fun other member => solid other (List.mem_cons_of_mem _ member)
    rw [List.flatMap_cons, encode_append, encode_append, space, List.append_assoc, List.singleton_append,
      List.splitOn_append_cons_self_of_not_mem first, later]
    rfl

/-- The decoder's last but one token is the encoder's last address. -/
theorem members_listed {keys : List Str} (solid : ∀ key ∈ keys, ' ' ∉ key) :
    members ((Reply.listed keys).bytes.splitOn 0x20) = keys.map fun key => ⟨encode key⟩ := by
  rw [splitOn_listed, splitOn_addresses solid, members]
  simp

theorem meaning_understood {reply : Reply} (solid : ∀ keys, reply = .listed keys → ∀ key ∈ keys, ' ' ∉ key)
    (lobby : Lobby) : (meaning reply).apply lobby = understood lobby reply := by
  cases reply with
  | joined | left | refused | error => rfl
  | listed keys => rw [meaning, members_listed (solid keys rfl), Response.apply, understood]

theorem handleResponse_reply (reply : Reply) (world : World) : run (handleResponse reply.bytes) world =
    (.ok (), { world with lobby := (meaning reply).apply world.lobby }) := by
  rw [handleResponse_run, answered, response_reply]

variable {zlib : Zlib} {before after : State} {output : Output}

/-- Every reply of a reachable relay is accepted by the client and changes the
client's lobby as it should; a list of members arrives as it is. -/
theorem reply_understood (reached : (system zlib).Reachable before) {sender receiver : Socket} {data message : Bytes}
    {accepts : Socket → Bool} (stepped : Relay.step zlib before (.receive sender data accepts) = some (after, output))
    (answer : answers before.lobbyList sender data = true) (sent : (receiver, message) ∈ output.sent) :
    receiver = sender ∧ ∃ reply : Reply, message = reply.bytes ∧ startsWithCommand message = true ∧
      (∀ world, run (handleResponse message) world =
        (.ok (), { world with lobby := understood world.lobby reply })) ∧
      ∀ keys, reply = .listed keys → keys = before.lobbyList.keys ∧
        (keys.map fun key => (⟨encode key⟩ : Client)).Nodup ∧ ∀ key ∈ keys, encode key ≠ [] := by
  rcases sent_cases stepped sent with ⟨_, rfl, reply, rfl, listed⟩ | ⟨silent, _⟩
  case inr =>
    rw [answer] at silent
    cases silent
  have valid := reachable_valid reached
  refine ⟨rfl, reply, rfl, ?_, ?_, ?_⟩
  · exact startsWithCommand_reply reply
  · intro world
    rw [handleResponse_reply, meaning_understood]
    intro keys same key member
    rw [listed keys same] at member
    exact isValidIpv4_solid (valid key member)
  · intro keys same
    obtain rfl := listed keys same
    refine ⟨rfl, ?_, fun key member => isValidIpv4_nonempty (valid key member)⟩
    refine List.Nodup.map ?_ before.lobbyList.unique
    intro first second equal
    exact encode_injective (congrArg Client.ip equal)

theorem reply_understood_pair : ∃ after output,
    Relay.step StoredZlib.zlib ((system StoredZlib.zlib).play pair).2
      (.receive 1 (bytes "command list 100.0.0.1") everyone) = some (after, output) ∧
    ∃ reply : Reply, bytes "command list 1 100.0.0.1 100.0.0.2 " = reply.bytes ∧
      ∀ world, run (handleResponse (bytes "command list 1 100.0.0.1 100.0.0.2 ")) world =
        (.ok (), { world with lobby := understood world.lobby reply }) := by
  refine ⟨_, _, rfl, ?_⟩
  obtain ⟨_, reply, same, _, understood, _⟩ := @reply_understood StoredZlib.zlib _ _ _
    ((system StoredZlib.zlib).reachable_play pair) 1 1 (bytes "command list 100.0.0.1")
    (bytes "command list 1 100.0.0.1 100.0.0.2 ") everyone rfl (by decide) (by decide)
  exact ⟨reply, same, understood⟩

end VirtualLan.Peer
