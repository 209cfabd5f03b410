import VirtualLan.Proofs.Addresses
import VirtualLan.Proofs.HandlerCleanup

/-! Which packets the relay passes on, and to whom. Every entry of the lobby
goes back to a join command of the socket it names, so a forwarded packet
reaches the connection that asked for its destination. -/

namespace VirtualLan.Relay

variable {zlib : Zlib} {state after : State} {output : Output} {history : List (Moment State Event Output)}

/-- The socket's own join command bound the address, and no step since then has
taken it away. -/
def JoinedBy (history : List (Moment State Event Output)) (ip : Str) (owner : Socket) : Prop :=
  ∃ newer join older data accepts, history = newer ++ join :: older ∧ join.event = .receive owner data accepts ∧
    Asks data .join ip ∧ ∀ moment ∈ newer ++ [join], moment.after.lobbyList.get? ip = some owner

theorem JoinedBy.extend {ip : Str} {owner : Socket} (joined : JoinedBy history ip owner)
    {moment : Moment State Event Output} (kept : moment.after.lobbyList.get? ip = some owner) :
    JoinedBy (moment :: history) ip owner := by
  obtain ⟨newer, join, older, data, accepts, rfl, event, asks, since⟩ := joined
  exact ⟨moment :: newer, join, older, data, accepts, rfl, event, asks, List.forall_mem_cons.mpr ⟨kept, since⟩⟩

theorem run_joined (run : (system zlib).Run history state) :
    ∀ ip owner, state.lobbyList.get? ip = some owner → JoinedBy history ip owner := by
  apply run.history_invariant fun history state =>
    ∀ ip owner, state.lobbyList.get? ip = some owner → JoinedBy history ip owner
  · intro ip owner bound
    cases bound
  · intro history moment past joined legal ip owner bound
    rcases (legal_steps legal).bound bound with old | ⟨_, _, data, accepts, event, asks⟩
    · exact (joined ip owner old).extend bound
    · exact ⟨[], moment, history, data, accepts, rfl, event, asks, by simpa using bound⟩

structure Routed (zlib : Zlib) (history : List (Moment State Event Output)) (before after : State) (sender : Socket)
    (data : Bytes) (output : Output) (receiver : Socket) (message : Bytes) : Prop where
  registered : Holds before.lobbyList sender
  unchanged : message = data
  addressed : ∃ packet ip, zlib.decompress data = some packet ∧ 20 ≤ packet.length ∧
    inetNtoa ((packet.drop 16).take 4) = .ok ip ∧ "100.".toList <+: ip ∧
    before.lobbyList.get? ip = some receiver ∧ JoinedBy history ip receiver
  alone : output.sent = [(receiver, message)]
  kept : after.lobbyList = before.lobbyList

/-- Every message that is not a reply was routed by an address which its
receiver joined under, whatever the clients sent before. -/
theorem run_routed (run : (system zlib).Run history state) {sender receiver : Socket} {data message : Bytes}
    {accepts : Socket → Bool} (stepped : step zlib state (.receive sender data accepts) = some (after, output))
    (sent : (receiver, message) ∈ output.sent) (payload : ¬ bytes "command" <+: message) :
    Routed zlib history state after sender data output receiver message := by
  cases steps_of_step stepped with
  | @receive _ _ _ reaction running short same reacts =>
    simp only [Reaction.output, Reaction.sent, Option.mem_toList, Option.filter_eq_some_iff] at sent
    obtain ⟨outgoing, taken⟩ := sent
    rcases Reaction.outgoing_reply outgoing with ⟨reply, answer⟩ | ⟨ip, target, rfl, forward⟩
    · cases answer
      exact absurd reply.bytes_command payload
    cases forward
    cases reacts with
    | @forwarded _ _ packet member _ decoded addressed bound =>
      obtain ⟨long, read, valid⟩ := getDestinationIp_some addressed
      refine ⟨member, rfl, ⟨packet, ip, decoded, long, read, isValidIpv4_prefix valid, bound, run_joined run _ _ bound⟩,
        ?_, rfl⟩
      simp [Reaction.output, Reaction.sent, Reaction.outgoing, Option.filter, taken]

theorem run_routed_pair : ∃ after output,
    step StoredZlib.zlib ((system StoredZlib.zlib).play pair).2 (.receive 1 (StoredZlib.deflate greeting) everyone) =
      some (after, output) ∧
    Routed StoredZlib.zlib ((system StoredZlib.zlib).play pair).1 ((system StoredZlib.zlib).play pair).2 after 1
      (StoredZlib.deflate greeting) output 2 (StoredZlib.deflate greeting) := by
  refine ⟨_, _, rfl, ?_⟩
  exact @run_routed StoredZlib.zlib _ _ _ _ ((system StoredZlib.zlib).run_play pair) 1 2 (StoredZlib.deflate greeting)
    (StoredZlib.deflate greeting) everyone rfl (by decide) (by decide)

end VirtualLan.Relay
