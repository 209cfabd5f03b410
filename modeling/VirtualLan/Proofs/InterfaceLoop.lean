import VirtualLan.Process
import VirtualLan.Proofs.Delivery

/-! The interface thread over all that the driver returns to it. Every packet is
given back, and at most one message leaves the client for it, whatever the other
threads make of the lobby between two passes. -/

namespace VirtualLan.Peer
open Program Relay

variable {zlib : Zlib} {unset : UInt16}

/-- The thread goes on after this pass. -/
def Pass.continues (unset : UInt16) (pass : Pass) : Bool :=
  match pass.incoming with
  | .packet data => (Packet.create unset (some data) false).isOk
  | .noMoreItems => true
  | .failed => false

def Pass.packet? (pass : Pass) : Option Bytes :=
  match pass.incoming with
  | .packet data => some data
  | .noMoreItems | .failed => none

def Pass.fails (pass : Pass) : Bool :=
  match pass.incoming with
  | .failed => true
  | .packet _ | .noMoreItems => false

/-- What a packet leaves on the socket: its compressed form, when the client is a
member and the destination is one of the members that it knows. -/
def Pass.message (zlib : Zlib) (unset : UInt16) (pass : Pass) : List Bytes :=
  match pass.incoming with
  | .packet data =>
    match Packet.create unset (some data) false with
    | .ok temp =>
      if pass.server.connected && pass.accepts && pass.lobby.join &&
          pass.lobby.memberList.any (fun client => cString temp.dstIp == cString client.ip) then
        [(compressZlib zlib data).data.take (compressZlib zlib data).size]
      else []
    | .error _ => []
  | .noMoreItems | .failed => []

theorem sendData_outcome (accepts : Bool) (message : Data) (world : World) : run (sendData accepts message) world =
    (.ok (), { world with
      sent := world.sent ++ if world.server.connected && accepts then [message.data.take message.size] else [] }) := by
  simp only [sendData, run_bind, run_get, andThen_ok]
  cases connected : world.server.connected <;> cases accepts <;>
    simp only [Bool.and_true, Bool.and_false, if_true, if_false, Bool.false_eq_true, List.append_nil] <;> rfl

theorem sendToMember_outcome (accepts : Bool) (temp : Packet) (packet : Bytes) (memberList : List Client) (world : World) :
    run (sendToMember zlib accepts temp packet memberList) world =
      if world.lobby.join && memberList.any (fun client => cString temp.dstIp == cString client.ip) then
        run (sendData accepts (compressZlib zlib packet)) world
      else (.ok (), world) := by
  induction memberList with
  | nil => simp [sendToMember]
  | cons client memberList ih =>
    simp only [sendToMember, run_bind, run_get, andThen_ok]
    cases join : world.lobby.join with
    | false => simpa [join] using ih
    | true =>
      cases same : cString temp.dstIp == cString client.ip with
      | true => simp [same]
      | false => simpa [same, join] using ih

/-- A pass with a packet sends the pass's message, or it throws and sends nothing. -/
theorem pass_outcome (pass : Pass) {data : Bytes} (packet : pass.incoming = .packet data) (world : World) :
    run (callbackLitentToInterface zlib pass.accepts unset data)
        { world with server := pass.server, lobby := pass.lobby } =
      ((Packet.create unset (some data) false).map fun _ => (),
        { world with
          server := pass.server, lobby := pass.lobby, sent := world.sent ++ pass.message zlib unset }) := by
  rw [callbackLitentToInterface_parses]
  cases created : Packet.create unset (some data) false with
  | error fault => simp [Pass.message, packet, created, Except.map]
  | ok temp =>
    simp only [sendToMember_outcome, sendData_outcome, Pass.message, packet, created, Except.map]
    generalize pass.lobby.memberList.any (fun client => cString temp.dstIp == cString client.ip) = known
    cases pass.server.connected <;> cases pass.accepts <;> cases pass.lobby.join <;> cases known <;> simp

/-- All that the thread does, over every sequence of passes: it handles them up to the
first failure of the driver or the first packet that does not parse, sends the message
of each in order, gives every packet back that it handled, and ends the process where
a packet does not parse. A packet whose parse reads behind its end counts as one of
these, and what the code does from there on is left open. -/
theorem listening_outcome (passes : List Pass) (adapter : Adapter) :
    (listening zlib unset adapter passes).2.world.sent =
      adapter.world.sent ++ (passes.takeWhile (Pass.continues unset)).flatMap (Pass.message zlib unset) ∧
    (listening zlib unset adapter passes).2.released =
      adapter.released ++ (passes.takeWhile (Pass.continues unset)).filterMap Pass.packet? ∧
    ((listening zlib unset adapter passes).1 = .ok () ↔
      ∀ pass ∈ passes.takeWhile (fun pass => !pass.fails), pass.continues unset = true) := by
  induction passes generalizing adapter with
  | nil => simp [listening]
  | cons pass passes ih =>
    cases incoming : pass.incoming with
    | failed => simp [listening, incoming, Pass.continues, Pass.fails]
    | noMoreItems =>
      have goes : pass.continues unset = true := by simp [Pass.continues, incoming]
      have stays : pass.fails = false := by simp [Pass.fails, incoming]
      have later := ih ⟨{ adapter.world with server := pass.server, lobby := pass.lobby }, adapter.released⟩
      simp only [listening, incoming]
      simpa [goes, stays, Pass.message, Pass.packet?, incoming] using later
    | packet data =>
      have stays : pass.fails = false := by simp [Pass.fails, incoming]
      simp only [listening, incoming]
      rw [pass_outcome pass incoming]
      cases created : Packet.create unset (some data) false with
      | error fault =>
        have stops : pass.continues unset = false := by simp [Pass.continues, incoming, created, Except.isOk, Except.toBool]
        simp [Except.map, stops, stays, Pass.message, incoming, created]
      | ok temp =>
        have goes : pass.continues unset = true := by simp [Pass.continues, incoming, created, Except.isOk, Except.toBool]
        have later := ih ⟨{ adapter.world with
          server := pass.server, lobby := pass.lobby, sent := adapter.world.sent ++ pass.message zlib unset },
          adapter.released ++ [data]⟩
        simp only [Except.map]
        simpa [goes, stays, Pass.packet?, incoming] using later

end VirtualLan.Peer
