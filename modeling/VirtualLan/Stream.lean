import VirtualLan.Library.Segmentation
import VirtualLan.Callbacks
import VirtualLan.Reaction

/-! A connection as two byte streams. What one side writes as messages the other
side reads in pieces, and either program handles a piece as if it were a message. -/

namespace VirtualLan
open Program Segmentation

namespace Relay

def request (name : Name) : Verb → Bytes
  | .join => bytes "command join " ++ encode name.text
  | .list => bytes "command list " ++ encode name.text
  | .leave => bytes "command leave " ++ encode name.text

/-- What a client sends: commands that name its own address, and the streams of
its packets. -/
inductive Message where
  | command (verb : Verb) (b c d : UInt8)
  | packet (content : Bytes)

variable (zlib : Zlib)

def Message.bytes : Message → Bytes
  | .command verb b c d => request (address b c d) verb
  | .packet content => zlib.stream content

/-- `handle_client` on the successive results of `recv`, with all sends made on
the way: a turn for each piece, and the cleanup once the loop has ended. -/
def converse (socket : Socket) (state : State) : List Bytes → State × List (Socket × Bytes)
  | [] => (state, [])
  | chunk :: chunks =>
    match step zlib state (.receive socket chunk everyone) with
    | none => (state, [])
    | some (after, output) =>
      if after.phase socket = .running then
        let (final, sent) := converse socket after chunks
        (final, output.sent ++ sent)
      else
        match step zlib after (.finish socket) with
        | none => (after, output.sent)
        | some (final, last) => (final, output.sent ++ last.sent)

/-- The same lobby, and the same messages for every socket in the same order. -/
structure Alike (first second : State × List (Socket × Bytes)) : Prop where
  lobby : ∀ ip, first.1.lobbyList.get? ip = second.1.lobbyList.get? ip
  mail : ∀ socket, mailOf first.2 socket = mailOf second.2 socket

end Relay

namespace Peer

/-- `Server::Listening` on the successive results of `recv`. -/
def listen (zlib : Zlib) (allocates : Nat → Bool) (world : World) : List Bytes → Except Fault Unit × World
  | [] => (.ok (), world)
  | chunk :: chunks =>
    andThen (run (listeningTurn zlib allocates (.data chunk)) world) fun _ after => listen zlib allocates after chunks

/-- Every message handled alone and whole, whatever its length. -/
def handleEach (zlib : Zlib) (allocates : Nat → Bool) (world : World) : List Bytes → Except Fault Unit × World
  | [] => (.ok (), world)
  | message :: messages =>
    andThen (run (callbackLiteningToServer zlib allocates message) world) fun _ after =>
      handleEach zlib allocates after messages

end Peer

end VirtualLan
