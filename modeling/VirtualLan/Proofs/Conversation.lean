import VirtualLan.Proofs.Responses
import VirtualLan.Proofs.Routing

/-! The replies of the relay as a client reads them. A client understands every
reply, and most of them whatever follows their status in the same read. -/

namespace VirtualLan.Peer
open Program Relay

def statusLine (word status : Bytes) : Bytes :=
  VirtualLan.bytes "command" ++ 0x20 :: (word ++ 0x20 :: (status ++ [0x20]))

theorem splitOn_statusLine {word status : Bytes} (one : (0x20 : UInt8) ∉ word) (two : (0x20 : UInt8) ∉ status)
    (tail : Bytes) : (statusLine word status ++ tail).splitOn 0x20 =
      VirtualLan.bytes "command" :: word :: status :: tail.splitOn 0x20 := by
  have command : (0x20 : UInt8) ∉ VirtualLan.bytes "command" := by decide
  simp only [statusLine, List.append_assoc, List.cons_append, List.nil_append]
  rw [List.splitOn_append_cons_self_of_not_mem command, List.splitOn_append_cons_self_of_not_mem one,
    List.splitOn_append_cons_self_of_not_mem two]

/-- What a client makes of a reply that it reads alone. -/
def meaning : Reply → Response
  | .joined => .joined
  | .listed keys => .listed (members ((Reply.listed keys).bytes.splitOn 0x20))
  | .left => .cleared
  | .refused _ => .kept
  | .error => .expelled

def Closed : Reply → Prop
  | .joined | .left | .refused _ => True
  | .listed _ | .error => False

private theorem closed_line {reply : Reply} (closed : Closed reply) : ∃ word status,
    reply.bytes = statusLine word status ∧ (0x20 : UInt8) ∉ word ∧ (0x20 : UInt8) ∉ status ∧
    ∀ tail, response (VirtualLan.bytes "command" :: word :: status :: tail) = .ok (meaning reply) := by
  have one : (0x20 : UInt8) ∉ VirtualLan.bytes "1" := by decide
  have zero : (0x20 : UInt8) ∉ VirtualLan.bytes "0" := by decide
  cases reply with
  | joined => exact ⟨VirtualLan.bytes "join", _, by decide, by decide, one, fun _ => rfl⟩
  | left => exact ⟨VirtualLan.bytes "leave", _, by decide, by decide, one, fun _ => rfl⟩
  | refused verb =>
    cases verb with
    | join => exact ⟨VirtualLan.bytes "join", _, by decide, by decide, zero, fun _ => rfl⟩
    | list => exact ⟨VirtualLan.bytes "list", _, by decide, by decide, zero, fun _ => rfl⟩
    | leave => exact ⟨VirtualLan.bytes "leave", _, by decide, by decide, zero, fun _ => rfl⟩
  | listed | error => cases closed

/-- Whatever follows the status of these replies is not looked at. -/
theorem response_closed {reply : Reply} (closed : Closed reply) (tail : Bytes) :
    response ((reply.bytes ++ tail).splitOn 0x20) = .ok (meaning reply) := by
  obtain ⟨word, status, line, first, second, answer⟩ := closed_line closed
  rw [line, splitOn_statusLine first second]
  exact answer _

theorem splitOn_listed (keys : List Str) : (Reply.listed keys).bytes.splitOn 0x20 = VirtualLan.bytes "command" ::
    VirtualLan.bytes "list" :: VirtualLan.bytes "1" :: (encode (keys.flatMap (· ++ " ".toList))).splitOn 0x20 := by
  have line : VirtualLan.bytes "command list 1 " = statusLine (VirtualLan.bytes "list") (VirtualLan.bytes "1") := by
    decide
  rw [Reply.bytes, line, splitOn_statusLine (by decide) (by decide)]

/-- Read alone, every reply is understood. -/
theorem response_reply (reply : Reply) : response (reply.bytes.splitOn 0x20) = .ok (meaning reply) := by
  cases reply with
  | joined | left | refused =>
    rw [← List.append_nil (Reply.bytes _)]
    refine response_closed ?_ []
    trivial
  | error => decide
  | listed keys =>
    rw [meaning, splitOn_listed]
    rfl

def Response.flag (join : Bool) : Response → Bool
  | .kept | .listed _ => join
  | .joined => true
  | .cleared | .expelled => false

/-- The join flag after a message, which depends on nothing but the flag. -/
def heard (join : Bool) (data : Bytes) : Bool :=
  if (VirtualLan.bytes "command").isPrefixOf data then
    match response (data.splitOn 0x20) with
    | .error _ => join
    | .ok response => response.flag join
  else join

theorem heard_reply (join : Bool) (reply : Reply) : heard join reply.bytes = (meaning reply).flag join := by
  rw [heard, if_pos reply.starts, response_reply]

theorem heard_payload (join : Bool) {data : Bytes} (payload : (VirtualLan.bytes "command").isPrefixOf data = false) :
    heard join data = join := by
  simp [heard, payload]

theorem heard_mono {data : Bytes} (set : heard false data = true) : heard true data = true := by
  unfold heard at set ⊢
  split
  next starts =>
    rw [if_pos starts] at set
    cases answer : response (data.splitOn 0x20) with
    | error fault => rfl
    | ok response =>
      rw [answer] at set
      cases response <;> first | rfl | cases set
  next => rfl

end VirtualLan.Peer
