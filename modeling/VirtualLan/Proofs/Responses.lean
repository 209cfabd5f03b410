import VirtualLan.Callbacks
import VirtualLan.Reaction

/-! What a received message does to a client. A reply is decided from its second
and third token, and anything else is an attempt to decompress a packet. -/

namespace VirtualLan.Peer
open Program Relay

theorem tokenize_eq_splitOn (str : Bytes) : tokenize str = str.splitOn 0x20 := by
  induction str using tokenize.induct with
  | case1 str missed =>
    rw [tokenize]
    split
    next =>
      have solid : ∀ byte ∈ str, (byte == 0x20) = false := by simpa using missed
      exact (List.splitOnP_eq_singleton solid).symm
    next found => simp [missed] at found
  | case2 str pos found ih =>
    rw [tokenize]
    split
    next missed => simp [missed] at found
    next other same =>
      obtain rfl : other = pos := by simpa [same] using found
      obtain ⟨inside, blank, solid⟩ := List.findIdx?_eq_some_iff_getElem.mp same
      have first : ∀ byte ∈ str.take other, (byte == 0x20) = false := by
        intro byte member
        obtain ⟨index, before, rfl⟩ := List.mem_take_iff_getElem.mp member
        simpa using solid index (by omega)
      have cut := List.splitOnP_append_cons_of_forall_mem first str[other] blank (str.drop (other + 1))
      rw [← List.drop_eq_getElem_cons inside, List.take_append_drop] at cut
      rw [ih]
      exact cut.symm

inductive Response where
  | kept
  | joined
  | listed (memberList : List Client)
  | cleared
  | expelled
  deriving DecidableEq

def Response.apply (lobby : Lobby) : Response → Lobby
  | .kept => lobby
  | .joined => { lobby with join := true }
  | .listed memberList => { lobby with memberList := memberList }
  | .cleared => { lobby with memberList := [], join := false }
  | .expelled => { lobby with join := false }

def members (tokens : List Bytes) : List Client := ((tokens.take (tokens.length - 1)).drop 3).map Client.mk

def granted (tokens : List Bytes) : Verb → Response
  | .join => .joined
  | .list => .listed (members tokens)
  | .leave => .cleared

def verbOf? (word : Bytes) : Option Verb :=
  if word = bytes "join" then some .join
  else if word = bytes "list" then some .list
  else if word = bytes "leave" then some .leave
  else none

def response (tokens : List Bytes) : Except Fault Response :=
  match tokens[1]? with
  | none => .error .outOfBounds
  | some word =>
    match verbOf? word with
    | none => .ok (if word = bytes "error" then .expelled else .kept)
    | some verb =>
      match tokens[2]? with
      | none => .error .outOfBounds
      | some status => .ok (if status = bytes "1" then granted tokens verb else .kept)

def answered (world : World) (command : Bytes) : Except Fault Unit × World :=
  match response (command.splitOn 0x20) with
  | .error fault => (.error fault, world)
  | .ok response => (.ok (), { world with lobby := response.apply world.lobby })

private theorem words_apart : bytes "join" ≠ bytes "list" ∧ bytes "join" ≠ bytes "leave" ∧ bytes "join" ≠ bytes "error" ∧
    bytes "list" ≠ bytes "leave" ∧ bytes "list" ≠ bytes "error" ∧ bytes "leave" ≠ bytes "error" := by
  decide

theorem handleResponse_run (command : Bytes) (world : World) :
    run (handleResponse command) world = answered world command := by
  obtain ⟨joinList, joinLeave, joinError, listLeave, listError, leaveError⟩ := words_apart
  simp only [handleResponse, tokenize_eq_splitOn, answered, response]
  cases second : (command.splitOn 0x20)[1]? with
  | none => simp [token, second]
  | some word =>
    simp only [token, second, run_bind, run_lift, andThen_ok, verbOf?]
    by_cases join : word = bytes "join"
    · subst join
      cases third : (command.splitOn 0x20)[2]? with
      | none => simp
      | some status =>
        by_cases one : status = bytes "1"
        · subst one
          simp [setJoin, granted, Response.apply, joinList, joinLeave, joinError]
        · simp [one, joinList, joinLeave, joinError, Response.apply]
    by_cases list : word = bytes "list"
    · subst list
      cases third : (command.splitOn 0x20)[2]? with
      | none => simp [joinList.symm]
      | some status =>
        by_cases one : status = bytes "1"
        · subst one
          simp [updateLobbyList, setMembers, granted, Response.apply, members, joinList.symm, listLeave, listError]
        · simp [one, joinList.symm, listLeave, listError, Response.apply]
    by_cases leave : word = bytes "leave"
    · subst leave
      cases third : (command.splitOn 0x20)[2]? with
      | none => simp [joinLeave.symm, listLeave.symm]
      | some status =>
        by_cases one : status = bytes "1"
        · subst one
          simp [setJoin, setMembers, granted, Response.apply, joinLeave.symm, listLeave.symm, leaveError]
        · simp [one, joinLeave.symm, listLeave.symm, leaveError, Response.apply]
    by_cases error : word = bytes "error"
    · subst error
      simp [setJoin, joinError.symm, listError.symm, leaveError.symm, Response.apply]
    · simp [join, list, leave, error, Response.apply]

theorem startsWithCommand_eq (data : Bytes) : startsWithCommand data = (bytes "command").isPrefixOf data := by
  have same : startsWithCommand data = true ↔ (bytes "command").isPrefixOf data = true := by
    rw [List.isPrefixOf_iff_prefix, List.prefix_iff_eq_take, startsWithCommand]
    split
    next short =>
      simp only [Bool.false_eq_true, false_iff]
      intro equal
      have size := congrArg List.length equal
      rw [List.length_take] at size
      omega
    next => rw [beq_iff_eq, eq_comm]
  exact Bool.eq_iff_iff.mpr same

theorem startsWithCommand_reply (reply : Reply) : startsWithCommand reply.bytes = true := by
  rw [startsWithCommand_eq, reply.starts]

/-- The bytes that a message leaves on the interface, none when it is no stream
or too large. -/
def unpacked (zlib : Zlib) (data : Bytes) : Bytes := (decompressZlib zlib data).data.take (decompressZlib zlib data).size

def handled (zlib : Zlib) (world : World) (data : Bytes) : Except Fault Unit × World :=
  if (bytes "command").isPrefixOf data then answered world data
  else (.ok (), { world with injected := world.injected ++ [unpacked zlib data] })

variable {zlib : Zlib} {allocates : Nat → Bool}

variable (allocates) in
theorem callbackLiteningToServer_run {data : Bytes} (room : allocates (decompressZlib zlib data).size = true)
    (world : World) : run (callbackLiteningToServer zlib allocates data) world = handled zlib world data := by
  rw [callbackLiteningToServer, startsWithCommand_eq, handled]
  split
  · exact handleResponse_run data world
  · simp only [sendPacket, room, if_true, run_modify, unpacked]

theorem decompressZlib_size (lawful : zlib.Lawful) {data packet : Bytes} (decoded : zlib.decompress data = some packet)
    (short : packet.length ≤ maxDecompressedSize) :
    unpacked zlib data = packet ∧ (decompressZlib zlib data).size = packet.length := by
  have restored := lawful.uncompressed data packet maxDecompressedSize decoded short
  simp [unpacked, decompressZlib, restored]

theorem decompressZlib_failed (lawful : zlib.Lawful) {data : Bytes}
    (larger : ∀ packet, zlib.decompress data = some packet → maxDecompressedSize < packet.length) :
    unpacked zlib data = [] ∧ (decompressZlib zlib data).size = 0 := by
  simp [unpacked, decompressZlib, lawful.overrun data maxDecompressedSize larger]

theorem sendPacket_congr {first second : Data} (same : first.data.take first.size = second.data.take second.size)
    (size : first.size = second.size) : sendPacket allocates first = sendPacket allocates second := by
  unfold sendPacket
  rw [same, size]

/-- What follows a stream in the same read is not looked at. -/
theorem decompressZlib_trailing (lawful : zlib.Lawful) {data packet : Bytes}
    (decoded : zlib.decompress data = some packet) (tail : Bytes) :
    unpacked zlib (data ++ tail) = unpacked zlib data ∧
      (decompressZlib zlib (data ++ tail)).size = (decompressZlib zlib data).size := by
  have longer := lawful.trailing data packet tail decoded
  by_cases short : packet.length ≤ maxDecompressedSize
  · obtain ⟨packed, size⟩ := decompressZlib_size lawful decoded short
    obtain ⟨packed', size'⟩ := decompressZlib_size lawful longer short
    exact ⟨packed'.trans packed.symm, size'.trans size.symm⟩
  · have large : ∀ data, zlib.decompress data = some packet →
        ∀ other, zlib.decompress data = some other → maxDecompressedSize < other.length := by
      intro data decoded other same
      cases decoded.symm.trans same
      exact Nat.lt_of_not_le short
    obtain ⟨packed, size⟩ := decompressZlib_failed lawful (large data decoded)
    obtain ⟨packed', size'⟩ := decompressZlib_failed lawful (large (data ++ tail) longer)
    exact ⟨packed'.trans packed.symm, size'.trans size.symm⟩

end VirtualLan.Peer
