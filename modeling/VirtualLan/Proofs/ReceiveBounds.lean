import VirtualLan.Library.Splitting
import VirtualLan.StoredZlib
import VirtualLan.Proofs.Responses

/-! Where the receive path of a client reads and writes. The terminator is stored
behind the received bytes, and a reply's tokens are read by their positions; the
number of tokens is decided by the spaces among the bytes. -/

namespace VirtualLan.Peer
open Program

variable {tokens : List Bytes}

/-- `tokens.size() - 1` on unsigned words. -/
def sizeMinusOne (tokens : List Bytes) : Nat := (tokens.length + 18446744073709551615) % 18446744073709551616

/-- The loop of `updateLobbyList` from `i` on, with every `tokens[i]` checked. -/
def pushMembers (tokens : List Bytes) (bound i : Nat) (memberList : List Client) : Except Fault (List Client) :=
  if i < bound then do
    let ip ← token tokens i
    pushMembers tokens bound (i + 1) (memberList ++ [⟨ip⟩])
  else return memberList
termination_by bound - i

theorem pushMembers_ok {bound : Nat} (inside : bound ≤ tokens.length) (i : Nat) (memberList : List Client) :
    pushMembers tokens bound i memberList = .ok (memberList ++ ((tokens.take bound).drop i).map Client.mk) := by
  induction i, memberList using pushMembers.induct bound with
  | case1 i memberList more ih =>
    have within : i < tokens.length := Nat.lt_of_lt_of_le more inside
    have present : tokens[i]? = some tokens[i] := List.getElem?_eq_getElem within
    have next : (tokens.take bound).drop i = tokens[i] :: (tokens.take bound).drop (i + 1) := by
      rw [List.drop_eq_getElem_cons (by rw [List.length_take]; omega), List.getElem_take]
    rw [pushMembers, if_pos more, token, present, next]
    simp only [bind, Except.bind, ih, List.map_cons, List.append_assoc, List.singleton_append]
  | case2 i memberList last =>
    have empty : (tokens.take bound).drop i = [] := by
      rw [List.drop_eq_nil_iff, List.length_take]
      omega
    rw [pushMembers, if_neg last, empty, List.map_nil, List.append_nil]
    rfl

/-- The words whose branches read a third token. -/
def statusWords : List Bytes := [bytes "join", bytes "list", bytes "leave"]

theorem verbOf?_isSome_iff {word : Bytes} : (verbOf? word).isSome = true ↔ word ∈ statusWords := by
  simp only [statusWords, List.mem_cons, List.not_mem_nil, or_false]
  unfold verbOf?
  repeat' split
  all_goals simp_all

theorem response_error_iff : response tokens = .error .outOfBounds ↔
    ¬ ∃ word, tokens[1]? = some word ∧ (word ∈ statusWords → 2 < tokens.length) := by
  unfold response
  cases second : tokens[1]? with
  | none => simp
  | some word =>
    simp only [Option.some.injEq, exists_eq_left', ← verbOf?_isSome_iff]
    cases verbOf? word with
    | none => simp
    | some verb =>
      cases third : tokens[2]? with
      | none => simpa using List.getElem?_eq_none_iff.mp third
      | some status => simpa using (List.getElem?_eq_some_iff.mp third).1

/-- A command has a second token, and behind each of the three words a third. -/
def Complete (buffer : Bytes) : Prop :=
  (bytes "command").isPrefixOf buffer = true → 1 ≤ buffer.count 0x20 ∧
    ∀ word ∈ statusWords, (buffer.splitOn 0x20)[1]? = some word → 2 ≤ buffer.count 0x20

theorem response_complete_iff {buffer : Bytes} :
    (response (buffer.splitOn 0x20) ≠ .error .outOfBounds) ↔ 1 ≤ buffer.count 0x20 ∧
      ∀ word ∈ statusWords, (buffer.splitOn 0x20)[1]? = some word → 2 ≤ buffer.count 0x20 := by
  have size := Splitting.length_splitOn 0x20 buffer
  rw [ne_eq, response_error_iff, not_not]
  constructor
  · rintro ⟨word, second, third⟩
    have two := (List.getElem?_eq_some_iff.mp second).1
    refine ⟨by omega, ?_⟩
    intro other listed same
    obtain rfl : word = other := Option.some.inj (second.symm.trans same)
    have three := third listed
    omega
  · rintro ⟨one, third⟩
    have two : 1 < (buffer.splitOn 0x20).length := by omega
    refine ⟨(buffer.splitOn 0x20)[1], List.getElem?_eq_getElem two, ?_⟩
    intro listed
    have three := third _ listed (List.getElem?_eq_getElem two)
    omega

/-- Every access of this turn exists: the byte behind the received ones, and each
token that is read, also in the loop over a list. -/
structure Inside (zlib : Zlib) (allocates : Nat → Bool) (world : World) (buffer : Bytes) : Prop where
  turn : (run (listeningTurn zlib allocates (.data buffer)) world).1 ≠ .error .outOfBounds
  loop : startsWithCommand buffer = true →
    pushMembers (tokenize buffer) (sizeMinusOne (tokenize buffer)) 3 [] ≠ .error .outOfBounds

variable {zlib : Zlib} {allocates : Nat → Bool} {world : World} {buffer : Bytes}

theorem pushMembers_inside (short : buffer.length < bufferSize) :
    pushMembers (tokenize buffer) (sizeMinusOne (tokenize buffer)) 3 [] = .ok (members (tokenize buffer)) := by
  have size := Splitting.length_splitOn 0x20 buffer
  have few := @List.count_le_length _ _ 0x20 buffer
  rw [← tokenize_eq_splitOn] at size
  rw [bufferSize] at short
  have bound : sizeMinusOne (tokenize buffer) = (tokenize buffer).length - 1 := by
    rw [sizeMinusOne]
    omega
  rw [bound, pushMembers_ok (Nat.sub_le _ _), List.nil_append, members]

theorem listeningTurn_fits (short : buffer.length < bufferSize) :
    (run (listeningTurn zlib allocates (.data buffer)) world).1 ≠ .error .outOfBounds ↔ Complete buffer := by
  rw [listeningTurn, if_pos short, callbackLiteningToServer, startsWithCommand_eq, Complete]
  split
  next starts =>
    simp only [starts, true_imp_iff, handleResponse_run, answered, ← response_complete_iff]
    cases outcome : response (buffer.splitOn 0x20) with
    | ok response => simp
    | error fault => simp
  next payload =>
    simp only [payload, Bool.false_eq_true, false_imp_iff, iff_true]
    unfold sendPacket
    split <;> simp

/-- The receive path stays inside exactly when the read leaves a byte free and a
command has the tokens that it is asked for. -/
theorem listeningTurn_inside_iff (zlib : Zlib) (allocates : Nat → Bool) (world : World) (buffer : Bytes) :
    Inside zlib allocates world buffer ↔ buffer.length ≤ 1499 ∧ Complete buffer := by
  constructor
  · rintro ⟨turn, _⟩
    by_cases short : buffer.length < bufferSize
    · exact ⟨Nat.le_of_lt_succ short, (listeningTurn_fits short).mp turn⟩
    · rw [listeningTurn, if_neg short] at turn
      exact absurd rfl turn
  · rintro ⟨short, complete⟩
    have fits : buffer.length < bufferSize := Nat.lt_succ_of_le short
    refine ⟨(listeningTurn_fits fits).mpr complete, ?_⟩
    intro starts outside
    rw [pushMembers_inside fits] at outside
    cases outside

def listener : World := ⟨⟨true⟩, ⟨[], bytes "100.0.0.1", true⟩, [], []⟩

/-- A read that fills the buffer, and two replies that a cut leaves too short. -/
theorem full_read_not_inside :
    ¬ Inside StoredZlib.zlib (fun _ => true) listener (List.replicate 1500 0x78) ∧
    ¬ Inside StoredZlib.zlib (fun _ => true) listener (bytes "command") ∧
    ¬ Inside StoredZlib.zlib (fun _ => true) listener (bytes "command join") := by
  refine ⟨?_, ?_, ?_⟩
  · intro inside
    have full : ¬ (List.replicate 1500 (0x78 : UInt8)).length < bufferSize := by
      rw [List.length_replicate, bufferSize]
      omega
    have turn := inside.turn
    rw [listeningTurn, if_neg full] at turn
    exact turn rfl
  · intro inside
    have one := ((listeningTurn_fits (by decide)).mp inside.turn (by decide)).1
    revert one
    decide
  · intro inside
    have two := ((listeningTurn_fits (by decide)).mp inside.turn (by decide)).2 (bytes "join") (by decide) (by decide)
    revert two
    decide

end VirtualLan.Peer
