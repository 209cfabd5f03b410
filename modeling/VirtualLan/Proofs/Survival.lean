import VirtualLan.Proofs.AddressTest

/-! Which messages end the handler that they are meant for. Every partial step on
the way of a message raises through the whole loop, and the cleanup then takes
the connection's entry away. -/

namespace VirtualLan.Relay

variable {zlib : Zlib} {lobbyList : Lobby} {socket : Socket} {data : Bytes}

/-- The test of this text meets digits that `int` cannot read. -/
def Trips (ip : Str) : Prop := ∃ parts, Shaped ip parts ∧ Meets Unreadable parts

theorem isValidIpv4_error_iff {ip : Str} : (∃ exn, isValidIpv4 ip = .error exn) ↔ Trips ip := by
  constructor
  · rintro ⟨exn, raised⟩
    by_cases known : ∃ parts, Shaped ip parts
    · obtain ⟨parts, shaped⟩ := known
      rw [isValidIpv4_shaped shaped] at raised
      exact ⟨parts, shaped, isValidParts_error_iff.mp ⟨exn, raised⟩⟩
    · have answered := isValidIpv4_unshaped fun parts shaped => known ⟨parts, shaped⟩
      cases answered.symm.trans raised
  · rintro ⟨parts, shaped, meets⟩
    rw [isValidIpv4_shaped shaped]
    exact isValidParts_error_iff.mpr meets

/-- A command that the code can take apart: it has a second word, and behind each
of the three known ones a third word that the address test can read. -/
def Worded (parsed : List Str) : Prop :=
  ∃ word, parsed[1]? = some word ∧ ∀ verb : Verb, word = verb.word → ∃ ip, parsed[2]? = some ip ∧ ¬ Trips ip

def Readable (data : Bytes) : Prop := ∃ command, decode data = .ok command ∧ Worded (split command)

/-- A stream whose packet has a whole IPv4 header. -/
def Carries (zlib : Zlib) (data : Bytes) : Prop :=
  ∃ packet, zlib.decompress data = some packet ∧ 20 ≤ packet.length

/-- What a message must be in order to be handled to the end. -/
def Digestible (zlib : Zlib) (lobbyList : Lobby) (socket : Socket) (data : Bytes) : Prop :=
  if (bytes "command").isPrefixOf data then Readable data else Holds lobbyList socket → Carries zlib data

theorem reactNamed_crashed_iff {verb : Verb} {ip : Str} :
    (∃ exn, reactNamed lobbyList socket verb ip = .crashed exn) ↔ Trips ip := by
  rw [← isValidIpv4_error_iff]
  unfold reactNamed
  split
  next exn raised => exact iff_of_true ⟨exn, rfl⟩ ⟨exn, raised⟩
  next refused =>
    rw [refused]
    exact iff_of_false (by simp) (by simp)
  next valid =>
    rw [valid]
    refine iff_of_false ?_ (by simp)
    rintro ⟨exn, crashed⟩
    cases verb <;> simp only at crashed <;> split at crashed <;> cases crashed

theorem reactCommand_crashed_iff {parsed : List Str} :
    (∃ exn, reactCommand lobbyList socket parsed = .crashed exn) ↔ ¬ Worded parsed := by
  unfold reactCommand Worded
  cases second : parsed[1]? with
  | none => simp
  | some word =>
    simp only [Option.some.injEq, exists_eq_left']
    cases named : verb? word with
    | none =>
      refine iff_of_false (by simp) (not_not.mpr ?_)
      intro verb same
      rw [verb?_eq_some_iff.mpr same] at named
      cases named
    | some verb =>
      have only : ∀ other : Verb, word = other.word ↔ verb = other := by
        intro other
        rw [← verb?_eq_some_iff, named, Option.some.injEq]
      simp only [only, forall_eq', reactVerb]
      cases third : parsed[2]? with
      | none => simp
      | some ip => simp only [reactNamed_crashed_iff, Option.some.injEq, exists_eq_left', not_not]

theorem reactPacket_crashed_iff :
    (∃ exn, reactPacket zlib lobbyList data = .crashed exn) ↔ ¬ Carries zlib data := by
  unfold reactPacket Carries
  cases decoded : zlib.decompress data with
  | none => simp
  | some packet =>
    simp only [Option.some.injEq, exists_eq_left', Nat.not_le, ← getDestinationIp_error_iff]
    cases getDestinationIp packet with
    | error exn => simp
    | ok destination =>
      refine iff_of_false ?_ (by simp)
      rintro ⟨exn, crashed⟩
      cases destination with
      | none => cases crashed
      | some ip =>
        simp only at crashed
        split at crashed <;> cases crashed

/-- The messages that raise are exactly those that cannot be handled to the end. -/
theorem react_crashed_iff (message : data ≠ []) :
    (∃ exn, react zlib lobbyList socket data = .crashed exn) ↔ ¬ Digestible zlib lobbyList socket data := by
  unfold Digestible
  split
  next starts =>
    rw [react_command starts, Readable]
    cases decoded : decode data with
    | error exn => simp
    | ok command => simp only [reactCommand_crashed_iff, Except.ok.injEq, exists_eq_left']
  next payload =>
    have nonempty : data.isEmpty = false := by simpa using message
    simp only [react, nonempty, payload, Bool.false_eq_true, if_false, ← isClientJoin_iff, Classical.not_imp]
    cases isClientJoin lobbyList socket with
    | true => simp [reactPacket_crashed_iff]
    | false => simp

/-- The step handles this non-empty message, and its peers take what it sends. -/
structure Hears (zlib : Zlib) (moment : Moment State Event Output) (socket : Socket) (data : Bytes)
    (accepts : Socket → Bool) : Prop where
  event : moment.event = .receive socket data accepts
  message : data ≠ []
  taken : ∀ sent, (react zlib moment.before.lobbyList socket data).outgoing moment.before.lobbyList socket data =
    some sent → takes accepts moment.before.closed sent = true

/-- No exception, the loop goes on, and an own entry is lost by an own leave only. -/
structure Survives (socket : Socket) (data : Bytes) (moment : Moment State Event Output) : Prop where
  calm : moment.output.raised = none
  running : moment.after.phase socket = .running
  kept : ∀ ip, moment.before.lobbyList.get? ip = some socket → moment.after.lobbyList.get? ip = some socket ∨
    (Asks data .leave ip ∧ (socket, bytes "command leave 1 ") ∈ moment.output.sent)

/-- The lobby changes under a key that was free, or under the key of a leave. -/
theorem Reacts.lobby_kept {reaction : Reaction} (reacts : Reacts zlib lobbyList socket data reaction) {ip : Str}
    {owner : Socket} (bound : lobbyList.get? ip = some owner) :
    (reaction.lobby lobbyList socket).get? ip = some owner ∨ (reaction = .left ip ∧ Asks data .leave ip) := by
  cases reacts with
  | @joined other asks valid free =>
    have apart : ip ≠ other := by
      rintro rfl
      exact free (Dict.contains_iff.mp (by rw [Dict.contains, bound]; rfl))
    left
    rw [Reaction.lobby, Dict.get?_set, if_neg apart]
    exact bound
  | @left other asks valid present member =>
    by_cases same : ip = other
    · subst same
      exact Or.inr ⟨rfl, asks⟩
    · left
      rw [Reaction.lobby, Dict.get?_erase, if_neg same]
      exact bound
  | _ => exact Or.inl bound

theorem Reaction.raised_calm {reaction : Reaction} {accepts : Socket → Bool} {closed : List Socket}
    (healthy : ∀ exn, reaction ≠ .crashed exn)
    (taken : ∀ sent, reaction.outgoing lobbyList socket data = some sent → takes accepts closed sent = true) :
    reaction.raised accepts socket data lobbyList closed = none := by
  cases outgoing : reaction.outgoing lobbyList socket data with
  | some sent => rw [raised_sending accepts socket data outgoing, if_pos (taken sent outgoing)]
  | none =>
    cases reaction with
    | crashed exn => exact absurd rfl (healthy exn)
    | _ => simp [raised, outgoing]

theorem Reacts.continues {reaction : Reaction} (reacts : Reacts zlib lobbyList socket data reaction)
    (message : data ≠ []) : reaction.continues = true := by
  cases reacts with
  | closing empty => exact absurd empty message
  | _ => rfl

variable {history : List (Moment State Event Output)} {state : State} {moment : Moment State Event Output}
  {accepts : Socket → Bool}

/-- In every run, a handler survives exactly the messages that can be handled to
the end. -/
theorem handleClient_survives_iff (run : (system zlib).Run history state) (member : moment ∈ history)
    (hears : Hears zlib moment socket data accepts) :
    Survives socket data moment ↔ Digestible zlib moment.before.lobbyList socket data := by
  have steps := legal_steps (run.recorded member).2
  obtain ⟨before, event, output, after⟩ := moment
  obtain ⟨event, message, taken⟩ := hears
  simp only at event taken steps
  subst event
  rw [← not_iff_not, ← react_crashed_iff message]
  cases steps with
  | receive running short same reacts =>
    rw [same] at taken ⊢
    constructor
    · intro unwell
      by_contra none
      have healthy : ∀ exn, _ ≠ Reaction.crashed exn := fun exn crashed => none ⟨exn, crashed⟩
      have calm := Reaction.raised_calm healthy taken
      refine unwell ⟨calm, ?_, ?_⟩
      · simp only [Reaction.after, Reaction.output, calm, reacts.continues message]
        exact Function.update_self ..
      · intro ip bound
        rcases reacts.lobby_kept bound with kept | ⟨rfl, asks⟩
        · exact Or.inl kept
        · refine Or.inr ⟨asks, ?_⟩
          rw [Reaction.output, Reaction.sent_of_calm calm]
          exact List.mem_singleton.mpr rfl
    · rintro ⟨exn, rfl⟩ survives
      cases survives.calm

/-- A connection of the pair sends a message, and everyone takes what it causes. -/
def said (data : Bytes) : Moment State Event Output :=
  let before := ((system StoredZlib.zlib).play pair).2
  let reaction := react StoredZlib.zlib before.lobbyList 1 data
  ⟨before, .receive 1 data everyone, reaction.output everyone 1 data before, reaction.after everyone 1 data before⟩

theorem said_legal {data : Bytes} (short : data.length ≤ 1500) :
    (system StoredZlib.zlib).Legal (said data) := by
  have running : ((system StoredZlib.zlib).play pair).2.phase 1 = .running := by decide
  exact (step_receive ..).trans (if_pos ⟨running, short⟩)

theorem said_heard {data : Bytes} (message : data ≠ []) : Hears StoredZlib.zlib (said data) 1 data everyone where
  event := rfl
  message := message
  taken sent _ := by
    have opened : ((system StoredZlib.zlib).play pair).2.closed = [] := by decide
    simp [said, takes, everyone, opened]

/-- The first connection leaves the lobby, and its handler waits for more. -/
theorem handleClient_survives_iff_pair :
    Survives 1 (bytes "command leave 100.0.0.1") (said (bytes "command leave 100.0.0.1")) := by
  have run := (system StoredZlib.zlib).run_play pair
  have short : (bytes "command leave 100.0.0.1").length ≤ 1500 := by decide
  have message : bytes "command leave 100.0.0.1" ≠ [] := by decide
  refine (handleClient_survives_iff (.next _ run (said_legal short)) List.mem_cons_self (said_heard message)).mpr ?_
  have starts : (bytes "command").isPrefixOf (bytes "command leave 100.0.0.1") = true := by decide
  rw [Digestible, if_pos starts]
  have words : split "command leave 100.0.0.1".toList = ["command".toList, "leave".toList, "100.0.0.1".toList] := by
    decide
  refine ⟨_, decode_encode _, "leave".toList, by rw [words]; rfl, ?_⟩
  intro verb _
  refine ⟨"100.0.0.1".toList, by rw [words]; rfl, ?_⟩
  rw [← isValidIpv4_error_iff]
  rintro ⟨exn, raised⟩
  have valid : isValidIpv4 "100.0.0.1".toList = .ok true := by decide
  cases valid.symm.trans raised

/-- A bare `command` has no second word. -/
theorem bare_not_survived :
    (system StoredZlib.zlib).Run (said (bytes "command") :: ((system StoredZlib.zlib).play pair).1)
      (said (bytes "command")).after ∧
    Hears StoredZlib.zlib (said (bytes "command")) 1 (bytes "command") everyone ∧
    (said (bytes "command")).output.raised = some .indexError ∧
    ¬ Survives 1 (bytes "command") (said (bytes "command")) := by
  have run := (system StoredZlib.zlib).run_play pair
  have raised : (said (bytes "command")).output.raised = some .indexError := by decide
  refine ⟨.next _ run (said_legal (by decide)), said_heard (by decide), raised, ?_⟩
  intro survives
  cases raised.symm.trans survives.calm

end VirtualLan.Relay
