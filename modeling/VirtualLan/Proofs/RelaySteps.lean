import VirtualLan.Reaction

/-! What one step of the relay can do. Every result about runs of the relay is
read off these two case lists, so nothing later unfolds the handler's code. -/

namespace VirtualLan.Relay
open Program

/-- A connection is registered when some address is bound to its socket. -/
def Holds (lobbyList : Lobby) (socket : Socket) : Prop := ∃ ip, lobbyList.get? ip = some socket

theorem isClientJoin_iff {lobbyList : Lobby} {socket : Socket} :
    isClientJoin lobbyList socket = true ↔ Holds lobbyList socket := by
  simp only [isClientJoin, List.any_eq_true, beq_iff_eq, exists_eq_right, Dict.mem_values_iff_get?, Holds]

theorem isGranted_iff {lobbyList : Lobby} {socket : Socket} {ip : Str} :
    (lobbyList.contains ip && isClientJoin lobbyList socket) = true ↔ ip ∈ lobbyList.keys ∧ Holds lobbyList socket := by
  rw [Bool.and_eq_true, Dict.contains_iff, isClientJoin_iff]

theorem isClientJoin_eq_false_iff {lobbyList : Lobby} {socket : Socket} :
    isClientJoin lobbyList socket = false ↔ ¬ Holds lobbyList socket := by
  rw [← isClientJoin_iff, Bool.not_eq_true]

theorem verb?_eq_some_iff {word : Str} {verb : Verb} : verb? word = some verb ↔ word = verb.word := by
  constructor
  · unfold verb?
    repeat' split
    all_goals intro same; cases same
    all_goals assumption
  · rintro rfl
    cases verb <;> rfl

/-- The bytes read as a command with this second and this third word. -/
def Asks (data : Bytes) (verb : Verb) (ip : Str) : Prop :=
  (bytes "command").isPrefixOf data = true ∧
    ∃ command, decode data = .ok command ∧ (split command)[1]? = some verb.word ∧ (split command)[2]? = some ip

def Granted (lobbyList : Lobby) (socket : Socket) (ip : Str) : Verb → Prop
  | .join => ip ∉ lobbyList.keys
  | .list | .leave => ip ∈ lobbyList.keys ∧ Holds lobbyList socket

inductive Reacts (zlib : Zlib) (lobbyList : Lobby) (socket : Socket) (data : Bytes) : Reaction → Prop
  | closing (empty : data = []) : Reacts zlib lobbyList socket data .closing
  | crashed (exn : Exn) : Reacts zlib lobbyList socket data (.crashed exn)
  | ignored : Reacts zlib lobbyList socket data .ignored
  | joined {ip : Str} (asks : Asks data .join ip) (valid : isValidIpv4 ip = .ok true)
      (free : ip ∉ lobbyList.keys) : Reacts zlib lobbyList socket data (.joined ip)
  | listed {ip : Str} (asks : Asks data .list ip) (valid : isValidIpv4 ip = .ok true)
      (present : ip ∈ lobbyList.keys) (member : Holds lobbyList socket) :
      Reacts zlib lobbyList socket data (.listed ip)
  | left {ip : Str} (asks : Asks data .leave ip) (valid : isValidIpv4 ip = .ok true)
      (present : ip ∈ lobbyList.keys) (member : Holds lobbyList socket) : Reacts zlib lobbyList socket data (.left ip)
  | refused {verb : Verb} {ip : Str} (asks : Asks data verb ip)
      (denied : isValidIpv4 ip = .ok true → ¬ Granted lobbyList socket ip verb) :
      Reacts zlib lobbyList socket data (.refused verb)
  | forwarded {ip : Str} {target : Socket} {packet : Bytes} (member : Holds lobbyList socket)
      (payload : (bytes "command").isPrefixOf data = false) (decoded : zlib.decompress data = some packet)
      (addressed : getDestinationIp packet = .ok (some ip)) (bound : lobbyList.get? ip = some target) :
      Reacts zlib lobbyList socket data (.forwarded ip target)
  | dropped (member : Holds lobbyList socket) (payload : (bytes "command").isPrefixOf data = false) :
      Reacts zlib lobbyList socket data .dropped
  | rejected (outsider : ¬ Holds lobbyList socket) (payload : (bytes "command").isPrefixOf data = false) :
      Reacts zlib lobbyList socket data .rejected

variable {zlib : Zlib} {lobbyList : Lobby} {socket : Socket} {data : Bytes}

theorem reactNamed_reacts {verb : Verb} {ip : Str} (asks : Asks data verb ip) :
    Reacts zlib lobbyList socket data (reactNamed lobbyList socket verb ip) := by
  unfold reactNamed
  split
  next exn _ => exact .crashed exn
  next invalid => exact .refused asks (by rw [invalid]; intro same; cases same)
  next valid =>
    cases verb with
    | join =>
      simp only
      split
      next present => exact .refused asks (fun _ granted => granted (Dict.contains_iff.mp present))
      next absent => exact .joined asks valid (fun present => absent (Dict.contains_iff.mpr present))
    | list =>
      simp only
      split
      next granted =>
        rw [isGranted_iff] at granted
        exact .listed asks valid granted.1 granted.2
      next denied =>
        rw [isGranted_iff] at denied
        exact .refused asks (fun _ => denied)
    | leave =>
      simp only
      split
      next granted =>
        rw [isGranted_iff] at granted
        exact .left asks valid granted.1 granted.2
      next denied =>
        rw [isGranted_iff] at denied
        exact .refused asks (fun _ => denied)

theorem reactPacket_reacts (member : Holds lobbyList socket)
    (payload : (bytes "command").isPrefixOf data = false) :
    Reacts zlib lobbyList socket data (reactPacket zlib lobbyList data) := by
  unfold reactPacket
  split
  next => exact .crashed .zlibError
  next packet decoded =>
    split
    next exn _ => exact .crashed exn
    next => exact .dropped member payload
    next ip addressed =>
      split
      next => exact .dropped member payload
      next target bound => exact .forwarded member payload decoded addressed bound

/-- The reaction to a message, with the tests that led to it. -/
theorem react_reacts (zlib : Zlib) (lobbyList : Lobby) (socket : Socket) (data : Bytes) :
    Reacts zlib lobbyList socket data (react zlib lobbyList socket data) := by
  unfold react
  split
  next empty => exact .closing (List.isEmpty_iff.mp empty)
  next =>
    split
    next starts =>
      split
      next exn _ => exact .crashed exn
      next command decoded =>
        unfold reactCommand
        split
        next => exact .crashed .indexError
        next word second =>
          split
          next => exact .ignored
          next verb named =>
            unfold reactVerb
            split
            next => exact .crashed .indexError
            next ip third =>
              rw [verb?_eq_some_iff] at named
              exact reactNamed_reacts ⟨starts, command, decoded, named ▸ second, third⟩
    next payload =>
      rw [Bool.not_eq_true] at payload
      split
      next member => exact reactPacket_reacts (isClientJoin_iff.mp member) payload
      next outsider => exact .rejected (isClientJoin_eq_false_iff.mp (Bool.eq_false_iff.mpr outsider)) payload

theorem react_command (starts : (bytes "command").isPrefixOf data = true) : react zlib lobbyList socket data =
    match decode data with
    | .error exn => .crashed exn
    | .ok command => reactCommand lobbyList socket (split command) := by
  have nonempty : data.isEmpty = false := by
    cases data with
    | nil => cases starts
    | cons _ _ => rfl
  cases decoded : decode data <;> simp [react, nonempty, starts, decoded]

theorem react_named {verb : Verb} {ip : Str} (asks : Asks data verb ip) :
    react zlib lobbyList socket data = reactNamed lobbyList socket verb ip := by
  obtain ⟨starts, command, decoded, second, third⟩ := asks
  have named : verb? verb.word = some verb := verb?_eq_some_iff.mpr rfl
  simp only [react_command starts, decoded, reactCommand, second, named, reactVerb, third]

theorem react_granted {verb : Verb} {ip : Str} (asks : Asks data verb ip) (valid : isValidIpv4 ip = .ok true)
    (granted : Granted lobbyList socket ip verb) : react zlib lobbyList socket data = verb.success ip := by
  rw [react_named asks]
  simp only [reactNamed, valid]
  cases verb with
  | join => exact if_neg (fun present => granted (Dict.contains_iff.mp present))
  | list | leave =>
    exact if_pos (isGranted_iff.mpr granted)

theorem react_denied {verb : Verb} {ip : Str} (asks : Asks data verb ip) (valid : isValidIpv4 ip = .ok true)
    (denied : ¬ Granted lobbyList socket ip verb) : react zlib lobbyList socket data = .refused verb := by
  rw [react_named asks]
  simp only [reactNamed, valid]
  cases verb with
  | join => exact if_pos (Dict.contains_iff.mpr (not_not.mp denied))
  | list | leave =>
    exact if_neg (fun granted => denied (isGranted_iff.mp granted))

theorem react_forwarded {target : Socket} {packet : Bytes} {ip : Str} (message : data ≠ [])
    (member : Holds lobbyList socket) (payload : (bytes "command").isPrefixOf data = false)
    (decoded : zlib.decompress data = some packet) (addressed : getDestinationIp packet = .ok (some ip))
    (bound : lobbyList.get? ip = some target) : react zlib lobbyList socket data = .forwarded ip target := by
  have nonempty : data.isEmpty = false := by simpa using message
  simp only [react, nonempty, payload, Bool.false_eq_true, if_false, isClientJoin_iff.mpr member, if_true,
    reactPacket, decoded, addressed, bound]

variable (zlib lobbyList socket) in
/-- A command is granted, refused or fatal. -/
theorem react_asked {verb : Verb} {ip : Str} (asks : Asks data verb ip) :
    (∃ exn, react zlib lobbyList socket data = .crashed exn) ∨
    (isValidIpv4 ip = .ok true ∧ Granted lobbyList socket ip verb ∧
      react zlib lobbyList socket data = verb.success ip) ∨
    (¬ (isValidIpv4 ip = .ok true ∧ Granted lobbyList socket ip verb) ∧
      react zlib lobbyList socket data = .refused verb) := by
  cases valid : isValidIpv4 ip with
  | error exn => exact Or.inl ⟨exn, by simp only [react_named asks, reactNamed, valid]⟩
  | ok accepted =>
    cases accepted with
    | false => exact Or.inr (Or.inr ⟨by simp, by simp only [react_named asks, reactNamed, valid]⟩)
    | true =>
      by_cases granted : Granted lobbyList socket ip verb
      · exact Or.inr (Or.inl ⟨rfl, granted, react_granted asks valid granted⟩)
      · exact Or.inr (Or.inr ⟨fun both => granted both.2, react_denied asks valid granted⟩)

theorem Asks.unique {verb other : Verb} {ip key : Str} (first : Asks data verb ip) (second : Asks data other key) :
    verb = other ∧ ip = key := by
  obtain ⟨_, command, decoded, word, third⟩ := first
  obtain ⟨_, again, same, otherWord, otherThird⟩ := second
  rw [decoded] at same
  cases same
  rw [word, Option.some.injEq] at otherWord
  rw [third, Option.some.injEq] at otherThird
  have named : verb? verb.word = some other := verb?_eq_some_iff.mpr otherWord
  rw [verb?_eq_some_iff.mpr rfl] at named
  exact ⟨Option.some.inj named, otherThird⟩

theorem findDelkey_some {items : List (Str × Socket)} {key : Str} (found : findDelkey items socket = some key) :
    (key, socket) ∈ items := by
  induction items with
  | nil => cases found
  | cons item items ih =>
    obtain ⟨name, value⟩ := item
    unfold findDelkey at found
    split at found
    next same =>
      cases found
      rw [beq_iff_eq.mp same]
      exact List.mem_cons_self
    next => exact List.mem_cons_of_mem _ (ih found)

theorem findDelkey_none {items : List (Str × Socket)} (missed : findDelkey items socket = none) (key : Str) :
    (key, socket) ∉ items := by
  induction items with
  | nil => simp
  | cons item items ih =>
    obtain ⟨name, value⟩ := item
    unfold findDelkey at missed
    split at missed
    next => cases missed
    next other =>
      rw [List.mem_cons, not_or]
      refine ⟨?_, ih missed⟩
      rintro same
      cases same
      exact other (beq_self_eq_true _)

theorem findDelkey_eq_none_iff {lobbyList : Lobby} :
    findDelkey lobbyList.items socket = none ↔ ¬ Holds lobbyList socket := by
  constructor
  · rintro missed ⟨ip, bound⟩
    exact findDelkey_none missed ip (Dict.get?_eq_some_iff.mp bound)
  · intro outsider
    cases found : findDelkey lobbyList.items socket with
    | none => rfl
    | some key => exact absurd ⟨key, Dict.get?_eq_some_iff.mpr (findDelkey_some found)⟩ outsider

theorem handleClientFinally_bound {key : Str} {world : World}
    (found : findDelkey world.lobbyList.items socket = some key) : run (handleClientFinally socket) world =
      (.ok (), { world with lobbyList := world.lobbyList.erase key, closed := socket :: world.closed }) := by
  have present : world.lobbyList.contains key = true :=
    Dict.contains_iff.mpr (Dict.mem_keys_iff.mpr ⟨socket, findDelkey_some found⟩)
  simp [handleClientFinally, found, run_deleteKey, present]

theorem handleClientFinally_unbound {world : World} (missed : findDelkey world.lobbyList.items socket = none) :
    run (handleClientFinally socket) world = (.error .unboundLocalError, world) := by
  simp [handleClientFinally, missed]

def Reaction.output (reaction : Reaction) (accepts : Socket → Bool) (socket : Socket) (data : Bytes)
    (state : State) : Output :=
  ⟨reaction.sent accepts socket data state.lobbyList state.closed,
    reaction.raised accepts socket data state.lobbyList state.closed⟩

theorem Reaction.sent_of_calm {reaction : Reaction} {accepts : Socket → Bool} {closed : List Socket}
    (calm : reaction.raised accepts socket data lobbyList closed = none) :
    reaction.sent accepts socket data lobbyList closed = (reaction.outgoing lobbyList socket data).toList := by
  unfold sent
  cases outgoing : reaction.outgoing lobbyList socket data with
  | none => rfl
  | some message =>
    have taken : takes accepts closed message = true := by
      cases reaction with
      | crashed exn => cases calm
      | _ => simpa [raised, outgoing] using calm
    simp [Option.filter, taken]

def phaseAfter : Option Exn → Bool → Phase
  | none, true => .running
  | _, _ => .ending

def Reaction.after (reaction : Reaction) (accepts : Socket → Bool) (socket : Socket) (data : Bytes)
    (state : State) : State :=
  ⟨reaction.lobby state.lobbyList socket, state.closed, Function.update state.phase socket
    (phaseAfter (reaction.output accepts socket data state).raised reaction.continues)⟩

/-- A handler that stays in its loop has sent all that its reaction asks for. -/
theorem sent_of_running {before : State} {reaction : Reaction} {accepts : Socket → Bool}
    (running : (reaction.after accepts socket data before).phase socket = .running) :
    (reaction.output accepts socket data before).sent = (reaction.outgoing before.lobbyList socket data).toList ∧
      ∀ exn, reaction ≠ .crashed exn := by
  have calm : reaction.raised accepts socket data before.lobbyList before.closed = none := by
    simp only [Reaction.after, Reaction.output, Function.update_self] at running
    cases raised : reaction.raised accepts socket data before.lobbyList before.closed with
    | none => rfl
    | some exn =>
      rw [raised] at running
      cases running
  have healthy : ∀ exn, reaction ≠ .crashed exn := by
    rintro exn rfl
    cases calm
  exact ⟨Reaction.sent_of_calm calm, healthy⟩

inductive Steps (zlib : Zlib) (state : State) : Event → State → Output → Prop
  | accept {socket : Socket} (absent : state.phase socket = .absent) :
      Steps zlib state (.accept socket) (state.moved socket .running state.world) {}
  | receive {socket : Socket} {data : Bytes} {accepts : Socket → Bool} {reaction : Reaction}
      (running : state.phase socket = .running) (short : data.length ≤ 1500)
      (same : react zlib state.lobbyList socket data = reaction)
      (reacts : Reacts zlib state.lobbyList socket data reaction) :
      Steps zlib state (.receive socket data accepts) (reaction.after accepts socket data state)
        (reaction.output accepts socket data state)
  | fail {socket : Socket} (running : state.phase socket = .running) :
      Steps zlib state (.fail socket) (state.moved socket .ending state.world) {}
  | finish {socket : Socket} {key : Str} (ending : state.phase socket = .ending)
      (found : findDelkey state.lobbyList.items socket = some key) :
      Steps zlib state (.finish socket)
        (state.moved socket .ended ⟨state.lobbyList.erase key, socket :: state.closed, []⟩) {}
  | abandon {socket : Socket} (ending : state.phase socket = .ending) (outsider : ¬ Holds state.lobbyList socket) :
      Steps zlib state (.finish socket) (state.moved socket .ended state.world)
        ⟨[], some .unboundLocalError⟩

theorem step_receive (zlib : Zlib) (state : State) (socket : Socket) (data : Bytes) (accepts : Socket → Bool) :
    step zlib state (.receive socket data accepts) =
      if state.phase socket = .running ∧ data.length ≤ 1500 then
        some ((react zlib state.lobbyList socket data).after accepts socket data state,
          (react zlib state.lobbyList socket data).output accepts socket data state)
      else none := by
  have turn := handleClientTurn_run accepts socket data state.world zlib
  simp only [Reaction.perform, State.world, List.nil_append] at turn
  simp only [step, State.world, turn, Reaction.after, Reaction.output]
  cases (react zlib state.lobbyList socket data).raised accepts socket data state.lobbyList state.closed with
  | none =>
    cases (react zlib state.lobbyList socket data).continues <;>
      simp [State.moved, nextPhase, raisedBy, phaseAfter]
  | some exn => simp [State.moved, nextPhase, raisedBy, phaseAfter]

/-- An answer that its connection takes leaves the handler in its loop. -/
theorem step_answered {state : State} {reaction : Reaction} {reply : Bytes} (running : state.phase socket = .running)
    (opened : socket ∉ state.closed) (short : data.length ≤ 1500)
    (same : react zlib state.lobbyList socket data = reaction)
    (outgoing : reaction.outgoing state.lobbyList socket data = some (socket, reply)) :
    step zlib state (.receive socket data everyone) =
      some ({ state with lobbyList := reaction.lobby state.lobbyList socket }, ⟨[(socket, reply)], none⟩) := by
  have taken : takes everyone state.closed (socket, reply) = true := by simp [takes, everyone, opened]
  have calm : reaction.raised everyone socket data state.lobbyList state.closed = none := by
    cases reaction <;> simp [Reaction.raised, outgoing, taken]
    cases outgoing
  have stays : reaction.continues = true := by
    cases reaction <;> first | rfl | cases outgoing
  have kept : Function.update state.phase socket .running = state.phase := by
    rw [← running, Function.update_eq_self]
  rw [step_receive, if_pos ⟨running, short⟩, same, Reaction.after, Reaction.output, calm, stays,
    Reaction.sent_of_calm calm, outgoing]
  simp only [phaseAfter, kept, Option.toList_some]

/-- The step function does nothing else. -/
theorem steps_of_step {zlib : Zlib} {state after : State} {event : Event} {output : Output}
    (stepped : step zlib state event = some (after, output)) : Steps zlib state event after output := by
  cases event with
  | accept socket =>
    simp only [step, Option.ite_none_right_eq_some] at stepped
    obtain ⟨absent, same⟩ := stepped
    cases same
    exact .accept absent
  | receive socket data accepts =>
    rw [step_receive, Option.ite_none_right_eq_some] at stepped
    obtain ⟨⟨running, short⟩, same⟩ := stepped
    cases same
    exact .receive running short rfl (react_reacts zlib state.lobbyList socket data)
  | fail socket =>
    simp only [step, Option.ite_none_right_eq_some] at stepped
    obtain ⟨running, same⟩ := stepped
    cases same
    exact .fail running
  | finish socket =>
    simp only [step, Option.ite_none_right_eq_some] at stepped
    obtain ⟨ending, same⟩ := stepped
    cases found : findDelkey state.lobbyList.items socket with
    | none =>
      rw [handleClientFinally_unbound found] at same
      cases same
      exact .abandon ending (findDelkey_eq_none_iff.mp found)
    | some key =>
      rw [handleClientFinally_bound found] at same
      cases same
      exact .finish ending found

theorem legal_steps {zlib : Zlib} {moment : Moment State Event Output} (legal : (system zlib).Legal moment) :
    Steps zlib moment.before moment.event moment.after moment.output := steps_of_step legal

end VirtualLan.Relay
