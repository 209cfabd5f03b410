import VirtualLan.Proofs.RelaySteps
import VirtualLan.Threads

/-! Handlers that take their turns one after the other. A thread that is not
disturbed between two waits does what the relay's step says, so every run of the
relay is a run of the threads. -/

namespace VirtualLan.Threads
open Relay (Socket Verb Reaction Phase findDelkey everyone)

section Alone
variable (accepts : Socket → Bool) (zlib : Zlib) (socket : Socket)

/-- Some steps of one thread, of which the last but one show nothing. -/
inductive Leads : Effect → Effect → Prop
  | refl (effect : Effect) : Leads effect effect
  | step {shared : Shared} {point : Point} {next last : Effect}
      (performed : perform accepts zlib socket shared point = some next) (rest : Leads next last) :
      Leads (goto shared point) last

end Alone

variable {accepts : Socket → Bool} {zlib : Zlib} {socket : Socket}

theorem Leads.trans {first middle last : Effect} (before : Leads accepts zlib socket first middle)
    (after : Leads accepts zlib socket middle last) : Leads accepts zlib socket first last := by
  induction before with
  | refl => exact after
  | step performed _ ih => exact .step performed (ih after)

theorem Leads.single {shared : Shared} {point : Point} {next : Effect}
    (performed : perform accepts zlib socket shared point = some next) :
    Leads accepts zlib socket (goto shared point) next :=
  .step performed (.refl next)

/-- The scans that look for an entry of the thread's own connection. -/
def Purpose.Searches : Purpose → Prop
  | .names _ => False
  | .packet _ | .listing | .leaving _ | .cleanup => True

theorem visit_other {purpose : Purpose} (searches : purpose.Searches) {shared : Shared} {key : Str} {value : Socket}
    {cursor : Cursor} (other : (value == socket) = false) :
    visit zlib socket shared key value cursor purpose = goto shared (.scanning purpose cursor) := by
  cases purpose with
  | names text => exact searches.elim
  | packet | listing | leaving | cleanup => simp [visit, other]

theorem visit_own {purpose : Purpose} (searches : purpose.Searches) {shared : Shared} {key : Str} {value : Socket}
    (cursor cursor' : Cursor) (own : (value == socket) = true) :
    visit zlib socket shared key value cursor purpose = visit zlib socket shared key socket cursor' purpose := by
  cases purpose with
  | names text => exact searches.elim
  | packet | listing | leaving | cleanup => simp [visit, own]

/-- What a search comes to when nobody changes the lobby. -/
def searched (zlib : Zlib) (socket : Socket) (shared : Shared) (purpose : Purpose) (items : List (Str × Socket)) :
    Effect :=
  match findDelkey items socket with
  | none => finish socket shared purpose
  | some key => visit zlib socket shared key socket shared.lobbyList.start purpose

theorem scanning_searched {purpose : Purpose} (searches : purpose.Searches) {shared : Shared} {position : Nat}
    {items : List (Str × Socket)} (before : shared.lobbyList.remaining position = items) :
    Leads accepts zlib socket (goto shared (.scanning purpose ⟨shared.lobbyList.size, position⟩))
      (searched zlib socket shared purpose items) := by
  induction items generalizing position with
  | nil =>
    refine .single ?_
    simp only [perform, Table.advance_finished before]
    rfl
  | cons entry items ih =>
    obtain ⟨key, value⟩ := entry
    obtain ⟨next, advanced, later⟩ := Table.advance_remaining before
    have performed : perform accepts zlib socket shared (.scanning purpose ⟨shared.lobbyList.size, position⟩) =
        some (visit zlib socket shared key value ⟨shared.lobbyList.size, next⟩ purpose) := by
      simp only [perform, advanced]
    cases same : value == socket with
    | true =>
      refine .single ?_
      rw [performed, visit_own searches _ shared.lobbyList.start same, searched, findDelkey, if_pos same]
    | false =>
      rw [visit_other searches same] at performed
      refine .step performed ?_
      have skipped : findDelkey ((key, value) :: items) socket = findDelkey items socket := by
        rw [findDelkey, if_neg (by rw [same]; exact Bool.false_ne_true)]
      rw [searched, skipped]
      exact ih later

theorem opening_searched {purpose : Purpose} (searches : purpose.Searches) (shared : Shared) :
    Leads accepts zlib socket (goto shared (.opening purpose))
      (searched zlib socket shared purpose shared.lobbyList.dict.items) :=
  .step rfl (scanning_searched searches shared.lobbyList.remaining_zero)

theorem scanning_names {shared : Shared} {position : Nat} {items : List (Str × Socket)} (text : Str)
    (before : shared.lobbyList.remaining position = items) :
    Leads accepts zlib socket (goto shared (.scanning (.names text) ⟨shared.lobbyList.size, position⟩))
      (sends shared socket (encode (text ++ (items.map Prod.fst).flatMap (· ++ " ".toList)))) := by
  induction items generalizing position text with
  | nil =>
    refine .single ?_
    simp only [perform, Table.advance_finished before, finish]
    simp
  | cons entry items ih =>
    obtain ⟨key, value⟩ := entry
    obtain ⟨next, advanced, later⟩ := Table.advance_remaining before
    have performed : perform accepts zlib socket shared (.scanning (.names text) ⟨shared.lobbyList.size, position⟩) =
        some (goto shared (.scanning (.names (text ++ (key ++ " ".toList))) ⟨shared.lobbyList.size, next⟩)) := by
      simp only [perform, advanced, visit]
    refine .step performed ?_
    have longer : text ++ (((key, value) :: items).map Prod.fst).flatMap (· ++ " ".toList) =
        text ++ (key ++ " ".toList) ++ (items.map Prod.fst).flatMap (· ++ " ".toList) := by
      rw [List.map_cons, List.flatMap_cons, ← List.append_assoc text]
    rw [longer]
    exact ih (text ++ (key ++ " ".toList)) later

/-- Where a thread waits in each phase of its connection. -/
def resting : Phase → Point
  | .absent => .absent
  | .running => .receiving
  | .ending => .opening .cleanup
  | .ended => .ended

section Turns
variable (accepts : Socket → Bool) (zlib : Zlib) (socket : Socket) (data : Bytes) (shared : Shared)

/-- A reaction as the end of a thread's turn, with the table that it leaves. -/
def turned (reaction : Reaction) (table : Table Str Socket) : Effect :=
  let output := reaction.output accepts socket data ⟨shared.lobbyList.dict, shared.closed, fun _ => .absent⟩
  ⟨⟨table, shared.closed⟩, resting (Relay.phaseAfter output.raised reaction.continues),
    ⟨output.sent, output.raised.map .exn⟩⟩

/-- Alone, the thread comes from this effect to the end of the reaction. -/
def Turns (effect : Effect) (reaction : Reaction) : Prop :=
  ∃ table : Table Str Socket, table.dict = reaction.lobby shared.lobbyList.dict socket ∧
    Leads accepts zlib socket effect (turned accepts socket data shared reaction table)

end Turns

variable {data : Bytes} {shared : Shared}

theorem transmits_turned {reaction : Reaction} {target : Socket} {reply : Bytes}
    (sending : reaction.outgoing shared.lobbyList.dict socket data = some (target, reply)) (table : Table Str Socket) :
    transmits accepts ⟨table, shared.closed⟩ target reply = turned accepts socket data shared reaction table := by
  have stays : reaction.continues = true := by
    cases reaction <;> first | rfl | cases sending
  simp only [transmits, turned, Relay.Reaction.output, Relay.Reaction.sent, sending, stays,
    Relay.Reaction.raised_sending accepts socket data sending]
  cases taken : Relay.takes accepts shared.closed (target, reply) <;>
    simp [Option.filter, taken, throws, Relay.phaseAfter, resting]

/-- A `send` is the last operation of a turn. -/
theorem turns_transmits {reaction : Reaction} {target : Socket} {reply : Bytes} {table : Table Str Socket} {point : Point}
    (sending : reaction.outgoing shared.lobbyList.dict socket data = some (target, reply))
    (lobby : table.dict = reaction.lobby shared.lobbyList.dict socket)
    (performed : perform accepts zlib socket ⟨table, shared.closed⟩ point =
      some (transmits accepts ⟨table, shared.closed⟩ target reply)) :
    Turns accepts zlib socket data shared (goto ⟨table, shared.closed⟩ point) reaction :=
  ⟨table, lobby, by rw [← transmits_turned sending]; exact .single performed⟩

theorem turns_sends {reaction : Reaction} {target : Socket} {reply : Bytes} {table : Table Str Socket}
    (sending : reaction.outgoing shared.lobbyList.dict socket data = some (target, reply))
    (lobby : table.dict = reaction.lobby shared.lobbyList.dict socket) :
    Turns accepts zlib socket data shared (sends ⟨table, shared.closed⟩ target reply) reaction :=
  turns_transmits sending lobby rfl

theorem turns_throws (exn : Exn) :
    Turns accepts zlib socket data shared (throws shared (.exn exn)) (.crashed exn) :=
  ⟨shared.lobbyList, rfl, .refl _⟩

theorem Turns.after {first effect : Effect} {reaction : Reaction} (leads : Leads accepts zlib socket first effect)
    (turns : Turns accepts zlib socket data shared effect reaction) :
    Turns accepts zlib socket data shared first reaction := by
  obtain ⟨table, lobby, rest⟩ := turns
  exact ⟨table, lobby, leads.trans rest⟩

theorem searched_member {purpose : Purpose} (member : Relay.isClientJoin shared.lobbyList.dict socket = true) :
    ∃ key, searched zlib socket shared purpose shared.lobbyList.dict.items =
      visit zlib socket shared key socket shared.lobbyList.start purpose := by
  cases found : findDelkey shared.lobbyList.dict.items socket with
  | none => exact absurd (Relay.isClientJoin_iff.mp member) (Relay.findDelkey_eq_none_iff.mp found)
  | some key => exact ⟨key, by rw [searched, found]⟩

theorem searched_outsider {purpose : Purpose} (outsider : Relay.isClientJoin shared.lobbyList.dict socket = false) :
    searched zlib socket shared purpose shared.lobbyList.dict.items = finish socket shared purpose := by
  rw [searched, Relay.findDelkey_eq_none_iff.mpr (Relay.isClientJoin_eq_false_iff.mp outsider)]

theorem forwardPackets_turns : Turns accepts zlib socket data shared (forwardPackets zlib shared data)
    (Relay.reactPacket zlib shared.lobbyList.dict data) := by
  unfold forwardPackets Relay.reactPacket
  cases zlib.decompress data with
  | none => exact turns_throws .zlibError
  | some packet =>
    simp only
    cases Relay.getDestinationIp packet with
    | error exn => exact turns_throws exn
    | ok destination =>
      cases destination with
      | none => exact ⟨shared.lobbyList, rfl, .refl _⟩
      | some ip =>
        simp only
        cases bound : shared.lobbyList.dict.get? ip with
        | none =>
          have missing : shared.lobbyList.dict.contains ip = false := by
            rw [← Bool.not_eq_true, Dict.contains_iff]
            exact Dict.get?_eq_none_iff.mp bound
          refine ⟨shared.lobbyList, rfl, .single ?_⟩
          rw [perform, missing]
          rfl
        | some target =>
          have present : shared.lobbyList.dict.contains ip = true :=
            Dict.contains_iff.mpr (Dict.mem_keys_iff.mpr ⟨target, Dict.get?_eq_some_iff.mp bound⟩)
          have routed : perform accepts zlib socket shared (.routing data ip) =
              some (goto shared (.fetching data ip)) := by
            rw [perform, present]
            rfl
          have fetched : perform accepts zlib socket shared (.fetching data ip) =
              some (sends shared target data) := by
            rw [perform, bound]
          exact (turns_sends rfl rfl).after ((Leads.single routed).trans (.single fetched))

/-- A scan for the thread's own entry, with what the thread does behind it. -/
theorem opening_turns {purpose : Purpose} {success failure : Reaction} (searches : purpose.Searches)
    (found : ∀ key, Turns accepts zlib socket data shared
      (visit zlib socket shared key socket shared.lobbyList.start purpose) success)
    (missed : Turns accepts zlib socket data shared (finish socket shared purpose) failure) :
    Turns accepts zlib socket data shared (goto shared (.opening purpose))
      (if Relay.isClientJoin shared.lobbyList.dict socket then success else failure) := by
  refine Turns.after (opening_searched searches shared) ?_
  cases member : Relay.isClientJoin shared.lobbyList.dict socket with
  | false => rwa [searched_outsider member, if_neg Bool.false_ne_true]
  | true =>
    obtain ⟨key, same⟩ := @searched_member zlib socket shared purpose member
    rw [same, if_pos rfl]
    exact found key

theorem names_turns {ip : Str} : Turns accepts zlib socket data shared
    (goto shared (.opening (.names "command list 1 ".toList))) (.listed ip) := by
  refine Turns.after (.step rfl (scanning_names _ shared.lobbyList.remaining_zero)) ?_
  have text : "command list 1 ".toList ++ (shared.lobbyList.dict.items.map Prod.fst).flatMap (· ++ " ".toList) =
      Relay.listReply shared.lobbyList.dict := (Relay.listReply_eq _).symm
  rw [text]
  exact turns_sends rfl rfl

theorem storing_turns {ip : Str} : Turns accepts zlib socket data shared (goto shared (.storing ip)) (.joined ip) := by
  have answered : Turns accepts zlib socket data shared
      (goto { shared with lobbyList := shared.lobbyList.set ip socket } (.answering ip)) (.joined ip) :=
    turns_transmits rfl (Table.dict_set ..) rfl
  exact answered.after (.single rfl)

theorem deleting_turns {ip : Str} (present : shared.lobbyList.dict.contains ip = true) :
    Turns accepts zlib socket data shared (goto shared (.deleting ip)) (.left ip) := by
  have deleted : perform accepts zlib socket shared (.deleting ip) = some (sends
      { shared with lobbyList := shared.lobbyList.erase ip } socket (bytes "command leave 1 ")) := by
    rw [perform, if_pos present]
  exact (turns_sends rfl (Table.dict_erase ..)).after (.single deleted)

theorem testing_turns {verb : Verb} {ip : Str} (valid : Relay.isValidIpv4 ip = .ok true) :
    Turns accepts zlib socket data shared (goto shared (.testing verb ip))
      (Relay.reactNamed shared.lobbyList.dict socket verb ip) := by
  have tested : Leads accepts zlib socket (goto shared (.testing verb ip)) (test socket shared verb ip) :=
    .single rfl
  refine Turns.after tested ?_
  simp only [test, Relay.reactNamed, valid]
  cases present : shared.lobbyList.dict.contains ip with
  | false =>
    cases verb with
    | join => exact storing_turns
    | list | leave => exact turns_sends rfl rfl
  | true =>
    cases verb with
    | join => exact turns_sends rfl rfl
    | list =>
      refine opening_turns (by trivial) ?_ (turns_sends rfl rfl)
      intro key
      rw [visit, if_pos (beq_self_eq_true socket)]
      exact names_turns
    | leave =>
      refine opening_turns (by trivial) ?_ (turns_sends rfl rfl)
      intro key
      rw [visit, if_pos (beq_self_eq_true socket)]
      exact deleting_turns present

theorem handleCommand_turns (command : Str) : Turns accepts zlib socket data shared
    (handleCommand socket shared command)
    (Relay.reactCommand shared.lobbyList.dict socket (split command)) := by
  unfold handleCommand Relay.reactCommand
  cases (split command)[1]? with
  | none => exact turns_throws .indexError
  | some word =>
    simp only
    cases Relay.verb? word with
    | none => exact ⟨shared.lobbyList, rfl, .refl _⟩
    | some verb =>
      simp only [Relay.reactVerb]
      cases (split command)[2]? with
      | none => exact turns_throws .indexError
      | some ip =>
        simp only
        cases valid : Relay.isValidIpv4 ip with
        | error exn =>
          simp only [Relay.reactNamed, valid]
          exact turns_throws exn
        | ok accepted =>
          cases accepted with
          | false =>
            simp only [Relay.reactNamed, valid]
            exact turns_sends rfl rfl
          | true => exact testing_turns valid

/-- Alone, a thread reacts to a message as the relay does. -/
theorem handleClient_turns : Turns accepts zlib socket data shared (handleClient socket shared data)
    (Relay.react zlib shared.lobbyList.dict socket data) := by
  unfold handleClient Relay.react
  split
  · exact ⟨shared.lobbyList, rfl, .refl _⟩
  split
  · cases decode data with
    | error exn => exact turns_throws exn
    | ok command => exact handleCommand_turns command
  · refine opening_turns (by trivial) ?_ (turns_sends rfl rfl)
    intro key
    rw [visit, if_pos (beq_self_eq_true socket)]
    exact forwardPackets_turns

/-- The loop of the `finally` block, and what follows it. -/
theorem cleanup_leads (shared : Shared) :
    Leads accepts zlib socket (goto shared (.scanning .cleanup shared.lobbyList.start))
      (match findDelkey shared.lobbyList.dict.items socket with
        | none => dies shared (.exn .unboundLocalError)
        | some key => goto ⟨shared.lobbyList.erase key, socket :: shared.closed⟩ .ended) := by
  have scanned := @scanning_searched accepts zlib socket .cleanup (by trivial) shared 0 _
    shared.lobbyList.remaining_zero
  refine scanned.trans ?_
  unfold searched
  cases found : findDelkey shared.lobbyList.dict.items socket with
  | none => exact .refl _
  | some key =>
    have present : shared.lobbyList.dict.contains key = true :=
      Dict.contains_iff.mpr (Dict.mem_keys_iff.mpr ⟨socket, Relay.findDelkey_some found⟩)
    have removed : perform accepts zlib socket shared (.removing key) =
        some (goto { shared with lobbyList := shared.lobbyList.erase key } .closing) := by
      rw [perform, if_pos present]
    simp only [visit, beq_self_eq_true, if_true]
    exact .step removed (.single rfl)

/-- All threads wait between two turns, as the relay says. -/
def between (relay : Relay.State) (table : Table Str Socket) : State :=
  ⟨⟨table, relay.closed⟩, fun socket => resting (relay.phase socket)⟩

def Rests (state : State) (relay : Relay.State) : Prop :=
  ∃ table : Table Str Socket, table.dict = relay.lobbyList ∧ state = between relay table

theorem between_point {relay : Relay.State} (table : Table Str Socket) {socket : Socket} {phase : Phase}
    (same : relay.phase socket = phase) : (between relay table).point socket = resting phase :=
  congrArg resting same

theorem effect_cleanup {relay : Relay.State} (table : Table Str Socket) {socket : Socket}
    (ending : relay.phase socket = .ending) : effect zlib (between relay table) (.advance socket everyone) =
      some (goto ⟨table, relay.closed⟩ (.scanning .cleanup table.start)) := by
  simp only [effect, between_point table ending, resting, perform]
  rfl

/-- The bytes and the exceptions that a step shows. -/
def Output.shown (output : Output) : List ((Socket × Bytes) ⊕ Raised) :=
  output.sent.map .inl ++ output.raised.toList.map .inr

def relayed (output : Relay.Output) : Output := ⟨output.sent, output.raised.map .exn⟩

theorem update_resting (phase : Socket → Phase) (socket : Socket) (next : Phase) :
    Function.update (fun other => resting (phase other)) socket (resting next) =
      fun other => resting (Function.update phase socket next other) := by
  funext other
  by_cases own : other = socket
  · subst own
    simp
  · simp [Function.update_of_ne own]

/-- A thread that leads from one effect to another takes its steps in a run. -/
theorem Leads.run {first last : Effect} (leads : Leads accepts zlib socket first last)
    {trace : List (Moment State Event Output)} {point : Socket → Point}
    (taken : (system zlib).Run trace ⟨first.shared, Function.update point socket first.point⟩) :
    ∃ steps, (system zlib).Run (steps ++ trace) ⟨last.shared, Function.update point socket last.point⟩ ∧
      steps.flatMap (·.output.shown) ++ first.output.shown = last.output.shown := by
  induction leads generalizing trace with
  | refl effect => exact ⟨[], taken, rfl⟩
  | @step shared here next last performed rest ih =>
    have stepped : (system zlib).step ⟨shared, Function.update point socket here⟩ (.advance socket accepts) =
        some (⟨next.shared, Function.update point socket next.point⟩, next.output) := by
      simp [system, Threads.step, effect, Event.socket, performed]
    obtain ⟨moment, output, further⟩ := taken.extended stepped
    obtain ⟨steps, longer, shown⟩ := ih further
    refine ⟨steps ++ [moment], ?_, ?_⟩
    · rwa [List.append_assoc]
    · rw [List.flatMap_append, List.flatMap_singleton, output, ← shown]
      exact List.append_nil _

theorem run_leads {trace : List (Moment State Event Output)} {state : State} {event : Event} {first last : Effect}
    (taken : (system zlib).Run trace state) (begins : effect zlib state event = some first)
    (leads : Leads accepts zlib event.socket first last) :
    ∃ steps, (system zlib).Run (steps ++ trace) ⟨last.shared, Function.update state.point event.socket last.point⟩ ∧
      steps.flatMap (·.output.shown) = last.output.shown := by
  have stepped : (system zlib).step state event =
      some (⟨first.shared, Function.update state.point event.socket first.point⟩, first.output) := by
    simp [system, step, begins]
  obtain ⟨moment, output, further⟩ := taken.extended stepped
  obtain ⟨steps, longer, shown⟩ := leads.run further
  refine ⟨steps ++ [moment], ?_, ?_⟩
  · rwa [List.append_assoc]
  · rw [List.flatMap_append, List.flatMap_singleton, output, shown]

/-- What a thread does alone, from one wait to the next. -/
theorem turn_serial {trace : List (Moment State Event Output)} {relay after : Relay.State} {table : Table Str Socket}
    {event : Event} {first last : Effect} (taken : (system zlib).Run trace (between relay table))
    (begins : effect zlib (between relay table) event = some first)
    (leads : Leads accepts zlib event.socket first last) {next : Phase} (waits : last.point = resting next)
    (lobby : last.shared.lobbyList.dict = after.lobbyList) (closed : last.shared.closed = after.closed)
    (phase : after.phase = Function.update relay.phase event.socket next) :
    ∃ steps final, (system zlib).Run (steps ++ trace) final ∧ Rests final after ∧
      steps.flatMap (·.output.shown) = last.output.shown := by
  obtain ⟨steps, longer, shown⟩ := run_leads taken begins leads
  refine ⟨steps, _, longer, ⟨last.shared.lobbyList, lobby, ?_⟩, shown⟩
  simp only [between, ← closed, phase, waits, update_resting]

/-- Each step of the relay is some steps of one thread. -/
theorem step_serial {trace : List (Moment State Event Output)} {state : State} {before after : Relay.State}
    {event : Relay.Event} {output : Relay.Output} (taken : (system zlib).Run trace state)
    (rests : Rests state before) (steps : Relay.Steps zlib before event after output) :
    ∃ steps final, (system zlib).Run (steps ++ trace) final ∧ Rests final after ∧
      steps.flatMap (·.output.shown) = (relayed output).shown := by
  obtain ⟨lobbyList, closed, phase⟩ := before
  obtain ⟨table, rfl, rfl⟩ := rests
  cases steps with
  | @accept socket absent =>
    have begins : effect zlib (between ⟨table.dict, closed, phase⟩ table) (.accept socket) =
        some (goto ⟨table, closed⟩ .receiving) := by
      simp only [effect, between_point table absent, resting]
      rfl
    exact @turn_serial everyone _ _ _ _ _ _ _ _ taken begins (.refl _) .running rfl rfl rfl rfl
  | @receive socket data accepts reaction running short same reacts =>
    have begins : effect zlib (between ⟨table.dict, closed, phase⟩ table) (.receive socket data) =
        some (handleClient socket ⟨table, closed⟩ data) := by
      simp only [effect, between_point table running, resting, if_pos short]
      rfl
    obtain ⟨last, lobby, leads⟩ := @handleClient_turns accepts zlib socket data ⟨table, closed⟩
    rw [same] at lobby leads
    exact turn_serial taken begins leads rfl lobby rfl rfl
  | @fail socket running =>
    have begins : effect zlib (between ⟨table.dict, closed, phase⟩ table) (.fail socket) =
        some (goto ⟨table, closed⟩ (.opening .cleanup)) := by
      simp only [effect, between_point table running, resting]
      rfl
    exact @turn_serial everyone _ _ _ _ _ _ _ _ taken begins (.refl _) .ending rfl rfl rfl rfl
  | @finish socket key ending found =>
    have leads := @cleanup_leads everyone zlib socket ⟨table, closed⟩
    rw [found] at leads
    exact @turn_serial everyone _ _ _ _ _ _ _ _ taken (effect_cleanup table ending) leads .ended rfl (Table.dict_erase ..) rfl rfl
  | @abandon socket ending outsider =>
    have leads := @cleanup_leads everyone zlib socket ⟨table, closed⟩
    rw [Relay.findDelkey_eq_none_iff.mpr outsider] at leads
    exact @turn_serial everyone _ _ _ _ _ _ _ _ taken (effect_cleanup table ending) leads .ended rfl rfl rfl rfl

/-- Every run of the relay is a run of the threads that shows the same. -/
theorem run_serial {history : List (Moment Relay.State Relay.Event Relay.Output)} {relay : Relay.State}
    (run : (Relay.system zlib).Run history relay) : ∃ trace state, (system zlib).Run trace state ∧
      Rests state relay ∧ trace.flatMap (·.output.shown) = history.flatMap fun moment => (relayed moment.output).shown :=
  run.simulated Rests _ _ ⟨Table.empty, rfl, rfl⟩ fun _ _ _ taken rests legal =>
    step_serial taken rests (Relay.legal_steps legal)

end VirtualLan.Threads
