import VirtualLan.Library.Chronicle
import VirtualLan.Proofs.Races
import VirtualLan.Proofs.ReplyCodec

/-! What a thread does with one message, whatever the other threads do meanwhile. A
turn begins when the thread receives; what the thread still carries of the message,
and what it has seen of the lobby since, explains everything that it sends. -/

namespace VirtualLan.Threads
open Relay (Socket Verb Reply Reaction Asks Holds isValidIpv4 getDestinationIp)

variable {zlib : Zlib} {accepts : Socket → Bool} {socket : Socket} {shared : Shared} {effect : Effect}

abbrev Instant := Moment State Event Output

def Event.received? (socket : Socket) : Event → Option Bytes
  | .receive receiver data => if receiver = socket then some data else none
  | .accept _ | .fail _ | .advance _ _ => none

/-- The message that a thread received last. -/
def message (socket : Socket) : List Instant → Bytes
  | [] => []
  | moment :: history => (moment.event.received? socket).getD (message socket history)

/-- The steps of all threads since then. -/
def turn (socket : Socket) : List Instant → List Instant
  | [] => []
  | moment :: history =>
    if (moment.event.received? socket).isSome then [moment] else moment :: turn socket history

/-- What a thread sent in a step. -/
def spoken (socket : Socket) (moment : Instant) : List (Socket × Bytes) :=
  if moment.event.socket = socket then moment.output.sent else []

/-- The thread received its message in this turn. -/
def Begun (socket : Socket) (history : List Instant) : Prop :=
  ∃ receipt ∈ turn socket history, receipt.event = .receive socket (message socket history)

def Asked (data : Bytes) (verb : Verb) (ip : Str) : Prop := Asks data verb ip ∧ isValidIpv4 ip = .ok true

/-- The text of a list in the making names addresses that were in the lobby. -/
def Names (seen : List Instant) (text : Str) : Prop :=
  ∃ keys : List Str, text = "command list 1 ".toList ++ keys.flatMap (· ++ " ".toList) ∧
    ∀ key ∈ keys, ∃ moment ∈ seen, key ∈ moment.before.keys

/-- A packet on its way, of a thread that was seen to be registered. -/
def Addressed (zlib : Zlib) (socket : Socket) (data : Bytes) (seen : List Instant) (ip : Str) : Prop :=
  (∃ moment ∈ seen, Holds moment.before.shared.lobbyList.dict socket) ∧
    ∃ packet, zlib.decompress data = some packet ∧ getDestinationIp packet = .ok (some ip)

/-- The thread looked the address up and found this connection. -/
def Found (socket : Socket) (data : Bytes) (seen : List Instant) (ip : Str) (target : Socket) : Prop :=
  ∃ lookup ∈ seen, lookup.event.socket = socket ∧ lookup.before.point socket = .fetching data ip ∧
    lookup.before.shared.lobbyList.dict.get? ip = some target

def Payload (data : Bytes) : Prop := data ≠ [] ∧ (bytes "command").isPrefixOf data = false

/-- How what a thread sends comes from its message and from what it has seen. -/
inductive Explained (zlib : Zlib) (socket : Socket) (data : Bytes) (seen : List Instant) : Socket × Bytes → Prop
  | reply {reply : Reply} (listed : ∀ keys, reply = .listed keys → ∀ key ∈ keys, ∃ moment ∈ seen, key ∈ moment.before.keys) :
      Explained zlib socket data seen (socket, reply.bytes)
  | packet {ip : Str} {target : Socket} (payload : Payload data)
      (addressed : Addressed zlib socket data seen ip) (found : Found socket data seen ip target) :
      Explained zlib socket data seen (target, data)

/-- How a thread's next operation comes from these. -/
def Meant (zlib : Zlib) (socket : Socket) (data : Bytes) (seen : List Instant) : Point → Prop
  | .absent | .receiving | .ended | .removing _ | .closing | .opening .cleanup | .scanning .cleanup _ => True
  | .testing verb ip => Asked data verb ip
  | .storing ip | .answering ip => Asked data .join ip
  | .opening (.leaving ip) | .scanning (.leaving ip) _ | .deleting ip => Asked data .leave ip
  | .opening .listing | .scanning .listing _ => ∃ ip, Asked data .list ip
  | .opening (.names text) | .scanning (.names text) _ => Names seen text
  | .opening (.packet other) | .scanning (.packet other) _ => other = data ∧ Payload data
  | .routing other ip | .fetching other ip => other = data ∧ Payload data ∧ Addressed zlib socket data seen ip
  | .sending target other => Explained zlib socket data seen (target, other)

variable {data : Bytes} {seen : List Instant}

theorem Names.more {text : Str} (names : Names seen text) (moment : Instant) : Names (moment :: seen) text := by
  obtain ⟨keys, same, listed⟩ := names
  refine ⟨keys, same, ?_⟩
  intro key member
  obtain ⟨earlier, inside, present⟩ := listed key member
  exact ⟨earlier, List.mem_cons_of_mem _ inside, present⟩

theorem Addressed.more {ip : Str} (addressed : Addressed zlib socket data seen ip) (moment : Instant) :
    Addressed zlib socket data (moment :: seen) ip := by
  obtain ⟨⟨earlier, inside, registered⟩, packet⟩ := addressed
  exact ⟨⟨earlier, List.mem_cons_of_mem _ inside, registered⟩, packet⟩

theorem Explained.more {sent : Socket × Bytes} (explained : Explained zlib socket data seen sent) (moment : Instant) :
    Explained zlib socket data (moment :: seen) sent := by
  cases explained with
  | reply listed =>
    refine .reply ?_
    intro keys same key member
    obtain ⟨earlier, inside, present⟩ := listed keys same key member
    exact ⟨earlier, List.mem_cons_of_mem _ inside, present⟩
  | packet payload addressed found =>
    obtain ⟨lookup, inside, bound⟩ := found
    exact .packet payload (addressed.more moment) ⟨lookup, List.mem_cons_of_mem _ inside, bound⟩

/-- What a thread has seen stays seen. -/
theorem Meant.more {point : Point} (meant : Meant zlib socket data seen point) (moment : Instant) :
    Meant zlib socket data (moment :: seen) point := by
  cases point with
  | absent | receiving | ended | removing | closing | testing | storing | answering | deleting => exact meant
  | routing | fetching => exact ⟨meant.1, meant.2.1, meant.2.2.more moment⟩
  | sending => exact Explained.more meant moment
  | opening purpose =>
    cases purpose with
    | names => exact Names.more meant moment
    | packet | listing | leaving | cleanup => exact meant
  | scanning purpose =>
    cases purpose with
    | names => exact Names.more meant moment
    | packet | listing | leaving | cleanup => exact meant

/-- A step carries on with what its thread carried, and says what follows from it. -/
structure Follows (zlib : Zlib) (socket : Socket) (data : Bytes) (seen : List Instant) (effect : Effect) : Prop where
  point : Meant zlib socket data seen effect.point
  sent : ∀ message ∈ effect.output.sent, Explained zlib socket data seen message

theorem goto_follows {point : Point} (meant : Meant zlib socket data seen point) :
    Follows zlib socket data seen (goto shared point) := ⟨meant, List.forall_mem_nil _⟩

theorem throws_follows (raised : Raised) : Follows zlib socket data seen (throws shared raised) :=
  ⟨trivial, List.forall_mem_nil _⟩

theorem dies_follows (raised : Raised) : Follows zlib socket data seen (dies shared raised) :=
  ⟨trivial, List.forall_mem_nil _⟩

theorem transmits_follows {target : Socket} {bytes : Bytes} (explained : Explained zlib socket data seen (target, bytes)) :
    Follows zlib socket data seen (transmits accepts shared target bytes) := by
  unfold transmits
  split
  · refine ⟨trivial, ?_⟩
    intro message member
    rw [List.mem_singleton.mp member]
    exact explained
  · exact throws_follows _

theorem Explained.closed (reply : Reply) (closed : ∀ keys, reply ≠ .listed keys) :
    Explained zlib socket data seen (socket, reply.bytes) :=
  .reply fun keys same => absurd same (closed keys)

theorem Explained.joined : Explained zlib socket data seen (socket, bytes "command join 1 ") := .closed .joined nofun

theorem Explained.left : Explained zlib socket data seen (socket, bytes "command leave 1 ") := .closed .left nofun

theorem refuses_follows (verb : Verb) : Follows zlib socket data seen (refuses socket shared verb) := by
  have refused : Explained zlib socket data seen (socket, (Reply.refused verb).bytes) := .closed _ nofun
  exact goto_follows refused

theorem handleCommand_follows {command : Str} (starts : (bytes "command").isPrefixOf data = true)
    (decoded : decode data = .ok command) :
    Follows zlib socket data seen (handleCommand socket shared command) := by
  unfold handleCommand
  split
  next => exact throws_follows _
  next word second =>
    split
    next => exact goto_follows trivial
    next verb named =>
      split
      next => exact throws_follows _
      next ip third =>
        split
        next => exact throws_follows _
        next => exact refuses_follows verb
        next valid =>
          rw [Relay.verb?_eq_some_iff] at named
          exact goto_follows ⟨⟨starts, command, decoded, named ▸ second, third⟩, valid⟩

theorem handleClient_follows : Follows zlib socket data seen (handleClient socket shared data) := by
  unfold handleClient
  split
  next => exact goto_follows trivial
  next filled =>
    split
    next starts =>
      split
      next => exact throws_follows _
      next command decoded => exact handleCommand_follows starts decoded
    next payload =>
      have message : data ≠ [] := by simpa using filled
      exact goto_follows ⟨rfl, message, Bool.not_eq_true _ ▸ payload⟩

theorem forwardPackets_follows (payload : Payload data)
    (registered : ∃ moment ∈ seen, Holds moment.before.shared.lobbyList.dict socket) :
    Follows zlib socket data seen (forwardPackets zlib shared data) := by
  unfold forwardPackets
  split
  next => exact throws_follows _
  next packet decoded =>
    split
    next => exact throws_follows _
    next => exact goto_follows trivial
    next ip addressed => exact goto_follows ⟨rfl, payload, registered, packet, decoded, addressed⟩

theorem test_follows {verb : Verb} {ip : Str} (asked : Asked data verb ip) :
    Follows zlib socket data seen (test socket shared verb ip) := by
  unfold test
  split
  · exact goto_follows asked
  · exact goto_follows ⟨ip, asked⟩
  · exact goto_follows asked
  all_goals exact refuses_follows _

variable {moment : Instant}

theorem visit_follows {key : Str} {value : Socket} {purpose : Purpose} {old next : Cursor} (current : moment ∈ seen)
    (entry : (key, value) ∈ moment.before.shared.lobbyList.dict.items)
    (meant : Meant zlib socket data seen (.scanning purpose old)) :
    Follows zlib socket data seen (visit zlib socket shared key value next purpose) := by
  have registered (own : (value == socket) = true) : ∃ moment ∈ seen, Holds moment.before.shared.lobbyList.dict socket := by
    rw [beq_iff_eq.mp own] at entry
    exact ⟨_, current, key, Dict.get?_eq_some_iff.mpr entry⟩
  cases purpose with
  | packet other =>
    obtain ⟨rfl, payload⟩ := meant
    simp only [visit]
    split
    next own => exact forwardPackets_follows payload (registered own)
    next => exact goto_follows ⟨rfl, payload⟩
  | listing =>
    simp only [visit]
    split
    next => exact goto_follows ⟨[], by simp, List.forall_mem_nil _⟩
    next => exact goto_follows meant
  | leaving ip =>
    simp only [visit]
    split
    next => exact goto_follows meant
    next => exact goto_follows meant
  | names text =>
    obtain ⟨keys, rfl, listed⟩ := meant
    refine goto_follows ⟨keys ++ [key], by simp, ?_⟩
    intro name member
    rcases List.mem_append.mp member with earlier | last
    · exact listed name earlier
    · rw [List.mem_singleton.mp last]
      exact ⟨_, current, Dict.mem_keys_iff.mpr ⟨value, entry⟩⟩
  | cleanup =>
    simp only [visit]
    split
    next => exact goto_follows trivial
    next => exact goto_follows trivial

theorem finish_follows {purpose : Purpose} {cursor : Cursor}
    (meant : Meant zlib socket data seen (.scanning purpose cursor)) :
    Follows zlib socket data seen (finish socket shared purpose) := by
  cases purpose with
  | packet =>
    have rejected : Explained zlib socket data seen (socket, Reply.error.bytes) := .closed _ nofun
    exact goto_follows rejected
  | listing => exact refuses_follows .list
  | leaving => exact refuses_follows .leave
  | cleanup => exact dies_follows _
  | names text =>
    obtain ⟨keys, rfl, listed⟩ := meant
    have line : encode ("command list 1 ".toList ++ keys.flatMap (· ++ " ".toList)) = (Reply.listed keys).bytes := by
      rw [encode_append]
      rfl
    have complete : Explained zlib socket data seen (socket, (Reply.listed keys).bytes) :=
      .reply fun other same => by cases same; exact listed
    simp only [finish, line]
    exact goto_follows complete

theorem perform_follows (current : moment ∈ seen) (own : moment.event.socket = socket)
    (meant : Meant zlib socket data seen (moment.before.point socket))
    (performed : perform accepts zlib socket moment.before.shared (moment.before.point socket) = some effect) :
    Follows zlib socket data seen effect := by
  cases point : moment.before.point socket with
  | absent | receiving | ended =>
    rw [point] at performed
    cases performed
  | testing verb ip =>
    rw [point] at meant performed
    cases performed
    exact test_follows meant
  | storing ip =>
    rw [point] at meant performed
    cases performed
    exact goto_follows meant
  | answering ip =>
    rw [point] at performed
    cases performed
    exact transmits_follows .joined
  | opening purpose =>
    rw [point] at meant performed
    cases performed
    exact goto_follows (by cases purpose <;> exact meant)
  | scanning purpose cursor =>
    rw [point] at meant performed
    cases performed
    split
    next => cases purpose <;> exact ⟨trivial, List.forall_mem_nil _⟩
    next => exact finish_follows meant
    next key value next entered => exact visit_follows current (Table.advance_member entered) meant
  | deleting ip =>
    rw [point] at performed
    cases performed
    split
    next =>
      have left : Explained zlib socket data seen (socket, bytes "command leave 1 ") := .left
      exact goto_follows left
    next => exact throws_follows _
  | removing delkey =>
    rw [point] at performed
    cases performed
    split
    next => exact goto_follows trivial
    next => exact dies_follows _
  | closing =>
    rw [point] at performed
    cases performed
    exact goto_follows trivial
  | routing other ip =>
    rw [point] at meant performed
    cases performed
    split
    next => exact goto_follows meant
    next => exact goto_follows trivial
  | fetching other ip =>
    rw [point] at meant performed
    cases performed
    obtain ⟨rfl, payload, addressed⟩ := meant
    split
    next => exact throws_follows _
    next target bound =>
      have explained : Explained zlib socket other seen (target, other) :=
        .packet payload addressed ⟨moment, current, own, point, bound⟩
      exact goto_follows explained
  | sending target other =>
    rw [point] at meant performed
    cases performed
    exact transmits_follows meant

/-- The thread may still send something for its message. -/
def Point.busy : Point → Bool
  | .absent | .receiving | .ended | .removing _ | .closing | .opening .cleanup | .scanning .cleanup _ => false
  | .testing _ _ | .storing _ | .answering _ | .opening _ | .scanning _ _ | .deleting _ | .routing _ _ | .fetching _ _
  | .sending _ _ => true

def Effect.load (effect : Effect) : Nat := effect.output.sent.length + effect.point.busy.toNat

theorem goto_load (point : Point) : (goto shared point).load = point.busy.toNat := Nat.zero_add _

theorem transmits_load (target : Socket) (bytes : Bytes) : (transmits accepts shared target bytes).load ≤ 1 := by
  unfold transmits
  split
  · exact Nat.le_refl 1
  · exact Nat.zero_le 1

theorem goto_load_le (point : Point) : (goto shared point).load ≤ 1 := by
  rw [goto_load]
  exact Bool.toNat_le point.busy

theorem handleClient_load (data : Bytes) : (handleClient socket shared data).load ≤ 1 := by
  unfold handleClient
  split
  · exact goto_load_le _
  split
  · split
    · exact Nat.zero_le 1
    · unfold handleCommand
      split
      · exact Nat.zero_le 1
      split
      · exact goto_load_le _
      split
      · exact Nat.zero_le 1
      split
      · exact Nat.zero_le 1
      · exact goto_load_le _
      · exact goto_load_le _
  · exact goto_load_le _

theorem forwardPackets_load (data : Bytes) : (forwardPackets zlib shared data).load ≤ 1 := by
  unfold forwardPackets
  split
  · exact Nat.zero_le 1
  split
  · exact Nat.zero_le 1
  · exact goto_load_le _
  · exact goto_load_le _

theorem visit_load {key : Str} {value : Socket} {purpose : Purpose} {old next : Cursor} :
    (visit zlib socket shared key value next purpose).load ≤ (Point.scanning purpose old).busy.toNat := by
  cases purpose with
  | packet data =>
    simp only [visit]
    split
    · exact forwardPackets_load data
    · exact goto_load_le _
  | listing | leaving =>
    simp only [visit]
    split
    · exact goto_load_le _
    · exact goto_load_le _
  | names => exact goto_load_le _
  | cleanup =>
    simp only [visit]
    split
    · exact Nat.le_refl 0
    · exact Nat.le_refl 0

/-- A step never makes a thread send more than it could before. -/
theorem perform_load {point : Point} (performed : perform accepts zlib socket shared point = some effect) :
    effect.load ≤ point.busy.toNat := by
  cases point with
  | absent | receiving | ended => cases performed
  | testing verb ip =>
    cases performed
    unfold test
    split
    all_goals exact goto_load_le _
  | storing ip =>
    cases performed
    exact goto_load_le _
  | answering | sending =>
    cases performed
    exact transmits_load ..
  | opening purpose =>
    cases performed
    rw [goto_load]
    cases purpose <;> exact Nat.le_refl _
  | scanning purpose cursor =>
    cases performed
    split
    next => cases purpose <;> exact Nat.zero_le _
    next =>
      cases purpose with
      | cleanup => exact Nat.le_refl 0
      | packet | listing | leaving | names => exact goto_load_le _
    next => exact visit_load
  | deleting ip =>
    cases performed
    split
    · exact goto_load_le _
    · exact Nat.zero_le 1
  | removing delkey =>
    cases performed
    split
    · exact Nat.le_refl 0
    · exact Nat.le_refl 0
  | closing =>
    cases performed
    exact Nat.le_refl 0
  | routing other ip =>
    cases performed
    exact goto_load_le _
  | fetching other ip =>
    cases performed
    split
    · exact Nat.zero_le 1
    · exact goto_load_le _

structure Turning (zlib : Zlib) (history : List Instant) (state : State) (socket : Socket) : Prop where
  meant : Meant zlib socket (message socket history) (turn socket history) (state.point socket)
  begun : (state.point socket).busy = true → Begun socket history
  once : ((turn socket history).flatMap (spoken socket)).length + (state.point socket).busy.toNat ≤ 1

/-- A step explains what it sends, and its thread goes on with its turn. -/
structure Explains (zlib : Zlib) (history : List Instant) (moment : Instant) : Prop where
  turning : ∀ socket, Turning zlib (moment :: history) moment.after socket
  sent : ∀ sent ∈ moment.output.sent, Begun moment.event.socket (moment :: history) ∧
    Explained zlib moment.event.socket (message moment.event.socket (moment :: history))
      (turn moment.event.socket (moment :: history)) sent

variable {history newer older : List Instant} {moment : Instant} {state : State}

/-- The steps of other threads add to what a thread has witnessed, and to nothing else. -/
theorem Turning.other (turning : Turning zlib history moment.before socket) (legal : (system zlib).Legal moment)
    (other : socket ≠ moment.event.socket) : Turning zlib (moment :: history) moment.after socket := by
  obtain ⟨effect, after, output, performs⟩ := step_performs legal
  have point : moment.after.point socket = moment.before.point socket := by
    rw [after]
    exact Function.update_of_ne other ..
  have deaf : moment.event.received? socket = none := by
    cases same : moment.event with
    | receive receiver data =>
      rw [same] at other
      exact if_neg (Ne.symm other)
    | accept | fail | advance => rfl
  have silent : spoken socket moment = [] := if_neg (Ne.symm other)
  have longer : turn socket (moment :: history) = moment :: turn socket history := by simp [turn, deaf]
  have same : message socket (moment :: history) = message socket history := by simp [message, deaf]
  refine ⟨?_, ?_, ?_⟩
  · rw [point, same, longer]
    exact turning.meant.more _
  · intro busy
    rw [point] at busy
    obtain ⟨receipt, member, event⟩ := turning.begun busy
    exact ⟨receipt, longer ▸ List.mem_cons_of_mem _ member, same ▸ event⟩
  · rw [point, longer, List.flatMap_cons, silent, List.nil_append]
    exact turning.once

/-- A step of the thread's own in the middle of its turn. -/
theorem Turning.own (turning : Turning zlib history moment.before moment.event.socket)
    (deaf : moment.event.received? moment.event.socket = none)
    (point : moment.after.point moment.event.socket = effect.point) (output : moment.output = effect.output)
    (follows : Follows zlib moment.event.socket (message moment.event.socket history)
      (moment :: turn moment.event.socket history) effect)
    (load : effect.load ≤ (moment.before.point moment.event.socket).busy.toNat) :
    Turning zlib (moment :: history) moment.after moment.event.socket ∧
    ∀ sent ∈ moment.output.sent, Begun moment.event.socket (moment :: history) ∧
      Explained zlib moment.event.socket (message moment.event.socket (moment :: history))
        (turn moment.event.socket (moment :: history)) sent := by
  have longer : turn moment.event.socket (moment :: history) = moment :: turn moment.event.socket history := by
    simp [turn, deaf]
  have same : message moment.event.socket (moment :: history) = message moment.event.socket history := by
    simp [message, deaf]
  have spoke : spoken moment.event.socket moment = effect.output.sent := by simp [spoken, output]
  have begun (busy : (moment.before.point moment.event.socket).busy = true) :
      Begun moment.event.socket (moment :: history) := by
    obtain ⟨receipt, member, event⟩ := turning.begun busy
    exact ⟨receipt, longer ▸ List.mem_cons_of_mem _ member, same ▸ event⟩
  have working (positive : 0 < effect.load) : (moment.before.point moment.event.socket).busy = true := by
    cases busy : (moment.before.point moment.event.socket).busy with
    | true => rfl
    | false =>
      rw [busy] at load
      exact absurd positive (Nat.not_lt.mpr load)
  rw [Effect.load] at load working
  refine ⟨⟨?_, ?_, ?_⟩, ?_⟩
  · rw [point, same, longer]
    exact follows.point
  · intro busy
    rw [point] at busy
    exact begun (working (by rw [busy]; exact Nat.succ_pos _))
  · have once := turning.once
    rw [point, longer, List.flatMap_cons, List.length_append, spoke]
    omega
  · intro sent member
    rw [output] at member
    rw [same, longer]
    refine ⟨begun (working ?_), follows.sent sent member⟩
    exact Nat.lt_of_lt_of_le (List.length_pos_of_mem member) (Nat.le_add_right ..)

/-- The step that begins a turn. -/
theorem Turning.begin {data : Bytes} (receives : moment.event = .receive socket data)
    (point : moment.after.point socket = effect.point) (output : moment.output = effect.output)
    (follows : Follows zlib socket data [moment] effect)
    (load : effect.load ≤ 1) :
    Turning zlib (moment :: history) moment.after socket ∧
    ∀ sent ∈ moment.output.sent, Begun socket (moment :: history) ∧
      Explained zlib socket (message socket (moment :: history)) (turn socket (moment :: history)) sent := by
  have heard : moment.event.received? socket = some data := by
    rw [receives]
    exact if_pos rfl
  have begins : turn socket (moment :: history) = [moment] := by simp [turn, heard]
  have holds : message socket (moment :: history) = data := by simp [message, heard]
  have own : moment.event.socket = socket := by
    rw [receives]
    rfl
  have begun : Begun socket (moment :: history) :=
    ⟨moment, begins ▸ List.mem_cons_self, by rw [holds, receives]⟩
  refine ⟨⟨?_, fun _ => begun, ?_⟩, ?_⟩
  · rw [point, holds, begins]
    exact follows.point
  · rw [point, begins, List.flatMap_singleton, spoken, if_pos own, output]
    exact load
  · intro sent member
    rw [output] at member
    rw [holds, begins]
    exact ⟨begun, follows.sent sent member⟩

theorem explains_own (turning : Turning zlib history moment.before moment.event.socket)
    (legal : (system zlib).Legal moment) :
    Turning zlib (moment :: history) moment.after moment.event.socket ∧
    ∀ sent ∈ moment.output.sent, Begun moment.event.socket (moment :: history) ∧
      Explained zlib moment.event.socket (message moment.event.socket (moment :: history))
        (turn moment.event.socket (moment :: history)) sent := by
  obtain ⟨effect, taken, same⟩ := Option.map_eq_some_iff.mp legal
  have point : moment.after.point moment.event.socket = effect.point := by
    rw [← (Prod.mk.inj same).1]
    exact Function.update_self ..
  have output : moment.output = effect.output := (Prod.mk.inj same).2.symm
  obtain ⟨before, event, said, after⟩ := moment
  cases event with
  | accept socket =>
    simp only [Threads.effect] at taken
    split at taken <;> cases taken
    exact turning.own rfl point output (goto_follows trivial) (Nat.zero_le _)
  | fail socket =>
    simp only [Threads.effect] at taken
    split at taken <;> cases taken
    exact turning.own rfl point output (goto_follows trivial) (Nat.zero_le _)
  | advance socket accepts =>
    have follows := perform_follows List.mem_cons_self rfl (turning.meant.more _) taken
    exact turning.own rfl point output follows (perform_load taken)
  | receive socket data =>
    simp only [Threads.effect] at taken
    split at taken
    next =>
      split at taken <;> cases taken
      exact Turning.begin rfl point output handleClient_follows (handleClient_load data)
    next => cases taken

theorem explains (turning : ∀ socket, Turning zlib history moment.before socket) (legal : (system zlib).Legal moment) :
    Explains zlib history moment := by
  obtain ⟨own, sent⟩ := explains_own (turning moment.event.socket) legal
  refine ⟨?_, sent⟩
  intro socket
  by_cases same : socket = moment.event.socket
  · exact same ▸ own
  · exact (turning socket).other legal same

theorem run_turning (run : (system zlib).Run history state) : ∀ socket, Turning zlib history state socket := by
  apply run.history_invariant fun history state => ∀ socket, Turning zlib history state socket
  · exact fun socket => ⟨trivial, nofun, Nat.zero_le 1⟩
  · exact fun history moment past turning legal => (explains turning legal).turning

/-- Whatever the threads of others do meanwhile, a thread sends only what it received
last, as a packet to the connection that it found when it looked the destination up, or
a reply to its own connection. It was registered at some moment of its turn when it
passes a packet on, and a list names only addresses that were in the lobby then. -/
theorem run_explained (run : (system zlib).Run (newer ++ moment :: older) state) {sent : Socket × Bytes}
    (member : sent ∈ moment.output.sent) : Begun moment.event.socket (moment :: older) ∧
      Explained zlib moment.event.socket (message moment.event.socket (moment :: older))
        (turn moment.event.socket (moment :: older)) sent := by
  obtain ⟨past, legal⟩ := run.earlier
  exact (explains (run_turning past) legal).sent sent member

/-- Two members: one sends a packet to the other while the other asks for the list. -/
def bustle : List Event :=
  [.accept 1, .accept 2, .receive 1 (bytes "command join 100.0.0.1"), .advance 1 Relay.everyone,
   .advance 1 Relay.everyone, .advance 1 Relay.everyone, .receive 2 (bytes "command join 100.0.0.2"),
   .advance 2 Relay.everyone, .advance 2 Relay.everyone, .advance 2 Relay.everyone,
   .receive 1 (StoredZlib.zlib.stream Relay.greeting), .receive 2 (bytes "command list 100.0.0.2"),
   .advance 1 Relay.everyone, .advance 2 Relay.everyone, .advance 1 Relay.everyone, .advance 2 Relay.everyone,
   .advance 1 Relay.everyone, .advance 2 Relay.everyone, .advance 1 Relay.everyone, .advance 2 Relay.everyone,
   .advance 1 Relay.everyone, .advance 2 Relay.everyone, .advance 2 Relay.everyone, .advance 2 Relay.everyone,
   .advance 2 Relay.everyone, .advance 2 Relay.everyone]

/-- What a run of it says, by the moment that says it. -/
theorem bustle_says {sent : Socket × Bytes}
    (said : sent ∈ System.chronicle (fun moment : Instant => moment.output.sent) ((system StoredZlib.zlib).play bustle).1) :
    ∃ newer moment older, ((system StoredZlib.zlib).play bustle).1 = newer ++ moment :: older ∧
      sent ∈ moment.output.sent := by
  obtain ⟨moment, member, sends⟩ := System.mem_chronicle.mp said
  obtain ⟨newer, older, split⟩ := List.mem_iff_append.mp member
  exact ⟨newer, moment, older, split, sends⟩

theorem run_explained_bustle : ∃ newer moment older,
    ((system StoredZlib.zlib).play bustle).1 = newer ++ moment :: older ∧
      Begun moment.event.socket (moment :: older) ∧
      Explained StoredZlib.zlib moment.event.socket (message moment.event.socket (moment :: older))
        (turn moment.event.socket (moment :: older)) (2, StoredZlib.zlib.stream Relay.greeting) := by
  have run := (system StoredZlib.zlib).run_play bustle
  have said : (2, StoredZlib.zlib.stream Relay.greeting) ∈ System.chronicle (fun moment : Instant => moment.output.sent)
      ((system StoredZlib.zlib).play bustle).1 := by decide +kernel
  obtain ⟨newer, moment, older, split, sends⟩ := bustle_says said
  exact ⟨newer, moment, older, split, run_explained (split ▸ run) sends⟩

/-- A message makes its thread send at most once, in every interleaving. -/
theorem turn_sends_once (run : (system zlib).Run history state) (socket : Socket) :
    ((turn socket history).flatMap (spoken socket)).length ≤ 1 :=
  Nat.le_trans (Nat.le_add_right ..) (run_turning run socket).once

theorem turn_sends_once_bustle :
    ((turn 1 ((system StoredZlib.zlib).play bustle).1).flatMap (spoken 1)).length ≤ 1 :=
  turn_sends_once ((system StoredZlib.zlib).run_play bustle) 1

theorem turn_subset (socket : Socket) (history : List Instant) : turn socket history ⊆ history := by
  induction history with
  | nil => exact fun _ member => member
  | cons moment history ih =>
    unfold turn
    split
    · intro later member
      rw [List.mem_singleton.mp member]
      exact List.mem_cons_self
    · exact List.cons_subset_cons moment ih

/-- An entry is bound by a store of its connection's turn. -/
theorem entry_asked (run : (system zlib).Run history state) {ip : Str} {owner : Socket}
    (bound : state.shared.lobbyList.dict.get? ip = some owner) : isValidIpv4 ip = .ok true ∧
      ∃ receipt ∈ history, ∃ data, receipt.event = .receive owner data ∧ Asks data .join ip := by
  induction run with
  | start => cases bound
  | @next history moment past legal ih =>
    have earlier (bound : moment.before.shared.lobbyList.dict.get? ip = some owner) : isValidIpv4 ip = .ok true ∧
        ∃ receipt ∈ moment :: history, ∃ data, receipt.event = .receive owner data ∧ Asks data .join ip := by
      obtain ⟨valid, receipt, member, asked⟩ := ih bound
      exact ⟨valid, receipt, List.mem_cons_of_mem _ member, asked⟩
    obtain ⟨effect, after, _, performs⟩ := step_performs legal
    rw [after] at bound
    rcases performs.lobby with same | ⟨key, storing, same⟩ | ⟨key, _, _, same⟩ <;> simp only [same] at bound
    · exact earlier bound
    · rw [Dict.get?_set] at bound
      split at bound
      next fresh =>
        cases bound
        subst fresh
        have turning := run_turning past moment.event.socket
        have meant := turning.meant
        rw [storing] at meant
        obtain ⟨receipt, member, event⟩ := turning.begun (by rw [storing]; rfl)
        exact ⟨meant.2, receipt, List.mem_cons_of_mem _ (turn_subset _ _ member), _, event, meant.1⟩
      next => exact earlier bound
    · exact earlier (Dict.get?_of_erase bound).2

/-- Every entry of the lobby is a valid address that its connection asked to join
under, in every interleaving. -/
theorem run_entries (run : (system zlib).Run history state) {ip : Str} {owner : Socket}
    (bound : state.shared.lobbyList.dict.get? ip = some owner) : isValidIpv4 ip = .ok true ∧
      ∃ receipt ∈ history, ∃ data, receipt.event = .receive owner data ∧ Asks data .join ip :=
  entry_asked run bound

theorem run_entries_bustle : isValidIpv4 "100.0.0.2".toList = .ok true ∧
    ∃ receipt ∈ ((system StoredZlib.zlib).play bustle).1, ∃ data,
      receipt.event = .receive 2 data ∧ Asks data .join "100.0.0.2".toList :=
  run_entries ((system StoredZlib.zlib).run_play bustle) (by decide +kernel)

end VirtualLan.Threads
