import VirtualLan.Proofs.RelaySteps
import VirtualLan.StoredZlib
import VirtualLan.Threads

/-! What the missing lock costs. A thread changes the lobby in three places only,
and it comes to a store, to the answer and to an iterator by one way each; the two
results follow from that, each under the condition that excludes its bad
interleavings. -/

namespace VirtualLan.Threads
open Relay (Socket Verb Reaction)

variable {zlib : Zlib} {accepts : Socket → Bool} {socket : Socket} {shared : Shared} {effect : Effect}

/-- Neither a store, nor the answer to one, nor an iterator comes next. -/
def Point.Quiet : Point → Prop
  | .storing _ | .answering _ | .scanning _ _ => False
  | _ => True

/-- A step that leaves the lobby alone, and neither comes to a store or a scan
nor raises for one. -/
structure Plain (shared : Shared) (effect : Effect) : Prop where
  lobby : effect.shared.lobbyList = shared.lobbyList
  point : effect.point.Quiet
  raised : effect.output.raised ≠ some .changedSize

theorem goto_plain {point : Point} (quiet : point.Quiet) : Plain shared (goto shared point) :=
  ⟨rfl, quiet, nofun⟩

theorem throws_plain (exn : Exn) : Plain shared (throws shared (.exn exn)) := ⟨rfl, trivial, nofun⟩

theorem dies_plain (exn : Exn) : Plain shared (dies shared (.exn exn)) := ⟨rfl, trivial, nofun⟩

theorem closes_plain (closed : List Socket) : Plain shared (goto ⟨shared.lobbyList, closed⟩ .ended) :=
  ⟨rfl, trivial, nofun⟩

theorem sends_plain (target : Socket) (data : Bytes) : Plain shared (sends shared target data) := goto_plain trivial

theorem transmits_plain (target : Socket) (data : Bytes) : Plain shared (transmits accepts shared target data) := by
  unfold transmits
  split
  · exact ⟨rfl, trivial, nofun⟩
  · exact throws_plain .osError

theorem handleCommand_plain (command : Str) : Plain shared (handleCommand socket shared command) := by
  unfold handleCommand
  split
  · exact throws_plain .indexError
  split
  · exact goto_plain trivial
  split
  · exact throws_plain .indexError
  split
  · exact throws_plain _
  · exact sends_plain ..
  · exact goto_plain trivial

theorem handleClient_plain (data : Bytes) : Plain shared (handleClient socket shared data) := by
  unfold handleClient
  split
  · exact goto_plain trivial
  split
  · split
    · exact throws_plain _
    · exact handleCommand_plain _
  · exact goto_plain trivial

theorem forwardPackets_plain (data : Bytes) : Plain shared (forwardPackets zlib shared data) := by
  unfold forwardPackets
  split
  · exact throws_plain .zlibError
  split
  · exact throws_plain _
  · exact goto_plain trivial
  · exact goto_plain trivial

theorem finish_plain (purpose : Purpose) : Plain shared (finish socket shared purpose) := by
  cases purpose with
  | cleanup => exact dies_plain .unboundLocalError
  | packet | listing | leaving | names => exact sends_plain ..

/-- The operation adds an entry or takes one away. -/
def Resizes (shared : Shared) : Point → Prop
  | .storing ip => ip ∉ shared.lobbyList.dict.keys
  | .deleting ip | .removing ip => ip ∈ shared.lobbyList.dict.keys
  | _ => False

/-- Everything that a step of a thread can do. -/
inductive Performs (zlib : Zlib) (socket : Socket) (shared : Shared) : Point → Effect → Prop
  | plain {point : Point} {effect : Effect} (quiet : ¬ Resizes shared point) (plain : Plain shared effect) :
      Performs zlib socket shared point effect
  | passed {ip : Str} (free : ip ∉ shared.lobbyList.dict.keys) :
      Performs zlib socket shared (.testing .join ip) (goto shared (.storing ip))
  | stored (ip : Str) : Performs zlib socket shared (.storing ip)
      (goto { shared with lobbyList := shared.lobbyList.set ip socket } (.answering ip))
  | opened (purpose : Purpose) : Performs zlib socket shared (.opening purpose)
      (goto shared (.scanning purpose shared.lobbyList.start))
  | visited {purpose other : Purpose} {cursor next : Cursor} (size : next.size = shared.lobbyList.size) :
      Performs zlib socket shared (.scanning purpose cursor) (goto shared (.scanning other next))
  | disturbed {purpose : Purpose} {cursor : Cursor} (changed : cursor.size ≠ shared.lobbyList.size) :
      Performs zlib socket shared (.scanning purpose cursor) (disturb shared purpose)
  | deleted {ip : Str} (present : ip ∈ shared.lobbyList.dict.keys) :
      Performs zlib socket shared (.deleting ip)
        (sends { shared with lobbyList := shared.lobbyList.erase ip } socket (bytes "command leave 1 "))
  | removed {delkey : Str} (present : delkey ∈ shared.lobbyList.dict.keys) :
      Performs zlib socket shared (.removing delkey)
        (goto { shared with lobbyList := shared.lobbyList.erase delkey } .closing)

theorem visit_performs {purpose : Purpose} {cursor next : Cursor} {key : Str} {value : Socket}
    (size : next.size = shared.lobbyList.size) :
    Performs zlib socket shared (.scanning purpose cursor) (visit zlib socket shared key value next purpose) := by
  cases purpose with
  | names text => exact .visited size
  | packet data =>
    simp only [visit]
    split
    · exact .plain id (forwardPackets_plain data)
    · exact .visited size
  | listing | leaving | cleanup =>
    simp only [visit]
    split
    · exact .plain id (goto_plain trivial)
    · exact .visited size

/-- The steps of a thread are these. -/
theorem perform_performs {point : Point} (performed : perform accepts zlib socket shared point = some effect) :
    Performs zlib socket shared point effect := by
  cases point with
  | absent | receiving | ended => cases performed
  | testing verb ip =>
    cases performed
    unfold test
    split
    next missing => exact .passed (fun present => by rw [Dict.contains_iff.mpr present] at missing; cases missing)
    all_goals first | exact .plain id (sends_plain ..) | exact .plain id (goto_plain trivial)
  | storing ip =>
    cases performed
    exact .stored ip
  | answering | sending =>
    cases performed
    exact .plain id (transmits_plain ..)
  | opening purpose =>
    cases performed
    exact .opened purpose
  | scanning purpose cursor =>
    cases performed
    split
    next changed => exact .disturbed (Table.advance_changed_iff.mp changed)
    next => exact .plain id (finish_plain purpose)
    next key value next entered =>
      apply visit_performs
      rw [Table.advance_entry entered]
      by_contra changed
      rw [Table.advance_changed_iff.mpr changed] at entered
      cases entered
  | deleting ip =>
    cases performed
    split
    next present => exact .deleted (Dict.contains_iff.mp present)
    next missing => exact .plain (fun present => missing (Dict.contains_iff.mpr present)) (throws_plain .keyError)
  | removing delkey =>
    cases performed
    split
    next present => exact .removed (Dict.contains_iff.mp present)
    next missing => exact .plain (fun present => missing (Dict.contains_iff.mpr present)) (dies_plain .keyError)
  | closing =>
    cases performed
    exact .plain id (closes_plain _)
  | routing data ip =>
    cases performed
    split <;> exact .plain id (goto_plain trivial)
  | fetching data ip =>
    cases performed
    split
    · exact .plain id (throws_plain .keyError)
    · exact .plain id (sends_plain ..)

/-- The three ways in which a step changes the lobby. -/
theorem Performs.lobby {point : Point} (performs : Performs zlib socket shared point effect) :
    effect.shared.lobbyList.dict = shared.lobbyList.dict ∨
    (∃ ip, point = .storing ip ∧ effect.shared.lobbyList.dict = shared.lobbyList.dict.set ip socket) ∨
    (∃ ip, (point = .deleting ip ∨ point = .removing ip) ∧ ip ∈ shared.lobbyList.dict.keys ∧
      effect.shared.lobbyList.dict = shared.lobbyList.dict.erase ip) := by
  cases performs with
  | plain _ plain => exact Or.inl (by rw [plain.lobby])
  | passed | opened | visited => exact Or.inl rfl
  | @disturbed purpose => exact Or.inl (by cases purpose <;> rfl)
  | stored ip => exact Or.inr (Or.inl ⟨ip, rfl, Table.dict_set ..⟩)
  | deleted present => exact Or.inr (Or.inr ⟨_, Or.inl rfl, present, Table.dict_erase ..⟩)
  | removed present => exact Or.inr (Or.inr ⟨_, Or.inr rfl, present, Table.dict_erase ..⟩)

/-- An address stays bound until a thread deletes it. -/
theorem Performs.keeps {point : Point} (performs : Performs zlib socket shared point effect) {ip : Str}
    (bound : ip ∈ shared.lobbyList.dict.keys) (kept : ¬ (point = .deleting ip ∨ point = .removing ip)) :
    ip ∈ effect.shared.lobbyList.dict.keys := by
  rcases performs.lobby with same | ⟨key, _, same⟩ | ⟨key, deletes, _, same⟩ <;> rw [same]
  · exact bound
  · exact Dict.mem_keys_set.mpr (Or.inr bound)
  · refine Dict.mem_keys_erase.mpr ⟨?_, bound⟩
    rintro rfl
    exact kept deletes

variable {state after : State} {event : Event} {output : Output}

/-- A step of the system is a step of the thread that it serves. -/
theorem step_performs (stepped : step zlib state event = some (after, output)) : ∃ effect,
    after = ⟨effect.shared, Function.update state.point event.socket effect.point⟩ ∧ output = effect.output ∧
      Performs zlib event.socket state.shared (state.point event.socket) effect := by
  obtain ⟨effect, taken, same⟩ := Option.map_eq_some_iff.mp stepped
  cases same
  refine ⟨effect, rfl, rfl, ?_⟩
  cases event with
  | accept socket =>
    simp only [Threads.effect] at taken
    split at taken <;> cases taken
    next absent => exact .plain (by rw [Event.socket, absent]; exact id) (goto_plain trivial)
  | receive socket data =>
    simp only [Threads.effect] at taken
    split at taken
    next receiving =>
      split at taken <;> cases taken
      exact .plain (by rw [Event.socket, receiving]; exact id) (handleClient_plain data)
    next => cases taken
  | fail socket =>
    simp only [Threads.effect] at taken
    split at taken <;> cases taken
    next receiving => exact .plain (by rw [Event.socket, receiving]; exact id) (goto_plain trivial)
  | advance socket accepts => exact perform_performs taken

def State.keys (state : State) : List Str := state.shared.lobbyList.dict.keys

/-- A store of the address is the next operation of this thread. -/
def Stores (moment : Moment State Event Output) (ip : Str) : Prop :=
  moment.before.point moment.event.socket = .storing ip

/-- This thread, which has stored the address, tells its client so. -/
def Answers (moment : Moment State Event Output) (ip : Str) : Prop :=
  moment.before.point moment.event.socket = .answering ip ∧
    (moment.event.socket, bytes "command join 1 ") ∈ moment.output.sent

def Deletes (moment : Moment State Event Output) (ip : Str) : Prop :=
  (moment.before.point moment.event.socket = .deleting ip ∨ moment.before.point moment.event.socket = .removing ip) ∧
    ip ∈ moment.before.keys

/-- A thread finds an address free that another one is about to store. -/
def Overlaps (state : State) (event : Event) : Prop :=
  ∃ ip other, state.point event.socket = .testing .join ip ∧ ip ∉ state.keys ∧ state.point other = .storing ip

/-- A thread deletes an address that another one has stored and not answered yet. -/
def Forestalls (state : State) (event : Event) : Prop :=
  ∃ ip other, (state.point event.socket = .deleting ip ∨ state.point event.socket = .removing ip) ∧
    ip ∈ state.keys ∧ state.point other = .answering ip

/-- The address that a thread has found free, until its client knows. -/
def Point.joining? : Point → Option Str
  | .storing ip | .answering ip => some ip
  | _ => none

/-- Each address is being joined under by one thread at most; it is free until the
store, and bound from there to the answer. -/
structure Exclusive (state : State) : Prop where
  free : ∀ socket ip, state.point socket = .storing ip → ip ∉ state.keys
  bound : ∀ socket ip, state.point socket = .answering ip → ip ∈ state.keys
  alone : ∀ first second ip, (state.point first).joining? = some ip → (state.point second).joining? = some ip →
    first = second

theorem Point.joining?_eq_some {point : Point} {ip : Str} (joins : point.joining? = some ip) :
    point = .storing ip ∨ point = .answering ip := by
  cases point with
  | storing other =>
    cases joins
    exact Or.inl rfl
  | answering other =>
    cases joins
    exact Or.inr rfl
  | _ => cases joins

/-- How a thread comes to a store. -/
theorem Performs.store {point : Point} (performs : Performs zlib socket shared point effect) {ip : Str}
    (next : effect.point = .storing ip) :
    point = .testing .join ip ∧ ip ∉ shared.lobbyList.dict.keys ∧ effect.shared = shared := by
  cases performs with
  | plain _ plain => exact (next ▸ plain.point : Point.Quiet (.storing ip)).elim
  | passed free =>
    cases next
    exact ⟨rfl, free, rfl⟩
  | @disturbed purpose => cases purpose <;> cases next
  | stored | deleted | opened | visited | removed => cases next

/-- How a thread comes to an answer. -/
theorem Performs.answer {point : Point} (performs : Performs zlib socket shared point effect) {ip : Str}
    (next : effect.point = .answering ip) :
    point = .storing ip ∧ effect.shared.lobbyList.dict = shared.lobbyList.dict.set ip socket := by
  cases performs with
  | plain _ plain => exact (next ▸ plain.point : Point.Quiet (.answering ip)).elim
  | stored other =>
    cases next
    exact ⟨rfl, Table.dict_set ..⟩
  | @disturbed purpose => cases purpose <;> cases next
  | passed | deleted | opened | visited | removed => cases next

/-- A thread that comes to join was before it at its test, with the address free,
or at its store. -/
theorem Exclusive.enters (exclusive : Exclusive state) (guarded : ¬ Overlaps state event)
    (performs : Performs zlib event.socket state.shared (state.point event.socket) effect) {ip : Str}
    (joins : effect.point.joining? = some ip) {other : Socket} (same : (state.point other).joining? = some ip) :
    other = event.socket := by
  rcases Point.joining?_eq_some joins with next | next
  · obtain ⟨testing, free, _⟩ := performs.store next
    rcases Point.joining?_eq_some same with storing | answering
    · exact absurd ⟨ip, other, testing, free, storing⟩ guarded
    · exact absurd (exclusive.bound other ip answering) free
  · have storing := (performs.answer next).1
    exact exclusive.alone other event.socket ip same (by rw [storing]; rfl)

theorem Exclusive.step_alone (exclusive : Exclusive state) (guarded : ¬ Overlaps state event)
    (performs : Performs zlib event.socket state.shared (state.point event.socket) effect) {first second : Socket}
    {ip : Str} (one : (Function.update state.point event.socket effect.point first).joining? = some ip)
    (two : (Function.update state.point event.socket effect.point second).joining? = some ip) : first = second := by
  by_cases own : first = event.socket
  · by_cases own' : second = event.socket
    · rw [own, own']
    · rw [own, Function.update_self] at one
      rw [Function.update_of_ne own'] at two
      exact absurd (exclusive.enters guarded performs one two) own'
  · rw [Function.update_of_ne own] at one
    by_cases own' : second = event.socket
    · rw [own', Function.update_self] at two
      exact absurd (exclusive.enters guarded performs two one) own
    · rw [Function.update_of_ne own'] at two
      exact exclusive.alone first second ip one two

theorem Exclusive.step (exclusive : Exclusive state) (guarded : ¬ Overlaps state event)
    (patient : ¬ Forestalls state event) (stepped : step zlib state event = some (after, output)) :
    Exclusive after := by
  obtain ⟨effect, rfl, rfl, performs⟩ := step_performs stepped
  refine ⟨?_, ?_, fun first second ip => exclusive.step_alone guarded performs⟩
  · intro socket ip storing present
    simp only at storing
    by_cases own : socket = event.socket
    · subst own
      rw [Function.update_self] at storing
      obtain ⟨_, free, kept⟩ := performs.store storing
      exact free (by rw [← kept]; exact present)
    · rw [Function.update_of_ne own] at storing
      have free := exclusive.free socket ip storing
      rw [State.keys] at present free
      rcases performs.lobby with same | ⟨key, store, same⟩ | ⟨key, _, _, same⟩ <;> rw [same] at present
      · exact free present
      · rcases Dict.mem_keys_set.mp present with rfl | old
        · exact own (exclusive.alone socket event.socket ip (by rw [storing]; rfl) (by rw [store]; rfl))
        · exact free old
      · exact free (Dict.mem_keys_erase.mp present).2
  · intro socket ip answering
    simp only at answering
    by_cases own : socket = event.socket
    · subst own
      rw [Function.update_self] at answering
      rw [State.keys, (performs.answer answering).2]
      exact Dict.mem_keys_set.mpr (Or.inl rfl)
    · rw [Function.update_of_ne own] at answering
      have bound := exclusive.bound socket ip answering
      exact performs.keeps bound fun deletes => patient ⟨ip, socket, deletes, bound, answering⟩

variable {history : List (Moment State Event Output)}

theorem run_exclusive (run : (system zlib).Run history state)
    (guarded : ∀ moment ∈ history, ¬ Overlaps moment.before moment.event)
    (patient : ∀ moment ∈ history, ¬ Forestalls moment.before moment.event) :
    ∀ passed ∈ System.visited history state, Exclusive passed := by
  have calm : ∀ moment ∈ history, ¬ Overlaps moment.before moment.event ∧ ¬ Forestalls moment.before moment.event :=
    fun moment member => ⟨guarded moment member, patient moment member⟩
  refine run.visited_invariant Exclusive ⟨?_, ?_, ?_⟩ ?_ calm
  · intro socket ip storing
    cases storing
  · intro socket ip answering
    cases answering
  · intro first second ip joins
    cases joins
  · exact fun moment legal exclusive calm => exclusive.step calm.1 calm.2 legal

/-- The address is bound, and nobody is still to be told so. -/
structure Settled (state : State) (ip : Str) : Prop where
  bound : ip ∈ state.keys
  told : ∀ socket, state.point socket ≠ .answering ip

theorem Settled.step {ip : Str} (settled : Settled state ip) (exclusive : Exclusive state)
    (kept : ¬ Deletes ⟨state, event, output, after⟩ ip) (stepped : step zlib state event = some (after, output)) :
    Settled after ip := by
  obtain ⟨effect, rfl, rfl, performs⟩ := step_performs stepped
  refine ⟨performs.keeps settled.bound fun deletes => kept ⟨deletes, settled.bound⟩, ?_⟩
  intro socket answering
  simp only at answering
  by_cases own : socket = event.socket
  · rw [own, Function.update_self] at answering
    exact exclusive.free event.socket ip (performs.answer answering).1 settled.bound
  · rw [Function.update_of_ne own] at answering
    exact settled.told socket answering

/-- An answer settles its address. -/
theorem answer_settles {ip : Str} (exclusive : Exclusive state) (answering : state.point event.socket = .answering ip)
    (stepped : step zlib state event = some (after, output)) : Settled after ip := by
  obtain ⟨effect, rfl, rfl, performs⟩ := step_performs stepped
  rw [answering] at performs
  refine ⟨performs.keeps (exclusive.bound event.socket ip answering) (by simp), ?_⟩
  intro socket other
  simp only at other
  by_cases own : socket = event.socket
  · rw [own, Function.update_self] at other
    cases (performs.answer other).1
  · rw [Function.update_of_ne own] at other
    exact own (exclusive.alone socket event.socket ip (by rw [other]; rfl) (by rw [answering]; rfl))

/-- It stays so until the address is deleted. -/
theorem stays_settled {first : Moment State Event Output} {between older : List (Moment State Event Output)}
    (run : (system zlib).Run (between ++ first :: older) state) {ip : Str}
    (exclusive : ∀ moment ∈ between ++ first :: older, Exclusive moment.before)
    (answering : first.before.point first.event.socket = .answering ip)
    (kept : ∀ moment ∈ between, ¬ Deletes moment ip) : Settled state ip := by
  induction between generalizing state with
  | nil =>
    cases run with
    | next _ past legal => exact answer_settles (exclusive first List.mem_cons_self) answering legal
  | cons moment between ih =>
    cases run with
    | next _ past legal =>
      have before := ih past (fun other member => exclusive other (List.mem_cons_of_mem _ member))
        fun other member => kept other (List.mem_cons_of_mem _ member)
      exact before.step (exclusive moment List.mem_cons_self) (kept moment List.mem_cons_self) legal

/-- In every run in which no thread finds an address free that another one is about
to store, and none deletes an address that another one has stored and not answered
yet, no store replaces an entry, and of two clients that are told to have joined
under one address the first one's entry was deleted in between. -/
theorem run_joins_exclusive (run : (system zlib).Run history state)
    (guarded : ∀ moment ∈ history, ¬ Overlaps moment.before moment.event)
    (patient : ∀ moment ∈ history, ¬ Forestalls moment.before moment.event) :
    (∀ moment ∈ history, ∀ ip, Stores moment ip → ip ∉ moment.before.keys) ∧
    ∀ newer second between first older ip, history = newer ++ second :: (between ++ first :: older) →
      Answers first ip → Answers second ip → ∃ moment ∈ between, Deletes moment ip := by
  have exclusive : ∀ moment ∈ history, Exclusive moment.before := by
    intro moment member
    exact run_exclusive run guarded patient _ (System.Run.before_visited member)
  refine ⟨fun moment member ip stores => (exclusive moment member).free _ ip stores, ?_⟩
  rintro newer second between first older ip rfl ⟨answers, _⟩ ⟨again, _⟩
  by_contra kept
  have settled := stays_settled run.earlier.1
    (fun moment member => exclusive moment (List.mem_append_right _ (List.mem_cons_of_mem _ member)))
    answers fun moment member deletes => kept ⟨moment, member, deletes⟩
  exact settled.told second.event.socket again

/-- A connection that nothing happened on has no thread. -/
theorem run_untouched (run : (system zlib).Run history state)
    (others : ∀ moment ∈ history, moment.event.socket ≠ socket) : state.point socket = .absent := by
  refine run.visited_invariant (fun state => state.point socket = .absent) rfl ?_ others state List.mem_cons_self
  intro moment legal untouched other
  obtain ⟨effect, same, _, _⟩ := step_performs legal
  rw [same]
  exact (Function.update_of_ne (Ne.symm other) _ _).trans untouched

/-- These operations get in each other's way, if they are about one address. -/
def Point.clashes : Point → Point → Bool
  | .testing .join _, .storing _ | .deleting _, .answering _ | .removing _, .answering _ => true
  | _, _ => false

/-- A run of some threads that never stand at such operations has no bad
interleaving. -/
theorem run_calm (run : (system zlib).Run history state) (sockets : List Socket)
    (known : ∀ moment ∈ history, moment.event.socket ∈ sockets)
    (apart : ∀ moment ∈ history, ∀ other ∈ sockets,
      (moment.before.point moment.event.socket).clashes (moment.before.point other) = false) :
    ∀ moment ∈ history, ¬ Overlaps moment.before moment.event ∧ ¬ Forestalls moment.before moment.event := by
  intro moment member
  have inside (other : Socket) (present : moment.before.point other ≠ .absent) : other ∈ sockets := by
    by_contra outside
    obtain ⟨newer, older, rfl⟩ := List.mem_iff_append.mp member
    refine present (run_untouched run.earlier.1 ?_)
    rintro past before rfl
    exact outside (known past (List.mem_append_right _ (List.mem_cons_of_mem _ before)))
  refine ⟨?_, ?_⟩
  · rintro ⟨ip, other, testing, _, storing⟩
    have clear := apart moment member other (inside other (by rw [storing]; exact nofun))
    rw [testing, storing] at clear
    cases clear
  · rintro ⟨ip, other, deletes, _, answering⟩
    have clear := apart moment member other (inside other (by rw [answering]; exact nofun))
    rcases deletes with deletes | deletes <;> rw [deletes, answering] at clear <;> cases clear

/-- The first of two connections joins while the second asks for the same address, and
leaves; the second joins under it while the first asks for it again, and leaves; then
both join again, each under an address of its own. -/
def rotation : List Event :=
  [.accept 1, .accept 2, .receive 1 (bytes "command join 100.0.0.1"), .receive 2 (bytes "command join 100.0.0.1"),
   .advance 1 Relay.everyone, .advance 1 Relay.everyone, .advance 2 Relay.everyone, .advance 1 Relay.everyone,
   .advance 2 Relay.everyone, .receive 1 (bytes "command leave 100.0.0.1"), .receive 2 (bytes "command join 100.0.0.1"),
   .advance 1 Relay.everyone, .advance 1 Relay.everyone, .advance 1 Relay.everyone, .advance 1 Relay.everyone,
   .advance 2 Relay.everyone, .advance 1 Relay.everyone, .advance 2 Relay.everyone,
   .receive 1 (bytes "command join 100.0.0.1"), .advance 1 Relay.everyone, .advance 2 Relay.everyone,
   .advance 1 Relay.everyone, .receive 2 (bytes "command leave 100.0.0.1"), .receive 1 (bytes "command join 100.0.0.1"),
   .advance 2 Relay.everyone, .advance 2 Relay.everyone, .advance 2 Relay.everyone, .advance 2 Relay.everyone,
   .advance 1 Relay.everyone, .advance 2 Relay.everyone, .receive 2 (bytes "command join 100.0.0.2"),
   .advance 1 Relay.everyone, .advance 2 Relay.everyone, .advance 2 Relay.everyone, .advance 1 Relay.everyone,
   .advance 2 Relay.everyone]

theorem run_joins_exclusive_rotation :
    ((∀ moment ∈ ((system StoredZlib.zlib).play rotation).1, ∀ ip, Stores moment ip → ip ∉ moment.before.keys) ∧
    ∀ newer second between first older ip,
      ((system StoredZlib.zlib).play rotation).1 = newer ++ second :: (between ++ first :: older) →
      Answers first ip → Answers second ip → ∃ moment ∈ between, Deletes moment ip) ∧
    ((system StoredZlib.zlib).play rotation).1.flatMap (fun moment => moment.output.sent) =
      [(2, bytes "command join 1 "), (1, bytes "command join 1 "), (2, bytes "command leave 1 "),
       (1, bytes "command join 0 "), (2, bytes "command join 1 "), (1, bytes "command leave 1 "),
       (2, bytes "command join 0 "), (1, bytes "command join 1 ")] := by
  have run := (system StoredZlib.zlib).run_play rotation
  have calm := run_calm run [1, 2] (by decide +kernel) (by decide +kernel)
  refine ⟨run_joins_exclusive run ?_ ?_, by decide +kernel⟩
  · exact fun moment member => (calm moment member).1
  · exact fun moment member => (calm moment member).2

/-- Both threads test the address before either stores it. -/
def collision : List Event :=
  [.accept 1, .accept 2, .receive 1 (bytes "command join 100.0.0.1"), .receive 2 (bytes "command join 100.0.0.1"),
   .advance 1 Relay.everyone, .advance 2 Relay.everyone, .advance 1 Relay.everyone, .advance 2 Relay.everyone,
   .advance 1 Relay.everyone, .advance 2 Relay.everyone]

theorem collision_not_exclusive :
    (system StoredZlib.zlib).Run ((system StoredZlib.zlib).play collision).1 ((system StoredZlib.zlib).play collision).2 ∧
    (¬ ∀ moment ∈ ((system StoredZlib.zlib).play collision).1, ∀ ip, Stores moment ip → ip ∉ moment.before.keys) ∧
    ((system StoredZlib.zlib).play collision).1.map (fun moment => moment.output.sent) =
      [[(2, bytes "command join 1 ")], [(1, bytes "command join 1 ")], [], [], [], [], [], [], [], []] := by
  refine ⟨(system StoredZlib.zlib).run_play collision, ?_, by decide⟩
  intro free
  have absent := free _ (List.mem_cons_of_mem _ (List.mem_cons_of_mem _ List.mem_cons_self)) "100.0.0.1".toList rfl
  revert absent
  decide

/-- The first thread stores the address, a registered connection takes it away, the
second one stores it, and then both answer. -/
def delay : List Event :=
  [.accept 1, .accept 2, .accept 3, .receive 3 (bytes "command join 100.0.0.3"), .advance 3 Relay.everyone,
   .advance 3 Relay.everyone, .advance 3 Relay.everyone, .receive 1 (bytes "command join 100.0.0.1"),
   .advance 1 Relay.everyone, .advance 1 Relay.everyone, .receive 3 (bytes "command leave 100.0.0.1"),
   .advance 3 Relay.everyone, .advance 3 Relay.everyone, .advance 3 Relay.everyone, .advance 3 Relay.everyone,
   .receive 2 (bytes "command join 100.0.0.1"), .advance 2 Relay.everyone, .advance 2 Relay.everyone,
   .advance 1 Relay.everyone, .advance 2 Relay.everyone]

/-- No store replaces an entry there, and yet two answers follow the only deletion. -/
theorem delay_not_exclusive :
    (system StoredZlib.zlib).Run ((system StoredZlib.zlib).play delay).1 ((system StoredZlib.zlib).play delay).2 ∧
    ¬ ∀ newer second between first older ip,
      ((system StoredZlib.zlib).play delay).1 = newer ++ second :: (between ++ first :: older) →
      Answers first ip → Answers second ip → ∃ moment ∈ between, Deletes moment ip := by
  refine ⟨(system StoredZlib.zlib).run_play delay, ?_⟩
  intro exclusive
  have deleted := exclusive [] _ [] _ _ "100.0.0.1".toList rfl ⟨rfl, by decide⟩ ⟨rfl, by decide⟩
  obtain ⟨moment, member, _⟩ := deleted
  cases member

def State.size (state : State) : Nat := state.shared.lobbyList.size

/-- No iterator raises when it is advanced next. -/
def Scans (zlib : Zlib) (state : State) : Prop :=
  ∀ socket accepts after output, step zlib state (.advance socket accepts) = some (after, output) →
    output.raised ≠ some .changedSize

/-- Every iterator expects the size that the lobby has. -/
def Sized (state : State) : Prop :=
  ∀ socket purpose cursor, state.point socket = .scanning purpose cursor → cursor.size = state.size

/-- It does so while another thread is scanning. -/
def Disturbs (state : State) (event : Event) : Prop :=
  Resizes state.shared (state.point event.socket) ∧ ∃ other purpose cursor, state.point other = .scanning purpose cursor

/-- How a thread comes to an iterator. -/
theorem Performs.scan {point : Point} (performs : Performs zlib socket shared point effect) {purpose : Purpose}
    {cursor : Cursor} (next : effect.point = .scanning purpose cursor) :
    effect.shared = shared ∧ cursor.size = shared.lobbyList.size := by
  cases performs with
  | plain _ plain => exact (next ▸ plain.point : Point.Quiet (.scanning purpose cursor)).elim
  | opened =>
    cases next
    exact ⟨rfl, rfl⟩
  | visited size =>
    cases next
    exact ⟨rfl, size⟩
  | @disturbed purpose => cases purpose <;> cases next
  | passed | stored | deleted | removed => cases next

theorem Performs.raises {point : Point} (performs : Performs zlib socket shared point effect)
    (raised : effect.output.raised = some .changedSize) :
    ∃ purpose cursor, point = .scanning purpose cursor ∧ cursor.size ≠ shared.lobbyList.size := by
  cases performs with
  | plain _ plain => exact absurd raised plain.raised
  | disturbed changed => exact ⟨_, _, rfl, changed⟩
  | passed | stored | opened | visited | deleted | removed => cases raised

theorem scans_iff : Scans zlib state ↔ Sized state := by
  constructor
  · intro scans socket purpose cursor scanning
    by_contra changed
    have advanced := Table.advance_changed_iff.mpr changed
    refine scans socket (fun _ => true) ⟨(disturb state.shared purpose).shared,
      Function.update state.point socket (disturb state.shared purpose).point⟩ (disturb state.shared purpose).output ?_ ?_
    · simp [step, Threads.effect, scanning, perform, advanced, Event.socket]
    · cases purpose <;> rfl
  · intro sized socket accepts after output stepped raised
    obtain ⟨effect, _, rfl, performs⟩ := step_performs stepped
    obtain ⟨purpose, cursor, scanning, changed⟩ := performs.raises raised
    exact changed (sized socket purpose cursor scanning)

/-- The size changes exactly where the operation is one that changes it. -/
theorem step_size (stepped : step zlib state event = some (after, output)) :
    after.size ≠ state.size ↔ Resizes state.shared (state.point event.socket) := by
  obtain ⟨effect, rfl, _, performs⟩ := step_performs stepped
  generalize state.point event.socket = point at performs ⊢
  simp only [State.size, Table.size]
  cases performs with
  | plain quiet plain => simp [plain.lobby, quiet]
  | passed | opened | visited => simp [goto, Resizes]
  | @disturbed purpose => cases purpose <;> simp [disturb, throws, dies, Resizes]
  | stored ip =>
    simp only [goto, Table.dict_set, Resizes]
    by_cases present : ip ∈ state.shared.lobbyList.dict.keys
    · simp [Dict.size_set_of_present _ _ present, present]
    · simp [Dict.size_set_of_absent _ _ present, present]
  | deleted present | removed present =>
    have less := Dict.size_erase_of_present _ present
    simp only [sends, goto, Table.dict_erase, Resizes, present, iff_true]
    omega

theorem Sized.step (sized : Sized state) (stepped : step zlib state event = some (after, output)) :
    Sized after ↔ ¬ Disturbs state event := by
  constructor
  · rintro kept ⟨resizes, other, purpose, cursor, scanning⟩
    have different : other ≠ event.socket := by
      rintro rfl
      rw [scanning] at resizes
      exact resizes
    have changed := (step_size stepped).mpr resizes
    obtain ⟨effect, same, _, _⟩ := step_performs stepped
    have still : after.point other = .scanning purpose cursor := by
      rw [same]
      exact (Function.update_of_ne different _ _).trans scanning
    exact changed ((kept other purpose cursor still).symm.trans (sized other purpose cursor scanning))
  · intro calm socket purpose cursor scanning
    obtain ⟨effect, same, _, performs⟩ := step_performs stepped
    rw [same] at scanning
    by_cases own : socket = event.socket
    · subst own
      have next : effect.point = .scanning purpose cursor := (Function.update_self ..).symm.trans scanning
      obtain ⟨kept, size⟩ := performs.scan next
      rw [same, size, State.size, kept]
    · have before : state.point socket = .scanning purpose cursor := (Function.update_of_ne own _ _).symm.trans scanning
      have kept : ¬ Resizes state.shared (state.point event.socket) :=
        fun resizes => calm ⟨resizes, socket, purpose, cursor, before⟩
      rw [← step_size stepped, not_not] at kept
      rw [kept, sized socket purpose cursor before]

/-- In every run, no iterator can raise in any state exactly when no thread adds
or takes away an entry while another one is scanning. -/
theorem run_scans_iff (run : (system zlib).Run history state) :
    (∀ passed ∈ System.visited history state, Scans zlib passed) ↔
      ∀ moment ∈ history, ¬ Disturbs moment.before moment.event := by
  simp only [scans_iff]
  refine run.visited_iff Sized ?_ fun moment legal sized => sized.step legal
  intro socket purpose cursor scanning
  cases scanning

/-- A registered connection sends a packet, and another one joins while the relay
looks for the sender in the lobby. -/
def interruption : List Event :=
  [.accept 1, .accept 2, .receive 1 (bytes "command join 100.0.0.1"), .advance 1 Relay.everyone,
   .advance 1 Relay.everyone, .advance 1 Relay.everyone, .receive 2 (bytes "command join 100.0.0.2"),
   .advance 2 Relay.everyone, .receive 1 [0x78], .advance 1 Relay.everyone, .advance 2 Relay.everyone]

theorem run_scans_iff_interruption :
    (∀ passed ∈ System.visited ((system StoredZlib.zlib).play interruption).1
      ((system StoredZlib.zlib).play interruption).2, Scans StoredZlib.zlib passed) ↔
      ∀ moment ∈ ((system StoredZlib.zlib).play interruption).1, ¬ Disturbs moment.before moment.event :=
  run_scans_iff ((system StoredZlib.zlib).run_play interruption)

theorem interruption_raises :
    (system StoredZlib.zlib).Reachable ((system StoredZlib.zlib).play interruption).2 ∧
    ¬ Scans StoredZlib.zlib ((system StoredZlib.zlib).play interruption).2 := by
  refine ⟨(system StoredZlib.zlib).reachable_play interruption, ?_⟩
  intro scans
  have calm := scans 1 Relay.everyone _ _ rfl
  revert calm
  decide

end VirtualLan.Threads
