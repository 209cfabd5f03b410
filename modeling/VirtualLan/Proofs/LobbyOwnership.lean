import VirtualLan.Library.Registry
import VirtualLan.Proofs.RelaySteps
import VirtualLan.StoredZlib

/-! Who may change which entry of the lobby. Except for one guard of the leave
command, every step of the relay is a registry move of the socket it serves. -/

namespace VirtualLan.Relay
open Registry

variable {zlib : Zlib} {state after : State} {event : Event} {output : Output}

/-- A registered connection asks to leave under an address of somebody else. -/
def Trespass (lobbyList : Lobby) : Event → Prop
  | .receive socket data _ => ∃ ip owner, Asks data .leave ip ∧ isValidIpv4 ip = .ok true ∧
      Holds lobbyList socket ∧ lobbyList.get? ip = some owner ∧ owner ≠ socket
  | _ => False

private theorem reaction_move {lobbyList : Lobby} {socket : Socket} {data : Bytes} {reaction : Reaction}
    (reacts : Reacts zlib lobbyList socket data reaction)
    (own : ∀ ip owner, reaction = .left ip → lobbyList.get? ip = some owner → owner = socket) :
    Move socket lobbyList.get? (reaction.lobby lobbyList socket).get? := by
  cases reacts with
  | joined asks valid free =>
    rw [Reaction.lobby, Dict.get?_set_eq_update]
    exact .claim socket (Dict.get?_eq_none_iff.mpr free)
  | left asks valid present member =>
    obtain ⟨owner, bound⟩ := Dict.mem_keys_iff.mp present
    rw [← Dict.get?_eq_some_iff] at bound
    rw [Reaction.lobby, Dict.get?_erase_eq_update]
    exact .release (own _ owner rfl bound ▸ bound)
  | _ => exact .refl socket _

theorem Steps.move (steps : Steps zlib state event after output) (honest : ¬ Trespass state.lobbyList event) :
    Move event.socket state.lobbyList.get? after.lobbyList.get? := by
  cases steps with
  | accept absent => exact .refl _ _
  | @receive socket data accepts reaction running short same reacts =>
    apply reaction_move reacts
    rintro ip owner rfl bound
    cases reacts with
    | left asks valid present member =>
      by_contra other
      exact honest ⟨ip, owner, asks, valid, member, bound, other⟩
  | fail running => exact .refl _ _
  | finish ending found =>
    change Move _ _ (Dict.erase _ _).get?
    rw [Dict.get?_erase_eq_update]
    exact .release (Dict.get?_eq_some_iff.mpr (findDelkey_some found))
  | abandon ending outsider => exact .refl _ _

/-- Entries are made by join commands only, for the socket that sent them and
under a free address; this needs no honesty. -/
theorem Steps.bound (steps : Steps zlib state event after output) {ip : Str} {owner : Socket}
    (bound : after.lobbyList.get? ip = some owner) :
    state.lobbyList.get? ip = some owner ∨
      ip ∉ state.lobbyList.keys ∧ isValidIpv4 ip = .ok true ∧
        ∃ data accepts, event = .receive owner data accepts ∧ Asks data .join ip := by
  cases steps with
  | @receive socket data accepts reaction running short same reacts =>
    cases reacts with
    | joined asks valid free =>
      change (Dict.set _ _ _).get? ip = _ at bound
      rw [Dict.get?_set] at bound
      split at bound
      next equal =>
        cases bound
        subst equal
        exact Or.inr ⟨free, valid, data, accepts, rfl, asks⟩
      next => exact Or.inl bound
    | left => exact Or.inl (Dict.get?_of_erase bound).2
    | _ => exact Or.inl bound
  | finish ending found => exact Or.inl (Dict.get?_of_erase bound).2
  | _ => exact Or.inl bound

theorem Steps.claims (steps : Steps zlib state event after output) {ip : Str} {owner : Socket}
    (bound : after.lobbyList.get? ip = some owner) :
    state.lobbyList.get? ip = some owner ∨ owner = event.socket ∧ ip ∉ state.lobbyList.keys := by
  rcases steps.bound bound with old | ⟨free, _, data, accepts, rfl, _⟩
  · exact Or.inl old
  · exact Or.inr ⟨rfl, free⟩

/-- An entry leaves the lobby only through its own socket, by a leave command
that names it or by the end of the connection. -/
def Owned (moment : Moment State Event Output) : Prop :=
  ∀ ip owner, moment.before.lobbyList.get? ip = some owner → moment.after.lobbyList.get? ip ≠ some owner →
    moment.event = .finish owner ∨
      ∃ data accepts, moment.event = .receive owner data accepts ∧ Asks data .leave ip

/-- The end of a handler and a leave command are the only steps that drop an
entry, and a leave command drops the entry it names. -/
theorem Steps.dropped (steps : Steps zlib state event after output) {ip : Str} {owner : Socket}
    (bound : state.lobbyList.get? ip = some owner) (gone : after.lobbyList.get? ip ≠ some owner) :
    event = .finish event.socket ∨
      ∃ data accepts, event = .receive event.socket data accepts ∧ Asks data .leave ip := by
  cases steps with
  | accept absent => exact absurd bound gone
  | @receive socket data accepts reaction running short same reacts =>
    refine Or.inr ⟨data, accepts, rfl, ?_⟩
    cases reacts with
    | @joined key asks valid free =>
      have different : ip ≠ key := by
        rintro rfl
        exact free (Dict.mem_keys_iff.mpr ⟨owner, Dict.get?_eq_some_iff.mp bound⟩)
      refine absurd ?_ gone
      change (Dict.set _ _ _).get? ip = _
      rw [Dict.get?_set, if_neg different]
      exact bound
    | @left key asks valid present member =>
      by_cases same : ip = key
      · exact same ▸ asks
      · refine absurd ?_ gone
        change (Dict.erase _ _).get? ip = _
        rw [Dict.get?_erase, if_neg same]
        exact bound
    | _ => exact absurd bound gone
  | fail running => exact absurd bound gone
  | finish ending found => exact Or.inl rfl
  | abandon ending outsider => exact absurd bound gone

theorem owned_iff {moment : Moment State Event Output} (legal : (system zlib).Legal moment) :
    Owned moment ↔ ¬ Trespass moment.before.lobbyList moment.event := by
  obtain ⟨before, event, output, after⟩ := moment
  constructor
  · intro owned trespass
    cases event with
    | receive socket data accepts =>
      obtain ⟨ip, owner, asks, valid, member, bound, other⟩ := trespass
      have present : ip ∈ before.lobbyList.keys := Dict.mem_keys_iff.mpr ⟨owner, Dict.get?_eq_some_iff.mp bound⟩
      have left : react zlib before.lobbyList socket data = .left ip := react_granted asks valid ⟨present, member⟩
      have gone : after.lobbyList.get? ip = none := by
        have steps : Steps zlib before (.receive socket data accepts) after output := legal_steps legal
        cases steps with
        | receive running short same reacts =>
          rw [← same, left]
          change (Dict.erase _ _).get? ip = none
          rw [Dict.get?_erase, if_pos rfl]
      rcases owned ip owner bound (by simp [gone]) with finished | ⟨_, _, received, _⟩
      · cases finished
      · cases received
        exact other rfl
    | accept | fail | finish => exact trespass
  · intro honest ip owner bound gone
    have steps : Steps zlib before event after output := legal_steps legal
    have same := (steps.move honest).lost bound gone
    rw [same]
    exact steps.dropped bound gone

/-- In every run, all entries respect ownership exactly when no registered
connection asked to leave under an address of another one. -/
theorem run_owned_iff {history : List (Moment State Event Output)} (run : (system zlib).Run history state) :
    (∀ moment ∈ history, Owned moment) ↔
      ∀ moment ∈ history, ¬ Trespass moment.before.lobbyList moment.event :=
  run.forall_iff (fun _ legal => owned_iff legal)

/-- Two connections join, then the second one leaves under the first one's
address. -/
def eviction : List Event :=
  [.accept 1, .accept 2, .receive 1 (bytes "command join 100.0.0.1") everyone,
   .receive 2 (bytes "command join 100.0.0.2") everyone, .receive 2 (bytes "command leave 100.0.0.1") everyone]

theorem run_owned_iff_eviction :
    (∀ moment ∈ ((system StoredZlib.zlib).play eviction).1, Owned moment) ↔
      ∀ moment ∈ ((system StoredZlib.zlib).play eviction).1, ¬ Trespass moment.before.lobbyList moment.event :=
  run_owned_iff ((system StoredZlib.zlib).run_play eviction)

theorem eviction_not_owned :
    (system StoredZlib.zlib).Run ((system StoredZlib.zlib).play eviction).1 ((system StoredZlib.zlib).play eviction).2 ∧
    ¬ ∀ moment ∈ ((system StoredZlib.zlib).play eviction).1, Owned moment := by
  refine ⟨(system StoredZlib.zlib).run_play eviction, ?_⟩
  intro owned
  have evicted := owned _ List.mem_cons_self "100.0.0.1".toList 1 (by decide) (by decide)
  rcases evicted with finished | ⟨_, _, received, _⟩
  · cases finished
  · cases received

/-- What a connection without an entry may do: write to itself, and bind one
free valid address to itself. -/
structure Harmless (socket : Socket) (before after : Lobby) (sent : List (Socket × Bytes)) : Prop where
  quiet : ∀ message ∈ sent, message.1 = socket
  kept : ∀ ip owner, before.get? ip = some owner → after.get? ip = some owner
  grown : after = before ∨ ∃ ip, isValidIpv4 ip = .ok true ∧ ip ∉ before.keys ∧ after = before.set ip socket

theorem Harmless.unchanged {socket : Socket} {lobbyList : Lobby} {sent : List (Socket × Bytes)}
    (quiet : ∀ message ∈ sent, message.1 = socket) : Harmless socket lobbyList lobbyList sent :=
  ⟨quiet, fun _ _ bound => bound, Or.inl rfl⟩

theorem Harmless.insertion {socket : Socket} {lobbyList : Lobby} {sent : List (Socket × Bytes)} {ip : Str}
    (quiet : ∀ message ∈ sent, message.1 = socket) (valid : isValidIpv4 ip = .ok true) (free : ip ∉ lobbyList.keys) :
    Harmless socket lobbyList (lobbyList.set ip socket) sent := by
  refine ⟨quiet, ?_, Or.inr ⟨ip, valid, free, rfl⟩⟩
  intro other owner bound
  have different : other ≠ ip := by
    rintro rfl
    exact free (Dict.mem_keys_iff.mpr ⟨owner, Dict.get?_eq_some_iff.mp bound⟩)
  rw [Dict.get?_set, if_neg different]
  exact bound

theorem Reaction.sent_to {reaction : Reaction} {accepts : Socket → Bool} {socket : Socket} {data : Bytes}
    {lobbyList : Lobby} {closed : List Socket} (local' : ∀ ip target, reaction ≠ .forwarded ip target) :
    ∀ message ∈ reaction.sent accepts socket data lobbyList closed, message.1 = socket := by
  intro message member
  simp only [sent, Option.mem_toList, Option.filter_eq_some_iff] at member
  obtain ⟨outgoing, _⟩ := member
  cases reaction <;> simp only [Reaction.outgoing, reduceCtorEq, Option.some.injEq] at outgoing <;>
    first
    | exact absurd rfl (local' _ _)
    | (cases outgoing; rfl)

private theorem receive_harmless {socket : Socket} {data : Bytes} {accepts : Socket → Bool} {reaction : Reaction}
    {lobbyList : Lobby} {closed : List Socket} (reacts : Reacts zlib lobbyList socket data reaction)
    (outsider : ¬ Holds lobbyList socket) :
    Harmless socket lobbyList (reaction.lobby lobbyList socket)
      (reaction.sent accepts socket data lobbyList closed) := by
  have quiet : ∀ message ∈ reaction.sent accepts socket data lobbyList closed, message.1 = socket := by
    apply Reaction.sent_to
    rintro ip target rfl
    cases reacts with
    | forwarded member => exact outsider member
  cases reacts with
  | joined asks valid free => exact .insertion quiet valid free
  | left asks valid present member => exact absurd member outsider
  | _ => exact .unchanged quiet

private theorem step_harmless (stepped : step zlib state event = some (after, output))
    (outsider : ¬ Holds state.lobbyList event.socket) :
    Harmless event.socket state.lobbyList after.lobbyList output.sent := by
  cases steps_of_step stepped with
  | accept absent => exact .unchanged (by simp)
  | receive running short same reacts => exact receive_harmless reacts outsider
  | fail running => exact .unchanged (by simp)
  | finish ending found =>
    exact absurd ⟨_, Dict.get?_eq_some_iff.mpr (findDelkey_some found)⟩ outsider
  | abandon ending outside => exact .unchanged (by simp)

/-- A connection without an entry cannot interfere, neither by its step nor by
the cleanup that the step may lead to: a failed join is undone by it. -/
theorem outsider_harmless (stepped : step zlib state event = some (after, output))
    (outsider : ¬ Holds state.lobbyList event.socket) :
    Harmless event.socket state.lobbyList after.lobbyList output.sent ∧
    ∀ final last, step zlib after (.finish event.socket) = some (final, last) →
      Harmless event.socket state.lobbyList final.lobbyList (output.sent ++ last.sent) := by
  have harmless := step_harmless stepped outsider
  refine ⟨harmless, ?_⟩
  intro final last finished
  have silent : last.sent = [] := by
    cases steps_of_step finished <;> rfl
  have quiet : ∀ message ∈ output.sent ++ last.sent, message.1 = event.socket := by
    rw [silent, List.append_nil]
    exact harmless.quiet
  have restored : final.lobbyList = state.lobbyList ∨ final.lobbyList = after.lobbyList := by
    cases steps_of_step finished with
    | @finish _ key ending found =>
      have bound := findDelkey_some found
      rcases harmless.grown with same | ⟨ip, valid, free, added⟩
      · rw [same] at bound
        exact absurd ⟨key, Dict.get?_eq_some_iff.mpr bound⟩ outsider
      · rw [added, Dict.mem_items_set] at bound
        rcases bound with new | ⟨old, _⟩
        · cases new
          left
          change after.lobbyList.erase key = _
          rw [added, Dict.erase_set_of_absent _ _ free]
        · exact absurd ⟨key, Dict.get?_eq_some_iff.mpr old⟩ outsider
    | abandon ending outside => exact Or.inr rfl
  rcases restored with same | same
  · rw [same]
    exact .unchanged quiet
  · rw [same]
    exact ⟨quiet, harmless.kept, harmless.grown⟩

theorem outsider_harmless_visit :
    let visited := ((system StoredZlib.zlib).play [.accept 1, .accept 2,
      .receive 1 (bytes "command join 100.0.0.1") everyone]).2
    ∃ after output, step StoredZlib.zlib visited (.receive 2 (bytes "hello") everyone) = some (after, output) ∧
      Harmless 2 visited.lobbyList after.lobbyList output.sent ∧
      ∀ final last, step StoredZlib.zlib after (.finish 2) = some (final, last) →
        Harmless 2 visited.lobbyList final.lobbyList (output.sent ++ last.sent) := by
  refine ⟨_, _, rfl, ?_⟩
  exact @outsider_harmless _ _ _ (.receive 2 (bytes "hello") everyone) _ rfl
    (isClientJoin_eq_false_iff.mp (by decide))

end VirtualLan.Relay
