import VirtualLan.Proofs.LobbyOwnership

/-! How connections end. The cleanup of a handler deletes the first entry of its
socket, so it is complete for connections with exactly one entry and only then. -/

namespace VirtualLan.Relay

variable {zlib : Zlib} {state after : State} {event : Event} {output : Output}

/-- Every bound socket belongs to a handler that has not ended. -/
def Alive (state : State) : Prop :=
  ∀ ip socket, state.lobbyList.get? ip = some socket → state.phase socket = .running ∨ state.phase socket = .ending

def Single (lobbyList : Lobby) (socket : Socket) : Prop :=
  ∀ first second, lobbyList.get? first = some socket → lobbyList.get? second = some socket → first = second

/-- The condition under which a handler's end leaves nothing behind. -/
def EndsSingle (moment : Moment State Event Output) : Prop :=
  ∀ socket, moment.event = .finish socket → Single moment.before.lobbyList socket

/-- A handler's phase is changed by its own steps only. -/
theorem Steps.phase_other (steps : Steps zlib state event after output) {socket : Socket}
    (other : socket ≠ event.socket) : after.phase socket = state.phase socket := by
  cases steps <;> exact Function.update_of_ne other _ _

private theorem phaseAfter_alive (raised : Option Exn) (continues : Bool) :
    phaseAfter raised continues = .running ∨ phaseAfter raised continues = .ending := by
  unfold phaseAfter
  split
  · exact Or.inl rfl
  · exact Or.inr rfl

theorem Steps.alive (steps : Steps zlib state event after output) (alive : Alive state)
    (single : ∀ socket, event = .finish socket → Single state.lobbyList socket) : Alive after := by
  intro ip socket bound
  by_cases own : socket = event.socket
  · cases steps with
    | accept absent =>
      subst own
      exact Or.inl (Function.update_self ..)
    | receive running short same reacts =>
      subst own
      change Function.update _ _ _ _ = _ ∨ Function.update _ _ _ _ = _
      rw [Function.update_self]
      exact phaseAfter_alive _ _
    | fail running =>
      subst own
      exact Or.inr (Function.update_self ..)
    | finish ending found =>
      subst own
      obtain ⟨different, kept⟩ := Dict.get?_of_erase bound
      have first := Dict.get?_eq_some_iff.mpr (findDelkey_some found)
      exact absurd (single _ rfl _ _ kept first) different
    | abandon ending outsider =>
      subst own
      exact absurd ⟨ip, bound⟩ outsider
  · rw [steps.phase_other own]
    rcases steps.claims bound with old | ⟨new, _⟩
    · exact alive ip socket old
    · exact absurd new own

/-- A handler that ends with two addresses leaves one of them behind. -/
theorem finish_leaves {socket : Socket} (stepped : step zlib state (.finish socket) = some (after, output))
    (several : ¬ Single state.lobbyList socket) : ¬ Alive after := by
  simp only [Single, not_forall] at several
  obtain ⟨first, second, boundFirst, boundSecond, different⟩ := several
  have survivor : ∃ ip, after.lobbyList.get? ip = some socket := by
    cases steps_of_step stepped with
    | @finish _ key ending found =>
      change ∃ ip, (Dict.erase _ _).get? ip = _
      by_cases same : first = key
      · refine ⟨second, ?_⟩
        rw [Dict.get?_erase, if_neg (fun equal => different (same.trans equal.symm))]
        exact boundSecond
      · refine ⟨first, ?_⟩
        rw [Dict.get?_erase, if_neg same]
        exact boundFirst
    | abandon ending outsider => exact absurd ⟨first, boundFirst⟩ outsider
  have ended : after.phase socket = .ended := by
    cases steps_of_step stepped <;> exact Function.update_self ..
  obtain ⟨ip, bound⟩ := survivor
  intro alive
  rcases alive ip socket bound with running | ending
  · rw [ended] at running
    cases running
  · rw [ended] at ending
    cases ending

/-- In every run, no state on the way has a dead entry exactly when every
handler held at most one address at its end. -/
theorem run_alive_iff {history : List (Moment State Event Output)} (run : (system zlib).Run history state) :
    (∀ passed ∈ System.visited history state, Alive passed) ↔ ∀ moment ∈ history, EndsSingle moment := by
  refine run.visited_iff Alive ?_ ?_
  · intro ip socket bound
    cases bound
  · intro moment legal alive
    constructor
    · intro later socket finished
      by_contra several
      have stepped : step zlib moment.before moment.event = _ := legal
      rw [finished] at stepped
      exact finish_leaves stepped several later
    · exact (legal_steps legal).alive alive

/-- One connection joins under two addresses and hangs up. -/
def doubleJoin : List Event :=
  [.accept 1, .receive 1 (bytes "command join 100.0.0.1") everyone,
   .receive 1 (bytes "command join 100.0.0.2") everyone, .receive 1 [] everyone, .finish 1]

theorem run_alive_iff_doubleJoin :
    (∀ passed ∈ System.visited ((system StoredZlib.zlib).play doubleJoin).1 ((system StoredZlib.zlib).play doubleJoin).2,
      Alive passed) ↔ ∀ moment ∈ ((system StoredZlib.zlib).play doubleJoin).1, EndsSingle moment :=
  run_alive_iff ((system StoredZlib.zlib).run_play doubleJoin)

theorem doubleJoin_dead :
    (system StoredZlib.zlib).Reachable ((system StoredZlib.zlib).play doubleJoin).2 ∧
    ¬ Alive ((system StoredZlib.zlib).play doubleJoin).2 := by
  refine ⟨(system StoredZlib.zlib).reachable_play doubleJoin, ?_⟩
  intro alive
  have phase := alive "100.0.0.2".toList 1 (by decide)
  revert phase
  decide

/-- Only the cleanup closes a socket. -/
theorem reachable_closed {relay : State} (reached : (system zlib).Reachable relay) :
    ∀ socket ∈ relay.closed, relay.phase socket = .ended := by
  apply reached.invariant fun relay => ∀ socket ∈ relay.closed, relay.phase socket = .ended
  · exact nofun
  · intro before event after output kept stepped socket member
    have steps := steps_of_step stepped
    by_cases own : socket = event.socket
    · subst own
      cases steps with
      | accept absent => cases absent.symm.trans (kept _ member)
      | receive running => cases running.symm.trans (kept _ member)
      | fail running => cases running.symm.trans (kept _ member)
      | finish | abandon => exact Function.update_self ..
    · rw [steps.phase_other own]
      apply kept
      cases steps with
      | finish => exact (List.mem_cons.mp member).resolve_left own
      | _ => exact member

def Completes (moment : Moment State Event Output) : Prop :=
  ∀ socket, moment.event = .finish socket → moment.output.raised = none ∧ socket ∈ moment.after.closed

theorem completes_iff {moment : Moment State Event Output} (legal : (system zlib).Legal moment) :
    Completes moment ↔ ∀ socket, moment.event = .finish socket → Holds moment.before.lobbyList socket := by
  obtain ⟨before, event, output, after⟩ := moment
  have steps : Steps zlib before event after output := legal_steps legal
  constructor
  · intro completes socket finished
    have result := completes socket finished
    cases finished
    cases steps with
    | finish ending found => exact ⟨_, Dict.get?_eq_some_iff.mpr (findDelkey_some found)⟩
    | abandon ending outsider => cases result.1
  · intro registered socket finished
    have member := registered socket finished
    cases finished
    cases steps with
    | finish ending found => exact ⟨rfl, List.mem_cons_self⟩
    | abandon ending outsider => exact absurd member outsider

/-- In every run, every handler's cleanup completes exactly when every handler
still has an entry at its end. -/
theorem run_completes_iff {history : List (Moment State Event Output)} (run : (system zlib).Run history state) :
    (∀ moment ∈ history, Completes moment) ↔
      ∀ moment ∈ history, ∀ socket, moment.event = .finish socket → Holds moment.before.lobbyList socket :=
  run.forall_iff (fun _ legal => completes_iff legal)

/-- A connection that never joins hangs up. -/
def visit : List Event := [.accept 1, .receive 1 [] everyone, .finish 1]

theorem run_completes_iff_visit :
    (∀ moment ∈ ((system StoredZlib.zlib).play visit).1, Completes moment) ↔
      ∀ moment ∈ ((system StoredZlib.zlib).play visit).1, ∀ socket, moment.event = .finish socket →
        Holds moment.before.lobbyList socket :=
  run_completes_iff ((system StoredZlib.zlib).run_play visit)

theorem visit_not_completes :
    (system StoredZlib.zlib).Run ((system StoredZlib.zlib).play visit).1 ((system StoredZlib.zlib).play visit).2 ∧
    ¬ ∀ moment ∈ ((system StoredZlib.zlib).play visit).1, Completes moment := by
  refine ⟨(system StoredZlib.zlib).run_play visit, ?_⟩
  intro completes
  have result := (completes _ List.mem_cons_self 1 rfl).1
  revert result
  decide

def Undisturbed (before after : State) (socket : Socket) : Prop :=
  after.phase socket = .running ∧
    ∀ ip, after.lobbyList.get? ip = some socket ↔ before.lobbyList.get? ip = some socket

theorem finish_disturbs {socket : Socket} (stepped : step zlib state (.finish socket) = some (after, output))
    (member : Holds state.lobbyList socket) : after.phase socket = .ended ∧
      ∃ lost, state.lobbyList.get? lost = some socket ∧ after.lobbyList.get? lost ≠ some socket := by
  cases steps_of_step stepped with
  | @finish _ key ending found =>
    refine ⟨Function.update_self .., key, Dict.get?_eq_some_iff.mpr (findDelkey_some found), ?_⟩
    intro kept
    exact (Dict.get?_of_erase kept).1 rfl
  | abandon ending outsider => exact absurd member outsider

/-- A send that fails at the receiver ends the sender's handler on the spot and
then costs the sender an entry, whatever the state and the packet are. -/
theorem broken_receiver_disturbs {sender target : Socket} {data packet : Bytes} {ip : Str} {accepts : Socket → Bool}
    (stepped : step zlib state (.receive sender data accepts) = some (after, output))
    (message : data ≠ []) (member : Holds state.lobbyList sender)
    (payload : (bytes "command").isPrefixOf data = false) (decoded : zlib.decompress data = some packet)
    (addressed : getDestinationIp packet = .ok (some ip)) (bound : state.lobbyList.get? ip = some target)
    (broken : takes accepts state.closed (target, data) = false) :
    after.phase sender = .ending ∧ ¬ Undisturbed state after sender ∧
    ∀ final last, step zlib after (.finish sender) = some (final, last) →
      ¬ Undisturbed state final sender ∧
      ∃ lost, state.lobbyList.get? lost = some sender ∧ final.lobbyList.get? lost ≠ some sender := by
  have forwarded := react_forwarded message member payload decoded addressed bound
  have shape : after = (Reaction.forwarded ip target).after accepts sender data state := by
    cases steps_of_step stepped with
    | receive running short same reacts => rw [← same, forwarded]
  have raised : ((Reaction.forwarded ip target).output accepts sender data state).raised = some .osError := by
    simp [Reaction.output, Reaction.raised, Reaction.outgoing, broken]
  have ending : after.phase sender = .ending := by
    rw [shape, Reaction.after, raised]
    exact Function.update_self ..
  have kept : after.lobbyList = state.lobbyList := by
    rw [shape]
    rfl
  refine ⟨ending, ?_, ?_⟩
  · intro undisturbed
    rw [undisturbed.1] at ending
    cases ending
  · intro final last finished
    obtain ⟨ended, lost, held, gone⟩ := finish_disturbs finished (kept ▸ member)
    rw [kept] at held
    refine ⟨?_, lost, held, gone⟩
    intro undisturbed
    rw [undisturbed.1] at ended
    cases ended

def greeting : Bytes := [0x45, 0, 0, 20, 0, 0, 0, 0, 64, 17, 0, 0, 100, 0, 0, 1, 100, 0, 0, 2]

/-- Two connections join, and then the second one stops taking bytes. -/
def pair : List Event :=
  [.accept 1, .accept 2, .receive 1 (bytes "command join 100.0.0.1") everyone,
   .receive 2 (bytes "command join 100.0.0.2") everyone]

theorem broken_receiver_disturbs_pair :
    let before := ((system StoredZlib.zlib).play pair).2
    ∃ after output,
      step StoredZlib.zlib before (.receive 1 (StoredZlib.deflate greeting) (· != 2)) = some (after, output) ∧
      after.phase 1 = .ending ∧ ¬ Undisturbed before after 1 ∧
      ∀ final last, step StoredZlib.zlib after (.finish 1) = some (final, last) →
        ¬ Undisturbed before final 1 ∧
        ∃ lost, before.lobbyList.get? lost = some 1 ∧ final.lobbyList.get? lost ≠ some 1 := by
  refine ⟨_, _, rfl, ?_⟩
  exact @broken_receiver_disturbs StoredZlib.zlib _ _ _ 1 2 (StoredZlib.deflate greeting) greeting
    "100.0.0.2".toList (· != 2) rfl (by decide) (isClientJoin_iff.mp (by decide)) (by decide) (by decide) (by decide)
    (by decide) (by decide)

/-- The reset of the second connection ends the first one. -/
theorem pair_not_undisturbed :
    let before := ((system StoredZlib.zlib).play pair).2
    (system StoredZlib.zlib).Reachable before ∧ Holds before.lobbyList 1 ∧
    before.lobbyList.get? "100.0.0.2".toList = some 2 ∧
    ¬ ∀ after output,
      step StoredZlib.zlib before (.receive 1 (StoredZlib.deflate greeting) (· != 2)) = some (after, output) →
      Undisturbed before after 1 := by
  refine ⟨(system StoredZlib.zlib).reachable_play pair, isClientJoin_iff.mp (by decide), by decide, ?_⟩
  intro undisturbed
  have running := (undisturbed _ _ rfl).1
  revert running
  decide

end VirtualLan.Relay
