import VirtualLan.Upkeep
import VirtualLan.Proofs.ReplyCodec
import VirtualLan.Proofs.Sockets

/-! What a client remembers of its membership. Its lobby state is given up by the
background thread's reconnect but not by the user's, and the flag that says that
the user left is the one that makes the background thread join. -/

namespace VirtualLan.Peer
open Program
open Relay (Reply)

section Code
variable (accepts : Bool) (packet : Bytes) (world : World)

/-- A send of text concerns nothing but the flag and the socket. -/
theorem sendDataText_run : run (sendDataText accepts packet) world =
    (.ok (), { world with
      server := ⟨world.server.connected && accepts⟩
      sent := world.sent ++ if world.server.connected && accepts then [packet] else [] }) := by
  obtain ⟨⟨connected⟩, lobby, sent, injected⟩ := world
  cases connected <;> cases accepts <;> simp [sendDataText]

theorem joinRequest_run :
    run (joinRequest accepts) world = run (sendDataText accepts (bytes "command join " ++ world.lobby.myip)) world := by
  simp only [joinRequest, run_bind, run_get, andThen_ok]

theorem getLobbyMembers_run : run (getLobbyMembers accepts) world =
    run (sendDataText accepts (bytes "command list " ++ world.lobby.myip)) world := by
  simp only [getLobbyMembers, run_bind, run_get, andThen_ok]

theorem leaveLobby_run : (run (leaveLobby accepts) world).2 =
    let after := (run (sendDataText accepts (bytes "command leave " ++ world.lobby.myip)) world).2
    { after with lobby := { after.lobby with join := false } } := by
  simp [leaveLobby, sendDataText_run]

theorem reconnect_run (reaches : Bool) : run (reconnect reaches) world =
    (.ok (), { world with server := ⟨world.server.connected || reaches⟩ }) := by
  obtain ⟨⟨connected⟩, lobby, sent, injected⟩ := world
  cases reaches <;> simp [reconnect]

/-- The three branches of a round. -/
theorem checkConnection_run (reaches : Bool) : run (checkConnection reaches accepts) world =
    if world.server.connected then
      if world.lobby.join then (.ok false, (run (getLobbyMembers accepts) world).2)
      else (.ok true, (run (joinRequest accepts) world).2)
    else (.ok false, { world with server := ⟨reaches⟩, lobby := { world.lobby with memberList := [], join := false } }) := by
  obtain ⟨⟨connected⟩, ⟨memberList, myip, join⟩, sent, injected⟩ := world
  cases connected <;> cases join <;>
    simp [-bind_pure_comp, checkConnection, setMembers, setJoin, reconnect_run, joinRequest_run, getLobbyMembers_run,
      sendDataText_run]

end Code

/-- The flag follows the model of the sockets. -/
theorem reconnect_link {creates accepts : Bool} {link : Winsock.Link} {world : World}
    (same : world.server.connected = link.connected) :
    (run (reconnect (link.reaches creates accepts)) world).2.server.connected =
      (link.reconnect creates accepts).connected := by
  rw [reconnect_run]
  cases reached : link.reaches creates accepts with
  | true => simp [(Winsock.reconnect_reached reached).1]
  | false => simp [(Winsock.reconnect_missed reached).1, same]

namespace Device

variable {device after : Device} {action : Action} {sent : List Bytes} {connected : Bool} {myip : Bytes}

@[simp] theorem act_sendDataText (accepts : Bool) (packet : Bytes) : device.act (sendDataText accepts packet) =
    ({ device with world := { device.world with server := ⟨device.world.server.connected && accepts⟩, sent := [] } },
      if device.world.server.connected && accepts then [packet] else []) := by
  simp [act, sendDataText_run]

@[simp] theorem act_joinRequest (accepts : Bool) : device.act (joinRequest accepts) =
    device.act (sendDataText accepts (bytes "command join " ++ device.world.lobby.myip)) := by
  simp only [act, joinRequest_run]

@[simp] theorem act_getLobbyMembers (accepts : Bool) : device.act (getLobbyMembers accepts) =
    device.act (sendDataText accepts (bytes "command list " ++ device.world.lobby.myip)) := by
  simp only [act, getLobbyMembers_run]

@[simp] theorem act_reconnect (reaches : Bool) : device.act (Peer.reconnect reaches) =
    ({ device with world := { device.world with server := ⟨device.world.server.connected || reaches⟩, sent := [] } },
      []) := by
  simp [act, reconnect_run]

theorem act_leaveLobby (accepts : Bool) : device.act (leaveLobby accepts) =
    let (after, sent) := device.act (sendDataText accepts (bytes "command leave " ++ device.world.lobby.myip))
    ({ after with world := { after.world with lobby := { after.world.lobby with join := false } } }, sent) := by
  simp [act, leaveLobby_run, sendDataText_run]

theorem act_reply (answer : Reply) : device.act (handleResponse answer.bytes) =
    ({ device with world := { device.world with
      lobby := (meaning answer).apply device.world.lobby, sent := [] } }, []) := by
  simp [act, handleResponse_reply]

/-- What an action makes of the lobby. -/
def lobbyAfter (device : Device) : Action → Lobby
  | .check _ _ =>
    if device.world.server.connected then device.world.lobby
    else { device.world.lobby with memberList := [], join := false }
  | .leave _ => { device.world.lobby with join := false }
  | .reply answer => (meaning answer).apply device.world.lobby
  | .join _ | .members _ | .reconnect _ | .text _ _ | .drop => device.world.lobby

def welcomedAfter (device : Device) : Action → Bool
  | .check _ _ => device.world.server.connected && device.welcomed
  | .reconnect _ => false
  | .reply answer => device.welcomed || welcomes answer
  | .join _ | .members _ | .leave _ | .text _ _ | .drop => device.welcomed

/-- The message that an action puts on a working connection. -/
def message (device : Device) : Action → Option Bytes
  | .check _ _ =>
    if device.world.server.connected then
      if device.world.lobby.join then some (bytes "command list " ++ device.world.lobby.myip)
      else some (bytes "command join " ++ device.world.lobby.myip)
    else none
  | .join _ => some (bytes "command join " ++ device.world.lobby.myip)
  | .members _ => some (bytes "command list " ++ device.world.lobby.myip)
  | .leave _ => some (bytes "command leave " ++ device.world.lobby.myip)
  | .text word _ => some word
  | .reconnect _ | .reply _ | .drop => none

def Awaits (device : Device) : Action → Prop
  | .reply answer => device.Expects answer
  | .check _ _ | .join _ | .members _ | .leave _ | .reconnect _ | .text _ _ | .drop => True

/-- What the results about runs need to know of an action. -/
structure Effect (device : Device) (action : Action) (after : Device) (sent : List Bytes) : Prop where
  lobby : after.world.lobby = device.lobbyAfter action
  welcomed : after.welcomed = device.welcomedAfter action
  expected : device.Awaits action
  sent : ∀ data ∈ sent, device.message action = some data

theorem step_check {reaches accepts : Bool} (stepped : step device (.check reaches accepts) = some (after, sent)) :
    Effect device (.check reaches accepts) after sent := by
  simp only [step, act, checkConnection_run] at stepped
  split at stepped
  next online =>
    split at stepped
    next inside =>
      cases stepped
      refine ⟨?_, ?_, trivial, ?_⟩
      · simp [lobbyAfter, online, getLobbyMembers_run, sendDataText_run]
      · simp [welcomedAfter, online]
      · intro data member
        simp only [getLobbyMembers_run, sendDataText_run, List.nil_append, List.mem_ite_nil_right,
          List.mem_singleton] at member
        rw [message, if_pos online, if_pos inside, member.2]
    next outside =>
      cases stepped
      refine ⟨?_, ?_, trivial, ?_⟩
      · simp [lobbyAfter, online, joinRequest_run, sendDataText_run]
      · simp [welcomedAfter, online]
      · intro data member
        simp only [joinRequest_run, sendDataText_run, List.nil_append, List.mem_ite_nil_right,
          List.mem_singleton] at member
        rw [message, if_pos online, if_neg outside, member.2]
  next offline =>
    cases stepped
    refine ⟨?_, ?_, trivial, fun _ member => absurd member List.not_mem_nil⟩
    · simp [lobbyAfter, offline]
    · simp [welcomedAfter, offline]

theorem step_effect (stepped : step device action = some (after, sent)) : Effect device action after sent := by
  cases action with
  | check reaches accepts => exact step_check stepped
  | join accepts | members accepts | leave accepts =>
    simp only [step, act_joinRequest, act_getLobbyMembers, act_leaveLobby, act_sendDataText] at stepped
    cases stepped
    refine ⟨rfl, rfl, trivial, ?_⟩
    intro data member
    rw [List.mem_ite_nil_right, List.mem_singleton] at member
    rw [message, member.2]
  | text word accepts =>
    simp only [step, act_sendDataText, Option.ite_none_left_eq_some, Option.some.injEq] at stepped
    obtain ⟨_, same⟩ := stepped
    cases same
    refine ⟨rfl, rfl, trivial, ?_⟩
    intro data member
    rw [List.mem_ite_nil_right, List.mem_singleton] at member
    rw [message, member.2]
  | reconnect reaches =>
    simp only [step, act_reconnect] at stepped
    cases stepped
    exact ⟨rfl, rfl, trivial, fun _ member => absurd member List.not_mem_nil⟩
  | reply answer =>
    simp only [step, act_reply, Option.ite_none_right_eq_some, Option.some.injEq] at stepped
    obtain ⟨⟨_, _, expected⟩, same⟩ := stepped
    cases same
    exact ⟨rfl, rfl, expected, fun _ member => absurd member List.not_mem_nil⟩
  | drop =>
    simp only [step, Option.ite_none_right_eq_some, Option.some.injEq] at stepped
    obtain ⟨_, same⟩ := stepped
    cases same
    exact ⟨rfl, rfl, trivial, fun _ member => absurd member List.not_mem_nil⟩

def Clean (lobby : Lobby) : Prop := lobby.join = false ∧ lobby.memberList = []

/-- Until a join is confirmed on the current connection, the client knows of no
membership and of no members. -/
def Current (device : Device) : Prop := device.welcomed = false → Clean device.world.lobby

theorem reply_clean {answer : Reply} {lobby : Lobby} (clean : Clean lobby) (early : welcomes answer = false)
    (unlisted : ∀ keys, answer ≠ .listed keys) : Clean ((meaning answer).apply lobby) := by
  cases answer with
  | joined => cases early
  | listed keys => exact absurd rfl (unlisted keys)
  | left => exact ⟨rfl, rfl⟩
  | refused => exact clean
  | error => exact ⟨rfl, clean.2⟩

theorem step_current (current : Current device)
    (clean : ∀ reaches, action = .reconnect reaches → Clean device.world.lobby)
    (stepped : step device action = some (after, sent)) : Current after := by
  obtain ⟨lobby, welcomed, expected, _⟩ := step_effect stepped
  intro early
  rw [welcomed] at early
  rw [lobby]
  cases action with
  | check reaches accepts =>
    cases online : device.world.server.connected with
    | false =>
      rw [lobbyAfter, online, if_neg Bool.false_ne_true]
      exact ⟨rfl, rfl⟩
    | true =>
      rw [welcomedAfter, online, Bool.true_and] at early
      rw [lobbyAfter, online, if_pos rfl]
      exact current early
  | leave accepts => exact ⟨rfl, (current early).2⟩
  | reconnect reaches => exact clean reaches rfl
  | reply answer =>
    obtain ⟨before, silent⟩ := Bool.or_eq_false_iff.mp early
    refine reply_clean (current before) silent ?_
    rintro keys rfl
    cases before.symm.trans expected
  | join | members | text | drop => exact current early

/-- The user's reconnect keeps what the lobby says. -/
theorem step_reconnect {reaches : Bool} (stepped : step device (.reconnect reaches) = some (after, sent)) :
    after.welcomed = false ∧ after.world.lobby = device.world.lobby :=
  ⟨(step_effect stepped).welcomed, (step_effect stepped).lobby⟩

variable {history : List (Moment Device Action (List Bytes))}

/-- In every run, the lobby state belongs to the current connection in every
state exactly when the user reconnects only without a membership and members. -/
theorem run_current_iff (run : (system connected myip).Run history device) :
    (∀ passed ∈ System.visited history device, Current passed) ↔
      ∀ moment ∈ history, ∀ reaches, moment.event = .reconnect reaches → Clean moment.before.world.lobby := by
  refine run.visited_iff Current (fun _ => ⟨rfl, rfl⟩) ?_
  intro moment legal current
  constructor
  · intro later reaches event
    have stepped : step moment.before moment.event = some (moment.after, moment.output) := legal
    rw [event] at stepped
    obtain ⟨early, same⟩ := step_reconnect stepped
    exact same ▸ later early
  · exact fun clean => step_current current clean legal

/-- The user joins, hears of it, and then reconnects. -/
def reunion : List Action := [.join true, .reply .joined, .reconnect true]

theorem run_current_iff_reunion :
    (∀ passed ∈ System.visited ((system true (bytes "100.0.0.1")).play reunion).1
      ((system true (bytes "100.0.0.1")).play reunion).2, Current passed) ↔
      ∀ moment ∈ ((system true (bytes "100.0.0.1")).play reunion).1, ∀ reaches,
        moment.event = .reconnect reaches → Clean moment.before.world.lobby :=
  run_current_iff ((system true (bytes "100.0.0.1")).run_play reunion)

private theorem reunion_played (myip : Bytes) : ((system true myip).play reunion).2 =
    ⟨⟨⟨true⟩, ⟨[], myip, true⟩, [], []⟩, true, false, false⟩ := by
  simp [reunion, System.play, System.playFrom, system, start, step, act_reply, Expects, welcomes, meaning,
    Response.apply]

theorem reunion_not_current :
    (system true (bytes "100.0.0.1")).Reachable ((system true (bytes "100.0.0.1")).play reunion).2 ∧
    ((system true (bytes "100.0.0.1")).play reunion).2.world.server.connected = true ∧
    ¬ Current ((system true (bytes "100.0.0.1")).play reunion).2 := by
  refine ⟨(system true (bytes "100.0.0.1")).reachable_play reunion, ?_⟩
  rw [reunion_played]
  refine ⟨rfl, ?_⟩
  intro current
  cases (current rfl).1

private theorem join_apart : ¬ bytes "command join" <+: bytes "command list " ∧
    ¬ bytes "command join" <+: bytes "command leave " ∧
    (bytes "command join").length ≤ (bytes "command list ").length ∧
    (bytes "command join").length ≤ (bytes "command leave ").length ∧ (0x20 : UInt8) ∈ bytes "command join" := by
  decide

/-- While the user has left, the client sends no join command. -/
def Respectful (moment : Moment Device Action (List Bytes)) : Prop :=
  moment.after.left = true → ∀ data ∈ moment.output, ¬ bytes "command join" <+: data

/-- A round of the background thread, on a working connection, finds the flag
cleared although it was the user who cleared it. -/
def Rejoins (device : Device) : Action → Prop
  | .check _ accepts => device.left = true ∧ device.world.server.connected = true ∧
      device.world.lobby.join = false ∧ (accepts && device.live) = true
  | _ => False

theorem not_join {line rest : Bytes} (apart : ¬ bytes "command join" <+: line)
    (long : (bytes "command join").length ≤ line.length) : ¬ bytes "command join" <+: line ++ rest :=
  fun inside => apart (List.prefix_of_prefix_length_le inside (List.prefix_append line rest) long)

/-- A round that finds the flag cleared on a connected client. -/
theorem step_check_outside {reaches accepts : Bool} (online : device.world.server.connected = true)
    (outside : device.world.lobby.join = false) (stepped : step device (.check reaches accepts) = some (after, sent)) :
    after.left = device.left ∧
      sent = if accepts && device.live then [bytes "command join " ++ device.world.lobby.myip] else [] := by
  simp only [step, act, checkConnection_run, joinRequest_run, sendDataText_run, online, outside, if_true,
    Bool.false_eq_true, if_false] at stepped
  cases stepped
  exact ⟨rfl, by simp⟩

theorem step_respectful (calm : ¬ Rejoins device action) (stepped : step device action = some (after, sent)) :
    after.left = true → ∀ data ∈ sent, ¬ bytes "command join" <+: data := by
  obtain ⟨listApart, leaveApart, listLong, leaveLong, space⟩ := join_apart
  intro left data member
  have said := (step_effect stepped).sent data member
  cases action with
  | check reaches accepts =>
    cases online : device.world.server.connected with
    | false => simp [message, online] at said
    | true =>
      cases inside : device.world.lobby.join with
      | true =>
        simp only [message, online, inside, if_true, Option.some.injEq] at said
        rw [← said]
        exact not_join listApart listLong
      | false =>
        obtain ⟨same, output⟩ := step_check_outside online inside stepped
        rw [output, List.mem_ite_nil_right] at member
        exact absurd ⟨same ▸ left, online, inside, member.1⟩ calm
  | join accepts =>
    simp only [step, act_joinRequest, act_sendDataText] at stepped
    cases stepped
    cases left
  | members accepts =>
    cases said
    exact not_join listApart listLong
  | leave accepts =>
    cases said
    exact not_join leaveApart leaveLong
  | text word accepts =>
    cases said
    have solid : (0x20 : UInt8) ∉ data := by
      intro blank
      simp [step, blank] at stepped
    exact fun inside => solid (inside.subset space)
  | reconnect | reply | drop => cases said

theorem step_rejoins (rejoins : Rejoins device action) (stepped : step device action = some (after, sent)) :
    after.left = true ∧ ∃ data ∈ sent, bytes "command join" <+: data := by
  cases action with
  | check reaches accepts =>
    obtain ⟨left, online, outside, taken⟩ := rejoins
    obtain ⟨same, output⟩ := step_check_outside online outside stepped
    refine ⟨same.trans left, bytes "command join " ++ device.world.lobby.myip, ?_, ?_⟩
    · rw [output, if_pos taken]
      exact List.mem_singleton_self _
    · have line : bytes "command join" <+: bytes "command join " := by decide
      exact line.trans (List.prefix_append _ _)
  | join | members | leave | reconnect | text | reply | drop => exact rejoins.elim

/-- In every run, leaving is respected exactly when no round of the background
thread runs on a working connection with the flag cleared by the user. -/
theorem run_respectful_iff (run : (system connected myip).Run history device) :
    (∀ moment ∈ history, Respectful moment) ↔ ∀ moment ∈ history, ¬ Rejoins moment.before moment.event := by
  apply run.forall_iff
  intro moment legal
  constructor
  · intro respectful rejoins
    obtain ⟨left, data, member, join⟩ := step_rejoins rejoins legal
    exact respectful left data member join
  · exact fun calm => step_respectful calm legal

/-- The user leaves, and ten seconds later the background thread looks. -/
def farewell : List Action := [.join true, .leave true, .check true true]

theorem run_respectful_iff_farewell :
    (∀ moment ∈ ((system true (bytes "100.0.0.1")).play farewell).1, Respectful moment) ↔
      ∀ moment ∈ ((system true (bytes "100.0.0.1")).play farewell).1, ¬ Rejoins moment.before moment.event :=
  run_respectful_iff ((system true (bytes "100.0.0.1")).run_play farewell)

theorem farewell_not_respectful :
    (system true (bytes "100.0.0.1")).Run ((system true (bytes "100.0.0.1")).play farewell).1
      ((system true (bytes "100.0.0.1")).play farewell).2 ∧
    ¬ ∀ moment ∈ ((system true (bytes "100.0.0.1")).play farewell).1, Respectful moment := by
  refine ⟨(system true (bytes "100.0.0.1")).run_play farewell, ?_⟩
  intro respectful
  have silent := respectful _ List.mem_cons_self (by decide) (bytes "command join 100.0.0.1") (by decide)
  revert silent
  decide

end Device

end VirtualLan.Peer
