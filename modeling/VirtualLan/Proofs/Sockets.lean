import VirtualLan.Winsock

/-! What the connection flag and the startup count of a client are worth. Every
operation is described by its effect on the flag and on the current socket, and
the results about runs follow from that. -/

namespace VirtualLan.Winsock
open Link

variable {link : Link} {creates accepts : Bool}

theorem mark_eq (link : Link) (status : Status) :
    link.mark status = { link with status := (link.mark status).status } := by
  unfold mark
  split <;> rfl

@[simp] theorem mark_clientSocket (status : Status) : (link.mark status).clientSocket = link.clientSocket := by
  rw [mark_eq]

@[simp] theorem mark_connected (status : Status) : (link.mark status).connected = link.connected := by
  rw [mark_eq]

@[simp] theorem mark_started (status : Status) : (link.mark status).started = link.started := by
  rw [mark_eq]
  rfl

theorem mark_current (status : Status) {handle : Nat} (socket : link.clientSocket = some handle) :
    (link.mark status).current = status := by
  simp [mark, current, socket]

theorem closeOld_eq (link : Link) :
    link.closeOld = { link with status := link.closeOld.status, clientSocket := none } := by
  unfold closeOld closesocket
  cases socket : link.clientSocket with
  | none =>
    obtain ⟨startups, cleanups, status, next, clientSocket, connected⟩ := link
    cases socket
    rfl
  | some handle =>
    rw [Option.isSome_some, if_pos rfl, mark_eq]

/-- A reconnect gets its connection. -/
def Link.reaches (creates accepts : Bool) (link : Link) : Bool := creates && link.started && accepts

theorem reconnect_reached (reached : link.reaches creates accepts = true) :
    (link.reconnect creates accepts).connected = true ∧ (link.reconnect creates accepts).current = .connected := by
  simp only [reaches, Bool.and_eq_true] at reached
  obtain ⟨⟨rfl, ready⟩, rfl⟩ := reached
  have same : link.closeOld.started = link.started := by
    rw [closeOld_eq]
    rfl
  simp [reconnect, createSocket, same, ready, connect, current, mark]

theorem reconnect_missed (missed : link.reaches creates accepts = false) :
    (link.reconnect creates accepts).connected = link.connected ∧
      (link.reconnect creates accepts).clientSocket = none := by
  have same : link.closeOld.started = link.started := by
    rw [closeOld_eq]
    rfl
  have kept : link.closeOld.connected = link.connected := by rw [closeOld_eq]
  cases ready : creates && link.started with
  | false => simp [reconnect, createSocket, same, ready, kept]
  | true =>
    rw [reaches, ready, Bool.true_and] at missed
    subst missed
    simp [reconnect, createSocket, same, ready, kept, connect, closesocket]

theorem reconnect_started (creates accepts : Bool) (link : Link) :
    (link.reconnect creates accepts).started = link.started := by
  have same : link.closeOld.started = link.started := by
    rw [closeOld_eq]
    rfl
  have created : (link.closeOld.createSocket creates).started = link.closeOld.started := by
    unfold createSocket
    split <;> rfl
  unfold reconnect
  simp only
  split
  · rw [created, same]
  · unfold connect closesocket
    split
    next after failed =>
      split at failed
      · cases failed
      · cases failed
        rw [← same, ← created]
        exact mark_started _
    next after reached =>
      split at reached
      · cases reached
        rw [← same, ← created]
        exact mark_started _
      · cases reached

/-- The result of a call, and what it leaves of the socket. -/
theorem transfer_eq (succeeds : Bool) (link : Link) :
    (link.transfer succeeds).2 = { link with status := (link.transfer succeeds).2.status } := by
  unfold transfer
  split
  · rfl
  · split
    · rfl
    · exact mark_eq link _

theorem transfer_connected (healthy : link.current = .connected) : link.transfer true = (true, link) := by
  simp [transfer, healthy]

theorem transfer_failed (link : Link) :
    (link.transfer false).1 = false ∧ (link.transfer false).2.current ≠ .connected := by
  refine ⟨rfl, ?_⟩
  cases socket : link.clientSocket with
  | none => simp [transfer, current, socket]
  | some handle =>
    simp only [transfer, Bool.false_and, Bool.false_eq_true, if_false]
    split
    next closed =>
      rw [beq_iff_eq] at closed
      rw [closed]
      decide
    next =>
      rw [mark_current .broken socket]
      decide

theorem transfer_started (succeeds : Bool) (link : Link) : (link.transfer succeeds).2.started = link.started := by
  rw [transfer_eq]
  rfl

theorem checked_started (succeeds : Bool) (link : Link) : (link.checked succeeds).started = link.started := by
  unfold checked
  simp only
  split
  · exact transfer_started succeeds link
  · exact transfer_started succeeds link

theorem checked_connected {succeeds : Bool} (set : (link.checked succeeds).connected = true) :
    (link.transfer succeeds).1 = true ∧ link.connected = true ∧ link.checked succeeds = (link.transfer succeeds).2 := by
  unfold checked at set ⊢
  simp only at set ⊢
  split at set
  next succeeded =>
    rw [transfer_eq] at set
    exact ⟨succeeded, set, if_pos succeeded⟩
  next => cases set

theorem step_started (link : Link) (operation : Operation) : (step link operation).started = link.started := by
  cases operation with
  | reconnect creates accepts => exact reconnect_started creates accepts link
  | sendDataText accepts =>
    simp only [step, sendDataText]
    split
    · exact checked_started accepts link
    · rfl
  | sendData accepts =>
    simp only [step, sendData]
    split
    · exact transfer_started accepts link
    · rfl
  | listening received =>
    simp only [step, listening]
    split
    · cases received <;> exact checked_started _ link
    · rfl

/-- The flag is set only for a socket that was connected and has not reported an
error or the end of its stream since. -/
def Truthful (link : Link) : Prop := link.connected = true → link.current = .connected

theorem checked_truthful (truthful : Truthful link) (succeeds : Bool) : Truthful (link.checked succeeds) := by
  intro set
  obtain ⟨succeeded, flag, same⟩ := checked_connected set
  have healthy := truthful flag
  cases succeeds with
  | false => cases (transfer_failed link).1.symm.trans succeeded
  | true =>
    rw [same, transfer_connected healthy]
    exact healthy

/-- A reconnect that fails while the flag is set, or a packet whose send fails. -/
def Misleads (link : Link) : Operation → Prop
  | .reconnect creates accepts => link.connected = true ∧ link.reaches creates accepts = false
  | .sendData accepts => link.connected = true ∧ accepts = false
  | .sendDataText _ | .listening _ => False

theorem step_truthful (truthful : Truthful link) {operation : Operation} (honest : ¬ Misleads link operation) :
    Truthful (step link operation) := by
  cases operation with
  | reconnect creates accepts =>
    intro set
    cases reached : link.reaches creates accepts with
    | true => exact (reconnect_reached reached).2
    | false =>
      have kept := (reconnect_missed reached).1
      exact absurd ⟨kept ▸ set, reached⟩ honest
  | sendDataText accepts =>
    simp only [step, sendDataText]
    split
    · exact checked_truthful truthful accepts
    · exact truthful
  | sendData accepts =>
    simp only [step, sendData]
    split
    next flag =>
      cases accepts with
      | false => exact absurd ⟨flag, rfl⟩ honest
      | true =>
        rw [transfer_connected (truthful flag)]
        exact truthful
    next => exact truthful
  | listening received =>
    simp only [step, listening]
    split
    · cases received <;> exact checked_truthful truthful _
    · exact truthful

theorem step_misled {operation : Operation} (misleads : Misleads link operation) : ¬ Truthful (step link operation) := by
  intro truthful
  cases operation with
  | reconnect creates accepts =>
    obtain ⟨flag, missed⟩ := misleads
    obtain ⟨kept, socket⟩ := reconnect_missed missed
    have healthy := truthful (kept.trans flag)
    rw [step, current, socket] at healthy
    cases healthy
  | sendData accepts =>
    obtain ⟨flag, rfl⟩ := misleads
    simp only [step, sendData, flag, if_true] at truthful
    refine (transfer_failed link).2 (truthful ?_)
    rw [transfer_eq]
    exact flag
  | sendDataText | listening => exact misleads

theorem opening_started (opening : Opening) (starts : opening.starts = true) :
    opening.link.started = (opening.creates && opening.accepts) ∧
      opening.link.connected = (opening.creates && opening.accepts) := by
  obtain ⟨unset, _, creates, accepts⟩ := opening
  cases starts
  cases creates <;> cases accepts <;>
    simp [Opening.link, blank, Initialize, createSocket, started, connection, connect, current, mark, closesocket,
      wsaCleanup]

theorem opening_truthful (opening : Opening) : Truthful opening.link := by
  obtain ⟨unset, starts, creates, accepts⟩ := opening
  cases starts <;> cases creates <;> cases accepts <;> cases unset <;>
    simp [Truthful, Opening.link, blank, Initialize, createSocket, started, connection, connect, current, mark,
      closesocket, wsaCleanup]

variable {opening : Opening} {history : List (Moment Link Operation Unit)}

theorem legal_step {moment : Moment Link Operation Unit} (legal : (system opening).Legal moment) :
    moment.after = step moment.before moment.event := by
  have same : some (step moment.before moment.event, ()) = some (moment.after, moment.output) := legal
  exact (congrArg Prod.fst (Option.some.inj same)).symm

/-- In every run, the flag tells the truth in every state exactly when no
reconnect fails while it is set and no packet is lost by a failing send. -/
theorem run_truthful_iff (run : (system opening).Run history link) :
    (∀ passed ∈ System.visited history link, Truthful passed) ↔
      ∀ moment ∈ history, ¬ Misleads moment.before moment.event := by
  refine run.visited_iff Truthful (opening_truthful opening) ?_
  intro moment legal truthful
  rw [legal_step legal]
  constructor
  · exact fun later misleads => step_misled misleads later
  · exact step_truthful truthful

/-- A first connection that succeeds. -/
def smooth : Opening := ⟨none, true, true, true⟩

theorem run_truthful_iff_smooth :
    (∀ passed ∈ System.visited ((system smooth).play [.reconnect true false]).1
      ((system smooth).play [.reconnect true false]).2, Truthful passed) ↔
      ∀ moment ∈ ((system smooth).play [.reconnect true false]).1, ¬ Misleads moment.before moment.event :=
  run_truthful_iff ((system smooth).run_play [.reconnect true false])

/-- The user reconnects while connected, and the server refuses. -/
theorem smooth_not_truthful :
    (system smooth).Reachable ((system smooth).play [.reconnect true false]).2 ∧
    ¬ Truthful ((system smooth).play [.reconnect true false]).2 := by
  refine ⟨(system smooth).reachable_play _, ?_⟩
  intro truthful
  have healthy := truthful rfl
  cases healthy

theorem step_connected (stopped : link.started = false) {operation : Operation}
    (set : (step link operation).connected = true) : link.connected = true := by
  by_contra off
  rw [Bool.not_eq_true] at off
  cases operation with
  | reconnect creates accepts =>
    have missed : link.reaches creates accepts = false := by simp [reaches, stopped]
    rw [step, (reconnect_missed missed).1, off] at set
    cases set
  | sendDataText | sendData | listening =>
    simp [step, sendDataText, sendData, listening, off] at set

/-- After a start of the library, whatever happened since then, a reconnect that
the server accepts gets its connection exactly when the first attempt did. -/
theorem run_recovers_iff (run : (system opening).Run history link) (starts : opening.starts = true) :
    (link.reconnect true true).connected = true ↔ opening.creates = true ∧ opening.accepts = true := by
  obtain ⟨ready, flag⟩ := opening_started opening starts
  have kept : link.started = opening.link.started ∧
      (opening.link.started = false → link.connected = false) := by
    refine run.history_invariant (fun _ link => link.started = opening.link.started ∧
      (opening.link.started = false → link.connected = false)) ⟨rfl, fun off => ?_⟩ ?_
    · exact (flag.trans ready.symm).trans off
    · intro history moment _ kept legal
      rw [legal_step legal]
      refine ⟨(step_started _ _).trans kept.1, fun off => ?_⟩
      rw [← Bool.not_eq_true]
      intro set
      have before := step_connected (kept.1.trans off) set
      rw [kept.2 off] at before
      cases before
  rw [← Bool.and_eq_true, ← ready]
  cases started : opening.link.started with
  | true =>
    have reached : link.reaches true true = true := by simp [reaches, kept.1, started]
    simp only [(reconnect_reached reached).1]
  | false =>
    have missed : link.reaches true true = false := by simp [reaches, kept.1, started]
    rw [(reconnect_missed missed).1, kept.2 started]

theorem run_recovers_iff_smooth :
    (((system smooth).play [.listening .closed, .reconnect true false]).2.reconnect true true).connected = true ↔
      smooth.creates = true ∧ smooth.accepts = true :=
  run_recovers_iff ((system smooth).run_play [.listening .closed, .reconnect true false]) rfl

/-- The server was not yet there at the start. -/
def refused : Opening := ⟨none, true, true, false⟩

theorem refused_never_recovers :
    (system refused).Reachable ((system refused).play [.reconnect true true]).2 ∧ refused.starts = true ∧
    ((((system refused).play [.reconnect true true]).2).reconnect true true).connected = false :=
  ⟨(system refused).reachable_play _, rfl, rfl⟩

end VirtualLan.Winsock
