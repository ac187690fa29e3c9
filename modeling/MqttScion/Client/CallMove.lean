import Mathlib.Data.Option.Defs
import MqttScion.Client.CallLog

/-!
# The log of the calls

`callEvents` is the log of the client with its calls and tasks, and `CallMove`
lists its moves: a task takes its turn, a connection is created, a request
enters a channel, a waiting call is polled or dropped, or nothing happens that
concerns a call waiting for the broker (`Rests`).

> `step_callMove`: every step is one of these, with the events it logs.
-/

namespace MqttScion.Client.System

open MqttScion.Net MqttScion.Lib

variable {M Q Pk : Type}

/-- The outputs of a task among those of the system. -/
def Output.ofTask : Output Pk → Option (Client.Output Pk)
  | .task _ o => some o
  | _ => none

/-- The log: the events of a task's move, the requests that enter a channel, the
polls of a waiting `connect` and its drop, and the returns of the calls. -/
def callEvents (core : MqttCore M Pk) (qc : Quiche Q) (s : State M Q Pk) (i : Input Q)
    (o : List (Output Pk)) : List CallEvent :=
  match s.call, i with
  | _, .task n i =>
    match s.sessions n with
    | some session => taskEvents core qc n session.connection i (o.filterMap Output.ofTask)
    | none => []
  | .awaitConnack n, .poll =>
    .polled n :: o.filterMap fun out => match out with
      | .connectReturned (.ok _) => some (.connected n)
      | _ => none
  | .awaitConnack _, .cancel => [.dropped]
  -- a send that does not return has put its request into the channel
  | .sendRequest n _, .send => if o.isEmpty then [.queued n s.nextNotify] else []
  | .awaitNotify _ notify, .poll => o.filterMap fun out => match out with
      | .requestReturned (.ok _) => some (.completed notify)
      | _ => none
  | _, _ => []

/-- The two sessions differ in their message channel alone. -/
structure Untouched (session session' : Session M Q Pk) : Prop where
  requests : session'.requests = session.requests
  pc : session'.connection.pc = session.connection.pc
  current : session'.connection.currentRequest = session.connection.currentRequest

/-- The same sessions, up to their message channels. -/
def UntouchedSessions (s s' : State M Q Pk) : Prop :=
  ∀ n, Option.Rel Untouched (s.sessions n) (s'.sessions n)

/-- A move after which no call waits for a session, and which leaves everything
that such a call looks at. -/
structure Rests (s s' : State M Q Pk) : Prop where
  awaitConnack : ∀ n, s'.call ≠ .awaitConnack n
  awaitNotify : ∀ n notify, s'.call ≠ .awaitNotify n notify
  connecting : ∀ n remote, s'.call ≠ .connecting n remote
  connected : s'.connected = s.connected
  connectNotification : s'.connectNotification = s.connectNotification
  notifies : s'.notifies = s.notifies
  sessions : UntouchedSessions s s'
  nextSession : s'.nextSession = s.nextSession
  nextNotify : s'.nextNotify = s.nextNotify

/-- `connect` begins: a new session number, and no task for it yet. -/
structure Begins (s s' : State M Q Pk) : Prop where
  call : ∃ remote, s'.call = .connecting s.nextSession remote
  connected : s'.connected = s.connected
  connectNotification : s'.connectNotification = s.connectNotification
  notifies : s'.notifies = s.notifies
  sessions : UntouchedSessions s s'
  nextSession : s'.nextSession = s.nextSession + 1
  nextNotify : s'.nextNotify = s.nextNotify

/-- What a step of the system does, with the events it logs. -/
inductive CallMove (core : MqttCore M Pk) (qc : Quiche Q) (s : State M Q Pk) :
    Input Q → State M Q Pk → List CallEvent → Prop
  | task {n i session session' o es} (found : s.sessions n = some session)
      (running : session.Running) (turn : Turn core n session session' i o es)
      (exits : ¬ session'.Running ↔ Exits core qc session.connection i)
      (silent : ¬ session'.Running → ∀ x ∈ o, ∃ data dst, x = .sent data dst) :
      CallMove core qc s (.task n i) (o.foldl applyOutput (s.setSession n session')) es
  | taskDrop {n session} (found : s.sessions n = some session) (ended : ¬ session.Running) :
      CallMove core qc s (.taskDrop n)
        (s.setSession n { session with requests := session.requests.dropReceiver }) []
  | begins {remote s'} (begins : Begins s s') : CallMove core qc s (.connect remote) s' []
  | spawn {n remote localAddr conn} (call : s.call = .connecting n remote) :
      CallMove core qc s (.connection (some (localAddr, conn)))
        { s.setSession n ⟨Connection.new core remote localAddr s.clientId conn, .new⟩ with
          call := .awaitConnack n } []
  | connectPending {n} (call : s.call = .awaitConnack n)
      (pending : s.connectNotification.signalled = false) :
      CallMove core qc s .poll
        { s with connectNotification := s.connectNotification.poll.2 } [.polled n]
  | connectReturned {n} (call : s.call = .awaitConnack n)
      (signalled : s.connectNotification.signalled = true) :
      CallMove core qc s .poll
        { s with
          connectNotification := s.connectNotification.poll.2
          connected := true
          call := .idle } [.polled n, .connected n]
  | connectDropped {n} (call : s.call = .awaitConnack n) :
      CallMove core qc s .cancel
        { s with
          connectNotification := s.connectNotification.dropWaiter
          call := .idle } [.dropped]
  | enqueue {n request session} (call : s.call = .sendRequest n request)
      (found : s.sessions n = some session)
      (taken : (session.requests.trySend (request, s.nextNotify)).1 = .ok) :
      CallMove core qc s .send
        { s.setSession n { session with
            requests := (session.requests.trySend (request, s.nextNotify)).2 } with
          nextNotify := s.nextNotify + 1
          call := .awaitNotify n s.nextNotify } [.queued n s.nextNotify]
  | requestPending {n notify} (call : s.call = .awaitNotify n notify)
      (pending : (s.notifies notify).signalled = false) :
      CallMove core qc s .poll
        { s with notifies := Function.update s.notifies notify (s.notifies notify).poll.2 } []
  | requestReturned {n notify} (call : s.call = .awaitNotify n notify)
      (signalled : (s.notifies notify).signalled = true) :
      CallMove core qc s .poll
        { s with
          notifies := Function.update s.notifies notify (s.notifies notify).poll.2
          call := .idle } [.completed notify]
  | rests {i s'} (noTask : ∀ n i', i ≠ .task n i') (noPoll : i ≠ .poll)
      (closed : ∀ n request session, i = .send → s.call = .sendRequest n request →
        s.sessions n = some session → session.requests.rxAlive = false) (rests : Rests s s') :
      CallMove core qc s i s' []

variable {core : MqttCore M Pk} {qc : Quiche Q} {s s' : State M Q Pk} {o : List (Output Pk)}

/-- A silent move calls no `notify_one`. -/
theorem foldl_applyOutput_silent {o : List (Client.Output Pk)} (h : Silent o) (s : State M Q Pk) :
    o.foldl applyOutput s = s := by
  induction o with
  | nil => rfl
  | cons x o ih =>
    have hx : applyOutput s x = s := by
      cases x with
      | connectNotified => exact absurd List.mem_cons_self h.1
      | notified notify => exact absurd List.mem_cons_self (h.2 notify)
      | _ => rfl
    rw [List.foldl_cons, hx]
    exact ih ⟨fun hmem => h.1 (List.mem_cons_of_mem x hmem),
      fun notify hmem => h.2 notify (List.mem_cons_of_mem x hmem)⟩

theorem setSession_sessions (s : State M Q Pk) (n : Nat) (session : Session M Q Pk) (m : Nat) :
    (s.setSession n session).sessions m = if m = n then some session else s.sessions m := by
  show Function.update s.sessions n (some session) m = _
  by_cases hm : m = n
  · rw [hm, Function.update_self, if_pos rfl]
  · rw [Function.update_of_ne hm, if_neg hm]

theorem dropMessageStream_eq (s : State M Q Pk) :
    (dropMessageStream s).nextNotify = s.nextNotify ∧
      (dropMessageStream s).notifies = s.notifies := by
  unfold dropMessageStream
  split
  · exact ⟨rfl, rfl⟩
  · split
    · exact ⟨rfl, rfl⟩
    · exact ⟨rfl, rfl⟩

/-- Sessions that are the same are untouched. -/
theorem UntouchedSessions.of_eq (h : s'.sessions = s.sessions) : UntouchedSessions s s' := by
  intro n
  rw [h]
  cases s.sessions n with
  | none => exact .none
  | some session => exact .some ⟨rfl, rfl, rfl⟩

/-- One session goes on, untouched. -/
theorem UntouchedSessions.setSession {n : Nat} {session session' : Session M Q Pk}
    (hs : s.sessions n = some session) (h : Untouched session session') :
    UntouchedSessions s (s.setSession n session') := by
  intro m
  rw [setSession_sessions]
  split
  · next hm =>
    rw [hm, hs]
    exact .some h
  · exact UntouchedSessions.of_eq rfl m

/-- `connect` takes a new session number, and makes no task yet. -/
theorem connect_begins (remote : ScionAddr) (s : State M Q Pk) : Begins s (connect remote s) := by
  have hdrop : UntouchedSessions s (dropMessageStream s) ∧
      (dropMessageStream s).connected = s.connected ∧
      (dropMessageStream s).connectNotification = s.connectNotification := by
    unfold dropMessageStream
    split
    · exact ⟨.of_eq rfl, rfl, rfl⟩
    · split
      · exact ⟨.of_eq rfl, rfl, rfl⟩
      · next session hs => exact ⟨.setSession hs ⟨rfl, rfl, rfl⟩, rfl, rfl⟩
  exact ⟨⟨remote, rfl⟩, hdrop.2.1, hdrop.2.2, (dropMessageStream_eq s).2, hdrop.1, rfl,
    (dropMessageStream_eq s).1⟩

/-- A call that is not waiting stays so. -/
theorem rests_of_idle (hcall : s'.call = .idle ∨ ∃ n request, s'.call = .sendRequest n request)
    (hconnected : s'.connected = s.connected)
    (hnotification : s'.connectNotification = s.connectNotification)
    (hnotifies : s'.notifies = s.notifies) (hsessions : UntouchedSessions s s')
    (hsession : s'.nextSession = s.nextSession) (hnotify : s'.nextNotify = s.nextNotify) :
    Rests s s' := by
  have hne : ∀ call, (∀ n request, call ≠ .sendRequest n request) → call ≠ .idle →
      s'.call ≠ call := by
    intro call hsend hidle heq
    rcases hcall with hi | ⟨n, request, hs⟩
    · exact hidle (heq.symm.trans hi)
    · exact hsend n request (heq.symm.trans hs)
  exact ⟨fun n => hne _ nofun nofun, fun n notify => hne _ nofun nofun,
    fun n remote => hne _ nofun nofun, hconnected, hnotification, hnotifies, hsessions, hsession,
    hnotify⟩

/-- A request that starts waits for no session yet. -/
theorem startRequest_rests (hcall : s.call = .idle) (request : Request) :
    Rests s (startRequest request s).1 := by
  unfold startRequest
  split
  · split
    · exact rests_of_idle (.inl hcall) rfl rfl rfl (.of_eq rfl) rfl rfl
    · exact rests_of_idle (.inr ⟨_, _, rfl⟩) rfl rfl rfl (.of_eq rfl) rfl rfl
  · exact rests_of_idle (.inl hcall) rfl rfl rfl (.of_eq rfl) rfl rfl

/-- After `rcv` no call waits for a session. -/
theorem rcv_rests (hcall : s.call = .idle) (h : rcv s = some (s', o)) : Rests s s' := by
  unfold rcv at h
  simp only at h
  split at h
  · cases h
    exact rests_of_idle (.inl hcall) rfl rfl rfl (.of_eq rfl) rfl rfl
  · split at h
    · cases h
      exact rests_of_idle (.inl hcall) rfl rfl rfl (.of_eq rfl) rfl rfl
    · next session hs =>
      split at h
      · cases h
        exact rests_of_idle (.inl hcall) rfl rfl rfl (.setSession hs ⟨rfl, rfl, rfl⟩) rfl rfl
      · split at h
        · cases h
        · cases h
          exact rests_of_idle (.inl hcall) rfl rfl rfl (.of_eq rfl) rfl rfl

/-- The send of a request hands it to the task and waits, or returns an error. -/
theorem sendRequest_callMove {n : Nat} {request : Request} (hcall : s.call = .sendRequest n request)
    (h : sendRequest n request s = some (s', o)) :
    CallMove core qc s .send s' (callEvents core qc s .send o) := by
  have hevents : callEvents core qc s .send o =
      if o.isEmpty then [.queued n s.nextNotify] else [] := by
    simp [callEvents, hcall]
  have hfailed : (∀ session, s.sessions n = some session → session.requests.rxAlive = false) →
      CallMove core qc s .send { s with call := .idle } [] := by
    intro hclosed
    refine .rests nofun nofun (fun m request' session _ hc hs => ?_)
      (rests_of_idle (.inl rfl) rfl rfl rfl (.of_eq rfl) rfl rfl)
    -- the only channel this call sends to is the one found closed
    rw [hcall] at hc
    cases hc
    exact hclosed session hs
  rw [hevents]
  unfold sendRequest at h
  simp only at h
  split at h
  · next hnone =>
    cases h
    exact hfailed fun session hs => by rw [hnone] at hs; cases hs
  · next session hs =>
    split at h
    · next hok =>
      cases h
      exact .enqueue hcall hs hok
    · next hclosed =>
      cases h
      refine hfailed fun session' hs' => ?_
      rw [hs] at hs'
      cases hs'
      exact Chan.trySend_closed_iff.mp hclosed
    · cases h

/-- A task's move is a turn of its session. -/
theorem taskMove_callMove {n : Nat} {i : Client.Input} (h : taskMove core qc n i s = some (s', o)) :
    CallMove core qc s (.task n i) s' (callEvents core qc s (.task n i) o) := by
  unfold taskMove at h
  split at h
  · cases h
  · next session hs =>
    split at h
    · next requests connection o' htake hstep =>
      obtain ⟨rfl, rfl⟩ := Prod.mk.inj (Option.some.inj h)
      have hout : (o'.map (Output.task n)).filterMap Output.ofTask = o' := by
        rw [List.filterMap_map]
        exact List.filterMap_some
      have hevents : callEvents core qc s (.task n i) (o'.map (.task n)) =
          taskEvents core qc n session.connection i o' := by
        unfold callEvents
        simp only [hs, hout]
      obtain ⟨hrcv, hdrop⟩ : i ≠ .rcv ∧ i ≠ .dropReceiver := by
        rcases takeRequest_eq_some htake with ⟨_, _, rfl, -⟩ | ⟨-, hrcv, hdrop, -⟩
        · exact ⟨nofun, nofun⟩
        · exact ⟨hrcv, hdrop⟩
      have hended := step_ended_iff hrcv hdrop hstep
      rw [hevents]
      refine .task hs (step_running hrcv hdrop hstep) (task_turn htake hstep) ?_
        fun hnot => ended_silent hrcv hdrop hstep (not_not.mp hnot)
      rw [← hended]
      exact not_not
    · cases h

/-- `connect` returns when the shared `Notify` is signalled. -/
theorem connectPoll_callMove {n : Nat} (hcall : s.call = .awaitConnack n)
    (h : step core qc s .poll = some (s', o)) :
    CallMove core qc s .poll s' (callEvents core qc s .poll o) := by
  simp only [step, hcall, Notify.poll_fst] at h
  split at h
  · next hsignalled =>
    cases h
    have hevents : callEvents core qc s .poll ([.connectReturned (.ok ())] : List (Output Pk)) =
        [.polled n, .connected n] := by
      simp [callEvents, hcall]
    rw [hevents]
    exact .connectReturned hcall hsignalled
  · next hpending =>
    cases h
    have hevents : callEvents core qc s .poll ([] : List (Output Pk)) = [.polled n] := by
      simp [callEvents, hcall]
    have hmove : CallMove core qc s .poll _ _ :=
      .connectPending hcall (Bool.eq_false_iff.mpr hpending)
    rw [hevents]
    simpa only [hcall] using hmove

/-- A request returns when its own `Notify` is. -/
theorem requestPoll_callMove {n notify : Nat} (hcall : s.call = .awaitNotify n notify)
    (h : step core qc s .poll = some (s', o)) :
    CallMove core qc s .poll s' (callEvents core qc s .poll o) := by
  simp only [step, hcall, Notify.poll_fst] at h
  split at h
  · next hsignalled =>
    cases h
    have hevents : callEvents core qc s .poll ([.requestReturned (.ok ())] : List (Output Pk)) =
        [.completed notify] := by
      simp [callEvents, hcall]
    rw [hevents]
    exact .requestReturned hcall hsignalled
  · next hpending =>
    cases h
    have hevents : callEvents core qc s .poll ([] : List (Output Pk)) = [] := by
      simp [callEvents, hcall]
    have hmove : CallMove core qc s .poll _ _ :=
      .requestPending hcall (Bool.eq_false_iff.mpr hpending)
    rw [hevents]
    simpa only [hcall] using hmove

/-- A task that is dropped closes its request channel. -/
theorem taskDrop_callMove {n : Nat} (h : taskDrop n s = some s') :
    CallMove core qc s (.taskDrop n) s' [] := by
  unfold taskDrop at h
  split at h
  · cases h
  · next session hs =>
    split at h
    · next r hpc =>
      split at h
      · cases h
        exact .taskDrop hs fun hrunning => hrunning ⟨r, hpc⟩
      · cases h
    · cases h

/-- **What a step of the system does**, with the events it logs. -/
theorem step_callMove {i : Input Q} (h : step core qc s i = some (s', o)) :
    CallMove core qc s i s' (callEvents core qc s i o) := by
  have hstep := h
  have hnone : ∀ i : Input Q, (∀ n i', i ≠ .task n i') → i ≠ .poll → i ≠ .cancel → i ≠ .send →
      callEvents core qc s i o = [] := by
    intro i htask hpoll hcancel hsend
    unfold callEvents
    split
    · next n i => exact absurd rfl (htask n i)
    · exact absurd rfl hpoll
    · exact absurd rfl hcancel
    · exact absurd rfl hsend
    · exact absurd rfl hpoll
    · rfl
  have hrests : ∀ {s' : State M Q Pk}, s'.call = .idle → s'.connected = s.connected →
      s'.connectNotification = s.connectNotification → s'.notifies = s.notifies →
      s'.sessions = s.sessions → s'.nextSession = s.nextSession → s'.nextNotify = s.nextNotify →
      Rests s s' :=
    fun hc h₁ h₂ h₃ h₄ h₅ h₆ => rests_of_idle (.inl hc) h₁ h₂ h₃ (.of_eq h₄) h₅ h₆
  unfold step at h
  split at h
  · exact taskMove_callMove h
  · next n =>
    obtain ⟨s₁, hdrop, heq⟩ := Option.map_eq_some_iff.mp h
    obtain ⟨rfl, rfl⟩ := Prod.mk.inj heq
    rw [hnone (.taskDrop n) nofun nofun nofun nofun]
    exact taskDrop_callMove hdrop
  · next remote hcall =>
    cases h
    rw [hnone (.connect remote) nofun nofun nofun nofun]
    exact .begins (connect_begins remote s)
  · next hcall =>
    cases h
    rw [hnone (.connection none) nofun nofun nofun nofun]
    exact .rests nofun nofun (fun _ _ _ hi => nomatch hi) (hrests rfl rfl rfl rfl rfl rfl rfl)
  · next localAddr conn hcall =>
    cases h
    rw [hnone (.connection (some (localAddr, conn))) nofun nofun nofun nofun]
    exact .spawn hcall
  · next n hcall => exact connectPoll_callMove hcall hstep
  · next topic hcall =>
    rw [hnone (.subscribe topic) nofun nofun nofun nofun]
    exact .rests nofun nofun (fun _ _ _ hi => nomatch hi)
      (of_result_state h (startRequest_rests hcall _))
  · next topic payload hcall =>
    rw [hnone (.publish topic payload) nofun nofun nofun nofun]
    exact .rests nofun nofun (fun _ _ _ hi => nomatch hi)
      (of_result_state h (startRequest_rests hcall _))
  · next n request hcall =>
    exact sendRequest_callMove hcall h
  · next n notify hcall => exact requestPoll_callMove hcall hstep
  · next hcall =>
    rw [hnone .rcv nofun nofun nofun nofun]
    exact .rests nofun nofun (fun _ _ _ hi => nomatch hi) (rcv_rests hcall h)
  · cases h
  · next n hcall =>
    cases h
    have hevents : callEvents core qc s .cancel ([] : List (Output Pk)) = [.dropped] := by
      simp [callEvents, hcall]
    rw [hevents]
    exact .connectDropped hcall
  · next _ hcall =>
    cases h
    have hevents : callEvents core qc s .cancel ([] : List (Output Pk)) = [] := by
      cases hc : s.call with
      | awaitConnack n => exact absurd hc (hcall n)
      | _ => simp [callEvents, hc]
    rw [hevents]
    exact .rests nofun nofun (fun _ _ _ hi => nomatch hi) (hrests rfl rfl rfl rfl rfl rfl rfl)
  · cases h

end MqttScion.Client.System
