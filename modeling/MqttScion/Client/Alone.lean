import MqttScion.Lib.Part
import MqttScion.Client.Reconnect

/-!
# Every session runs alone

`connect` spawns one connection task after the other, and the earlier ones go on.
The client touches the connection of a task in two places only: `rcv` takes a
message out of its channel, and a later `connect` drops the receiver. All else
goes through the request channel and the `Notify`s. So the connection of a
session is a part of the client: it is made when `Connection::new` answers, and
from then on moves by its own machine.

> `step_sessionsMove`: what a step does to the sessions.

> `connection_isPart`: the connection of every session is a part of the client.

> `connection_run`: in every run of the client it is where its own moves lead it,
> from a connection that `Connection::new` made.
-/

namespace MqttScion.Client.System

open MqttScion.Net MqttScion.Lib

variable {M Q Pk : Type}

/-! ## What a step does to the sessions -/

/-- Sessions are touched by a turn of their task, by `connect`, by the outcome of
`Connection::new`, by what enters or closes a request channel, and by `rcv`. -/
inductive SessionsMove (core : MqttCore M Pk) (qc : Quiche Q) (s s' : State M Q Pk) :
    Input Q → List (Output Pk) → Prop
  | task {n j session session' q} (found : s.sessions n = some session)
      (taken : takeRequest j session.requests = some session'.requests)
      (moved : Client.step core qc session.connection j = some (session'.connection, q))
      (sessions : s'.sessions = (s.setSession n session').sessions) :
      SessionsMove core qc s s' (.task n j) (q.map (.task n))
  | connects {remote} (sessions : s'.sessions = (dropMessageStream s).sessions) :
      SessionsMove core qc s s' (.connect remote) []
  | spawns {n remote localAddr conn} (call : s.call = .connecting n remote)
      (sessions : s'.sessions =
        (s.setSession n ⟨.new core remote localAddr s.clientId conn, .new⟩).sessions) :
      SessionsMove core qc s s' (.connection (some (localAddr, conn))) []
  | requests {i n session requests} (input : i = .send ∨ i = .taskDrop n)
      (found : s.sessions n = some session)
      (sessions : s'.sessions = (s.setSession n { session with requests := requests }).sessions) :
      SessionsMove core qc s s' i []
  | reads {n session message messages} (stream : s.messageStream = some n)
      (found : s.sessions n = some session)
      (recv : session.connection.messages.recv = some (message, messages))
      (sessions : s'.sessions = (s.setSession n { session with
        connection := { session.connection with messages := messages } }).sessions) :
      SessionsMove core qc s s' .rcv [.rcvReturned (.ok message)]
  | same {i o} (noTask : ∀ n j, i ≠ .task n j) (noConnect : ∀ remote, i ≠ .connect remote)
      (empty : ∀ n session, i = .rcv → s.messageStream = some n → s.sessions n = some session →
        session.connection.messages.recv = none)
      (out : ∀ x ∈ o, (∀ n q, x ≠ .task n q) ∧ ∀ message, x ≠ .rcvReturned (.ok message))
      (sessions : s'.sessions = s.sessions) : SessionsMove core qc s s' i o

variable {core : MqttCore M Pk} {qc : Quiche Q} {s s' : State M Q Pk} {i : Input Q}
  {o : List (Output Pk)}

/-- A move that leaves the sessions alone. -/
theorem sessionsMove_same (htask : ∀ n j, i ≠ .task n j) (hconnect : ∀ remote, i ≠ .connect remote)
    (hrcv : i ≠ .rcv)
    (hout : ∀ x ∈ o, (∀ n q, x ≠ .task n q) ∧ ∀ message, x ≠ .rcvReturned (.ok message))
    (hsessions : s'.sessions = s.sessions) : SessionsMove core qc s s' i o :=
  .same htask hconnect (fun _ _ h => absurd h hrcv) hout hsessions

/-- A task's move is one step of its own connection. -/
theorem taskMove_sessionsMove {n : Nat} {j : Client.Input}
    (h : taskMove core qc n j s = some (s', o)) : SessionsMove core qc s s' (.task n j) o := by
  unfold taskMove at h
  split at h
  · cases h
  · next session found =>
    split at h
    · next requests connection q htake hstep =>
      obtain ⟨rfl, rfl⟩ := Prod.mk.inj (Option.some.inj h)
      exact @SessionsMove.task _ _ _ core qc s _ n j session ⟨connection, requests⟩ q found htake
        hstep (foldl_applyOutput_signals q _).sessions
    · cases h

/-- The send of a request goes into the requests of one session. -/
theorem sendRequest_sessionsMove {n : Nat} {request : Request}
    (h : sendRequest n request s = some (s', o)) : SessionsMove core qc s s' .send o := by
  have hfailed : some (({ s with call := .idle } : State M Q Pk),
      [(.requestReturned (.error .sendFailed) : Output Pk)]) = some (s', o) →
      SessionsMove core qc s s' .send o := by
    intro heq
    obtain ⟨rfl, rfl⟩ := Prod.mk.inj (Option.some.inj heq)
    exact sessionsMove_same nofun nofun nofun (by simp) rfl
  unfold sendRequest at h
  simp only at h
  split at h
  · exact hfailed h
  · next session found =>
    split at h
    · obtain ⟨rfl, rfl⟩ := Prod.mk.inj (Option.some.inj h)
      exact .requests (.inl rfl) found rfl
    · exact hfailed h
    · cases h

/-- `rcv` takes from the channel of one session. -/
theorem rcv_sessionsMove (h : rcv s = some (s', o)) : SessionsMove core qc s s' .rcv o := by
  have hfailed : (∀ n session, s.messageStream = some n → s.sessions n = some session →
        session.connection.messages.recv = none) →
      some (s, [(.rcvReturned (.error .noMessageStream) : Output Pk)]) = some (s', o) →
      SessionsMove core qc s s' .rcv o := by
    intro hempty heq
    obtain ⟨rfl, rfl⟩ := Prod.mk.inj (Option.some.inj heq)
    exact .same nofun nofun (fun n session _ => hempty n session) (by simp) rfl
  unfold rcv at h
  simp only at h
  split at h
  · next hstream => exact hfailed (fun n session hn => by rw [hstream] at hn; cases hn) h
  · next n hstream =>
    split at h
    · next hnone =>
      refine hfailed (fun n' session hn hs => ?_) h
      rw [hstream] at hn
      rw [← Option.some.inj hn, hnone] at hs
      cases hs
    · next session found =>
      split at h
      · next message messages hrecv =>
        obtain ⟨rfl, rfl⟩ := Prod.mk.inj (Option.some.inj h)
        exact .reads hstream found hrecv rfl
      · next hrecv =>
        split at h
        · cases h
        · refine hfailed (fun n' session' hn hs => ?_) h
          rw [hstream] at hn
          rw [← Option.some.inj hn, found] at hs
          rw [← Option.some.inj hs]
          exact hrecv

/-- A task that is dropped leaves its connection as it is. -/
theorem taskDrop_sessionsMove {n : Nat} (h : taskDrop n s = some s') :
    SessionsMove core qc s s' (.taskDrop n) [] := by
  unfold taskDrop at h
  split at h
  · cases h
  · next session found =>
    split at h
    · split at h
      · obtain rfl := Option.some.inj h
        exact .requests (.inr rfl) found rfl
      · cases h
    · cases h

/-- A call that starts touches no session. -/
theorem startRequest_sessionsMove (request : Request) (hi : i ≠ .rcv)
    (hconnect : ∀ remote, i ≠ .connect remote) (htask : ∀ n j, i ≠ .task n j) :
    SessionsMove core qc s (startRequest request s).1 i (startRequest request s).2 := by
  unfold startRequest
  split
  · split
    · exact sessionsMove_same htask hconnect hi (by simp) rfl
    · exact sessionsMove_same htask hconnect hi (by simp) rfl
  · exact sessionsMove_same htask hconnect hi (by simp) rfl

/-- **What a step does to the sessions.** -/
theorem step_sessionsMove (h : step core qc s i = some (s', o)) :
    SessionsMove core qc s s' i o := by
  unfold step at h
  split at h
  · exact taskMove_sessionsMove h
  · obtain ⟨s₁, hdrop, heq⟩ := Option.map_eq_some_iff.mp h
    obtain ⟨rfl, rfl⟩ := Prod.mk.inj heq
    exact taskDrop_sessionsMove hdrop
  · obtain ⟨rfl, rfl⟩ := Prod.mk.inj (Option.some.inj h)
    exact .connects rfl
  · obtain ⟨rfl, rfl⟩ := Prod.mk.inj (Option.some.inj h)
    exact sessionsMove_same nofun nofun nofun (by simp) rfl
  · next n remote localAddr conn hcall =>
    obtain ⟨rfl, rfl⟩ := Prod.mk.inj (Option.some.inj h)
    exact .spawns hcall rfl
  · simp only at h
    split at h
    · obtain ⟨rfl, rfl⟩ := Prod.mk.inj (Option.some.inj h)
      exact sessionsMove_same nofun nofun nofun (by simp) rfl
    · obtain ⟨rfl, rfl⟩ := Prod.mk.inj (Option.some.inj h)
      exact sessionsMove_same nofun nofun nofun (by simp) rfl
  · obtain ⟨rfl, rfl⟩ := Prod.mk.inj (Option.some.inj h)
    exact startRequest_sessionsMove _ nofun nofun nofun
  · obtain ⟨rfl, rfl⟩ := Prod.mk.inj (Option.some.inj h)
    exact startRequest_sessionsMove _ nofun nofun nofun
  · exact sendRequest_sessionsMove h
  · simp only at h
    split at h
    · obtain ⟨rfl, rfl⟩ := Prod.mk.inj (Option.some.inj h)
      exact sessionsMove_same nofun nofun nofun (by simp) rfl
    · obtain ⟨rfl, rfl⟩ := Prod.mk.inj (Option.some.inj h)
      exact sessionsMove_same nofun nofun nofun (by simp) rfl
  · exact rcv_sessionsMove h
  · cases h
  · obtain ⟨rfl, rfl⟩ := Prod.mk.inj (Option.some.inj h)
    exact sessionsMove_same nofun nofun nofun (by simp) rfl
  · obtain ⟨rfl, rfl⟩ := Prod.mk.inj (Option.some.inj h)
    exact sessionsMove_same nofun nofun nofun (by simp) rfl
  · cases h

/-! ## Sessions are numbered in order -/

/-- The stream is that of the latest session, and only a session that `connect`
has numbered has a task. -/
structure Filed (s : State M Q Pk) : Prop where
  stream : ∀ n, s.messageStream = some n → s.nextSession = n + 1
  fresh : ∀ n, s.nextSession ≤ n → s.sessions n = none
  connecting : ∀ n remote, s.call = .connecting n remote →
    n < s.nextSession ∧ s.sessions n = none

/-- Nothing is filed before the first `connect`. -/
theorem filed_new (clientId : String) : Filed (State.new clientId : State M Q Pk) := by
  refine ⟨fun n hn => ?_, fun _ _ => rfl, fun n remote hcall => ?_⟩
  · cases hn
  · cases hcall

/-- A session that is replaced was there. -/
theorem setSession_none {n : Nat} {session session' : Session M Q Pk}
    (found : s.sessions n = some session) {m : Nat} (hm : s.sessions m = none) :
    (s.setSession n session').sessions m = none := by
  rw [setSession_sessions]
  split
  · next hmn =>
    rw [hmn, found] at hm
    cases hm
  · exact hm

/-- Dropping the message stream makes no session. -/
theorem dropMessageStream_none {m : Nat} (hm : s.sessions m = none) :
    (dropMessageStream s).sessions m = none := by
  unfold dropMessageStream
  split
  · exact hm
  · split
    · exact hm
    · next found => exact setSession_none found hm

/-- Only the outcome of `Connection::new` gives a session to a number without one. -/
theorem SessionsMove.none (h : SessionsMove core qc s s' i o) {m : Nat}
    (hm : s.sessions m = none) :
    s'.sessions m = none ∨ ∃ remote, s.call = .connecting m remote ∧ ∃ r, i = .connection r := by
  cases h with
  | task found _ _ sessions => exact .inl (sessions ▸ setSession_none found hm)
  | connects sessions => exact .inl (sessions ▸ dropMessageStream_none hm)
  | @spawns n remote localAddr conn call sessions =>
    by_cases hmn : m = n
    · exact .inr ⟨remote, hmn ▸ call, _, rfl⟩
    · rw [sessions, setSession_sessions, if_neg hmn]
      exact .inl hm
  | requests _ found sessions => exact .inl (sessions ▸ setSession_none found hm)
  | reads _ found _ sessions => exact .inl (sessions ▸ setSession_none found hm)
  | same _ _ _ _ sessions => exact .inl (sessions ▸ hm)

/-- A call that is still creating its connection was doing so before. -/
theorem step_connecting (hi : ∀ remote, i ≠ .connect remote)
    (hstep : step core qc s i = some (s', o)) {n : Nat} {remote : ScionAddr}
    (hcall : s'.call = .connecting n remote) :
    s.call = .connecting n remote ∧ ∀ r, i ≠ .connection r := by
  have hmove := step_callMove hstep
  generalize callEvents core qc s i o = es at hmove
  cases hmove with
  | @task n j session session' q _ _ _ _ _ _ =>
    rw [(foldl_applyOutput_signals q (s.setSession n session')).call] at hcall
    exact ⟨hcall, nofun⟩
  | taskDrop _ _ => exact ⟨hcall, nofun⟩
  | begins _ => exact absurd rfl (hi _)
  | spawn _ => cases hcall
  | connectPending _ _ => exact ⟨hcall, nofun⟩
  | connectReturned _ _ => cases hcall
  | connectDropped _ => cases hcall
  | enqueue _ _ _ => cases hcall
  | requestPending _ _ => exact ⟨hcall, nofun⟩
  | requestReturned _ _ => cases hcall
  | rests _ _ _ rests => exact absurd hcall (rests.connecting n remote)

/-- The sessions stay filed under the numbers handed out. -/
theorem step_filed (h : Filed s) (hstep : step core qc s i = some (s', o)) : Filed s' := by
  have hmove := step_sessionsMove hstep
  by_cases hi : ∃ remote, i = .connect remote
  · obtain ⟨remote, rfl⟩ := hi
    obtain ⟨rfl, -⟩ := connect_eq_some hstep
    have hnone : ∀ m, s.sessions m = none → (connect remote s).sessions m = none := by
      intro m hm
      rcases hmove.none hm with hn | ⟨_, _, _, hr⟩
      · exact hn
      · cases hr
    refine ⟨fun n hn => ?_, fun n hle => ?_, fun n remote' hcall => ?_⟩
    · obtain rfl := Option.some.inj hn
      rfl
    · have hlt : s.nextSession + 1 ≤ n := hle
      exact hnone n (h.fresh n (by omega))
    · obtain ⟨rfl, -⟩ := Call.connecting.inj hcall
      exact ⟨Nat.lt_succ_self _, hnone _ (h.fresh _ (Nat.le_refl _))⟩
  · have hstays := step_stays (fun remote hr => hi ⟨remote, hr⟩) hstep
    refine ⟨fun n hn => ?_, fun n hle => ?_, fun n remote hcall => ?_⟩
    · rw [hstays.nextSession]
      exact h.stream n (hstays.messageStream ▸ hn)
    · rw [hstays.nextSession] at hle
      rcases hmove.none (h.fresh n hle) with hn | ⟨remote, hcall, -⟩
      · exact hn
      · exact absurd (h.connecting n remote hcall).1 (Nat.not_lt.mpr hle)
    · obtain ⟨hcalled, hno⟩ := step_connecting (fun remote hr => hi ⟨remote, hr⟩) hstep hcall
      obtain ⟨hlt, hnone⟩ := h.connecting n remote hcalled
      rw [hstays.nextSession]
      refine ⟨hlt, ?_⟩
      rcases hmove.none hnone with hn | ⟨_, _, r, hr⟩
      · exact hn
      · exact absurd hr (hno r)

/-! ## The connections are parts -/

/-- The connection of session `n`, once it is there. -/
def State.connection (s : State M Q Pk) (n : Nat) : Option (Connection M Q Pk) :=
  (s.sessions n).map Session.connection

/-- What an input is to the connection of session `n`. -/
def connectionInput (n : Nat) (s : State M Q Pk) : Input Q → Option Client.Input
  | .task n' j => if n' = n then some j else none
  | .rcv => if s.messageStream = some n then some .rcv else none
  | .connect _ => if s.messageStream = some n then some .dropReceiver else none
  | _ => none

/-- The moves of the connection of session `n`. -/
def connectionWatch (core : MqttCore M Pk) (qc : Quiche Q) (n : Nat) :
    Watch (State M Q Pk) (Input Q) (Output Pk) Client.Input (Client.Output Pk) := fun s i _ =>
  (connectionInput n s i).bind fun j =>
    ((s.connection n).bind fun c => Client.step core qc c j).map fun r => (j, r.2)

/-- `Connection::new` answered, and made this connection. -/
def Made (core : MqttCore M Pk) (i : Input Q) (c : Connection M Q Pk) : Prop :=
  ∃ remote localAddr clientId conn, i = .connection (some (localAddr, conn)) ∧
    c = .new core remote localAddr clientId conn

theorem connection_eq_some {n : Nat} {session : Session M Q Pk}
    (found : s.sessions n = some session) : s.connection n = some session.connection := by
  rw [State.connection, found]
  rfl

theorem connection_of_sessions (h : s'.sessions = s.sessions) (n : Nat) :
    s'.connection n = s.connection n := by
  rw [State.connection, State.connection, h]

theorem connection_setSession (s : State M Q Pk) (n : Nat) (session : Session M Q Pk) (m : Nat) :
    (s.setSession n session).connection m =
      if m = n then some session.connection else s.connection m := by
  rw [State.connection, setSession_sessions]
  split
  · rfl
  · rfl

/-- What a step does to the connection of session `n`: its own move, nothing, or
it makes it. -/
inductive ConnectionMove (core : MqttCore M Pk) (qc : Quiche Q) (n : Nat) (s s' : State M Q Pk)
    (i : Input Q) : Prop
  | moves {j c c' q} (input : connectionInput n s i = some j) (before : s.connection n = some c)
      (moved : Client.step core qc c j = some (c', q)) (after : s'.connection n = some c')
  | stays (idle : ∀ j c, connectionInput n s i = some j → s.connection n = some c →
      Client.step core qc c j = none) (same : s'.connection n = s.connection n)
  | begins {c} (before : s.connection n = none) (after : s'.connection n = some c)
      (made : Made core i c)

/-- `connect` drops the receiver of the session it replaces. -/
theorem dropMessageStream_connection (remote : ScionAddr) (n : Nat)
    (hsessions : s'.sessions = (dropMessageStream s).sessions) :
    ConnectionMove core qc n s s' (.connect remote) := by
  by_cases hstream : s.messageStream = some n
  · cases found : s.sessions n with
    | none =>
      have hnone : s.connection n = none := by
        rw [State.connection, found]
        rfl
      refine .stays (fun j c _ hc => ?_) ?_
      · rw [hnone] at hc
        cases hc
      · refine connection_of_sessions ?_ n
        rw [hsessions, dropMessageStream, hstream]
        simp only [found]
    | some session =>
      refine .moves (if_pos hstream) (connection_eq_some found) rfl ?_
      rw [connection_of_sessions hsessions, dropMessageStream, hstream]
      simp only [found]
      rw [connection_setSession, if_pos rfl]
  · refine .stays (fun j c hj _ => ?_) ?_
    · rw [connectionInput, if_neg hstream] at hj
      cases hj
    · rw [connection_of_sessions hsessions]
      unfold dropMessageStream
      split
      · rfl
      · next n' hn' =>
        have hne : n ≠ n' := fun heq => hstream (heq ▸ hn')
        split
        · rfl
        · rw [connection_setSession, if_neg hne]

/-- Seen from one connection, a move makes it, is a step of it, or leaves it alone.
-/
theorem SessionsMove.connectionMove (hfiled : Filed s) (h : SessionsMove core qc s s' i o)
    (n : Nat) : ConnectionMove core qc n s s' i := by
  cases h with
  | @task m j session session' q found taken moved sessions =>
    by_cases hnm : n = m
    · subst hnm
      refine .moves (if_pos rfl) (connection_eq_some found) moved ?_
      rw [connection_of_sessions sessions, connection_setSession, if_pos rfl]
    · refine .stays (fun j' c hj _ => ?_) ?_
      · rw [connectionInput, if_neg (Ne.symm hnm)] at hj
        cases hj
      · rw [connection_of_sessions sessions, connection_setSession, if_neg hnm]
  | connects sessions => exact dropMessageStream_connection _ n sessions
  | @spawns m remote localAddr conn call sessions =>
    have hnone := (hfiled.connecting m remote call).2
    by_cases hnm : n = m
    · subst hnm
      refine .begins ?_ ?_ ⟨remote, localAddr, s.clientId, conn, rfl, rfl⟩
      · rw [State.connection, hnone]
        rfl
      · rw [connection_of_sessions sessions, connection_setSession, if_pos rfl]
    · refine .stays (fun j c hj _ => by cases hj) ?_
      rw [connection_of_sessions sessions, connection_setSession, if_neg hnm]
  | @requests _ m session requests input found sessions =>
    refine .stays (fun j c hj _ => ?_) ?_
    · rcases input with rfl | rfl <;> cases hj
    · rw [connection_of_sessions sessions, connection_setSession]
      split
      · next hnm => rw [hnm, connection_eq_some found]
      · rfl
  | @reads m session message messages stream found recv sessions =>
    by_cases hnm : n = m
    · subst hnm
      have hmoved : Client.step core qc session.connection .rcv =
          some ({ session.connection with messages := messages }, [.received message]) := by
        simp only [Client.step, recv]
      refine .moves (if_pos stream) (connection_eq_some found) hmoved ?_
      rw [connection_of_sessions sessions, connection_setSession, if_pos rfl]
    · refine .stays (fun j c hj _ => ?_) ?_
      · rw [connectionInput, stream, if_neg fun heq => hnm (Option.some.inj heq).symm] at hj
        cases hj
      · rw [connection_of_sessions sessions, connection_setSession, if_neg hnm]
  | same noTask noConnect empty _ sessions =>
    refine .stays (fun j c hj hc => ?_) (connection_of_sessions sessions n)
    unfold connectionInput at hj
    split at hj
    · exact absurd rfl (noTask _ _)
    · split at hj
      · next hstream =>
        obtain rfl := Option.some.inj hj
        obtain ⟨session, found, rfl⟩ := Option.map_eq_some_iff.mp hc
        simp only [Client.step, empty n session rfl hstream found]
      · cases hj
    · exact absurd rfl (noConnect _)
    · cases hj

/-- **The connection of every session is a part of the client.** -/
theorem connection_isPart (core : MqttCore M Pk) (qc : Quiche Q) (n : Nat) :
    IsPart (step core qc) (fun s => s.connection n) (connectionWatch core qc n)
      (Client.step core qc) Filed (Made core) where
  inv := step_filed
  own := by
    intro s i s' o j q hfiled hstep hw
    obtain ⟨j', hj, hmap⟩ := Option.bind_eq_some_iff.mp hw
    obtain ⟨⟨c', q'⟩, hbind, heq⟩ := Option.map_eq_some_iff.mp hmap
    obtain ⟨rfl, rfl⟩ := Prod.mk.inj heq
    obtain ⟨c, hc, hmoved⟩ := Option.bind_eq_some_iff.mp hbind
    refine ⟨c, c', hc, hmoved, ?_⟩
    cases (step_sessionsMove hstep).connectionMove hfiled n with
    | moves input before moved after =>
      rw [hj] at input
      rw [hc] at before
      obtain rfl := Option.some.inj input
      obtain rfl := Option.some.inj before
      rw [hmoved] at moved
      obtain ⟨rfl, -⟩ := Prod.mk.inj (Option.some.inj moved)
      exact after
    | stays idle _ =>
      rw [idle j' c hj hc] at hmoved
      cases hmoved
    | begins before _ _ =>
      rw [hc] at before
      cases before
  other := by
    intro s i s' o hfiled hstep hw
    cases (step_sessionsMove hstep).connectionMove hfiled n with
    | moves input before moved _ =>
      -- a move of this connection would have been watched
      simp [connectionWatch, input, before, moved] at hw
    | stays _ same => exact .inl same
    | begins before after made => exact .inr ⟨before, _, after, made⟩

/-- **Every connection runs alone**, from one that `Connection::new` made. -/
theorem connection_run {clientId : String} {is : List (Input Q)} {n : Nat}
    {log : List (Client.Input × List (Client.Output Pk))}
    (hr : run (watched (step core qc) (connectionWatch core qc n)) (State.new clientId) is =
      some (s, log)) {c : Connection M Q Pk} (hc : s.connection n = some c) :
    RanAlone (Client.step core qc) (fun c₀ => ∃ i ∈ is, Made core i c₀) log c :=
  ((connection_isPart core qc n).run (filed_new clientId) rfl hr).2.2 c hc

end MqttScion.Client.System
