import MqttScion.Client.CallMove

/-!
# What a step of the system does

`Action` sorts the steps of the client and its tasks by what they can do to a
waiting caller: a task moves, an ended task is dropped, a task is spawned, a
request enters a channel, or nobody waits afterwards who did not before and
every request stays where it is (`Calm`).

> `step_action`: every step is one of these.
-/

namespace MqttScion.Client.System

open MqttScion.Net MqttScion.Lib

variable {M Q Pk : Type} {core : MqttCore M Pk} {qc : Quiche Q}

/-- The call in progress waits on session `n`, and its `Notify` is not
signalled. -/
def State.Waits (s : State M Q Pk) (n : Nat) : Prop :=
  (s.call = .awaitConnack n ∧ s.connectNotification.signalled = false) ∨
    ∃ notify, s.call = .awaitNotify n notify ∧ (s.notifies notify).signalled = false

/-- The two sessions agree on the requests and on where the task is. -/
structure SameRequests (session session' : Session M Q Pk) : Prop where
  queued : session'.queued = session.queued
  current : session'.current = session.current
  pc : session'.connection.pc = session.connection.pc

theorem SameRequests.refl (session : Session M Q Pk) : SameRequests session session :=
  ⟨rfl, rfl, rfl⟩

/-- The same requests hold the same `Notify`. -/
theorem SameRequests.holds {session session' : Session M Q Pk} (h : SameRequests session session')
    (notify : Nat) : session'.Holds notify ↔ session.Holds notify := by
  unfold Session.Holds
  rw [h.queued, h.current, h.pc]

/-- The last request stays the last. -/
theorem SameRequests.last {session session' : Session M Q Pk} (h : SameRequests session session')
    {notify : Nat} (hlast : session.Last notify) : session'.Last notify := by
  unfold Session.Last
  rw [h.queued, h.current, h.pc]
  exact hlast

/-- Every session of `s'` is one of `s`, up to its messages. -/
def SameSessions (s s' : State M Q Pk) : Prop :=
  ∀ n session', s'.sessions n = some session' →
    ∃ session, s.sessions n = some session ∧ SameRequests session session'

theorem SameSessions.of_eq {s s' : State M Q Pk} (h : s'.sessions = s.sessions) :
    SameSessions s s' :=
  fun n session' hs => ⟨session', by rw [← h]; exact hs, .refl session'⟩

/-- Sessions that are untouched hold the same requests. -/
theorem SameSessions.of_untouched {s s' : State M Q Pk} (h : UntouchedSessions s s') :
    SameSessions s s' := by
  intro n session' hn
  have hrel := h n
  rw [hn] at hrel
  cases hs : s.sessions n with
  | none =>
    rw [hs] at hrel
    cases hrel
  | some session =>
    rw [hs] at hrel
    cases hrel with
    | some hsame =>
      refine ⟨session, rfl, ?_, ?_, hsame.pc⟩
      · unfold Session.queued
        rw [hsame.requests]
      · unfold Session.current
        rw [hsame.current]

/-- A move after which nobody waits who did not wait before, and which leaves
every request where it is. -/
structure Calm (s : State M Q Pk) (i : Input Q) (s' : State M Q Pk) : Prop where
  noTask : ∀ n i', i ≠ .task n i'
  noRequest : ∀ n request session, i = .send → s.call = .sendRequest n request →
    s.sessions n = some session → session.requests.rxAlive = false
  nextNotify : s'.nextNotify = s.nextNotify
  sessions : SameSessions s s'
  fresh : ∀ notify, (∀ n, s.call ≠ .awaitNotify n notify) → s'.notifies notify = s.notifies notify
  waits : ∀ n, s'.Waits n → s.Waits n ∧ s'.call = s.call ∧ s'.sessions = s.sessions
  waiting : ∀ n notify, s'.call = .awaitNotify n notify → s.call = .awaitNotify n notify

/-- What a step of the system does. -/
inductive Action (core : MqttCore M Pk) (qc : Quiche Q) (s : State M Q Pk) :
    Input Q → State M Q Pk → Prop
  | task {n : Nat} {i : Client.Input} {s' : State M Q Pk} {session session' : Session M Q Pk}
      {o : List (Client.Output Pk)} (found : s.sessions n = some session)
      (move : RequestMove session session' o)
      (exits : ¬ session'.Running ↔ Exits core qc session.connection i)
      (silent : ¬ session'.Running → ∀ x ∈ o, ∃ data dst, x = .sent data dst)
      (signals : Signals (s.setSession n session') s' o) : Action core qc s (.task n i) s'
  | taskDrop {n : Nat} {session : Session M Q Pk} (found : s.sessions n = some session)
      (ended : ¬ session.Running) :
      Action core qc s (.taskDrop n)
        (s.setSession n { session with requests := session.requests.dropReceiver })
  | spawn {n : Nat} {remote localAddr : ScionAddr} {conn : Q}
      (call : s.call = .connecting n remote) :
      Action core qc s (.connection (some (localAddr, conn)))
        { s.setSession n ⟨Connection.new core remote localAddr s.clientId conn, .new⟩ with
          call := .awaitConnack n }
  | enqueue {n : Nat} {request : Request} {session : Session M Q Pk}
      (call : s.call = .sendRequest n request) (found : s.sessions n = some session)
      (taken : (session.requests.trySend (request, s.nextNotify)).1 = .ok) :
      Action core qc s .send
        { s.setSession n { session with
            requests := (session.requests.trySend (request, s.nextNotify)).2 } with
          nextNotify := s.nextNotify + 1
          call := .awaitNotify n s.nextNotify }
  | calm {i : Input Q} {s' : State M Q Pk} (calm : Calm s i s') : Action core qc s i s'

/-- The move leaves the caller without anything to wait for. -/
theorem calm_of_idle {s s' : State M Q Pk} {i : Input Q} (htask : ∀ n i', i ≠ .task n i')
    (hclosed : ∀ n request session, i = .send → s.call = .sendRequest n request →
      s.sessions n = some session → session.requests.rxAlive = false)
    (hnext : s'.nextNotify = s.nextNotify) (hsessions : SameSessions s s')
    (hnotifies : ∀ notify, (∀ n, s.call ≠ .awaitNotify n notify) →
      s'.notifies notify = s.notifies notify)
    (hconnack : ∀ n, s'.call ≠ .awaitConnack n) (hnotify : ∀ n k, s'.call ≠ .awaitNotify n k) :
    Calm s i s' where
  noTask := htask
  noRequest := hclosed
  nextNotify := hnext
  sessions := hsessions
  fresh := hnotifies
  waits n h := by
    rcases h with ⟨hcall, -⟩ | ⟨notify, hcall, -⟩
    · exact absurd hcall (hconnack n)
    · exact absurd hcall (hnotify n notify)
  waiting n notify hcall := absurd hcall (hnotify n notify)

/-- A poll that finds no signal only registers the waiter. -/
theorem pollConnack_calm {n : Nat} {s : State M Q Pk} (hcall : s.call = .awaitConnack n)
    (hpending : s.connectNotification.signalled = false) :
    Calm s (.poll : Input Q) { s with connectNotification := s.connectNotification.poll.2 } where
  noTask _ _ h := nomatch h
  noRequest _ _ _ h := nomatch h
  nextNotify := rfl
  sessions := .of_eq rfl
  fresh _ _ := rfl
  waits m h := by
    rcases h with ⟨hc, -⟩ | ⟨notify, hc, -⟩
    · exact ⟨.inl ⟨hc, hpending⟩, rfl, rfl⟩
    · exact absurd (hcall.symm.trans hc) nofun
  waiting m notify hc := hc

/-- A poll that finds nothing changes nothing but the `Notify` itself. -/
theorem pollNotify_calm {n notify : Nat} {s : State M Q Pk} (hcall : s.call = .awaitNotify n notify)
    (hpending : (s.notifies notify).signalled = false) :
    Calm s (.poll : Input Q)
      { s with notifies := Function.update s.notifies notify (s.notifies notify).poll.2 } where
  noTask _ _ h := nomatch h
  noRequest _ _ _ h := nomatch h
  nextNotify := rfl
  sessions := .of_eq rfl
  fresh k hk := by
    refine Function.update_of_ne (fun hkn => hk n ?_) _ _
    rw [hkn]
    exact hcall
  waits m h := by
    rcases h with ⟨hc, -⟩ | ⟨k, hc, -⟩
    · exact absurd (hcall.symm.trans hc) nofun
    · refine ⟨.inr ⟨k, hc, ?_⟩, rfl, rfl⟩
      obtain ⟨-, rfl⟩ := Call.awaitNotify.inj (hcall.symm.trans hc)
      exact hpending
  waiting m k hc := hc

/-- **Every step is one of these.** -/
theorem step_action {s s' : State M Q Pk} {i : Input Q} {o : List (Output Pk)}
    (h : step core qc s i = some (s', o)) : Action core qc s i s' := by
  have hmove := step_callMove h
  generalize callEvents core qc s i o = es at hmove
  cases hmove with
  | task found _ turn exits silent =>
    exact .task found turn.requestMove exits silent (foldl_applyOutput_signals _ _)
  | taskDrop found ended => exact .taskDrop found ended
  | begins begins =>
    obtain ⟨remote, hcall⟩ := begins.call
    refine .calm (calm_of_idle nofun (fun _ _ _ hi => nomatch hi) begins.nextNotify
      (.of_untouched begins.sessions) (fun notify _ => by rw [begins.notifies]) ?_ ?_)
    · rw [hcall]
      nofun
    · rw [hcall]
      nofun
  | spawn call => exact .spawn call
  | connectPending call pending => exact .calm (pollConnack_calm call pending)
  | connectReturned _ _ =>
    exact .calm (calm_of_idle nofun (fun _ _ _ hi => nomatch hi) rfl (.of_eq rfl)
      (fun _ _ => rfl) nofun nofun)
  | connectDropped _ =>
    exact .calm (calm_of_idle nofun (fun _ _ _ hi => nomatch hi) rfl (.of_eq rfl)
      (fun _ _ => rfl) nofun nofun)
  | enqueue call found taken => exact .enqueue call found taken
  | requestPending call pending => exact .calm (pollNotify_calm call pending)
  | @requestReturned n notify call _ =>
    -- only the awaited `Notify` changes
    refine .calm (calm_of_idle nofun (fun _ _ _ hi => nomatch hi) rfl (.of_eq rfl)
      (fun k hk => ?_) nofun nofun)
    refine Function.update_of_ne (fun hkn => hk n ?_) _ _
    rw [hkn]
    exact call
  | rests noTask _ closed rests =>
    exact .calm (calm_of_idle noTask closed rests.nextNotify (.of_untouched rests.sessions)
      (fun notify _ => by rw [rests.notifies]) rests.awaitConnack rests.awaitNotify)

end MqttScion.Client.System
