import MqttScion.Lib.Ticket
import MqttScion.Client.CallMove
import MqttScion.Client.NoStranded

/-!
# The way of a request

The log of the calls says how far each request has come (`phaseOf`): into the
channel of a session, out of it under the identifier acquired for it, into
`current_request`, and to the first packet handled on its connection that
acknowledges it. `current_request` plays no part in this. `Agrees` ties the
state of the client and its tasks to it.

> `CallMove.agrees`: after every step the channel, the arm and `current_request`
> of each session hold requests of the phase they stand for, and the request a
> call waits for is where its phase says, or signalled once it is answered
> (`Waits`).
-/

namespace MqttScion.Client

open MqttScion.Net MqttScion.Lib

variable {M Q Pk : Type}

instance (packet : Packet) (request : Request) (id : UInt16) :
    Decidable (packet.Acknowledges request id) :=
  match packet with
  | .puback packetId _ =>
    inferInstanceAs (Decidable (request.isPublish .atLeastOnce = true ∧ id = packetId))
  | .pubrec packetId _ =>
    inferInstanceAs (Decidable (request.isPublish .exactlyOnce = true ∧ id = packetId))
  | .suback packetId _ => inferInstanceAs (Decidable (request.isSubscribe = true ∧ id = packetId))
  | .connack _ => .isFalse not_false
  | .pubcomp _ => .isFalse not_false
  | .publish _ _ _ => .isFalse not_false
  | .subscribe _ => .isFalse not_false
  | .other _ => .isFalse not_false

/-- A packet carries one identifier. -/
theorem Packet.Acknowledges.id_eq {packet : Packet} {request request' : Request} {id id' : UInt16}
    (h : packet.Acknowledges request id) (h' : packet.Acknowledges request' id') : id = id' := by
  cases packet with
  | puback packetId _ => exact h.2.trans h'.2.symm
  | pubrec packetId _ => exact h.2.trans h'.2.symm
  | suback packetId _ => exact h.2.trans h'.2.symm
  | _ => exact h.elim

namespace System

/-- What an event means for the requests. -/
def CallEvent.ticket : CallEvent → Option (TicketEvent Nat Nat Request UInt16 Packet)
  | .queued n notify => some (.queue n notify)
  | .sent n request id notify => some (.send n request id notify)
  | .stored n _ _ notify => some (.store n notify)
  | .handled n packet => some (.answer n packet)
  | _ => none

/-- How far the request with this `Notify` has come. -/
def phaseOf (notify : Nat) (es : List CallEvent) : Phase Nat Request UInt16 Packet :=
  ticketPhase Packet.Acknowledges notify (es.filterMap CallEvent.ticket)

theorem phaseOf_append (notify : Nat) (es es' : List CallEvent) :
    phaseOf notify (es ++ es') =
      (es'.filterMap CallEvent.ticket).foldl (Phase.next Packet.Acknowledges notify)
        (phaseOf notify es) := by
  unfold phaseOf
  rw [List.filterMap_append, ticketPhase_append]

theorem phaseOf_answered {notify : Nat} {es : List CallEvent} {packet : Packet}
    (es' : List CallEvent) (h : phaseOf notify es = .answered packet) :
    phaseOf notify (es ++ es') = .answered packet := by
  unfold phaseOf
  rw [List.filterMap_append]
  exact ticketPhase_answered _ h

/-- A session's requests are in the phase of the place they are at. -/
structure SessionAgrees (n : Nat) (es : List CallEvent) (session : Session M Q Pk) : Prop where
  queued : ∀ notify ∈ session.queued, phaseOf notify es = .queued n
  arm : ∀ request id notify, session.connection.pc.arm = some (request, id, notify) →
    phaseOf notify es = .sent n request id
  current : ∀ request id notify, session.connection.currentRequest = some (request, id, notify) →
    phaseOf notify es = .stored n request id

/-- Where the request of a waiting call is: in the channel as long as the task
runs, in the arm that took it out, in `current_request`, or answered. -/
inductive Waits (es : List CallEvent) (notifies : Nat → Notify) (session : Session M Q Pk)
    (n notify : Nat) : Prop
  | queued (phase : phaseOf notify es = .queued n)
      (held : session.Running → notify ∈ session.queued)
  | sent {request id} (phase : phaseOf notify es = .sent n request id)
      (held : session.connection.pc.arm = some (request, id, notify))
  | stored {request id} (phase : phaseOf notify es = .stored n request id)
      (held : session.connection.currentRequest = some (request, id, notify))
  | answered {packet} (phase : phaseOf notify es = .answered packet)
      (signalled : (notifies notify).signalled = true)

/-- The state and the log agree on every request. -/
structure Agrees (es : List CallEvent) (s : State M Q Pk) : Prop where
  sessions : ∀ n session, s.sessions n = some session → SessionAgrees n es session
  fresh : ∀ notify, s.nextNotify ≤ notify → phaseOf notify es = .fresh
  signalled : ∀ notify, (s.notifies notify).signalled = true → ∃ n, .signalled n notify ∈ es
  answered : ∀ n notify, .signalled n notify ∈ es → ∃ packet, phaseOf notify es = .answered packet
  waits : ∀ n notify, s.call = .awaitNotify n notify →
    ∃ session, s.sessions n = some session ∧ Waits es s.notifies session n notify

variable {core : MqttCore M Pk} {qc : Quiche Q}

/-- Events that leave the phases of a session's requests leave it in step. -/
theorem SessionAgrees.of_phases {n : Nat} {session : Session M Q Pk} {es es' : List CallEvent}
    (hagrees : SessionAgrees n es session)
    (h : ∀ notify, (phaseOf notify es).place = some n → phaseOf notify es' = phaseOf notify es) :
    SessionAgrees n es' session := by
  refine ⟨fun k hk => ?_, fun request id k hk => ?_, fun request id k hk => ?_⟩
  · have hphase := hagrees.queued k hk
    rw [h k (by rw [hphase]; rfl), hphase]
  · have hphase := hagrees.arm request id k hk
    rw [h k (by rw [hphase]; rfl), hphase]
  · have hphase := hagrees.current request id k hk
    rw [h k (by rw [hphase]; rfl), hphase]

/-- And so is the request of a waiting call, if its signal is kept. -/
theorem Waits.of_phases {n notify : Nat} {session : Session M Q Pk}
    {notifies notifies' : Nat → Notify} {es : List CallEvent} (es' : List CallEvent)
    (hwaits : Waits es notifies session n notify)
    (h : (phaseOf notify es).place = some n → phaseOf notify (es ++ es') = phaseOf notify es)
    (hsignalled : (notifies notify).signalled = true → (notifies' notify).signalled = true) :
    Waits (es ++ es') notifies' session n notify := by
  cases hwaits with
  | queued phase held => exact .queued (by rw [h (by rw [phase]; rfl), phase]) held
  | sent phase held => exact .sent (by rw [h (by rw [phase]; rfl), phase]) held
  | stored phase held => exact .stored (by rw [h (by rw [phase]; rfl), phase]) held
  | answered phase signalled => exact .answered (phaseOf_answered es' phase) (hsignalled signalled)

section Turns

variable {n notify : Nat} {session session' : Session M Q Pk} {i : Client.Input}
  {o : List (Client.Output Pk)} {es es' : List CallEvent}

/-- What a task logs is about its own session. -/
theorem Turn.here (h : Turn core n session session' i o es') :
    ∀ event ∈ es'.filterMap CallEvent.ticket, event.place = n := by
  intro event hmem
  obtain ⟨e, he, hticket⟩ := List.mem_filterMap.mp hmem
  cases h with
  | quiet _ _ _ _ => cases he
  | ignored _ _ _ _ _ _ =>
    cases List.mem_singleton.mp he
    cases hticket
    rfl
  | connack _ _ _ =>
    cases List.mem_singleton.mp he
    cases hticket
    rfl
  | acknowledged _ _ _ _ _ =>
    rcases List.mem_cons.mp he with rfl | he
    · cases hticket
      rfl
    · cases List.mem_singleton.mp he
      cases hticket
  | sent _ _ _ _ _ _ =>
    cases List.mem_singleton.mp he
    cases hticket
    rfl
  | lost _ _ _ _ _ _ => cases he
  | stored _ _ _ _ =>
    cases List.mem_singleton.mp he
    cases hticket
    rfl

/-- A request at another session does not change its phase. -/
theorem Turn.phaseOf_elsewhere {m : Nat} (h : Turn core n session session' i o es') (hm : m ≠ n)
    (hplace : (phaseOf notify es).place = some m) :
    phaseOf notify (es ++ es') = phaseOf notify es := by
  unfold phaseOf
  rw [List.filterMap_append]
  refine ticketPhase_elsewhere hplace fun event hmem heq => hm ?_
  rw [← heq]
  exact h.here event hmem

/-- A packet that does not acknowledge the current request changes the phase of
no request of the session. -/
theorem SessionAgrees.handled {packet : Packet} (hagrees : SessionAgrees n es session)
    (hunmatched : ∀ request id notify,
      session.connection.currentRequest = some (request, id, notify) →
        ¬ packet.Acknowledges request id) :
    SessionAgrees n (es ++ [.handled n packet]) session := by
  refine ⟨fun k hk => ?_, fun request id k hk => ?_, fun request id k hk => ?_⟩
  · rw [phaseOf_append, hagrees.queued k hk]
    rfl
  · rw [phaseOf_append, hagrees.arm request id k hk]
    rfl
  · rw [phaseOf_append, hagrees.current request id k hk]
    exact if_neg fun hmatch => hunmatched request id k hk hmatch.2

theorem SessionAgrees.of_same (hagrees : SessionAgrees n es session)
    (hqueued : session'.queued = session.queued)
    (harm : session'.connection.pc.arm = session.connection.pc.arm)
    (hcurrent : session'.connection.currentRequest = session.connection.currentRequest) :
    SessionAgrees n es session' := by
  refine ⟨?_, ?_, ?_⟩
  · rw [hqueued]
    exact hagrees.queued
  · rw [harm]
    exact hagrees.arm
  · rw [hcurrent]
    exact hagrees.current

/-- **A task's move keeps the requests of its session and their phases in
step.** -/
theorem Turn.sessionAgrees (h : Turn core n session session' i o es')
    (hagrees : SessionAgrees n es session) : SessionAgrees n (es ++ es') session' := by
  cases h with
  | quiet queued arm current _ =>
    rw [List.append_nil]
    exact hagrees.of_same queued arm current
  | ignored queued arm current _ unmatched _ =>
    exact (hagrees.handled unmatched).of_same queued arm current
  | @connack i reasonCode queued arm current =>
    have hhandled : SessionAgrees n (es ++ [.handled n (.connack reasonCode)]) session :=
      hagrees.handled fun _ _ _ _ => not_false
    exact hhandled.of_same queued arm current
  | acknowledged queued arm before _ after =>
    refine ⟨fun k hk => ?_, fun request id k hk => ?_, fun request id k hk => ?_⟩
    · rw [queued] at hk
      rw [phaseOf_append, hagrees.queued k hk]
      rfl
    · rw [arm] at hk
      rw [phaseOf_append, hagrees.arm request id k hk]
      rfl
    · rw [after] at hk
      cases hk
  | @sent o request id k queued before after current _ _ =>
    have htail := RequestMove.queued_tail queued
    refine ⟨fun k' hk => ?_, fun request' id' k' hk => ?_, fun request' id' k' hk => ?_⟩
    · rw [htail] at hk
      cases hk
    · rw [after] at hk
      cases hk
      have hqueued : phaseOf k es = .queued n :=
        hagrees.queued k (by rw [queued]; exact List.mem_cons_self)
      rw [phaseOf_append, hqueued]
      exact if_pos ⟨rfl, rfl⟩
    · rw [current] at hk
      rw [phaseOf_append, hagrees.current request' id' k' hk]
      rfl
  | lost queued before after current _ _ =>
    have htail := RequestMove.queued_tail queued
    rw [List.append_nil]
    refine ⟨fun k hk => ?_, fun request id k hk => ?_, fun request id k hk => ?_⟩
    · rw [htail] at hk
      cases hk
    · rw [after] at hk
      cases hk
    · rw [current] at hk
      exact hagrees.current request id k hk
  | @stored i request id k queued before after current =>
    refine ⟨fun k' hk => ?_, fun request' id' k' hk => ?_, fun request' id' k' hk => ?_⟩
    · rw [queued] at hk
      rw [phaseOf_append, hagrees.queued k' hk]
      rfl
    · rw [after] at hk
      cases hk
    · rw [current] at hk
      cases hk
      rw [phaseOf_append, hagrees.arm request id k before]
      exact if_pos ⟨rfl, rfl⟩

/-- The request of the waiting call is the last one of its session, so no other
takes its place in `current_request` before its answer. -/
theorem Turn.waits {notifies notifies' : Nat → Notify} (h : Turn core n session session' i o es')
    (running : session.Running) (hlast : session.Last notify)
    (hsignalled : (notifies notify).signalled = true ∨ .notified notify ∈ o →
      (notifies' notify).signalled = true)
    (hwaits : Waits es notifies session n notify) :
    Waits (es ++ es') notifies' session' n notify := by
  cases hwaits with
  | @answered packet phase signalled =>
    exact .answered (phaseOf_answered es' phase) (hsignalled (.inl signalled))
  | queued phase held =>
    have hqueued := held running
    -- a request stays in the channel, or is the one that is taken
    cases h with
    | quiet queued _ _ _ =>
      rw [List.append_nil]
      exact .queued phase fun _ => by rw [queued]; exact hqueued
    | ignored queued _ _ _ _ _ =>
      exact .queued (by rw [phaseOf_append, phase]; rfl) fun _ => by rw [queued]; exact hqueued
    | connack queued _ _ =>
      exact .queued (by rw [phaseOf_append, phase]; rfl) fun _ => by rw [queued]; exact hqueued
    | acknowledged queued _ _ _ _ =>
      exact .queued (by rw [phaseOf_append, phase]; rfl) fun _ => by rw [queued]; exact hqueued
    | sent queued _ after _ _ _ =>
      rw [queued, RequestMove.queued_tail queued, List.mem_singleton] at hqueued
      subst hqueued
      exact .sent (by rw [phaseOf_append, phase]; exact if_pos ⟨rfl, rfl⟩) after
    | lost _ _ _ _ ended _ =>
      rw [List.append_nil]
      exact .queued phase fun hrunning => absurd hrunning ended
    | stored queued _ _ _ =>
      exact .queued (by rw [phaseOf_append, phase]; rfl) fun _ => by rw [queued]; exact hqueued
  | sent phase held =>
    -- the arm is left for `current_request`
    cases h with
    | quiet _ arm _ _ =>
      rw [List.append_nil]
      exact .sent phase (arm.trans held)
    | ignored _ arm _ _ _ _ =>
      exact .sent (by rw [phaseOf_append, phase]; rfl) (arm.trans held)
    | connack _ arm _ => exact .sent (by rw [phaseOf_append, phase]; rfl) (arm.trans held)
    | acknowledged _ arm _ _ _ =>
      exact .sent (by rw [phaseOf_append, phase]; rfl) (arm.trans held)
    | sent _ before _ _ _ _ =>
      rw [before] at held
      cases held
    | lost _ before _ _ _ _ =>
      rw [before] at held
      cases held
    | stored _ before _ current =>
      rw [before] at held
      cases held
      exact .stored (by rw [phaseOf_append, phase]; exact if_pos ⟨rfl, rfl⟩) current
  | @stored request id phase held =>
    -- only its acknowledgement takes it out of `current_request`
    cases h with
    | quiet _ _ current _ =>
      rw [List.append_nil]
      exact .stored phase (current.trans held)
    | ignored _ _ current _ unmatched _ =>
      refine .stored ?_ (current.trans held)
      rw [phaseOf_append, phase]
      exact if_neg fun hmatch => unmatched request id notify held hmatch.2
    | connack _ _ current =>
      refine .stored ?_ (current.trans held)
      rw [phaseOf_append, phase]
      exact if_neg fun hmatch => hmatch.2
    | @acknowledged i packet request' id' notify' _ _ before acknowledges _ =>
      rw [before] at held
      cases held
      have hanswered : phaseOf notify (es ++ [.handled n packet, .signalled n notify]) =
          .answered packet := by
        rw [phaseOf_append, phase]
        exact if_pos ⟨rfl, acknowledges⟩
      exact .answered hanswered (hsignalled (.inr (List.mem_singleton.mpr rfl)))
    | sent _ _ _ current _ _ =>
      exact .stored (by rw [phaseOf_append, phase]; rfl) (current.trans held)
    | lost _ _ _ current _ _ =>
      rw [List.append_nil]
      exact .stored phase (current.trans held)
    | stored _ before _ _ =>
      -- no other request is behind it to be stored
      have hnone := (hlast.1 (by unfold Session.current; rw [held]; rfl)).1
      rw [Pc.inArm_eq, before] at hnone
      cases hnone

/-- A signal is for a request whose answer was just handled. -/
theorem Turn.answered (h : Turn core n session session' i o es')
    (hagrees : SessionAgrees n es session) {m : Nat} (hsignal : .signalled m notify ∈ es') :
    ∃ packet, phaseOf notify (es ++ es') = .answered packet := by
  cases h with
  | @acknowledged i packet request id k _ _ before acknowledges _ =>
    rcases List.mem_cons.mp hsignal with heq | hsignal
    · cases heq
    · cases List.mem_singleton.mp hsignal
      refine ⟨packet, ?_⟩
      rw [phaseOf_append, hagrees.current request id notify before]
      exact if_pos ⟨rfl, acknowledges⟩
  | quiet _ _ _ _ => cases hsignal
  | ignored _ _ _ _ _ _ => cases List.mem_singleton.mp hsignal
  | connack _ _ _ => cases List.mem_singleton.mp hsignal
  | sent _ _ _ _ _ _ => cases List.mem_singleton.mp hsignal
  | lost _ _ _ _ _ _ => cases hsignal
  | stored _ _ _ _ => cases List.mem_singleton.mp hsignal

/-- What a task notifies is in the log. -/
theorem Turn.signalled (h : Turn core n session session' i o es') (hn : .notified notify ∈ o) :
    .signalled n notify ∈ es' := by
  cases h with
  | @acknowledged i packet request id k _ _ _ _ _ =>
    cases List.mem_singleton.mp hn
    exact List.mem_cons_of_mem _ List.mem_cons_self
  | quiet _ _ _ silent => exact absurd hn (silent.2 notify)
  | ignored _ _ _ _ _ silent => exact absurd hn (silent.2 notify)
  | connack _ _ _ => cases List.mem_singleton.mp hn
  | sent _ _ _ _ _ silent => exact absurd hn (silent.2 notify)
  | lost _ _ _ _ _ silent => exact absurd hn (silent.2 notify)
  | stored _ _ _ _ => cases hn

/-- A request that has no number yet stays out of the log. -/
theorem Turn.fresh (h : Turn core n session session' i o es')
    (hfresh : phaseOf notify es = .fresh) : phaseOf notify (es ++ es') = .fresh := by
  cases h with
  | quiet _ _ _ _ => rw [List.append_nil, hfresh]
  | lost _ _ _ _ _ _ => rw [List.append_nil, hfresh]
  | ignored _ _ _ _ _ _ => rw [phaseOf_append, hfresh]; rfl
  | connack _ _ _ => rw [phaseOf_append, hfresh]; rfl
  | acknowledged _ _ _ _ _ => rw [phaseOf_append, hfresh]; rfl
  | sent _ _ _ _ _ _ => rw [phaseOf_append, hfresh]; rfl
  | stored _ _ _ _ => rw [phaseOf_append, hfresh]; rfl

end Turns

/-! ## Steps of the system -/

variable {s s' : State M Q Pk} {i : Input Q} {es es' : List CallEvent}

theorem agrees_new (clientId : String) : Agrees [] (State.new clientId : State M Q Pk) where
  sessions _ _ h := nomatch h
  fresh _ _ := rfl
  signalled _ h := nomatch h
  answered _ _ h := nomatch h
  waits _ _ h := nomatch h

/-- A task moves in its session. -/
theorem Agrees.task {n : Nat} {i : Client.Input} {session session' : Session M Q Pk}
    {o : List (Client.Output Pk)} (hagrees : Agrees es s) (hinv : Inv s)
    (found : s.sessions n = some session) (running : session.Running)
    (turn : Turn core n session session' i o es') :
    Agrees (es ++ es') (o.foldl applyOutput (s.setSession n session')) := by
  have hsignals := foldl_applyOutput_signals o (s.setSession n session')
  have hsession := hagrees.sessions n session found
  have hsessions : ∀ m, (o.foldl applyOutput (s.setSession n session')).sessions m =
      if m = n then some session' else s.sessions m := by
    intro m
    rw [hsignals.sessions, setSession_sessions]
  constructor
  · intro m other hm
    rw [hsessions] at hm
    split at hm
    · next hmn =>
      cases hm
      rw [hmn]
      exact turn.sessionAgrees hsession
    · next hmn =>
      exact (hagrees.sessions m other hm).of_phases fun notify => turn.phaseOf_elsewhere hmn
  · intro notify hle
    rw [hsignals.nextNotify] at hle
    exact turn.fresh (hagrees.fresh notify hle)
  · intro notify hsignalled
    by_cases hn : .notified notify ∈ o
    · exact ⟨n, List.mem_append_right _ (turn.signalled hn)⟩
    · rw [hsignals.notifiedSame notify hn] at hsignalled
      obtain ⟨m, hmem⟩ := hagrees.signalled notify hsignalled
      exact ⟨m, List.mem_append_left _ hmem⟩
  · intro m notify hmem
    rcases List.mem_append.mp hmem with hold | hnew
    · obtain ⟨packet, hphase⟩ := hagrees.answered m notify hold
      exact ⟨packet, phaseOf_answered es' hphase⟩
    · exact turn.answered hsession hnew
  · intro m notify hcall
    rw [hsignals.call] at hcall
    obtain ⟨other, hother, hwaits⟩ := hagrees.waits m notify hcall
    have hsignalled := hsignals.notified notify
    by_cases hmn : m = n
    · subst hmn
      rw [found] at hother
      cases hother
      refine ⟨session', by rw [hsessions, if_pos rfl], ?_⟩
      exact turn.waits running ((hinv.waiting m notify hcall).2 session found) hsignalled hwaits
    · refine ⟨other, by rw [hsessions, if_neg hmn, hother], ?_⟩
      exact hwaits.of_phases es' (turn.phaseOf_elsewhere hmn) fun h => hsignalled (.inl h)

/-- The events concern no request. -/
def Unconcerned (es : List CallEvent) : Prop :=
  ∀ e ∈ es, e.ticket = none ∧ ∀ n notify, e ≠ .signalled n notify

theorem Unconcerned.phaseOf (h : Unconcerned es') (notify : Nat) :
    phaseOf notify (es ++ es') = phaseOf notify es := by
  have hnil : es'.filterMap CallEvent.ticket = [] :=
    List.filterMap_eq_nil_iff.mpr fun e he => (h e he).1
  rw [phaseOf_append, hnil]
  rfl

/-- The parts of a state that the requests do not depend on may change. -/
theorem Agrees.frame (hagrees : Agrees es s) (hquiet : Unconcerned es')
    (hsessions : ∀ n session', s'.sessions n = some session' → SessionAgrees n es session')
    (hnext : s'.nextNotify = s.nextNotify)
    (hnotifies : ∀ notify, (s'.notifies notify).signalled = true →
      (s.notifies notify).signalled = true)
    (hwaits : ∀ n notify, s'.call = .awaitNotify n notify →
      ∃ session, s'.sessions n = some session ∧ Waits es s'.notifies session n notify) :
    Agrees (es ++ es') s' := by
  constructor
  · intro n session' hn
    exact (hsessions n session' hn).of_phases fun notify _ => hquiet.phaseOf notify
  · intro notify hle
    rw [hnext] at hle
    rw [hquiet.phaseOf]
    exact hagrees.fresh notify hle
  · intro notify hsignalled
    obtain ⟨n, hmem⟩ := hagrees.signalled notify (hnotifies notify hsignalled)
    exact ⟨n, List.mem_append_left _ hmem⟩
  · intro n notify hmem
    rw [hquiet.phaseOf]
    rcases List.mem_append.mp hmem with hold | hnew
    · exact hagrees.answered n notify hold
    · exact absurd rfl ((hquiet _ hnew).2 n notify)
  · intro n notify hcall
    obtain ⟨session, hn, hw⟩ := hwaits n notify hcall
    exact ⟨session, hn, hw.of_phases es' (fun _ => hquiet.phaseOf notify) id⟩

theorem Agrees.untouched (hagrees : Agrees es s) (h : UntouchedSessions s s') :
    ∀ n session', s'.sessions n = some session' → SessionAgrees n es session' := by
  intro n session' hn
  have hrel := h n
  rw [hn] at hrel
  cases hs : s.sessions n with
  | none =>
    rw [hs] at hrel
    cases hrel
  | some session =>
    rw [hs] at hrel
    cases hrel with
    | some hsame =>
      refine (hagrees.sessions n session hs).of_same ?_ (by rw [hsame.pc]) hsame.current
      unfold Session.queued
      rw [hsame.requests]

/-- The channel of a task that has ended is dropped. -/
theorem Agrees.taskDrop {n : Nat} {session : Session M Q Pk} (hagrees : Agrees es s)
    (found : s.sessions n = some session) (ended : ¬ session.Running) :
    Agrees es (s.setSession n { session with requests := session.requests.dropReceiver }) := by
  have hsession := hagrees.sessions n session found
  rw [← List.append_nil es]
  refine hagrees.frame (fun _ h => nomatch h) (fun m other hm => ?_) rfl (fun _ h => h)
    fun m notify hcall => ?_
  · rw [setSession_sessions] at hm
    split at hm
    · next hmn =>
      cases hm
      rw [hmn]
      exact ⟨nofun, hsession.arm, hsession.current⟩
    · exact hagrees.sessions m other hm
  · obtain ⟨other, hother, hwaits⟩ := hagrees.waits m notify hcall
    by_cases hmn : m = n
    · subst hmn
      rw [found] at hother
      cases hother
      refine ⟨_, by rw [setSession_sessions, if_pos rfl], ?_⟩
      cases hwaits with
      | queued phase _ => exact .queued phase fun hrunning => absurd hrunning ended
      | sent phase held => exact .sent phase held
      | stored phase held => exact .stored phase held
      | answered phase signalled => exact .answered phase signalled
    · exact ⟨other, by rw [setSession_sessions, if_neg hmn, hother], hwaits⟩

/-- The request that enters a channel is the only one there. -/
theorem Agrees.enqueue {n : Nat} {request : Request} {session : Session M Q Pk}
    (hagrees : Agrees es s) (found : s.sessions n = some session)
    (taken : (session.requests.trySend (request, s.nextNotify)).1 = .ok) :
    Agrees (es ++ [.queued n s.nextNotify]) { s.setSession n { session with
        requests := (session.requests.trySend (request, s.nextNotify)).2 } with
      nextNotify := s.nextNotify + 1
      call := .awaitNotify n s.nextNotify } := by
  have hqueue := Chan.trySend_ok_single taken
  have hnew : phaseOf s.nextNotify (es ++ [.queued n s.nextNotify]) = .queued n := by
    rw [phaseOf_append, hagrees.fresh s.nextNotify (Nat.le_refl _)]
    exact if_pos rfl
  -- a request with a number already is not fresh, so the event passes it by
  have hold : ∀ notify, phaseOf notify es ≠ .fresh →
      phaseOf notify (es ++ [.queued n s.nextNotify]) = phaseOf notify es := by
    intro notify hne
    rw [phaseOf_append]
    cases hphase : phaseOf notify es with
    | fresh => exact absurd hphase hne
    | _ => rfl
  have hkeep : ∀ {m other}, SessionAgrees m es other →
      SessionAgrees m (es ++ [.queued n s.nextNotify]) (other : Session M Q Pk) := by
    intro m other h
    refine h.of_phases fun notify hplace => hold notify fun hfresh => ?_
    rw [hfresh] at hplace
    cases hplace
  have hsessions := setSession_sessions s n { session with
    requests := (session.requests.trySend (request, s.nextNotify)).2 }
  constructor
  · intro m other hm
    have hm := (hsessions m).symm.trans hm
    split at hm
    · next hmn =>
      cases hm
      rw [hmn]
      have hsession := hkeep (hagrees.sessions n session found)
      refine ⟨fun k hk => ?_, hsession.arm, hsession.current⟩
      unfold Session.queued at hk
      rw [hqueue] at hk
      cases List.mem_singleton.mp hk
      exact hnew
    · exact hkeep (hagrees.sessions m other hm)
  · intro notify hle
    have hle : s.nextNotify + 1 ≤ notify := hle
    rw [phaseOf_append, hagrees.fresh notify (by omega)]
    exact if_neg (by omega)
  · intro notify hsignalled
    obtain ⟨m, hmem⟩ := hagrees.signalled notify hsignalled
    exact ⟨m, List.mem_append_left _ hmem⟩
  · intro m notify hmem
    rcases List.mem_append.mp hmem with hold | hnew
    · obtain ⟨packet, hphase⟩ := hagrees.answered m notify hold
      exact ⟨packet, phaseOf_answered _ hphase⟩
    · cases List.mem_singleton.mp hnew
  · intro m notify hcall
    have hcall : Call.awaitNotify n s.nextNotify = .awaitNotify m notify := hcall
    obtain ⟨rfl, rfl⟩ := Call.awaitNotify.inj hcall
    refine ⟨_, (hsessions n).trans (if_pos rfl), .queued hnew fun _ => ?_⟩
    unfold Session.queued
    rw [hqueue]
    exact List.mem_singleton.mpr rfl

/-- **The state and the log agree after every step.** -/
theorem CallMove.agrees (hinv : Inv s) (hagrees : Agrees es s) (h : CallMove core qc s i s' es') :
    Agrees (es ++ es') s' := by
  have hidle : ∀ {s' : State M Q Pk} {es' : List CallEvent}, Unconcerned es' →
      UntouchedSessions s s' → s'.nextNotify = s.nextNotify →
      (∀ notify, (s'.notifies notify).signalled = true → (s.notifies notify).signalled = true) →
      (∀ n notify, s'.call ≠ .awaitNotify n notify) → Agrees (es ++ es') s' := by
    intro s' es' hquiet hsessions hnext hnotifies hcall
    exact hagrees.frame hquiet (hagrees.untouched hsessions) hnext hnotifies
      fun n notify hc => absurd hc (hcall n notify)
  have hpoll : ∀ k notify, (Function.update s.notifies k (s.notifies k).poll.2 notify).signalled =
      true → (s.notifies notify).signalled = true := by
    intro k notify hsignalled
    by_cases hk : notify = k
    · rw [hk, Function.update_self] at hsignalled
      rw [hk]
      exact Notify.signalled_of_poll hsignalled
    · rw [Function.update_of_ne hk] at hsignalled
      exact hsignalled
  cases h with
  | task found running turn _ _ => exact hagrees.task hinv found running turn
  | taskDrop found ended =>
    rw [List.append_nil]
    exact hagrees.taskDrop found ended
  | begins begins =>
    obtain ⟨remote, hcall⟩ := begins.call
    refine hidle (fun _ h => nomatch h) begins.sessions begins.nextNotify ?_ ?_
    · rw [begins.notifies]
      exact fun _ h => h
    · rw [hcall]
      nofun
  | @spawn n remote localAddr conn call =>
    -- a fresh task has no requests
    refine hagrees.frame (fun _ h => nomatch h) (fun m other hm => ?_) rfl (fun _ h => h) nofun
    have hm := (setSession_sessions s n _ m).symm.trans hm
    split at hm
    · cases hm
      exact ⟨nofun, nofun, nofun⟩
    · exact hagrees.sessions m other hm
  | connectPending call _ =>
    refine hidle (by simp [Unconcerned, CallEvent.ticket]) (.of_eq rfl) rfl (fun _ h => h) ?_
    intro n notify hc
    cases call.symm.trans hc
  | connectReturned _ _ =>
    exact hidle (by simp [Unconcerned, CallEvent.ticket]) (.of_eq rfl) rfl (fun _ h => h) nofun
  | connectDropped _ =>
    exact hidle (by simp [Unconcerned, CallEvent.ticket]) (.of_eq rfl) rfl (fun _ h => h) nofun
  | enqueue _ found taken => exact hagrees.enqueue found taken
  | @requestPending n k call pending =>
    refine hagrees.frame (fun _ h => nomatch h) (fun m other hm => hagrees.sessions m other hm) rfl
      (hpoll k) fun m notify hcall => ?_
    obtain ⟨rfl, rfl⟩ := Call.awaitNotify.inj (call.symm.trans hcall)
    obtain ⟨session, hs, hwaits⟩ := hagrees.waits n k call
    refine ⟨session, hs, ?_⟩
    cases hwaits with
    | queued phase held => exact .queued phase held
    | sent phase held => exact .sent phase held
    | stored phase held => exact .stored phase held
    | answered phase signalled =>
      -- an answered request is signalled, and the poll would have returned
      rw [pending] at signalled
      cases signalled
  | @requestReturned n k call signalled =>
    exact hidle (by simp [Unconcerned, CallEvent.ticket]) (.of_eq rfl) rfl (hpoll k) nofun
  | rests _ _ _ rests =>
    refine hidle (fun _ h => nomatch h) rests.sessions rests.nextNotify ?_ rests.awaitNotify
    rw [rests.notifies]
    exact fun _ h => h

end System

end MqttScion.Client
