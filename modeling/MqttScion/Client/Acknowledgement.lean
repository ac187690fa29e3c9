import MqttScion.Lib.Observe
import MqttScion.Client.Lifecycle
import MqttScion.Client.OwnConnack

/-!
# Whose acknowledgement releases a request

There is one `current_request`, and it is overwritten without a look at what is
in it. A cancelled call leaves its request in the channel, in the slot or on the
wire, and the acknowledgement comes in at any later time.

It does no harm. The channel holds one request, so whatever a cancelled call
left there is taken before the request of the next call gets in, and the
waiting call's request is always the last. And an identifier is acquired for
one request at a time (`FreshIds`), so the packet that takes a request out of
`current_request` acknowledges no other.

> `matched`: in every run, a request is signalled once at most, by a packet that
> acknowledges it and no other request of the connection; no call completes
> unsignalled; and the request of the waiting call is kept where its phase says,
> in `current_request` until it is answered.
-/

namespace MqttScion.Client.System

open MqttScion.Net MqttScion.Lib

variable {M Q Pk : Type}

/-- The identifier a step acquires, and the session it acquires it in. -/
def acquired (core : MqttCore M Pk) (s : State M Q Pk) (i : Input Q) : Option (Nat × UInt16) :=
  match i with
  | .task n (.request _ _) =>
    (s.sessions n).bind fun session =>
      (core.acquirePacketId session.connection.mqttConn).1.map fun id => (n, id)
  | _ => none

/-- `acquire_packet_id` answers no identifier under which a request of the
connection still awaits its acknowledgement. -/
def FreshIds (core : MqttCore M Pk) (es : List CallEvent) (s : State M Q Pk) (i : Input Q) :
    Prop :=
  ∀ a ∈ acquired core s i, ∀ notify < s.nextNotify, ¬ (phaseOf notify es).Awaits a.1 a.2

instance (core : MqttCore M Pk) (es : List CallEvent) (s : State M Q Pk) (i : Input Q) :
    Decidable (FreshIds core es s i) :=
  inferInstanceAs (Decidable (∀ a ∈ acquired core s i, ∀ notify < s.nextNotify,
    ¬ (phaseOf notify es).Awaits a.1 a.2))

/-- The last packet handled on the connection acknowledges this request, under
the identifier acquired for it, and no other that waits there. -/
def Acknowledged (before : List CallEvent) (n notify : Nat) : Prop :=
  ∃ earlier packet request id, before = earlier ++ [.handled n packet] ∧
    .sent n request id notify ∈ earlier ∧ phaseOf notify earlier = .stored n request id ∧
    packet.Acknowledges request id ∧
    ∀ other request' id', phaseOf other earlier = .stored n request' id' →
      packet.Acknowledges request' id' → other = notify

/-- A request is signalled once, by its own acknowledgement, and its call
completes after that. -/
def Lawful (before : List CallEvent) (event : CallEvent) : Prop :=
  match event with
  | .signalled n notify => (∀ m, .signalled m notify ∉ before) ∧ Acknowledged before n notify
  | .completed notify => ∃ n, .signalled n notify ∈ before
  | _ => True

/-- The acknowledgements and the calls are matched. -/
structure Matched (es : List CallEvent) (s : State M Q Pk) : Prop where
  lawful : LogAll Lawful es
  kept : ∀ n notify, s.call = .awaitNotify n notify →
    ∃ session, s.sessions n = some session ∧ Waits es s.notifies session n notify

variable {core : MqttCore M Pk} {qc : Quiche Q} {s s' : State M Q Pk} {i : Input Q}
  {es es' : List CallEvent}

/-! ## Identifiers -/

/-- A request is sent in a move of its own, with the identifier acquired in
it. -/
theorem CallMove.sent_or (h : CallMove core qc s i s' es') :
    (∀ n request id notify, .sent n request id notify ∉ es') ∨
    ∃ n request id notify, es' = [.sent n request id notify] ∧
      acquired core s i = some (n, id) := by
  cases h with
  | task found _ turn _ _ =>
    cases turn with
    | @sent o request id notify _ _ _ _ hid _ =>
      refine .inr ⟨_, request, id, notify, rfl, ?_⟩
      simp [acquired, found, hid]
    | _ => exact .inl (by simp)
  | _ => exact .inl (by simp)

/-- **Identifiers stay distinct** when those acquired are fresh. -/
theorem CallMove.distinct (hagrees : Agrees es s) (hfresh : FreshIds core es s i)
    (hdistinct : Distinct fun notify => phaseOf notify es) (h : CallMove core qc s i s' es') :
    Distinct fun notify => phaseOf notify (es ++ es') := by
  have happend : (fun notify => phaseOf notify (es ++ es')) = fun notify =>
      (es'.filterMap CallEvent.ticket).foldl (Phase.next Packet.Acknowledges notify)
        (phaseOf notify es) := by
    funext notify
    exact phaseOf_append notify es es'
  rw [happend]
  rcases h.sent_or with hnone | ⟨n, request, id, notify, rfl, hacquired⟩
  · refine hdistinct.foldl fun n request id notify hmem => ?_
    obtain ⟨e, he, hticket⟩ := List.mem_filterMap.mp hmem
    cases e with
    | sent m request' id' notify' =>
      cases hticket
      exact hnone n request id notify he
    | _ => cases hticket
  · refine hdistinct.next fun m request' id' notify' heq other => ?_
    cases heq
    by_cases hlt : other < s.nextNotify
    · exact hfresh (n, id) hacquired other hlt
    · -- a request without a number has not been sent
      rw [hagrees.fresh other (by omega)]
      exact not_false

theorem sent_of_stored {n notify : Nat} {request : Request} {id : UInt16}
    (h : phaseOf notify es = .stored n request id) : .sent n request id notify ∈ es := by
  have hpending : (phaseOf notify es).pending = some (n, request, id) := by
    rw [h]
    rfl
  obtain ⟨e, he, hticket⟩ := List.mem_filterMap.mp (pending_mem hpending)
  cases e with
  | sent m request' id' notify' =>
    cases hticket
    exact he
  | _ => cases hticket

/-! ## Steps and runs -/

theorem logAll_lawful_of (h : ∀ n notify, .signalled n notify ∉ es')
    (h' : ∀ notify, .completed notify ∉ es') :
    LogAll (fun before event => Lawful (es ++ before) event) es' := by
  intro before event after heq
  have hmem : event ∈ es' := by
    rw [heq]
    exact List.mem_append_right _ List.mem_cons_self
  cases event with
  | signalled n notify => exact absurd hmem (h n notify)
  | completed notify => exact absurd hmem (h' notify)
  | _ => trivial

/-- The packet that takes a request out of `current_request` is its own
acknowledgement. -/
theorem acknowledged_lawful {n notify : Nat} {packet : Packet} {request : Request} {id : UInt16}
    (hagrees : Agrees es s) (hdistinct : Distinct fun notify => phaseOf notify es)
    (hstored : phaseOf notify es = .stored n request id)
    (hack : packet.Acknowledges request id) :
    LogAll (fun before event => Lawful (es ++ before) event)
      [.handled n packet, .signalled n notify] := by
  rw [← List.singleton_append, logAll_append_singleton, logAll_singleton]
  refine ⟨trivial, fun m hmem => ?_, es, packet, request, id, rfl, sent_of_stored hstored, hstored,
    hack, fun other request' id' hother hack' => ?_⟩
  · -- what was signalled before has been answered before
    rcases List.mem_append.mp hmem with hold | hnew
    · obtain ⟨answer, hanswered⟩ := hagrees.answered m notify hold
      rw [hstored] at hanswered
      cases hanswered
    · cases List.mem_singleton.mp hnew
  · obtain rfl := hack.id_eq hack'
    refine hdistinct other notify n id ?_ ?_
    · show (phaseOf other es).Awaits n id
      rw [hother]
      exact ⟨rfl, rfl⟩
    · show (phaseOf notify es).Awaits n id
      rw [hstored]
      exact ⟨rfl, rfl⟩

theorem CallMove.lawful (hagrees : Agrees es s)
    (hdistinct : Distinct fun notify => phaseOf notify es) (h : CallMove core qc s i s' es') :
    LogAll (fun before event => Lawful (es ++ before) event) es' := by
  cases h with
  | task found _ turn _ _ =>
    cases turn with
    | acknowledged _ _ before acknowledges _ =>
      exact acknowledged_lawful hagrees hdistinct
        ((hagrees.sessions _ _ found).current _ _ _ before) acknowledges
    | _ => exact logAll_lawful_of (by simp) (by simp)
  | requestReturned call signalled =>
    rw [logAll_singleton, List.append_nil]
    exact hagrees.signalled _ signalled
  | _ => exact logAll_lawful_of (by simp) (by simp)

/-- **Acknowledgements are matched to the right call**: in every run in which no
identifier is acquired that is still awaited, requests are signalled once at
most and each by its own acknowledgement, and the request of the waiting call is
kept until then. -/
theorem matched {clientId : String} {is : List (Input Q)} {s : State M Q Pk}
    {es : List CallEvent}
    (hfresh : AllSteps (observe (step core qc) (callEvents core qc)) (FreshIds core) []
      (State.new clientId) is)
    (hr : run (observe (step core qc) (callEvents core qc)) (State.new clientId) is =
      some (s, es)) :
    Matched es s := by
  have hall : (Inv s ∧ Agrees es s ∧ Distinct fun notify => phaseOf notify es) ∧
      LogAll Lawful es := by
    refine @run_induct_of_steps _ _ _ (observe (step core qc) (callEvents core qc)) (FreshIds core)
      (fun es s => (Inv s ∧ Agrees es s ∧ Distinct fun notify => phaseOf notify es) ∧
        LogAll Lawful es)
      ?_ is [] es (State.new clientId) s
      ⟨⟨inv_new clientId, agrees_new clientId, fun _ _ _ _ h => h.elim⟩, logAll_nil _⟩ hfresh hr
    rintro es s i s' es' ⟨⟨hinv, hagrees, hdistinct⟩, hlawful⟩ hfresh hm
    obtain ⟨o, hstep, rfl⟩ := observe_eq_some.mp hm
    have hmove := step_callMove hstep
    exact ⟨⟨step_inv hinv hstep, hmove.agrees hinv hagrees,
      hmove.distinct hagrees hfresh hdistinct⟩,
      logAll_append.mpr ⟨hlawful, hmove.lawful hagrees hdistinct⟩⟩
  exact ⟨hall.2, hall.1.2.1.waits⟩

/-- A PUBLISH is dropped once it is sent, and its PUBACK comes in while
`subscribe` waits for a SUBACK. -/
def lateAck : List (Input Peer) :=
  connectStart ++ connectInputs.map (.task 0) ++ [.poll] ++
  [.publish "t" [1], .send, .task 0 (.request (.publish ⟨"t", .atLeastOnce, [1]⟩) 0)] ++
  List.replicate 4 (.task 0 .step) ++ [.cancel] ++
  [.subscribe "t", .send, .task 0 (.request (.subscribe "t") 1)] ++
  List.replicate 4 (.task 0 .step) ++
  [.task 0 (.datagram [0x40, 2, 0, 1] peerAddr)] ++ List.replicate 7 (.task 0 .step) ++
  [.task 0 (.datagram [0x90, 4, 0, 2, 0, 1] peerAddr)] ++ List.replicate 7 (.task 0 .step) ++
  [.poll]

theorem matched_sample :
    ∃ s es, run (observe (step wireCore peerQuiche) (callEvents wireCore peerQuiche))
        (State.new "c1") lateAck = some (s, es) ∧
      .handled 0 (.puback 1 0) ∈ es ∧ .signalled 0 0 ∉ es ∧ .completed 1 ∈ es ∧ Matched es s :=
  ⟨_, _, rfl, by decide, by decide, by decide,
    @matched _ _ _ wireCore peerQuiche "c1" lateAck _ _ (by decide) rfl⟩

end MqttScion.Client.System
