import MqttScion.Lib.Observe
import MqttScion.Client.CallMove
import MqttScion.Client.Wire

/-!
# Whose CONNACK releases `connect`

All connections of a `Client` share one `Notify`. A connection task whose
`connect` was dropped lives on, and its CONNACK leaves a permit that the next
`connect` finds at its first poll. A request has a `Notify` of its own, so
nothing of the kind can happen to it.

The `Notify` is a function of the log (`outstanding`): the CONNACKs handled, on
whichever connection, against the polls that took them.

> `ownConnack_iff`: in every run, each `connect` that returned `Ok` had a
> CONNACK on its own connection before, if and only if no `connect` was polled
> while its own connection had none and the CONNACK of another was outstanding.
-/

namespace MqttScion.Client.System

open MqttScion.Net MqttScion.Lib

variable {M Q Pk : Type} {core : MqttCore M Pk} {qc : Quiche Q}

/-- What an event does to the shared `Notify`. -/
def connackEvent (notification : Notify) : CallEvent → Notify
  | .handled _ (.connack _) => notification.notifyOne
  | .polled _ => notification.poll.2
  | .dropped => notification.dropWaiter
  | _ => notification

/-- The CONNACKs that no `connect` has taken yet. -/
def outstanding (es : List CallEvent) : Notify := es.foldl connackEvent .empty

theorem outstanding_append (es es' : List CallEvent) :
    outstanding (es ++ es') = es'.foldl connackEvent (outstanding es) :=
  List.foldl_append

/-- A move of a task signals the `Notify` when it handles a CONNACK. -/
theorem Turn.connectNotification {n : Nat} {session session' : Session M Q Pk} {i : Client.Input}
    {o : List (Client.Output Pk)} {es : List CallEvent} (h : Turn core n session session' i o es)
    (s : State M Q Pk) :
    (o.foldl applyOutput s).connectNotification = es.foldl connackEvent s.connectNotification := by
  cases h with
  | quiet _ _ _ silent => rw [foldl_applyOutput_silent silent s]; rfl
  | @ignored i o packet _ _ _ noConnack _ silent =>
    rw [foldl_applyOutput_silent silent s]
    cases packet with
    | connack reasonCode => exact absurd rfl (noConnack reasonCode)
    | _ => rfl
  | connack _ _ _ => rfl
  | @acknowledged i packet request id notify _ _ _ acknowledges _ =>
    cases packet with
    | connack reasonCode => exact acknowledges.elim
    | _ => rfl
  | sent _ _ _ _ _ silent => rw [foldl_applyOutput_silent silent s]; rfl
  | lost _ _ _ _ _ silent => rw [foldl_applyOutput_silent silent s]; rfl
  | stored _ _ _ _ => rfl

/-- The `Notify` follows the log. -/
theorem CallMove.connectNotification {s s' : State M Q Pk} {i : Input Q} {es : List CallEvent}
    (h : CallMove core qc s i s' es) :
    s'.connectNotification = es.foldl connackEvent s.connectNotification := by
  cases h with
  | @task n i session session' o es _ _ turn _ _ => exact turn.connectNotification _
  | taskDrop _ _ => rfl
  | begins begins => exact begins.connectNotification
  | spawn _ => rfl
  | connectPending _ _ => rfl
  | connectReturned _ _ => rfl
  | connectDropped _ => rfl
  | enqueue _ _ _ => rfl
  | requestPending _ _ => rfl
  | requestReturned _ _ => rfl
  | rests _ _ _ rests => exact rests.connectNotification

/-! ## Steps and runs -/

/-- A `connect` returns after a CONNACK on the connection it created. -/
def OwnConnack (before : List CallEvent) (event : CallEvent) : Prop :=
  ∀ n, event = .connected n → ∃ reasonCode, .handled n (.connack reasonCode) ∈ before

/-- No `connect` whose connection has had no CONNACK is polled while one of
another connection is outstanding. -/
def NoForeignConnack (es : List CallEvent) (s : State M Q Pk) (i : Input Q) : Prop :=
  ∀ n, s.call = .awaitConnack n → i = .poll →
    (∀ reasonCode, .handled n (.connack reasonCode) ∉ es) → (outstanding es).signalled = false

/-- Only the return of a `connect` is in question. -/
theorem ownConnack_append_of_ne {es es' : List CallEvent} (h : ∀ n, .connected n ∉ es') :
    LogAll OwnConnack (es ++ es') ↔ LogAll OwnConnack es := by
  refine logAll_append_of_trivial fun event hmem before n heq => ?_
  rw [heq] at hmem
  exact absurd hmem (h n)

/-- A step keeps the law exactly when it takes no foreign CONNACK. -/
theorem step_ownConnack_iff {es es' : List CallEvent} {s s' : State M Q Pk} {i : Input Q}
    (hlog : s.connectNotification = outstanding es) (h : CallMove core qc s i s' es') :
    LogAll OwnConnack (es ++ es') ↔ LogAll OwnConnack es ∧ NoForeignConnack es s i := by
  have hno : (∀ n, .connected n ∉ es') → NoForeignConnack es s i →
      (LogAll OwnConnack (es ++ es') ↔ LogAll OwnConnack es ∧ NoForeignConnack es s i) := by
    intro hne hC
    rw [ownConnack_append_of_ne hne]
    exact (and_iff_left hC).symm
  have hcall : (∀ n, s.call ≠ .awaitConnack n) → NoForeignConnack es s i :=
    fun hne n hc => absurd hc (hne n)
  cases h with
  | task _ _ turn _ _ => exact hno turn.noReturn.1 fun _ _ hi => nomatch hi
  | taskDrop _ _ => exact hno nofun fun _ _ hi => nomatch hi
  | begins _ => exact hno nofun fun _ _ hi => nomatch hi
  | spawn _ => exact hno nofun fun _ _ hi => nomatch hi
  | connectPending call pending =>
    refine hno (by simp) fun n _ _ _ => ?_
    rw [← hlog]
    exact pending
  | @connectReturned n call signalled =>
    rw [hlog] at signalled
    have hreturn : LogAll OwnConnack (es ++ [.polled n, .connected n]) ↔
        LogAll OwnConnack es ∧ ∃ reasonCode, .handled n (.connack reasonCode) ∈ es := by
      rw [← List.singleton_append, ← List.append_assoc, logAll_append_singleton,
        ownConnack_append_of_ne (by simp)]
      simp [OwnConnack]
    rw [hreturn]
    refine and_congr_right fun _ => ⟨fun ⟨reasonCode, hown⟩ m hc _ hnone => ?_, fun hC => ?_⟩
    · obtain rfl := Call.awaitConnack.inj (call.symm.trans hc)
      exact absurd hown (hnone reasonCode)
    · by_contra hnone
      have hquiet := hC n call rfl fun reasonCode hmem => hnone ⟨reasonCode, hmem⟩
      rw [signalled] at hquiet
      cases hquiet
  | connectDropped _ => exact hno (by simp) fun _ _ hi => nomatch hi
  | enqueue _ _ _ => exact hno (by simp) fun _ _ hi => nomatch hi
  | requestPending call _ =>
    exact hno nofun (hcall fun n hc => nomatch call.symm.trans hc)
  | requestReturned call _ =>
    exact hno (by simp) (hcall fun n hc => nomatch call.symm.trans hc)
  | rests _ noPoll _ _ => exact hno nofun fun _ _ hi => absurd hi noPoll

/-- **When `connect` succeeds only on its own CONNACK**: every `connect` that
returned `Ok` had a CONNACK on the connection it created if and only if none was
polled while its connection had had no CONNACK and one of another connection
was outstanding. -/
theorem ownConnack_iff {clientId : String} {is : List (Input Q)} {s : State M Q Pk}
    {es : List CallEvent}
    (hr : run (observe (step core qc) (callEvents core qc)) (State.new clientId) is =
      some (s, es)) :
    LogAll OwnConnack es ↔
      AllSteps (observe (step core qc) (callEvents core qc)) NoForeignConnack []
        (State.new clientId) is := by
  refine @run_iff _ _ _ (observe (step core qc) (callEvents core qc)) NoForeignConnack
    (fun es s => s.connectNotification = outstanding es) (fun es _ => LogAll OwnConnack es)
    is es (State.new clientId) s rfl (logAll_nil _) ?_ ?_ hr
  · intro es s i s' es' hlog hm
    obtain ⟨o, hstep, rfl⟩ := observe_eq_some.mp hm
    rw [outstanding_append, ← hlog]
    exact (step_callMove hstep).connectNotification
  · intro es s i s' es' hlog hm
    obtain ⟨o, hstep, rfl⟩ := observe_eq_some.mp hm
    exact step_ownConnack_iff hlog (step_callMove hstep)

/-- `connect` up to the wait for the CONNACK. -/
def connectStart : List (Input Peer) :=
  [.connect peerAddr, .connection (some ((peerClient 100).localAddr, (peerClient 100).conn))]

theorem ownConnack_iff_sample :
    ∃ s es, run (observe (step wireCore peerQuiche) (callEvents wireCore peerQuiche))
        (State.new "c1") (connectStart ++ connectInputs.map (.task 0) ++ [.poll]) =
          some (s, es) ∧
      (LogAll OwnConnack es ↔
        AllSteps (observe (step wireCore peerQuiche) (callEvents wireCore peerQuiche))
          NoForeignConnack [] (State.new "c1")
          (connectStart ++ connectInputs.map (.task 0) ++ [.poll])) :=
  ⟨_, _, rfl, ownConnack_iff rfl⟩

/-- The first `connect` is dropped, its connection gets a CONNACK afterwards,
and the second `connect` returns `Ok` at its first poll: its own task has not
sent a byte. -/
theorem foreign_connack :
    ∃ s es, run (observe (step wireCore peerQuiche) (callEvents wireCore peerQuiche))
        (State.new "c1")
        (connectStart ++ [.cancel] ++ connectInputs.map (.task 0) ++ connectStart ++ [.poll]) =
          some (s, es) ∧
      s.connected = true ∧
      (∃ session, s.sessions 1 = some session ∧ session.connection.pc = .initialSend) ∧
      es = [.dropped, .handled 0 (.connack 0), .polled 1, .connected 1] ∧
      ¬ LogAll OwnConnack es := by
  refine ⟨_, _, rfl, rfl, ⟨_, rfl, rfl⟩, rfl, fun h => ?_⟩
  obtain ⟨reasonCode, hmem⟩ :=
    h [.dropped, .handled 0 (.connack 0), .polled 1] (.connected 1) [] rfl 1 rfl
  simp at hmem

end MqttScion.Client.System
