import MqttScion.Client.Connection
import MqttScion.Client.Wire

/-!
# The arm of a request

A request is taken from the channel, its packet is built and sent through the
library, the events are handled, and the request becomes the current one. Every
step of the arm can fail, and each failure is handled in its own way: `unwrap`
panics, `?` ends the task, a refused `stream_send` and a `NotifyError` are only
logged.

> `allOrNothing_iff`: the arm comes to its end, and it hands the whole packet to
> stream 0 and records the request, or reports an error and leaves things as they
> were: exactly when nothing in it fails.
-/

namespace MqttScion.Client

open MqttScion.Net MqttScion.Lib

variable {M Q Pk : Type} {core : MqttCore M Pk} {qc : Quiche Q} {accepted : Q → Bytes}
  {s s' : Connection M Q Pk} {i : Input} {o : List (Output Pk)}

/-! ## The batch of a request -/

/-- The packets a batch of events asks to send, in order. -/
def packetsToSend (events : List (Event Pk)) : List Pk :=
  events.filterMap fun event => match event with
    | .requestSendPacket packet => some packet
    | _ => none

/-- The connection after the batch. -/
def deliver (core : MqttCore M Pk) (qc : Quiche Q) : Q → List (Event Pk) → Q
  | q, [] => q
  | q, .requestClose :: _ => q
  | q, .requestSendPacket packet :: rest =>
    deliver core qc (qc.streamSend q 0 (core.toContinuousBuffer packet) false).2 rest
  | q, _ :: rest => deliver core qc q rest

/-- Stream 0 takes every packet of the batch whole, and none is behind a
`RequestClose`. -/
def TakesAll (core : MqttCore M Pk) (qc : Quiche Q) : Q → List (Event Pk) → Prop
  | _, [] => True
  | _, .requestClose :: rest => (packetsToSend rest).flatMap core.toContinuousBuffer = []
  | q, .requestSendPacket packet :: rest =>
    (core.toContinuousBuffer packet = [] ∨ qc.Fits q (core.toContinuousBuffer packet)) ∧
      TakesAll core qc (qc.streamSend q 0 (core.toContinuousBuffer packet) false).2 rest
  | q, _ :: rest => TakesAll core qc q rest

/-- Stream 0 has got the whole batch, on top of `before`, exactly when it has
got `before` and takes everything from there on. -/
theorem deliver_accepted_iff (law : StreamSendLaw qc accepted) :
    ∀ (events : List (Event Pk)) (q : Q) (before : Bytes),
      (accepted q).length ≤ before.length →
        (accepted (deliver core qc q events) =
            before ++ (packetsToSend events).flatMap core.toContinuousBuffer ↔
          accepted q = before ∧ TakesAll core qc q events) := by
  intro events
  induction events with
  | nil =>
    intro q before _
    simp [deliver, packetsToSend, TakesAll]
  | cons event rest ih =>
    intro q before hle
    cases event with
    | requestSendPacket packet =>
      have hmore := law.accepted_length_le q (core.toContinuousBuffer packet)
      have hle' : (accepted (qc.streamSend q 0 (core.toContinuousBuffer packet) false).2).length ≤
          (before ++ core.toContinuousBuffer packet).length := by
        rw [List.length_append]
        omega
      have hpackets : packetsToSend (.requestSendPacket packet :: rest) =
          packet :: packetsToSend rest := rfl
      rw [hpackets, List.flatMap_cons, ← List.append_assoc, deliver, TakesAll,
        ih _ _ hle', law.accepted_eq_iff hle, and_assoc]
    | requestClose =>
      have hpackets : packetsToSend (.requestClose :: rest) = packetsToSend rest := rfl
      rw [hpackets, deliver, TakesAll]
      constructor
      · intro heq
        -- there is no room in `before` for what is behind
        have hlen := congrArg List.length heq
        rw [List.length_append] at hlen
        have hnil : (packetsToSend rest).flatMap core.toContinuousBuffer = [] :=
          List.eq_nil_of_length_eq_zero (by omega)
        rw [hnil, List.append_nil] at heq
        exact ⟨heq, hnil⟩
      · rintro ⟨heq, hnil⟩
        rw [heq, hnil, List.append_nil]
    | _ => exact ih q before hle

/-! ## The arm -/

/-- The packet builder accepts the topic. -/
def Request.topicOk (core : MqttCore M Pk) : Request → Bool
  | .subscribe topic => core.subEntry topic .atLeastOnce
  | .publish message => core.publishTopicName message.topic

/-- The packet built for the request. -/
def Request.build (core : MqttCore M Pk) (id : UInt16) : Request → Option Pk
  | .subscribe topic => core.subscribeBuild id topic .atLeastOnce
  | .publish message => core.publishBuild id message

/-- The identifier acquired for the request and the events its packet is sent
through, if the arm comes that far. -/
def requestBatch (core : MqttCore M Pk) (m : M) (request : Request) :
    Option (UInt16 × List (Event Pk)) :=
  if request.topicOk core then
    match core.acquirePacketId m with
    | (some id, m) => (request.build core id).map fun packet => (id, (core.checkedSend m packet).1)
    | (none, _) => none
  else none

/-- What an output tells the caller that waits on a `Notify`: `notify_one` stands
for success, and nothing else reaches a caller. -/
def Output.tells : Output Pk → Option (Nat × Except Unit Unit)
  | .notified notify => some (notify, .ok ())
  | _ => none

/-- The task is in the arm. -/
def Arm (_ : List (Output Pk)) (t : Connection M Q Pk) (_ : Input) : Prop :=
  t.pc.inArm.isSome = true

/-- The run `is` carries out the arm of `request`, from the head of the loop. -/
structure ArmRun (core : MqttCore M Pk) (qc : Quiche Q) (s : Connection M Q Pk)
    (request : Request) (notify : Nat) (is : List Input) (s' : Connection M Q Pk)
    (os : List (Output Pk)) : Prop where
  head : s.pc = .select
  busy : AllSteps (step core qc) Arm [] (onRequest core request notify s).1 is
  ran : run (step core qc) s (.request request notify :: is) = some (s', os)
  done : s'.pc.inArm = none

/-- Stream 0 has got all the packets of the request, and it is the current
one. -/
def HandedOver (accepted : Q → Bytes) (core : MqttCore M Pk) (s : Connection M Q Pk)
    (request : Request) (notify : Nat) (s' : Connection M Q Pk) : Prop :=
  ∃ id events, requestBatch core s.mqttConn request = some (id, events) ∧
    packetsToSend events ≠ [] ∧
    accepted s'.conn =
      accepted s.conn ++ (packetsToSend events).flatMap core.toContinuousBuffer ∧
    s'.currentRequest = some (request, id, notify)

/-- The caller has been told an error, and the current request is what it was. -/
def Refused (s : Connection M Q Pk) (notify : Nat) (s' : Connection M Q Pk)
    (os : List (Output Pk)) : Prop :=
  (∃ x ∈ os, x.tells = some (notify, .error ())) ∧ s'.currentRequest = s.currentRequest

/-- The task goes on, and the request was carried out or refused. -/
def AllOrNothing (accepted : Q → Bytes) (core : MqttCore M Pk) (s : Connection M Q Pk)
    (request : Request) (notify : Nat) (s' : Connection M Q Pk) (os : List (Output Pk)) : Prop :=
  (∀ r, s'.pc ≠ .ended r) ∧
    (HandedOver accepted core s request notify s' ∨ Refused s notify s' os)

/-- Nothing in the arm fails: the topic is accepted, there is an identifier, the
packet is built, the library sends it, and stream 0 takes it whole. -/
def Unhindered (core : MqttCore M Pk) (qc : Quiche Q) (s : Connection M Q Pk)
    (request : Request) : Prop :=
  ∃ id events, requestBatch core s.mqttConn request = some (id, events) ∧
    packetsToSend events ≠ [] ∧ TakesAll core qc s.conn events

/-- The arm up to the batch: it gets there with the connection and the current
request as they were, or the task ends. -/
theorem onRequest_cases (core : MqttCore M Pk) (s : Connection M Q Pk) (request : Request)
    (notify : Nat) :
    (∃ id events, requestBatch core s.mqttConn request = some (id, events) ∧
        (onRequest core request notify s).1.pc = .handle events (.request request id notify) ∧
        (onRequest core request notify s).1.conn = s.conn) ∨
      requestBatch core s.mqttConn request = none ∧
        ∃ r, (onRequest core request notify s).1.pc = .ended r := by
  have hsend : ∀ (build : UInt16 → Option Pk) fault, request.topicOk core = true →
      (∀ id, request.build core id = build id) →
      (∃ id events, requestBatch core s.mqttConn request = some (id, events) ∧
        (sendRequest core build fault request notify s).1.pc =
          .handle events (.request request id notify) ∧
        (sendRequest core build fault request notify s).1.conn = s.conn) ∨
      requestBatch core s.mqttConn request = none ∧
        ∃ r, (sendRequest core build fault request notify s).1.pc = .ended r := by
    intro build fault htopic hbuild
    cases hacquire : core.acquirePacketId s.mqttConn with
    | mk a m =>
      cases a with
      | none =>
        simp only [sendRequest, requestBatch, if_pos htopic, hacquire]
        exact .inr ⟨trivial, _, rfl⟩
      | some id =>
        cases hpacket : build id with
        | none =>
          simp only [sendRequest, requestBatch, if_pos htopic, hacquire, hbuild, hpacket]
          exact .inr ⟨rfl, _, rfl⟩
        | some packet =>
          simp only [sendRequest, requestBatch, if_pos htopic, hacquire, hbuild, hpacket]
          exact .inl ⟨id, _, rfl, rfl, trivial⟩
  have hpanic : request.topicOk core ≠ true →
      requestBatch core s.mqttConn request = none := fun hnot => if_neg hnot
  cases request with
  | subscribe topic =>
    by_cases htopic : core.subEntry topic .atLeastOnce = true
    · simp only [onRequest, if_pos htopic]
      exact hsend _ _ htopic fun _ => rfl
    · simp only [onRequest, if_neg htopic]
      exact .inr ⟨hpanic htopic, _, rfl⟩
  | publish message =>
    by_cases htopic : core.publishTopicName message.topic = true
    · simp only [onRequest, if_pos htopic]
      exact hsend _ _ htopic fun _ => rfl
    · simp only [onRequest, if_neg htopic]
      exact .inr ⟨hpanic htopic, _, rfl⟩

/-- The arm is in the batch, of which `q` will be left, or it is over and has
recorded the request. -/
def InBatch (core : MqttCore M Pk) (qc : Quiche Q) (request : Request) (id : UInt16)
    (notify : Nat) (q : Q) (t : Connection M Q Pk) : Prop :=
  (∃ events, t.pc = .handle events (.request request id notify) ∧
    deliver core qc t.conn events = q) ∨
    t.pc = .checkClosed ∧ t.conn = q ∧ t.currentRequest = some (request, id, notify)

theorem handleEvents_inBatch {request : Request} {id : UInt16} {notify : Nat}
    (events : List (Event Pk)) (t : Connection M Q Pk) :
    InBatch core qc request id notify (deliver core qc t.conn events)
      (handleEvents core qc events (.request request id notify) t).1 := by
  cases events with
  | nil => exact .inr ⟨rfl, rfl, rfl⟩
  | cons event rest =>
    by_cases hclose : event = .requestClose
    · subst hclose
      exact .inr ⟨rfl, rfl, rfl⟩
    · have hstep : handleEvents core qc (event :: rest) (.request request id notify) t =
          ({ (handleEvent core qc event t).1 with pc := .handle rest (.request request id notify) },
            (handleEvent core qc event t).2) := by
        cases event with
        | requestClose => exact absurd rfl hclose
        | _ => rfl
      rw [hstep]
      refine .inl ⟨rest, rfl, ?_⟩
      have hhandled : Handled core qc t event (handleEvent core qc event t).1
          (handleEvent core qc event t).2 := handleEvent_handled event t
      show deliver core qc (handleEvent core qc event t).1.conn rest = _
      generalize (handleEvent core qc event t).1 = t' at hhandled ⊢
      generalize (handleEvent core qc event t).2 = o at hhandled
      cases hhandled with
      | sends packet => rfl
      | offers message => rfl
      | connects reasonCode => rfl
      | acknowledges _ _ => rfl
      | ignores noSend _ =>
        cases event with
        | requestSendPacket packet => exact absurd rfl (noSend packet)
        | requestClose => exact absurd rfl hclose
        | _ => rfl

theorem arm_step {request : Request} {id : UInt16} {notify : Nat} {q : Q}
    {t t' : Connection M Q Pk} (h : InBatch core qc request id notify q t)
    (hbusy : t.pc.inArm.isSome = true) (hm : step core qc t i = some (t', o)) :
    InBatch core qc request id notify q t' := by
  rcases h with ⟨events, hpc, rfl⟩ | ⟨hpc, -, -⟩
  · rcases step_cases hm with htask | ⟨-, messages, rfl⟩
    · cases i with
      | step =>
        simp only [taskStep, hpc, Option.some.injEq] at htask
        have hnext : InBatch core qc request id notify (deliver core qc t.conn events)
            (handleEvents core qc events (.request request id notify) t).1 :=
          handleEvents_inBatch events t
        rw [htask] at hnext
        exact hnext
      | _ => simp [taskStep, hpc] at htask
    · exact .inl ⟨events, hpc, rfl⟩
  · rw [hpc] at hbusy
    cases hbusy

/-- How the arm ends: with the batch handled and the request recorded, or with
the task. -/
theorem ArmRun.outcome {request : Request} {notify : Nat} {is : List Input}
    {os : List (Output Pk)} (h : ArmRun core qc s request notify is s' os) :
    (∃ id events, requestBatch core s.mqttConn request = some (id, events) ∧
        s'.pc = .checkClosed ∧ s'.conn = deliver core qc s.conn events ∧
        s'.currentRequest = some (request, id, notify)) ∨
      requestBatch core s.mqttConn request = none ∧ ∃ r, s'.pc = .ended r := by
  obtain ⟨s₁, o₁, o₂, hm, hrest, rfl⟩ := run_cons_eq_some.mp h.ran
  have hstart : onRequest core request notify s = (s₁, o₁) := by
    simp only [step, taskStep, h.head, Option.some.injEq] at hm
    exact hm
  have hbusy := h.busy
  have hcases := onRequest_cases core s request notify
  rw [hstart] at hbusy hcases
  rcases hcases with ⟨id, events, hbatch, hpc, hconn⟩ | ⟨hnone, r, hpc⟩
  · have hstart' : InBatch core qc request id notify (deliver core qc s.conn events) s₁ :=
      .inl ⟨events, hpc, by rw [hconn]⟩
    have hend : InBatch core qc request id notify (deliver core qc s.conn events) s' := by
      refine run_induct_of_steps (C := Arm)
        (P := fun _ t => InBatch core qc request id notify (deliver core qc s.conn events) t)
        ?_ hstart' hbusy hrest
      intro os t i t' o ht hb hstep
      exact arm_step ht hb hstep
    rcases hend with ⟨events', hpc', -⟩ | ⟨hpc', hconn', hcurrent⟩
    · have hdone := h.done
      rw [hpc'] at hdone
      cases hdone
    · exact .inl ⟨id, events, hbatch, hpc', hconn', hcurrent⟩
  · refine .inr ⟨hnone, r, ?_⟩
    cases is with
    | nil =>
      obtain ⟨rfl, -⟩ := Prod.mk.inj (Option.some.inj hrest)
      exact hpc
    | cons i is =>
      replace hpc : s₁.pc = .ended r := hpc
      have hfirst : s₁.pc.inArm.isSome = true := hbusy.1
      rw [hpc] at hfirst
      cases hfirst

/-- The arm comes to its end: a batch is a list. -/
theorem batch_ends (core : MqttCore M Pk) (qc : Quiche Q) {request : Request} {id : UInt16}
    {notify : Nat} :
    ∀ (events : List (Event Pk)) (t : Connection M Q Pk),
      t.pc = .handle events (.request request id notify) →
        ∃ n t' os, AllSteps (step core qc) Arm [] t (List.replicate n .step) ∧
          run (step core qc) t (List.replicate n .step) = some (t', os) ∧ t'.pc.inArm = none := by
  intro events
  induction events with
  | nil =>
    intro t hpc
    have hstep : step core qc t .step =
        some (handleEvents core qc [] (.request request id notify) t) := by
      simp only [step, taskStep, hpc]
    refine ⟨1, _, _, ⟨by rw [Arm, hpc]; rfl, fun _ _ _ => trivial⟩,
      run_cons_eq_some.mpr ⟨_, _, [], hstep, rfl, rfl⟩, rfl⟩
  | cons event rest ih =>
    intro t hpc
    have hstep : step core qc t .step =
        some (handleEvents core qc (event :: rest) (.request request id notify) t) := by
      simp only [step, taskStep, hpc]
    have hbusy : Arm ([] : List (Output Pk)) t .step := by
      rw [Arm, hpc]
      rfl
    by_cases hclose : event = .requestClose
    · subst hclose
      exact ⟨1, _, _, ⟨hbusy, fun _ _ _ => trivial⟩,
        run_cons_eq_some.mpr ⟨_, _, [], hstep, rfl, rfl⟩, rfl⟩
    · have hnext : (handleEvents core qc (event :: rest) (.request request id notify) t).1.pc =
          .handle rest (.request request id notify) := by
        cases event with
        | requestClose => exact absurd rfl hclose
        | _ => rfl
      obtain ⟨n, t', os, hrest, hrun, hdone⟩ := ih _ hnext
      refine ⟨n + 1, t', _, ⟨hbusy, fun t₁ o₁ hm => ?_⟩,
        run_cons_eq_some.mpr ⟨_, _, os, hstep, hrun, rfl⟩, hdone⟩
      rw [hstep] at hm
      rw [← (Prod.mk.inj (Option.some.inj hm)).1]
      refine AllSteps.imp ?_ hrest
      exact fun _ _ _ _ h => h

theorem arm_ends (hhead : s.pc = .select) (request : Request) (notify : Nat) :
    ∃ n s' os, ArmRun core qc s request notify (List.replicate n .step) s' os := by
  have hstep : step core qc s (.request request notify) =
      some (onRequest core request notify s) := by
    simp only [step, taskStep, hhead]
  rcases onRequest_cases core s request notify with
    ⟨id, events, -, hpc, -⟩ | ⟨-, r, hpc⟩
  · obtain ⟨n, s', os, hbusy, hrun, hdone⟩ := batch_ends core qc events _ hpc
    exact ⟨n, s', _, hhead, hbusy, run_cons_eq_some.mpr ⟨_, _, os, hstep, hrun, rfl⟩, hdone⟩
  · have hdone : (onRequest core request notify s).1.pc.inArm = none := by
      rw [hpc]
      rfl
    exact ⟨0, _, _, hhead, trivial, run_cons_eq_some.mpr ⟨_, _, [], hstep, rfl, rfl⟩, hdone⟩

/-- **Request handling is all-or-nothing** exactly when nothing in the arm fails.
The arm of every request comes to its end; and it has handed the packet to
stream 0 and recorded the request, or reported an error and left the rest as it
was, if and only if the topic is accepted, there is a packet identifier, the
packet is built and sent by the library, and stream 0 takes it whole. -/
theorem allOrNothing_iff (law : StreamSendLaw qc accepted) (hhead : s.pc = .select)
    (request : Request) (notify : Nat) :
    (∃ n s' os, ArmRun core qc s request notify (List.replicate n .step) s' os) ∧
      ∀ is s' os, ArmRun core qc s request notify is s' os →
        (AllOrNothing accepted core s request notify s' os ↔ Unhindered core qc s request) := by
  refine ⟨arm_ends hhead request notify, fun is s' os h => ?_⟩
  have hdelivered : ∀ (events : List (Event Pk)),
      accepted (deliver core qc s.conn events) =
          accepted s.conn ++ (packetsToSend events).flatMap core.toContinuousBuffer ↔
        TakesAll core qc s.conn events := by
    intro events
    rw [deliver_accepted_iff law events s.conn (accepted s.conn) (Nat.le_refl _)]
    exact and_iff_right rfl
  constructor
  · rintro ⟨hrunning, ⟨id, events, hbatch, hsome, haccepted, -⟩ | ⟨⟨x, -, htells⟩, -⟩⟩
    · rcases h.outcome with ⟨id', events', hbatch', -, hconn, -⟩ | ⟨-, r, hr⟩
      · rw [hbatch] at hbatch'
        obtain ⟨rfl, rfl⟩ := Prod.mk.inj (Option.some.inj hbatch')
        rw [hconn] at haccepted
        exact ⟨id, events, hbatch, hsome, (hdelivered events).mp haccepted⟩
      · exact absurd hr (hrunning r)
    · -- a task has no way to tell an error
      cases x <;> cases htells
  · rintro ⟨id, events, hbatch, hsome, htakes⟩
    rcases h.outcome with ⟨id', events', hbatch', hpc, hconn, hcurrent⟩ | ⟨hnone, -⟩
    · rw [hbatch] at hbatch'
      obtain ⟨rfl, rfl⟩ := Prod.mk.inj (Option.some.inj hbatch')
      refine ⟨fun r hr => ?_, .inl ⟨id, events, hbatch, hsome, ?_, hcurrent⟩⟩
      · rw [hpc] at hr
        cases hr
      · rw [hconn]
        exact (hdelivered events).mpr htakes
    · rw [hbatch] at hnone
      cases hnone

/-- The CONNECT packet of `peerClient`. -/
private def connectBytes : Bytes := [16, 15, 0, 4, 77, 81, 84, 84, 5, 2, 0, 0, 0, 0, 2, 99, 49]

/-- A connected client at the head of its loop, with some room on stream 0. -/
private def idleClient (window room : Nat) (accepted : Bytes) : Connection WireCore Peer Bytes :=
  { peerClient window with
    conn := ⟨true, window, room, accepted, [], false⟩
    mqttInitSent := true
    pc := .select }

theorem allOrNothing_iff_sample :
    ∃ s' os, ArmRun wireCore peerQuiche (idleClient 100 83 connectBytes) (.subscribe "t") 0
        [.step, .step] s' os ∧
      AllOrNothing Peer.accepted wireCore (idleClient 100 83 connectBytes) (.subscribe "t") 0
        s' os := by
  have h : ArmRun wireCore peerQuiche (idleClient 100 83 connectBytes) (.subscribe "t") 0
      [.step, .step] _ _ :=
    ⟨rfl, ⟨rfl, fun t o ht => by
      obtain ⟨rfl, rfl⟩ := Prod.mk.inj (Option.some.inj ht)
      exact ⟨rfl, fun _ _ _ => trivial⟩⟩, rfl, rfl⟩
  refine ⟨_, _, h, ((allOrNothing_iff peerQuiche_law rfl (.subscribe "t") 0).2 _ _ _ h).mpr ?_⟩
  exact ⟨1, [.requestSendPacket [130, 7, 0, 1, 0, 0, 1, 116, 1]], rfl, List.cons_ne_nil _ _,
    .inr rfl, trivial⟩

private def longTopic (n : Nat) : String := String.ofList (List.replicate n 'a')

private theorem longTopic_refused {n : Nat} (hn : 65536 ≤ n) :
    wireCore.subEntry (longTopic n) .atLeastOnce = false := by
  have hlen : (topicBytes (longTopic n)).length = n := by
    simp [topicBytes, longTopic]
  simp only [wireCore, hlen, decide_eq_false_iff_not]
  omega

/-- A connected client panics at a topic that is too long; and with the window
of stream 0 shut it records a request of which nothing was sent. -/
theorem request_half_done :
    (∃ os s' os', run (step wireCore peerQuiche) (peerClient 100) connectInputs =
        some (idleClient 100 83 connectBytes, os) ∧
      ArmRun wireCore peerQuiche (idleClient 100 83 connectBytes) (.subscribe (longTopic 65536)) 0
        []
        s' os' ∧
      s'.pc = .ended (.error .panicked) ∧
      ¬AllOrNothing Peer.accepted wireCore (idleClient 100 83 connectBytes)
        (.subscribe (longTopic 65536)) 0 s' os') ∧
    ∃ os s' os', run (step wireCore peerQuiche) (peerClient 0) connectInputs =
        some (idleClient 0 0 [], os) ∧
      ArmRun wireCore peerQuiche (idleClient 0 0 []) (.subscribe "t") 0 [.step, .step] s' os' ∧
      s'.currentRequest = some (.subscribe "t", 1, 0) ∧ s'.conn.accepted = [] ∧
      ¬AllOrNothing Peer.accepted wireCore (idleClient 0 0 []) (.subscribe "t") 0 s' os' := by
  constructor
  · have hrefused := longTopic_refused (Nat.le_refl 65536)
    -- the topic is too long to be evaluated
    generalize longTopic 65536 = topic at hrefused ⊢
    have hpanic : onRequest wireCore (.subscribe topic) 0 (idleClient 100 83 connectBytes) =
        ({ idleClient 100 83 connectBytes with pc := .ended (.error .panicked) }, []) := by
      simp only [onRequest, hrefused, Bool.false_eq_true, if_false]
    have hstep : step wireCore peerQuiche (idleClient 100 83 connectBytes)
        (.request (.subscribe topic) 0) =
          some ({ idleClient 100 83 connectBytes with pc := .ended (.error .panicked) }, []) :=
      congrArg some hpanic
    exact ⟨_, _, _, rfl, ⟨rfl, trivial, run_cons_eq_some.mpr ⟨_, _, [], hstep, rfl, rfl⟩, rfl⟩, rfl,
      fun h => h.1 _ rfl⟩
  · refine ⟨_, _, _, rfl, ⟨rfl, ⟨rfl, fun t o ht => ?_⟩, rfl, rfl⟩, rfl, rfl, ?_⟩
    · obtain ⟨rfl, rfl⟩ := Prod.mk.inj (Option.some.inj ht)
      exact ⟨rfl, fun _ _ _ => trivial⟩
    · rintro ⟨-, ⟨id, events, hbatch, -, haccepted, -⟩ | ⟨⟨x, -, htells⟩, -⟩⟩
      · obtain ⟨rfl, rfl⟩ := Prod.mk.inj (Option.some.inj hbatch)
        cases haccepted
      · cases x <;> cases htells

end MqttScion.Client
