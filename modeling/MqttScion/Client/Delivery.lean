import MqttScion.Client.Wire

/-!
# From the MQTT library to `Client::rcv`: when no message is lost

The library acknowledges a PUBLISH on its own. What it notifies is offered to
the message channel with a send that does not wait, and a refused message is
only logged. `handle_events` also returns at `RequestClose`, whatever the batch
still holds.

The account: what was put into the channel and what the batch in progress still
holds is never more than what the library notified (`step_account`), so a
message once lost stays lost and the exact rule for runs applies.

> `relayed_iff`: in every run, the messages put into the channel are the
> messages the library notified, in order, if and only if each of them met a
> channel with room and a receiver and none stood behind a `RequestClose`. And
> what was put can be taken, in order, by as many calls of `rcv`.
-/

namespace MqttScion.Client

open MqttScion.Net MqttScion.Lib

variable {M Q Pk : Type}

/-- The messages the MQTT library notified, in any batch. -/
def published (os : List (Output Pk)) : List MqttMessage :=
  os.flatMap fun o => match o with
    | .checkedSend events => notifiedMessages events
    | .recv _ _ events => notifiedMessages events
    | _ => []

/-- The messages the channel accepted. -/
def put (os : List (Output Pk)) : List MqttMessage :=
  os.flatMap fun o => match o with
    | .message message .ok => [message]
    | _ => []

/-- The messages `rcv` returned. -/
def taken (os : List (Output Pk)) : List MqttMessage :=
  os.flatMap fun o => match o with
    | .received message => [message]
    | _ => []

theorem published_append (os ps : List (Output Pk)) :
    published (os ++ ps) = published os ++ published ps := List.flatMap_append

theorem put_append (os ps : List (Output Pk)) : put (os ++ ps) = put os ++ put ps :=
  List.flatMap_append

theorem taken_append (os ps : List (Output Pk)) : taken (os ++ ps) = taken os ++ taken ps :=
  List.flatMap_append

/-- Everything the library notified is in the channel, but for the messages of
the batch that is being handled. -/
def Relayed (os : List (Output Pk)) (s : Connection M Q Pk) : Prop :=
  put os ++ notifiedMessages s.pc.batch = published os

/-- The channel has room for one more message and someone to take it. -/
def HasRoom (messages : Chan MqttMessage 100) : Prop :=
  messages.rxAlive = true ∧ messages.queue.length < 100

/-- If the step handles a PUBLISH, the channel has room for it; if it handles a
`RequestClose`, no PUBLISH is behind it in the batch. -/
def Relays (_ : List (Output Pk)) (s : Connection M Q Pk) (i : Input) : Prop :=
  (∀ topic qos payload, i = .step →
    s.pc.batch.head? = some (.notifyPacketReceived (.publish topic qos payload)) →
      HasRoom s.messages) ∧
  (i = .step → s.pc.batch.head? = some .requestClose → notifiedMessages s.pc.batch = [])

variable {core : MqttCore M Pk} {qc : Quiche Q}

/-- The log of a step that relays nothing. -/
structure RelaysNothing (o : List (Output Pk)) : Prop where
  published : published o = []
  put : put o = []
  taken : taken o = []

/-- What a step does to the messages: it starts a batch, it offers the PUBLISH
at the head of the batch to the channel, it drops the batch, it takes a message
out of the channel, or none of these. -/
inductive Relay (s s' : Connection M Q Pk) (i : Input) (o : List (Output Pk)) : Prop
  | start (before : s.pc.batch = []) (published : published o = notifiedMessages s'.pc.batch)
      (put : put o = []) (taken : taken o = []) (messages : s'.messages = s.messages)
  | offer (message : MqttMessage) (rest : List (Event Pk)) (step : i = .step)
      (batch : s.pc.batch =
        .notifyPacketReceived (.publish message.topic message.qos message.payload) :: rest)
      (after : s'.pc.batch = rest)
      (messages : s'.messages = (s.messages.trySend message).2)
      (out : o = [.message message (s.messages.trySend message).1])
  | close (rest : List (Event Pk)) (step : i = .step) (batch : s.pc.batch = .requestClose :: rest)
      (after : s'.pc.batch = []) (messages : s'.messages = s.messages) (out : RelaysNothing o)
  | take (message : MqttMessage) (step : i = .rcv)
      (recv : s.messages.recv = some (message, s'.messages)) (pc : s'.pc = s.pc)
      (out : o = [.received message])
  | other (head : ∀ topic qos payload, i = .step →
        s.pc.batch.head? ≠ some (.notifyPacketReceived (.publish topic qos payload)))
      (noClose : i = .step → s.pc.batch.head? ≠ some .requestClose)
      (batch : notifiedMessages s'.pc.batch = notifiedMessages s.pc.batch)
      (messages : s'.messages = s.messages ∨ s'.messages = s.messages.dropReceiver)
      (out : RelaysNothing o)

/-- Every step is one of these. -/
theorem step_relay {s s' : Connection M Q Pk} {i : Input} {o : List (Output Pk)}
    (h : step core qc s i = some (s', o)) : Relay s s' i o := by
  cases step_move h with
  | quiet _ _ frame before after _ _ out =>
    have hnone : ∀ (f : Output Pk → List MqttMessage), (∀ data dst, f (.sent data dst) = []) →
        o.flatMap f = [] := by
      intro f hf
      refine List.flatMap_eq_nil_iff.mpr fun x hx => ?_
      obtain ⟨data, dst, rfl⟩ := out x hx
      exact hf data dst
    refine .other (fun _ _ _ _ => by rw [before.batch]; nofun)
      (fun _ => by rw [before.batch]; nofun) (by rw [before.batch, after.batch]) (.inl frame.1) ?_
    exact ⟨hnone _ fun _ _ => rfl, hnone _ fun _ _ => rfl, hnone _ fun _ _ => rfl⟩
  | checkedSend _ _ _ frame before after _ _ =>
    refine .start before.batch ?_ rfl rfl frame.1
    rw [after]
    exact List.append_nil _
  | recv before _ => exact .start before.batch (List.append_nil _) rfl rfl rfl
  | @event event rest next s' o pc goes handled =>
    have hbatch : s.pc.batch = event :: rest := by rw [pc]; rfl
    have hquiet : notifiedMessages [event] = [] → s'.messages = s.messages → RelaysNothing o →
        Relay s { s' with pc := .handle rest next } .step o := by
      intro hno hmessages hout
      refine .other (fun topic qos payload _ hp => ?_) (fun _ hp => ?_) ?_ (.inl hmessages) hout
      · rw [hbatch] at hp
        rw [Option.some.inj hp] at hno
        cases hno
      · rw [hbatch] at hp
        exact goes (Option.some.inj hp)
      · show notifiedMessages rest = _
        rw [hbatch, notifiedMessages_cons, hno, List.nil_append]
    cases handled with
    | sends packet => exact hquiet rfl rfl ⟨rfl, rfl, rfl⟩
    | offers message => exact .offer message rest rfl hbatch rfl rfl rfl
    | connects reasonCode => exact hquiet rfl rfl ⟨rfl, rfl, rfl⟩
    | acknowledges _ acknowledges =>
      exact hquiet acknowledges.notifiedMessages rfl ⟨rfl, rfl, rfl⟩
    | ignores _ noMessage => exact hquiet noMessage rfl ⟨rfl, rfl, rfl⟩
  | @resume events next pc finished =>
    have hbatch : s.pc.batch = events := by rw [pc]; rfl
    obtain ⟨pc', _, hplain, -, heq⟩ := resume_eq qc next s
    have hafter : (resume qc next s).pc.batch = [] := by
      rw [heq]
      exact hplain.batch
    have hmessages : (resume qc next s).messages = s.messages := by rw [heq]
    rcases finished with rfl | ⟨rest, rfl⟩
    · exact .other (fun _ _ _ _ => by rw [hbatch]; nofun) (fun _ => by rw [hbatch]; nofun)
        (by rw [hafter, hbatch]) (.inl hmessages) ⟨rfl, rfl, rfl⟩
    · exact .close rest rfl hbatch hafter hmessages ⟨rfl, rfl, rfl⟩
  | rcv recv => exact .take _ rfl recv rfl rfl
  | dropReceiver =>
    exact .other (fun _ _ _ hi => (nomatch hi)) (fun hi => (nomatch hi)) rfl (.inr rfl)
      ⟨rfl, rfl, rfl⟩

/-- What was put and what is still to be handled is never more than what was
notified. -/
def Account (os : List (Output Pk)) (s : Connection M Q Pk) : Prop :=
  (put os).length + (notifiedMessages s.pc.batch).length ≤ (published os).length

/-- A PUBLISH in a batch is a message. -/
theorem notifiedMessages_publish (message : MqttMessage) (rest : List (Event Pk)) :
    notifiedMessages
        (.notifyPacketReceived (.publish message.topic message.qos message.payload) :: rest) =
      message :: notifiedMessages rest := by
  rw [notifiedMessages_cons]
  rfl

/-- What the channel took of one message. -/
theorem put_message (message : MqttMessage) (r : TrySend) :
    put ([.message message r] : List (Output Pk)) = if r = .ok then [message] else [] := by
  cases r <;> rfl

/-- Every step keeps the books of the message channel. -/
theorem step_account {os o : List (Output Pk)} {s s' : Connection M Q Pk} {i : Input}
    (h : step core qc s i = some (s', o)) (hacc : Account os s) : Account (os ++ o) s' := by
  unfold Account at hacc ⊢
  rw [put_append, published_append, List.length_append, List.length_append]
  cases step_relay h with
  | start before hpub hput _ _ =>
    rw [before] at hacc
    rw [hpub, hput]
    show _ + 0 + _ ≤ _
    have : (notifiedMessages ([] : List (Event Pk))).length = 0 := rfl
    omega
  | offer message rest _ batch after _ out =>
    rw [batch, notifiedMessages_publish, List.length_cons] at hacc
    rw [after, out, put_message]
    have hpub : (published ([.message message (s.messages.trySend message).1] :
        List (Output Pk))).length = 0 := rfl
    rw [hpub]
    split
    · show _ + 1 + _ ≤ _
      omega
    · show _ + 0 + _ ≤ _
      omega
  | close rest _ _ after _ out =>
    rw [after, out.put, out.published, notifiedMessages_nil]
    show _ + 0 + 0 ≤ _ + 0
    omega
  | take message _ _ pc out =>
    rw [pc, out]
    exact hacc
  | other _ _ batch _ out =>
    rw [batch, out.put, out.published]
    exact hacc

/-- A step at which neither a PUBLISH nor a `RequestClose` is handled. -/
theorem relays_of_head {os : List (Output Pk)} {s : Connection M Q Pk} {i : Input}
    (hpub : ∀ topic qos payload, i = .step →
      s.pc.batch.head? ≠ some (.notifyPacketReceived (.publish topic qos payload)))
    (hclose : i = .step → s.pc.batch.head? ≠ some .requestClose) : Relays os s i :=
  ⟨fun topic qos payload hi hp => absurd hp (hpub topic qos payload hi),
    fun hi hp => absurd hp (hclose hi)⟩

/-- A step keeps the relay complete exactly when it loses no message. -/
theorem step_relayed_iff {os o : List (Output Pk)} {s s' : Connection M Q Pk} {i : Input}
    (h : step core qc s i = some (s', o)) (hacc : Account os s) :
    Relayed (os ++ o) s' ↔ Relayed os s ∧ Relays os s i := by
  unfold Account at hacc
  unfold Relayed
  rw [put_append, published_append]
  cases step_relay h with
  | start before hpub hput _ _ =>
    have hC : Relays os s i :=
      relays_of_head (fun _ _ _ _ => by rw [before]; nofun) (fun _ => by rw [before]; nofun)
    rw [before, hpub, hput, notifiedMessages_nil, List.append_nil, List.append_left_inj]
    exact ⟨fun hP => ⟨hP, hC⟩, fun hP => hP.1⟩
  | offer message rest hi batch after _ out =>
    have hpub : published ([.message message (s.messages.trySend message).1] :
        List (Output Pk)) = [] := rfl
    rw [batch, notifiedMessages_publish, List.length_cons] at hacc
    rw [batch, after, out, put_message, notifiedMessages_publish, hpub, List.append_nil]
    have hC : Relays os s i ↔ HasRoom s.messages := by
      refine ⟨fun hC => hC.1 _ _ _ hi (by rw [batch]; rfl), fun hroom => ⟨fun _ _ _ _ _ => hroom,
        fun _ hp => ?_⟩⟩
      rw [batch] at hp
      cases hp
    rw [hC]
    by_cases hok : (s.messages.trySend message).1 = .ok
    · have hroom : HasRoom s.messages := Chan.trySend_ok_iff.mp hok
      rw [if_pos hok, List.append_assoc, List.singleton_append]
      exact ⟨fun hP => ⟨hP, hroom⟩, fun hP => hP.1⟩
    · rw [if_neg hok, List.append_nil]
      constructor
      · intro hP
        -- a refused message is missing for good
        have hlen := congrArg List.length hP
        rw [List.length_append] at hlen
        omega
      · rintro ⟨-, hroom⟩
        exact absurd (Chan.trySend_ok_iff.mpr hroom) hok
  | close rest hi batch after _ out =>
    have hC : Relays os s i ↔ notifiedMessages s.pc.batch = [] := by
      refine ⟨fun hC => hC.2 hi (by rw [batch]; rfl), fun hnil => ⟨fun _ _ _ _ hp => ?_,
        fun _ _ => hnil⟩⟩
      rw [batch] at hp
      cases hp
    rw [hC, after, out.put, out.published, notifiedMessages_nil, List.append_nil, List.append_nil,
      List.append_nil]
    constructor
    · intro hP
      -- by the account the batch had no message left to drop
      have hlen := congrArg List.length hP
      have hnil : notifiedMessages s.pc.batch = [] :=
        List.eq_nil_of_length_eq_zero (by omega)
      exact ⟨by rw [hnil, List.append_nil]; exact hP, hnil⟩
    · rintro ⟨hP, hnil⟩
      rwa [hnil, List.append_nil] at hP
  | take message hi _ pc out =>
    have hC : Relays os s i :=
      relays_of_head (fun _ _ _ hs => by rw [hi] at hs; cases hs)
        (fun hs => by rw [hi] at hs; cases hs)
    rw [pc, out]
    show put os ++ [] ++ _ = published os ++ [] ↔ _
    rw [List.append_nil, List.append_nil]
    exact ⟨fun hP => ⟨hP, hC⟩, fun hP => hP.1⟩
  | other head noClose batch _ out =>
    have hC : Relays os s i := relays_of_head head noClose
    rw [batch, out.put, out.published, List.append_nil, List.append_nil]
    exact ⟨fun hP => ⟨hP, hC⟩, fun hP => hP.1⟩

/-- As long as the client keeps its receiver, what was put was taken or is in
the channel. -/
theorem step_conserves {os o : List (Output Pk)} {s s' : Connection M Q Pk} {i : Input}
    (h : step core qc s i = some (s', o))
    (hkept : s.messages.rxAlive = true → put os = taken os ++ s.messages.queue) :
    s'.messages.rxAlive = true → put (os ++ o) = taken (os ++ o) ++ s'.messages.queue := by
  intro halive
  rw [put_append, taken_append]
  cases step_relay h with
  | start _ _ hput htaken messages =>
    rw [messages] at halive ⊢
    rw [hput, htaken, List.append_nil, List.append_nil]
    exact hkept halive
  | offer message rest _ _ _ messages out =>
    rw [messages, Chan.trySend_rxAlive] at halive
    rw [out, put_message, messages, hkept halive]
    show _ = taken os ++ [] ++ _
    rw [List.append_nil]
    -- accepted at the back of the queue, or refused with the queue as it was
    by_cases hok : (s.messages.trySend message).1 = .ok
    · rw [if_pos hok, Chan.trySend_ok_queue hok, List.append_assoc]
    · rw [if_neg hok, Chan.trySend_ne_ok hok, List.append_nil]
  | close _ _ _ _ messages out =>
    rw [messages] at halive ⊢
    rw [out.put, out.taken, List.append_nil, List.append_nil]
    exact hkept halive
  | take message _ recv _ out =>
    obtain ⟨hqueue, hsame⟩ := Chan.recv_eq_some recv
    rw [out]
    show put os ++ [] = taken os ++ [message] ++ s'.messages.queue
    rw [List.append_nil, hkept (by rw [← hsame]; exact halive), hqueue, List.append_assoc,
      List.singleton_append]
  | other _ _ _ messages out =>
    rw [out.put, out.taken, List.append_nil, List.append_nil]
    rcases messages with hsame | hdropped
    -- only the client's own drop touches the channel here
    · rw [hsame] at halive ⊢
      exact hkept halive
    · rw [hdropped] at halive
      cases halive

/-- `rcv` takes what is in the channel, in order. -/
theorem rcv_drains : ∀ {queue : List MqttMessage} {s : Connection M Q Pk},
    s.messages.queue = queue →
      ∃ s', run (step core qc) s (List.replicate queue.length .rcv) =
        some (s', queue.map .received) := by
  intro queue
  induction queue with
  | nil =>
    intro s _
    exact ⟨s, rfl⟩
  | cons message rest ih =>
    intro s hqueue
    obtain ⟨messages, hrecv, hrest, -⟩ := Chan.recv_of_queue hqueue
    obtain ⟨s', hrun⟩ := @ih { s with messages := messages } hrest
    have hstep : step core qc s .rcv =
        some ({ s with messages := messages }, [.received message]) := by
      unfold step
      rw [hrecv]
    exact ⟨s', run_cons_eq_some.mpr ⟨_, _, _, hstep, hrun, rfl⟩⟩

/-- What `rcv` returns is taken. -/
theorem taken_received (queue : List MqttMessage) :
    taken (queue.map .received : List (Output Pk)) = queue := by
  induction queue with
  | nil => rfl
  | cons message rest ih =>
    show message :: taken (rest.map .received : List (Output Pk)) = message :: rest
    rw [ih]

/-- **When no message is lost**: in every run, the messages put into the
channel (and, in the middle of a batch, those still to be handled) are the
messages the library notified, if and only if every PUBLISH met a channel with
room and a receiver and none stood behind a `RequestClose`. In either case,
while the client keeps its receiver, calling `rcv` once for each queued message
makes the messages taken all the messages put. -/
theorem relayed_iff {remote localAddr : ScionAddr} {clientId : String} {conn : Q}
    {is : List Input} {s : Connection M Q Pk} {os : List (Output Pk)}
    (hr : run (step core qc) (Connection.new core remote localAddr clientId conn) is =
      some (s, os)) :
    (Relayed os s ↔ AllSteps (step core qc) Relays []
      (Connection.new core remote localAddr clientId conn) is) ∧
    (s.messages.rxAlive = true →
      ∃ s' ps, run (step core qc) s (List.replicate s.messages.queue.length .rcv) = some (s', ps) ∧
        taken (os ++ ps) = put os) := by
  refine ⟨?_, fun halive => ?_⟩
  · refine @run_iff _ _ _ (step core qc) Relays Account Relayed is os _ s ?_ rfl ?_ ?_ hr
    · exact Nat.le_refl 0
    · intro os s i s' o hacc h
      exact step_account h hacc
    · intro os s i s' o hacc h
      exact step_relayed_iff h hacc
  · have hkept : s.messages.rxAlive = true → put os = taken os ++ s.messages.queue := by
      refine @run_induct _ _ _ _
        (fun os s => s.messages.rxAlive = true → put os = taken os ++ s.messages.queue)
        _ _ _ _ (fun _ => rfl) ?_ hr
      intro os s i s' o hkept h
      exact step_conserves h hkept
    obtain ⟨s', hrun⟩ := @rcv_drains _ _ _ core qc _ s rfl
    refine ⟨s', _, hrun, ?_⟩
    rw [taken_append, taken_received, hkept halive]

/-- A PUBLISH of level 1 in a datagram of its own, up to the loop head again. -/
private def onePublish (id : UInt8) : List Input :=
  .datagram [0x32, 7, 0, 1, 116, 0, id, 0, 120] peerAddr :: List.replicate 8 .step

/-- The packets 1 to `n` after the handshake, with no `rcv` in between. -/
private def publishBurst (n : Nat) : List Input :=
  connectInputs ++ (List.range n).flatMap fun k => onePublish (k + 1).toUInt8

/-- Two messages, with room for both. -/
theorem relayed_iff_sample :
    ∃ s os, run (step wireCore peerQuiche) (peerClient 100) (publishBurst 2) = some (s, os) ∧
      (Relayed os s ↔
        AllSteps (step wireCore peerQuiche) Relays [] (peerClient 100) (publishBurst 2)) :=
  ⟨_, _, rfl, (relayed_iff rfl).1⟩

/-- The PUBACK packets offered to stream 0. -/
private def pubacks (os : List (Output Bytes)) : List (Output Bytes) :=
  os.filter fun o => match o with
    | .packet (0x40 :: _) => true
    | _ => false

private theorem publishBurst_run :
    (run (step wireCore peerQuiche) (peerClient 100) (publishBurst 101)).map (fun r =>
      (r.1.pc.batch, r.1.messages.rxAlive, (published r.2).length, (put r.2).length,
        (pubacks r.2).length)) =
      some ([], true, 101, 100, 101) := by decide +kernel

/-- The hundred-and-first message of a burst nobody reads: acknowledged on the
wire, refused by the channel, and the task goes on. -/
theorem acknowledged_message_lost :
    ∃ s os, run (step wireCore peerQuiche) (peerClient 100) (publishBurst 101) = some (s, os) ∧
      s.messages.rxAlive = true ∧ (published os).length = 101 ∧ (pubacks os).length = 101 ∧
      (put os).length = 100 ∧ ¬ Relayed os s := by
  obtain ⟨⟨s, os⟩, hrun, heq⟩ := Option.map_eq_some_iff.mp publishBurst_run
  simp only [Prod.mk.injEq] at heq
  obtain ⟨hbatch, halive, hpub, hput, hack⟩ := heq
  refine ⟨s, os, hrun, halive, hpub, hack, hput, fun hrelayed => ?_⟩
  have hlen := congrArg List.length hrelayed
  rw [hbatch, notifiedMessages_nil, List.append_nil] at hlen
  omega

end MqttScion.Client
