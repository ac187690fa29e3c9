import MqttScion.Lib.Channel
import MqttScion.Lib.Run
import MqttScion.Net.Quic
import MqttScion.Client.Mqtt

/-!
# The client's connection task

`src/client/mod.rs`, `impl Connection`: one task per `Client::connect`, between
the QUIC connection to the proxy (`conn`), the MQTT library (`mqttConn`), the
channel of requests and the channel of received messages.

`step` is `connection_handling` cut at its loop heads and awaits, and once more
at every `stream_recv` and at every event: the loops that drain a stream and a
batch of events run as long as the libraries let them. What is left of the
batch and where the task goes after it is in the program counter (`handle`).

A request and its `Notify` arrive as one input; a `Notify` is a number. The
message channel is part of the state with both its ends, so `Client::rcv` and
the drop of the receiver are inputs as well; they are possible at any moment.
-/

namespace MqttScion.Client

open MqttScion.Net MqttScion.Lib

/-- Why the task ends with an error. -/
inductive Fault
  | initialSend (e : QuicheError)
  | initialSendTo
  | sendAckEliciting (e : QuicheError)
  | invalidSrcAddress
  | invalidDstAddress
  | recv (e : QuicheError)
  | connectBuild
  | packetId
  | subscribeBuild
  | publishBuild
  | sendTo
  | panicked
  deriving DecidableEq

/-- What the task was doing when it got a batch of events. -/
inductive Next
  | connected
  | readStreams (ids : List Nat)
  | request (request : Request) (packetId : UInt16) (notify : Nat)
  deriving DecidableEq

/-- Where the task is. -/
inductive Pc (Pk : Type)
  | initialSend
  | initialSendTo (data : Bytes) (dst : ScionAddr)
  | select
  | handle (events : List (Event Pk)) (next : Next)
  | readStreams (ids : List Nat)
  | checkClosed
  | send
  | sendTo (data : Bytes) (dst : ScionAddr)
  | ended (r : Except Fault Unit)

/-- The fields of `Connection`; `localAddr` is `socket.local_addr()`. -/
structure Connection (M Q Pk : Type) where
  remote : ScionAddr
  localAddr : ScionAddr
  conn : Q
  mqttConn : M
  clientId : String
  mqttInitSent : Bool
  currentRequest : Option (Request × UInt16 × Nat)
  messages : Chan MqttMessage 100
  pc : Pc Pk

inductive Input
  | step
  | sent (ok : Bool)
  | timeout
  | keepalive
  | datagram (data : Bytes) (src : ScionAddr)
  | request (request : Request) (notify : Nat)
  /-- `Client::rcv` takes a message. -/
  | rcv
  /-- The client drops the receiver of messages. -/
  | dropReceiver
  deriving DecidableEq

/-- What the outside sees: datagrams, the batches the MQTT library produced and
the chunk it produced them from, packets offered to stream 0, messages offered
to the channel and taken from it, `notify_one` calls. -/
inductive Output (Pk : Type)
  | sent (data : Bytes) (dst : ScionAddr)
  | checkedSend (events : List (Event Pk))
  | recv (chunk : Bytes) (consumed : Nat) (events : List (Event Pk))
  | packet (buffer : Bytes)
  | message (message : MqttMessage) (r : TrySend)
  | connectNotified
  | notified (notify : Nat)
  | received (message : MqttMessage)
  deriving DecidableEq

variable {M Q Pk : Type}

/-- `Connection::new`, once the socket is bound and `quiche::connect` answered
`conn`. -/
def Connection.new (core : MqttCore M Pk) (remote localAddr : ScionAddr) (clientId : String)
    (conn : Q) : Connection M Q Pk where
  remote := remote
  localAddr := localAddr
  conn := conn
  mqttConn := core.new
  clientId := clientId
  mqttInitSent := false
  currentRequest := none
  messages := .new
  pc := .initialSend

/-! ## Events -/

/-- `notify.notify_one(); self.current_request = None`, if the request waiting
for an acknowledgement is one that `expects` it. -/
def acknowledge (expects : Request → Bool) (packetId : UInt16) (s : Connection M Q Pk) :
    Connection M Q Pk × List (Output Pk) :=
  match s.currentRequest with
  | some (request, id, notify) =>
    if expects request && id == packetId then
      ({ s with currentRequest := none }, [.notified notify])
    else (s, [])
  | none => (s, [])

/-- A publish of the given level. -/
def Request.isPublish (qos : Qos) : Request → Bool
  | .publish message => message.qos == qos
  | .subscribe _ => false

def Request.isSubscribe : Request → Bool
  | .subscribe _ => true
  | .publish _ => false

/-- The arm of `NotifyPacketReceived`. -/
def packetReceived (packet : Packet) (s : Connection M Q Pk) :
    Connection M Q Pk × List (Output Pk) :=
  match packet with
  | .connack _ => (s, [.connectNotified])
  | .puback id _ => acknowledge (Request.isPublish .atLeastOnce) id s
  | .pubrec id _ => acknowledge (Request.isPublish .exactlyOnce) id s
  | .publish topic qos payload =>
    let r := s.messages.trySend ⟨topic, qos, payload⟩
    ({ s with messages := r.2 }, [.message ⟨topic, qos, payload⟩ r.1])
  | .suback id _ => acknowledge Request.isSubscribe id s
  | .pubcomp _ => (s, [])
  | .subscribe _ => (s, [])
  | .other _ => (s, [])

/-- One round of the loop of `handle_events`, `RequestClose` apart. -/
def handleEvent (core : MqttCore M Pk) (qc : Quiche Q) (event : Event Pk)
    (s : Connection M Q Pk) : Connection M Q Pk × List (Output Pk) :=
  match event with
  | .requestSendPacket packet =>
    let buffer := core.toContinuousBuffer packet
    -- the number of bytes taken and the error are dropped
    ({ s with conn := (qc.streamSend s.conn 0 buffer false).2 }, [.packet buffer])
  | .notifyPacketReceived packet => packetReceived packet s
  | .notifyPacketIdReleased _ => (s, [])
  | .notifyError => (s, [])
  | .requestClose => (s, [])
  | .requestTimerReset => (s, [])
  | .requestTimerCancel => (s, [])

/-- The streams to read, if the handshake is done. -/
def readable (qc : Quiche Q) (s : Connection M Q Pk) : Connection M Q Pk :=
  if qc.isEstablished s.conn then { s with pc := .readStreams (qc.readable s.conn) }
  else { s with pc := .checkClosed }

/-- `handle_events` returned; it never returns an error. -/
def resume (qc : Quiche Q) (next : Next) (s : Connection M Q Pk) : Connection M Q Pk :=
  match next with
  | .connected => readable qc { s with mqttInitSent := true }
  | .readStreams ids => { s with pc := .readStreams ids }
  | .request request id notify =>
    { s with currentRequest := some (request, id, notify), pc := .checkClosed }

/-- The next event of the batch; `RequestClose` returns at once. -/
def handleEvents (core : MqttCore M Pk) (qc : Quiche Q) (events : List (Event Pk)) (next : Next)
    (s : Connection M Q Pk) : Connection M Q Pk × List (Output Pk) :=
  match events with
  | [] => (resume qc next s, [])
  | .requestClose :: _ => (resume qc next s, [])
  | event :: rest =>
    let r := handleEvent core qc event s
    ({ r.1 with pc := .handle rest next }, r.2)

/-! ## The arms of the loop -/

/-- The send before the loop. -/
def initialSend (qc : Quiche Q) (s : Connection M Q Pk) : Connection M Q Pk :=
  let r := qc.send s.conn
  match r.1 with
  | .ok (data, info) =>
    { s with conn := r.2, pc := .initialSendTo data (.fromStd s.remote.isdAsn info.dst) }
  | .error e => { s with conn := r.2, pc := .ended (.error (.initialSend e)) }

def keepalive (qc : Quiche Q) (s : Connection M Q Pk) : Connection M Q Pk :=
  if qc.isEstablished s.conn then
    let r := qc.sendAckEliciting s.conn
    match r.1 with
    | .ok _ => { s with conn := r.2, pc := .checkClosed }
    | .error e => { s with conn := r.2, pc := .ended (.error (.sendAckEliciting e)) }
  else { s with pc := .checkClosed }

/-- Build the CONNECT packet and send it through the library. -/
def sendConnect (core : MqttCore M Pk) (s : Connection M Q Pk) :
    Connection M Q Pk × List (Output Pk) :=
  if core.connectClientId s.clientId then
    match core.connectBuild s.clientId with
    | none => ({ s with pc := .ended (.error .connectBuild) }, [])
    | some packet =>
      let r := core.checkedSend s.mqttConn packet
      ({ s with mqttConn := r.2, pc := .handle r.1 .connected }, [.checkedSend r.1])
  else ({ s with pc := .ended (.error .panicked) }, [])

/-- `process_udp_packet`, up to the streams. -/
def processUdpPacket (core : MqttCore M Pk) (qc : Quiche Q) (data : Bytes) (src : ScionAddr)
    (s : Connection M Q Pk) : Connection M Q Pk × List (Output Pk) :=
  match src.localAddress with
  | none => ({ s with pc := .ended (.error .invalidSrcAddress) }, [])
  | some src =>
    match s.localAddr.localAddress with
    | none => ({ s with pc := .ended (.error .invalidDstAddress) }, [])
    | some dst =>
      let r := qc.recv s.conn data ⟨src, dst⟩
      match r.1 with
      | .error e => ({ s with conn := r.2, pc := .ended (.error (.recv e)) }, [])
      | .ok _ =>
        if qc.isEstablished r.2 && !s.mqttInitSent then sendConnect core { s with conn := r.2 }
        else (readable qc { s with conn := r.2 }, [])

/-- One `stream_recv`, or the next stream. What the cursor has left of the
chunk is dropped with it. -/
def readStreams (core : MqttCore M Pk) (qc : Quiche Q) (ids : List Nat)
    (s : Connection M Q Pk) : Connection M Q Pk × List (Output Pk) :=
  match ids with
  | [] => ({ s with pc := .checkClosed }, [])
  | id :: rest =>
    if id ≠ 0 then ({ s with pc := .readStreams rest }, [])
    else
      let r := qc.streamRecv s.conn id
      match r.1 with
      | .error _ => ({ s with conn := r.2, pc := .readStreams rest }, [])
      | .ok (chunk, _) =>
        let m := core.recv s.mqttConn chunk
        ({ s with conn := r.2, mqttConn := m.2.2, pc := .handle m.1 (.readStreams ids) },
          [.recv chunk m.2.1 m.1])

/-- Acquire a packet id, build the packet and send it through the library. -/
def sendRequest (core : MqttCore M Pk) (build : UInt16 → Option Pk) (fault : Fault)
    (request : Request) (notify : Nat) (s : Connection M Q Pk) :
    Connection M Q Pk × List (Output Pk) :=
  let a := core.acquirePacketId s.mqttConn
  match a.1 with
  | none => ({ s with mqttConn := a.2, pc := .ended (.error .packetId) }, [])
  | some id =>
    match build id with
    | none => ({ s with mqttConn := a.2, pc := .ended (.error fault) }, [])
    | some packet =>
      let r := core.checkedSend a.2 packet
      ({ s with mqttConn := r.2, pc := .handle r.1 (.request request id notify) },
        [.checkedSend r.1])

/-- A request taken from the channel. -/
def onRequest (core : MqttCore M Pk) (request : Request) (notify : Nat)
    (s : Connection M Q Pk) : Connection M Q Pk × List (Output Pk) :=
  match request with
  | .subscribe topic =>
    if core.subEntry topic .atLeastOnce then
      sendRequest core (fun id => core.subscribeBuild id topic .atLeastOnce) .subscribeBuild
        request notify s
    else ({ s with pc := .ended (.error .panicked) }, [])
  | .publish message =>
    if core.publishTopicName message.topic then
      sendRequest core (fun id => core.publishBuild id message) .publishBuild request notify s
    else ({ s with pc := .ended (.error .panicked) }, [])

/-- One round of the send loop at the end of an iteration. -/
def sendPending (qc : Quiche Q) (s : Connection M Q Pk) : Connection M Q Pk :=
  let r := qc.send s.conn
  match r.1 with
  | .ok (data, info) =>
    { s with conn := r.2, pc := .sendTo data (.fromStd s.remote.isdAsn info.dst) }
  | .error _ => { s with conn := r.2, pc := .select }

/-! ## The task -/

/-- The task's own moves. -/
def taskStep (core : MqttCore M Pk) (qc : Quiche Q) (s : Connection M Q Pk) (i : Input) :
    Option (Connection M Q Pk × List (Output Pk)) :=
  match s.pc, i with
  | .initialSend, .step => some (initialSend qc s, [])
  | .initialSendTo data dst, .sent ok =>
    if ok then some ({ s with pc := .select }, [.sent data dst])
    else some ({ s with pc := .ended (.error .initialSendTo) }, [])
  | .select, .timeout => some ({ s with conn := qc.onTimeout s.conn, pc := .checkClosed }, [])
  | .select, .keepalive => some (keepalive qc s, [])
  | .select, .datagram data src =>
    if data.length ≤ udpPacketBufferSize then some (processUdpPacket core qc data src s) else none
  | .select, .request request notify => some (onRequest core request notify s)
  | .handle events next, .step => some (handleEvents core qc events next s)
  | .readStreams ids, .step => some (readStreams core qc ids s)
  | .checkClosed, .step =>
    if qc.isClosed s.conn then some ({ s with pc := .ended (.ok ()) }, [])
    else some ({ s with pc := .send }, [])
  | .send, .step => some (sendPending qc s, [])
  | .sendTo data dst, .sent ok =>
    if ok then some ({ s with pc := .send }, [.sent data dst])
    else some ({ s with pc := .ended (.error .sendTo) }, [])
  | _, _ => none

/-- One move of the task or of the client at the other end of the message
channel. -/
def step (core : MqttCore M Pk) (qc : Quiche Q) :
    Machine (Connection M Q Pk) Input (Output Pk) := fun s i =>
  match i with
  | .rcv =>
    match s.messages.recv with
    | some (message, messages) => some ({ s with messages := messages }, [.received message])
    | none => none
  | .dropReceiver => some ({ s with messages := s.messages.dropReceiver }, [])
  | i => taskStep core qc s i

/-! ## What a step does -/

/-- The events of the batch in progress that are still to be handled. -/
def Pc.batch : Pc Pk → List (Event Pk)
  | .handle events _ => events
  | _ => []

/-- The `Notify` of the request whose arm is being executed: taken from the
channel, not yet in `currentRequest`. There is no await in between. -/
def Pc.inArm : Pc Pk → Option Nat
  | .handle _ (.request _ _ notify) => some notify
  | _ => none

/-- No batch is in progress. -/
def Pc.Plain : Pc Pk → Prop
  | .handle _ _ => False
  | _ => True

theorem Pc.Plain.batch {pc : Pc Pk} (h : pc.Plain) : pc.batch = [] := by
  cases pc with
  | handle _ _ => exact h.elim
  | _ => rfl

theorem Pc.Plain.inArm {pc : Pc Pk} (h : pc.Plain) : pc.inArm = none := by
  cases pc with
  | handle _ _ => exact h.elim
  | _ => rfl

/-- The chunk the next `stream_recv` returns, if the task is about to make a
successful one. -/
def Connection.nextChunk (qc : Quiche Q) (s : Connection M Q Pk) : Option Bytes :=
  match s.pc with
  | .readStreams (0 :: _) =>
    match (qc.streamRecv s.conn 0).1 with
    | .ok (chunk, _) => some chunk
    | .error _ => none
  | _ => none

/-- The state of the library as it is when a packet is sent: an id may have
been acquired for it. -/
def Acquired (core : MqttCore M Pk) (m m' : M) : Prop :=
  m' = m ∨ m' = (core.acquirePacketId m).2

/-- `packet` is the acknowledgement `request` waits for under the identifier
`id`. -/
def Packet.Acknowledges (packet : Packet) (request : Request) (id : UInt16) : Prop :=
  match packet with
  | .puback packetId _ => request.isPublish .atLeastOnce = true ∧ id = packetId
  | .pubrec packetId _ => request.isPublish .exactlyOnce = true ∧ id = packetId
  | .suback packetId _ => request.isSubscribe = true ∧ id = packetId
  | _ => False

/-- An acknowledgement is no message. -/
theorem Packet.Acknowledges.notifiedMessages {packet : Packet} {request : Request} {id : UInt16}
    (h : packet.Acknowledges request id) :
    notifiedMessages ([.notifyPacketReceived packet] : List (Event Pk)) = [] := by
  cases packet with
  | publish topic qos payload => exact absurd h not_false
  | _ => rfl

/-- What handling one event does: it is one of these. -/
inductive Handled (core : MqttCore M Pk) (qc : Quiche Q) (s : Connection M Q Pk) :
    Event Pk → Connection M Q Pk → List (Output Pk) → Prop
  | sends (packet : Pk) :
      Handled core qc s (.requestSendPacket packet)
        { s with conn := (qc.streamSend s.conn 0 (core.toContinuousBuffer packet) false).2 }
        [.packet (core.toContinuousBuffer packet)]
  | offers (message : MqttMessage) :
      Handled core qc s
        (.notifyPacketReceived (.publish message.topic message.qos message.payload))
        { s with messages := (s.messages.trySend message).2 }
        [.message message (s.messages.trySend message).1]
  | connects (reasonCode : UInt8) :
      Handled core qc s (.notifyPacketReceived (.connack reasonCode)) s [.connectNotified]
  | acknowledges {packet : Packet} {request : Request} {id : UInt16} {notify : Nat}
      (current : s.currentRequest = some (request, id, notify))
      (acknowledges : packet.Acknowledges request id) :
      Handled core qc s (.notifyPacketReceived packet) { s with currentRequest := none }
        [.notified notify]
  | ignores {event : Event Pk} (noSend : ∀ packet, event ≠ .requestSendPacket packet)
      (noMessage : notifiedMessages [event] = []) : Handled core qc s event s []

/-- Where a batch that `checkedSend` started goes on: after the CONNECT packet,
or in the arm of the request that was taken. -/
def Next.Starts (next : Next) (i : Input) : Prop :=
  (next = .connected ∧ ∀ request notify, i ≠ .request request notify) ∨
    ∃ request id notify, i = .request request notify ∧ next = .request request id notify

/-- Every step is one of these. Only `checkedSend` and `recv` start a batch, and
only `event` touches the send side of stream 0, offers a message or calls
`notify_one`. A request that is taken without a batch ends the task. -/
inductive Move (core : MqttCore M Pk) (qc : Quiche Q) (s : Connection M Q Pk) :
    Input → Connection M Q Pk → List (Output Pk) → Prop
  | quiet {i : Input} {s' : Connection M Q Pk} {o : List (Output Pk)}
      (conn : qc.Call s.conn s'.conn) (mqttConn : Acquired core s.mqttConn s'.mqttConn)
      (frame : s'.messages = s.messages ∧ s'.currentRequest = s.currentRequest)
      (before : s.pc.Plain) (after : s'.pc.Plain) (idle : s.nextChunk qc = none)
      (request : ∀ request notify, i = .request request notify → ∃ r, s'.pc = .ended r)
      (out : ∀ x ∈ o, ∃ data dst, x = .sent data dst) :
      Move core qc s i s' o
  | checkedSend {i : Input} {s' : Connection M Q Pk} {m : M} {packet : Pk} {next : Next}
      (conn : qc.Call s.conn s'.conn) (acquired : Acquired core s.mqttConn m)
      (mqttConn : s'.mqttConn = (core.checkedSend m packet).2)
      (frame : s'.messages = s.messages ∧ s'.currentRequest = s.currentRequest)
      (before : s.pc.Plain) (after : s'.pc = .handle (core.checkedSend m packet).1 next)
      (idle : s.nextChunk qc = none) (starts : next.Starts i) :
      Move core qc s i s' [.checkedSend (core.checkedSend m packet).1]
  | recv {chunk : Bytes} {ids : List Nat} (before : s.pc.Plain)
      (reads : s.nextChunk qc = some chunk) :
      Move core qc s .step
        { s with
          conn := (qc.streamRecv s.conn 0).2
          mqttConn := (core.recv s.mqttConn chunk).2.2
          pc := .handle (core.recv s.mqttConn chunk).1 (.readStreams ids) }
        [.recv chunk (core.recv s.mqttConn chunk).2.1 (core.recv s.mqttConn chunk).1]
  | event {event : Event Pk} {rest : List (Event Pk)} {next : Next} {s' : Connection M Q Pk}
      {o : List (Output Pk)} (pc : s.pc = .handle (event :: rest) next)
      (goes : event ≠ .requestClose) (handled : Handled core qc s event s' o) :
      Move core qc s .step { s' with pc := .handle rest next } o
  | resume {events : List (Event Pk)} {next : Next} (pc : s.pc = .handle events next)
      (finished : events = [] ∨ ∃ rest, events = .requestClose :: rest) :
      Move core qc s .step (resume qc next s) []
  | rcv {message : MqttMessage} {messages : Chan MqttMessage 100}
      (recv : s.messages.recv = some (message, messages)) :
      Move core qc s .rcv { s with messages := messages } [.received message]
  | dropReceiver : Move core qc s .dropReceiver { s with messages := s.messages.dropReceiver } []

variable {core : MqttCore M Pk} {qc : Quiche Q}

/-- Looking for readable streams only moves the program counter. -/
theorem readable_eq (qc : Quiche Q) (s : Connection M Q Pk) :
    ∃ pc : Pc Pk, readable qc s = { s with pc := pc } ∧ pc.Plain ∧ ∀ r, pc ≠ .ended r := by
  unfold readable
  split
  · exact ⟨_, rfl, trivial, nofun⟩
  · exact ⟨_, rfl, trivial, nofun⟩

/-- After its batch the task keeps everything it had, but for the request that
becomes the current one. -/
theorem resume_eq (qc : Quiche Q) (next : Next) (s : Connection M Q Pk) :
    ∃ (pc : Pc Pk) (sent : Bool), pc.Plain ∧ (∀ r, pc ≠ .ended r) ∧
      resume qc next s =
        { s with
          mqttInitSent := sent
          pc := pc
          currentRequest := match next with
            | .request request id notify => some (request, id, notify)
            | _ => s.currentRequest } := by
  cases next with
  | connected =>
    obtain ⟨pc, heq, hplain, hrunning⟩ := readable_eq qc { s with mqttInitSent := true }
    exact ⟨pc, true, hplain, hrunning, heq⟩
  | readStreams ids => exact ⟨.readStreams ids, s.mqttInitSent, trivial, nofun, rfl⟩
  | request request id notify => exact ⟨.checkClosed, s.mqttInitSent, trivial, nofun, rfl⟩

/-- An acknowledgement releases the request that waits for it, or does nothing. -/
theorem acknowledge_handled {expects : Request → Bool} {packet : Packet} {packetId : UInt16}
    (s : Connection M Q Pk) (hmessage : packet.message = none)
    (hack : ∀ request, expects request = true → packet.Acknowledges request packetId) :
    Handled core qc s (.notifyPacketReceived packet) (acknowledge expects packetId s).1
      (acknowledge expects packetId s).2 := by
  have hnone : Handled core qc s (.notifyPacketReceived packet) s [] :=
    .ignores (by nofun) (by simp [notifiedMessages, notifiedPackets, hmessage])
  unfold acknowledge
  split
  · next request id notify hcurrent =>
    split
    · next hexp =>
      obtain ⟨hexpects, hid⟩ := Bool.and_eq_true_iff.mp hexp
      have hid : id = packetId := beq_iff_eq.mp hid
      subst hid
      exact .acknowledges hcurrent (hack request hexpects)
    · exact hnone
  · exact hnone

/-- A packet that was notified signals the waiting call, or offers a message. -/
theorem packetReceived_handled (packet : Packet) (s : Connection M Q Pk) :
    Handled core qc s (.notifyPacketReceived packet) (packetReceived packet s).1
      (packetReceived packet s).2 := by
  cases packet with
  | connack reasonCode => exact .connects reasonCode
  | puback id _ => exact acknowledge_handled s rfl fun _ hexp => ⟨hexp, rfl⟩
  | pubrec id _ => exact acknowledge_handled s rfl fun _ hexp => ⟨hexp, rfl⟩
  | suback id _ => exact acknowledge_handled s rfl fun _ hexp => ⟨hexp, rfl⟩
  | publish topic qos payload => exact .offers ⟨topic, qos, payload⟩
  | pubcomp _ => exact .ignores (by nofun) rfl
  | subscribe _ => exact .ignores (by nofun) rfl
  | other _ => exact .ignores (by nofun) rfl

/-- Every event is handled in one of these ways. -/
theorem handleEvent_handled (event : Event Pk) (s : Connection M Q Pk) :
    Handled core qc s event (handleEvent core qc event s).1 (handleEvent core qc event s).2 := by
  cases event with
  | requestSendPacket packet => exact .sends packet
  | notifyPacketReceived packet => exact packetReceived_handled packet s
  | notifyPacketIdReleased _ => exact .ignores (by nofun) rfl
  | notifyError => exact .ignores (by nofun) rfl
  | requestClose => exact .ignores (by nofun) rfl
  | requestTimerReset => exact .ignores (by nofun) rfl
  | requestTimerCancel => exact .ignores (by nofun) rfl

section Moves

variable {s : Connection M Q Pk} {i : Input}

/-- At most one call on the connection, and on to another place: no batch, no
chunk and no request. -/
theorem quiet_goto {q : Q} {pc : Pc Pk} (hcall : qc.Call s.conn q) (hb : s.pc.Plain)
    (hpc : pc.Plain) (hc : s.nextChunk qc = none)
    (hi : ∀ request notify, i ≠ .request request notify) :
    Move core qc s i { s with conn := q, pc := pc } [] :=
  .quiet hcall (.inl rfl) ⟨rfl, rfl⟩ hb hpc hc
    (fun request notify h => absurd h (hi request notify)) nofun

/-- The first `send` is a quiet move. -/
theorem initialSend_move (hb : s.pc.Plain) (hc : s.nextChunk qc = none) :
    Move core qc s .step (initialSend qc s) [] := by
  have hcall : qc.Call s.conn (qc.send s.conn).2 := .send
  unfold initialSend
  simp only
  split
  · exact quiet_goto hcall hb trivial hc nofun
  · exact quiet_goto hcall hb trivial hc nofun

/-- A round of the send loop is a quiet move. -/
theorem sendPending_move (hb : s.pc.Plain) (hc : s.nextChunk qc = none) :
    Move core qc s .step (sendPending qc s) [] := by
  have hcall : qc.Call s.conn (qc.send s.conn).2 := .send
  unfold sendPending
  simp only
  split
  · exact quiet_goto hcall hb trivial hc nofun
  · exact quiet_goto hcall hb trivial hc nofun

/-- The keepalive is a quiet move. -/
theorem keepalive_move (hb : s.pc.Plain) (hc : s.nextChunk qc = none) :
    Move core qc s .keepalive (keepalive qc s) [] := by
  have hcall : qc.Call s.conn (qc.sendAckEliciting s.conn).2 := .sendAckEliciting
  unfold keepalive
  split
  · simp only
    split
    · exact quiet_goto hcall hb trivial hc nofun
    · exact quiet_goto hcall hb trivial hc nofun
  · exact quiet_goto .none hb trivial hc nofun

/-- `q` is the connection after the datagram was passed to QUIC. -/
theorem sendConnect_move {data : Bytes} {src : ScionAddr} {q : Q} (hcall : qc.Call s.conn q)
    (hb : s.pc.Plain) (hc : s.nextChunk qc = none) :
    Move core qc s (.datagram data src) (sendConnect core { s with conn := q }).1
      (sendConnect core { s with conn := q }).2 := by
  unfold sendConnect
  split
  · split
    · exact quiet_goto hcall hb trivial hc nofun
    · exact .checkedSend hcall (.inl rfl) rfl ⟨rfl, rfl⟩ hb rfl hc (.inl ⟨rfl, nofun⟩)
  · exact quiet_goto hcall hb trivial hc nofun

/-- A datagram is a quiet move, or starts the batch of CONNECT. -/
theorem processUdpPacket_move {data : Bytes} {src : ScionAddr} (hb : s.pc.Plain)
    (hc : s.nextChunk qc = none) :
    Move core qc s (.datagram data src) (processUdpPacket core qc data src s).1
      (processUdpPacket core qc data src s).2 := by
  unfold processUdpPacket
  split
  · exact quiet_goto .none hb trivial hc nofun
  · next ip _ =>
    split
    · exact quiet_goto .none hb trivial hc nofun
    · next dst _ =>
      have hcall : qc.Call s.conn (qc.recv s.conn data ⟨ip, dst⟩).2 := .recv data ⟨ip, dst⟩
      simp only
      split
      · exact quiet_goto hcall hb trivial hc nofun
      · split
        -- CONNECT comes first, the streams are read once its batch is handled
        · exact sendConnect_move hcall hb hc
        · obtain ⟨pc, heq, hplain, -⟩ :=
            readable_eq qc { s with conn := (qc.recv s.conn data ⟨ip, dst⟩).2 }
          rw [heq]
          exact quiet_goto hcall hb hplain hc nofun

/-- A request that gets a packet starts its batch, and any other ends the task. -/
theorem sendRequest_move {build : UInt16 → Option Pk} {fault : Fault} {request : Request}
    {notify : Nat} (hb : s.pc.Plain) (hc : s.nextChunk qc = none) :
    Move core qc s (.request request notify) (sendRequest core build fault request notify s).1
      (sendRequest core build fault request notify s).2 := by
  have hacq : Acquired core s.mqttConn (core.acquirePacketId s.mqttConn).2 := .inr rfl
  unfold sendRequest
  simp only
  split
  · exact .quiet .none hacq ⟨rfl, rfl⟩ hb trivial hc (fun _ _ _ => ⟨_, rfl⟩) nofun
  · next id _ =>
    split
    · exact .quiet .none hacq ⟨rfl, rfl⟩ hb trivial hc (fun _ _ _ => ⟨_, rfl⟩) nofun
    · exact .checkedSend .none hacq rfl ⟨rfl, rfl⟩ hb rfl hc (.inr ⟨request, id, notify, rfl, rfl⟩)

/-- The arm of a request starts its batch, or ends the task. -/
theorem onRequest_move {request : Request} {notify : Nat} (hb : s.pc.Plain)
    (hc : s.nextChunk qc = none) :
    Move core qc s (.request request notify) (onRequest core request notify s).1
      (onRequest core request notify s).2 := by
  have hpanic : Move core qc s (.request request notify)
      { s with pc := .ended (.error .panicked) } [] :=
    .quiet .none (.inl rfl) ⟨rfl, rfl⟩ hb trivial hc (fun _ _ _ => ⟨_, rfl⟩) nofun
  unfold onRequest
  split
  · split
    · exact sendRequest_move hb hc
    · exact hpanic
  · split
    · exact sendRequest_move hb hc
    · exact hpanic

/-- Reading the streams hands a chunk to the library, or goes on. -/
theorem readStreams_move {ids : List Nat} (hpc : s.pc = .readStreams ids) :
    Move core qc s .step (readStreams core qc ids s).1 (readStreams core qc ids s).2 := by
  have hb : s.pc.Plain := by rw [hpc]; trivial
  unfold readStreams
  split
  · exact quiet_goto .none hb trivial (by simp [Connection.nextChunk, hpc]) nofun
  · next id rest =>
    split
    · next hid =>
      -- a stream other than 0 is skipped without a `stream_recv`
      have hc : s.nextChunk qc = none := by
        unfold Connection.nextChunk
        rw [hpc]
        split
        · next heq =>
          simp only [Pc.readStreams.injEq, List.cons.injEq] at heq
          exact absurd heq.1 hid
        · rfl
      exact quiet_goto .none hb trivial hc nofun
    · next hid =>
      have hzero : id = 0 := not_not.mp hid
      subst hzero
      simp only
      split
      · next e herr =>
        exact quiet_goto (.streamRecv 0) hb trivial
          (by simp [Connection.nextChunk, hpc, herr]) nofun
      · next chunk fin hok =>
        exact .recv hb (by simp [Connection.nextChunk, hpc, hok])

/-- A batch is handled event by event. -/
theorem handleEvents_move {events : List (Event Pk)} {next : Next}
    (hpc : s.pc = .handle events next) :
    Move core qc s .step (handleEvents core qc events next s).1
      (handleEvents core qc events next s).2 := by
  unfold handleEvents
  split
  · exact .resume hpc (.inl rfl)
  · next rest => exact .resume hpc (.inr ⟨rest, rfl⟩)
  · next event rest hgoes =>
    exact .event hpc hgoes (handleEvent_handled event s)

/-- Away from the read loop there is no chunk. -/
theorem nextChunk_eq_none (h : ∀ ids, s.pc ≠ .readStreams ids) : s.nextChunk qc = none := by
  unfold Connection.nextChunk
  split
  · next ids hpc => exact absurd hpc (h (0 :: ids))
  · rfl

/-- Every step of the task is one of its moves. -/
theorem taskStep_move {s' : Connection M Q Pk} {o : List (Output Pk)}
    (h : taskStep core qc s i = some (s', o)) : Move core qc s i s' o := by
  have hplain : (∀ ids, s.pc ≠ .readStreams ids) → s.nextChunk qc = none := nextChunk_eq_none
  unfold taskStep at h
  split at h
  · next hpc =>
    cases h
    exact initialSend_move (by rw [hpc]; trivial) (hplain (by simp [hpc]))
  · next data dst ok hpc =>
    have hb : s.pc.Plain := by rw [hpc]; trivial
    split at h
    · cases h
      exact .quiet .none (.inl rfl) ⟨rfl, rfl⟩ hb trivial (hplain (by simp [hpc])) nofun (by simp)
    · cases h
      exact quiet_goto .none hb trivial (hplain (by simp [hpc])) nofun
  · next hpc =>
    cases h
    exact quiet_goto .onTimeout (by rw [hpc]; trivial) trivial (hplain (by simp [hpc])) nofun
  · next hpc =>
    cases h
    exact keepalive_move (by rw [hpc]; trivial) (hplain (by simp [hpc]))
  · next data src hpc =>
    split at h
    · exact of_result h (processUdpPacket_move (by rw [hpc]; trivial) (hplain (by simp [hpc])))
    · cases h
  · next request notify hpc =>
    exact of_result h (onRequest_move (by rw [hpc]; trivial) (hplain (by simp [hpc])))
  · next events next hpc =>
    exact of_result h (handleEvents_move hpc)
  · next ids hpc =>
    exact of_result h (readStreams_move hpc)
  · next hpc =>
    have hb : s.pc.Plain := by rw [hpc]; trivial
    split at h
    · cases h
      exact quiet_goto .none hb trivial (hplain (by simp [hpc])) nofun
    · cases h
      exact quiet_goto .none hb trivial (hplain (by simp [hpc])) nofun
  · next hpc =>
    cases h
    exact sendPending_move (by rw [hpc]; trivial) (hplain (by simp [hpc]))
  · next data dst ok hpc =>
    have hb : s.pc.Plain := by rw [hpc]; trivial
    split at h
    · cases h
      exact .quiet .none (.inl rfl) ⟨rfl, rfl⟩ hb trivial (hplain (by simp [hpc])) nofun (by simp)
    · cases h
      exact quiet_goto .none hb trivial (hplain (by simp [hpc])) nofun
  · cases h

end Moves

/-- A step is one of the task, or the application's own at its end of the
messages. -/
theorem step_cases {s s' : Connection M Q Pk} {i : Input} {o : List (Output Pk)}
    (h : step core qc s i = some (s', o)) :
    taskStep core qc s i = some (s', o) ∨
      (i = .rcv ∨ i = .dropReceiver) ∧ ∃ messages, s' = { s with messages := messages } := by
  unfold step at h
  split at h
  · split at h
    · next message messages _ =>
      obtain ⟨rfl, rfl⟩ := Prod.mk.inj (Option.some.inj h)
      exact .inr ⟨.inl rfl, messages, rfl⟩
    · cases h
  · obtain ⟨rfl, rfl⟩ := Prod.mk.inj (Option.some.inj h)
    exact .inr ⟨.inr rfl, s.messages.dropReceiver, rfl⟩
  · exact .inl h

/-- **What a step does.** -/
theorem step_move {s s' : Connection M Q Pk} {i : Input} {o : List (Output Pk)}
    (h : step core qc s i = some (s', o)) : Move core qc s i s' o := by
  unfold step at h
  split at h
  · split at h
    · next message messages hrecv =>
      cases h
      exact .rcv hrecv
    · cases h
  · cases h
    exact .dropReceiver
  · exact taskStep_move h

end MqttScion.Client
