import MqttScion.Lib.Framing
import MqttScion.Net.Packet

/-!
# The MQTT library, as far as it is called

`mqtt_protocol_core` is a dependency of the repository, so the calls the client
makes on it are a parameter: `MqttCore M Pk` lists them for a connection of
state `M` and packets of type `Pk`. The library does no input or output of its
own. `checkedSend` and `recv` answer a list of events, and what the client does
is what it makes of each of them.

A packet to be sent is only ever encoded (`toContinuousBuffer`), so `Pk` is
opaque. A packet received is a `Packet`, with the fields that decide what a
caller of the client is told.

`RecvLaw` is the cursor contract of `recv`, as a hypothesis with a name: it
keeps partial packets inside, advances the cursor past what it consumed, and
may return after one complete packet.
-/

namespace MqttScion.Client

open MqttScion.Net MqttScion.Lib

/-- `mqtt::packet::Qos`. -/
inductive Qos
  | atMostOnce
  | atLeastOnce
  | exactlyOnce
  deriving DecidableEq, Repr

/-- `MqttMessage` (`src/client/mod.rs`). -/
structure MqttMessage where
  topic : String
  qos : Qos
  payload : Bytes
  deriving DecidableEq

/-- What a caller asks of the connection task. -/
inductive Request
  | subscribe (topic : String)
  | publish (message : MqttMessage)
  deriving DecidableEq

/-- A received packet; `other` is any kind `handle_events` only logs. -/
inductive Packet
  | connack (reasonCode : UInt8)
  | puback (packetId : UInt16) (reasonCode : UInt8)
  | pubrec (packetId : UInt16) (reasonCode : UInt8)
  | pubcomp (packetId : UInt16)
  | publish (topic : String) (qos : Qos) (payload : Bytes)
  | subscribe (packetId : UInt16)
  | suback (packetId : UInt16) (reasonCodes : List UInt8)
  | other (packetType : UInt8)
  deriving DecidableEq

/-- `mqtt::connection::Event`. The timer events and the error are only logged,
so they carry nothing here. -/
inductive Event (Pk : Type)
  | requestSendPacket (packet : Pk)
  | notifyPacketReceived (packet : Packet)
  | notifyPacketIdReleased (packetId : UInt16)
  | notifyError
  | requestClose
  | requestTimerReset
  | requestTimerCancel
  deriving DecidableEq

/-- The calls made on `mqtt::Connection<Client>` and on the packet builders. A
builder's fallible setter is a `Bool`, its `build()` an `Option`. -/
structure MqttCore (M Pk : Type) where
  /-- `Connection::new(V5_0)` with `set_auto_pub_response(true)`. -/
  new : M
  toContinuousBuffer : Pk → Bytes
  /-- `Connect::builder().client_id(..)` is `Ok`. -/
  connectClientId : String → Bool
  connectBuild : String → Option Pk
  /-- `SubEntry::new(..)` is `Ok`. -/
  subEntry : String → Qos → Bool
  subscribeBuild : UInt16 → String → Qos → Option Pk
  /-- `Publish::builder().topic_name(..)` is `Ok`. -/
  publishTopicName : String → Bool
  publishBuild : UInt16 → MqttMessage → Option Pk
  acquirePacketId : M → Option UInt16 × M
  checkedSend : M → Pk → List (Event Pk) × M
  /-- `recv(&mut Cursor::new(chunk))`: the events, where the cursor stands
  afterwards, and the next state. -/
  recv : M → Bytes → List (Event Pk) × Nat × M

/-- The message a received PUBLISH becomes. -/
def Packet.message : Packet → Option MqttMessage
  | .publish topic qos payload => some ⟨topic, qos, payload⟩
  | _ => none

/-- The packets a batch of events notifies, in order. -/
def notifiedPackets {Pk : Type} (events : List (Event Pk)) : List Packet :=
  events.filterMap fun e => match e with
    | .notifyPacketReceived packet => some packet
    | _ => none

/-- The messages a batch of events notifies, in order. -/
def notifiedMessages {Pk : Type} (events : List (Event Pk)) : List MqttMessage :=
  (notifiedPackets events).filterMap Packet.message

@[simp] theorem notifiedMessages_nil {Pk : Type} : notifiedMessages ([] : List (Event Pk)) = [] :=
  rfl

theorem notifiedMessages_cons {Pk : Type} (event : Event Pk) (events : List (Event Pk)) :
    notifiedMessages (event :: events) =
      notifiedMessages [event] ++ notifiedMessages events := by
  unfold notifiedMessages notifiedPackets
  rw [← List.singleton_append, List.filterMap_append, List.filterMap_append]

/-- The cursor contract of `recv`. `pending` is the partial packet the library
keeps, `completed` the packets, as bytes, that a call completed; `parse` reads
one. Nothing but `recv` touches the partial packet. -/
structure RecvLaw {M Pk : Type} (core : MqttCore M Pk) (F : Framing UInt8)
    (parse : Bytes → Option Packet) (pending : M → Bytes) (completed : M → Bytes → List Bytes) :
    Prop where
  parser : CursorParser F
    (fun m chunk => (completed m chunk, (core.recv m chunk).2.1, (core.recv m chunk).2.2)) pending
  notified : ∀ m chunk,
    notifiedPackets (core.recv m chunk).1 = (completed m chunk).filterMap parse
  new : pending core.new = []
  acquirePacketId : ∀ m, pending (core.acquirePacketId m).2 = pending m
  checkedSend : ∀ m packet, pending (core.checkedSend m packet).2 = pending m

end MqttScion.Client
