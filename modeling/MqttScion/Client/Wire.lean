import MqttScion.Client.Connection

/-!
# MQTT 5 on the wire, and a QUIC peer to talk to

A concrete instance of both parameters of the client: `wireCore` frames and
reads MQTT 5 control packets by their fixed header and answers a QoS 1 PUBLISH
with a PUBACK; its `recv` stops after one packet. `peerQuiche` is an
established connection whose datagrams are what the peer put on stream 0.

> `mqttFraming`: where a control packet ends is decided by its own bytes.

> `wireCore_law`: `wireCore` keeps the cursor contract, and `wireCore_strict`:
> it does stop after the first complete packet.
-/

namespace MqttScion.Client

open MqttScion.Net MqttScion.Lib

/-! ## Control packets -/

/-- A variable byte integer of at most `k` bytes: its value and its length. -/
def varint : Nat → Bytes → Option (Nat × Nat)
  | 0, _ => none
  | _ + 1, [] => none
  | k + 1, b :: rest =>
    if b.toNat < 128 then some (b.toNat, 1)
    else (varint k rest).map fun r => (b.toNat - 128 + 128 * r.1, r.2 + 1)

/-- A variable byte integer has a byte at least, and is in front of the string. -/
theorem varint_le_length : ∀ {k : Nat} {bs : Bytes} {v n : Nat},
    varint k bs = some (v, n) → 0 < n ∧ n ≤ bs.length := by
  intro k
  induction k with
  | zero =>
    intro bs v n h
    cases h
  | succ k ih =>
    intro bs v n h
    cases bs with
    | nil => cases h
    | cons b rest =>
      unfold varint at h
      split at h
      · cases h
        simp
      · obtain ⟨⟨v', n'⟩, hrest, heq⟩ := Option.map_eq_some_iff.mp h
        cases heq
        obtain ⟨hpos, hle⟩ := ih hrest
        simp only [List.length_cons]
        omega

/-- The integer is read off its own bytes: what follows them does not matter. -/
theorem varint_take_append : ∀ {k : Nat} {bs : Bytes} {v n : Nat} (m : Nat) (cs : Bytes),
    varint k bs = some (v, n) → n ≤ m → varint k (bs.take m ++ cs) = some (v, n) := by
  intro k
  induction k with
  | zero =>
    intro bs v n m cs h _
    cases h
  | succ k ih =>
    intro bs v n m cs h hm
    obtain ⟨hpos, -⟩ := varint_le_length h
    obtain ⟨m, rfl⟩ : ∃ m', m = m' + 1 := ⟨m - 1, by omega⟩
    cases bs with
    | nil => cases h
    | cons b rest =>
      rw [List.take_succ_cons, List.cons_append]
      unfold varint at h ⊢
      split at h
      · next hlast =>
        rw [if_pos hlast]
        exact h
      · next hmore =>
        rw [if_neg hmore]
        -- one byte less to take, and the rest of the integer by induction
        obtain ⟨⟨v', n'⟩, hrest, heq⟩ := Option.map_eq_some_iff.mp h
        cases heq
        rw [ih m cs hrest (by omega)]
        rfl

/-- Where the first control packet ends: the type byte, the remaining length
and that many bytes. -/
def packetEnd : Bytes → Option Nat
  | [] => none
  | _ :: rest =>
    match varint 4 rest with
    | none => none
    | some (len, n) => if n + len ≤ rest.length then some (1 + n + len) else none

/-- A control packet is its type byte, its remaining length and that many bytes. -/
theorem packetEnd_eq_some {bs : Bytes} {e : Nat} (h : packetEnd bs = some e) :
    ∃ b rest len n, bs = b :: rest ∧ varint 4 rest = some (len, n) ∧ n + len ≤ rest.length ∧
      e = 1 + n + len := by
  unfold packetEnd at h
  split at h
  · cases h
  · next b rest =>
    split at h
    · cases h
    · next len n hv =>
      split at h
      · next hle =>
        exact ⟨b, rest, len, n, rfl, hv, hle, (Option.some.inj h).symm⟩
      · cases h

/-- The end of a packet is the same in any string that begins with it. -/
theorem packetEnd_take_append {bs : Bytes} {e m : Nat} (cs : Bytes) (h : packetEnd bs = some e)
    (hm : e ≤ m) : packetEnd (bs.take m ++ cs) = some e := by
  obtain ⟨b, rest, len, n, rfl, hv, hle, rfl⟩ := packetEnd_eq_some h
  obtain ⟨m, rfl⟩ : ∃ m', m = m' + 1 := ⟨m - 1, by omega⟩
  rw [List.take_succ_cons, List.cons_append]
  show (match varint 4 (rest.take m ++ cs) with
    | none => none
    | some (len, n) => if n + len ≤ (rest.take m ++ cs).length then some (1 + n + len) else none) =
      some (1 + n + len)
  rw [varint_take_append m cs hv (by omega)]
  have hlen : n + len ≤ (rest.take m ++ cs).length := by
    rw [List.length_append, List.length_take]
    omega
  exact if_pos hlen

/-- Control packets frame a byte stream. -/
def mqttFraming : Framing UInt8 where
  next := packetEnd
  pos h := by
    obtain ⟨_, _, _, _, -, -, -, rfl⟩ := packetEnd_eq_some h
    omega
  le_length h := by
    obtain ⟨_, _, _, _, rfl, -, hle, rfl⟩ := packetEnd_eq_some h
    rw [List.length_cons]
    omega
  stable {as bs n} h := by
    obtain ⟨_, _, _, _, hcons, -, hle, hn⟩ := packetEnd_eq_some h
    have happ := packetEnd_take_append (m := as.length) bs h (by
      rw [hcons, List.length_cons]
      omega)
    rwa [List.take_length] at happ
  prompt {bs n} h := by
    have happ := packetEnd_take_append [] h (Nat.le_refl n)
    rwa [List.append_nil] at happ

/-! ## Reading and writing packets -/

/-- Two bytes, the most significant first. -/
def u16 (hi lo : UInt8) : UInt16 := hi.toUInt16 * 256 + lo.toUInt16

def u16Bytes (n : Nat) : Bytes := [(n / 256).toUInt8, n.toUInt8]

/-- A topic of single-byte characters, and its bytes. -/
def topicOf (bs : Bytes) : String := String.ofList (bs.map fun b => Char.ofNat b.toNat)

def topicBytes (topic : String) : Bytes := topic.toList.map fun c => c.toNat.toUInt8

/-- Skip the properties that stand before the rest. -/
def skipProperties (bs : Bytes) : Option Bytes :=
  (varint 4 bs).map fun r => bs.drop (r.2 + r.1)

/-- The variable header and payload of a PUBLISH of the given level: the packet
and, above QoS 0, its identifier. -/
def parsePublish (qos : Qos) : Bytes → Option (Packet × Option UInt16)
  | hi :: lo :: rest =>
    let n := (u16 hi lo).toNat
    let topic := topicOf (rest.take n)
    match qos, rest.drop n with
    | .atMostOnce, body =>
      (skipProperties body).map fun payload => (.publish topic qos payload, none)
    | _, idHi :: idLo :: body =>
      (skipProperties body).map fun payload => (.publish topic qos payload, some (u16 idHi idLo))
    | _, _ => none
  | _ => none

/-- The packet behind a fixed header. -/
def parseBody (ty : UInt8) (body : Bytes) : Option (Packet × Option UInt16) :=
  match ty.toNat / 16, body with
  | 2, _ :: reason :: _ => some (.connack reason, none)
  | 3, body =>
    match ty.toNat / 2 % 4 with
    | 0 => parsePublish .atMostOnce body
    | 1 => parsePublish .atLeastOnce body
    | 2 => parsePublish .exactlyOnce body
    | _ => none
  | 4, [hi, lo] => some (.puback (u16 hi lo) 0, none)
  | 4, hi :: lo :: reason :: _ => some (.puback (u16 hi lo) reason, none)
  | 5, [hi, lo] => some (.pubrec (u16 hi lo) 0, none)
  | 5, hi :: lo :: reason :: _ => some (.pubrec (u16 hi lo) reason, none)
  | 7, hi :: lo :: _ => some (.pubcomp (u16 hi lo), none)
  | 9, hi :: lo :: rest =>
    (skipProperties rest).map fun reasons => (.suback (u16 hi lo) reasons, none)
  | 13, [] => some (.other ty, none)
  | _, _ => none

/-- A control packet and the identifier to acknowledge, if it is one to be
acknowledged at QoS 1. -/
def parsePacket : Bytes → Option (Packet × Option UInt16)
  | [] => none
  | ty :: rest =>
    match varint 4 rest with
    | none => none
    | some (_, n) => parseBody ty (rest.drop n)

/-- `v` as a variable byte integer of at most `k` bytes. -/
def varintBytes : Nat → Nat → Bytes
  | 0, _ => []
  | k + 1, v => if v < 128 then [v.toUInt8] else (128 + v % 128).toUInt8 :: varintBytes k (v / 128)

def packetBytes (ty : UInt8) (body : Bytes) : Bytes := ty :: (varintBytes 4 body.length ++ body)

/-- A length-prefixed string. -/
def stringBytes (s : String) : Bytes := u16Bytes (topicBytes s).length ++ topicBytes s

def Qos.bits : Qos → UInt8
  | .atMostOnce => 0
  | .atLeastOnce => 1
  | .exactlyOnce => 2

/-! ## The library -/

/-- The partial packet and the next packet identifier, `none` once they are
used up. -/
structure WireCore where
  pending : Bytes
  nextId : Option UInt16
  deriving DecidableEq

/-- DISCONNECT with the reason code of a malformed packet. -/
def malformedDisconnect : Bytes := packetBytes 0xe0 [0x81]

/-- The events of one complete packet. -/
def packetEvents (frame : Bytes) : List (Event Bytes) :=
  match parsePacket frame with
  | none => [.requestSendPacket malformedDisconnect, .requestClose, .notifyError]
  | some (packet@(.publish _ .atLeastOnce _), some id) =>
    [.requestSendPacket (packetBytes 0x40 (u16Bytes id.toNat)), .notifyPacketReceived packet]
  | some (packet, _) => [.notifyPacketReceived packet]

def wireCore : MqttCore WireCore Bytes where
  new := ⟨[], some 1⟩
  toContinuousBuffer packet := packet
  connectClientId clientId := (topicBytes clientId).length < 65536
  connectBuild clientId :=
    some (packetBytes 0x10 (stringBytes "MQTT" ++ [5, 2, 0, 0, 0] ++ stringBytes clientId))
  subEntry topic _ := (topicBytes topic).length < 65536
  subscribeBuild id topic qos :=
    some (packetBytes 0x82 (u16Bytes id.toNat ++ [0] ++ stringBytes topic ++ [qos.bits]))
  publishTopicName topic := (topicBytes topic).length < 65536 &&
    !topic.toList.any fun c => c = '#' || c = '+'
  publishBuild id message :=
    some (packetBytes (0x30 + 2 * message.qos.bits)
      (stringBytes message.topic ++ u16Bytes id.toNat ++ [0] ++ message.payload))
  acquirePacketId m :=
    (m.nextId, { m with
      nextId := m.nextId.bind fun id => if id = 65535 then none else some (id + 1) })
  checkedSend m packet := ([.requestSendPacket packet], m)
  recv m chunk :=
    let r := mqttFraming.strictRecv m.pending chunk
    (r.1.flatMap packetEvents, r.2.1, { m with pending := r.2.2 })

/-- The packets `recv` completes. -/
def wireCompleted (m : WireCore) (chunk : Bytes) : List Bytes :=
  (mqttFraming.strictRecv m.pending chunk).1

def wireParse (frame : Bytes) : Option Packet := (parsePacket frame).map Prod.fst

/-- A complete packet is notified if it parses, and nothing else is. -/
theorem notifiedPackets_packetEvents (frame : Bytes) :
    notifiedPackets (packetEvents frame) = (wireParse frame).toList := by
  unfold packetEvents wireParse
  split
  · next h => rw [h]; rfl
  · next h => rw [h]; rfl
  · next h => rw [h]; rfl

/-- `wireCore` keeps the cursor contract. -/
theorem wireCore_law :
    RecvLaw wireCore mqttFraming wireParse WireCore.pending wireCompleted where
  parser :=
    { consumed_le := fun m d => mqttFraming.strictRecv_cursor.consumed_le m.pending d
      feed := fun m d => mqttFraming.strictRecv_cursor.feed m.pending d
      stop := fun m d => mqttFraming.strictRecv_cursor.stop m.pending d }
  notified m chunk := by
    show notifiedPackets ((wireCompleted m chunk).flatMap packetEvents) =
      (wireCompleted m chunk).filterMap wireParse
    -- frame by frame: each notifies the packet it parses to, if any
    induction wireCompleted m chunk with
    | nil => rfl
    | cons frame rest ih =>
      have hone := notifiedPackets_packetEvents frame
      unfold notifiedPackets at hone ih ⊢
      rw [List.flatMap_cons, List.filterMap_append, hone, ih, List.filterMap_cons]
      cases wireParse frame <;> rfl
  new := rfl
  acquirePacketId _ := rfl
  checkedSend _ _ := rfl

/-- It is a parser of the strict kind. -/
theorem wireCore_strict : Strict mqttFraming
    (fun m chunk => (wireCompleted m chunk, (wireCore.recv m chunk).2.1,
      (wireCore.recv m chunk).2.2)) WireCore.pending :=
  fun m d k => mqttFraming.strictRecv_strict m.pending d k

/-! ## The peer -/

/-- The connection, seen from the client: whether the first datagram was sent,
the window of stream 0, what is left of it and what the stream accepted, what is
there to read, whether the connection was closed. -/
structure Peer where
  greeted : Bool
  window : Nat
  room : Nat
  accepted : Bytes
  chunks : List Bytes
  closed : Bool
  deriving DecidableEq

/-- An established connection. A datagram is a chunk for stream 0 and reopens
the window; the empty one closes the connection, as does the timeout. -/
def peerQuiche : Quiche Peer where
  send q :=
    if q.greeted then (.error .done, q)
    else (.ok ([0xc0], ⟨⟨.ipv4 10 0 0 1, 4433⟩, ⟨.ipv4 10 0 0 2, 8883⟩⟩),
      { q with greeted := true })
  recv q d _ :=
    if d = [] then (.ok 0, { q with closed := true })
    else (.ok d.length, { q with chunks := q.chunks ++ [d], room := q.window })
  streamSend q id b _ :=
    if id ≠ 0 then (.error (.other 0), q)
    else if q.room = 0 then (.error .done, q)
    else (.ok (min q.room b.length),
      { q with room := q.room - min q.room b.length
               accepted := q.accepted ++ b.take (min q.room b.length) })
  streamRecv q _ :=
    match q.chunks with
    | [] => (.error .done, q)
    | chunk :: rest => (.ok (chunk, false), { q with chunks := rest })
  readable q := if q.chunks = [] then [] else [0]
  close q _ _ _ := (.ok (), { q with closed := true })
  sendAckEliciting q := (.ok (), q)
  onTimeout q := { q with closed := true }
  isEstablished _ := true
  isClosed q := q.closed
  peerCert _ := some []

/-- The peer keeps the books of stream 0. -/
theorem peerQuiche_law : StreamSendLaw peerQuiche Peer.accepted where
  streamSend q b := by
    by_cases hroom : q.room = 0
    · exact .inr ⟨.done, by simp [peerQuiche, hroom], by simp [peerQuiche, hroom]⟩
    · exact .inl ⟨min q.room b.length, Nat.min_le_right _ _, by simp [peerQuiche, hroom],
        by simp [peerQuiche, hroom]⟩
  send q := by
    simp only [peerQuiche]
    split <;> rfl
  recv q d ri := by
    simp only [peerQuiche]
    split <;> rfl
  streamRecv q id := by
    simp only [peerQuiche]
    split <;> rfl
  close _ _ _ _ := rfl
  sendAckEliciting _ := rfl
  onTimeout _ := rfl

def peerAddr : ScionAddr := ⟨1, .ip (.ipv4 10 0 0 2), 8883⟩

/-- A client of that peer, on which nothing has happened yet. -/
def peerClient (window : Nat) : Connection WireCore Peer Bytes :=
  Connection.new wireCore peerAddr ⟨1, .ip (.ipv4 10 0 0 1), 4433⟩ "c1"
    ⟨false, window, window, [], [], false⟩

/-- The handshake: the first datagram out, a chunk with the CONNACK in, and back
to the loop head. -/
def connectInputs : List Input :=
  [.step, .sent true, .datagram [0x20, 3, 0, 0, 0] peerAddr] ++ List.replicate 9 .step

end MqttScion.Client
