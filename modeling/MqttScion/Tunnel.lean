import MqttScion.Lib.Trim
import MqttScion.Client.Delivery
import MqttScion.Client.Mailbox
import MqttScion.Client.ReceivePath
import MqttScion.Client.SendPath
import MqttScion.Proxy.BrokerToClient
import MqttScion.Proxy.Fleet

/-!
# The way between a client and the broker

A client and a proxy are two programs; between them is a QUIC connection, and
QUIC brings what one end accepted on stream 0 to the other end in order
(`Link`). Neither end holds back the bytes its own stream does not take, so what
arrives is trimmed: of every packet of the client, or every chunk of the broker, a
front.

Each theorem is about one task in a run of the whole proxy and one session in a
run of the whole client, whatever the other tasks and sessions do.

> `upstream_trimmed`: what a task has written to the broker is trimmed from the
> packets of the session it is connected to.

> `downstream_trimmed`: what a session has read is trimmed from the chunks that
> its task has read from the broker.

> `read_from_broker`: if stream 0 took every chunk whole and no cursor was dropped
> before its end, the messages `rcv` returns of a session are messages in the
> broker's byte stream, in order and each once.
-/

namespace MqttScion.Tunnel

open MqttScion.Net MqttScion.Lib

/-! ## One end and the other -/

section Ends

variable {Q : Type} {qc : Quiche Q} {accepted : Q → Bytes}

/-- What `stream_send` takes is a front of what it is given. -/
theorem streamSend_front (law : StreamSendLaw qc accepted) (q : Q) (b : Bytes) :
    ∃ front, front <+: b ∧ accepted (qc.streamSend q 0 b false).2 = accepted q ++ front := by
  rcases law.streamSend q b with ⟨k, -, -, hacc⟩ | ⟨e, -, hacc⟩
  · exact ⟨b.take k, List.take_prefix k b, hacc⟩
  · exact ⟨[], List.nil_prefix, by rw [hacc, List.append_nil]⟩

/-- What a stream takes of some pieces is a front of all of them, so it is
trimmed. -/
theorem trims_step {before : List Bytes} {out front : Bytes} {pieces : List Bytes}
    (h : Trims before out) (hfront : front <+: pieces.flatten) :
    Trims (before ++ pieces) (out ++ front) :=
  h.append ((Trims.whole pieces).of_isPrefix hfront)

end Ends

/-! ## The client's end -/

section Client

open Client

variable {M Q Pk : Type} {core : MqttCore M Pk} {qc : Quiche Q}

/-- The packets offered to stream 0, in order. -/
def packets (os : List (Client.Output Pk)) : List Bytes :=
  os.filterMap fun o => match o with
    | .packet buffer => some buffer
    | _ => none

theorem packets_flatten (os : List (Client.Output Pk)) : (packets os).flatten = offered os := by
  induction os with
  | nil => rfl
  | cons o os ih =>
    unfold packets offered at ih ⊢
    cases o with
    | packet buffer => simpa using ih
    | _ => simpa using ih

/-- Stream 0 of a connection has taken a front of every packet. -/
theorem packets_trimmed {accepted : Q → Bytes} (law : StreamSendLaw qc accepted)
    {c₀ c : Connection M Q Pk} (hempty : accepted c₀.conn = []) {is : List Client.Input}
    {os : List (Client.Output Pk)} (hr : run (Client.step core qc) c₀ is = some (c, os)) :
    Trims (packets os) (accepted c.conn) := by
  refine @run_induct _ _ _ _ (fun os c => Trims (packets os) (accepted c.conn)) _ _ _ _ ?_ ?_ hr
  · rw [hempty]
    exact .nil
  · intro os c i c' o h hstep
    have happend : packets (os ++ o) = packets os ++ packets o := List.filterMap_append
    have hfront : ∃ front, front <+: (packets o).flatten ∧
        accepted c'.conn = accepted c.conn ++ front := by
      rw [packets_flatten]
      rcases step_offers law hstep with ⟨packet, -, -, hconn, hoff⟩ | ⟨-, hacc, -⟩
      · rw [hconn, hoff]
        exact streamSend_front law c.conn _
      · exact ⟨[], List.nil_prefix, by rw [hacc, List.append_nil]⟩
    obtain ⟨front, hfront, hacc⟩ := hfront
    rw [happend, hacc]
    exact trims_step h hfront

section Reading

variable {received taken ready : Q → Bytes} {c c' : Connection M Q Pk} {i : Client.Input}
  {o : List (Client.Output Pk)}

/-- A step that hands nothing out of stream 0. -/
def HandsOutNothing (taken : Q → Bytes) (c : Connection M Q Pk)
    (r : Connection M Q Pk × List (Client.Output Pk)) : Prop :=
  taken r.1.conn = taken c.conn ∧ chunkBytes r.2 = []

theorem readable_conn (c : Connection M Q Pk) : (readable qc c).conn = c.conn := by
  unfold readable
  split
  · rfl
  · rfl

theorem sendConnect_conn (c : Connection M Q Pk) :
    (sendConnect core c).1.conn = c.conn ∧ chunkBytes (sendConnect core c).2 = [] := by
  unfold sendConnect
  split
  · split
    · exact ⟨rfl, rfl⟩
    · exact ⟨rfl, rfl⟩
  · exact ⟨rfl, rfl⟩

theorem sendRequest_conn (build : UInt16 → Option Pk) (fault : Fault) (request : Request)
    (notify : Nat) (c : Connection M Q Pk) :
    (sendRequest core build fault request notify c).1.conn = c.conn ∧
      chunkBytes (sendRequest core build fault request notify c).2 = [] := by
  unfold sendRequest
  simp only
  split
  · exact ⟨rfl, rfl⟩
  · split
    · exact ⟨rfl, rfl⟩
    · exact ⟨rfl, rfl⟩

theorem onRequest_conn (request : Request) (notify : Nat) (c : Connection M Q Pk) :
    (onRequest core request notify c).1.conn = c.conn ∧
      chunkBytes (onRequest core request notify c).2 = [] := by
  unfold onRequest
  split
  · split
    · exact sendRequest_conn _ _ _ _ c
    · exact ⟨rfl, rfl⟩
  · split
    · exact sendRequest_conn _ _ _ _ c
    · exact ⟨rfl, rfl⟩

theorem processUdpPacket_taken (law : StreamRecvLaw qc received taken ready) (data : Bytes)
    (src : ScionAddr) (c : Connection M Q Pk) :
    HandsOutNothing taken c (processUdpPacket core qc data src c) := by
  unfold HandsOutNothing processUdpPacket
  split
  · exact ⟨rfl, rfl⟩
  · next ip _ =>
    split
    · exact ⟨rfl, rfl⟩
    · next dst _ =>
      have hrecv := law.taken_recv c.conn data ⟨ip, dst⟩
      simp only
      split
      · exact ⟨hrecv, rfl⟩
      · split
        · obtain ⟨hconn, hout⟩ :=
            @sendConnect_conn _ _ _ core { c with conn := (qc.recv c.conn data ⟨ip, dst⟩).2 }
          exact ⟨(congrArg taken hconn).trans hrecv, hout⟩
        · refine ⟨?_, rfl⟩
          rw [readable_conn]
          exact hrecv

/-- What `stream_recv` hands out of stream 0 is read at once. -/
theorem readStreams_taken (law : StreamRecvLaw qc received taken ready) (ids : List Nat)
    (c : Connection M Q Pk) :
    taken (readStreams core qc ids c).1.conn =
      taken c.conn ++ chunkBytes (readStreams core qc ids c).2 := by
  unfold readStreams
  split
  · exact (List.append_nil _).symm
  · next id rest =>
    split
    · exact (List.append_nil _).symm
    · next hid =>
      obtain rfl := not_not.mp hid
      simp only
      rcases law.streamRecv c.conn with ⟨b, fin, hok, -, htaken⟩ | ⟨e, herr, -, -, htaken⟩
      · rw [hok]
        simp only [htaken, chunkBytes, List.flatMap_singleton]
      · rw [herr]
        simp only [htaken]
        exact (List.append_nil _).symm

/-- Handling an event reads nothing. -/
theorem handleEvents_taken (law : StreamRecvLaw qc received taken ready) {events : List (Event Pk)}
    {next : Next} (hpc : c.pc = .handle events next) :
    HandsOutNothing taken c (handleEvents core qc events next c) := by
  unfold HandsOutNothing
  have hmove := @handleEvents_move _ _ _ core qc c events next hpc
  generalize handleEvents core qc events next c = r at hmove ⊢
  obtain ⟨c', o⟩ := r
  cases hmove with
  | quiet _ _ _ before _ _ _ _ =>
    rw [hpc] at before
    exact before.elim
  | checkedSend _ _ _ _ before _ _ _ =>
    rw [hpc] at before
    exact before.elim
  | recv before _ =>
    rw [hpc] at before
    exact before.elim
  | event _ _ handled =>
    refine ⟨?_, handled.reads.2.chunkBytes⟩
    cases handled with
    | sends packet => exact law.taken_streamSend c.conn 0 _ false
    | _ => rfl
  | @resume _ next' _ _ =>
    obtain ⟨pc, sent, -, -, heq⟩ := resume_eq qc next' c
    refine ⟨?_, rfl⟩
    show taken (resume qc next' c).conn = _
    rw [heq]

/-- **What a step hands out of stream 0 is what it reads.** -/
theorem step_taken (law : StreamRecvLaw qc received taken ready)
    (h : Client.step core qc c i = some (c', o)) :
    taken c'.conn = taken c.conn ++ chunkBytes o := by
  have hquiet : ∀ {r : Connection M Q Pk × List (Client.Output Pk)}, HandsOutNothing taken c r →
      some r = some (c', o) → taken c'.conn = taken c.conn ++ chunkBytes o := by
    intro r hnothing heq
    obtain rfl := Option.some.inj heq
    obtain ⟨hconn, hout⟩ := hnothing
    rw [hconn, hout, List.append_nil]
  rcases step_cases h with htask | ⟨hi, messages, rfl⟩
  · unfold taskStep at htask
    split at htask
    · refine hquiet ⟨?_, rfl⟩ htask
      show taken (initialSend qc c).conn = _
      unfold initialSend
      simp only
      split
      · exact law.taken_send c.conn
      · exact law.taken_send c.conn
    · split at htask
      · exact hquiet ⟨rfl, rfl⟩ htask
      · exact hquiet ⟨rfl, rfl⟩ htask
    · exact hquiet ⟨law.taken_onTimeout c.conn, rfl⟩ htask
    · refine hquiet ⟨?_, rfl⟩ htask
      show taken (keepalive qc c).conn = _
      unfold keepalive
      split
      · simp only
        split
        · exact law.taken_sendAckEliciting c.conn
        · exact law.taken_sendAckEliciting c.conn
      · rfl
    · split at htask
      · exact hquiet (processUdpPacket_taken law _ _ c) htask
      · cases htask
    · next request notify _ =>
      obtain ⟨hconn, hout⟩ := @onRequest_conn _ _ _ core request notify c
      exact hquiet ⟨congrArg taken hconn, hout⟩ htask
    · next hpc => exact hquiet (handleEvents_taken law hpc) htask
    · next ids _ =>
      obtain ⟨rfl, rfl⟩ := Prod.mk.inj (Option.some.inj htask)
      exact readStreams_taken law ids c
    · split at htask
      · exact hquiet ⟨rfl, rfl⟩ htask
      · exact hquiet ⟨rfl, rfl⟩ htask
    · refine hquiet ⟨?_, rfl⟩ htask
      show taken (sendPending qc c).conn = _
      unfold sendPending
      simp only
      split
      · exact law.taken_send c.conn
      · exact law.taken_send c.conn
    · split at htask
      · exact hquiet ⟨rfl, rfl⟩ htask
      · exact hquiet ⟨rfl, rfl⟩ htask
    · cases htask
  · -- the application's moves touch the messages alone
    rcases hi with rfl | rfl
    · simp only [Client.step] at h
      split at h
      · obtain ⟨-, rfl⟩ := Prod.mk.inj (Option.some.inj h)
        exact (List.append_nil _).symm
      · cases h
    · obtain ⟨-, rfl⟩ := Prod.mk.inj (Option.some.inj h)
      exact (List.append_nil _).symm

theorem run_taken (law : StreamRecvLaw qc received taken ready) {c₀ : Connection M Q Pk}
    (hempty : taken c₀.conn = []) {is : List Client.Input} {os : List (Client.Output Pk)}
    (hr : run (Client.step core qc) c₀ is = some (c, os)) : taken c.conn = chunkBytes os := by
  refine @run_induct _ _ _ _ (fun os c => taken c.conn = chunkBytes os) _ _ _ _ hempty ?_ hr
  intro os c i c' o h hstep
  rw [step_taken law hstep, h, chunkBytes_append]

end Reading

section Messages

variable {c₀ c : Connection M Q Pk} {is : List Client.Input} {os : List (Client.Output Pk)}

/-- The channel gets the messages the library notified, in order; some may be
missing. -/
theorem put_sublist (hstart : c₀.pc.batch = [])
    (hr : run (Client.step core qc) c₀ is = some (c, os)) :
    (put os ++ notifiedMessages c.pc.batch).Sublist (published os) := by
  refine @run_induct _ _ _ _
    (fun os c => (put os ++ notifiedMessages c.pc.batch).Sublist (published os)) _ _ _ _ ?_ ?_ hr
  · rw [hstart]
    exact List.Sublist.refl _
  intro os c i c' o h hstep
  rw [put_append, published_append]
  cases step_relay hstep with
  | start before hpub hput _ _ =>
    rw [before, notifiedMessages_nil, List.append_nil] at h
    rw [hput, hpub, List.append_nil]
    exact h.append (List.Sublist.refl _)
  | offer message rest _ batch after _ out =>
    rw [batch, notifiedMessages_publish] at h
    rw [after, out, put_message]
    show List.Sublist _ (published os ++ [])
    rw [List.append_nil]
    split
    · rw [List.append_assoc, List.singleton_append]
      exact h
    · -- a refused message is passed over
      rw [List.append_nil]
      exact (List.Sublist.append_left (List.sublist_cons_self _ _) _).trans h
  | close rest _ _ after _ out =>
    rw [after, out.put, out.published, notifiedMessages_nil, List.append_nil, List.append_nil,
      List.append_nil]
    exact (List.sublist_append_left _ _).trans h
  | take message _ _ pc out =>
    rw [pc, out]
    show List.Sublist (put os ++ [] ++ _) (published os ++ [])
    rw [List.append_nil, List.append_nil]
    exact h
  | other _ _ batch _ out =>
    rw [batch, out.put, out.published, List.append_nil, List.append_nil]
    exact h

/-- A library that notifies nothing when it sends notifies what it receives. -/
theorem published_eq (hsend : ∀ m packet, notifiedMessages (core.checkedSend m packet).1 = [])
    (hr : run (Client.step core qc) c₀ is = some (c, os)) :
    published os = (receivedPackets os).filterMap Packet.message := by
  refine @run_induct _ _ _ _
    (fun os _ => published os = (receivedPackets os).filterMap Packet.message) _ _ _ _ rfl ?_ hr
  intro os c i c' o h hstep
  rw [published_append, receivedPackets_append, List.filterMap_append, h]
  refine congrArg _ ?_
  cases step_move hstep with
  | quiet _ _ _ _ _ _ _ out =>
    have hnone : published o = [] ∧ receivedPackets o = [] := by
      refine ⟨List.flatMap_eq_nil_iff.mpr fun x hx => ?_,
        List.flatMap_eq_nil_iff.mpr fun x hx => ?_⟩
      · obtain ⟨data, dst, rfl⟩ := out x hx
        rfl
      · obtain ⟨data, dst, rfl⟩ := out x hx
        rfl
    rw [hnone.1, hnone.2]
    rfl
  | checkedSend _ _ _ _ _ _ _ _ =>
    show notifiedMessages _ ++ [] = _
    rw [hsend]
    rfl
  | recv _ _ =>
    show notifiedMessages _ ++ [] = (notifiedPackets _ ++ []).filterMap Packet.message
    rw [List.append_nil, List.append_nil]
    rfl
  | event _ _ handled =>
    rw [handled.reads.2.packets]
    cases handled with
    | _ => rfl
  | resume _ _ => rfl
  | rcv _ => rfl
  | dropReceiver => rfl

end Messages

end Client

/-! ## The proxy's end -/

section Proxy

open Proxy

variable {Q : Type} {qc : Quiche Q}

/-- The chunks read from the broker, in order. -/
def chunks (os : List QuicMode.Output) : List Bytes :=
  os.filterMap fun o => match o with
    | .brokerRead b => some b
    | _ => none

theorem chunks_flatten (os : List QuicMode.Output) :
    (chunks os).flatten = QuicMode.brokerBytes os := by
  induction os with
  | nil => rfl
  | cons o os ih =>
    unfold chunks QuicMode.brokerBytes at ih ⊢
    cases o with
    | brokerRead b => simpa using ih
    | _ => simpa using ih

/-- Stream 0 of a connection has taken a front of every chunk. -/
theorem chunks_trimmed {accepted : Q → Bytes} (law : StreamSendLaw qc accepted)
    {c₀ c : QuicMode.Connection Q} (hempty : accepted c₀.conn = []) {is : List QuicMode.Input}
    {os : List QuicMode.Output} (hr : run (QuicMode.step qc) c₀ is = some (c, os)) :
    Trims (chunks os) (accepted c.conn) := by
  refine @run_induct _ _ _ _ (fun os c => Trims (chunks os) (accepted c.conn)) _ _ _ _ ?_ ?_ hr
  · rw [hempty]
    exact .nil
  · intro os c i c' o h hstep
    have happend : chunks (os ++ o) = chunks os ++ chunks o := List.filterMap_append
    have hfront : ∃ front, front <+: (chunks o).flatten ∧
        accepted c'.conn = accepted c.conn ++ front := by
      rw [chunks_flatten]
      rcases QuicMode.step_accepted law hstep with ⟨b, -, rfl, hconn, -⟩ | ⟨-, hquiet⟩
      · rw [hconn]
        have hb : QuicMode.brokerBytes [.brokerRead b] = b := List.append_nil b
        rw [hb]
        exact streamSend_front law c.conn b
      · exact ⟨[], List.nil_prefix, by rw [hquiet.accepted_eq, List.append_nil]⟩
    obtain ⟨front, hfront, hacc⟩ := hfront
    rw [happend, hacc]
    exact trims_step h hfront

end Proxy

/-! ## A line between two ends -/

/-- One end of a connection whose datagrams are the bytes of stream 0: whether it
has greeted, how much its stream still takes, and what went which way. -/
private structure Line where
  greeted : Bool
  room : Nat
  accepted : Bytes
  taken : Bytes
  ready : Bytes
  deriving DecidableEq

private def lineQuiche : Quiche Line where
  send q :=
    if q.greeted then (.error .done, q)
    else
      (.ok ([0xc0], ⟨⟨.ipv4 10 0 5 1, 4433⟩, ⟨.ipv4 10 0 5 2, 4433⟩⟩), { q with greeted := true })
  recv q d _ := (.ok d.length, { q with ready := q.ready ++ d })
  streamSend q id b _ :=
    if id ≠ 0 then (.error (.other 0), q)
    else (.ok (min q.room b.length),
      { q with
        room := q.room - min q.room b.length
        accepted := q.accepted ++ b.take (min q.room b.length) })
  streamRecv q id :=
    if id = 0 ∧ q.ready ≠ [] then
      (.ok (q.ready.take maxDatagramSize, false),
        { q with
          taken := q.taken ++ q.ready.take maxDatagramSize
          ready := q.ready.drop maxDatagramSize })
    else (.error .done, q)
  readable q := if q.ready = [] then [] else [0]
  close q _ _ _ := (.ok (), q)
  sendAckEliciting q := (.ok (), q)
  onTimeout q := q
  isEstablished _ := true
  isClosed _ := false
  peerCert _ := some []

private theorem line_recvLaw :
    StreamRecvLaw lineQuiche (fun q => q.taken ++ q.ready) Line.taken Line.ready where
  in_order q := List.prefix_rfl
  streamRecv q := by
    by_cases hready : q.ready = []
    · exact .inr ⟨.done, by simp [lineQuiche, hready], hready, by simp [lineQuiche, hready],
        by simp [lineQuiche, hready]⟩
    · exact .inl ⟨q.ready.take maxDatagramSize, false, by simp [lineQuiche, hready],
        by simp [lineQuiche, hready], by simp [lineQuiche, hready]⟩
  streamRecv_other q id hid := by simp [lineQuiche, hid]
  readable q hready := by simp [lineQuiche, hready]
  taken_recv _ _ _ := rfl
  taken_send q := by
    by_cases hg : q.greeted = true
    · simp [lineQuiche, hg]
    · simp [lineQuiche, hg]
  taken_streamSend q id b fin := by
    by_cases hid : id = 0
    · simp [lineQuiche, hid]
    · simp [lineQuiche, hid]
  taken_close _ _ _ _ := rfl
  taken_sendAckEliciting _ := rfl
  taken_onTimeout _ := rfl

private theorem line_sendLaw : StreamSendLaw lineQuiche Line.accepted where
  streamSend q b := .inl ⟨min q.room b.length, Nat.min_le_right _ _, rfl, rfl⟩
  send q := by
    by_cases hg : q.greeted = true
    · simp [lineQuiche, hg]
    · simp [lineQuiche, hg]
  recv _ _ _ := rfl
  streamRecv q id := by
    by_cases hready : id = 0 ∧ q.ready ≠ []
    · simp [lineQuiche, hready]
    · simp [lineQuiche, hready]
  close _ _ _ _ := rfl
  sendAckEliciting _ := rfl
  onTimeout _ := rfl

private def lineClient : ScionAddr := ⟨1, .ip (.ipv4 10 0 5 1), 4433⟩

private def lineServer : ScionAddr := ⟨58, .ip (.ipv4 10 0 5 2), 4433⟩

/-- Every datagram is taken for the Initial that follows a Retry to the client. -/
private def lineProxy (room : Nat) : Proxy.Env Bytes Unit Line where
  hmac := Hmac.ofTable []
  quiche :=
    { headerFromSlice _ _ := .ok ⟨.initial, 1, List.replicate 20 8, [],
        some (Proxy.mintToken (Hmac.ofTable []) ([] : Bytes) ⟨.initial, 1, [8], [], some []⟩
          ⟨.ipv4 10 0 5 1, 4433⟩)⟩
      versionIsSupported _ := true
      negotiateVersion _ _ := .ok []
      retry _ _ _ _ _ := .ok []
      accept _ _ _ _ _ := (.ok ⟨true, room, [], [], []⟩, ())
      connection := lineQuiche }
  mode := .quicEndpoint
  mqttBrokerAddress := ⟨.ipv4 127 0 0 1, 1883⟩
  tokenKey := []
  connIdSeed := []
  localScionAddr := lineServer
  localAddr := ⟨.ipv4 10 0 5 2, 4433⟩
  localAddr_eq := rfl

private theorem line_fresh {room : Nat} {quicConfig quicConfig' : Unit} {scid : Bytes}
    {odcid : Option Bytes} {localAddr peer : SocketAddr} {conn : Line}
    (haccept : (lineProxy room).quiche.accept quicConfig scid odcid localAddr peer =
      (.ok conn, quicConfig')) : conn = ⟨true, room, [], [], []⟩ :=
  (Except.ok.inj (Prod.mk.inj haccept).1).symm

/-- The first datagram of the client, up to the loop of the handler. -/
private def lineStart (data : Bytes) : List Proxy.Input :=
  [.recvFrom data lineClient, .step, .step, .step, .step, .task 0 (.quic .step),
    .task 0 (.quic (.brokerConnect true))]

/-- The next datagram, and five bytes are written to the broker. -/
private def lineUp : List Proxy.Input :=
  lineStart [0x10, 15] ++ [.recvFrom [0, 4, 77] lineClient, .step, .step,
    .task 0 (.quic (.udp (some ⟨lineClient, lineServer, [0, 4, 77]⟩) false)),
    .task 0 (.quic .step), .task 0 (.quic (.written 5 true))]

/-- A client whose stream takes ten bytes sends CONNECT. -/
private def lineConnect : List (Client.System.Input Line) :=
  [.connect lineServer, .connection (some (lineClient, ⟨false, 10, [], [], []⟩)), .task 0 .step,
    .task 0 (.sent true), .task 0 (.datagram [] lineServer), .task 0 .step]

/-- A CONNACK and a PUBLISH from the broker, in one chunk. -/
private def lineDown : List Proxy.Input :=
  lineStart [0] ++ [.task 0 (.quic (.tcp (.data [0x20, 3, 0, 0, 0, 0x30, 5, 0, 1, 116, 0, 7])))]

/-- The client connects with a CONNACK, and gets these bytes next. -/
private def lineRead (data : Bytes) : List (Client.System.Input Line) :=
  [.connect lineServer, .connection (some (lineClient, ⟨false, 100, [], [], []⟩))] ++
    Client.connectInputs.map (.task 0) ++ [.poll] ++
    (Client.Input.datagram data lineServer :: List.replicate 6 .step).map (.task 0)

/-! ## From end to end -/

section Both

open Client.System

variable {K C Q M R Pk : Type} {p : Proxy.Env K C Q} {core : Client.MqttCore M Pk} {qc : Quiche R}

/-- In some run of the whole proxy, over connections that were `fresh` when they
were accepted, task `id` showed `os` and its connection is `c`. -/
def ProxyRun (p : Proxy.Env K C Q) (id : Nat) (c : Proxy.QuicMode.Connection Q)
    (os : List Proxy.QuicMode.Output) : Prop :=
  ∃ quicConfig is proxy log task,
    run (watched (Proxy.step p) (Proxy.handlerWatch p id)) (Proxy.State.init quicConfig) is =
      some (proxy, log) ∧
    proxy.tasks id = some task ∧ task.session = .quic c ∧ Proxy.quicOutputs log = os

/-- In some run of the whole client, over connections that were `fresh` when they
were made, the connection of session `n` showed `os` and is now `c`; `es` is the
mail of all sessions. -/
def ClientRun (core : Client.MqttCore M Pk) (qc : Quiche R) (fresh : R → Prop) (n : Nat)
    (c : Client.Connection M R Pk) (os : List (Client.Output Pk)) (es : List MailEvent) : Prop :=
  ∃ clientId is client client' log,
    run (watched (step core qc) (connectionWatch core qc n)) (.new clientId) is =
      some (client, log) ∧
    run (observe (step core qc) mail) (.new clientId) is = some (client', es) ∧
    (∀ localAddr conn, .connection (some (localAddr, conn)) ∈ is → fresh conn) ∧
    client.connection n = some c ∧ log.flatMap Prod.snd = os

theorem ProxyRun.alone {id : Nat} {c : Proxy.QuicMode.Connection Q}
    {os : List Proxy.QuicMode.Output} (h : ProxyRun p id c os) :
    ∃ key c₀ js, Proxy.Opened p (key, .quic c₀) ∧
      run (Proxy.QuicMode.step p.quiche.connection) c₀ js = some (c, os) := by
  obtain ⟨quicConfig, is, proxy, log, task, hr, ht, hc, rfl⟩ := h
  have halone := (Proxy.handler_run hr ht).2
  rw [Proxy.Task.handler, hc] at halone
  obtain ⟨c₀, js, qs, hopened, -, hqs, hrun⟩ := Proxy.quic_ranAlone halone
  rw [Proxy.quicOutputs_eq hqs]
  exact ⟨task.key, c₀, js, hopened, hrun⟩

variable {fresh : R → Prop} {n : Nat} {c : Client.Connection M R Pk}
  {os : List (Client.Output Pk)} {es : List MailEvent}

theorem ClientRun.alone (h : ClientRun core qc fresh n c os es) :
    ∃ remote localAddr clientId conn js, fresh conn ∧
      run (Client.step core qc) (.new core remote localAddr clientId conn) js = some (c, os) := by
  obtain ⟨clientId, is, client, client', log, hr, -, hfresh, hc, rfl⟩ := h
  obtain ⟨c₀, ⟨i, hi, remote, localAddr, clientId', conn, rfl, rfl⟩, hrun⟩ := connection_run hr hc
  exact ⟨remote, localAddr, clientId', conn, _, hfresh localAddr conn hi, hrun⟩

/-- What the mail says was put into the channel of session `n` is what its
connection put there. -/
theorem putIn_agree (s : State M R Pk) (i : Input R) (s' : State M R Pk) (o : List (Output Pk))
    (hstep : step core qc s i = some (s', o)) :
    (mail s i o).flatMap (MailEvent.putIn n) =
      (connectionWatch core qc n s i o).toList.flatMap fun move => Client.put move.2 := by
  have hmoves := step_sessionsMove hstep
  by_cases htask : ∃ m j, i = .task m j
  · obtain ⟨m, j, rfl⟩ := htask
    cases hmoves with
    | @task _ _ session session' q found taken moved sessions =>
      have hmail : (mail s (.task m j : Input R) (q.map (.task m))).flatMap (MailEvent.putIn n) =
          if m = n then Client.put q else [] := by
        rw [mail_task, List.flatMap_assoc]
        split
        · next hmn =>
          refine List.flatMap_congr fun out _ => ?_
          cases out with
          | message message r => cases r <;> simp [hmn]
          | _ => rfl
        · next hmn =>
          refine List.flatMap_eq_nil_iff.mpr fun out _ => ?_
          cases out with
          | message message r => cases r <;> simp [hmn]
          | _ => rfl
      have hwatch : connectionWatch core qc n s (.task m j) (q.map (.task m)) =
          if m = n then some (j, q) else none := by
        by_cases hmn : m = n
        · subst hmn
          simp [connectionWatch, connectionInput, connection_eq_some found, moved]
        · simp [connectionWatch, connectionInput, hmn]
      rw [hmail, hwatch]
      split
      · exact (List.append_nil _).symm
      · rfl
    | requests input _ _ => rcases input with hi | hi <;> cases hi
    | same noTask _ _ _ _ => exact absurd rfl (noTask m j)
  · -- nothing is put by a move of another kind
    have hputs : (mail s i o).flatMap (MailEvent.putIn n) = [] := by
      cases hmoves with
      | task _ _ _ _ => exact absurd ⟨_, _, rfl⟩ htask
      | reads stream _ _ _ => simp [mail, stream]
      | same _ _ _ out _ => rw [mail_eq_nil s i out, List.flatMap_nil]
      | _ => rfl
    rw [hputs]
    refine (List.flatMap_eq_nil_iff.mpr fun move hmem => ?_).symm
    obtain ⟨j, hinput, hmap⟩ := Option.bind_eq_some_iff.mp (Option.mem_toList.mp hmem)
    obtain ⟨⟨c', q⟩, hbind, rfl⟩ := Option.map_eq_some_iff.mp hmap
    obtain ⟨c, -, hmoved⟩ := Option.bind_eq_some_iff.mp hbind
    have hj : j = .rcv ∨ j = .dropReceiver := by
      unfold connectionInput at hinput
      split at hinput
      · exact absurd ⟨_, _, rfl⟩ htask
      · split at hinput
        · exact .inl (Option.some.inj hinput).symm
        · cases hinput
      · split at hinput
        · exact .inr (Option.some.inj hinput).symm
        · cases hinput
      · cases hinput
    rcases hj with rfl | rfl
    · simp only [Client.step] at hmoved
      split at hmoved
      · obtain ⟨-, rfl⟩ := Prod.mk.inj (Option.some.inj hmoved)
        rfl
      · cases hmoved
    · obtain ⟨-, rfl⟩ := Prod.mk.inj (Option.some.inj hmoved)
      rfl

/-- `rcv` returns of session `n`, in order, what its connection put into the
channel. -/
theorem ClientRun.gots (h : ClientRun core qc fresh n c os es) :
    gotsFrom n es <+: Client.put os := by
  obtain ⟨clientId, is, client, client', log, hr, hmail, -, -, rfl⟩ := h
  have hput : putsIn n es = Client.put (log.flatMap Prod.snd) := by
    rw [putsIn, observe_agree putIn_agree hmail hr, Client.put, List.flatMap_assoc]
    rfl
  rw [← hput]
  exact ((run_mailKept hmail).relay n).out_isPrefix

/-- What stream 0 brings to the other end is trimmed from what was offered, and a
front of it where the stream took as much as was offered. -/
theorem trims_of_link {pieces : List Bytes} {accepted received out : Bytes}
    (htrims : Trims pieces accepted) (hlink : received <+: accepted) (hout : out <+: received) :
    Trims pieces out ∧
      (pieces.flatten.length ≤ accepted.length → out <+: pieces.flatten) := by
  refine ⟨htrims.of_isPrefix (hout.trans hlink), fun hall => ?_⟩
  rw [← htrims.eq_of_length_le hall]
  exact hout.trans hlink

/-- **To the broker**: what a task writes is trimmed from the packets of the
session at the other end. -/
theorem upstream_trimmed {received taken ready : Q → Bytes} {accepted : R → Bytes}
    (recv : StreamRecvLaw p.quiche.connection received taken ready)
    (send : StreamSendLaw qc accepted)
    (hnew : ∀ quicConfig scid odcid localAddr peer conn quicConfig',
      p.quiche.accept quicConfig scid odcid localAddr peer = (.ok conn, quicConfig') →
        taken conn = [])
    {id : Nat} {c' : Proxy.QuicMode.Connection Q} {os' : List Proxy.QuicMode.Output}
    (hproxy : ProxyRun p id c' os')
    (hclient : ClientRun core qc (fun conn => accepted conn = []) n c os es)
    (link : received c'.conn <+: accepted c.conn) :
    Trims (packets os) (Proxy.QuicMode.brokerWritten os') ∧
      ((packets os).flatten.length ≤ (accepted c.conn).length →
        Proxy.QuicMode.brokerWritten os' <+: (packets os).flatten) := by
  obtain ⟨_, _, _, conn, _, hfresh, hclientRun⟩ := hclient.alone
  obtain ⟨_, _, _, hopened, hproxyRun⟩ := hproxy.alone
  obtain ⟨_, _, _, _, _, conn', buf, ri, _, config, haccept, -, rfl⟩ := hopened.quic_new
  have hempty : taken (p.quiche.connection.recv conn' buf ri).2 = [] := by
    rw [recv.taken_recv]
    exact hnew _ _ _ _ _ _ _ haccept
  have hfaithful := Proxy.QuicMode.run_faithful recv hempty hproxyRun
  have hwritten : Proxy.QuicMode.brokerWritten os' <+: received c'.conn :=
    hfaithful.relay.out_isPrefix.trans ((List.prefix_append _ _).trans (recv.in_order c'.conn))
  have htrims := packets_trimmed send hfresh hclientRun
  exact trims_of_link htrims link hwritten

/-- CONNECT is cut after ten of its 17 bytes, and five of them have reached the
broker. -/
theorem upstream_trimmed_sample :
    ∃ c os es c' os', ProxyRun (lineProxy 100) 0 c' os' ∧
      ClientRun Client.wireCore lineQuiche (fun conn => conn.accepted = []) 0 c os es ∧
      Proxy.QuicMode.brokerWritten os' = [0x10, 15, 0, 4, 77] ∧
      Trims (packets os) (Proxy.QuicMode.brokerWritten os') := by
  have hproxy : ProxyRun (lineProxy 100) 0 _ _ := ⟨(), lineUp, _, _, _, rfl, rfl, rfl, rfl⟩
  have hclient : ClientRun Client.wireCore lineQuiche (fun conn => conn.accepted = []) 0 _ _ _ :=
    ⟨"c1", lineConnect, _, _, _, rfl, rfl, by simp [lineConnect], rfl, rfl⟩
  refine ⟨_, _, _, _, _, hproxy, hclient, rfl, ?_⟩
  refine (upstream_trimmed line_recvLaw line_sendLaw ?_ hproxy hclient (by decide)).1
  intro quicConfig scid odcid localAddr peer conn quicConfig' haccept
  rw [line_fresh haccept]

/-- Stream 0 of a task's connection has taken a front of every chunk that the task
has read from the broker. -/
theorem ProxyRun.trims {accepted : Q → Bytes} (send : StreamSendLaw p.quiche.connection accepted)
    (hnew : ∀ quicConfig scid odcid localAddr peer conn quicConfig',
      p.quiche.accept quicConfig scid odcid localAddr peer = (.ok conn, quicConfig') →
        accepted conn = [])
    {id : Nat} {c : Proxy.QuicMode.Connection Q} {os : List Proxy.QuicMode.Output}
    (h : ProxyRun p id c os) : Trims (chunks os) (accepted c.conn) := by
  obtain ⟨_, _, _, hopened, hrun⟩ := h.alone
  obtain ⟨_, _, _, _, _, conn, buf, ri, _, config, haccept, -, rfl⟩ := hopened.quic_new
  refine chunks_trimmed send ?_ hrun
  show accepted (p.quiche.connection.recv conn buf ri).2 = []
  rw [send.recv]
  exact hnew _ _ _ _ _ _ _ haccept

/-- **From the broker**: what a session reads is trimmed from the chunks its task
at the other end has read. -/
theorem downstream_trimmed {received taken ready : R → Bytes} {accepted : Q → Bytes}
    (recv : StreamRecvLaw qc received taken ready)
    (send : StreamSendLaw p.quiche.connection accepted)
    (hnew : ∀ quicConfig scid odcid localAddr peer conn quicConfig',
      p.quiche.accept quicConfig scid odcid localAddr peer = (.ok conn, quicConfig') →
        accepted conn = [])
    {id : Nat} {c' : Proxy.QuicMode.Connection Q} {os' : List Proxy.QuicMode.Output}
    (hproxy : ProxyRun p id c' os')
    (hclient : ClientRun core qc (fun conn => taken conn = []) n c os es)
    (link : received c.conn <+: accepted c'.conn) :
    Trims (chunks os') (Client.chunkBytes os) ∧
      ((chunks os').flatten.length ≤ (accepted c'.conn).length →
        Client.chunkBytes os <+: (chunks os').flatten) := by
  obtain ⟨_, _, _, conn, _, hfresh, hclientRun⟩ := hclient.alone
  have hread : Client.chunkBytes os <+: received c.conn := by
    rw [← run_taken recv hfresh hclientRun]
    exact (List.prefix_append _ _).trans (recv.in_order c.conn)
  exact trims_of_link (hproxy.trims send hnew) link hread

/-- Of a chunk of twelve bytes the stream takes eight, and the client reads them. -/
theorem downstream_trimmed_sample :
    ∃ c os es c' os', ProxyRun (lineProxy 8) 0 c' os' ∧
      ClientRun Client.wireCore lineQuiche (fun conn => conn.taken = []) 0 c os es ∧
      chunks os' = [[0x20, 3, 0, 0, 0, 0x30, 5, 0, 1, 116, 0, 7]] ∧
      Client.chunkBytes os = [0x20, 3, 0, 0, 0, 0x30, 5, 0] ∧
      Trims (chunks os') (Client.chunkBytes os) := by
  have hproxy : ProxyRun (lineProxy 8) 0 _ _ := ⟨(), lineDown, _, _, _, rfl, rfl, rfl, rfl⟩
  have hclient : ClientRun Client.wireCore lineQuiche (fun conn => conn.taken = []) 0 _ _ _ :=
    ⟨"c1", lineRead [0x30, 5, 0], _, _, _, rfl, rfl, by simp [lineRead], rfl, rfl⟩
  refine ⟨_, _, _, _, _, hproxy, hclient, rfl, rfl, ?_⟩
  refine (downstream_trimmed line_recvLaw line_sendLaw ?_ hproxy hclient (by decide)).1
  intro quicConfig scid odcid localAddr peer conn quicConfig' haccept
  rw [line_fresh haccept]

/-- The frames of a front of a stream are a front of its frames. -/
theorem frames_isPrefix {F : Framing UInt8} {as bs : Bytes} (h : as <+: bs) :
    (F.frames as).1 <+: (F.frames bs).1 := by
  obtain ⟨rest, rfl⟩ := h
  rw [F.frames_append]
  exact List.prefix_append _ _

/-- **What `rcv` returns is what the broker sent**: of a session whose stream was
taken whole and whose cursors were read to their ends, only messages that are in
the broker's byte stream, in its order, and each at most once. -/
theorem read_from_broker {received taken ready : R → Bytes} {accepted : Q → Bytes}
    {F : Framing UInt8} {parse : Bytes → Option Client.Packet} {pending : M → Bytes}
    {completed : M → Bytes → List Bytes}
    (recv : StreamRecvLaw qc received taken ready)
    (send : StreamSendLaw p.quiche.connection accepted)
    (hnew : ∀ quicConfig scid odcid localAddr peer conn quicConfig',
      p.quiche.accept quicConfig scid odcid localAddr peer = (.ok conn, quicConfig') →
        accepted conn = [])
    (law : Client.RecvLaw core F parse pending completed)
    (hsend : ∀ m packet, Client.notifiedMessages (core.checkedSend m packet).1 = [])
    {id : Nat} {c' : Proxy.QuicMode.Connection Q} {os' : List Proxy.QuicMode.Output}
    (hproxy : ProxyRun p id c' os')
    (hclient : ClientRun core qc (fun conn => taken conn = []) n c os es)
    (link : received c.conn <+: accepted c'.conn)
    (whole : (Proxy.QuicMode.brokerBytes os').length ≤ (accepted c'.conn).length)
    (hunread : Client.unread os = []) :
    (gotsFrom n es).Sublist
      (((F.frames (Proxy.QuicMode.brokerBytes os')).1.filterMap parse).filterMap
        Client.Packet.message) := by
  obtain ⟨remote, localAddr, clientId, conn, js, hfresh, hrun⟩ := hclient.alone
  have hread : Client.chunkBytes os <+: Proxy.QuicMode.brokerBytes os' := by
    rw [← chunks_flatten] at whole ⊢
    rw [← run_taken recv hfresh hrun, ← (hproxy.trims send hnew).eq_of_length_le whole]
    exact ((List.prefix_append _ _).trans (recv.in_order c.conn)).trans link
  have hpackets : Client.receivedPackets os =
      (F.frames (Client.chunkBytes os)).1.filterMap parse :=
    (Client.run_inStep law hrun hunread).packets
  have hframes := (((frames_isPrefix (F := F) hread).filterMap parse).filterMap
    Client.Packet.message).sublist
  rw [← hpackets, ← published_eq hsend hrun] at hframes
  have hput := put_sublist rfl hrun
  exact (hclient.gots.sublist.trans (List.sublist_append_left _ _)).trans (hput.trans hframes)

/-- The whole chunk arrives, in two datagrams, and `rcv` returns the message. -/
theorem read_from_broker_sample :
    ∃ c os es c' os', ProxyRun (lineProxy 100) 0 c' os' ∧
      ClientRun Client.wireCore lineQuiche (fun conn => conn.taken = []) 0 c os es ∧
      gotsFrom 0 es = [⟨"t", .atMostOnce, [7]⟩] ∧
      (gotsFrom 0 es).Sublist
        (((Client.mqttFraming.frames (Proxy.QuicMode.brokerBytes os')).1.filterMap
          Client.wireParse).filterMap Client.Packet.message) := by
  have hproxy : ProxyRun (lineProxy 100) 0 _ _ := ⟨(), lineDown, _, _, _, rfl, rfl, rfl, rfl⟩
  have hclient : ClientRun Client.wireCore lineQuiche (fun conn => conn.taken = []) 0 _ _ _ :=
    ⟨"c1", lineRead [0x30, 5, 0, 1, 116, 0, 7] ++ [.rcv], _, _, _, rfl, rfl,
      by simp [lineRead], rfl, rfl⟩
  refine ⟨_, _, _, _, _, hproxy, hclient, rfl, ?_⟩
  refine read_from_broker line_recvLaw line_sendLaw ?_ Client.wireCore_law (fun _ _ => rfl) hproxy
    hclient (by decide) (by decide) rfl
  intro quicConfig scid odcid localAddr peer conn quicConfig' haccept
  rw [line_fresh haccept]

end Both

end MqttScion.Tunnel
