import MqttScion.Lib.Relay
import MqttScion.Proxy.Dispatch
import MqttScion.Proxy.QuicMove

/-!
# The client-to-broker direction

What the client sent on stream 0 waits in the connection until the client is
authenticated. Then `process_udp_packet` walks the readable streams and reads
each in pieces until nothing is left, writing the pieces of stream 0 to the
broker one by one. The law of `stream_recv` says that the pieces come out in
order and that a failed call means there is none left, so the handler is a
relay from `stream_recv` to `write_all` that holds at most one piece, and the
loop over stream 0 ends with nothing readable there.

> `client_bytes_faithful`: in every run of a connection the proxy accepted, what
> was written to the broker is a prefix of what arrived on stream 0, with at
> most the piece being written still to come; and when `process_udp_packet`
> returns from reading, everything readable has been written.
-/

namespace MqttScion.Proxy.QuicMode

open MqttScion.Net MqttScion.Lib

variable {Q : Type}

/-- The bytes written to the broker, in order. -/
def brokerWritten (os : List Output) : Bytes :=
  os.flatMap fun o => match o with
    | .brokerWrite b => b
    | _ => []

@[simp] theorem brokerWritten_append (os ps : List Output) :
    brokerWritten (os ++ ps) = brokerWritten os ++ brokerWritten ps := List.flatMap_append

/-- The piece being written to the broker. -/
@[simp] def Pc.unwritten : Pc → Bytes
  | .writeBroker b _ => b
  | _ => []

/-- The handler has returned. -/
@[simp] def Pc.ended : Pc → Bool
  | .returned _ => true
  | _ => false

/-- The streams still to be read. -/
def Pc.unread : Pc → Option (List Nat)
  | .readStreams ids | .writeBroker _ ids => some ids
  | _ => none

/-- What `stream_recv` handed out is written, but for the piece in hand; and
while the streams are walked, stream 0 is empty or still to be read. -/
structure Faithful (taken ready : Q → Bytes) (os : List Output) (s : Connection Q) : Prop where
  relay : Relay (taken s.conn) s.pc.unwritten (brokerWritten os) s.pc.ended
  walk : ∀ ids, s.pc.unread = some ids → ready s.conn = [] ∨ 0 ∈ ids

variable {qc : Quiche Q} {received taken ready : Q → Bytes} {s s' : Connection Q} {i : Input}
  {os o : List Output}

theorem unwritten_of_plain {pc : Pc} (h : pc.plain = true) : pc.unwritten = [] := by
  cases pc with
  | writeBroker b ids => cases h
  | _ => rfl

theorem unread_of_plain {pc : Pc} (h : pc.plain = true) : pc.unread = none := by
  cases pc with
  | queue l packet => cases h
  | readStreams ids => cases h
  | writeBroker b ids => cases h
  | _ => rfl

/-- The calls of a calm move hand out nothing. -/
theorem CalmCall.taken_eq (law : StreamRecvLaw qc received taken ready) {q q' : Q}
    (h : CalmCall qc i q q') : taken q' = taken q := by
  have hreceived : ∀ {q₁ : Q}, Received qc i q q₁ → taken q₁ = taken q := by
    intro q₁ hr
    cases hr with
    | nothing => rfl
    | recv hi hri => exact law.taken_recv q _ _
  cases h with
  | received hr => exact hreceived hr
  | closed app err reason hr => exact (law.taken_close _ app err reason).trans (hreceived hr)
  | send => exact law.taken_send q
  | sendAckEliciting => exact law.taken_sendAckEliciting q
  | onTimeout => exact law.taken_onTimeout q

/-- A move to an await outside the reading loops. -/
theorem Faithful.leave (h : Faithful taken ready os s) (conn : Q) (tcpStream : Bool) (pc : Pc)
    (hstart : s.pc.unwritten = []) (htaken : taken conn = taken s.conn)
    (hrun : s.pc.ended = false) (hpc : pc.unwritten = []) (hunread : pc.unread = none) :
    Faithful taken ready os { s with conn := conn, tcpStream := tcpStream, pc := pc } := by
  refine ⟨?_, fun ids hids => ?_⟩
  · have hrelay := h.relay
    rw [hstart, hrun] at hrelay
    show Relay (taken conn) pc.unwritten (brokerWritten os) pc.ended
    rw [htaken, hpc]
    exact .of_eq (hrelay.all rfl) _
  · rw [show pc.unread = some ids from hids] at hunread
    cases hunread

/-- **A step keeps the direction faithful.** -/
theorem step_faithful (law : StreamRecvLaw qc received taken ready)
    (h : Faithful taken ready os s) (hstep : step qc s i = some (s', o)) :
    Faithful taken ready (os ++ o) s' := by
  have hrun : s.pc.ended = false := by
    cases hpc : s.pc with
    | returned r => exact absurd hpc (step_running hstep r)
    | _ => rfl
  have hrelay := h.relay
  rw [hrun] at hrelay
  have hmove := step_move hstep
  cases hmove with
  | @calm i conn tcpStream pc o hstart _ hcall hpc ho =>
    have hleft := h.leave conn tcpStream pc (unwritten_of_plain hstart) (hcall.taken_eq law) hrun
      (unwritten_of_plain hpc) (unread_of_plain hpc)
    rcases ho with rfl | ⟨code, rfl⟩
    · simpa using hleft
    · exact ⟨by simpa [brokerWritten] using hleft.relay, hleft.walk⟩
  | @send l data info hstart hsend =>
    rw [List.append_nil]
    exact h.leave _ s.tcpStream _ (by rw [hstart]; rfl) (law.taken_send s.conn) hrun rfl rfl
  | @queued l packet hstart =>
    have hleft := h.leave s.conn s.tcpStream (.send l) (by rw [hstart]; rfl) rfl hrun rfl rfl
    exact ⟨by simpa [brokerWritten] using hleft.relay, hleft.walk⟩
  | refused hstart =>
    rw [List.append_nil]
    exact h.leave s.conn s.tcpStream _ (by rw [hstart]; rfl) rfl hrun rfl rfl
  | @read packet certOverdue ri hstart hri hcert hest =>
    rw [hstart] at hrelay
    rw [List.append_nil]
    refine ⟨?_, fun ids hids => ?_⟩
    · show Relay (taken (qc.recv s.conn packet.data ri).2) [] _ _
      rw [law.taken_recv]
      exact hrelay
    · -- the walk starts with every readable stream
      have hids' : qc.readable (qc.recv s.conn packet.data ri).2 = ids := Option.some.inj hids
      rw [← hids']
      by_cases hready : ready (qc.recv s.conn packet.data ri).2 = []
      · exact .inl hready
      · exact .inr (law.readable _ hready)
  | drained hstart =>
    rw [List.append_nil]
    exact h.leave s.conn s.tcpStream _ (by rw [hstart]; rfl) rfl hrun rfl rfl
  | panicked hstart htcp hrecv =>
    rw [hstart] at hrelay
    rw [List.append_nil]
    refine ⟨?_, fun ids hids => by cases hids⟩
    rcases law.streamRecv s.conn with ⟨b, fin, -, -, htaken⟩ | ⟨e, herr, -⟩
    · show Relay (taken (qc.streamRecv s.conn 0).2) [] _ true
      rw [htaken]
      exact (hrelay.push b false).close
    · rw [hrecv] at herr
      cases herr
  | @chunk ids b fin hstart htcp hrecv =>
    rw [hstart] at hrelay
    rw [List.append_nil]
    refine ⟨?_, fun ids' hids => .inr ?_⟩
    · rcases law.streamRecv s.conn with ⟨b', fin', hok, -, htaken⟩ | ⟨e, herr, -⟩
      · rw [hrecv] at hok
        obtain ⟨rfl, -⟩ := Prod.mk.inj (Except.ok.inj hok)
        show Relay (taken (qc.streamRecv s.conn 0).2) b _ false
        rw [htaken]
        exact hrelay.push b false
      · rw [hrecv] at herr
        cases herr
    · rw [← Option.some.inj hids]
      exact List.mem_cons_self
  | @skip id ids b fin hstart hid hrecv =>
    obtain ⟨hready, htaken⟩ := law.streamRecv_other s.conn id hid
    rw [hstart] at hrelay
    rw [List.append_nil]
    refine ⟨?_, fun ids' hids => ?_⟩
    · show Relay (taken (qc.streamRecv s.conn id).2) [] _ false
      rw [htaken]
      exact hrelay
    · show ready (qc.streamRecv s.conn id).2 = [] ∨ 0 ∈ ids'
      rw [hready]
      exact h.walk ids' (by rw [hstart]; exact hids)
  | @done id ids e hstart hrecv =>
    rw [hstart] at hrelay
    rw [List.append_nil]
    by_cases hid : id = 0
    · -- the stream the proxy writes from is the one just emptied
      subst hid
      rcases law.streamRecv s.conn with ⟨b, fin, hok, -⟩ | ⟨e', -, -, hready, htaken⟩
      · rw [hrecv] at hok
        cases hok
      · refine ⟨?_, fun _ _ => .inl hready⟩
        show Relay (taken (qc.streamRecv s.conn 0).2) [] _ false
        rw [htaken]
        exact hrelay
    · obtain ⟨hready, htaken⟩ := law.streamRecv_other s.conn id hid
      refine ⟨?_, fun ids' hids => ?_⟩
      · show Relay (taken (qc.streamRecv s.conn id).2) [] _ false
        rw [htaken]
        exact hrelay
      · show ready (qc.streamRecv s.conn id).2 = [] ∨ 0 ∈ ids'
        rw [hready, ← Option.some.inj hids]
        refine (h.walk (id :: ids) (by rw [hstart]; rfl)).imp (fun hr => hr) fun hmem => ?_
        exact (List.mem_cons.mp hmem).resolve_left (Ne.symm hid)
  | @wrote n b ids hstart =>
    rw [hstart] at hrelay
    refine ⟨?_, fun ids' hids => h.walk ids' (by rw [hstart]; exact hids)⟩
    simpa [brokerWritten] using hrelay.drain
  | @failed n b ids hstart =>
    rw [hstart] at hrelay
    refine ⟨?_, fun ids' hids => by cases hids⟩
    simpa [brokerWritten] using hrelay.cut (List.take_prefix n b)
  | @offered b pc hstart htcp hpc =>
    have hleft := h.leave (qc.streamSend s.conn 0 b false).2 s.tcpStream pc (by rw [hstart]; rfl)
      (law.taken_streamSend s.conn 0 b false) hrun (unwritten_of_plain hpc) (unread_of_plain hpc)
    exact ⟨by simpa [brokerWritten] using hleft.relay, hleft.walk⟩

theorem run_faithful (law : StreamRecvLaw qc received taken ready) {config : Config} {conn : Q}
    (hempty : taken conn = []) {is : List Input}
    (hr : run (step qc) (Connection.new config conn) is = some (s, os)) :
    Faithful taken ready os s := by
  refine @run_induct _ _ _ _ (Faithful taken ready) _ _ _ _ ?_ ?_ hr
  · refine ⟨?_, fun ids hids => by cases hids⟩
    show Relay (taken conn) [] [] false
    rw [hempty]
    exact .empty false
  · intro os s i s' o h hstep
    exact step_faithful law h hstep

/-- `process_udp_packet` returns at once, without an error, only on a connection
that is not authenticated. -/
theorem unread_not_authenticated {packet : UdpPacket} {certOverdue : Bool} {ri : RecvInfo}
    (hri : recvInfo packet = some ri)
    (h : step qc s (.udp (some packet) certOverdue) = some (s', o)) (hpc : s'.pc = .checkClosed) :
    qc.authenticated (qc.recv s.conn packet.data ri).2 = false := by
  cases hauth : qc.authenticated (qc.recv s.conn packet.data ri).2 with
  | false => rfl
  | true =>
    rw [Quiche.authenticated, Bool.and_eq_true] at hauth
    have hselect : s.pc = .select := by
      cases hs : s.pc with
      | select => rfl
      | _ => simp [step, hs] at h
    -- so the streams would have been read
    unfold recvInfo at hri
    split at hri
    · next src dst hsrc hdst =>
      obtain rfl := Option.some.inj hri
      simp only [step, hselect, processUdpPacket, hsrc, hdst] at h
      obtain ⟨hest, hcert⟩ := hauth
      have hnone : (qc.peerCert (qc.recv s.conn packet.data ⟨src, dst⟩).2).isNone = false := by
        rw [← Option.not_isSome, hcert, Bool.not_true]
      simp only [hnone, hest, if_true] at h
      split at h
      · obtain ⟨rfl, -⟩ := Prod.mk.inj (Option.some.inj h)
        cases hpc
      · obtain ⟨rfl, -⟩ := Prod.mk.inj (Option.some.inj h)
        cases hpc
    · cases hri

/-- **The client-to-broker direction is faithful**: in every run of a connection
that the proxy creates, the bytes written to the broker are a prefix of what has
arrived on stream 0; until the handler returns, they are all that `stream_recv`
has handed out but for the piece being written; and `process_udp_packet` returns
without an error only with nothing readable left and everything written, or else
on a connection that is not authenticated. -/
theorem client_bytes_faithful {K C : Type} {p : Env K C Q} {received taken ready : Q → Bytes}
    (law : StreamRecvLaw p.quiche.connection received taken ready)
    (hnew : ∀ quicConfig scid odcid localAddr peer conn quicConfig',
      p.quiche.accept quicConfig scid odcid localAddr peer = (.ok conn, quicConfig') →
        taken conn = [])
    {s₀ : State C Q} {hdr : Header} {srcIp : SocketAddr} {src : ScionAddr} {buf : Bytes}
    {origin : Origin} {task : Task Q} {c s : Connection Q} {is : List Input} {os : List Output}
    (hcreate : (create p (.quic hdr srcIp src buf) s₀).1.pc = .insert origin task)
    (hc : task.session = .quic c) (hr : run (step p.quiche.connection) c is = some (s, os)) :
    brokerWritten os <+: received s.conn ∧
    (s.pc.ended = false → brokerWritten os ++ s.pc.unwritten = taken s.conn) ∧
    (s.pc = .readStreams [] → brokerWritten os = taken s.conn ∧ ready s.conn = []) ∧
    (∀ packet certOverdue ri s' o, recvInfo packet = some ri →
      step p.quiche.connection s (.udp (some packet) certOverdue) = some (s', o) →
      s'.pc = .checkClosed →
        p.quiche.connection.authenticated
          (p.quiche.connection.recv s.conn packet.data ri).2 = false) := by
  obtain ⟨odcid, accepted, quicConfig, haccept, rfl⟩ := create_session hcreate hc
  have hempty : taken (p.quiche.connection.recv accepted buf ⟨srcIp, p.localAddr⟩).2 = [] := by
    rw [law.taken_recv]
    exact hnew _ _ _ _ _ _ _ haccept
  have h := run_faithful law hempty hr
  refine ⟨?_, fun hrun => h.relay.all hrun, fun hpc => ?_, ?_⟩
  · exact h.relay.out_isPrefix.trans ((List.prefix_append _ _).trans (law.in_order s.conn))
  · have hall := h.relay.all (by rw [hpc]; rfl)
    rw [hpc] at hall
    refine ⟨by simpa using hall, ?_⟩
    rcases h.walk [] (by rw [hpc]; rfl) with hready | hmem
    · exact hready
    · cases hmem
  · intro packet certOverdue ri s' o hri hstep hpc
    exact unread_not_authenticated hri hstep hpc

/-- An authenticated connection whose datagrams carry the bytes of stream 0:
what has been handed out, and what has not. -/
private def inboxQuiche : Quiche (Bytes × Bytes) where
  send q := (.error .done, q)
  recv q d _ := (.ok d.length, q.1, q.2 ++ d)
  streamSend q _ b _ := (.ok b.length, q)
  streamRecv q id :=
    if id = 0 ∧ q.2 ≠ [] then
      (.ok (q.2.take maxDatagramSize, false), q.1 ++ q.2.take maxDatagramSize,
        q.2.drop maxDatagramSize)
    else (.error .done, q)
  readable q := if q.2 = [] then [] else [0]
  close q _ _ _ := (.ok (), q)
  sendAckEliciting q := (.ok (), q)
  onTimeout q := q
  isEstablished _ := true
  isClosed _ := false
  peerCert _ := some []

private theorem inboxQuiche_law :
    StreamRecvLaw inboxQuiche (fun q => q.1 ++ q.2) Prod.fst Prod.snd where
  in_order q := List.prefix_rfl
  streamRecv q := by
    by_cases hready : q.2 = []
    · exact .inr ⟨.done, by simp [inboxQuiche, hready], hready, by simp [inboxQuiche, hready],
        by simp [inboxQuiche, hready]⟩
    · exact .inl ⟨q.2.take maxDatagramSize, false, by simp [inboxQuiche, hready],
        by simp [inboxQuiche, hready], by simp [inboxQuiche, hready]⟩
  streamRecv_other q id hid := by simp [inboxQuiche, hid]
  readable q hready := by simp [inboxQuiche, hready]
  taken_recv _ _ _ := rfl
  taken_send _ := rfl
  taken_streamSend _ _ _ _ := rfl
  taken_close _ _ _ _ := rfl
  taken_sendAckEliciting _ := rfl
  taken_onTimeout _ := rfl

private def inboxProxy : Env Bytes Unit (Bytes × Bytes) where
  hmac := Hmac.ofTable []
  quiche :=
    { headerFromSlice _ _ := .error .done
      versionIsSupported _ := true
      negotiateVersion _ _ := .ok []
      retry _ _ _ _ _ := .ok []
      accept _ _ _ _ _ := (.ok ([], []), ())
      connection := inboxQuiche }
  mode := .quicEndpoint
  mqttBrokerAddress := ⟨.ipv4 127 0 0 1, 1883⟩
  tokenKey := []
  connIdSeed := []
  localScionAddr := ⟨9, .ip (.ipv4 10 0 0 2), 4433⟩
  localAddr := ⟨.ipv4 10 0 0 2, 4433⟩
  localAddr_eq := rfl

private def inboxClient : ScionAddr := ⟨1, .ip (.ipv4 10 0 0 1), 4433⟩

/-- The Initial that follows a Retry, with the token minted for this client. -/
private def inboxInitial : Header :=
  ⟨.initial, 1, connId inboxProxy [7], [],
    some (mintToken inboxProxy.hmac inboxProxy.tokenKey ⟨.initial, 1, [7], [], some []⟩
      ⟨.ipv4 10 0 0 1, 4433⟩)⟩

/-- Bytes in the first datagram and in a later one, all written at once. -/
theorem client_bytes_faithful_sample :
    ∃ origin task c s os,
      (create inboxProxy (.quic inboxInitial ⟨.ipv4 10 0 0 1, 4433⟩ inboxClient [1, 2])
        (State.init ())).1.pc = .insert origin task ∧ task.session = .quic c ∧
      run (step inboxQuiche) c [.step, .brokerConnect true,
          .udp (some ⟨inboxClient, inboxProxy.localScionAddr, [3]⟩) false, .step, .written 3 true,
          .step] = some (s, os) ∧
      brokerWritten os = [1, 2, 3] ∧ brokerWritten os <+: s.conn.1 ++ s.conn.2 := by
  refine ⟨_, _, _, _, _, rfl, rfl, rfl, rfl, ?_⟩
  refine (@client_bytes_faithful _ _ _ inboxProxy _ _ _ inboxQuiche_law ?_ (State.init ())
    inboxInitial ⟨.ipv4 10 0 0 1, 4433⟩ inboxClient [1, 2] _ _ _ _ [.step, .brokerConnect true,
      .udp (some ⟨inboxClient, inboxProxy.localScionAddr, [3]⟩) false, .step, .written 3 true,
      .step] _ rfl rfl rfl).1
  intro quicConfig scid odcid localAddr peer conn quicConfig' haccept
  rw [← Except.ok.inj (Prod.mk.inj haccept).1]

end MqttScion.Proxy.QuicMode
