import MqttScion.Proxy.Alone
import MqttScion.Proxy.AuthGate
import MqttScion.Proxy.ClientToBroker
import MqttScion.Proxy.Closing

/-!
# What holds of one handler holds of all

Since every task runs alone, what is shown of the runs of the QUIC handler is
true of each of the connections of a proxy at once, however the tasks and the
main loop take turns.

> `never_panics`: no order of datagrams, timers and broker events makes the
> main loop or any of its tasks panic.

> `broker_streams_separate`: the stream a task writes to the broker is a prefix
> of what arrived on stream 0 of that task's own connection, and is written only
> for an authenticated client.
-/

namespace MqttScion.Proxy

open MqttScion.Net MqttScion.Lib

variable {K C Q : Type} {p : Env K C Q} {s s' : State C Q} {i : Input} {o : List Output}

/-! ## The QUIC handler inside its task -/

/-- A QuicEndpoint handler takes its steps as a handler of the proxy. -/
theorem quic_embeds (qc : Quiche Q) (key : Key) :
    Embeds (QuicMode.step qc) (Handler.step qc) (fun c => (key, .quic c)) .quic .quic := by
  intro c j h' q h
  cases j with
  | udp i => cases h
  | quic i =>
    obtain ⟨⟨c', o⟩, hstep, heq⟩ := Option.map_eq_some_iff.mp h
    obtain ⟨rfl, rfl⟩ := Prod.mk.inj heq
    exact ⟨i, c', o, rfl, hstep, rfl, rfl⟩

/-- A UdpEndpoint session takes its steps as a handler of the proxy. -/
theorem udp_embeds (qc : Quiche Q) (key : Key) :
    Embeds UdpMode.step (Handler.step qc) (fun c => (key, .udp c)) .udp .udp := by
  intro c j h' q h
  cases j with
  | quic i => cases h
  | udp i =>
    obtain ⟨⟨c', o⟩, hstep, heq⟩ := Option.map_eq_some_iff.mp h
    obtain ⟨rfl, rfl⟩ := Prod.mk.inj heq
    exact ⟨i, c', o, rfl, hstep, rfl, rfl⟩

/-- A connection that ran alone under its key is where a run of the QUIC handler
ends, over a connection the proxy opened. -/
theorem quic_ranAlone {log : List (SessionInput × List SessionOutput)} {key : Key}
    {c : QuicMode.Connection Q}
    (h : RanAlone (Handler.step p.quiche.connection) (Opened p) log (key, .quic c)) :
    ∃ c₀ js qs, Opened p (key, .quic c₀) ∧ log.map Prod.fst = js.map .quic ∧
      log.flatMap Prod.snd = qs.map .quic ∧
      run (QuicMode.step p.quiche.connection) c₀ js = some (c, qs) := by
  obtain ⟨⟨key₀, session₀⟩, hopened, hrun⟩ := h
  cases session₀ with
  | quic c₀ =>
    obtain ⟨js, c', qs, hjs, hrun', heq, hqs⟩ := (quic_embeds _ key₀).run hrun
    obtain ⟨rfl, hsession⟩ := Prod.mk.inj heq
    obtain rfl := Session.quic.inj hsession
    exact ⟨c₀, js, qs, hopened, hjs, hqs, hrun'⟩
  | udp c₀ =>
    obtain ⟨js, c', qs, -, -, heq, -⟩ := (udp_embeds p.quiche.connection key₀).run hrun
    cases (Prod.mk.inj heq).2

/-- What an accepted connection has in the beginning. -/
theorem Opened.quic_new {key : Key} {c : QuicMode.Connection Q} (h : Opened p (key, .quic c)) :
    ∃ quicConfig quicConfig' scid odcid peer conn buf ri n config,
      p.quiche.accept quicConfig scid (some odcid) p.localAddr peer = (.ok conn, quicConfig') ∧
      (p.quiche.connection.recv conn buf ri).1 = .ok n ∧
      c = .new config (p.quiche.connection.recv conn buf ri).2 := by
  cases h with
  | quic hsrc hparsed htoken hvalid haccept hrecv =>
    exact ⟨_, _, _, _, _, _, _, _, _, _, haccept, hrecv, rfl⟩

/-! ## Panics -/

/-- Validating a token does not panic, so handling an Initial does not. -/
theorem handleInitial_ne_panicked (quicConfig : C) (hdr : Header) (srcIp : SocketAddr)
    (buf : Bytes) : (handleInitial p quicConfig hdr srcIp buf).1 ≠ .fail .panicked := by
  unfold handleInitial
  split
  · split <;> simp
  · simp only
    split
    · simp
    · next token _ =>
      split
      · split <;> simp
      · obtain ⟨r, hr⟩ := validateToken_ok p.hmac p.tokenKey srcIp token
        rw [hr]
        cases r with
        | none => simp
        | some odcid =>
          simp only
          split
          · simp
          · split
            · simp
            · split <;> simp

/-- `create` does not panic. -/
theorem create_ne_panicked (d : Incoming) (s : State C Q) :
    (create p d s).1.pc ≠ .returned .panicked := by
  have hcreated := create_created p d s
  generalize create p d s = r at hcreated ⊢
  cases hcreated with
  | prepared _ _ _ _ _ _ => simp [State.prepare]
  | dropped _ => simp
  | answered _ _ _ _ _ => simp [State.respond]
  | failed _ f _ hfail =>
    intro hpc
    obtain rfl := Pc.returned.inj hpc
    exact handleInitial_ne_panicked _ _ _ _ hfail

/-- The main loop does not panic. -/
theorem MainTurn.ne_panicked (hpc : s.pc ≠ .returned .panicked) (h : MainTurn p s i s' o) :
    s'.pc ≠ .returned .panicked := by
  cases h with
  | receives _ _ =>
    unfold recvFrom
    split
    · exact hpc
    · split
      · split
        · exact hpc
        · simp
      · simp
  | receiveFails _ => simp
  | takes _ _ => simp
  | sends _ => simp
  | sendFails _ => simp [State.fail]
  | handles hmove =>
    cases hmove with
    | looksUp d _ =>
      unfold lookup
      split <;> simp
    | forwards info d _ =>
      simp only [forward]
      split <;> simp
    | creates d _ => exact create_ne_panicked d s
    | inserts _ _ _ => simp [insert]
    | spawns _ _ => simp [spawn]

/-- **Nothing panics**: in every reachable state the main loop has not panicked,
and neither has any task. -/
theorem never_panics {closing early : Q → Prop} (close : CloseLaw p.quiche.connection closing)
    (flight : FirstFlightLaw p.quiche early) {quicConfig : C} {is : List Input}
    {os : List Output} (hr : run (step p) (State.init quicConfig) is = some (s, os)) :
    s.pc ≠ .returned .panicked ∧
    ∀ id task c, s.tasks id = some task → task.session = .quic c →
      c.pc ≠ .returned (.error .panicked) := by
  refine ⟨?_, fun id task c ht hc => ?_⟩
  · refine @run_induct _ _ _ _ (fun _ s => s.pc ≠ .returned .panicked) _ _ _ _ ?_ ?_ hr
    · simp [State.init]
    · intro os s i s' o hpc hstep
      rcases step_turn hstep with ⟨hturn, -⟩ | hmain
      · rw [hturn.taskMove.pc]
        exact hpc
      · exact (mainStep_turn hmain).ne_panicked hpc
  · obtain ⟨log, hlog⟩ := run_watched (handlerWatch p id) hr
    have halone := (handler_run hlog ht).2
    rw [Task.handler, hc] at halone
    obtain ⟨c₀, js, qs, hopened, -, -, hrun⟩ := quic_ranAlone halone
    obtain ⟨_, _, _, _, _, conn, buf, ri, n, config, haccept, hrecv, rfl⟩ := hopened.quic_new
    have hinv : QuicMode.BrokerInv p.quiche.connection closing early c := by
      refine @run_induct _ _ _ _
        (fun _ c => QuicMode.BrokerInv p.quiche.connection closing early c) _ _ _ _ ?_ ?_ hrun
      · exact flight.first haccept hrecv
      · intro os c i c' o hinv hstep
        exact QuicMode.step_brokerInv close flight hinv hstep
    intro hpc
    unfold QuicMode.BrokerInv at hinv
    rw [hpc] at hinv
    exact hinv rfl

/-- A connection that counts its datagrams and has their bytes arrive on stream 0.
The second one completes the handshake. -/
private structure Ledger where
  datagrams : Nat
  closing : Bool
  taken : Bytes
  ready : Bytes

private def ledgerQuiche : Quiche Ledger where
  send q := (.error .done, q)
  recv q d _ :=
    if q.closing then (.ok d.length, q)
    else (.ok d.length, { q with datagrams := q.datagrams + 1, ready := q.ready ++ d })
  streamSend q _ b _ := (.ok b.length, q)
  streamRecv q id :=
    if id = 0 ∧ q.ready ≠ [] then
      (.ok (q.ready.take maxDatagramSize, false),
        { q with
          taken := q.taken ++ q.ready.take maxDatagramSize
          ready := q.ready.drop maxDatagramSize })
    else (.error .done, q)
  readable q := if q.ready = [] then [] else [0]
  close q _ _ _ := if q.closing then (.error .done, q) else (.ok (), { q with closing := true })
  sendAckEliciting q := (.ok (), q)
  onTimeout q := q
  isEstablished q := 2 ≤ q.datagrams
  isClosed _ := false
  peerCert _ := some []

private def ledgerClient : ScionAddr := ⟨1, .ip (.ipv4 10 0 0 1), 4433⟩

/-- Every datagram is taken for the Initial that follows a Retry to this client. -/
private def ledgerHeader : Header :=
  ⟨.initial, 1, List.replicate 20 7, [],
    some (mintToken (Hmac.ofTable []) ([] : Bytes) ⟨.initial, 1, [7], [], some []⟩
      ⟨.ipv4 10 0 0 1, 4433⟩)⟩

private def ledgerProxy : Env Bytes Unit Ledger where
  hmac := Hmac.ofTable []
  quiche :=
    { headerFromSlice _ _ := .ok ledgerHeader
      versionIsSupported _ := true
      negotiateVersion _ _ := .ok []
      retry _ _ _ _ _ := .ok []
      accept _ _ _ _ _ := (.ok ⟨0, false, [], []⟩, ())
      connection := ledgerQuiche }
  mode := .quicEndpoint
  mqttBrokerAddress := ⟨.ipv4 127 0 0 1, 1883⟩
  tokenKey := []
  connIdSeed := []
  localScionAddr := ⟨57, .ip (.ipv4 10 0 7 5), 4433⟩
  localAddr := ⟨.ipv4 10 0 7 5, 4433⟩
  localAddr_eq := rfl

private theorem ledger_closeLaw : CloseLaw ledgerQuiche fun q => q.closing = true where
  closed := by
    intro q app err reason h
    by_cases hc : q.closing = true
    · simp [ledgerQuiche, hc] at h
    · simp [ledgerQuiche, hc]
  handshake q app err reason := by
    by_cases hc : q.closing = true
    · simp [ledgerQuiche, hc]
    · simp [ledgerQuiche, hc]
  close_again app err reason hc := by simp [ledgerQuiche, hc]
  recv_ok data ri hc := ⟨data.length, by simp [ledgerQuiche, hc]⟩
  call := by
    intro q q' hcall hc
    cases hcall with
    | recv data ri => simp [ledgerQuiche, hc]
    | streamRecv id =>
      by_cases hready : id = 0 ∧ q.ready ≠ []
      · simp [ledgerQuiche, hready, hc]
      · simp [ledgerQuiche, hready, hc]
    | _ => exact ⟨hc, rfl, rfl⟩
  streamSend _ _ _ hc := hc

private theorem ledger_firstFlightLaw :
    FirstFlightLaw ledgerProxy.quiche fun q => q.datagrams = 1 where
  first := by
    intro config config' scid odcid localAddr peer q data ri n haccept _
    obtain ⟨hq, -⟩ := Prod.mk.inj haccept
    rw [← Except.ok.inj hq]
    rfl
  send h := h
  handshake := by
    intro q h
    show decide (2 ≤ q.datagrams) = false
    simp [h]

/-- The client is registered, and the broker is `ok` or cannot be reached. -/
private def ledgerStart (ok : Bool) : List Input :=
  [.recvFrom [1, 2] ledgerClient, .step, .step, .step, .step, .task 0 (.quic .step),
    .task 0 (.quic (.brokerConnect ok))]

/-- The next datagram reaches the task and is processed. -/
private def ledgerDatagram : List Input :=
  [.recvFrom [3] ledgerClient, .step, .step,
    .task 0 (.quic (.udp (some ⟨ledgerClient, ledgerProxy.localScionAddr, [3]⟩) false))]

/-- The broker is missing, the client sends on, and neither the main loop nor the
handler panics. -/
theorem never_panics_sample :
    ∃ s os, ∃ c : QuicMode.Connection Ledger, run (step ledgerProxy) (State.init ())
        (ledgerStart false ++ ledgerDatagram) = some (s, os) ∧
      s.pc ≠ .returned .panicked ∧ c.tcpStream = false ∧
      c.pc ≠ .returned (.error .panicked) := by
  obtain ⟨hmain, htasks⟩ := @never_panics _ _ _ ledgerProxy _ _ _ ledger_closeLaw
    ledger_firstFlightLaw () (ledgerStart false ++ ledgerDatagram) _ rfl
  exact ⟨_, _, _, rfl, hmain, rfl, htasks 0 _ _ rfl rfl⟩

/-! ## The streams to the broker -/

/-- What a QUIC handler showed in a log of its moves. -/
def quicOutputs (log : List (SessionInput × List SessionOutput)) : List QuicMode.Output :=
  (log.flatMap Prod.snd).filterMap fun o => match o with
    | .quic o => some o
    | .udp _ => none

/-- A log of QUIC outputs is read back as it is. -/
theorem quicOutputs_eq {log : List (SessionInput × List SessionOutput)}
    {qs : List QuicMode.Output} (h : log.flatMap Prod.snd = qs.map .quic) :
    quicOutputs log = qs := by
  rw [quicOutputs, h, List.filterMap_map]
  exact List.filterMap_some

/-- **The streams to the broker are separate**: what task `id` has written to the
broker, in any run of the whole proxy, is a prefix of what arrived on stream 0 of
its own connection, and until the task ends all that was handed out of it but the
piece in hand. A piece is written only for an authenticated client. -/
theorem broker_streams_separate {received taken ready : Q → Bytes}
    (recv : StreamRecvLaw p.quiche.connection received taken ready)
    (auth : AuthLaw p.quiche.connection)
    (hnew : ∀ quicConfig scid odcid localAddr peer conn quicConfig',
      p.quiche.accept quicConfig scid odcid localAddr peer = (.ok conn, quicConfig') →
        taken conn = [])
    {quicConfig : C} {is : List Input} {id : Nat}
    {log : List (SessionInput × List SessionOutput)}
    (hr : run (watched (step p) (handlerWatch p id)) (State.init quicConfig) is = some (s, log))
    {task : Task Q} (ht : s.tasks id = some task) {c : QuicMode.Connection Q}
    (hc : task.session = .quic c) :
    QuicMode.brokerWritten (quicOutputs log) <+: received c.conn ∧
    (c.pc.ended = false →
      QuicMode.brokerWritten (quicOutputs log) ++ c.pc.unwritten = taken c.conn) ∧
    (∀ b ids, c.pc = .writeBroker b ids → p.quiche.connection.authenticated c.conn = true) := by
  have halone := (handler_run hr ht).2
  rw [Task.handler, hc] at halone
  obtain ⟨c₀, js, qs, hopened, -, hqs, hrun⟩ := quic_ranAlone halone
  obtain ⟨_, _, _, _, _, conn, buf, ri, n, config, haccept, -, rfl⟩ := hopened.quic_new
  have hempty : taken (p.quiche.connection.recv conn buf ri).2 = [] := by
    rw [recv.taken_recv]
    exact hnew _ _ _ _ _ _ _ haccept
  have hfaithful := QuicMode.run_faithful recv hempty hrun
  have hgated : QuicMode.Gated p.quiche.connection c := by
    refine @run_induct _ _ _ _ (fun _ c => QuicMode.Gated p.quiche.connection c) _ _ _ _ ?_ ?_ hrun
    · exact QuicMode.gated_of_plain rfl
    · intro os c i c' o hg hstep
      exact (QuicMode.step_gated auth hg hstep).1
  rw [quicOutputs_eq hqs]
  refine ⟨?_, hfaithful.relay.all, fun b ids hpc => ?_⟩
  · exact hfaithful.relay.out_isPrefix.trans
      ((List.prefix_append _ _).trans (recv.in_order c.conn))
  · unfold QuicMode.Gated at hgated
    rw [hpc] at hgated
    exact hgated

private theorem ledger_streamRecvLaw :
    StreamRecvLaw ledgerQuiche (fun q => q.taken ++ q.ready) Ledger.taken Ledger.ready where
  in_order q := List.prefix_rfl
  streamRecv q := by
    by_cases hready : q.ready = []
    · exact .inr ⟨.done, by simp [ledgerQuiche, hready], hready, by simp [ledgerQuiche, hready],
        by simp [ledgerQuiche, hready]⟩
    · exact .inl ⟨q.ready.take maxDatagramSize, false, by simp [ledgerQuiche, hready],
        by simp [ledgerQuiche, hready], by simp [ledgerQuiche, hready]⟩
  streamRecv_other q id hid := by simp [ledgerQuiche, hid]
  readable q hready := by simp [ledgerQuiche, hready]
  taken_recv q d ri := by
    by_cases hc : q.closing = true
    · simp [ledgerQuiche, hc]
    · simp [ledgerQuiche, hc]
  taken_send _ := rfl
  taken_streamSend _ _ _ _ := rfl
  taken_close q app err reason := by
    by_cases hc : q.closing = true
    · simp [ledgerQuiche, hc]
    · simp [ledgerQuiche, hc]
  taken_sendAckEliciting _ := rfl
  taken_onTimeout _ := rfl

private theorem ledger_authLaw : AuthLaw ledgerQuiche where
  isEstablished := by
    intro q q' hcall hq
    cases hcall with
    | recv data ri =>
      by_cases hc : q.closing = true
      · simpa [ledgerQuiche, hc] using hq
      · have hle : 2 ≤ q.datagrams := by simpa [ledgerQuiche] using hq
        simp only [ledgerQuiche, hc]
        exact decide_eq_true (Nat.le_succ_of_le hle)
    | streamRecv id =>
      by_cases hready : id = 0 ∧ q.ready ≠ []
      · simpa [ledgerQuiche, hready] using hq
      · simpa [ledgerQuiche, hready] using hq
    | _ => exact hq
  peerCert := by
    intro q q' hcall hq
    rfl

/-- What came with both datagrams is written at once. -/
private def ledgerWrites : List Input :=
  ledgerStart true ++ ledgerDatagram ++
    [.task 0 (.quic .step), .task 0 (.quic (.written 3 true)), .task 0 (.quic .step)]

/-- What the broker of the one connection gets is what its client has sent. -/
theorem broker_streams_separate_sample :
    ∃ s log task c, run (watched (step ledgerProxy) (handlerWatch ledgerProxy 0)) (State.init ())
        ledgerWrites = some (s, log) ∧
      s.tasks 0 = some task ∧ task.session = .quic c ∧
      QuicMode.brokerWritten (quicOutputs log) = [1, 2, 3] ∧
      QuicMode.brokerWritten (quicOutputs log) <+: c.conn.taken ++ c.conn.ready := by
  refine ⟨_, _, _, _, rfl, rfl, rfl, rfl, ?_⟩
  refine (@broker_streams_separate _ _ _ ledgerProxy _ _ _ _ ledger_streamRecvLaw ledger_authLaw ?_
    () ledgerWrites 0 _ rfl _ rfl _ rfl).1
  intro quicConfig scid odcid localAddr peer conn quicConfig' haccept
  rw [← Except.ok.inj (Prod.mk.inj haccept).1]

end MqttScion.Proxy
