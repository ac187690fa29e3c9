import MqttScion.Lib.Run
import MqttScion.Net.Quic

/-!
# The QuicEndpoint connection handler

`src/proxy/connection_mode_quic.rs`: one task per QUIC connection, between the
QUIC side (`conn`), the broker's TCP stream, the channel of datagrams from the
main loop (`rx_udp_to_quic`) and the channel back to it (`tx_quic_to_udp`).

`step` is `handle_client_connection` cut at its loop heads and awaits. The
program counter says where the task is; an `Input` is what it waits for there:
the branch `select!` takes with its result, the outcome of an awaited call, or
`step` where it simply runs on. A datagram that `process_udp_packet` handles is
cut once more at every `write_all`, since the streams are drained in a loop
around that await.

Every `?` and every `unwrap` on the way is an exit with its own `Fault`; a
`break` of the main loop returns `Ok(())`.
-/

namespace MqttScion.Proxy.QuicMode

open MqttScion.Net MqttScion.Lib

structure Config where
  localIsdAs : IsdAsn
  remoteIsdAs : IsdAsn
  mqttBrokerAddress : SocketAddr
  deriving DecidableEq

/-- Why the handler ends with an error. -/
inductive Fault
  | channelClosed
  | close (e : QuicheError)
  | sendAckEliciting (e : QuicheError)
  | streamSend (e : QuicheError)
  | recv (e : QuicheError)
  | invalidSrcAddress
  | invalidDstAddress
  | brokerWrite
  | panicked
  deriving DecidableEq

/-- The two `conn.send` loops: before the broker is connected (l. 50) and at
the end of every iteration (l. 191). -/
inductive SendLoop
  | initial
  | pending
  deriving DecidableEq

/-- Where the task is. -/
inductive Pc
  | send (l : SendLoop)
  | queue (l : SendLoop) (packet : UdpPacket)
  | connectBroker
  | select
  | readStreams (ids : List Nat)
  | writeBroker (b : Bytes) (ids : List Nat)
  | checkClosed
  | returned (r : Except Fault Unit)

/-- The task's state; `tcpStream` is whether the broker stream is `Some`. -/
structure Connection (Q : Type) where
  config : Config
  conn : Q
  tcpStream : Bool
  pc : Pc

/-- What the ready broker stream turns out to be: `readable()` failed, or what
`try_read` then answered. -/
inductive TcpEvent
  | eof
  | data (b : Bytes)
  | wouldBlock
  | readError
  | readyError
  deriving DecidableEq

inductive Input
  | step
  | queued (rxAlive : Bool)
  | brokerConnect (ok : Bool)
  | timeout
  | keepalive
  | udp (packet : Option UdpPacket) (certOverdue : Bool)
  | tcp (e : TcpEvent)
  | cancelled
  | written (n : Nat) (ok : Bool)
  deriving DecidableEq

/-- What the outside sees: datagrams handed to the main loop, bytes taken from
and written to the broker, a close the proxy asked for. -/
inductive Output
  | queued (packet : UdpPacket)
  | brokerRead (b : Bytes)
  | brokerWrite (b : Bytes)
  | closed (code : Nat)
  deriving DecidableEq

variable {Q : Type}

/-- `Connection::new`. -/
def Connection.new (config : Config) (conn : Q) : Connection Q :=
  ⟨config, conn, false, .send .initial⟩

/-- One round of `loop { match conn.send(..) }`. -/
def sendRound (qc : Quiche Q) (l : SendLoop) (s : Connection Q) : Connection Q :=
  let r := qc.send s.conn
  match r.1 with
  | .ok (data, info) =>
    let packet : UdpPacket :=
      { data := data
        src := ScionAddr.fromStd s.config.localIsdAs info.src
        dst := ScionAddr.fromStd s.config.remoteIsdAs info.dst }
    { s with conn := r.2, pc := .queue l packet }
  | .error _ =>
    -- `Done` and any other error both leave the loop
    { s with conn := r.2, pc := match l with
      | .initial => .connectBroker
      | .pending => .select }

/-- `conn.close(true, code, reason)?`, going on at `next`. -/
def closeConn (qc : Quiche Q) (code : Nat) (reason : String) (next : Pc) (s : Connection Q) :
    Connection Q × List Output :=
  let r := qc.close s.conn true code reason
  match r.1 with
  | .ok _ => ({ s with conn := r.2, pc := next }, [.closed code])
  | .error e => ({ s with conn := r.2, pc := .returned (.error (.close e)) }, [])

/-- `TcpStream::connect(..).await` and what follows it up to the loop. -/
def brokerConnect (qc : Quiche Q) (ok : Bool) (s : Connection Q) : Connection Q × List Output :=
  if ok then ({ s with tcpStream := true, pc := .select }, [])
  else closeConn qc 0x102 "failed to connect to MQTT broker" .select s

def keepalive (qc : Quiche Q) (s : Connection Q) : Connection Q :=
  if qc.isEstablished s.conn then
    let r := qc.sendAckEliciting s.conn
    match r.1 with
    | .ok _ => { s with conn := r.2, pc := .checkClosed }
    | .error e => { s with conn := r.2, pc := .returned (.error (.sendAckEliciting e)) }
  else { s with pc := .checkClosed }

/-- `process_udp_packet`, up to the loop over the readable streams. -/
def processUdpPacket (qc : Quiche Q) (packet : UdpPacket) (certOverdue : Bool)
    (s : Connection Q) : Connection Q × List Output :=
  match packet.src.localAddress with
  | none => ({ s with pc := .returned (.error .invalidSrcAddress) }, [])
  | some src =>
    match packet.dst.localAddress with
    | none => ({ s with pc := .returned (.error .invalidDstAddress) }, [])
    | some dst =>
      let r := qc.recv s.conn packet.data ⟨src, dst⟩
      match r.1 with
      | .error e => ({ s with conn := r.2, pc := .returned (.error (.recv e)) }, [])
      | .ok _ =>
        if (qc.peerCert r.2).isNone then
          if certOverdue then
            closeConn qc 0x100 "no client certificate" .checkClosed { s with conn := r.2 }
          else ({ s with conn := r.2, pc := .checkClosed }, [])
        else if qc.isEstablished r.2 then
          ({ s with conn := r.2, pc := .readStreams (qc.readable r.2) }, [])
        else ({ s with conn := r.2, pc := .checkClosed }, [])

/-- One `stream_recv` of the loops over readable streams and their chunks. -/
def readStream (qc : Quiche Q) (id : Nat) (ids : List Nat) (s : Connection Q) : Connection Q :=
  let r := qc.streamRecv s.conn id
  match r.1 with
  | .ok (b, _) =>
    if id = 0 then
      if s.tcpStream then { s with conn := r.2, pc := .writeBroker b (id :: ids) }
      else { s with conn := r.2, pc := .returned (.error .panicked) }
    else { s with conn := r.2, pc := .readStreams (id :: ids) }
  | .error _ => { s with conn := r.2, pc := .readStreams ids }

/-- `write_all(..).await?` returns; a failed one has written some prefix. -/
def written (n : Nat) (ok : Bool) (b : Bytes) (ids : List Nat) (s : Connection Q) :
    Connection Q × List Output :=
  if ok then ({ s with pc := .readStreams ids }, [.brokerWrite b])
  else ({ s with pc := .returned (.error .brokerWrite) }, [.brokerWrite (b.take n)])

/-- The branch of the broker stream (l. 131 to 164). -/
def onTcp (qc : Quiche Q) (e : TcpEvent) (s : Connection Q) : Connection Q × List Output :=
  match e with
  | .eof => closeConn qc 0x101 "TCP stream to broker closed by peer" .checkClosed s
  | .data b =>
    let r := qc.streamSend s.conn 0 b false
    match r.1 with
    | .ok _ => ({ s with conn := r.2, pc := .checkClosed }, [.brokerRead b])
    | .error e => ({ s with conn := r.2, pc := .returned (.error (.streamSend e)) },
        [.brokerRead b])
  -- `continue`: neither the closed check nor the send loop runs
  | .wouldBlock => ({ s with pc := .select }, [])
  | .readError => closeConn qc 0x101 "Failed to read from TCP stream to broker" .checkClosed s
  | .readyError => closeConn qc 0x101 "TCP stream to broker error" .checkClosed s

/-- What `try_read` into a buffer of `MAX_DATAGRAM_SIZE` can return. -/
def TcpEvent.valid : TcpEvent → Bool
  | .data b => !b.isEmpty && b.length ≤ maxDatagramSize
  | _ => true

/-- `handle_client_connection`, one move at a time. -/
def step (qc : Quiche Q) : Machine (Connection Q) Input Output := fun s i =>
  match s.pc, i with
  | .send l, .step => some (sendRound qc l s, [])
  | .queue l packet, .queued rxAlive =>
    if rxAlive then some ({ s with pc := .send l }, [.queued packet])
    else some ({ s with pc := .returned (.error .channelClosed) }, [])
  | .connectBroker, .brokerConnect ok => some (brokerConnect qc ok s)
  | .select, .timeout => some ({ s with conn := qc.onTimeout s.conn, pc := .checkClosed }, [])
  | .select, .keepalive => some (keepalive qc s, [])
  | .select, .udp none _ => some ({ s with pc := .returned (.ok ()) }, [])
  | .select, .udp (some packet) certOverdue => some (processUdpPacket qc packet certOverdue s)
  | .select, .tcp e => if s.tcpStream && e.valid then some (onTcp qc e s) else none
  | .select, .cancelled => some ({ s with pc := .returned (.ok ()) }, [])
  | .readStreams [], .step => some ({ s with pc := .checkClosed }, [])
  | .readStreams (id :: ids), .step => some (readStream qc id ids s, [])
  | .writeBroker b ids, .written n ok => some (written n ok b ids s)
  | .checkClosed, .step =>
    if qc.isClosed s.conn then some ({ s with pc := .returned (.ok ()) }, [])
    else some ({ s with pc := .send .pending }, [])
  | _, _ => none

/-- A handler that has returned takes no more steps. -/
theorem step_running {qc : Quiche Q} {s s' : Connection Q} {i : Input} {o : List Output}
    (h : step qc s i = some (s', o)) (r : Except Fault Unit) : s.pc ≠ .returned r := by
  intro hpc
  unfold step at h
  rw [hpc] at h
  cases i <;> cases h

/-! ## The ISD-AS of what is queued -/

/-- The packet goes between the two ISD-ASes of the configuration. -/
def Config.Routes (config : Config) (packet : UdpPacket) : Prop :=
  packet.src.isdAsn = config.localIsdAs ∧ packet.dst.isdAsn = config.remoteIsdAs

/-- Only the send loops queue a packet; no step changes the configuration. -/
structure Routed (config : Config) (s : Connection Q) : Prop where
  config_eq : s.config = config
  queue : ∀ l packet, s.pc = .queue l packet → config.Routes packet

variable {qc : Quiche Q} {config : Config} {s : Connection Q}

/-- Moving on to anything but a queueing keeps the state routed. -/
theorem Routed.goto (h : Routed config s) (conn : Q) (tcpStream : Bool) {pc : Pc}
    (hpc : ∀ l packet, pc ≠ .queue l packet) :
    Routed config { s with conn := conn, tcpStream := tcpStream, pc := pc } :=
  ⟨h.config_eq, fun l packet heq => absurd heq (hpc l packet)⟩

/-- The send loop queues what it takes out for the client of the configuration. -/
theorem sendRound_routed (h : Routed config s) (l : SendLoop) :
    Routed config (sendRound qc l s) := by
  simp only [sendRound]
  split
  · refine ⟨h.config_eq, fun l' packet heq => ?_⟩
    simp only [Pc.queue.injEq] at heq
    rw [← heq.2, ← h.config_eq]
    exact ⟨rfl, rfl⟩
  · refine h.goto _ s.tcpStream fun l' packet => ?_
    cases l <;> simp

/-- A close queues nothing. -/
theorem closeConn_routed (h : Routed config s) (code : Nat) (reason : String) {next : Pc}
    (hnext : ∀ l packet, next ≠ .queue l packet) :
    Routed config (closeConn qc code reason next s).1 := by
  simp only [closeConn]
  split
  · exact h.goto _ s.tcpStream hnext
  · exact h.goto _ s.tcpStream (by simp)

/-- The branch of the broker stream queues nothing. -/
theorem onTcp_routed (h : Routed config s) (e : TcpEvent) : Routed config (onTcp qc e s).1 := by
  cases e with
  | data b =>
    simp only [onTcp]
    split
    · exact h.goto _ s.tcpStream (by simp)
    · exact h.goto _ s.tcpStream (by simp)
  | eof => exact closeConn_routed h _ _ (by simp)
  | wouldBlock => exact h.goto s.conn s.tcpStream (by simp)
  | readError => exact closeConn_routed h _ _ (by simp)
  | readyError => exact closeConn_routed h _ _ (by simp)

/-- `process_udp_packet` leaves the configuration as it is, whoever the packet comes
from. -/
theorem processUdpPacket_routed (h : Routed config s) (packet : UdpPacket) (certOverdue : Bool) :
    Routed config (processUdpPacket qc packet certOverdue s).1 := by
  have hclosed : ∀ l packet, Pc.checkClosed ≠ .queue l packet := by simp
  unfold processUdpPacket
  split
  · exact h.goto s.conn s.tcpStream (by simp)
  · split
    · exact h.goto s.conn s.tcpStream (by simp)
    · simp only
      split
      · exact h.goto _ s.tcpStream (by simp)
      · split
        · split
          · refine closeConn_routed ?_ _ _ hclosed
            exact ⟨h.config_eq, h.queue⟩
          · exact h.goto _ s.tcpStream (by simp)
        · split
          · exact h.goto _ s.tcpStream (by simp)
          · exact h.goto _ s.tcpStream (by simp)

/-- A read of a stream queues nothing. -/
theorem readStream_routed (h : Routed config s) (id : Nat) (ids : List Nat) :
    Routed config (readStream qc id ids s) := by
  simp only [readStream]
  split
  · split
    · split
      · exact h.goto _ s.tcpStream (by simp)
      · exact h.goto _ s.tcpStream (by simp)
    · exact h.goto _ s.tcpStream (by simp)
  · exact h.goto _ s.tcpStream (by simp)

/-- The keepalive queues nothing. -/
theorem keepalive_routed (h : Routed config s) : Routed config (keepalive qc s) := by
  simp only [keepalive]
  split
  · split
    · exact h.goto _ s.tcpStream (by simp)
    · exact h.goto _ s.tcpStream (by simp)
  · exact h.goto s.conn s.tcpStream (by simp)

/-- No step changes the address that the handler's packets go to. -/
theorem step_routed {s' : Connection Q} {i : Input} {o : List Output} (h : Routed config s)
    (hstep : step qc s i = some (s', o)) : Routed config s' := by
  have hgoto : ∀ conn {pc : Pc} {o' : List Output}, (∀ l packet, pc ≠ .queue l packet) →
      some ({ s with conn := conn, pc := pc }, o') = some (s', o) → Routed config s' := by
    intro conn pc o' hpc heq
    exact of_result_state heq (h.goto conn s.tcpStream hpc)
  unfold step at hstep
  split at hstep
  · exact of_result_state hstep (sendRound_routed h _)
  · split at hstep
    · exact hgoto s.conn (by simp) hstep
    · exact hgoto s.conn (by simp) hstep
  · refine of_result_state hstep ?_
    unfold brokerConnect
    split
    · exact h.goto s.conn true (by simp)
    · exact closeConn_routed h _ _ (by simp)
  · exact hgoto _ (by simp) hstep
  · exact of_result_state hstep (keepalive_routed h)
  · exact hgoto s.conn (by simp) hstep
  · exact of_result_state hstep (processUdpPacket_routed h _ _)
  · split at hstep
    · exact of_result_state hstep (onTcp_routed h _)
    · cases hstep
  · exact hgoto s.conn (by simp) hstep
  · exact hgoto s.conn (by simp) hstep
  · exact of_result_state hstep (readStream_routed h _ _)
  · refine of_result_state hstep ?_
    unfold written
    split
    · exact h.goto s.conn s.tcpStream (by simp)
    · exact h.goto s.conn s.tcpStream (by simp)
  · split at hstep
    · exact hgoto s.conn (by simp) hstep
    · exact hgoto s.conn (by simp) hstep
  · cases hstep

/-- **In every run, every reply the handler is about to queue** is addressed to
the ISD-AS it was configured with. -/
theorem run_routed {conn : Q} {is : List Input} {os : List Output}
    (hr : run (step qc) (Connection.new config conn) is = some (s, os)) : Routed config s := by
  refine @run_induct _ _ _ _ (fun _ s => Routed config s) _ _ _ _ ?_ ?_ hr
  · exact ⟨rfl, fun l packet heq => by simp [Connection.new] at heq⟩
  · intro os s i s' o h hstep
    exact step_routed h hstep

end MqttScion.Proxy.QuicMode
