import MqttScion.Proxy.QuicExits
import MqttScion.Proxy.QuicMove

/-!
# The end of a connection of the QUIC proxy

The handler closes the QUIC connection at five places and goes on around its
loop until `is_closed()`. What made it close may still be there: a broker
stream at its end stays readable, an expired certificate timer stays expired.
A second `close` is refused, and every call of `close` passes the refusal on.

> `close_completes_iff`: in every run, a handler that has closed its connection
> does not return an error exactly when nothing of the kind meets it again.

The broker stream is missing only if it could not be opened, and then the
connection was closed before its handshake was complete.

> `broker_stream_present`: in every run the broker stream is there wherever the
> handler unwraps it.
-/

namespace MqttScion.Proxy.QuicMode

open MqttScion.Net MqttScion.Lib

variable {Q : Type} {qc : Quiche Q} {closing : Q → Prop} {s s' : Connection Q} {i : Input}
  {o : List Output}

/-- The main loop of the handler has been entered. -/
def Pc.inLoop : Pc → Bool
  | .send .initial | .queue .initial _ | .connectBroker => false
  | _ => true

/-- The proxy has closed the connection. -/
def ClosedBy (os : List Output) : Prop := ∃ code, .closed code ∈ os

/-- A close in a log is in one of its parts. -/
theorem closedBy_append {os ps : List Output} :
    ClosedBy (os ++ ps) ↔ ClosedBy os ∨ ClosedBy ps := by
  unfold ClosedBy
  simp only [List.mem_append, exists_or]

/-! ## What a step does to a connection that is being closed -/

/-- A connection that is being closed stays so. -/
theorem Move.staysClosing (law : CloseLaw qc closing) (h : Move qc s i s' o) (hc : closing s.conn) :
    closing s'.conn := by
  have hreceived : ∀ {q}, Received qc i s.conn q → closing q := by
    intro q hq
    cases hq with
    | nothing => exact hc
    | recv _ _ => exact (law.call (.recv _ _) hc).1
  cases h with
  | calm _ _ hcall _ _ =>
    cases hcall with
    | received hq => exact hreceived hq
    | closed app err reason hq =>
      show closing (qc.close _ app err reason).2
      rw [law.close_again app err reason (hreceived hq)]
      exact hreceived hq
    | send => exact (law.call .send hc).1
    | sendAckEliciting => exact (law.call .sendAckEliciting hc).1
    | onTimeout => exact (law.call .onTimeout hc).1
  | send _ _ => exact (law.call .send hc).1
  | queued _ => exact hc
  | refused _ => exact hc
  | read _ _ _ _ => exact (law.call (.recv _ _) hc).1
  | drained _ => exact hc
  | chunk _ _ _ => exact (law.call (.streamRecv 0) hc).1
  | panicked _ _ _ => exact (law.call (.streamRecv 0) hc).1
  | skip _ _ _ => exact (law.call (.streamRecv _) hc).1
  | done _ _ => exact (law.call (.streamRecv _) hc).1
  | wrote _ => exact hc
  | failed _ => exact hc
  | offered _ _ _ => exact law.streamSend 0 _ false hc

/-- What a step from `s` leaves: the loop is not left for what stands before it,
and a connection it closed is being closed. -/
structure Kept (closing : Q → Prop) (s s' : Connection Q) (o : List Output) : Prop where
  inLoop : s.pc.inLoop = true → s'.pc.inLoop = true
  closed : ClosedBy o → closing s'.conn ∧ s'.pc.inLoop = true ∧ ¬ s'.pc.Failed

/-- A step that closes nothing and goes on in the loop. -/
theorem Kept.goto (hpc : s'.pc.inLoop = true) : Kept closing s s' [] :=
  ⟨fun _ => hpc, fun ⟨_, hmem⟩ => nomatch hmem⟩

/-- A close that succeeds leaves the connection being closed, with the handler in
its loop. -/
theorem closeConn_kept (law : CloseLaw qc closing) {t : Connection Q} {code : Nat}
    {reason : String} {next : Pc} (hnext : next = .select ∨ next = .checkClosed) :
    Kept closing s (closeConn qc code reason next t).1 (closeConn qc code reason next t).2 := by
  have hloop : next.inLoop = true := by rcases hnext with rfl | rfl <;> rfl
  unfold closeConn
  simp only
  split
  · next hok =>
    refine ⟨fun _ => hloop, fun _ => ⟨law.closed hok, hloop, ?_⟩⟩
    rcases hnext with rfl | rfl <;> simp [Pc.Failed]
  · exact .goto rfl

/-- `process_udp_packet` closes at most for a missing certificate. -/
theorem processUdpPacket_kept (law : CloseLaw qc closing) (packet : UdpPacket)
    (certOverdue : Bool) :
    Kept closing s (processUdpPacket qc packet certOverdue s).1
      (processUdpPacket qc packet certOverdue s).2 := by
  unfold processUdpPacket
  split
  · exact .goto rfl
  · split
    · exact .goto rfl
    · simp only
      split
      · exact .goto rfl
      · split
        · split
          · exact closeConn_kept law (.inr rfl)
          · exact .goto rfl
        · split
          · exact .goto rfl
          · exact .goto rfl

/-- The branch of the broker stream closes where that stream ends. -/
theorem onTcp_kept (law : CloseLaw qc closing) (e : TcpEvent) :
    Kept closing s (onTcp qc e s).1 (onTcp qc e s).2 := by
  cases e with
  | data b =>
    have hnone : ¬ ClosedBy [.brokerRead b] := by simp [ClosedBy]
    unfold onTcp
    simp only
    split
    · exact ⟨fun _ => rfl, fun h => absurd h hnone⟩
    · exact ⟨fun _ => rfl, fun h => absurd h hnone⟩
  | eof => exact closeConn_kept law (.inr rfl)
  | wouldBlock => exact .goto rfl
  | readError => exact closeConn_kept law (.inr rfl)
  | readyError => exact closeConn_kept law (.inr rfl)

/-- The loop before the broker's `connect` is not in question. -/
theorem sendRound_kept {l : SendLoop} (hpc : s.pc = .send l) :
    Kept closing s (sendRound qc l s) [] := by
  refine ⟨fun hloop => ?_, fun ⟨_, hmem⟩ => nomatch hmem⟩
  rw [hpc] at hloop
  unfold sendRound
  simp only
  cases l with
  | initial => cases hloop
  | pending => split <;> rfl

/-- The keepalive closes nothing. -/
theorem keepalive_kept : Kept closing s (keepalive qc s) [] := by
  refine .goto ?_
  unfold keepalive
  simp only
  split
  · split <;> rfl
  · rfl

/-- A read of a stream closes nothing. -/
theorem readStream_kept (id : Nat) (ids : List Nat) :
    Kept closing s (readStream qc id ids s) [] := by
  refine .goto ?_
  unfold readStream
  simp only
  split
  · split
    · split <;> rfl
    · rfl
  · rfl

/-- No step leaves the loop for what stands before it, and what a step closed is
being closed. -/
theorem step_kept (law : CloseLaw qc closing) (h : step qc s i = some (s', o)) :
    Kept closing s s' o := by
  unfold step at h
  split at h
  · next l hpc => exact of_result h (sendRound_kept hpc)
  · next l packet rxAlive hpc =>
    split at h
    · refine of_result h ⟨fun hloop => ?_, fun ⟨_, hmem⟩ => by simp at hmem⟩
      rw [hpc] at hloop
      cases l with
      | initial => cases hloop
      | pending => rfl
    · exact of_result h (.goto rfl)
  · refine of_result h ?_
    unfold brokerConnect
    split
    · exact .goto rfl
    · exact closeConn_kept law (.inl rfl)
  · exact of_result h (.goto rfl)
  · exact of_result h keepalive_kept
  · exact of_result h (.goto rfl)
  · exact of_result h (processUdpPacket_kept law _ _)
  · split at h
    · exact of_result h (onTcp_kept law _)
    · cases h
  · exact of_result h (.goto rfl)
  · exact of_result h (.goto rfl)
  · exact of_result h (readStream_kept _ _)
  · refine of_result h ?_
    unfold written
    split
    · exact ⟨fun _ => rfl, fun ⟨_, hmem⟩ => by simp at hmem⟩
    · exact ⟨fun _ => rfl, fun ⟨_, hmem⟩ => by simp at hmem⟩
  · split at h
    · exact of_result h (.goto rfl)
    · exact of_result h (.goto rfl)
  · cases h

/-! ## A close that runs to completion -/

/-- What ends the handler with an error although the connection is being closed:
the broker's stream is at its end or fails, what it still delivers is refused by
`stream_send`, a datagram is processed without a certificate after the timer has
expired or has no IP address, or an awaited call fails. -/
def Interrupts (qc : Quiche Q) (s : Connection Q) (i : Input) : Prop :=
  match s.pc, i with
  | .select, .tcp .eof | .select, .tcp .readError | .select, .tcp .readyError => True
  | .select, .tcp (.data b) => ∃ e, (qc.streamSend s.conn 0 b false).1 = .error e
  | .select, .udp (some packet) certOverdue =>
    recvInfo packet = none ∨ (qc.peerCert s.conn).isNone = true ∧ certOverdue = true
  | .select, .keepalive =>
    qc.isEstablished s.conn = true ∧ ∃ e, (qc.sendAckEliciting s.conn).1 = .error e
  | .queue _ _, .queued rxAlive => rxAlive = false
  | .readStreams (id :: _), .step =>
    id = 0 ∧ s.tcpStream = false ∧ ∃ r, (qc.streamRecv s.conn 0).1 = .ok r
  | .writeBroker _ _, .written _ ok => ok = false
  | _, _ => False

/-- A second `close` is refused. -/
theorem closeFails_of_closing (law : CloseLaw qc closing) {q : Q} (hc : closing q) (code : Nat)
    (reason : String) : CloseFails qc q code reason :=
  ⟨.done, by rw [law.close_again true code reason hc]⟩

/-- On a connection that is being closed, a datagram fails for its addresses or the
overdue certificate alone: `recv` takes it, and the `close` is refused. -/
theorem datagramFails_iff_of_closing (law : CloseLaw qc closing) (hc : closing s.conn)
    {packet : UdpPacket} {certOverdue : Bool} :
    DatagramFails qc s packet certOverdue ↔
      recvInfo packet = none ∨ (qc.peerCert s.conn).isNone = true ∧ certOverdue = true := by
  unfold DatagramFails recvInfo
  cases packet.src.localAddress with
  | none => simp
  | some src =>
    cases packet.dst.localAddress with
    | none => simp
    | some dst =>
      simp only
      obtain ⟨n, hok⟩ := law.recv_ok packet.data ⟨src, dst⟩ hc
      obtain ⟨hc', -, hcert⟩ := law.call (.recv packet.data ⟨src, dst⟩) hc
      have hpair : qc.recv s.conn packet.data ⟨src, dst⟩ =
          (.ok n, (qc.recv s.conn packet.data ⟨src, dst⟩).2) := Prod.ext hok rfl
      rw [hpair]
      simp only [hcert]
      have hfails := closeFails_of_closing law hc' 0x100 "no client certificate"
      simp [hfails]

/-- In the loop, with the connection being closed, these are the error exits. -/
theorem fails_iff_of_closing (law : CloseLaw qc closing) (hc : closing s.conn)
    (hloop : s.pc.inLoop = true) (i : Input) : Fails qc s i ↔ Interrupts qc s i := by
  have hclose := closeFails_of_closing law hc
  unfold Fails Interrupts
  cases hpc : s.pc with
  | connectBroker =>
    rw [hpc] at hloop
    cases hloop
  | select =>
    cases i with
    | udp packet certOverdue =>
      cases packet with
      | none => exact Iff.rfl
      | some packet => exact datagramFails_iff_of_closing law hc
    | tcp e =>
      cases e with
      | eof => exact iff_of_true (hclose _ _) trivial
      | data b => exact Iff.rfl
      | wouldBlock => exact Iff.rfl
      | readError => exact iff_of_true (hclose _ _) trivial
      | readyError => exact iff_of_true (hclose _ _) trivial
    | _ => exact Iff.rfl
  | readStreams ids => cases ids <;> cases i <;> exact Iff.rfl
  | _ => cases i <;> exact Iff.rfl

/-- A handler that has closed its connection has not returned an error. -/
def Completes (os : List Output) (s : Connection Q) : Prop := ClosedBy os → ¬ s.pc.Failed

/-- Once the proxy has closed the connection, nothing interrupts the handler. -/
def LeftToClose (qc : Quiche Q) (os : List Output) (s : Connection Q) (i : Input) : Prop :=
  ClosedBy os → ¬ Interrupts qc s i

/-- After a close a step ends the handler with an error exactly when it is
interrupted there. -/
theorem step_completes_iff (law : CloseLaw qc closing) {os : List Output}
    (hinv : ClosedBy os → closing s.conn ∧ s.pc.inLoop = true)
    (h : step qc s i = some (s', o)) :
    Completes (os ++ o) s' ↔ Completes os s ∧ LeftToClose qc os s i := by
  have hrunning : Completes os s := by
    rintro - ⟨f, hf⟩
    exact step_running h (.error f) hf
  rw [and_iff_right hrunning]
  by_cases hclosed : ClosedBy os
  · obtain ⟨hc, hloop⟩ := hinv hclosed
    unfold Completes LeftToClose
    rw [step_failed_iff h, fails_iff_of_closing law hc hloop]
    exact ⟨fun hP _ => hP (closedBy_append.mpr (.inl hclosed)), fun hC _ => hC hclosed⟩
  · -- the step that closes the connection is no error
    refine iff_of_true (fun hP => ?_) fun hos => absurd hos hclosed
    exact ((step_kept law h).closed ((closedBy_append.mp hP).resolve_left hclosed)).2.2

/-- **When a close runs to completion**: in every run, once the proxy has closed
the connection the handler ends at a `break` of its loop and not with an error,
if and only if nothing that `Interrupts` lists happened in between. -/
theorem close_completes_iff (law : CloseLaw qc closing) {config : Config} {conn : Q}
    {is : List Input} {os : List Output}
    (hr : run (step qc) (Connection.new config conn) is = some (s, os)) :
    Completes os s ↔ AllSteps (step qc) (LeftToClose qc) [] (Connection.new config conn) is := by
  have hnil : ¬ ClosedBy [] := fun ⟨_, hmem⟩ => nomatch hmem
  refine @run_iff _ _ _ (step qc) (LeftToClose qc)
    (fun os s => ClosedBy os → closing s.conn ∧ s.pc.inLoop = true) Completes is os _ s
    (fun h => absurd h hnil) (fun h => absurd h hnil) ?_ ?_ hr
  · intro os s i s' o hinv h hclosed
    have hkept := step_kept law h
    rcases closedBy_append.mp hclosed with hbefore | hnow
    · exact ⟨(step_move h).staysClosing law (hinv hbefore).1, hkept.inLoop (hinv hbefore).2⟩
    · exact ⟨(hkept.closed hnow).1, (hkept.closed hnow).2.1⟩
  · intro os s i s' o hinv h
    exact step_completes_iff law hinv h

/-- A connection by its life: the datagrams it has processed, whether it is
being closed, and whether it is done with that. -/
private structure Life where
  datagrams : Nat
  closing : Bool
  closed : Bool
  deriving DecidableEq

/-- The second datagram completes the handshake and brings the certificate. The
timer ends the closing. -/
private def lifeQuiche : Quiche Life where
  send q := (.error .done, q)
  recv q d _ :=
    if q.closing then (.ok d.length, q)
    else (.ok d.length, { q with datagrams := q.datagrams + 1 })
  streamSend q _ b _ := (.ok b.length, q)
  streamRecv q _ := (.error .done, q)
  readable q := if q.closing then [] else [0]
  close q _ _ _ := if q.closing then (.error .done, q) else (.ok (), { q with closing := true })
  sendAckEliciting q := (.ok (), q)
  onTimeout q := { q with closed := q.closing }
  isEstablished q := 2 ≤ q.datagrams
  isClosed q := q.closed
  peerCert q := if 2 ≤ q.datagrams then some [7] else none

/-- Its `close` starts a close once, and its timeouts end it. -/
private theorem lifeQuiche_law : CloseLaw lifeQuiche fun q => q.closing = true where
  closed := by
    intro q app err reason h
    by_cases hc : q.closing = true
    · simp [lifeQuiche, hc] at h
    · simp [lifeQuiche, hc]
  handshake q app err reason := by
    simp only [lifeQuiche]
    split <;> rfl
  close_again app err reason hc := by simp [lifeQuiche, hc]
  recv_ok data ri hc := ⟨data.length, by simp [lifeQuiche, hc]⟩
  call := by
    intro q q' hcall hc
    cases hcall with
    | recv data ri => simp [lifeQuiche, hc]
    | _ => exact ⟨hc, rfl, rfl⟩
  streamSend _ _ _ hc := hc

private def lifeConfig : Config := ⟨1, 2, ⟨.ipv4 127 0 0 1, 1883⟩⟩

/-- The broker is connected and its stream ends. -/
private def brokerEnds : List Input := [.step, .brokerConnect true, .tcp .eof, .step, .step]

/-- The broker ends its stream, the proxy closes the connection, and the handler
ends without an error. -/
theorem close_completes_iff_sample :
    ∃ s os, run (step lifeQuiche) (Connection.new lifeConfig ⟨1, false, false⟩)
        (brokerEnds ++ [.timeout, .step]) = some (s, os) ∧
      s.pc = .returned (.ok ()) ∧ .closed 0x101 ∈ os ∧
      (Completes os s ↔ AllSteps (step lifeQuiche) (LeftToClose lifeQuiche) []
        (Connection.new lifeConfig ⟨1, false, false⟩) (brokerEnds ++ [.timeout, .step])) :=
  ⟨_, _, rfl, rfl, by decide, close_completes_iff lifeQuiche_law rfl⟩

/-- The stream at its end is readable again, and the second `close` ends the
handler while the connection is not closed yet. -/
theorem second_close_interrupts :
    (CloseLaw lifeQuiche fun q => q.closing = true) ∧
    ∃ s os, run (step lifeQuiche) (Connection.new lifeConfig ⟨1, false, false⟩)
        (brokerEnds ++ [.tcp .eof]) = some (s, os) ∧
      .closed 0x101 ∈ os ∧ s.pc = .returned (.error (.close .done)) ∧
      lifeQuiche.isClosed s.conn = false ∧ ¬ Completes os s :=
  ⟨lifeQuiche_law, _, _, rfl, by decide, rfl, rfl, fun h => h ⟨0x101, by decide⟩ ⟨_, rfl⟩⟩

/-! ## The broker stream -/

/-- The broker stream is there, or the connection is being closed and its
handshake was never complete. -/
def Backed (qc : Quiche Q) (closing : Q → Prop) (tcpStream : Bool) (conn : Q) : Prop :=
  tcpStream = true ∨ closing conn ∧ qc.isEstablished conn = false

/-- What is known of the broker stream, by where the task is. -/
def BrokerInv (qc : Quiche Q) (closing early : Q → Prop) (s : Connection Q) : Prop :=
  match s.pc with
  | .send .initial | .queue .initial _ | .connectBroker => early s.conn
  | .readStreams _ | .writeBroker _ _ => s.tcpStream = true
  | .returned r => r ≠ .error .panicked
  | .send .pending | .queue .pending _ | .select | .checkClosed =>
    Backed qc closing s.tcpStream s.conn

/-- A failed handler, unless it panicked. -/
theorem brokerInv_of_failed {early : Q → Prop} {f : Fault} (hpc : s.pc = .returned (.error f))
    (hf : f ≠ .panicked) : BrokerInv qc closing early s := by
  unfold BrokerInv
  rw [hpc]
  exact fun heq => hf (Except.error.inj heq)

/-- The calls of the handler keep what stands behind stream 0. -/
theorem Backed.call (law : CloseLaw qc closing) {tcpStream : Bool} {q q' : Q}
    (h : Backed qc closing tcpStream q) (hcall : qc.Call q q') :
    Backed qc closing tcpStream q' := by
  rcases h with htcp | ⟨hc, hest⟩
  · exact .inl htcp
  · obtain ⟨hc', hest', -⟩ := law.call hcall hc
    exact .inr ⟨hc', hest'.trans hest⟩

/-- A close that succeeds before the handshake is complete stands in for the
broker stream. -/
theorem closeConn_brokerInv (law : CloseLaw qc closing) {early : Q → Prop} {code : Nat}
    {reason : String} {next : Pc} (hnext : next = .select ∨ next = .checkClosed)
    (h : s.tcpStream = true ∨ qc.isEstablished s.conn = false) :
    BrokerInv qc closing early (closeConn qc code reason next s).1 := by
  unfold closeConn
  simp only
  split
  · next hok =>
    have hbacked : Backed qc closing s.tcpStream (qc.close s.conn true code reason).2 := by
      rcases h with htcp | hest
      · exact .inl htcp
      · exact .inr ⟨law.closed hok, (law.handshake s.conn true code reason).trans hest⟩
    rcases hnext with rfl | rfl <;> exact hbacked
  · exact brokerInv_of_failed rfl (by simp)

/-- The streams are read only with the handshake complete, so with a broker stream.
-/
theorem processUdpPacket_brokerInv (law : CloseLaw qc closing) {early : Q → Prop}
    (h : Backed qc closing s.tcpStream s.conn) (packet : UdpPacket) (certOverdue : Bool) :
    BrokerInv qc closing early (processUdpPacket qc packet certOverdue s).1 := by
  unfold processUdpPacket
  split
  · exact brokerInv_of_failed rfl (by simp)
  · next src _ =>
    split
    · exact brokerInv_of_failed rfl (by simp)
    · next dst _ =>
      have hrecv := h.call law (.recv packet.data ⟨src, dst⟩)
      simp only
      split
      · exact brokerInv_of_failed rfl (by simp)
      · split
        · split
          · refine closeConn_brokerInv law (.inr rfl) ?_
            exact hrecv.imp_right fun hshut => hshut.2
          · exact hrecv
        · split
          -- only an established connection is read, and that has its stream
          · next hest =>
            show s.tcpStream = true
            refine hrecv.resolve_right fun hshut => ?_
            rw [hshut.2] at hest
            cases hest
          · exact hrecv

/-- The branch of the broker stream runs with the broker stream open. -/
theorem onTcp_brokerInv (law : CloseLaw qc closing) {early : Q → Prop}
    (htcp : s.tcpStream = true) (e : TcpEvent) :
    BrokerInv qc closing early (onTcp qc e s).1 := by
  cases e with
  | data b =>
    unfold onTcp
    simp only
    split
    · exact .inl htcp
    · exact brokerInv_of_failed rfl (by simp)
  | eof => exact closeConn_brokerInv law (.inr rfl) (.inl htcp)
  | wouldBlock => exact .inl htcp
  | readError => exact closeConn_brokerInv law (.inr rfl) (.inl htcp)
  | readyError => exact closeConn_brokerInv law (.inr rfl) (.inl htcp)

/-- The keepalive keeps what stands behind stream 0. -/
theorem keepalive_brokerInv (law : CloseLaw qc closing) {early : Q → Prop}
    (h : Backed qc closing s.tcpStream s.conn) :
    BrokerInv qc closing early (keepalive qc s) := by
  have hbacked := h.call law .sendAckEliciting
  unfold keepalive
  split
  · simp only
    split
    · exact hbacked
    · exact brokerInv_of_failed rfl (by simp)
  · exact h

/-- With a broker stream a read does not panic. -/
theorem readStream_brokerInv {early : Q → Prop} (htcp : s.tcpStream = true) (id : Nat)
    (ids : List Nat) : BrokerInv qc closing early (readStream qc id ids s) := by
  unfold readStream
  simp only [if_pos htcp]
  split
  · split
    · exact htcp
    · exact htcp
  · exact htcp

section Server

variable {C : Type} {qs : QuicheServer C Q} {early : Q → Prop}

/-- Sending the first flight completes no handshake, and later rounds keep what stands
behind stream 0. -/
theorem sendRound_brokerInv (law : CloseLaw qs.connection closing)
    (first : FirstFlightLaw qs early) {l : SendLoop} (hpc : s.pc = .send l)
    (hinv : BrokerInv qs.connection closing early s) :
    BrokerInv qs.connection closing early (sendRound qs.connection l s) := by
  unfold BrokerInv at hinv
  rw [hpc] at hinv
  unfold sendRound
  cases l with
  | initial =>
    have hearly : early (qs.connection.send s.conn).2 := first.send hinv
    simp only
    split <;> exact hearly
  | pending =>
    have hbacked := Backed.call law hinv .send
    simp only
    split <;> exact hbacked

/-- Every step keeps what is known of the broker stream. -/
theorem step_brokerInv (law : CloseLaw qs.connection closing) (first : FirstFlightLaw qs early)
    (hinv : BrokerInv qs.connection closing early s)
    (h : step qs.connection s i = some (s', o)) :
    BrokerInv qs.connection closing early s' := by
  have hround : ∀ l, s.pc = .send l →
      BrokerInv qs.connection closing early (sendRound qs.connection l s) :=
    fun _ hpc => sendRound_brokerInv law first hpc hinv
  unfold BrokerInv at hinv
  unfold step at h
  split at h
  · next l hpc => exact of_result_state h (hround l hpc)
  · next l packet rxAlive hpc =>
    rw [hpc] at hinv
    split at h
    · refine of_result_state h ?_
      cases l <;> exact hinv
    · exact of_result_state h (brokerInv_of_failed rfl (by simp))
  · next ok hpc =>
    rw [hpc] at hinv
    refine of_result_state h ?_
    unfold brokerConnect
    split
    · exact .inl rfl
    · exact closeConn_brokerInv law (.inl rfl) (.inr (first.handshake hinv))
  · next hpc =>
    rw [hpc] at hinv
    exact of_result_state h (Backed.call law hinv .onTimeout)
  · next hpc =>
    rw [hpc] at hinv
    exact of_result_state h (keepalive_brokerInv law hinv)
  · exact of_result_state h (fun heq => nomatch heq)
  · next packet certOverdue hpc =>
    rw [hpc] at hinv
    exact of_result_state h (processUdpPacket_brokerInv law hinv packet certOverdue)
  · next e hpc =>
    split at h
    · next hready =>
      rw [Bool.and_eq_true] at hready
      exact of_result_state h (onTcp_brokerInv law hready.1 e)
    · cases h
  · exact of_result_state h (fun heq => nomatch heq)
  · next hpc =>
    rw [hpc] at hinv
    exact of_result_state h (Or.inl hinv)
  · next id ids hpc =>
    rw [hpc] at hinv
    exact of_result_state h (readStream_brokerInv hinv id ids)
  · next n ok b ids hpc =>
    rw [hpc] at hinv
    refine of_result_state h ?_
    unfold written
    split
    · exact hinv
    · exact brokerInv_of_failed rfl (by simp)
  · next hpc =>
    rw [hpc] at hinv
    split at h
    · exact of_result_state h (fun heq => nomatch heq)
    · exact of_result_state h hinv
  · cases h

/-- **The broker stream is never missed**: in every run of the handler over a
connection that was accepted and fed the client's first datagram, the stream is
there wherever the handler unwraps it, at the write of what stream 0 carried and
at the read in the branch of the broker, so the handler does not panic. -/
theorem broker_stream_present (law : CloseLaw qs.connection closing)
    (first : FirstFlightLaw qs early) {quicConfig quicConfig' : C} {scid data : Bytes}
    {odcid : Option Bytes} {localAddr peer : SocketAddr} {ri : RecvInfo} {accepted : Q} {n : Nat}
    (haccept : qs.accept quicConfig scid odcid localAddr peer = (.ok accepted, quicConfig'))
    (hrecv : (qs.connection.recv accepted data ri).1 = .ok n) {config : Config}
    {is : List Input} {os : List Output}
    (hr : run (step qs.connection)
      (Connection.new config (qs.connection.recv accepted data ri).2) is = some (s, os)) :
    (∀ ids, s.pc = .readStreams ids → s.tcpStream = true) ∧
    (∀ b ids, s.pc = .writeBroker b ids → s.tcpStream = true) ∧
    (∀ e s' o, step qs.connection s (.tcp e) = some (s', o) → s.tcpStream = true) ∧
    s.pc ≠ .returned (.error .panicked) := by
  have hinv : BrokerInv qs.connection closing early s := by
    refine @run_induct _ _ _ (step qs.connection)
      (fun _ s => BrokerInv qs.connection closing early s) is os _ s ?_ ?_ hr
    · show early (qs.connection.recv accepted data ri).2
      exact first.first haccept hrecv
    · intro os s i s' o hinv h
      exact step_brokerInv law first hinv h
  unfold BrokerInv at hinv
  refine ⟨fun ids hpc => ?_, fun b ids hpc => ?_, fun e s' o h => ?_, fun hpc => ?_⟩
  · rw [hpc] at hinv
    exact hinv
  · rw [hpc] at hinv
    exact hinv
  · cases hpc : s.pc with
    | select =>
      simp only [step, hpc] at h
      split at h
      · next hready =>
        rw [Bool.and_eq_true] at hready
        exact hready.1
      · cases h
    | _ => simp [step, hpc] at h
  · rw [hpc] at hinv
    exact hinv rfl

end Server

/-- A server of such connections. -/
private def lifeServer : QuicheServer Unit Life where
  headerFromSlice _ _ := .error .done
  versionIsSupported _ := true
  negotiateVersion _ _ := .ok []
  retry _ _ _ _ _ := .ok []
  accept _ _ _ _ _ := (.ok ⟨0, false, false⟩, ())
  connection := lifeQuiche

/-- Its connections have taken one datagram when they are registered, and are not
established before the second. -/
private theorem lifeServer_law : FirstFlightLaw lifeServer fun q => q.datagrams = 1 where
  first := by
    intro config config' scid odcid localAddr peer q data ri n haccept _
    obtain ⟨hq, -⟩ := Prod.mk.inj haccept
    rw [← Except.ok.inj hq]
    rfl
  send h := h
  handshake := by
    intro q h
    show decide (2 ≤ q.datagrams) = false
    simp [h]

/-- The broker cannot be reached, and the rest of the client's handshake comes
in while the connection is being closed. -/
private def brokerMissing : List Input :=
  [.step, .brokerConnect false,
    .udp (some ⟨⟨2, .ip (.ipv4 10 0 0 1), 4433⟩, ⟨1, .ip (.ipv4 10 0 0 2), 4433⟩, [0]⟩) false,
    .step, .step, .keepalive]

private def lifeInfo : RecvInfo := ⟨⟨.ipv4 10 0 0 1, 4433⟩, ⟨.ipv4 10 0 0 2, 4433⟩⟩

/-- The broker does not answer, the proxy closes the connection, and the client's
datagrams after that do no harm. -/
theorem broker_stream_present_sample :
    ∃ s os, run (step lifeServer.connection)
        (Connection.new lifeConfig (lifeServer.connection.recv ⟨0, false, false⟩ [0] lifeInfo).2)
        brokerMissing = some (s, os) ∧
      s.tcpStream = false ∧ .closed 0x102 ∈ os ∧ s.pc ≠ .returned (.error .panicked) := by
  have law : CloseLaw lifeServer.connection fun q => q.closing = true := lifeQuiche_law
  have haccept : lifeServer.accept () [] none lifeInfo.dst lifeInfo.src =
      (.ok ⟨0, false, false⟩, ()) := rfl
  have hrecv : (lifeServer.connection.recv ⟨0, false, false⟩ [0] lifeInfo).1 = .ok 1 := rfl
  have hr : run (step lifeServer.connection)
      (Connection.new lifeConfig (lifeServer.connection.recv ⟨0, false, false⟩ [0] lifeInfo).2)
      brokerMissing = some (⟨lifeConfig, ⟨1, true, false⟩, false, .checkClosed⟩, [.closed 0x102]) :=
    rfl
  exact ⟨_, _, hr, rfl, by decide,
    (broker_stream_present law lifeServer_law haccept hrecv hr).2.2.2⟩

end MqttScion.Proxy.QuicMode
