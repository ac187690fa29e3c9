import MqttScion.Proxy.QuicMode

/-!
# The exits of the QUIC handler

`handle_client_connection` returns `Ok(())` at the three `break`s of its loop
and an error at every `?`. `Fails` lists the second kind, by where the task is
and what it meets there: the answer of the library it calls and the outcome of
what it awaits. A panic is listed with them.

> `step_failed_iff`: a step ends the handler with an error exactly when it is
> listed.
-/

namespace MqttScion.Proxy.QuicMode

open MqttScion.Net MqttScion.Lib

variable {Q : Type}

/-- `conn.close(true, ..)` is refused. -/
def CloseFails (qc : Quiche Q) (q : Q) (code : Nat) (reason : String) : Prop :=
  ∃ e, (qc.close q true code reason).1 = .error e

/-- `process_udp_packet` fails before its loop: an address without IP, `recv`, or
the `close` for a missing certificate. -/
def DatagramFails (qc : Quiche Q) (s : Connection Q) (packet : UdpPacket) (certOverdue : Bool) :
    Prop :=
  match packet.src.localAddress, packet.dst.localAddress with
  | some src, some dst =>
    match qc.recv s.conn packet.data ⟨src, dst⟩ with
    | (.error _, _) => True
    | (.ok _, conn) => (qc.peerCert conn).isNone = true ∧ certOverdue = true ∧
        CloseFails qc conn 0x100 "no client certificate"
  | _, _ => True

/-- The branch of the broker stream fails. -/
def TcpFails (qc : Quiche Q) (s : Connection Q) : TcpEvent → Prop
  | .eof => CloseFails qc s.conn 0x101 "TCP stream to broker closed by peer"
  | .data b => ∃ e, (qc.streamSend s.conn 0 b false).1 = .error e
  | .wouldBlock => False
  | .readError => CloseFails qc s.conn 0x101 "Failed to read from TCP stream to broker"
  | .readyError => CloseFails qc s.conn 0x101 "TCP stream to broker error"

/-- The ways the handler ends with an error, by where it is and what it meets
there. -/
def Fails (qc : Quiche Q) (s : Connection Q) (i : Input) : Prop :=
  match s.pc, i with
  | .queue _ _, .queued rxAlive => rxAlive = false
  | .connectBroker, .brokerConnect ok =>
    ok = false ∧ CloseFails qc s.conn 0x102 "failed to connect to MQTT broker"
  | .select, .keepalive =>
    qc.isEstablished s.conn = true ∧ ∃ e, (qc.sendAckEliciting s.conn).1 = .error e
  | .select, .udp (some packet) certOverdue => DatagramFails qc s packet certOverdue
  | .select, .tcp e => TcpFails qc s e
  | .readStreams (id :: _), .step =>
    id = 0 ∧ s.tcpStream = false ∧ ∃ r, (qc.streamRecv s.conn 0).1 = .ok r
  | .writeBroker _ _, .written _ ok => ok = false
  | _, _ => False

/-- The handler has returned an error. -/
def Pc.Failed (pc : Pc) : Prop := ∃ f, pc = .returned (.error f)

variable {qc : Quiche Q} {s s' : Connection Q}

/-- A close that goes on in the loop fails where `conn.close` does. -/
theorem closeConn_failed {code : Nat} {reason : String} {next : Pc} (hnext : ¬ next.Failed) :
    (closeConn qc code reason next s).1.pc.Failed ↔ CloseFails qc s.conn code reason := by
  unfold closeConn CloseFails
  simp only
  split
  · next hok => exact iff_of_false hnext (by simp [hok])
  · next e herr => exact iff_of_true ⟨_, rfl⟩ ⟨e, herr⟩

/-- A round of the send loop never ends the handler. -/
theorem sendRound_running (l : SendLoop) : ¬ (sendRound qc l s).pc.Failed := by
  rintro ⟨f, hf⟩
  unfold sendRound at hf
  simp only at hf
  split at hf
  · cases hf
  · cases l <;> cases hf

/-- Without the broker the handler closes the connection, and fails where that is
refused. -/
theorem brokerConnect_failed {ok : Bool} :
    (brokerConnect qc ok s).1.pc.Failed ↔
      ok = false ∧ CloseFails qc s.conn 0x102 "failed to connect to MQTT broker" := by
  unfold brokerConnect
  split
  · next hok => simp [Pc.Failed, hok]
  · next hok =>
    rw [closeConn_failed (by simp [Pc.Failed])]
    simp [hok]

/-- The keepalive fails where `send_ack_eliciting` does, which is called once the
handshake is complete. -/
theorem keepalive_failed :
    (keepalive qc s).pc.Failed ↔
      qc.isEstablished s.conn = true ∧ ∃ e, (qc.sendAckEliciting s.conn).1 = .error e := by
  unfold keepalive
  split
  · next hest =>
    simp only
    split
    · next hok => simp [Pc.Failed, hok]
    · next e herr => simp [Pc.Failed, hest, herr]
  · next hest => simp [Pc.Failed, hest]

/-- `process_udp_packet` fails as `DatagramFails` says, before it reads any stream.
-/
theorem processUdpPacket_failed {packet : UdpPacket} {certOverdue : Bool} :
    (processUdpPacket qc packet certOverdue s).1.pc.Failed ↔
      DatagramFails qc s packet certOverdue := by
  unfold processUdpPacket DatagramFails
  cases packet.src.localAddress with
  | none => simp [Pc.Failed]
  | some src =>
    cases packet.dst.localAddress with
    | none => simp [Pc.Failed]
    | some dst =>
      simp only
      cases hrecv : qc.recv s.conn packet.data ⟨src, dst⟩ with
      | mk r conn =>
        cases r with
        | error e => simp [Pc.Failed]
        | ok n =>
          simp only
          split
          · next hcert =>
            split
            · next hoverdue =>
              rw [closeConn_failed (by simp [Pc.Failed])]
              simp [hcert, hoverdue]
            · next hoverdue => simp [Pc.Failed, hoverdue]
          -- with a certificate the rest of the function is the loop
          · next hcert =>
            have hnone : ¬ ((qc.peerCert conn).isNone = true ∧ certOverdue = true ∧
                CloseFails qc conn 0x100 "no client certificate") := fun h => hcert h.1
            split
            · exact iff_of_false (by simp [Pc.Failed]) hnone
            · exact iff_of_false (by simp [Pc.Failed]) hnone

/-- The branch of the broker stream fails as `TcpFails` says. -/
theorem onTcp_failed {e : TcpEvent} : (onTcp qc e s).1.pc.Failed ↔ TcpFails qc s e := by
  have hnext : ¬ Pc.checkClosed.Failed := by simp [Pc.Failed]
  cases e with
  | eof => exact closeConn_failed hnext
  | data b =>
    unfold onTcp TcpFails
    simp only
    split
    · next hok => simp [Pc.Failed, hok]
    · next e herr => simp [Pc.Failed, herr]
  | wouldBlock => exact iff_of_false (by simp [onTcp, Pc.Failed]) id
  | readError => exact closeConn_failed hnext
  | readyError => exact closeConn_failed hnext

/-- Data on stream 0 without a broker stream is a panic, and the only failure of a
read. -/
theorem readStream_failed {id : Nat} {ids : List Nat} :
    (readStream qc id ids s).pc.Failed ↔
      id = 0 ∧ s.tcpStream = false ∧ ∃ r, (qc.streamRecv s.conn 0).1 = .ok r := by
  unfold readStream
  simp only
  split
  · next b fin hok =>
    split
    · next hid =>
      subst hid
      split
      · next htcp => simp [Pc.Failed, htcp]
      · next htcp =>
        have hmissing : s.tcpStream = false := by simpa using htcp
        exact iff_of_true ⟨_, rfl⟩ ⟨rfl, hmissing, _, hok⟩
    · next hid => simp [Pc.Failed, hid]
  · next e herr =>
    refine iff_of_false (by simp [Pc.Failed]) ?_
    rintro ⟨hid, -, r, hr⟩
    rw [hid, hr] at herr
    cases herr

/-- A `write_all` to the broker that fails ends the handler. -/
theorem written_failed {n : Nat} {ok : Bool} {b : Bytes} {ids : List Nat} :
    (written n ok b ids s).1.pc.Failed ↔ ok = false := by
  unfold written
  split
  · next hok => simp [Pc.Failed, hok]
  · next hok => simp [Pc.Failed, hok]

/-- **The error exits are all of them**: a step ends the handler with an error
exactly when it is listed in `Fails`. -/
theorem step_failed_iff {i : Input} {o : List Output} (h : step qc s i = some (s', o)) :
    s'.pc.Failed ↔ Fails qc s i := by
  have hfst : ∀ {r : Connection Q × List Output}, some r = some (s', o) → s' = r.1 :=
    fun hr => (congrArg Prod.fst (Option.some.inj hr)).symm
  unfold step at h
  unfold Fails
  split at h
  · next l hpc =>
    rw [hfst h, hpc]
    exact iff_of_false (sendRound_running l) id
  · next l packet rxAlive hpc =>
    rw [hpc]
    split at h
    · next halive => rw [hfst h]; simp [Pc.Failed, halive]
    · next halive => rw [hfst h]; simp [Pc.Failed, halive]
  · next ok hpc =>
    rw [hfst h, hpc]
    exact brokerConnect_failed
  · next hpc =>
    rw [hfst h, hpc]
    simp [Pc.Failed]
  · next hpc =>
    rw [hfst h, hpc]
    exact keepalive_failed
  · next hpc =>
    rw [hfst h, hpc]
    simp [Pc.Failed]
  · next packet certOverdue hpc =>
    rw [hfst h, hpc]
    exact processUdpPacket_failed
  · next e hpc =>
    rw [hpc]
    split at h
    · rw [hfst h]
      exact onTcp_failed
    · cases h
  · next hpc =>
    rw [hfst h, hpc]
    simp [Pc.Failed]
  · next hpc =>
    rw [hfst h, hpc]
    simp [Pc.Failed]
  · next id ids hpc =>
    rw [hfst h, hpc]
    exact readStream_failed
  · next b ids n ok hpc =>
    rw [hfst h, hpc]
    exact written_failed
  · next hpc =>
    rw [hpc]
    split at h
    · rw [hfst h]; simp [Pc.Failed]
    · rw [hfst h]; simp [Pc.Failed]
  · cases h

end MqttScion.Proxy.QuicMode
