import MqttScion.Proxy.QuicMode

/-!
# What one move of the QUIC handler can do

`step_move` lists the moves of `handle_client_connection` with the guards under
which they happen and all that they change. Most of them are alike: they make
some calls on the connection that carry no stream data and go on at an await
that holds nothing (`calm`). The others are the steps of the four loops: a
datagram is taken from `conn.send` and queued, a datagram is fed to `conn.recv`
and the readable streams are walked, a chunk of the broker is offered to stream
0.

The invariants about addresses, authentication and the bytes of stream 0 look
at nothing else.
-/

namespace MqttScion.Proxy.QuicMode

open MqttScion.Net MqttScion.Lib

variable {Q : Type}

/-- The task is at an await that holds no datagram and no stream data. -/
def Pc.plain : Pc → Bool
  | .queue _ _ | .readStreams _ | .writeBroker _ _ => false
  | _ => true

/-- The packet made of a datagram of the connection. -/
def Config.datagram (config : Config) (data : Bytes) (info : SendInfo) : UdpPacket :=
  { data := data
    src := ScionAddr.fromStd config.localIsdAs info.src
    dst := ScionAddr.fromStd config.remoteIsdAs info.dst }

/-- The `RecvInfo` for a packet that `process_udp_packet` accepts. -/
def recvInfo (packet : UdpPacket) : Option RecvInfo :=
  match packet.src.localAddress, packet.dst.localAddress with
  | some src, some dst => some ⟨src, dst⟩
  | _, _ => none

/-- `q'` is `q` after the input's `conn.recv`, if it has one. -/
inductive Received (qc : Quiche Q) (i : Input) (q : Q) : Q → Prop
  | nothing : Received qc i q q
  | recv {packet certOverdue ri} (hi : i = .udp (some packet) certOverdue)
      (hri : recvInfo packet = some ri) : Received qc i q (qc.recv q packet.data ri).2

/-- `q'` is `q` after the calls of a calm move. -/
inductive CalmCall (qc : Quiche Q) (i : Input) (q : Q) : Q → Prop
  | received {q'} (h : Received qc i q q') : CalmCall qc i q q'
  | closed {q'} (app err reason) (h : Received qc i q q') :
      CalmCall qc i q (qc.close q' app err reason).2
  | send : CalmCall qc i q (qc.send q).2
  | sendAckEliciting : CalmCall qc i q (qc.sendAckEliciting q).2
  | onTimeout : CalmCall qc i q (qc.onTimeout q)

/-- The moves of the handler. -/
inductive Move (qc : Quiche Q) (s : Connection Q) : Input → Connection Q → List Output → Prop
  | calm {i conn tcpStream pc o} (hstart : s.pc.plain = true) (hdata : ∀ b, i ≠ .tcp (.data b))
      (hcall : CalmCall qc i s.conn conn) (hpc : pc.plain = true)
      (ho : o = [] ∨ ∃ code, o = [.closed code]) :
      Move qc s i { s with conn := conn, tcpStream := tcpStream, pc := pc } o
  | send {l data info} (hstart : s.pc = .send l) (hsend : (qc.send s.conn).1 = .ok (data, info)) :
      Move qc s .step
        { s with conn := (qc.send s.conn).2, pc := .queue l (s.config.datagram data info) } []
  | queued {l packet} (hstart : s.pc = .queue l packet) :
      Move qc s (.queued true) { s with pc := .send l } [.queued packet]
  | refused {l packet} (hstart : s.pc = .queue l packet) :
      Move qc s (.queued false) { s with pc := .returned (.error .channelClosed) } []
  | read {packet certOverdue ri} (hstart : s.pc = .select) (hri : recvInfo packet = some ri)
      (hcert : (qc.peerCert (qc.recv s.conn packet.data ri).2).isSome = true)
      (hest : qc.isEstablished (qc.recv s.conn packet.data ri).2 = true) :
      Move qc s (.udp (some packet) certOverdue)
        { s with
          conn := (qc.recv s.conn packet.data ri).2
          pc := .readStreams (qc.readable (qc.recv s.conn packet.data ri).2) } []
  | drained (hstart : s.pc = .readStreams []) : Move qc s .step { s with pc := .checkClosed } []
  | chunk {ids b fin} (hstart : s.pc = .readStreams (0 :: ids)) (htcp : s.tcpStream = true)
      (hrecv : (qc.streamRecv s.conn 0).1 = .ok (b, fin)) :
      Move qc s .step
        { s with conn := (qc.streamRecv s.conn 0).2, pc := .writeBroker b (0 :: ids) } []
  | panicked {ids b fin} (hstart : s.pc = .readStreams (0 :: ids)) (htcp : s.tcpStream = false)
      (hrecv : (qc.streamRecv s.conn 0).1 = .ok (b, fin)) :
      Move qc s .step
        { s with conn := (qc.streamRecv s.conn 0).2, pc := .returned (.error .panicked) } []
  | skip {id ids b fin} (hstart : s.pc = .readStreams (id :: ids)) (hid : id ≠ 0)
      (hrecv : (qc.streamRecv s.conn id).1 = .ok (b, fin)) :
      Move qc s .step
        { s with conn := (qc.streamRecv s.conn id).2, pc := .readStreams (id :: ids) } []
  | done {id ids e} (hstart : s.pc = .readStreams (id :: ids))
      (hrecv : (qc.streamRecv s.conn id).1 = .error e) :
      Move qc s .step { s with conn := (qc.streamRecv s.conn id).2, pc := .readStreams ids } []
  | wrote {n b ids} (hstart : s.pc = .writeBroker b ids) :
      Move qc s (.written n true) { s with pc := .readStreams ids } [.brokerWrite b]
  | failed {n b ids} (hstart : s.pc = .writeBroker b ids) :
      Move qc s (.written n false) { s with pc := .returned (.error .brokerWrite) }
        [.brokerWrite (b.take n)]
  | offered {b pc} (hstart : s.pc = .select) (htcp : s.tcpStream = true) (hpc : pc.plain = true) :
      Move qc s (.tcp (.data b))
        { s with conn := (qc.streamSend s.conn 0 b false).2, pc := pc } [.brokerRead b]

variable {qc : Quiche Q} {s s' : Connection Q} {i : Input} {o : List Output}

/-- A calm move that only goes on. -/
theorem move_goto (hstart : s.pc.plain = true) (hdata : ∀ b, i ≠ .tcp (.data b)) {pc : Pc}
    (hpc : pc.plain = true) : Move qc s i { s with pc := pc } [] :=
  .calm hstart hdata (.received .nothing) hpc (.inl rfl)

/-- The send loop takes a datagram out of the connection, or goes on. -/
theorem sendRound_move {l : SendLoop} (hstart : s.pc = .send l) :
    Move qc s .step (sendRound qc l s) [] := by
  have hplain : s.pc.plain = true := by rw [hstart]; rfl
  simp only [sendRound]
  split
  · next data info hsend => exact .send hstart hsend
  · cases l with
    | initial => exact .calm hplain (by simp) .send rfl (.inl rfl)
    | pending => exact .calm hplain (by simp) .send rfl (.inl rfl)

/-- A close, after the input's `recv` if it has one, is a calm move. -/
theorem closeConn_move (hstart : s.pc.plain = true) (hdata : ∀ b, i ≠ .tcp (.data b))
    {conn : Q} (hcall : Received qc i s.conn conn) (code : Nat) (reason : String) {next : Pc}
    (hnext : next.plain = true) :
    Move qc s i (closeConn qc code reason next { s with conn := conn }).1
      (closeConn qc code reason next { s with conn := conn }).2 := by
  simp only [closeConn]
  split
  · exact .calm hstart hdata (.closed true code reason hcall) hnext (.inr ⟨code, rfl⟩)
  · exact .calm hstart hdata (.closed true code reason hcall) rfl (.inl rfl)

/-- A datagram leads to the streams for a client with a certificate whose handshake
is complete, and is a calm move for any other. -/
theorem processUdpPacket_move (hstart : s.pc = .select) (packet : UdpPacket)
    (certOverdue : Bool) :
    Move qc s (.udp (some packet) certOverdue) (processUdpPacket qc packet certOverdue s).1
      (processUdpPacket qc packet certOverdue s).2 := by
  have hplain : s.pc.plain = true := by rw [hstart]; rfl
  have hdata : ∀ b, Input.udp (some packet) certOverdue ≠ .tcp (.data b) := by simp
  unfold processUdpPacket
  split
  · exact move_goto hplain hdata rfl
  · next src hsrc =>
    split
    · exact move_goto hplain hdata rfl
    · next dst hdst =>
      have hri : recvInfo packet = some ⟨src, dst⟩ := by rw [recvInfo, hsrc, hdst]
      have hcall : Received qc (.udp (some packet) certOverdue) s.conn
          (qc.recv s.conn packet.data ⟨src, dst⟩).2 := .recv rfl hri
      simp only
      split
      · exact .calm hplain hdata (.received hcall) rfl (.inl rfl)
      · split
        · split
          · exact closeConn_move hplain hdata hcall _ _ rfl
          · exact .calm hplain hdata (.received hcall) rfl (.inl rfl)
        · next hcert =>
          split
          · next hest =>
            refine .read hstart hri ?_ hest
            exact Option.isSome_iff_ne_none.mpr (by simpa using hcert)
          · exact .calm hplain hdata (.received hcall) rfl (.inl rfl)

/-- A read of a stream returns a chunk for the broker, panics, skips data of another
stream, or comes to the end of the stream. -/
theorem readStream_move {id : Nat} {ids : List Nat} (hstart : s.pc = .readStreams (id :: ids)) :
    Move qc s .step (readStream qc id ids s) [] := by
  simp only [readStream]
  split
  · next b fin hrecv =>
    split
    · next hid =>
      subst hid
      split
      · next htcp => exact .chunk hstart htcp hrecv
      · next htcp => exact .panicked hstart (by simpa using htcp) hrecv
    · next hid => exact .skip hstart hid hrecv
  · next e hrecv => exact .done hstart hrecv

/-- Data of the broker is offered to stream 0; every other event of its stream is a
calm move. -/
theorem onTcp_move (hstart : s.pc = .select) (htcp : s.tcpStream = true) (e : TcpEvent) :
    Move qc s (.tcp e) (onTcp qc e s).1 (onTcp qc e s).2 := by
  have hplain : s.pc.plain = true := by rw [hstart]; rfl
  cases e with
  | data b =>
    simp only [onTcp]
    split
    · exact .offered hstart htcp rfl
    · exact .offered hstart htcp rfl
  | eof => exact closeConn_move hplain (by simp) .nothing _ _ rfl
  | wouldBlock => exact move_goto hplain (by simp) rfl
  | readError => exact closeConn_move hplain (by simp) .nothing _ _ rfl
  | readyError => exact closeConn_move hplain (by simp) .nothing _ _ rfl

/-- The keepalive is a calm move. -/
theorem keepalive_move (hstart : s.pc = .select) :
    Move qc s .keepalive (keepalive qc s) [] := by
  have hplain : s.pc.plain = true := by rw [hstart]; rfl
  simp only [keepalive]
  split
  · split
    · exact .calm hplain (by simp) .sendAckEliciting rfl (.inl rfl)
    · exact .calm hplain (by simp) .sendAckEliciting rfl (.inl rfl)
  · exact move_goto hplain (by simp) rfl

/-- **Every move of the handler** is one of the above. -/
theorem step_move (h : step qc s i = some (s', o)) : Move qc s i s' o := by
  unfold step at h
  split at h
  · next hpc => exact of_result h (sendRound_move hpc)
  · next hpc =>
    split at h
    · next hq =>
      rw [hq]
      exact of_result h (.queued hpc)
    · next hq =>
      rw [Bool.not_eq_true] at hq
      rw [hq]
      exact of_result h (.refused hpc)
  · next ok hpc =>
    have hplain : s.pc.plain = true := by rw [hpc]; rfl
    refine of_result h ?_
    unfold brokerConnect
    split
    · exact .calm hplain (by simp) (.received .nothing) rfl (.inl rfl)
    · exact closeConn_move hplain (by simp) .nothing _ _ rfl
  · next hpc => exact of_result h (.calm (by rw [hpc]; rfl) (by simp) .onTimeout rfl (.inl rfl))
  · next hpc => exact of_result h (keepalive_move hpc)
  · next hpc => exact of_result h (move_goto (by rw [hpc]; rfl) (by simp) rfl)
  · next hpc => exact of_result h (processUdpPacket_move hpc _ _)
  · next e hpc =>
    split at h
    · next hready =>
      rw [Bool.and_eq_true] at hready
      exact of_result h (onTcp_move hpc hready.1 e)
    · cases h
  · next hpc => exact of_result h (move_goto (by rw [hpc]; rfl) (by simp) rfl)
  · next hpc => exact of_result h (.drained hpc)
  · next hpc => exact of_result h (readStream_move hpc)
  · next ok b ids hpc =>
    refine of_result h ?_
    unfold written
    split
    · next hok =>
      rw [hok]
      exact .wrote hpc
    · next hok =>
      rw [Bool.not_eq_true] at hok
      rw [hok]
      exact .failed hpc
  · next hpc =>
    split at h
    · exact of_result h (move_goto (by rw [hpc]; rfl) (by simp) rfl)
    · exact of_result h (move_goto (by rw [hpc]; rfl) (by simp) rfl)
  · cases h

end MqttScion.Proxy.QuicMode
