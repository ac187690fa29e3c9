import MqttScion.Proxy.QuicMode

/-!
# The broker-to-client direction: when no byte is lost

A chunk read from the broker goes to `stream_send(0, chunk, false)?` and its
result is dropped but for the error. So a chunk that only partly fits the
window of stream 0 loses its tail, and a chunk that meets a full window
(`Err(Done)`) ends the handler.

`step_accepted` says once what any step does to the two byte streams: a chunk
is read and offered in the same step, and no other step touches either. With
the law of `stream_send` that makes losslessness sticky, and the exact rule for
runs gives

> `lossless_iff_fits`: in every run, the bytes stream 0 accepted are the bytes
> read from the broker, and no send ended the handler, exactly when every chunk
> fitted the window it met.
-/

namespace MqttScion.Proxy.QuicMode

open MqttScion.Net MqttScion.Lib

variable {Q : Type}

/-- The bytes read from the broker, in order. -/
def brokerBytes (os : List Output) : Bytes :=
  os.flatMap fun o => match o with
    | .brokerRead b => b
    | _ => []

theorem brokerBytes_append (os ps : List Output) :
    brokerBytes (os ++ ps) = brokerBytes os ++ brokerBytes ps := List.flatMap_append

/-- Stream 0 has accepted what was read from the broker, and no
`stream_send` has ended the handler. -/
def Lossless (accepted : Q → Bytes) (os : List Output) (s : Connection Q) : Prop :=
  accepted s.conn = brokerBytes os ∧ ∀ e, s.pc ≠ .returned (.error (.streamSend e))

/-- If the step offers a chunk to stream 0, the chunk fits. -/
def ChunkFits (qc : Quiche Q) (_ : List Output) (s : Connection Q) (i : Input) : Prop :=
  ∀ b, i = .tcp (.data b) → qc.Fits s.conn b

/-- What a step does to the two byte streams, `data` steps apart: nothing. -/
structure Quiet (accepted : Q → Bytes) (s s' : Connection Q) (o : List Output) : Prop where
  accepted_eq : accepted s'.conn = accepted s.conn
  read_nil : brokerBytes o = []
  running : ∀ e, s'.pc ≠ .returned (.error (.streamSend e))

variable {qc : Quiche Q} {accepted : Q → Bytes}

/-- A change of the program counter alone is quiet. -/
theorem quiet_of_pc {s : Connection Q} {pc : Pc} {o : List Output}
    (hpc : ∀ e, pc ≠ .returned (.error (.streamSend e))) (ho : brokerBytes o = []) :
    Quiet accepted s { s with pc := pc } o := ⟨rfl, ho, hpc⟩

/-- The send loop puts nothing on stream 0. -/
theorem sendRound_quiet (law : StreamSendLaw qc accepted) (l : SendLoop) (s : Connection Q) :
    Quiet accepted s (sendRound qc l s) [] := by
  have hacc := law.send s.conn
  simp only [sendRound]
  split
  · exact ⟨hacc, rfl, by simp⟩
  · refine ⟨hacc, rfl, ?_⟩
    cases l <;> simp

/-- A close puts nothing on stream 0. -/
theorem closeConn_quiet (law : StreamSendLaw qc accepted) {code : Nat} {reason : String}
    {next : Pc} (hnext : ∀ e, next ≠ .returned (.error (.streamSend e))) (s : Connection Q) :
    Quiet accepted s (closeConn qc code reason next s).1 (closeConn qc code reason next s).2 := by
  have hacc := law.close s.conn true code reason
  simp only [closeConn]
  split
  · exact ⟨hacc, rfl, hnext⟩
  · exact ⟨hacc, rfl, by simp⟩

/-- Connecting to the broker puts nothing on stream 0. -/
theorem brokerConnect_quiet (law : StreamSendLaw qc accepted) (ok : Bool) (s : Connection Q) :
    Quiet accepted s (brokerConnect qc ok s).1 (brokerConnect qc ok s).2 := by
  unfold brokerConnect
  split
  · exact ⟨rfl, rfl, by simp⟩
  · exact closeConn_quiet law (by simp) s

/-- The keepalive puts nothing on stream 0. -/
theorem keepalive_quiet (law : StreamSendLaw qc accepted) (s : Connection Q) :
    Quiet accepted s (keepalive qc s) [] := by
  have hacc := law.sendAckEliciting s.conn
  unfold keepalive
  split
  · simp only
    split
    · exact ⟨hacc, rfl, by simp⟩
    · exact ⟨hacc, rfl, by simp⟩
  · exact quiet_of_pc (by simp) rfl

/-- A datagram of the client puts nothing on stream 0. -/
theorem processUdpPacket_quiet (law : StreamSendLaw qc accepted) (packet : UdpPacket)
    (certOverdue : Bool) (s : Connection Q) :
    Quiet accepted s (processUdpPacket qc packet certOverdue s).1
      (processUdpPacket qc packet certOverdue s).2 := by
  unfold processUdpPacket
  split
  · exact quiet_of_pc (by simp) rfl
  · next src _ =>
    split
    · exact quiet_of_pc (by simp) rfl
    · next dst _ =>
      have hacc := law.recv s.conn packet.data ⟨src, dst⟩
      simp only
      split
      · exact ⟨hacc, rfl, by simp⟩
      · split
        · split
          · -- the missing-certificate close works on the state after `recv`
            have hclose := @closeConn_quiet Q qc accepted law 0x100 "no client certificate"
              .checkClosed (by simp) { s with conn := (qc.recv s.conn packet.data ⟨src, dst⟩).2 }
            exact ⟨hclose.accepted_eq.trans hacc, hclose.read_nil, hclose.running⟩
          · exact ⟨hacc, rfl, by simp⟩
        · split
          · exact ⟨hacc, rfl, by simp⟩
          · exact ⟨hacc, rfl, by simp⟩

/-- A read of a stream puts nothing on it. -/
theorem readStream_quiet (law : StreamSendLaw qc accepted) (id : Nat) (ids : List Nat)
    (s : Connection Q) : Quiet accepted s (readStream qc id ids s) [] := by
  have hacc := law.streamRecv s.conn id
  simp only [readStream]
  split
  · split
    · split
      · exact ⟨hacc, rfl, by simp⟩
      · exact ⟨hacc, rfl, by simp⟩
    · exact ⟨hacc, rfl, by simp⟩
  · exact ⟨hacc, rfl, by simp⟩

/-- A write to the broker puts nothing on stream 0. -/
theorem written_quiet (n : Nat) (ok : Bool) (b : Bytes) (ids : List Nat) (s : Connection Q) :
    Quiet accepted s (written n ok b ids s).1 (written n ok b ids s).2 := by
  unfold written
  split
  · exact quiet_of_pc (by simp) rfl
  · exact quiet_of_pc (by simp) rfl

/-- But for its data, the broker stream puts nothing on stream 0. -/
theorem onTcp_quiet (law : StreamSendLaw qc accepted) {e : TcpEvent} (he : ∀ b, e ≠ .data b)
    (s : Connection Q) : Quiet accepted s (onTcp qc e s).1 (onTcp qc e s).2 := by
  cases e with
  | eof => exact closeConn_quiet law (by simp) s
  | data b => exact absurd rfl (he b)
  | wouldBlock => exact quiet_of_pc (by simp) rfl
  | readError => exact closeConn_quiet law (by simp) s
  | readyError => exact closeConn_quiet law (by simp) s

/-- **What a step does to the two byte streams**: it is quiet, or it reads a
chunk and offers it to stream 0 at once, ending the handler if that fails. -/
theorem step_accepted (law : StreamSendLaw qc accepted) {s s' : Connection Q} {i : Input}
    {o : List Output} (h : step qc s i = some (s', o)) :
    (∃ b, i = .tcp (.data b) ∧ o = [.brokerRead b] ∧
      s'.conn = (qc.streamSend s.conn 0 b false).2 ∧
      ((∃ k, (qc.streamSend s.conn 0 b false).1 = .ok k) ↔
        ∀ e, s'.pc ≠ .returned (.error (.streamSend e)))) ∨
    ((∀ b, i ≠ .tcp (.data b)) ∧ Quiet accepted s s' o) := by
  unfold step at h
  split at h
  · exact .inr ⟨by simp, of_result h (sendRound_quiet law _ s)⟩
  · split at h
    · exact .inr ⟨by simp, of_result h (quiet_of_pc (by simp) rfl)⟩
    · exact .inr ⟨by simp, of_result h (quiet_of_pc (by simp) rfl)⟩
  · exact .inr ⟨by simp, of_result h (brokerConnect_quiet law _ s)⟩
  · exact .inr ⟨by simp, of_result h ⟨law.onTimeout s.conn, rfl, by simp⟩⟩
  · exact .inr ⟨by simp, of_result h (keepalive_quiet law s)⟩
  · exact .inr ⟨by simp, of_result h (quiet_of_pc (by simp) rfl)⟩
  · exact .inr ⟨by simp, of_result h (processUdpPacket_quiet law _ _ s)⟩
  · -- the branch of the broker stream: only `data` offers bytes to stream 0
    next e _ =>
    split at h
    · cases e with
      | data b =>
        simp only [onTcp] at h
        split at h
        · next k hk =>
          obtain ⟨rfl, rfl⟩ := Prod.mk.inj (Option.some.inj h)
          exact .inl ⟨b, rfl, rfl, rfl, by simp [hk]⟩
        · next e he =>
          obtain ⟨rfl, rfl⟩ := Prod.mk.inj (Option.some.inj h)
          exact .inl ⟨b, rfl, rfl, rfl, by simp [he]⟩
      | eof => exact .inr ⟨by simp, of_result h (onTcp_quiet law (by simp) s)⟩
      | wouldBlock => exact .inr ⟨by simp, of_result h (onTcp_quiet law (by simp) s)⟩
      | readError => exact .inr ⟨by simp, of_result h (onTcp_quiet law (by simp) s)⟩
      | readyError => exact .inr ⟨by simp, of_result h (onTcp_quiet law (by simp) s)⟩
    · cases h
  · exact .inr ⟨by simp, of_result h (quiet_of_pc (by simp) rfl)⟩
  · exact .inr ⟨by simp, of_result h (quiet_of_pc (by simp) rfl)⟩
  · exact .inr ⟨by simp, of_result h (readStream_quiet law _ _ s)⟩
  · exact .inr ⟨by simp, of_result h (written_quiet _ _ _ _ s)⟩
  · split at h
    · exact .inr ⟨by simp, of_result h (quiet_of_pc (by simp) rfl)⟩
    · exact .inr ⟨by simp, of_result h (quiet_of_pc (by simp) rfl)⟩
  · cases h

/-- Stream 0 never accepted more than was read from the broker. -/
theorem step_accepted_length_le (law : StreamSendLaw qc accepted) {os : List Output}
    {s s' : Connection Q} {i : Input} {o : List Output} (h : step qc s i = some (s', o))
    (hle : (accepted s.conn).length ≤ (brokerBytes os).length) :
    (accepted s'.conn).length ≤ (brokerBytes (os ++ o)).length := by
  rw [brokerBytes_append, List.length_append]
  rcases step_accepted law h with ⟨b, rfl, rfl, hconn, -⟩ | ⟨-, hq⟩
  · rw [hconn]
    have hb : brokerBytes [.brokerRead b] = b := by simp [brokerBytes]
    rw [hb]
    exact Nat.le_trans (law.accepted_length_le s.conn b) (Nat.add_le_add_right hle _)
  · rw [hq.accepted_eq]
    exact Nat.le_trans hle (Nat.le_add_right _ _)

/-- A step keeps the direction lossless exactly when the chunk it offers, if
any, fits. -/
theorem step_lossless_iff (law : StreamSendLaw qc accepted) {os : List Output}
    {s s' : Connection Q} {i : Input} {o : List Output} (h : step qc s i = some (s', o))
    (hle : (accepted s.conn).length ≤ (brokerBytes os).length)
    (hrun : ∀ e, s.pc ≠ .returned (.error (.streamSend e))) :
    Lossless accepted (os ++ o) s' ↔ Lossless accepted os s ∧ ChunkFits qc os s i := by
  unfold Lossless
  rw [brokerBytes_append]
  rcases step_accepted law h with ⟨b, rfl, rfl, hconn, hpc⟩ | ⟨hno, hq⟩
  -- the chunk is logged whatever `stream_send` takes of it
  · have hb : brokerBytes [.brokerRead b] = b := by simp [brokerBytes]
    have hfit : ChunkFits qc os s (.tcp (.data b)) ↔ qc.Fits s.conn b :=
      ⟨fun hc => hc b rfl, fun hf b' hb' => by cases hb'; exact hf⟩
    rw [hb, hconn, ← hpc, law.accepts_all_iff hle, hfit]
    exact ⟨fun hp => ⟨⟨hp.1, hrun⟩, hp.2⟩, fun hp => ⟨hp.1.1, hp.2⟩⟩
  · rw [hq.accepted_eq, hq.read_nil, List.append_nil]
    exact ⟨fun hp => ⟨⟨hp.1, hrun⟩, fun b hb => absurd hb (hno b)⟩, fun hp => ⟨hp.1.1, hq.running⟩⟩

/-- **When the broker-to-client direction is lossless**: in every run of the
handler, stream 0 has accepted exactly the bytes read from the broker, in
order, and no `stream_send` has ended the handler, if and only if every chunk
fitted the window it met. -/
theorem lossless_iff_fits (law : StreamSendLaw qc accepted) {config : Config} {conn : Q}
    (hempty : accepted conn = []) {is : List Input} {s : Connection Q} {os : List Output}
    (hr : run (step qc) (Connection.new config conn) is = some (s, os)) :
    Lossless accepted os s ↔
      AllSteps (step qc) (ChunkFits qc) [] (Connection.new config conn) is := by
  refine @run_iff _ _ _ (step qc) (ChunkFits qc)
    (fun os s => (accepted s.conn).length ≤ (brokerBytes os).length) (Lossless accepted)
    is os _ s ?_ ?_ ?_ ?_ hr
  · show (accepted conn).length ≤ 0
    rw [hempty]
    exact Nat.le_refl _
  · exact ⟨hempty, by simp [Connection.new]⟩
  · intro os s i s' o hle h
    exact step_accepted_length_le law h hle
  · intro os s i s' o hle h
    exact step_lossless_iff law h hle (fun e => step_running h _)

private def brokerAddress : SocketAddr := ⟨.ipv4 127 0 0 1, 1883⟩

/-- A handler whose stream 0 has room for `room` bytes. -/
private def handlerWithRoom (room : Nat) : Connection SendWindow :=
  Connection.new ⟨1, 2, brokerAddress⟩ ⟨room, []⟩

/-- Up to the loop, one chunk from the broker, and back to the loop head. -/
private def oneChunk (b : Bytes) : List Input :=
  [.step, .brokerConnect true, .tcp (.data b), .step, .step]

/-- A chunk that just fits. -/
theorem lossless_iff_fits_sample :
    ∃ s os, run (step windowQuiche) (handlerWithRoom 3) (oneChunk [1, 2, 3]) = some (s, os) ∧
      (Lossless SendWindow.accepted os s ↔
        AllSteps (step windowQuiche) (ChunkFits windowQuiche) [] (handlerWithRoom 3)
          (oneChunk [1, 2, 3])) :=
  ⟨_, _, rfl, lossless_iff_fits windowQuiche_law rfl rfl⟩

/-- A window of two bytes cuts a chunk of three short and the handler is back
at its loop head; a shut window ends the handler with `Done`. -/
theorem broker_bytes_lost :
    StreamSendLaw windowQuiche SendWindow.accepted ∧
    (∃ s os, run (step windowQuiche) (handlerWithRoom 2) (oneChunk [1, 2, 3]) = some (s, os) ∧
      s.pc = .select ∧ s.conn.accepted = [1, 2] ∧ brokerBytes os = [1, 2, 3]) ∧
    (∃ s os, run (step windowQuiche) (handlerWithRoom 0)
        [.step, .brokerConnect true, .tcp (.data [1, 2, 3])] = some (s, os) ∧
      s.pc = .returned (.error (.streamSend .done))) :=
  ⟨windowQuiche_law, ⟨_, _, rfl, rfl, rfl, rfl⟩, ⟨_, _, rfl, rfl⟩⟩

end MqttScion.Proxy.QuicMode
