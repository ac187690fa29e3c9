import MqttScion.Lib.Observe
import MqttScion.Proxy.QuicMove

/-!
# Who may send through the QUIC proxy

`process_udp_packet` lets stream data through only once the handshake is
complete and the peer has presented a certificate. The branch of the broker
stream has no such gate: what the broker sends is offered to stream 0 in
whatever state the connection is.

> `gated_iff`: in every run, no application byte crosses for a client that has
> not presented a certificate exactly when the broker sends nothing before the
> client has.
-/

namespace MqttScion.Proxy.QuicMode

open MqttScion.Net MqttScion.Lib

variable {Q : Type}

/-- Application bytes crossing the proxy, and whether the client was
authenticated when they did. -/
inductive Crossing
  /-- `write_all` to the broker. -/
  | toBroker (b : Bytes) (authenticated : Bool)
  /-- `stream_send` of the broker's bytes on stream 0. -/
  | toClient (b : Bytes) (authenticated : Bool)
  deriving DecidableEq

def Crossing.authenticated : Crossing → Bool
  | .toBroker _ a => a
  | .toClient _ a => a

/-- The log of the crossings. A `write_all` is called as soon as
`stream_recv` has answered. -/
def crossings (qc : Quiche Q) (s : Connection Q) (i : Input) (_ : List Output) : List Crossing :=
  match s.pc, i with
  | .readStreams (id :: ids), .step =>
    match readStream qc id ids s with
    | ⟨_, conn, _, .writeBroker b _⟩ => [.toBroker b (qc.authenticated conn)]
    | _ => []
  | .select, .tcp (.data b) => [.toClient b (qc.authenticated s.conn)]
  | _, _ => []

/-- The streams are read only for an authenticated client. -/
def Gated (qc : Quiche Q) (s : Connection Q) : Prop :=
  match s.pc with
  | .readStreams _ | .writeBroker _ _ => qc.authenticated s.conn = true
  | _ => True

/-- If the broker sends something, the client is authenticated. -/
def BrokerWaits (qc : Quiche Q) (_ : List Crossing) (s : Connection Q) (i : Input) : Prop :=
  ∀ b, i = .tcp (.data b) → qc.authenticated s.conn = true

variable {qc : Quiche Q} {s s' : Connection Q} {i : Input} {o : List Output}

theorem gated_of_plain {s : Connection Q} (hpc : s.pc.plain = true) : Gated qc s := by
  unfold Gated
  split
  · next heq => rw [heq] at hpc; cases hpc
  · next heq => rw [heq] at hpc; cases hpc
  · trivial

/-- Nothing crosses in a calm move. -/
theorem crossings_calm (hstart : s.pc.plain = true) (hdata : ∀ b, i ≠ .tcp (.data b)) :
    crossings qc s i o = [] := by
  unfold crossings
  split
  · next heq => rw [heq] at hstart; cases hstart
  · next b _ => exact absurd rfl (hdata b)
  · rfl

/-- A step keeps the gate, and what it lets through it lets through for an
authenticated client, unless the broker sent it. -/
theorem step_gated (law : AuthLaw qc) (hg : Gated qc s) (h : step qc s i = some (s', o)) :
    Gated qc s' ∧ ((∀ c ∈ crossings qc s i o, c.authenticated = true) ↔
      ∀ b, i = .tcp (.data b) → qc.authenticated s.conn = true) := by
  -- no step but that of the broker's data is up to the broker
  have hquiet : crossings qc s i o = [] → (∀ b, i ≠ .tcp (.data b)) →
      ((∀ c ∈ crossings qc s i o, c.authenticated = true) ↔
        ∀ b, i = .tcp (.data b) → qc.authenticated s.conn = true) := by
    intro hnil hdata
    rw [hnil]
    exact iff_of_true (by simp) fun b hb => absurd hb (hdata b)
  have hmove := step_move h
  cases hmove with
  | calm hstart hdata _ hpc _ =>
    exact ⟨gated_of_plain hpc, hquiet (crossings_calm hstart hdata) hdata⟩
  | send hstart _ => exact ⟨trivial, hquiet (by simp [crossings, hstart]) (by simp)⟩
  | queued hstart => exact ⟨trivial, hquiet (by simp [crossings, hstart]) (by simp)⟩
  | refused hstart => exact ⟨trivial, hquiet (by simp [crossings, hstart]) (by simp)⟩
  | read hstart hri hcert hest =>
    refine ⟨?_, hquiet (by simp [crossings, hstart]) (by simp)⟩
    show qc.authenticated _ = true
    rw [Quiche.authenticated, hest, hcert]
    rfl
  | drained hstart => exact ⟨trivial, hquiet (by simp [crossings, hstart]) (by simp)⟩
  | panicked hstart htcp hrecv =>
    refine ⟨trivial, hquiet ?_ (by simp)⟩
    simp [crossings, hstart, readStream, hrecv, htcp]
  | @chunk ids b fin hstart htcp hrecv =>
    have hauth : qc.authenticated s.conn = true := by
      rw [Gated, hstart] at hg
      exact hg
    have hauth' := law.authenticated (.streamRecv 0) hauth
    refine ⟨hauth', ?_⟩
    have hlog : crossings qc s .step [] =
        [.toBroker b (qc.authenticated (qc.streamRecv s.conn 0).2)] := by
      simp [crossings, hstart, readStream, hrecv, htcp]
    rw [hlog, List.forall_mem_singleton]
    exact iff_of_true hauth' (by simp)
  | @skip id ids b fin hstart hid hrecv =>
    have hauth : qc.authenticated s.conn = true := by
      rw [Gated, hstart] at hg
      exact hg
    refine ⟨law.authenticated (.streamRecv id) hauth, hquiet ?_ (by simp)⟩
    simp [crossings, hstart, readStream, hrecv, hid]
  | @done id ids e hstart hrecv =>
    have hauth : qc.authenticated s.conn = true := by
      rw [Gated, hstart] at hg
      exact hg
    refine ⟨law.authenticated (.streamRecv id) hauth, hquiet ?_ (by simp)⟩
    simp [crossings, hstart, readStream, hrecv]
  | wrote hstart =>
    rw [Gated, hstart] at hg
    exact ⟨hg, hquiet (by simp [crossings, hstart]) (by simp)⟩
  | failed hstart => exact ⟨trivial, hquiet (by simp [crossings, hstart]) (by simp)⟩
  | @offered b pc hstart htcp hpc =>
    refine ⟨gated_of_plain hpc, ?_⟩
    have hlog : crossings qc s (.tcp (.data b)) [.brokerRead b] =
        [.toClient b (qc.authenticated s.conn)] := by
      simp [crossings, hstart]
    rw [hlog, List.forall_mem_singleton]
    refine ⟨fun hc b' _ => hc, fun hb => hb b rfl⟩

/-- **When the gate is tight**: in every run of the handler, whenever a byte is
written to the broker or one of the broker's is offered to stream 0, the
handshake is complete and the client has presented a certificate, if and only
if the broker's stream yields data only then. -/
theorem gated_iff (law : AuthLaw qc) {config : Config} {conn : Q} {is : List Input}
    {s : Connection Q} {es : List Crossing}
    (hr : run (observe (step qc) (crossings qc)) (Connection.new config conn) is =
      some (s, es)) :
    (∀ c ∈ es, c.authenticated = true) ↔
      AllSteps (observe (step qc) (crossings qc)) (BrokerWaits qc) []
        (Connection.new config conn) is := by
  refine @run_iff _ _ _ _ _ (fun _ s => Gated qc s)
    (fun es _ => ∀ c ∈ es, c.authenticated = true) is es _ s
    (gated_of_plain rfl) (by simp) ?_ ?_ hr
  · intro es s i s' cs hg hm
    obtain ⟨o, hstep, rfl⟩ := observe_eq_some.mp hm
    exact (step_gated law hg hstep).1
  · intro es s i s' cs hg hm
    obtain ⟨o, hstep, rfl⟩ := observe_eq_some.mp hm
    rw [List.forall_mem_append, (step_gated law hg hstep).2]
    rfl

/-- A client's connection: whether its handshake is complete, the data on stream 0
if the client has opened it, and the client's certificate, if it has one. -/
private structure Handshake where
  established : Bool
  stream : Option (List Bytes)
  cert : Option Bytes

/-- The first datagram completes the handshake, and from the second on they are
data on stream 0. Until then that stream takes nothing. -/
private def handshakeQuiche : Quiche Handshake where
  send q := (.error .done, q)
  recv q d _ :=
    if q.established then (.ok d.length, { q with stream := some (q.stream.getD [] ++ [d]) })
    else (.ok d.length, { q with established := true })
  streamSend q _ b _ := if q.stream.isSome then (.ok b.length, q) else (.error (.other 0), q)
  streamRecv q _ :=
    match q.stream with
    | some (chunk :: rest) => (.ok (chunk, false), { q with stream := some rest })
    | _ => (.error .done, q)
  readable q := if (q.stream.getD []).isEmpty then [] else [0]
  close q _ _ _ := (.ok (), q)
  sendAckEliciting q := (.ok (), q)
  onTimeout q := q
  isEstablished q := q.established
  isClosed _ := false
  peerCert q := q.cert

private theorem handshakeQuiche_law : AuthLaw handshakeQuiche where
  isEstablished := by
    intro q q' hcall hq
    cases hcall with
    | recv data ri =>
      simp only [handshakeQuiche]
      split
      · exact hq
      · rfl
    | streamRecv id =>
      simp only [handshakeQuiche]
      split <;> exact hq
    | _ => exact hq
  peerCert := by
    intro q q' hcall hq
    cases hcall with
    | recv data ri =>
      simp only [handshakeQuiche]
      split <;> exact hq
    | streamRecv id =>
      simp only [handshakeQuiche]
      split <;> exact hq
    | _ => exact hq

private def gateConfig : Config := ⟨1, 2, ⟨.ipv4 127 0 0 1, 1883⟩⟩

private def clientDatagram (data : Bytes) : UdpPacket :=
  ⟨⟨2, .ip (.ipv4 10 0 0 1), 4433⟩, ⟨1, .ip (.ipv4 10 0 0 2), 4433⟩, data⟩

/-- A client with a certificate: the broker is connected, the handshake completes,
a byte goes from stream 0 to the broker, and the broker answers. -/
private def guestSpeaks : List Input :=
  [.step, .brokerConnect true, .udp (some (clientDatagram [0])) false, .step, .step, .step,
    .udp (some (clientDatagram [3])) false, .step, .written 1 true, .step, .step, .step, .step,
    .tcp (.data [1, 2])]

/-- A client without one, whose byte on stream 0 is not read. -/
private def strangerSpeaks : List Input :=
  [.step, .brokerConnect true, .udp (some (clientDatagram [0])) false, .step, .step,
    .udp (some (clientDatagram [3])) false, .step, .step, .tcp (.data [1, 2])]

theorem gated_iff_sample :
    ∃ s es, run (observe (step handshakeQuiche) (crossings handshakeQuiche))
        (Connection.new gateConfig ⟨false, none, some [7]⟩) guestSpeaks = some (s, es) ∧
      es = [.toBroker [3] true, .toClient [1, 2] true] ∧
      ((∀ c ∈ es, c.authenticated = true) ↔
        AllSteps (observe (step handshakeQuiche) (crossings handshakeQuiche))
          (BrokerWaits handshakeQuiche) [] (Connection.new gateConfig ⟨false, none, some [7]⟩)
          guestSpeaks) :=
  ⟨_, _, rfl, rfl, @gated_iff _ handshakeQuiche handshakeQuiche_law gateConfig
    ⟨false, none, some [7]⟩ guestSpeaks _ _ rfl⟩

/-- A client that has completed the handshake without a certificate, and opened
stream 0, is sent what the broker says: `stream_send` takes it. -/
theorem broker_bytes_reach_stranger :
    AuthLaw handshakeQuiche ∧
    ∃ s, run (observe (step handshakeQuiche) (crossings handshakeQuiche))
      (Connection.new gateConfig ⟨false, none, none⟩) strangerSpeaks =
        some (s, [.toClient [1, 2] false]) ∧
      handshakeQuiche.peerCert s.conn = none ∧
      (handshakeQuiche.streamSend s.conn 0 [1, 2] false).1 = .ok 2 :=
  ⟨handshakeQuiche_law, _, rfl, rfl, rfl⟩

end MqttScion.Proxy.QuicMode
