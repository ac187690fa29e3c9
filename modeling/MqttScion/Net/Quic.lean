import MqttScion.Net.Packet

/-!
# The QUIC library, as far as it is called

`quiche` is a dependency of the repository, not part of it, so its operations
are a parameter: `Quiche Q` lists the calls made on a connection of state `Q`,
`QuicheServer C Q` the packet-level calls the proxy makes before a connection
exists. Each field has the arguments and the result of the call; a mutable
receiver is passed in and returned.

What a proof needs to know about these calls is a hypothesis with a name.
`StreamSendLaw`: on stream 0, `stream_send` appends a prefix of its argument
and says how long it was, or appends nothing and answers an error, and no
other call adds to what the stream has accepted. `StreamRecvLaw`: `stream_recv`
hands out what has arrived on the stream, in order, and fails only when there is
nothing left. `AuthLaw`: a completed handshake stays complete, and a peer's
certificate stays known. `PathLaw`: datagrams go to addresses that datagrams
came from. `CloseLaw`: a connection that is being closed stays so, and neither
a datagram nor another `close` does anything to it. `OwnCloseLaw`: this side
closes a connection by `close`, or in a `recv` that fails.
-/

namespace MqttScion.Net

/-- `quiche::Error`: `Done`, or any other error by its number. -/
inductive QuicheError
  | done
  | other (code : Nat)
  deriving DecidableEq, Repr

/-- `quiche::RecvInfo`. -/
structure RecvInfo where
  src : SocketAddr
  dst : SocketAddr
  deriving DecidableEq

/-- `quiche::SendInfo`. -/
structure SendInfo where
  src : SocketAddr
  dst : SocketAddr
  deriving DecidableEq

/-- The calls made on a `quiche::Connection`. -/
structure Quiche (Q : Type) where
  /-- `send(&mut [0; MAX_DATAGRAM_SIZE])`: the next datagram to put on the wire. -/
  send : Q → Except QuicheError (Bytes × SendInfo) × Q
  recv : Q → Bytes → RecvInfo → Except QuicheError Nat × Q
  streamSend : Q → Nat → Bytes → Bool → Except QuicheError Nat × Q
  /-- `stream_recv(id, &mut [0; MAX_DATAGRAM_SIZE])`: the bytes read and `fin`. -/
  streamRecv : Q → Nat → Except QuicheError (Bytes × Bool) × Q
  readable : Q → List Nat
  close : Q → Bool → Nat → String → Except QuicheError Unit × Q
  sendAckEliciting : Q → Except QuicheError Unit × Q
  onTimeout : Q → Q
  isEstablished : Q → Bool
  isClosed : Q → Bool
  peerCert : Q → Option Bytes

/-- What stream 0 of a connection has accepted so far, and which call adds to
it. -/
structure StreamSendLaw {Q : Type} (qc : Quiche Q) (accepted : Q → Bytes) : Prop where
  streamSend : ∀ q b,
    (∃ k, k ≤ b.length ∧ (qc.streamSend q 0 b false).1 = .ok k ∧
      accepted (qc.streamSend q 0 b false).2 = accepted q ++ b.take k) ∨
    (∃ e, (qc.streamSend q 0 b false).1 = .error e ∧
      accepted (qc.streamSend q 0 b false).2 = accepted q)
  send : ∀ q, accepted (qc.send q).2 = accepted q
  recv : ∀ q d ri, accepted (qc.recv q d ri).2 = accepted q
  streamRecv : ∀ q id, accepted (qc.streamRecv q id).2 = accepted q
  close : ∀ q app err reason, accepted (qc.close q app err reason).2 = accepted q
  sendAckEliciting : ∀ q, accepted (qc.sendAckEliciting q).2 = accepted q
  onTimeout : ∀ q, accepted (qc.onTimeout q) = accepted q

/-- `q'` is `q` after at most one call other than `stream_send`. -/
inductive Quiche.Call {Q : Type} (qc : Quiche Q) (q : Q) : Q → Prop
  | none : qc.Call q q
  | send : qc.Call q (qc.send q).2
  | recv (data : Bytes) (ri : RecvInfo) : qc.Call q (qc.recv q data ri).2
  | streamRecv (id : Nat) : qc.Call q (qc.streamRecv q id).2
  | sendAckEliciting : qc.Call q (qc.sendAckEliciting q).2
  | onTimeout : qc.Call q (qc.onTimeout q)

theorem StreamSendLaw.call {Q : Type} {qc : Quiche Q} {accepted : Q → Bytes}
    (law : StreamSendLaw qc accepted) {q q' : Q} (h : qc.Call q q') :
    accepted q' = accepted q := by
  cases h with
  | none => rfl
  | send => exact law.send q
  | recv data ri => exact law.recv q data ri
  | streamRecv id => exact law.streamRecv q id
  | sendAckEliciting => exact law.sendAckEliciting q
  | onTimeout => exact law.onTimeout q

/-- Stream 0 has room for all of `b`: its window lets `stream_send` take the
whole buffer at once. -/
def Quiche.Fits {Q : Type} (qc : Quiche Q) (q : Q) (b : Bytes) : Prop :=
  (qc.streamSend q 0 b false).1 = .ok b.length

instance {Q : Type} (qc : Quiche Q) (q : Q) (b : Bytes) : Decidable (qc.Fits q b) := by
  unfold Quiche.Fits
  exact match (qc.streamSend q 0 b false).1 with
    | .error _ => isFalse nofun
    | .ok k => decidable_of_iff (k = b.length) (by simp)

/-- After one `stream_send` the stream has accepted all it was ever given
exactly when it had before and the buffer fitted, or there was nothing to send. -/
theorem StreamSendLaw.accepted_eq_iff {Q : Type} {qc : Quiche Q} {accepted : Q → Bytes}
    (law : StreamSendLaw qc accepted) {q : Q} {b before : Bytes}
    (hle : (accepted q).length ≤ before.length) :
    accepted (qc.streamSend q 0 b false).2 = before ++ b ↔
      accepted q = before ∧ (b = [] ∨ qc.Fits q b) := by
  rcases law.streamSend q b with ⟨k, hk, hok, hacc⟩ | ⟨e, herr, hacc⟩
  · rw [hacc]
    constructor
    · intro heq
      -- with `hle`, the lengths leave room for `k = b.length` only
      have hlen := congrArg List.length heq
      simp only [List.length_append, List.length_take, Nat.min_eq_left hk] at hlen
      have hkb : k = b.length := by omega
      subst hkb
      rw [List.take_length] at heq
      exact ⟨List.append_cancel_right heq, .inr hok⟩
    · rintro ⟨rfl, hb⟩
      have hkb : k = b.length := by
        rcases hb with rfl | hfits
        · exact Nat.le_zero.mp hk
        · rw [Quiche.Fits, hok] at hfits
          exact Except.ok.inj hfits
      rw [hkb, List.take_length]
  · rw [hacc]
    constructor
    · intro heq
      have hlen := congrArg List.length heq
      rw [List.length_append] at hlen
      have hb : b = [] := List.eq_nil_of_length_eq_zero (by omega)
      subst hb
      rw [List.append_nil] at heq
      exact ⟨heq, .inl rfl⟩
    · rintro ⟨rfl, rfl | hfits⟩
      · rw [List.append_nil]
      · rw [Quiche.Fits, herr] at hfits
        cases hfits

/-- What one `stream_send` does to a lossless stream: it stays lossless, and
the call succeeds, exactly when the whole buffer fitted. -/
theorem StreamSendLaw.accepts_all_iff {Q : Type} {qc : Quiche Q} {accepted : Q → Bytes}
    (law : StreamSendLaw qc accepted) {q : Q} {b before : Bytes}
    (hle : (accepted q).length ≤ before.length) :
    accepted (qc.streamSend q 0 b false).2 = before ++ b ∧
        (∃ k, (qc.streamSend q 0 b false).1 = .ok k) ↔
      accepted q = before ∧ qc.Fits q b := by
  rw [law.accepted_eq_iff hle]
  constructor
  · rintro ⟨⟨hbefore, hb⟩, k, hok⟩
    refine ⟨hbefore, hb.elim (fun hnil => ?_) id⟩
    -- nothing was sent, so nothing is what was taken
    rcases law.streamSend q b with ⟨k', hk', hok', -⟩ | ⟨e, herr, -⟩
    · rw [Quiche.Fits, hok', hnil]
      rw [hnil] at hk'
      rw [Nat.le_zero.mp hk']
      rfl
    · rw [herr] at hok
      cases hok
  · rintro ⟨hbefore, hfits⟩
    exact ⟨⟨hbefore, .inr hfits⟩, b.length, hfits⟩

/-- One `stream_send` never accepts more than it was given. -/
theorem StreamSendLaw.accepted_length_le {Q : Type} {qc : Quiche Q} {accepted : Q → Bytes}
    (law : StreamSendLaw qc accepted) (q : Q) (b : Bytes) :
    (accepted (qc.streamSend q 0 b false).2).length ≤ (accepted q).length + b.length := by
  rcases law.streamSend q b with ⟨k, hk, -, hacc⟩ | ⟨e, -, hacc⟩
  · rw [hacc, List.length_append, List.length_take]
    omega
  · rw [hacc]
    omega

/-! ## Reading and authentication -/

/-- Stream 0 toward the application: `received` is what has arrived on it in
order, which in QUIC is a prefix of what the peer sent; `taken` is what
`stream_recv` has handed out; `ready` is what it would hand out next. A reset
stream may lose what is ready. -/
structure StreamRecvLaw {Q : Type} (qc : Quiche Q) (received taken ready : Q → Bytes) : Prop where
  in_order : ∀ q, taken q ++ ready q <+: received q
  streamRecv : ∀ q,
    (∃ b fin, (qc.streamRecv q 0).1 = .ok (b, fin) ∧
      ready q = b ++ ready (qc.streamRecv q 0).2 ∧
      taken (qc.streamRecv q 0).2 = taken q ++ b) ∨
    (∃ e, (qc.streamRecv q 0).1 = .error e ∧ ready q = [] ∧
      ready (qc.streamRecv q 0).2 = [] ∧ taken (qc.streamRecv q 0).2 = taken q)
  streamRecv_other : ∀ q id, id ≠ 0 → ready (qc.streamRecv q id).2 = ready q ∧
    taken (qc.streamRecv q id).2 = taken q
  readable : ∀ q, ready q ≠ [] → 0 ∈ qc.readable q
  taken_recv : ∀ q d ri, taken (qc.recv q d ri).2 = taken q
  taken_send : ∀ q, taken (qc.send q).2 = taken q
  taken_streamSend : ∀ q id b fin, taken (qc.streamSend q id b fin).2 = taken q
  taken_close : ∀ q app err reason, taken (qc.close q app err reason).2 = taken q
  taken_sendAckEliciting : ∀ q, taken (qc.sendAckEliciting q).2 = taken q
  taken_onTimeout : ∀ q, taken (qc.onTimeout q) = taken q

/-- The handshake is complete and the peer has presented a certificate. -/
def Quiche.authenticated {Q : Type} (qc : Quiche Q) (q : Q) : Bool :=
  qc.isEstablished q && (qc.peerCert q).isSome

/-- An established connection stays so, and a peer's certificate stays known. -/
structure AuthLaw {Q : Type} (qc : Quiche Q) : Prop where
  isEstablished : ∀ {q q'}, qc.Call q q' → qc.isEstablished q = true → qc.isEstablished q' = true
  peerCert : ∀ {q q'}, qc.Call q q' → (qc.peerCert q).isSome = true →
    (qc.peerCert q').isSome = true

theorem AuthLaw.authenticated {Q : Type} {qc : Quiche Q} (law : AuthLaw qc) {q q' : Q}
    (hcall : qc.Call q q') (h : qc.authenticated q = true) : qc.authenticated q' = true := by
  unfold Quiche.authenticated at h ⊢
  rw [Bool.and_eq_true] at h ⊢
  exact ⟨law.isEstablished hcall h.1, law.peerCert hcall h.2⟩

/-! ## The addresses of a connection -/

/-- Where a connection may send: `paths` are addresses that `recv` has been told
of, and every datagram goes to one of them. -/
structure PathLaw {Q : Type} (qc : Quiche Q) (paths : Q → List SocketAddr) : Prop where
  send_dst : ∀ {q data info}, (qc.send q).1 = .ok (data, info) → info.dst ∈ paths q
  recv : ∀ q d ri, paths (qc.recv q d ri).2 ⊆ ri.src :: paths q
  send : ∀ q, paths (qc.send q).2 ⊆ paths q
  streamSend : ∀ q id b fin, paths (qc.streamSend q id b fin).2 ⊆ paths q
  streamRecv : ∀ q id, paths (qc.streamRecv q id).2 ⊆ paths q
  close : ∀ q app err reason, paths (qc.close q app err reason).2 ⊆ paths q
  sendAckEliciting : ∀ q, paths (qc.sendAckEliciting q).2 ⊆ paths q
  onTimeout : ∀ q, paths (qc.onTimeout q) ⊆ paths q

/-! ## Closing -/

/-- The life of a connection after `close`. `closing` is what the library calls
closing, draining or closed: it is final, the handshake goes no further in it,
a datagram is taken and ignored, and a second `close` is refused. -/
structure CloseLaw {Q : Type} (qc : Quiche Q) (closing : Q → Prop) : Prop where
  closed : ∀ {q app err reason}, (qc.close q app err reason).1 = .ok () →
    closing (qc.close q app err reason).2
  handshake : ∀ q app err reason,
    qc.isEstablished (qc.close q app err reason).2 = qc.isEstablished q
  close_again : ∀ {q} app err reason, closing q →
    qc.close q app err reason = (.error .done, q)
  recv_ok : ∀ {q} data ri, closing q → ∃ n, (qc.recv q data ri).1 = .ok n
  call : ∀ {q q'}, qc.Call q q' → closing q →
    closing q' ∧ qc.isEstablished q' = qc.isEstablished q ∧ qc.peerCert q' = qc.peerCert q
  streamSend : ∀ {q} id b fin, closing q → closing (qc.streamSend q id b fin).2

/-- `close` starts closing a connection from this side. So does a `recv` that
fails; the other calls do not. -/
structure OwnCloseLaw {Q : Type} (qc : Quiche Q) (closing : Q → Prop) : Prop where
  close : ∀ {q app err reason}, (qc.close q app err reason).1 = .ok () →
    closing (qc.close q app err reason).2
  recv : ∀ {q data ri n}, (qc.recv q data ri).1 = .ok n → closing (qc.recv q data ri).2 → closing q
  send : ∀ {q}, closing (qc.send q).2 → closing q
  streamSend : ∀ {q id b fin}, closing (qc.streamSend q id b fin).2 → closing q
  streamRecv : ∀ {q id}, closing (qc.streamRecv q id).2 → closing q
  sendAckEliciting : ∀ {q}, closing (qc.sendAckEliciting q).2 → closing q
  onTimeout : ∀ {q}, closing (qc.onTimeout q) → closing q

/-! ## A connection that is only a send window -/

/-- The window of stream 0 and what the stream has accepted. -/
structure SendWindow where
  room : Nat
  accepted : Bytes
  deriving DecidableEq

/-- An established connection with nothing to receive and no datagram to send,
whose stream 0 takes what fits its window and answers `Done` when the window
is shut. -/
def windowQuiche : Quiche SendWindow where
  send q := (.error .done, q)
  recv q d _ := (.ok d.length, q)
  streamSend q id b _ :=
    if id ≠ 0 then (.error (.other 0), q)
    else if q.room = 0 then (.error .done, q)
    else (.ok (min q.room b.length),
      ⟨q.room - min q.room b.length, q.accepted ++ b.take (min q.room b.length)⟩)
  streamRecv q _ := (.error .done, q)
  readable _ := []
  close q _ _ _ := (.ok (), q)
  sendAckEliciting q := (.ok (), q)
  onTimeout q := q
  isEstablished _ := true
  isClosed _ := false
  peerCert _ := some []

theorem windowQuiche_law : StreamSendLaw windowQuiche SendWindow.accepted where
  streamSend q b := by
    by_cases hroom : q.room = 0
    · exact .inr ⟨.done, by simp [windowQuiche, hroom], by simp [windowQuiche, hroom]⟩
    · exact .inl ⟨min q.room b.length, Nat.min_le_right _ _, by simp [windowQuiche, hroom],
        by simp [windowQuiche, hroom]⟩
  send _ := rfl
  recv _ _ _ := rfl
  streamRecv _ _ := rfl
  close _ _ _ _ := rfl
  sendAckEliciting _ := rfl
  onTimeout _ := rfl

/-! ## Packet-level calls -/

/-- `quiche::Type`. -/
inductive PacketType
  | initial
  | retry
  | handshake
  | zeroRtt
  | versionNegotiation
  | short
  deriving DecidableEq, Repr

/-- The fields of a `quiche::Header` the proxy reads. -/
structure Header where
  ty : PacketType
  version : UInt32
  dcid : Bytes
  scid : Bytes
  token : Option Bytes
  deriving DecidableEq

/-- `quiche::MAX_CONN_ID_LEN`. -/
def maxConnIdLen : Nat := 20

/-- The calls the proxy makes on a datagram of an unknown connection. `C` is
`quiche::Config`, which `accept` borrows mutably. The output buffer of
`negotiateVersion` and `retry` has `MAX_DATAGRAM_SIZE` bytes. -/
structure QuicheServer (C Q : Type) where
  headerFromSlice : Bytes → Nat → Except QuicheError Header
  versionIsSupported : UInt32 → Bool
  negotiateVersion : Bytes → Bytes → Except QuicheError Bytes
  retry : Bytes → Bytes → Bytes → Bytes → UInt32 → Except QuicheError Bytes
  accept : C → Bytes → Option Bytes → SocketAddr → SocketAddr → Except QuicheError Q × C
  connection : Quiche Q

/-- One flight of the client does not complete the handshake. `early` is a
connection that has processed the client's first datagram and no other. -/
structure FirstFlightLaw {C Q : Type} (qs : QuicheServer C Q) (early : Q → Prop) : Prop where
  first : ∀ {config config' scid odcid localAddr peer q data ri n},
    qs.accept config scid odcid localAddr peer = (.ok q, config') →
    (qs.connection.recv q data ri).1 = .ok n → early (qs.connection.recv q data ri).2
  send : ∀ {q}, early q → early (qs.connection.send q).2
  handshake : ∀ {q}, early q → qs.connection.isEstablished q = false

end MqttScion.Net
