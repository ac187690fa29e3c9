import MqttScion.Proxy.Answers

/-!
# How long the answers are

> `amplification_bounded_iff`: what the handler of a datagram queues is at most
> three times as long as the datagram, exactly when it answers no short Initial
> with a Retry.

A version negotiation repeats the connection IDs, which the Initial carried in
full: it is always within the bound. A Retry adds a token of the proxy's own, and
nothing makes the Initial that asked for it as long as a client's first flight.
-/

namespace MqttScion.Proxy

open MqttScion.Net MqttScion.Lib

variable {K C Q : Type} {p : Env K C Q}

/-- The bytes in a list of packets. -/
def volume : List UdpPacket → Nat
  | [] => 0
  | packet :: es => packet.data.length + volume es

/-- A Retry for an Initial is more than three times as long as it. -/
def Short (hdr : Header) (srcIp : SocketAddr) (buf : Bytes) : Prop :=
  3 * buf.length < 90 + hdr.scid.length + srcIp.ip.octets.length + hdr.dcid.length

instance (hdr : Header) (srcIp : SocketAddr) (buf : Bytes) : Decidable (Short hdr srcIp buf) :=
  inferInstanceAs (Decidable (_ < _))

/-- An Initial of a supported version that carries no token. -/
def AsksRetry (p : Env K C Q) (hdr : Header) : Prop :=
  hdr.ty = .initial ∧ p.quiche.versionIsSupported hdr.version = true ∧ hdr.token = some []

instance (p : Env K C Q) (hdr : Header) : Decidable (AsksRetry p hdr) :=
  inferInstanceAs (Decidable (_ ∧ _ ∧ _))

/-- `main` takes another packet. -/
def State.HasRoom (s : State C Q) : Prop :=
  s.main.rxAlive = true ∧ s.main.queue.length < mainChannelCapacity

/-- The move answers a short Initial with a Retry: it has no token, no entry was
found for it, and `main` has room. -/
def Amplifies (p : Env K C Q) (s : State C Q) (i : Input) : Prop :=
  i = .step ∧ ∃ hdr srcIp src buf, s.pc = .create (.quic hdr srcIp src buf) ∧
    AsksRetry p hdr ∧ Short hdr srcIp buf ∧ s.HasRoom

/-- An Initial that asks for a Retry gets one. -/
theorem handleInitial_asksRetry (law : QuicheServerLaw p.quiche) (size : AnswerSizeLaw p.quiche)
    {hdr : Header} {buf : Bytes} (hparsed : p.quiche.headerFromSlice buf maxConnIdLen = .ok hdr)
    (hasks : AsksRetry p hdr) (quicConfig : C) (srcIp : SocketAddr) :
    ∃ out, (handleInitial p quicConfig hdr srcIp buf).1 =
        .retry out (mintToken p.hmac p.tokenKey hdr srcIp) ∧
      out.length = 90 + hdr.scid.length + srcIp.ip.octets.length + hdr.dcid.length := by
  obtain ⟨-, hsupported, htoken⟩ := hasks
  have hmint := mintToken_length p.hmac p.tokenKey hdr srcIp
  obtain ⟨out, hout⟩ := retry_made law hparsed hsupported srcIp
  refine ⟨out, ?_, ?_⟩
  · simp only [handleInitial, hsupported, htoken, hout]
    rfl
  · have hsize := size.retry _ _ _ _ _ _ (connId_length p hdr.dcid) hout
    omega

theorem respond_volume (s : State C Q) (dst : ScionAddr) (out : Bytes) :
    (s.HasRoom → volume ((s.respond p dst out).main.queue.drop s.main.queue.length) = out.length) ∧
      (¬s.HasRoom → volume ((s.respond p dst out).main.queue.drop s.main.queue.length) = 0) := by
  rw [respond_drop]
  constructor
  · intro hroom
    rw [if_pos (show _ ∧ _ from hroom)]
    exact Nat.add_zero _
  · intro hroom
    rw [if_neg (show ¬(_ ∧ _) from hroom)]
    rfl

/-- What `create` queues for a parsed datagram is within the bound, unless it is
a Retry for a short Initial. -/
theorem create_volume_iff (law : QuicheServerLaw p.quiche) (size : AnswerSizeLaw p.quiche)
    {hdr : Header} {buf : Bytes} (hparsed : p.quiche.headerFromSlice buf maxConnIdLen = .ok hdr)
    (srcIp : SocketAddr) (src : ScionAddr) (s : State C Q) :
    volume ((create p (.quic hdr srcIp src buf) s).1.main.queue.drop s.main.queue.length) ≤
        3 * buf.length ↔
      ¬(AsksRetry p hdr ∧ Short hdr srcIp buf ∧ s.HasRoom) := by
  by_cases hasks : AsksRetry p hdr
  · -- the Retry is queued if there is room
    obtain ⟨out, hverdict, hlen⟩ :=
      handleInitial_asksRetry law size hparsed hasks s.quicConfig srcIp
    obtain ⟨hfits, hdropped⟩ := respond_volume (p := p)
      { s with quicConfig := (handleInitial p s.quicConfig hdr srcIp buf).2 } src out
    simp only [create, if_pos hasks.1, hverdict]
    by_cases hroom : s.HasRoom
    · rw [show volume _ = out.length from hfits hroom, Short]
      constructor
      · rintro hle ⟨-, hshort, -⟩
        omega
      · intro hnot
        by_contra hgt
        exact hnot ⟨hasks, by omega, hroom⟩
    · rw [show volume _ = 0 from hdropped hroom]
      exact ⟨fun _ h => hroom h.2.2, fun _ => Nat.zero_le _⟩
  · refine iff_of_true ?_ fun h => hasks h.1
    have hnone : volume (s.main.queue.drop s.main.queue.length) ≤ 3 * buf.length := by
      rw [List.drop_length]
      exact Nat.zero_le _
    have hexplained := handleInitial_explained (p := p) s.quicConfig hdr srcIp buf
    have hcreated := create_created p (.quic hdr srcIp src buf) s
    generalize create p (.quic hdr srcIp src buf) s = r at hcreated ⊢
    cases hcreated with
    | prepared _ _ _ _ _ _ => exact hnone
    | dropped _ => exact hnone
    | answered quicConfig out _ hty hv =>
      rcases hv with ⟨hv, -⟩ | ⟨token, hv, -⟩
      · -- a version negotiation repeats the IDs of the Initial
        rw [hv] at hexplained
        obtain ⟨token, htoken⟩ :=
          Option.isSome_iff_exists.mp (law.initial_token buf hdr hparsed hty)
        have hlong := size.header buf hdr token hparsed hty htoken
        have hsize := size.negotiateVersion _ _ _ hexplained.2
        obtain ⟨hfits, hdropped⟩ := respond_volume (p := p)
          { s with quicConfig := quicConfig } src out
        by_cases hroom : s.HasRoom
        · rw [show volume _ = out.length from hfits hroom]
          omega
        · rw [show volume _ = 0 from hdropped hroom]
          omega
      · rw [hv] at hexplained
        exact absurd ⟨hty, hexplained.1, hexplained.2.1⟩ hasks
    | failed _ f hty hfail => exact absurd hfail (handleInitial_ne_fail law hparsed hty _ _ f)

/-- The datagram the main loop has in hand, if any, is `data`, and it has a
header. -/
def Pc.InHand (p : Env K C Q) (data : Bytes) : Pc Q → Prop
  | .lookup d | .forward _ d | .create d =>
    ∃ hdr srcIp src, d = .quic hdr srcIp src data ∧
      p.quiche.headerFromSlice data maxConnIdLen = .ok hdr
  | _ => True

/-- Nothing is queued before `create`. -/
def Pc.unanswered : Pc Q → Prop
  | .lookup _ | .create _ => True
  | _ => False

/-- The handler on its way with the datagram `data`. -/
def Answering (p : Env K C Q) (data : Bytes) (es : List UdpPacket) (t : State C Q) : Prop :=
  t.pc.InHand p data ∧ (t.pc.unanswered → es = [])

theorem create_place (data : Bytes) (d : Incoming) (s : State C Q) :
    (create p d s).1.pc.InHand p data ∧ ¬(create p d s).1.pc.unanswered := by
  have hcreated := create_created p d s
  generalize create p d s = r at hcreated ⊢
  cases hcreated with
  | prepared _ _ _ _ _ _ => exact ⟨trivial, id⟩
  | dropped _ => exact ⟨trivial, id⟩
  | answered _ _ _ _ _ => exact ⟨trivial, id⟩
  | failed _ _ _ _ => exact ⟨trivial, id⟩

/-- A move of the main loop that does not touch `main`. -/
theorem answering_of_same {data : Bytes} {t t' : State C Q} {i : Input} {o : List Output}
    {es : List UdpPacket} (hm : mainStep p t i = some (t', o)) (hmain : t'.main = t.main)
    (hplace : Answering p data es t') (hpc : ∀ d, t.pc ≠ .create d) :
    Answering p data (es ++ pushes p t i o) t' ∧
      (volume (es ++ pushes p t i o) ≤ 3 * data.length ↔
        volume es ≤ 3 * data.length ∧ ¬Amplifies p t i) := by
  have hnone : pushes p t i o = [] := by rw [pushes_of_main hm, hmain, List.drop_length]
  have hquiet : ¬Amplifies p t i := by
    rintro ⟨-, hdr, srcIp, src, buf, hcreate, -⟩
    exact hpc _ hcreate
  rw [hnone, List.append_nil]
  exact ⟨hplace, (and_iff_left hquiet).symm⟩

theorem mainStep_answering (law : QuicheServerLaw p.quiche) (size : AnswerSizeLaw p.quiche)
    {data : Bytes} {t t' : State C Q} {i : Input} {o : List Output} {es : List UdpPacket}
    (h : Answering p data es t) (hbusy : t.pc.idle = false)
    (hm : mainStep p t i = some (t', o)) :
    Answering p data (es ++ pushes p t i o) t' ∧
      (volume (es ++ pushes p t i o) ≤ 3 * data.length ↔
        volume es ≤ 3 * data.length ∧ ¬Amplifies p t i) := by
  obtain ⟨hhand, hfresh⟩ := h
  obtain rfl := busy_input hbusy hm
  have hmove := handlerMove_of_busy hbusy hm
  -- only the move from `create` touches `main`
  have hsame : t'.main = t.main → Answering p data es t' → (∀ d, t.pc ≠ .create d) →
      Answering p data (es ++ pushes p t .step o) t' ∧
        (volume (es ++ pushes p t .step o) ≤ 3 * data.length ↔
          volume es ≤ 3 * data.length ∧ ¬Amplifies p t .step) :=
    answering_of_same hm
  generalize hr : (t', o) = r at hmove
  cases hmove with
  | looksUp d hpc =>
    obtain ⟨rfl, rfl⟩ := Prod.mk.inj hr
    rw [hpc] at hhand hfresh
    refine hsame ?_ ⟨?_, fun _ => hfresh trivial⟩ (by simp [hpc])
    · unfold lookup
      split
      · rfl
      · rfl
    · unfold lookup
      split
      · exact hhand
      · exact hhand
  | forwards info d hpc =>
    obtain rfl : t' = (forward p info d t).1 := by rw [← hr]
    refine hsame ?_ ?_ (by simp [hpc])
    · simp only [forward]
      split <;> rfl
    · simp only [forward]
      split <;> exact ⟨trivial, False.elim⟩
  | creates d hpc =>
    rw [hpc] at hhand hfresh
    obtain ⟨hdr, srcIp, src, rfl, hparsed⟩ := hhand
    obtain rfl := hfresh trivial
    have hplace := create_place (p := p) data (.quic hdr srcIp src data) t
    have hvolume := create_volume_iff law size hparsed srcIp src t
    rw [← hr] at hplace hvolume
    rw [List.nil_append, pushes_of_main hm, hvolume]
    refine ⟨⟨hplace.1, fun h => absurd h hplace.2⟩, fun hnot => ⟨Nat.zero_le _, ?_⟩, ?_⟩
    · rintro ⟨-, hdr', srcIp', src', buf', hpc', hamp⟩
      rw [hpc] at hpc'
      obtain ⟨rfl, rfl, rfl, rfl⟩ := Incoming.quic.inj (Pc.create.inj hpc')
      exact hnot hamp
    · exact fun hnot hamp => hnot.2 ⟨rfl, hdr, srcIp, src, data, hpc, hamp⟩
  | inserts origin task hpc =>
    obtain ⟨rfl, rfl⟩ := Prod.mk.inj hr
    exact hsame rfl ⟨trivial, False.elim⟩ (by simp [hpc])
  | spawns task hpc =>
    obtain ⟨rfl, rfl⟩ := Prod.mk.inj hr
    exact hsame rfl ⟨trivial, False.elim⟩ (by simp [hpc])

/-- **Amplification before address validation.** What the handler of a datagram
queues is at most three times as long as the datagram, exactly when it answers no
short Initial with a Retry. -/
theorem amplification_bounded_iff (hmode : p.mode = .quicEndpoint)
    (law : QuicheServerLaw p.quiche) (size : AnswerSizeLaw p.quiche) {data : Bytes}
    {src : ScionAddr} {s s' : State C Q} {is : List Input} {es : List UdpPacket}
    (h : Handles p data src s is s' es) :
    volume es ≤ 3 * data.length ↔
      AllSteps (observe (step p) (pushes p)) (fun _ t i => ¬Amplifies p t i) []
        (recvFrom p data src s) is := by
  refine run_iff_assuming (H := Busy) (J := Answering p data)
    (P := fun es _ => volume es ≤ 3 * data.length) ?_ (Nat.zero_le _) ?_ ?_ h.busy h.ran
  · rcases recvFrom_cases hmode data src s with hsame | ⟨srcIp, hdr, -, hhdr, hstart⟩
    · rw [hsame, Answering, h.start]
      exact ⟨trivial, False.elim⟩
    · rw [hstart]
      exact ⟨⟨hdr, srcIp, src, rfl, hhdr⟩, fun _ => rfl⟩
  · intro os t i t' es ht hbusy hm
    obtain ⟨o, hstep, rfl⟩ := observe_eq_some.mp hm
    rcases step_turn hstep with ⟨hturn, -⟩ | hmain
    · rw [pushes_of_turn hturn, List.append_nil, Answering, hturn.waited.pc]
      exact ht
    · exact (mainStep_answering law size ht hbusy hmain).1
  · intro os t i t' es ht hbusy hm
    obtain ⟨o, hstep, rfl⟩ := observe_eq_some.mp hm
    rcases step_turn hstep with ⟨hturn, -⟩ | hmain
    · have hquiet : ¬Amplifies p t i := by
        rintro ⟨rfl, -⟩
        cases hturn
      rw [pushes_of_turn hturn, List.append_nil]
      exact (and_iff_left hquiet).symm
    · exact (mainStep_answering law size ht hbusy hmain).2

private def reflector : Env Bytes Unit SendWindow where
  hmac := Hmac.ofTable []
  quiche := wireServer fun _ _ => Vector.replicate 16 0
  mode := .quicEndpoint
  mqttBrokerAddress := ⟨.ipv4 127 0 0 1, 1883⟩
  tokenKey := []
  connIdSeed := []
  localScionAddr := ⟨6, .ip (.ipv4 10 0 0 6), 4433⟩
  localAddr := ⟨.ipv4 10 0 0 6, 4433⟩
  localAddr_eq := rfl

/-- An Initial of version 1 with no token and `n` bytes behind its header. -/
private def bareInitial (n : Nat) : Bytes :=
  [0xc0, 0, 0, 0, 1, 8, 1, 2, 3, 4, 5, 6, 7, 8, 0, 0] ++ List.replicate n 0

/-- Whoever the sender says it is. -/
private def victim : ScionAddr := ⟨77, .ip (.ipv4 10 9 9 9), 9⟩

theorem amplification_bounded_iff_sample :
    QuicheServerLaw reflector.quiche ∧ AnswerSizeLaw reflector.quiche ∧
    ∃ s' es, Handles reflector (bareInitial 18) victim (State.init ()) [.step, .step] s' es ∧
      volume es = 102 ∧
      AllSteps (observe (step reflector) (pushes reflector))
        (fun _ t i => ¬Amplifies reflector t i) []
        (recvFrom reflector (bareInitial 18) victim (State.init ())) [.step, .step] := by
  have law : QuicheServerLaw reflector.quiche := wireServer_law fun _ _ => Vector.replicate 16 0
  have size : AnswerSizeLaw reflector.quiche :=
    wireServer_answerSizeLaw fun _ _ => Vector.replicate 16 0
  have h : Handles reflector (bareInitial 18) victim (State.init ()) [.step, .step] _ _ :=
    ⟨rfl, ⟨rfl, fun s o hs => by
      obtain ⟨rfl, rfl⟩ := Prod.mk.inj (Option.some.inj hs)
      exact ⟨rfl, fun _ _ _ => trivial⟩⟩, rfl, rfl⟩
  exact ⟨law, size, _, _, h, by decide, (amplification_bounded_iff rfl law size h).mp (by decide)⟩

/-- Sixteen bytes are answered with a hundred and two. -/
theorem short_initial_amplified :
    QuicheServerLaw reflector.quiche ∧ AnswerSizeLaw reflector.quiche ∧
    (bareInitial 0).length = 16 ∧
    ∃ s' es, Handles reflector (bareInitial 0) victim (State.init ()) [.step, .step] s' es ∧
      ¬volume es ≤ 3 * (bareInitial 0).length := by
  have h : Handles reflector (bareInitial 0) victim (State.init ()) [.step, .step] _ _ :=
    ⟨rfl, ⟨rfl, fun s o hs => by
      obtain ⟨rfl, rfl⟩ := Prod.mk.inj (Option.some.inj hs)
      exact ⟨rfl, fun _ _ _ => trivial⟩⟩, rfl, rfl⟩
  exact ⟨wireServer_law fun _ _ => Vector.replicate 16 0,
    wireServer_answerSizeLaw fun _ _ => Vector.replicate 16 0, rfl, _, _, h, by decide⟩

end MqttScion.Proxy
