import MqttScion.Net.QuicWire
import MqttScion.Proxy.Dispatch

/-!
# When the main loop survives

`run` returns from four places: the three `?` inside the QUIC handler and the
one behind `socket.send_to`. The first three are unreachable. A parsed Initial
has a token, and neither stateless answer outgrows its buffer, whatever the
connection IDs of the datagram (`handleInitial_ne_fail`). The fourth is not: a
reply that cannot be sent to its destination ends the loop for everybody.

> `running_iff_sent`: in every run the main loop is still running exactly when
> every `send_to` succeeded; the one that fails touches no registration.
-/

namespace MqttScion.Proxy

open MqttScion.Net MqttScion.Lib

variable {K C Q : Type}

/-- The main loop has not returned. -/
def Running (s : State C Q) : Prop := ∀ f, s.pc ≠ .returned f

/-- The datagram carries the header that was read from it. -/
def Incoming.Parsed (p : Env K C Q) : Incoming → Prop
  | .quic hdr _ _ buf => p.quiche.headerFromSlice buf maxConnIdLen = .ok hdr
  | .udp _ _ => True

/-- Every datagram the main loop is handling has been parsed. -/
def PcParsed (p : Env K C Q) : Pc Q → Prop
  | .lookup d => d.Parsed p
  | .forward _ d => d.Parsed p
  | .create d => d.Parsed p
  | _ => True

variable {p : Env K C Q}

theorem mintToken_length (h : Hmac K) (key : K) (hdr : Header) (src : SocketAddr) :
    (mintToken h key hdr src).length = 47 + src.ip.octets.length + hdr.dcid.length := by
  rw [mintToken_eq, List.length_append, tokenData_length, h.sign_length, tokenPrefix_length,
    hmacTagLen]
  omega

/-- There is room for a Retry: a version that is supported has IDs of at most 20
bytes. -/
theorem retry_made (law : QuicheServerLaw p.quiche) {hdr : Header} {buf : Bytes}
    (hparsed : p.quiche.headerFromSlice buf maxConnIdLen = .ok hdr)
    (hsupported : p.quiche.versionIsSupported hdr.version = true) (srcIp : SocketAddr) :
    ∃ out, p.quiche.retry hdr.scid hdr.dcid (connId p hdr.dcid)
      (mintToken p.hmac p.tokenKey hdr srcIp) hdr.version = .ok out := by
  obtain ⟨hdcid, hscid⟩ := law.cid_length_supported buf hdr hparsed hsupported
  have hmint := mintToken_length p.hmac p.tokenKey hdr srcIp
  have hip := IpAddr.octets_length_le srcIp.ip
  refine law.retry_fits hdr.scid hdr.dcid (connId p hdr.dcid)
    (mintToken p.hmac p.tokenKey hdr srcIp) hdr.version hsupported (connId_length p hdr.dcid) ?_
  rw [maxDatagramSize]
  rw [maxConnIdLen] at hdcid hscid
  omega

/-- No Initial makes the handler return an error. -/
theorem handleInitial_ne_fail (law : QuicheServerLaw p.quiche) {hdr : Header} {buf : Bytes}
    (hparsed : p.quiche.headerFromSlice buf maxConnIdLen = .ok hdr) (hty : hdr.ty = .initial)
    (quicConfig : C) (srcIp : SocketAddr) (f : Fault) :
    (handleInitial p quicConfig hdr srcIp buf).1 ≠ .fail f := by
  obtain ⟨hdcid, hscid⟩ := law.cid_length buf hdr hparsed
  unfold handleInitial
  split
  · -- version negotiation: both IDs are at most 255 bytes long
    obtain ⟨out, hout⟩ := law.negotiateVersion_fits hdr.scid hdr.dcid (by
      rw [maxDatagramSize]
      omega)
    rw [hout]
    simp
  · next hsupported =>
    have hversion : p.quiche.versionIsSupported hdr.version = true := by simpa using hsupported
    obtain ⟨token, htoken⟩ := Option.isSome_iff_exists.mp (law.initial_token buf hdr hparsed hty)
    simp only [htoken]
    split
    · obtain ⟨out, hout⟩ := retry_made law hparsed hversion srcIp
      rw [hout]
      simp
    -- whatever the token is, it is validated without a panic
    · obtain ⟨r, hr⟩ := validateToken_ok p.hmac p.tokenKey srcIp token
      rw [hr]
      cases r with
      | none => simp
      | some odcid =>
        simp only
        split
        · simp
        · split
          · simp
          · split <;> simp

theorem recvFrom_parsed {s : State C Q} (hpc : s.pc = .select) (data : Bytes) (src : ScionAddr) :
    PcParsed p (recvFrom p data src s).pc ∧ Running (recvFrom p data src s) := by
  have hselect : PcParsed p s.pc ∧ Running s := by
    refine ⟨by rw [hpc]; trivial, fun f => by rw [hpc]; simp⟩
  unfold recvFrom
  split
  · exact hselect
  · split
    · split
      · exact hselect
      · next hdr hparsed => exact ⟨hparsed, fun f => by simp⟩
    · exact ⟨trivial, fun f => by simp⟩

theorem create_running (law : QuicheServerLaw p.quiche) {d : Incoming} (hparsed : d.Parsed p)
    (s : State C Q) : PcParsed p (create p d s).1.pc ∧ Running (create p d s).1 := by
  have hcreated := create_created p d s
  generalize create p d s = r at hcreated ⊢
  cases hcreated with
  | prepared _ _ _ _ _ _ => exact ⟨trivial, fun f => by simp [State.prepare]⟩
  | dropped _ => exact ⟨trivial, fun f => by simp⟩
  | answered _ _ _ _ _ => exact ⟨trivial, fun f => by simp [State.respond]⟩
  | failed _ f hty hfail => exact absurd hfail (handleInitial_ne_fail law hparsed hty _ _ f)

/-- A move of the main loop ends it exactly when it is a failed send. -/
theorem mainStep_running_iff (law : QuicheServerLaw p.quiche) {s s' : State C Q} {i : Input}
    {o : List Output} (hparsed : PcParsed p s.pc) (h : mainStep p s i = some (s', o)) :
    PcParsed p s'.pc ∧ Running s ∧ (Running s' ↔ i ≠ .sent false) := by
  -- every branch but that of a failed send goes on
  have hrun : ∀ r : State C Q × List Output, some r = some (s', o) →
      PcParsed p r.1.pc ∧ Running r.1 → Running s → i ≠ .sent false →
      PcParsed p s'.pc ∧ Running s ∧ (Running s' ↔ i ≠ .sent false) := by
    intro r heq hr hs hi
    rw [Option.some.inj heq] at hr
    exact ⟨hr.1, hs, fun _ => hi, fun _ => hr.2⟩
  have hrecv : Running s → i ≠ .sent false → recvPacket s = some (s', o) →
      PcParsed p s'.pc ∧ Running s ∧ (Running s' ↔ i ≠ .sent false) := by
    intro hs hi hr
    obtain ⟨packet, main, -, rfl, rfl⟩ := recvPacket_eq_some hr
    exact ⟨trivial, hs, fun _ => hi, fun _ f => by simp⟩
  unfold mainStep at h
  split at h
  · next hpc =>
    split at h
    · exact hrun _ h (recvFrom_parsed hpc _ _) (fun f => by rw [hpc]; simp) (by simp)
    · cases h
  · next hpc => exact hrun _ h ⟨trivial, fun f => by simp⟩ (fun f => by rw [hpc]; simp) (by simp)
  · next hpc => exact hrecv (fun f => by rw [hpc]; simp) (by simp) h
  · next hpc => exact hrecv (fun f => by rw [hpc]; simp) (by simp) h
  · next packet ok hpc =>
    have hs : Running s := fun f => by rw [hpc]; simp
    split at h
    · next hok => exact hrun _ h ⟨trivial, fun f => by simp⟩ hs (by rw [hok]; simp)
    · next hok =>
      obtain ⟨rfl, rfl⟩ := Prod.mk.inj (Option.some.inj h)
      have hfalse : ok = false := by simpa using hok
      refine ⟨trivial, hs, fun hr => absurd rfl (hr .sendTo), fun hi => absurd ?_ hi⟩
      rw [hfalse]
  · next d hpc =>
    rw [hpc] at hparsed
    refine hrun _ h ?_ (fun f => by rw [hpc]; simp) (by simp)
    unfold lookup
    split
    · exact ⟨hparsed, fun f => by simp⟩
    · exact ⟨hparsed, fun f => by simp⟩
  · next hpc =>
    refine hrun _ h ?_ (fun f => by rw [hpc]; simp) (by simp)
    simp only [forward]
    split
    · exact ⟨trivial, fun f => by simp⟩
    · exact ⟨trivial, fun f => by simp⟩
    · exact ⟨trivial, fun f => by simp⟩
  · next d hpc =>
    rw [hpc] at hparsed
    exact hrun _ h (create_running law hparsed s) (fun f => by rw [hpc]; simp) (by simp)
  · next hpc =>
    exact hrun _ h ⟨trivial, fun f => by simp [insert]⟩ (fun f => by rw [hpc]; simp) (by simp)
  · next hpc =>
    exact hrun _ h ⟨trivial, fun f => by simp [spawn]⟩ (fun f => by rw [hpc]; simp) (by simp)
  · cases h

theorem step_running_iff (law : QuicheServerLaw p.quiche) {s s' : State C Q} {i : Input}
    {o : List Output} (hparsed : PcParsed p s.pc) (h : step p s i = some (s', o)) :
    PcParsed p s'.pc ∧ (Running s' ↔ Running s ∧ i ≠ .sent false) := by
  rcases step_cases h with htask | hmain
  · have hsame : Running s' ↔ Running s := by
      unfold Running
      rw [htask.pc]
    rw [htask.pc, hsame]
    exact ⟨hparsed, fun hs => ⟨hs, htask.sent⟩, fun hs => hs.1⟩
  · obtain ⟨hparsed', hs, hiff⟩ := mainStep_running_iff law hparsed hmain
    refine ⟨hparsed', ?_⟩
    rw [hiff]
    exact ⟨fun hi => ⟨hs, hi⟩, fun hi => hi.2⟩

/-- In every run the datagram at hand has been parsed. -/
theorem run_parsed (law : QuicheServerLaw p.quiche) {quicConfig : C} {is : List Input}
    {s : State C Q} {os : List Output}
    (hr : run (step p) (State.init quicConfig) is = some (s, os)) : PcParsed p s.pc := by
  refine @run_induct _ _ _ (step p) (fun _ s => PcParsed p s.pc) is os (State.init quicConfig) s
    trivial ?_ hr
  intro os s i s' o hparsed h
  exact (step_running_iff law hparsed h).1

/-- A send that fails changes no registration, no task and no channel of one. -/
theorem failed_send_undisturbed {s s' : State C Q} {o : List Output}
    (h : step p s (.sent false) = some (s', o)) :
    s'.connections = s.connections ∧ s'.tasks = s.tasks ∧ s'.channels = s.channels ∧
      s'.cancelled = s.cancelled := by
  cases hpc : s.pc with
  | sendTo packet =>
    simp only [step, mainStep, hpc] at h
    obtain ⟨rfl, rfl⟩ := Prod.mk.inj (Option.some.inj h)
    exact ⟨rfl, rfl, rfl, rfl⟩
  | _ => simp [step, mainStep, hpc] at h

/-- **When the main loop survives**: in every run it is still running exactly
when every `socket.send_to` of the run succeeded. Whenever one fails, all
registered connections, their tasks and channels are as before. -/
theorem running_iff_sent (law : QuicheServerLaw p.quiche) {quicConfig : C} {is : List Input}
    {s : State C Q} {os : List Output}
    (hr : run (step p) (State.init quicConfig) is = some (s, os)) :
    (Running s ↔ ∀ i ∈ is, i ≠ .sent false) ∧
    ∀ s' o, step p s (.sent false) = some (s', o) →
      s'.connections = s.connections ∧ s'.tasks = s.tasks ∧ s'.channels = s.channels ∧
        s'.cancelled = s.cancelled := by
  refine ⟨?_, fun s' o h => failed_send_undisturbed h⟩
  have hinputs : AllSteps (step p) (fun _ _ i => i ≠ .sent false) [] (State.init quicConfig) is ↔
      ∀ i ∈ is, i ≠ .sent false := allSteps_input_iff hr
  rw [← hinputs]
  refine @run_iff _ _ _ (step p) (fun _ _ i => i ≠ .sent false) (fun _ s => PcParsed p s.pc)
    (fun _ s => Running s) is os _ s trivial (fun f => by simp [State.init]) ?_ ?_ hr
  · intro os s i s' o hparsed h
    exact (step_running_iff law hparsed h).1
  · intro os s i s' o hparsed h
    exact (step_running_iff law hparsed h).2

private def untagged : Bytes → Bytes → Vector UInt8 16 := fun _ _ => Vector.replicate 16 0

private def endpoint : Env Bytes Unit SendWindow where
  hmac := Hmac.ofTable []
  quiche := wireServer untagged
  mode := .quicEndpoint
  mqttBrokerAddress := ⟨.ipv4 127 0 0 1, 1883⟩
  tokenKey := []
  connIdSeed := []
  localScionAddr := ⟨4, .ip (.ipv4 10 0 0 2), 4433⟩
  localAddr := ⟨.ipv4 10 0 0 2, 4433⟩
  localAddr_eq := rfl

/-- An Initial of version 2 with eight bytes of destination ID, from a source
of the sender's choice, and the version negotiation sent back there. -/
private def unreachableClient (sent : Bool) : List Input :=
  [.recvFrom [0xc0, 0, 0, 0, 2, 8, 1, 2, 3, 4, 5, 6, 7, 8, 0, 0, 0] ⟨77, .ip (.ipv4 10 9 9 9), 9⟩,
    .step, .step, .recvPacket, .sent sent]

theorem running_iff_sent_sample :
    QuicheServerLaw endpoint.quiche ∧
    ∃ s os, run (step endpoint) (State.init ()) (unreachableClient true) = some (s, os) ∧
      (Running s ↔ ∀ i ∈ unreachableClient true, i ≠ .sent false) :=
  ⟨wireServer_law untagged, _, _, rfl,
    (@running_iff_sent Bytes Unit SendWindow endpoint (wireServer_law untagged) ()
      (unreachableClient true) _ _ rfl).1⟩

/-- One datagram whose answer cannot be sent ends the main loop. -/
theorem unreachable_client_ends_run :
    QuicheServerLaw endpoint.quiche ∧
    ∃ s os, run (step endpoint) (State.init ()) (unreachableClient false) = some (s, os) ∧
      s.pc = .returned .sendTo :=
  ⟨wireServer_law untagged, _, _, rfl, rfl⟩

end MqttScion.Proxy
