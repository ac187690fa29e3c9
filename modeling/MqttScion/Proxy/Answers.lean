import MqttScion.Proxy.Handling
import MqttScion.Proxy.Survival

/-!
# What a datagram leaves behind

A datagram in QuicEndpoint mode is answered, forwarded, registered or dropped.
Here is what the handling of one may leave in the registry, among the tasks and
in the channel toward the socket, whatever the tasks do meanwhile.

> `rejected_without_trace`: the handler returns, with `Ok`; and for a datagram
> that matches no entry and does not open a connection, it registers nothing,
> spawns nothing and queues one answer to the sender at most.
-/

namespace MqttScion.Proxy

open MqttScion.Net MqttScion.Lib

variable {K C Q : Type} {p : Env K C Q}

/-! ## What becomes of a datagram -/

/-- The Initial comes to a connection: its version is supported, its ID has the
length of the proxy's own, its token validates for the source, and `quiche`
accepts the connection and processes the packet. -/
def Opens (p : Env K C Q) (quicConfig : C) (hdr : Header) (srcIp : SocketAddr) (buf : Bytes) :
    Prop :=
  p.quiche.versionIsSupported hdr.version = true ∧ hdr.dcid.length = maxConnIdLen ∧
    ∃ token odcid accepted quicConfig' n, hdr.token = some token ∧ token ≠ [] ∧
      validateToken p.hmac p.tokenKey srcIp token = .ok (some odcid) ∧
      p.quiche.accept quicConfig hdr.dcid (some odcid) p.localAddr srcIp =
        (.ok accepted, quicConfig') ∧
      (p.quiche.connection.recv accepted buf ⟨srcIp, p.localAddr⟩).1 = .ok n

/-- `out` answers the Initial: a version negotiation, or a Retry with the token
minted for it. -/
def AnswersInitial (p : Env K C Q) (hdr : Header) (srcIp : SocketAddr) (out : Bytes) : Prop :=
  p.quiche.versionIsSupported hdr.version = false ∧
      p.quiche.negotiateVersion hdr.scid hdr.dcid = .ok out ∨
    p.quiche.versionIsSupported hdr.version = true ∧ hdr.token = some [] ∧
      p.quiche.retry hdr.scid hdr.dcid (connId p hdr.dcid)
        (mintToken p.hmac p.tokenKey hdr srcIp) hdr.version = .ok out

/-- Why a verdict is what it is. -/
def Verdict.Explained (p : Env K C Q) (quicConfig : C) (hdr : Header) (srcIp : SocketAddr)
    (buf : Bytes) : Verdict Q → Prop
  | .fail _ | .drop => True
  | .negotiate out => p.quiche.versionIsSupported hdr.version = false ∧
      p.quiche.negotiateVersion hdr.scid hdr.dcid = .ok out
  | .retry out _ => p.quiche.versionIsSupported hdr.version = true ∧ hdr.token = some [] ∧
      p.quiche.retry hdr.scid hdr.dcid (connId p hdr.dcid)
        (mintToken p.hmac p.tokenKey hdr srcIp) hdr.version = .ok out
  | .register _ _ _ => Opens p quicConfig hdr srcIp buf

/-- Every verdict has its reasons. -/
theorem handleInitial_explained (quicConfig : C) (hdr : Header) (srcIp : SocketAddr)
    (buf : Bytes) :
    (handleInitial p quicConfig hdr srcIp buf).1.Explained p quicConfig hdr srcIp buf := by
  unfold handleInitial
  split
  · next hversion =>
    split
    · trivial
    · next out hout => exact ⟨by simpa using hversion, hout⟩
  · next hversion =>
    have hsupported : p.quiche.versionIsSupported hdr.version = true := by simpa using hversion
    simp only
    split
    · trivial
    · next token htoken =>
      split
      · next hempty =>
        rw [List.isEmpty_iff] at hempty
        subst hempty
        split
        · trivial
        · next out hout => exact ⟨hsupported, htoken, hout⟩
      · next hempty =>
        rw [List.isEmpty_iff] at hempty
        split
        · trivial
        · trivial
        · next odcid hvalid =>
          split
          · trivial
          · next hlen =>
            -- the derived ID is the measure of the length check
            have hlen' : hdr.dcid.length = maxConnIdLen := by
              rw [← not_not.mp hlen, connId_length]
            split
            · trivial
            · next accepted quicConfig' haccept =>
              split
              · trivial
              · next n conn hrecv =>
                exact ⟨hsupported, hlen', token, odcid, accepted, quicConfig', n, htoken, hempty,
                  hvalid, haccept, by rw [hrecv]⟩

/-- A datagram that concerns an entry of the registry, or opens a connection. -/
def Admitted (p : Env K C Q) (s : State C Q) (data : Bytes) (src : ScionAddr) : Prop :=
  ∃ srcIp hdr, src.localAddress = some srcIp ∧
    p.quiche.headerFromSlice data maxConnIdLen = .ok hdr ∧
    ((∃ k ∈ lookupKeys p (.quic hdr srcIp src data), s.connections k ≠ none) ∨
      hdr.ty = .initial ∧ Opens p s.quicConfig hdr srcIp data)

/-- `es` is nothing, or one answer to the sender of the Initial `data`. -/
def AnsweredOnce (p : Env K C Q) (data : Bytes) (src : ScionAddr) (es : List UdpPacket) : Prop :=
  es = [] ∨ ∃ hdr srcIp out, p.quiche.headerFromSlice data maxConnIdLen = .ok hdr ∧
    hdr.ty = .initial ∧ AnswersInitial p hdr srcIp out ∧
    es = [{ src := p.localScionAddr, dst := src, data := out }]

/-- What is queued by the answer to a datagram: the packet, if there is room. -/
theorem respond_drop (s : State C Q) (dst : ScionAddr) (out : Bytes) :
    (s.respond p dst out).main.queue.drop s.main.queue.length =
      if s.main.rxAlive = true ∧ s.main.queue.length < mainChannelCapacity then
        [{ src := p.localScionAddr, dst := dst, data := out }] else [] :=
  s.main.trySend_drop _

/-- What `create` does to a datagram that opens no connection. -/
theorem create_rejected {s : State C Q} {hdr : Header} {srcIp : SocketAddr} (src : ScionAddr)
    {buf : Bytes} (hparsed : p.quiche.headerFromSlice buf maxConnIdLen = .ok hdr)
    (hrejected : ¬(hdr.ty = .initial ∧ Opens p s.quicConfig hdr srcIp buf))
    (law : QuicheServerLaw p.quiche) :
    (create p (.quic hdr srcIp src buf) s).1.pc = .select ∧
      (create p (.quic hdr srcIp src buf) s).1.connections = s.connections ∧
      (create p (.quic hdr srcIp src buf) s).1.tasks = s.tasks ∧
      AnsweredOnce p buf src
        ((create p (.quic hdr srcIp src buf) s).1.main.queue.drop s.main.queue.length) := by
  have hanswer : ∀ (t : State C Q) out, t.main = s.main → hdr.ty = .initial →
      AnswersInitial p hdr srcIp out →
      AnsweredOnce p buf src ((t.respond p src out).main.queue.drop s.main.queue.length) := by
    intro t out hmain hty hout
    rw [← hmain, respond_drop]
    split
    · exact .inr ⟨hdr, srcIp, out, hparsed, hty, hout, rfl⟩
    · exact .inl rfl
  have hnone : AnsweredOnce p buf src (s.main.queue.drop s.main.queue.length) :=
    .inl List.drop_length
  have hexplained := handleInitial_explained (p := p) s.quicConfig hdr srcIp buf
  have hcreated := create_created p (.quic hdr srcIp src buf) s
  generalize create p (.quic hdr srcIp src buf) s = r at hcreated ⊢
  cases hcreated with
  | prepared _ _ _ _ _ hopens =>
    obtain ⟨hty, token, odcid, conn, hv⟩ := hopens _ _ _ _ rfl
    rw [hv] at hexplained
    exact absurd ⟨hty, hexplained⟩ hrejected
  | dropped _ => exact ⟨rfl, rfl, rfl, hnone⟩
  | answered _ out _ hty hv =>
    rcases hv with ⟨hv, -⟩ | ⟨token, hv, -⟩
    · rw [hv] at hexplained
      exact ⟨rfl, rfl, rfl, hanswer _ out rfl hty (.inl hexplained)⟩
    · rw [hv] at hexplained
      exact ⟨rfl, rfl, rfl, hanswer _ out rfl hty (.inr hexplained)⟩
  | failed _ f hty hfail => exact absurd hfail (handleInitial_ne_fail law hparsed hty _ _ f)

/-- `recv_from` returned a datagram: it is dropped, or there is a header to look
up. -/
theorem recvFrom_cases (hmode : p.mode = .quicEndpoint) (data : Bytes) (src : ScionAddr)
    (s : State C Q) :
    recvFrom p data src s = s ∨
      ∃ srcIp hdr, src.localAddress = some srcIp ∧
        p.quiche.headerFromSlice data maxConnIdLen = .ok hdr ∧
        recvFrom p data src s = { s with pc := .lookup (.quic hdr srcIp src data) } := by
  unfold recvFrom
  split
  · exact .inl rfl
  · next srcIp hsrc =>
    rw [hmode]
    simp only
    split
    · exact .inl rfl
    · next hdr hhdr => exact .inr ⟨srcIp, hdr, hsrc, hhdr, rfl⟩

/-- A handler that has nothing to do has returned. -/
theorem Handles.of_idle {data : Bytes} {src : ScionAddr} {s s' : State C Q} {is : List Input}
    {es : List UdpPacket} (h : Handles p data src s is s' es)
    (hsame : recvFrom p data src s = s) : is = [] ∧ s' = s ∧ es = [] := by
  have hbusy := h.busy
  have hran := h.ran
  rw [hsame] at hbusy hran
  cases is with
  | nil =>
    obtain ⟨rfl, rfl⟩ := Prod.mk.inj (Option.some.inj hran)
    exact ⟨rfl, rfl, rfl⟩
  | cons i is =>
    have hidle := hbusy.1
    rw [Busy, h.start] at hidle
    cases hidle

/-! ## The handler returns `Ok` -/

/-- The handler goes on, or is back at the head of the loop. -/
def Pc.handling (pc : Pc Q) : Prop := pc.idle = false ∨ pc = .select

/-- After `create` the handler has returned Ok, or registers. -/
theorem create_handling (law : QuicheServerLaw p.quiche) {d : Incoming} (hparsed : d.Parsed p)
    (s : State C Q) : (create p d s).1.pc.handling := by
  have hcreated := create_created p d s
  generalize create p d s = r at hcreated ⊢
  cases hcreated with
  | prepared _ _ _ _ _ _ => exact .inl rfl
  | dropped _ => exact .inr rfl
  | answered _ _ _ _ _ => exact .inr rfl
  | failed _ f hty hfail => exact absurd hfail (handleInitial_ne_fail law hparsed hty _ _ f)

/-- No move of the handler returns an error. -/
theorem HandlerMove.handling (law : QuicheServerLaw p.quiche) {s : State C Q}
    {r : State C Q × List Output} (hparsed : PcParsed p s.pc) (h : HandlerMove p s r) :
    r.1.pc.handling := by
  cases h with
  | looksUp d hpc =>
    unfold lookup
    split
    · exact .inl rfl
    · exact .inl rfl
  | forwards info d hpc =>
    simp only [forward]
    split <;> exact .inr rfl
  | creates d hpc =>
    rw [hpc] at hparsed
    exact create_handling law hparsed s
  | inserts origin task _ => exact .inl rfl
  | spawns task _ => exact .inr rfl

/-- A move during the handler keeps it going or leads back to the head of the
loop. -/
theorem busy_handling (law : QuicheServerLaw p.quiche) {s s' : State C Q} {i : Input}
    {o : List Output} (hparsed : PcParsed p s.pc) (hbusy : s.pc.idle = false)
    (h : step p s i = some (s', o)) : s'.pc.handling := by
  rcases step_turn h with ⟨hturn, -⟩ | hmain
  · rw [hturn.waited.pc]
    exact .inl hbusy
  · exact (handlerMove_of_busy hbusy hmain).handling law hparsed

/-- A handling ends at the head of the loop. -/
theorem Handles.returns (law : QuicheServerLaw p.quiche) {data : Bytes} {src : ScionAddr}
    {s s' : State C Q} {is : List Input} {es : List UdpPacket}
    (h : Handles p data src s is s' es) : s'.pc = .select := by
  have hstart : PcParsed p (recvFrom p data src s).pc ∧
      (recvFrom p data src s).pc.handling := by
    refine ⟨(recvFrom_parsed h.start data src).1, ?_⟩
    rcases recvFrom_pc (p := p) data src s h.start with hpc | ⟨d, hpc⟩
    · exact .inr hpc
    · rw [hpc]
      exact .inl rfl
  have hend : PcParsed p s'.pc ∧ s'.pc.handling := by
    refine run_induct_of_steps (C := Busy)
      (P := fun _ t => PcParsed p t.pc ∧ t.pc.handling) ?_ hstart h.busy h.ran
    intro os t i t' es ht hbusy hm
    obtain ⟨o, hstep, -⟩ := observe_eq_some.mp hm
    exact ⟨(step_running_iff law ht.1 hstep).1, busy_handling law ht.1 hbusy hstep⟩
  rcases hend.2 with hbusy | hselect
  · rw [h.done] at hbusy
    cases hbusy
  · exact hselect

/-! ## A datagram that opens nothing -/

theorem pushes_of_main {s s' : State C Q} {i : Input} {o : List Output}
    (h : mainStep p s i = some (s', o)) :
    pushes p s i o = s'.main.queue.drop s.main.queue.length := by
  simp only [pushes, h]

/-- A task's turn is not the handler's doing. -/
theorem pushes_of_turn {s s' : State C Q} {i : Input} (h : TaskTurn p s i s')
    (o : List Output) : pushes p s i o = [] := by
  simp only [pushes, mainStep_ofTask p s h.ofTask]

/-- No entry is looked up for the datagram, and it opens no connection. -/
structure Rejected (p : Env K C Q) (s : State C Q) (hdr : Header) (srcIp : SocketAddr)
    (src : ScionAddr) (data : Bytes) : Prop where
  parsed : p.quiche.headerFromSlice data maxConnIdLen = .ok hdr
  unmatched : ∀ k ∈ lookupKeys p (.quic hdr srcIp src data), s.connections k = none
  unopened : ¬(hdr.ty = .initial ∧ Opens p s.quicConfig hdr srcIp data)

/-- The handler on its way with the rejected datagram `d`: nothing is queued
before it has been dropped or answered. -/
def Rejecting (p : Env K C Q) (d : Incoming) (data : Bytes) (src : ScionAddr) (s t : State C Q)
    (es : List UdpPacket) : Prop :=
  TasksMoved s t ∧
    ((t.pc = .lookup d ∨ t.pc = .create d) ∧ t.quicConfig = s.quicConfig ∧ es = [] ∨
      t.pc = .select ∧ AnsweredOnce p data src es)

/-- The handler brings a rejected datagram to its end, and leaves the registry and
the tasks alone. -/
theorem mainStep_rejecting (law : QuicheServerLaw p.quiche) {hdr : Header} {srcIp : SocketAddr}
    {src : ScionAddr} {data : Bytes} {s t t' : State C Q} {i : Input} {o : List Output}
    {es : List UdpPacket} (hrejected : Rejected p s hdr srcIp src data)
    (h : Rejecting p (.quic hdr srcIp src data) data src s t es) (hbusy : t.pc.idle = false)
    (hm : mainStep p t i = some (t', o)) :
    Rejecting p (.quic hdr srcIp src data) data src s t' (es ++ pushes p t i o) ∧
      t'.connections = t.connections ∧ t'.tasks = t.tasks := by
  rw [pushes_of_main hm]
  obtain ⟨hmoved, ⟨hplace, hconfig, rfl⟩ | ⟨hselect, -⟩⟩ := h
  · rcases hplace with hlookup | hcreate
    · -- an entry that was not there when the datagram came is not there now
      have hnone : (lookupKeys p (.quic hdr srcIp src data)).findSome? t.connections = none := by
        rw [List.findSome?_eq_none_iff]
        intro k hk
        rcases hmoved.connections k with hsame | ⟨hgone, -⟩
        · rw [hsame]
          exact hrejected.unmatched k hk
        · exact hgone
      obtain rfl := busy_input hbusy hm
      simp only [mainStep, hlookup, lookup, hnone, Option.some.injEq, Prod.mk.injEq] at hm
      obtain ⟨rfl, rfl⟩ := hm
      refine ⟨⟨hmoved.trans (.of_same rfl rfl), .inl ⟨.inr rfl, hconfig, ?_⟩⟩, rfl, rfl⟩
      show [] ++ t.main.queue.drop t.main.queue.length = []
      rw [List.drop_length, List.append_nil]
    · obtain rfl := busy_input hbusy hm
      simp only [mainStep, hcreate, Option.some.injEq] at hm
      have hunopened := hrejected.unopened
      rw [← hconfig] at hunopened
      obtain ⟨hpc, hconn, htasks, hanswer⟩ :=
        create_rejected src hrejected.parsed hunopened law
      rw [hm] at hpc hconn htasks hanswer
      rw [List.nil_append]
      exact ⟨⟨hmoved.trans (.of_same htasks hconn), .inr ⟨hpc, hanswer⟩⟩, hconn, htasks⟩
  · rw [hselect] at hbusy
    cases hbusy

/-- A task's turn changes nothing about a rejected datagram. -/
theorem taskTurn_rejecting {d : Incoming} {src : ScionAddr} {data : Bytes} {s t t' : State C Q}
    {i : Input} {es : List UdpPacket} (h : Rejecting p d data src s t es)
    (hturn : TaskTurn p t i t') (o : List Output) :
    Rejecting p d data src s t' (es ++ pushes p t i o) := by
  have hwaited := hturn.waited
  have hplace := h.2
  rw [← hwaited.pc, ← hwaited.quicConfig] at hplace
  rw [pushes_of_turn hturn, List.append_nil]
  exact ⟨h.1.trans hturn.tasksMoved, hplace⟩

/-- What the handling of a datagram may leave behind when it opens nothing. -/
structure NoTrace (p : Env K C Q) (data : Bytes) (src : ScionAddr) (s : State C Q)
    (is : List Input) (s' : State C Q) (es : List UdpPacket) : Prop where
  /-- Nothing is registered or spawned. -/
  moved : TasksMoved s s'
  /-- While no task moves, registry and tasks are as they were. -/
  alone : (∀ i ∈ is, i.ofTask = false) → s'.connections = s.connections ∧ s'.tasks = s.tasks
  answers : AnsweredOnce p data src es

/-- A handling of a rejected datagram leaves no trace but its answer. -/
theorem noTrace_of_rejected (law : QuicheServerLaw p.quiche) {hdr : Header} {srcIp : SocketAddr}
    {src : ScionAddr} {data : Bytes} {s s' : State C Q} {is : List Input} {es : List UdpPacket}
    (hrejected : Rejected p s hdr srcIp src data)
    (hstart : recvFrom p data src s = { s with pc := .lookup (.quic hdr srcIp src data) })
    (h : Handles p data src s is s' es) : NoTrace p data src s is s' es := by
  have hbusy := h.busy
  have hran := h.ran
  rw [hstart] at hbusy hran
  have hfirst : Rejecting p (.quic hdr srcIp src data) data src s
      { s with pc := .lookup (.quic hdr srcIp src data) } [] :=
    ⟨.of_same rfl rfl, .inl ⟨.inl rfl, rfl, rfl⟩⟩
  have hlast : Rejecting p (.quic hdr srcIp src data) data src s s' es := by
    refine run_induct_of_steps (C := Busy)
      (P := fun os t => Rejecting p (.quic hdr srcIp src data) data src s t os) ?_ hfirst hbusy hran
    intro os t i t' es ht hb hm
    obtain ⟨o, hstep, rfl⟩ := observe_eq_some.mp hm
    rcases step_turn hstep with ⟨hturn, rfl⟩ | hmain
    · exact taskTurn_rejecting ht hturn []
    · exact (mainStep_rejecting law hrejected ht hb hmain).1
  refine ⟨hlast.1, fun hmain => ?_, ?_⟩
  · refine (run_induct_of_steps (C := fun os t i => Busy os t i ∧ i.ofTask = false)
      (P := fun os t => Rejecting p (.quic hdr srcIp src data) data src s t os ∧
        t.connections = s.connections ∧ t.tasks = s.tasks) ?_ ⟨hfirst, rfl, rfl⟩
      (hbusy.and ((allSteps_input_iff hran).mpr hmain)) hran).2
    intro os t i t' es ht hb hm
    obtain ⟨o, hstep, rfl⟩ := observe_eq_some.mp hm
    rw [step_of_main p t hb.2] at hstep
    obtain ⟨hnext, hconn, htasks⟩ := mainStep_rejecting law hrejected ht.1 hb.1 hstep
    exact ⟨hnext, hconn.trans ht.2.1, htasks.trans ht.2.2⟩
  · rcases hlast.2 with ⟨-, -, rfl⟩ | ⟨-, hanswers⟩
    · exact .inl rfl
    · exact hanswers

/-- **A rejected datagram leaves no trace.** For every datagram, and whatever
the tasks do meanwhile, the handler returns with `Ok`; and when no entry matches
and the datagram does not open a connection, nothing is registered or spawned
and one answer at most is queued. -/
theorem rejected_without_trace (hmode : p.mode = .quicEndpoint) (law : QuicheServerLaw p.quiche)
    {s : State C Q} (hselect : s.pc = .select) {data : Bytes}
    (hlen : data.length ≤ udpPacketBufferSize) (src : ScionAddr) :
    (∃ n s' es, Handles p data src s (List.replicate n .step) s' es) ∧
      ∀ is s' es, Handles p data src s is s' es →
        s'.pc = .select ∧ (¬Admitted p s data src → NoTrace p data src s is s' es) := by
  constructor
  · exact handles_exists hselect hlen src
  · intro is s' es h
    refine ⟨h.returns law, fun hnot => ?_⟩
    rcases recvFrom_cases hmode data src s with hsame | ⟨srcIp, hdr, hsrc, hhdr, hstart⟩
    · obtain ⟨rfl, rfl, rfl⟩ := h.of_idle hsame
      exact ⟨.of_same rfl rfl, fun _ => ⟨rfl, rfl⟩, .inl rfl⟩
    · refine noTrace_of_rejected law ⟨hhdr, fun k hk => ?_, fun hopens => ?_⟩ hstart h
      · by_contra hne
        exact hnot ⟨srcIp, hdr, hsrc, hhdr, .inl ⟨k, hk, hne⟩⟩
      · exact hnot ⟨srcIp, hdr, hsrc, hhdr, .inr hopens⟩

private def answerer : Env Bytes Unit SendWindow where
  hmac := Hmac.ofTable []
  quiche := wireServer fun _ _ => Vector.replicate 16 0
  mode := .quicEndpoint
  mqttBrokerAddress := ⟨.ipv4 127 0 0 1, 1883⟩
  tokenKey := []
  connIdSeed := []
  localScionAddr := ⟨5, .ip (.ipv4 10 0 0 5), 4433⟩
  localAddr := ⟨.ipv4 10 0 0 5, 4433⟩
  localAddr_eq := rfl

/-- An Initial of version 2: no connection can come of it. -/
private def foreignInitial : Bytes := [0xc0, 0, 0, 0, 2, 8, 1, 2, 3, 4, 5, 6, 7, 8, 0, 0, 0]

theorem rejected_without_trace_sample :
    QuicheServerLaw answerer.quiche ∧ foreignInitial.length ≤ udpPacketBufferSize ∧
    ∃ s' es, Handles answerer foreignInitial ⟨77, .ip (.ipv4 10 9 9 9), 9⟩ (State.init ())
        [.step, .step] s' es ∧
      NoTrace answerer foreignInitial ⟨77, .ip (.ipv4 10 9 9 9), 9⟩ (State.init ())
        [.step, .step] s' es ∧ es ≠ [] := by
  have h : Handles answerer foreignInitial ⟨77, .ip (.ipv4 10 9 9 9), 9⟩ (State.init ())
      [.step, .step] _ _ :=
    ⟨rfl, ⟨rfl, fun s o hs => by
      obtain ⟨rfl, rfl⟩ := Prod.mk.inj (Option.some.inj hs)
      exact ⟨rfl, fun _ _ _ => trivial⟩⟩, rfl, rfl⟩
  have law : QuicheServerLaw answerer.quiche := wireServer_law fun _ _ => Vector.replicate 16 0
  refine ⟨law, by decide, _, _, h,
    ((rejected_without_trace rfl law rfl (by decide) _).2 _ _ _ h).2 ?_, by decide⟩
  rintro ⟨srcIp, hdr, hsrc, hhdr, ⟨k, hk, hentry⟩ | ⟨hty, hopens⟩⟩
  · exact hentry rfl
  · obtain rfl := Except.ok.inj hhdr
    exact absurd hopens.1 (by decide)

end MqttScion.Proxy
