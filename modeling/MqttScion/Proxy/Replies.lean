import MqttScion.Lib.Observe
import MqttScion.Proxy.QuicMove
import MqttScion.Proxy.RetryComplete

/-!
# Where the replies of the QUIC proxy go

Datagrams reach a connection by connection ID, from any SCION address. The
library sees their IP addresses only, and picks one of them for each reply; the
handler puts the ISD-AS back that the connection was created with. So a reply
goes to the IP address of some source under the ISD-AS of the first, and that
need not be an address anything came from.

The library may pick the latest source every time, so what decides is the list
of sources alone. `Homed` says of a list that every source outside the first
ISD-AS has the host and port of an earlier source inside it.

> `replies_heard_iff`: with sources in this order, no run of the connection
> queues a reply to an address that was not heard from, if and only if the list
> is homed.
-/

namespace MqttScion.Proxy.QuicMode

open MqttScion.Net MqttScion.Lib

variable {Q : Type}

/-! ## The property and the condition -/

/-- What a connection hears and answers. -/
inductive Reply
  | heard (src : ScionAddr)
  | queued (dst : ScionAddr)
  deriving DecidableEq

/-- The source a step hears. -/
def Input.source : Input → List ScionAddr
  | .udp (some packet) _ => [packet.src]
  | _ => []

/-- The address a step queues a reply to. -/
def Output.replyTo : Output → Option ScionAddr
  | .queued packet => some packet.dst
  | _ => none

/-- The log of a handler: the sources of its datagrams and the addresses of its
replies. -/
def replies (_ : Connection Q) (i : Input) (o : List Output) : List Reply :=
  i.source.map .heard ++ (o.filterMap Output.replyTo).map .queued

def heardFrom (es : List Reply) : List ScionAddr :=
  es.filterMap fun e => match e with
    | .heard src => some src
    | .queued _ => none

@[simp] theorem heardFrom_append (es fs : List Reply) :
    heardFrom (es ++ fs) = heardFrom es ++ heardFrom fs := List.filterMap_append

/-- A reply goes to an address the connection has heard from, the first being
that of the datagram that created it. -/
def Answered (first : ScionAddr) (pre : List Reply) : Reply → Prop
  | .queued dst => dst ∈ first :: heardFrom pre
  | .heard _ => True

/-- Every source is in the ISD-AS, or has the host and port of an earlier source
that is. -/
def Homed (isdAs : IsdAsn) (srcs : List ScionAddr) : Prop :=
  LogAll (fun pre src => src.isdAsn = isdAs ∨ { src with isdAsn := isdAs } ∈ pre) srcs

/-- No connection created for `first` that then hears `srcs` queues a reply to
an address it has not heard from. -/
def AnswersHeard (first : ScionAddr) (srcs : List ScionAddr) : Prop :=
  ∀ (K C Q : Type) (p : Env K C Q) (paths : Q → List SocketAddr),
    PathLaw p.quiche.connection paths →
    (∀ quicConfig scid odcid localAddr peer conn quicConfig',
      p.quiche.accept quicConfig scid odcid localAddr peer = (.ok conn, quicConfig') →
        paths conn ⊆ [peer]) →
    ∀ hdr firstIp buf s₀ origin task c is s es, first.localAddress = some firstIp →
      (create p (.quic hdr firstIp first buf) s₀).1.pc = .insert origin task →
      task.session = .quic c →
      run (observe (step p.quiche.connection) replies) c is = some (s, es) →
      heardFrom es = srcs → LogAll (Answered first) es

/-! ## Replies to homed sources -/

/-- The reply addresses at hand have been heard from. -/
structure Addressed (isdAs : IsdAsn) (paths : Q → List SocketAddr) (heard : List ScionAddr)
    (s : Connection Q) : Prop where
  config_eq : s.config.remoteIsdAs = isdAs
  paths : ∀ a ∈ paths s.conn, ScionAddr.fromStd isdAs a ∈ heard
  queue : ∀ l packet, s.pc = .queue l packet → packet.dst ∈ heard

variable {qc : Quiche Q} {paths : Q → List SocketAddr} {s s' : Connection Q} {i : Input}
  {o : List Output} {isdAs : IsdAsn} {heard : List ScionAddr}

/-- The address of a SCION source, put back under an ISD-AS. -/
theorem fromStd_localAddress {src : ScionAddr} {a : SocketAddr}
    (h : src.localAddress = some a) (isdAs : IsdAsn) :
    ScionAddr.fromStd isdAs a = { src with isdAsn := isdAs } := by
  obtain ⟨isdAsn, host, port⟩ := src
  cases host with
  | ip ip =>
    obtain rfl := Option.some.inj h
    rfl
  | svc service => cases h

/-- The `RecvInfo` has the address of the source. -/
theorem recvInfo_src {packet : UdpPacket} {ri : RecvInfo} (h : recvInfo packet = some ri) :
    packet.src.localAddress = some ri.src := by
  unfold recvInfo at h
  split at h
  · next hsrc hdst =>
    obtain rfl := Option.some.inj h
    exact hsrc
  · cases h

/-- The log hears whom the input comes from. -/
theorem heardFrom_replies (s : Connection Q) (i : Input) (o : List Output) :
    heardFrom (replies s i o) = i.source := by
  have hheard : ∀ srcs : List ScionAddr, heardFrom (srcs.map .heard) = srcs := by
    intro srcs
    rw [heardFrom, List.filterMap_map]
    exact List.filterMap_some
  have hqueued : ∀ dsts : List ScionAddr, heardFrom (dsts.map .queued) = [] := by
    intro dsts
    rw [heardFrom, List.filterMap_map]
    exact List.filterMap_eq_nil_iff.mpr fun _ _ => rfl
  rw [replies, heardFrom_append, hheard, hqueued, List.append_nil]

/-- The log has the destination of every packet that is queued. -/
theorem queued_mem_replies {dst : ScionAddr} :
    .queued dst ∈ replies s i o ↔ ∃ packet, .queued packet ∈ o ∧ packet.dst = dst := by
  simp only [replies, List.mem_append, List.mem_map, reduceCtorEq, and_false, exists_false,
    false_or, Reply.queued.injEq, exists_eq_right, List.mem_filterMap]
  constructor
  · rintro ⟨out, hmem, hout⟩
    cases out with
    | queued packet => exact ⟨packet, hmem, Option.some.inj hout⟩
    | _ => cases hout
  · rintro ⟨packet, hmem, rfl⟩
    exact ⟨_, hmem, rfl⟩

/-- The input tells the connection of an address. -/
def Input.Tells (i : Input) (a : SocketAddr) : Prop :=
  ∃ src ∈ i.source, src.localAddress = some a

/-- A `recv` adds the address it is told of to the paths, and no other. -/
theorem Received.told (law : PathLaw qc paths) {q q' : Q} (h : Received qc i q q') {a : SocketAddr}
    (ha : a ∈ paths q') : a ∈ paths q ∨ i.Tells a := by
  cases h with
  | nothing => exact .inl ha
  | @recv packet certOverdue ri hi hri =>
    rcases List.mem_cons.mp (law.recv q packet.data ri ha) with rfl | hold
    · refine .inr ⟨packet.src, ?_, recvInfo_src hri⟩
      rw [hi]
      exact List.mem_singleton.mpr rfl
    · exact .inl hold

/-- The calls of a calm move learn no address but the datagram's. -/
theorem CalmCall.told (law : PathLaw qc paths) {q q' : Q} (h : CalmCall qc i q q') {a : SocketAddr}
    (ha : a ∈ paths q') : a ∈ paths q ∨ i.Tells a := by
  cases h with
  | received hr => exact hr.told law ha
  | closed app err reason hr => exact hr.told law (law.close _ app err reason ha)
  | send => exact .inl (law.send q ha)
  | sendAckEliciting => exact .inl (law.sendAckEliciting q ha)
  | onTimeout => exact .inl (law.onTimeout q ha)

/-- A move that makes no packet, and learns no address but that of a homed
source. -/
theorem Addressed.goto (h : Addressed isdAs paths heard s)
    (hhome : ∀ src ∈ i.source, src.isdAsn = isdAs ∨ { src with isdAsn := isdAs } ∈ heard)
    {conn : Q} (tcpStream : Bool) {pc : Pc}
    (hconn : ∀ a ∈ paths conn, a ∈ paths s.conn ∨ i.Tells a)
    (hpc : ∀ l packet, pc = .queue l packet → packet.dst ∈ heard) :
    Addressed isdAs paths (heard ++ i.source)
      { s with conn := conn, tcpStream := tcpStream, pc := pc } := by
  refine ⟨h.config_eq, fun a ha => ?_,
    fun l packet heq => List.mem_append_left _ (hpc l packet heq)⟩
  rcases hconn a ha with hold | ⟨src, hsrc, hlocal⟩
  · exact List.mem_append_left _ (h.paths a hold)
  · rw [fromStd_localAddress hlocal]
    rcases hhome src hsrc with rfl | hheard
    · exact List.mem_append_right _ hsrc
    · exact List.mem_append_left _ hheard

theorem not_queue_of_plain {pc : Pc} (h : pc.plain = true) (l : SendLoop) (packet : UdpPacket) :
    pc ≠ .queue l packet := by
  rintro rfl
  cases h

/-- **A step that hears a homed source** answers to what was heard, and keeps it
so. -/
theorem step_addressed (law : PathLaw qc paths) (h : Addressed isdAs paths heard s)
    (hhome : ∀ src ∈ i.source, src.isdAsn = isdAs ∨ { src with isdAsn := isdAs } ∈ heard)
    (hstep : step qc s i = some (s', o)) :
    Addressed isdAs paths (heard ++ i.source) s' ∧
      ∀ packet, .queued packet ∈ o → packet.dst ∈ heard := by
  have hmove := step_move hstep
  cases hmove with
  | @calm i conn tcpStream pc o hstart hdata hcall hpc ho =>
    refine ⟨h.goto hhome tcpStream (fun a ha => hcall.told law ha)
      fun l packet heq => absurd heq (not_queue_of_plain hpc l packet), fun packet hmem => ?_⟩
    rcases ho with rfl | ⟨code, rfl⟩
    · cases hmem
    · simp at hmem
  | @send l data info hstart hsend =>
    refine ⟨h.goto hhome s.tcpStream (fun a ha => .inl (law.send s.conn ha)) ?_, by simp⟩
    intro l' packet heq
    obtain ⟨-, rfl⟩ := Pc.queue.inj heq
    show ScionAddr.fromStd s.config.remoteIsdAs info.dst ∈ heard
    rw [h.config_eq]
    exact h.paths info.dst (law.send_dst hsend)
  | @queued l packet hstart =>
    refine ⟨h.goto hhome s.tcpStream (fun a ha => .inl ha) (by simp), fun packet' hmem => ?_⟩
    rw [Output.queued.inj (List.mem_singleton.mp hmem)]
    exact h.queue l packet hstart
  | refused hstart =>
    exact ⟨h.goto hhome s.tcpStream (fun a ha => .inl ha) (by simp), by simp⟩
  | @read packet certOverdue ri hstart hri hcert hest =>
    refine ⟨h.goto hhome s.tcpStream (fun a ha => ?_) (by simp), by simp⟩
    exact (Received.recv rfl hri).told law ha
  | drained hstart =>
    exact ⟨h.goto hhome s.tcpStream (fun a ha => .inl ha) (by simp), by simp⟩
  | chunk hstart htcp hrecv =>
    exact ⟨h.goto hhome s.tcpStream (fun a ha => .inl (law.streamRecv s.conn 0 ha)) (by simp),
      by simp⟩
  | panicked hstart htcp hrecv =>
    exact ⟨h.goto hhome s.tcpStream (fun a ha => .inl (law.streamRecv s.conn 0 ha)) (by simp),
      by simp⟩
  | @skip id ids b fin hstart hid hrecv =>
    exact ⟨h.goto hhome s.tcpStream (fun a ha => .inl (law.streamRecv s.conn id ha)) (by simp),
      by simp⟩
  | @done id ids e hstart hrecv =>
    exact ⟨h.goto hhome s.tcpStream (fun a ha => .inl (law.streamRecv s.conn id ha)) (by simp),
      by simp⟩
  | wrote hstart =>
    exact ⟨h.goto hhome s.tcpStream (fun a ha => .inl ha) (by simp), by simp⟩
  | failed hstart =>
    exact ⟨h.goto hhome s.tcpStream (fun a ha => .inl ha) (by simp), by simp⟩
  | @offered b pc hstart htcp hpc =>
    refine ⟨h.goto hhome s.tcpStream (fun a ha => .inl (law.streamSend s.conn 0 b false ha))
      fun l packet heq => absurd heq (not_queue_of_plain hpc l packet), by simp⟩

/-- **In every run whose sources are homed**, every reply goes to an address
that was heard from. -/
theorem run_answered (law : PathLaw qc paths) {first : ScionAddr} {c : Connection Q}
    {is : List Input} {es : List Reply} (h₀ : Addressed isdAs paths [first] c)
    (hr : run (observe (step qc) replies) c is = some (s, es))
    (hhome : Homed isdAs (first :: heardFrom es)) : LogAll (Answered first) es := by
  have hrun : Homed isdAs (first :: heardFrom es) →
      Addressed isdAs paths (first :: heardFrom es) s ∧ LogAll (Answered first) es := by
    refine @run_induct _ _ _ (observe (step qc) replies)
      (fun es s => Homed isdAs (first :: heardFrom es) →
        Addressed isdAs paths (first :: heardFrom es) s ∧ LogAll (Answered first) es)
      is es c s (fun _ => ⟨h₀, logAll_nil _⟩) ?_ hr
    intro es s i s' fs ih hm hhomed
    obtain ⟨o, hstep, rfl⟩ := observe_eq_some.mp hm
    rw [heardFrom_append, heardFrom_replies, ← List.cons_append] at hhomed ⊢
    obtain ⟨hbefore, hsource⟩ := logAll_append.mp hhomed
    obtain ⟨haddr, hlog⟩ := ih hbefore
    -- a step hears at most one source
    have hhome : ∀ src ∈ i.source, src.isdAsn = isdAs ∨
        { src with isdAsn := isdAs } ∈ first :: heardFrom es := by
      intro src hsrc
      have hone : i.source = [src] := by
        unfold Input.source at hsrc ⊢
        split at hsrc
        · rw [List.mem_singleton.mp hsrc]
        · cases hsrc
      rw [hone, logAll_singleton, List.append_nil] at hsource
      exact hsource
    obtain ⟨haddr', hqueued⟩ := step_addressed law haddr hhome hstep
    refine ⟨haddr', logAll_append.mpr ⟨hlog, fun pre x post hpre => ?_⟩⟩
    cases x with
    | heard src => trivial
    | queued dst =>
      obtain ⟨packet, hmem, rfl⟩ := queued_mem_replies.mp
        (show Reply.queued dst ∈ replies s i o by rw [hpre]; simp)
      have hheard := hqueued packet hmem
      show packet.dst ∈ first :: heardFrom (es ++ pre)
      rw [heardFrom_append, ← List.cons_append]
      exact List.mem_append_left _ hheard
  exact (hrun hhome).2

/-- The sources of a created connection, if homed, are answered. -/
theorem answersHeard_of_homed {first : ScionAddr} {srcs : List ScionAddr}
    (hhome : Homed first.isdAsn (first :: srcs)) : AnswersHeard first srcs := by
  intro K C Q p paths law hnew hdr firstIp buf s₀ origin task c is s es hfirst hcreate hc hr hsrcs
  obtain ⟨odcid, accepted, quicConfig, haccept, rfl⟩ := create_session hcreate hc
  have h₀ : Addressed first.isdAsn paths [first]
      (Connection.new ⟨p.localScionAddr.isdAsn, first.isdAsn, p.mqttBrokerAddress⟩
        (p.quiche.connection.recv accepted buf ⟨firstIp, p.localAddr⟩).2) := by
    refine ⟨rfl, fun a ha => ?_, fun l packet hpc => by cases hpc⟩
    -- the connection was accepted for the first source, and has heard only it
    have hone : a = firstIp := by
      rcases List.mem_cons.mp (law.recv accepted buf ⟨firstIp, p.localAddr⟩ ha) with heq | hold
      · exact heq
      · exact List.mem_singleton.mp (hnew _ _ _ _ _ _ _ haccept hold)
    rw [hone, fromStd_localAddress hfirst]
    exact List.mem_singleton.mpr rfl
  rw [← hsrcs] at hhome
  exact run_answered law h₀ hr hhome

/-! ## A client that is answered where it was last heard -/

/-- A connection that answers every datagram once, at its source. -/
private def echoQuiche : Quiche (Option SocketAddr) where
  send q := match q with
    | some a => (.ok ([0], ⟨⟨.ipv4 10 0 0 2, 4433⟩, a⟩), none)
    | none => (.error .done, none)
  recv _ d ri := (.ok d.length, some ri.src)
  streamSend q _ b _ := (.ok b.length, q)
  streamRecv q _ := (.error .done, q)
  readable _ := []
  close q _ _ _ := (.ok (), q)
  sendAckEliciting q := (.ok (), q)
  onTimeout q := q
  isEstablished _ := false
  isClosed _ := false
  peerCert _ := none

private theorem echoQuiche_law : PathLaw echoQuiche Option.toList where
  send_dst := by
    intro q data info h
    cases q with
    | none => cases h
    | some a =>
      obtain ⟨rfl, rfl⟩ := Prod.mk.inj (Except.ok.inj h)
      exact List.mem_singleton.mpr rfl
  recv _ _ _ := by simp [echoQuiche]
  send q := by cases q <;> simp [echoQuiche]
  streamSend _ _ _ _ := List.Subset.refl _
  streamRecv _ _ := List.Subset.refl _
  close _ _ _ _ := List.Subset.refl _
  sendAckEliciting _ := List.Subset.refl _
  onTimeout _ := List.Subset.refl _

private def echoProxy : Env Bytes Unit (Option SocketAddr) where
  hmac := Hmac.ofTable []
  quiche :=
    { headerFromSlice _ _ := .error .done
      versionIsSupported _ := true
      negotiateVersion _ _ := .ok []
      retry _ _ _ _ _ := .ok []
      accept _ _ _ _ peer := (.ok (some peer), ())
      connection := echoQuiche }
  mode := .quicEndpoint
  mqttBrokerAddress := ⟨.ipv4 127 0 0 1, 1883⟩
  tokenKey := []
  connIdSeed := []
  localScionAddr := ⟨11, .ip (.ipv4 10 0 0 2), 4433⟩
  localAddr := ⟨.ipv4 10 0 0 2, 4433⟩
  localAddr_eq := rfl

/-- A first Initial, and the one that answers its Retry. -/
private def echoHeader : Header := ⟨.initial, 1, [7], [], some []⟩

private def echoAnswer (srcIp : SocketAddr) : Header :=
  ⟨.initial, 1, connId echoProxy [7], [],
    some (mintToken echoProxy.hmac echoProxy.tokenKey echoHeader srcIp)⟩

private def echoConfig (first : ScionAddr) : Config :=
  ⟨echoProxy.localScionAddr.isdAsn, first.isdAsn, echoProxy.mqttBrokerAddress⟩

/-- An Initial that answers a Retry is registered, with the source it comes from. -/
private theorem echo_create (first : ScionAddr) (firstIp : SocketAddr) :
    ∃ origin task,
      (create echoProxy (.quic (echoAnswer firstIp) firstIp first [0]) (State.init ())).1.pc =
        .insert origin task ∧
      task.session = .quic (.new (echoConfig first) (some firstIp)) := by
  have hverdict := @handleInitial_answer Bytes Unit (Option SocketAddr) echoProxy echoHeader firstIp
    (echoAnswer firstIp) firstIp ⟨rfl, rfl, rfl, rfl, rfl⟩ () [0]
  unfold create
  simp only [echoAnswer, if_true] at hverdict ⊢
  simp only [State.init, hverdict]
  exact ⟨_, _, rfl, rfl⟩

/-- The first reply, and the broker. -/
private def opening : List Input := [.step, .queued true, .step, .brokerConnect true]

/-- A datagram, and the reply to it. -/
private def round (src : ScionAddr) : List Input :=
  [.udp (some ⟨src, echoProxy.localScionAddr, [0]⟩) false, .step, .step, .queued true, .step]

private def roundLog (first src : ScionAddr) : List Reply :=
  [.heard src, .queued { src with isdAsn := first.isdAsn }]

/-- After the opening the first reply has gone to the first source. -/
private theorem run_opening {first : ScionAddr} {firstIp : SocketAddr}
    (hfirst : first.localAddress = some firstIp) :
    run (observe (step echoQuiche) replies) (.new (echoConfig first) (some firstIp)) opening =
      some (⟨echoConfig first, none, true, .select⟩, [.queued first]) := by
  have hdst : ScionAddr.fromStd first.isdAsn firstIp = first := fromStd_localAddress hfirst _
  show some (_, [Reply.queued (ScionAddr.fromStd first.isdAsn firstIp)]) = _
  rw [hdst]
  rfl

/-- A round is a datagram heard and a reply. -/
private theorem run_round (first : ScionAddr) {src : ScionAddr} {a : SocketAddr}
    (hsrc : src.localAddress = some a) :
    run (observe (step echoQuiche) replies) ⟨echoConfig first, none, true, .select⟩ (round src) =
      some (⟨echoConfig first, none, true, .select⟩, roundLog first src) := by
  have hstep : step echoQuiche ⟨echoConfig first, none, true, .select⟩
      (.udp (some ⟨src, echoProxy.localScionAddr, [0]⟩) false) =
        some (⟨echoConfig first, some a, true, .checkClosed⟩, []) := by
    simp only [step, processUdpPacket, hsrc]
    rfl
  rw [round, run_cons_eq_some]
  refine ⟨_, _, _, observe_eq_some.mpr ⟨_, hstep, rfl⟩, rfl, ?_⟩
  rw [roundLog, ← fromStd_localAddress hsrc]
  rfl

private theorem run_rounds (first : ScionAddr) :
    ∀ {srcs : List ScionAddr}, (∀ src ∈ srcs, src.localAddress.isSome) →
      run (observe (step echoQuiche) replies) ⟨echoConfig first, none, true, .select⟩
        (srcs.flatMap round) =
          some (⟨echoConfig first, none, true, .select⟩, srcs.flatMap (roundLog first)) := by
  intro srcs
  induction srcs with
  | nil => exact fun _ => rfl
  | cons src srcs ih =>
    intro hsrcs
    obtain ⟨a, ha⟩ := Option.isSome_iff_exists.mp (hsrcs src List.mem_cons_self)
    rw [List.flatMap_cons, List.flatMap_cons]
    exact run_append_eq_some.mpr ⟨_, _, _, run_round first ha,
      ih fun src' hsrc' => hsrcs src' (List.mem_cons_of_mem src hsrc'), rfl⟩

/-- The rounds are heard from their sources. -/
private theorem heardFrom_rounds (first : ScionAddr) (srcs : List ScionAddr) :
    heardFrom (srcs.flatMap (roundLog first)) = srcs := by
  induction srcs with
  | nil => rfl
  | cons src srcs ih =>
    rw [List.flatMap_cons, heardFrom_append, ih]
    rfl

/-- If every reply of the echo was to an address heard from, its sources were
homed. -/
private theorem homed_of_rounds {first : ScionAddr} {srcs : List ScionAddr}
    (h : LogAll (Answered first) (.queued first :: srcs.flatMap (roundLog first))) :
    Homed first.isdAsn (first :: srcs) := by
  intro pre src post heq
  rcases pre with _ | ⟨first', pre⟩
  · obtain ⟨rfl, -⟩ := List.cons.inj heq
    exact .inl rfl
  · obtain ⟨rfl, rfl⟩ := List.cons.inj heq
    -- the reply to `src`
    have hreply := h (.queued first :: pre.flatMap (roundLog first) ++ [.heard src])
      (.queued { src with isdAsn := first.isdAsn }) (post.flatMap (roundLog first)) (by
        simp [roundLog])
    have hheard : heardFrom (.queued first :: pre.flatMap (roundLog first) ++ [.heard src]) =
        pre ++ [src] := by
      rw [heardFrom_append]
      show heardFrom (pre.flatMap (roundLog first)) ++ [src] = _
      rw [heardFrom_rounds]
    have hmem : { src with isdAsn := first.isdAsn } ∈ first :: pre ++ [src] := by
      have hanswered : { src with isdAsn := first.isdAsn } ∈ first :: heardFrom
        (.queued first :: pre.flatMap (roundLog first) ++ [.heard src]) := hreply
      rwa [hheard] at hanswered
    rcases List.mem_append.mp hmem with hold | hnew
    · exact .inr hold
    · exact .inl (congrArg ScionAddr.isdAsn (List.mem_singleton.mp hnew)).symm

/-- The echo tells whether the sources are homed. -/
theorem homed_of_answersHeard {first : ScionAddr} {srcs : List ScionAddr}
    (hip : ∀ src ∈ first :: srcs, src.localAddress.isSome) (h : AnswersHeard first srcs) :
    Homed first.isdAsn (first :: srcs) := by
  obtain ⟨hfirst, hsrcs⟩ := List.forall_mem_cons.mp hip
  obtain ⟨firstIp, hlocal⟩ := Option.isSome_iff_exists.mp hfirst
  obtain ⟨origin, task, hcreate, hsession⟩ := echo_create first firstIp
  have hr : run (observe (step echoQuiche) replies) (.new (echoConfig first) (some firstIp))
      (opening ++ srcs.flatMap round) =
        some (⟨echoConfig first, none, true, .select⟩,
          .queued first :: srcs.flatMap (roundLog first)) :=
    run_append_eq_some.mpr ⟨_, _, _, run_opening hlocal, run_rounds first hsrcs, rfl⟩
  have haccept : ∀ quicConfig scid odcid localAddr peer conn quicConfig',
      echoProxy.quiche.accept quicConfig scid odcid localAddr peer = (.ok conn, quicConfig') →
        conn.toList ⊆ [peer] := by
    intro quicConfig scid odcid localAddr peer conn quicConfig' hconn
    rw [← Except.ok.inj (Prod.mk.inj hconn).1]
    exact List.Subset.refl _
  refine homed_of_rounds (h Bytes Unit (Option SocketAddr) echoProxy Option.toList echoQuiche_law
    haccept _ firstIp [0] _ origin task _ _ _ _ hlocal hcreate hsession hr ?_)
  show heardFrom (srcs.flatMap (roundLog first)) = srcs
  exact heardFrom_rounds first srcs

/-- **When replies go only to SCION addresses that spoke**: no connection that
is created for `first` and then hears `srcs` queues a reply to an address it has
not heard from, if and only if every source outside the ISD-AS of `first` has
the host and port of an earlier source inside it. The main loop hands a
connection no datagram whose source has no IP address. -/
theorem replies_heard_iff {first : ScionAddr} {srcs : List ScionAddr}
    (hip : ∀ src ∈ first :: srcs, src.localAddress.isSome) :
    AnswersHeard first srcs ↔ Homed first.isdAsn (first :: srcs) :=
  ⟨homed_of_answersHeard hip, answersHeard_of_homed⟩

private def homeClient : ScionAddr := ⟨1, .ip (.ipv4 10 0 0 1), 4433⟩

/-- The client in another ISD-AS, at another host. -/
private def roamedClient : ScionAddr := ⟨2, .ip (.ipv4 10 0 0 9), 4433⟩

theorem replies_heard_iff_sample :
    AnswersHeard homeClient [{ homeClient with port := 9 }, { homeClient with isdAsn := 2 }] ↔
      Homed 1 [homeClient, { homeClient with port := 9 }, { homeClient with isdAsn := 2 }] :=
  @replies_heard_iff homeClient [{ homeClient with port := 9 }, { homeClient with isdAsn := 2 }]
    (by decide)

/-- Once a source has changed ISD-AS and host, the reply to it goes to its new
host in its old ISD-AS. -/
theorem reply_to_silent_address :
    PathLaw echoQuiche Option.toList ∧
    (∃ s, run (observe (step echoQuiche) replies)
      (.new (echoConfig homeClient) (some ⟨.ipv4 10 0 0 1, 4433⟩))
      (opening ++ round roamedClient) = some (s, [.queued homeClient, .heard roamedClient,
        .queued ⟨1, .ip (.ipv4 10 0 0 9), 4433⟩])) ∧
    ¬AnswersHeard homeClient [roamedClient] := by
  refine ⟨echoQuiche_law, ⟨_, rfl⟩, fun h => ?_⟩
  have hhome := homed_of_answersHeard (by decide) h
  exact absurd (hhome [homeClient] roamedClient [] rfl) (by decide)

end MqttScion.Proxy.QuicMode
