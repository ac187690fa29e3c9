import MqttScion.Lib.Relay
import MqttScion.Proxy.Replies
import MqttScion.Proxy.Switching

/-!
# What the proxy sends

Everything the proxy says to the network goes through one channel: the tasks put
their packets into `main` and wait while it is full, the handler of a datagram
puts its answer there or drops it, and the main loop alone takes from it and
calls `send_to`. `traffic` logs who was heard, what was put into `main` and what
was sent.

> `outbound_relayed`: the packets are sent in the order in which they were put
> into `main`, each of them once and none besides; a packet is lost only when
> the main loop returns.

> `outbound_solicited`: the proxy speaks only when spoken to. Every packet it
> sends leaves from its own ISD-AS, for an ISD-AS it has heard from before, and
> to the host and port of a source it has heard from before.

The two sources of the second may differ: a QUIC connection answers to the
host and port of any of its datagrams, under the ISD-AS of the first.
-/

namespace MqttScion.Proxy

open MqttScion.Net MqttScion.Lib

variable {K C Q : Type}

/-! ## The log -/

inductive Traffic
  | heard (src : ScionAddr)
  | put (packet : UdpPacket)
  | sent (packet : UdpPacket)
  deriving DecidableEq

/-- The source a step hears. -/
def Input.heard : Input → List ScionAddr
  | .recvFrom _ src => [src]
  | _ => []

/-- What a step puts into `main`. -/
def entered (p : Env K C Q) (s : State C Q) (i : Input) : List UdpPacket :=
  match step p s i with
  | some (s', _) => s'.main.queue.drop s.main.queue.length
  | none => []

def Output.sent : Output → Option UdpPacket
  | .sentTo packet => some packet
  | _ => none

def traffic (p : Env K C Q) (s : State C Q) (i : Input) (o : List Output) : List Traffic :=
  i.heard.map .heard ++ (entered p s i).map .put ++ (o.filterMap Output.sent).map .sent

def heards (es : List Traffic) : List ScionAddr :=
  es.filterMap fun e => match e with
    | .heard src => some src
    | _ => none

def puts (es : List Traffic) : List UdpPacket :=
  es.filterMap fun e => match e with
    | .put packet => some packet
    | _ => none

def sents (es : List Traffic) : List UdpPacket :=
  es.filterMap fun e => match e with
    | .sent packet => some packet
    | _ => none

@[simp] theorem heards_append (es fs : List Traffic) : heards (es ++ fs) = heards es ++ heards fs :=
  List.filterMap_append

@[simp] theorem puts_append (es fs : List Traffic) : puts (es ++ fs) = puts es ++ puts fs :=
  List.filterMap_append

@[simp] theorem sents_append (es fs : List Traffic) : sents (es ++ fs) = sents es ++ sents fs :=
  List.filterMap_append

section Readings

variable (p : Env K C Q) (s : State C Q) (i : Input) (o : List Output)

/-- A step hears what its input brings. -/
theorem heards_traffic : heards (traffic p s i o) = i.heard := by
  simp [heards, traffic, List.filterMap_append, List.filterMap_map]

/-- A step puts into `main` what enters it. -/
theorem puts_traffic : puts (traffic p s i o) = entered p s i := by
  simp [puts, traffic, List.filterMap_append, List.filterMap_map]

/-- A step sends what it logs as sent. -/
theorem sents_traffic : sents (traffic p s i o) = o.filterMap Output.sent := by
  simp [sents, traffic, List.filterMap_append, List.filterMap_map]

end Readings

/-! ## The channel toward the socket -/

/-- The packet the main loop is sending. -/
def Pc.sending : Pc Q → List UdpPacket
  | .sendTo packet => [packet]
  | _ => []

variable {p : Env K C Q} {s s' : State C Q} {i : Input} {o : List Output}

/-- What a step does to `main`: with what is put in, and what is sent. -/
inductive MainUse (s s' : State C Q) : List UdpPacket → List UdpPacket → Prop
  | quiet (hmain : s'.main = s.main) (hpc : s'.pc.sending = s.pc.sending) : MainUse s s' [] []
  | puts {packet} (hok : (s.main.trySend packet).1 = .ok)
      (hmain : s'.main = (s.main.trySend packet).2) (hpc : s'.pc.sending = s.pc.sending) :
      MainUse s s' [packet] []
  | takes {packet} (hrecv : s.main.recv = some (packet, s'.main)) (hbefore : s.pc.sending = [])
      (hpc : s'.pc.sending = [packet]) : MainUse s s' [] []
  | sends {packet} (hmain : s'.main = s.main) (hbefore : s.pc.sending = [packet])
      (hpc : s'.pc.sending = []) : MainUse s s' [] [packet]
  | fails (hmain : s'.main = s.main.dropReceiver) (hpc : s'.pc.sending = []) : MainUse s s' [] []

/-- An answer goes into `main`, if there is room. -/
theorem MainUse.of_respond (hpc : s.pc.sending = []) (dst : ScionAddr) (out : Bytes)
    (quicConfig : C) :
    MainUse s (({ s with quicConfig := quicConfig } : State C Q).respond p dst out)
      ((s.main.trySend { src := p.localScionAddr, dst := dst, data := out }).2.queue.drop
        s.main.queue.length) [] := by
  by_cases hok : (s.main.trySend { src := p.localScionAddr, dst := dst, data := out }).1 = .ok
  · rw [Chan.trySend_drop, if_pos (Chan.trySend_ok_iff.mp hok)]
    exact .puts hok rfl hpc.symm
  · rw [Chan.trySend_ne_ok hok, List.drop_length]
    exact .quiet (Chan.trySend_ne_ok hok) hpc.symm

/-- A channel that does not grow takes nothing in. -/
theorem drop_of_main_eq (hmain : s'.main = s.main) :
    s'.main.queue.drop s.main.queue.length = [] := by
  rw [hmain]
  exact List.drop_length

/-- Receiving a datagram leaves `main` alone. -/
theorem recvFrom_main (p : Env K C Q) (data : Bytes) (src : ScionAddr) (s : State C Q)
    (hpc : s.pc.sending = []) :
    (recvFrom p data src s).main = s.main ∧ (recvFrom p data src s).pc.sending = s.pc.sending := by
  unfold recvFrom
  split
  · exact ⟨rfl, rfl⟩
  · split
    · split
      · exact ⟨rfl, rfl⟩
      · exact ⟨rfl, hpc.symm⟩
    · exact ⟨rfl, hpc.symm⟩

/-- A task puts into `main` at most. -/
theorem TaskTurn.mainUse (h : TaskTurn p s i s') :
    MainUse s s' (s'.main.queue.drop s.main.queue.length) [] := by
  have hquiet : s'.main = s.main → s'.pc = s.pc →
      MainUse s s' (s'.main.queue.drop s.main.queue.length) [] := by
    intro hmain hpc
    rw [drop_of_main_eq hmain]
    exact .quiet hmain (by rw [hpc])
  cases h with
  | moves hmove =>
    obtain ⟨task, session, hmoved⟩ := taskMove_moved hmove
    have hcoupled := hmoved.coupled
    generalize SessionInput.coupling _ = coupling at hcoupled
    cases hcoupled with
    | took _ _ hmain => exact hquiet hmain hmoved.pc
    | @queued packet hout hok hmain _ =>
      rw [hmain, Chan.trySend_drop, if_pos (Chan.trySend_ok_iff.mp hok)]
      exact .puts hok hmain (by rw [hmoved.pc])
    | refused _ hmain _ => exact hquiet hmain hmoved.pc
    | own hmain _ => exact hquiet hmain hmoved.pc
    | cancel _ hmain _ => exact hquiet hmain hmoved.pc
  | finishes _ _ => exact hquiet rfl rfl
  | removes _ _ => exact hquiet rfl rfl
  | drops _ _ => exact hquiet rfl rfl

/-- The main loop puts its answers into `main`, and sends what it takes out. -/
theorem MainTurn.mainUse (h : MainTurn p s i s' o) :
    MainUse s s' (s'.main.queue.drop s.main.queue.length) (o.filterMap Output.sent) := by
  have hquiet : ∀ {s' : State C Q}, s'.main = s.main → s'.pc.sending = s.pc.sending →
      MainUse s s' (s'.main.queue.drop s.main.queue.length) [] := by
    intro s' hmain hpc
    rw [drop_of_main_eq hmain]
    exact .quiet hmain hpc
  have hfails : ∀ (quicConfig : C) (f : Fault),
      MainUse s (State.fail { s with quicConfig := quicConfig } f)
        ((State.fail { s with quicConfig := quicConfig } f).main.queue.drop s.main.queue.length)
        [] := by
    intro quicConfig f
    rw [show (State.fail { s with quicConfig := quicConfig } f).main.queue.drop
      s.main.queue.length = [] from List.drop_nil]
    exact .fails rfl rfl
  cases h with
  | @receives data src hpc _ =>
    obtain ⟨hmain, hsending⟩ := recvFrom_main p data src s (by rw [hpc]; rfl)
    exact hquiet hmain hsending
  | receiveFails hpc => exact hquiet rfl (by rw [hpc]; rfl)
  | @takes packet main hpc hrecv =>
    obtain ⟨hqueue, -⟩ := Chan.recv_eq_some hrecv
    have hshort : main.queue.drop s.main.queue.length = [] := by
      rw [hqueue]
      exact List.drop_eq_nil_of_le (Nat.le_succ _)
    show MainUse s _ (main.queue.drop s.main.queue.length) []
    rw [hshort]
    refine .takes hrecv ?_ rfl
    rcases hpc with hpc | hpc
    · rw [hpc]
      rfl
    · rw [hpc]
      rfl
  | @sends packet hpc =>
    rw [drop_of_main_eq rfl]
    exact .sends rfl (by rw [hpc]; rfl) rfl
  | sendFails hpc => exact hfails s.quicConfig .sendTo
  | handles hmove =>
    cases hmove with
    | looksUp d hpc =>
      unfold lookup
      split
      · exact hquiet rfl (by rw [hpc]; rfl)
      · exact hquiet rfl (by rw [hpc]; rfl)
    | forwards info d hpc =>
      simp only [forward]
      split
      · exact hquiet rfl (by rw [hpc]; rfl)
      · exact hquiet rfl (by rw [hpc]; rfl)
      · exact hquiet rfl (by rw [hpc]; rfl)
    | creates d hpc =>
      have hsending : s.pc.sending = [] := by
        rw [hpc]
        rfl
      have hcreated := create_created p d s
      generalize create p d s = r at hcreated ⊢
      cases hcreated with
      | prepared _ _ _ _ _ _ => exact hquiet rfl hsending.symm
      | dropped _ => exact hquiet rfl hsending.symm
      | @answered hdr srcIp src buf quicConfig out o _ hanswer =>
        have hsilent : o.filterMap Output.sent = [] := by
          rcases hanswer with ⟨-, rfl⟩ | ⟨token, -, rfl⟩
          · rfl
          · rfl
        rw [hsilent]
        exact .of_respond hsending src out quicConfig
      | failed quicConfig f _ _ => exact hfails quicConfig f
    | inserts origin task hpc => exact hquiet rfl (by rw [hpc]; rfl)
    | spawns task hpc => exact hquiet rfl (by rw [hpc]; rfl)

/-- What a step does to `main`, as it is logged. -/
theorem step_mainUse (hstep : step p s i = some (s', o)) :
    MainUse s s' (entered p s i) (o.filterMap Output.sent) := by
  have hentered : entered p s i = s'.main.queue.drop s.main.queue.length := by
    unfold entered
    rw [hstep]
  rw [hentered]
  rcases step_turn hstep with ⟨hturn, rfl⟩ | hmain
  · exact hturn.mainUse
  · exact (mainStep_turn hmain).mainUse

/-- The books of `main`: with the packet being sent, it holds what was put in
and not sent yet. -/
theorem MainUse.relay {puts sents sent put : List UdpPacket} (h : MainUse s s' put sent)
    (hbooks : Relay puts (s.pc.sending ++ s.main.queue) sents (!s.main.rxAlive)) :
    Relay (puts ++ put) (s'.pc.sending ++ s'.main.queue) (sents ++ sent) (!s'.main.rxAlive) := by
  cases h with
  | quiet hmain hpc => simpa [hmain, hpc] using hbooks
  | @puts packet hok hmain hpc =>
    obtain ⟨halive, -⟩ := Chan.trySend_ok_iff.mp hok
    rw [hmain, hpc, Chan.trySend_ok_queue hok, Chan.trySend_rxAlive, ← List.append_assoc,
      List.append_nil]
    rw [halive] at hbooks
    exact hbooks.push [packet] _
  | @takes packet hrecv hbefore hpc =>
    obtain ⟨hqueue, halive⟩ := Chan.recv_eq_some hrecv
    rw [hbefore, hqueue] at hbooks
    simpa [hpc, halive] using hbooks
  | @sends packet hmain hbefore hpc =>
    rw [hbefore] at hbooks
    rw [hmain, hpc, List.append_nil]
    exact hbooks.pop
  | fails hmain hpc =>
    rw [hmain, hpc, List.append_nil, List.append_nil]
    exact hbooks.close

/-- **The proxy sends what it is given**, in order and once. -/
theorem outbound_relayed {quicConfig : C} {is : List Input} {es : List Traffic}
    (hr : run (observe (step p) (traffic p)) (State.init quicConfig) is = some (s, es)) :
    Relay (puts es) (s.pc.sending ++ s.main.queue) (sents es) (!s.main.rxAlive) := by
  refine @run_induct _ _ _ (observe (step p) (traffic p))
    (fun es s => Relay (puts es) (s.pc.sending ++ s.main.queue) (sents es) (!s.main.rxAlive))
    is es (State.init quicConfig) s (.empty _) ?_ hr
  intro es s i s' fs hbooks hm
  obtain ⟨o, hstep, rfl⟩ := observe_eq_some.mp hm
  rw [puts_append, sents_append, puts_traffic, sents_traffic]
  exact (step_mainUse hstep).relay hbooks

private def speaker : Env Bytes Unit SendWindow where
  hmac := Hmac.ofTable []
  quiche := wireServer fun _ _ => Vector.replicate 16 0
  mode := .quicEndpoint
  mqttBrokerAddress := ⟨.ipv4 127 0 0 1, 1883⟩
  tokenKey := []
  connIdSeed := []
  localScionAddr := ⟨3, .ip (.ipv4 10 0 9 3), 4433⟩
  localAddr := ⟨.ipv4 10 0 9 3, 4433⟩
  localAddr_eq := rfl

private def caller : ScionAddr := ⟨1, .ip (.ipv4 10 0 2 1), 4433⟩

/-- An Initial of a version the proxy does not speak. -/
private def oddInitial : Bytes := [0xc0, 0, 0, 0, 2, 8, 1, 2, 3, 4, 5, 6, 7, 8, 0, 0, 0]

/-- It is answered with the versions there are, and a second one waits. -/
private def oddVersion : List Input :=
  [.recvFrom oddInitial caller, .step, .step, .recvPacket, .sent true,
    .recvFrom oddInitial caller, .step, .step]

theorem outbound_relayed_sample :
    ∃ s es, run (observe (step speaker) (traffic speaker)) (State.init ()) oddVersion =
        some (s, es) ∧
      Relay (puts es) (s.pc.sending ++ s.main.queue) (sents es) (!s.main.rxAlive) ∧
      (puts es).length = 2 ∧ (sents es).length = 1 := by
  have hbooks := @outbound_relayed Bytes Unit SendWindow speaker _ () oddVersion _ rfl
  exact ⟨_, _, rfl, hbooks, by decide, by decide⟩

/-! ## To whom the proxy speaks -/

/-- The packet leaves from the proxy's ISD-AS, for one it has heard from, and to
the host and port of a source it has heard from. -/
structure Solicited (p : Env K C Q) (heard : List ScionAddr) (packet : UdpPacket) : Prop where
  src : packet.src.isdAsn = p.localScionAddr.isdAsn
  dst_isdAsn : ∃ near ∈ heard, near.isdAsn = packet.dst.isdAsn
  dst_address : ∃ far ∈ heard, far.localAddress = packet.dst.localAddress

/-- What a session knows of the addresses around it was heard. -/
inductive Informed (p : Env K C Q) (paths : Q → List SocketAddr) (heard : List ScionAddr) :
    Session Q → Prop
  | udp {c : UdpMode.Connection} (hlocal : c.config.localProxyAddr = p.localScionAddr)
      (hremote : c.config.remoteClientAddr ∈ heard)
      (hout : ∀ packet, c.pc = .queue packet → Solicited p heard packet) :
      Informed p paths heard (.udp c)
  | quic {c : QuicMode.Connection Q} (hlocal : c.config.localIsdAs = p.localScionAddr.isdAsn)
      (hremote : ∃ near ∈ heard, near.isdAsn = c.config.remoteIsdAs)
      (hpaths : ∀ a ∈ paths c.conn, ∃ far ∈ heard, far.localAddress = some a)
      (hout : ∀ l packet, c.pc = .queue l packet → Solicited p heard packet) :
      Informed p paths heard (.quic c)

variable {paths : Q → List SocketAddr} {heard more : List ScionAddr}

/-- What was solicited stays so. -/
theorem Solicited.mono {packet : UdpPacket} (h : Solicited p heard packet)
    (hsub : heard ⊆ more) : Solicited p more packet :=
  ⟨h.src, h.dst_isdAsn.imp fun _ hnear => ⟨hsub hnear.1, hnear.2⟩,
    h.dst_address.imp fun _ hfar => ⟨hsub hfar.1, hfar.2⟩⟩

/-- A packet back to a source. -/
theorem Solicited.back {packet : UdpPacket} (hsrc : packet.src.isdAsn = p.localScionAddr.isdAsn)
    (hdst : packet.dst ∈ heard) : Solicited p heard packet :=
  ⟨hsrc, ⟨_, hdst, rfl⟩, ⟨_, hdst, rfl⟩⟩

/-- What a handler knows, it knows from what was heard, and from more. -/
theorem Informed.mono {session : Session Q} (h : Informed p paths heard session)
    (hsub : heard ⊆ more) : Informed p paths more session := by
  cases h with
  | udp hlocal hremote hout =>
    exact .udp hlocal (hsub hremote) fun packet hpc => (hout packet hpc).mono hsub
  | quic hlocal hremote hpaths hout =>
    exact .quic hlocal (hremote.imp fun _ hnear => ⟨hsub hnear.1, hnear.2⟩)
      (fun a ha => (hpaths a ha).imp fun _ hfar => ⟨hsub hfar.1, hfar.2⟩)
      fun l packet hpc => (hout l packet hpc).mono hsub

/-- What an informed session hands to the main loop is solicited. -/
theorem Informed.outgoing {session : Session Q} (h : Informed p paths heard session)
    {packet : UdpPacket} (hout : session.outgoing = some packet) : Solicited p heard packet := by
  unfold Session.outgoing at hout
  split at hout
  · next l queued =>
    obtain rfl := Option.some.inj hout
    cases h with
    | quic _ _ _ hqueue => exact hqueue l _ rfl
  · next queued =>
    obtain rfl := Option.some.inj hout
    cases h with
    | udp _ _ hqueue => exact hqueue _ rfl
  · cases hout

/-- A datagram the session takes in was heard. -/
def Takes (heard : List ScionAddr) (j : SessionInput) : Prop :=
  ∀ packet, j.coupling = .recv packet → packet.src ∈ heard

/-- A UdpEndpoint session learns of no client but those it takes packets of. -/
theorem udp_informed {c c' : UdpMode.Connection} {j : UdpMode.Input} {q : List UdpMode.Output}
    (h : Informed p paths heard (.udp c : Session Q)) (hj : Takes heard (.udp j))
    (hstep : UdpMode.step c j = some (c', q)) : Informed p paths heard (.udp c' : Session Q) := by
  cases h with
  | udp hlocal hremote hout =>
    have hgoto : ∀ {pc : UdpMode.Pc} {o : List UdpMode.Output}, (∀ packet, pc ≠ .queue packet) →
        some ({ c with pc := pc }, o) = some (c', q) →
          Informed p paths heard (.udp c' : Session Q) := by
      intro pc o hpc heq
      obtain ⟨rfl, -⟩ := Prod.mk.inj (Option.some.inj heq)
      exact .udp hlocal hremote fun packet heq => absurd heq (hpc packet)
    unfold UdpMode.step at hstep
    split at hstep
    · split at hstep
      · exact hgoto (by simp) hstep
      · exact hgoto (by simp) hstep
    · exact hgoto (by simp) hstep
    · exact hgoto (by simp) hstep
    · next packet _ =>
      have hsrc : packet.src ∈ heard := hj packet rfl
      obtain ⟨rfl, -⟩ := Prod.mk.inj (Option.some.inj hstep)
      unfold UdpMode.onUdp
      split
      · exact .udp hlocal hsrc fun _ heq => by cases heq
      · exact .udp hlocal hremote fun _ heq => by cases heq
    · obtain ⟨rfl, -⟩ := Prod.mk.inj (Option.some.inj hstep)
      unfold UdpMode.onBroker
      split
      · exact .udp hlocal hremote hout
      · refine .udp hlocal hremote fun packet heq => ?_
        obtain rfl := UdpMode.Pc.queue.inj heq
        exact .back (by rw [hlocal]) hremote
    · exact hgoto (by simp) hstep
    · split at hstep
      · exact hgoto (by simp) hstep
      · exact hgoto (by simp) hstep
    · split at hstep
      · exact hgoto (by simp) hstep
      · exact hgoto (by simp) hstep
    · cases hstep

/-- The addresses a step learns are those of the datagram it takes. -/
theorem quic_paths (law : PathLaw p.quiche.connection paths) {c c' : QuicMode.Connection Q}
    {j : QuicMode.Input} {q : List QuicMode.Output}
    (hstep : QuicMode.step p.quiche.connection c j = some (c', q)) {a : SocketAddr}
    (ha : a ∈ paths c'.conn) : a ∈ paths c.conn ∨ j.Tells a := by
  cases QuicMode.step_move hstep with
  | calm _ _ hcall _ _ => exact hcall.told law ha
  | send _ _ => exact .inl (law.send c.conn ha)
  | read _ hri _ _ => exact (QuicMode.Received.recv rfl hri).told law ha
  | chunk _ _ _ => exact .inl (law.streamRecv c.conn 0 ha)
  | panicked _ _ _ => exact .inl (law.streamRecv c.conn 0 ha)
  | skip _ _ _ => exact .inl (law.streamRecv c.conn _ ha)
  | done _ _ => exact .inl (law.streamRecv c.conn _ ha)
  | offered _ _ _ => exact .inl (law.streamSend c.conn 0 _ false ha)
  | _ => exact .inl ha

/-- What a step is about to queue it queued before, or has just been given by
the library for one of its paths. -/
theorem quic_queue (law : PathLaw p.quiche.connection paths) {c c' : QuicMode.Connection Q}
    {j : QuicMode.Input} {q : List QuicMode.Output}
    (hstep : QuicMode.step p.quiche.connection c j = some (c', q)) :
    c'.config = c.config ∧ ∀ l packet, c'.pc = .queue l packet →
      ∃ data info, packet = c.config.datagram data info ∧ info.dst ∈ paths c.conn := by
  have hplain : ∀ {pc : QuicMode.Pc}, pc.plain = true → ∀ l packet, pc = .queue l packet →
      ∃ data info, packet = c.config.datagram data info ∧ info.dst ∈ paths c.conn :=
    fun hpc l packet heq => absurd heq (QuicMode.not_queue_of_plain hpc l packet)
  cases QuicMode.step_move hstep with
  | calm _ _ _ hpc _ => exact ⟨rfl, hplain hpc⟩
  | @send l data info _ hsend =>
    refine ⟨rfl, fun l' packet heq => ?_⟩
    obtain ⟨-, rfl⟩ := QuicMode.Pc.queue.inj heq
    exact ⟨data, info, rfl, law.send_dst hsend⟩
  | offered _ _ hpc => exact ⟨rfl, hplain hpc⟩
  | _ => exact ⟨rfl, fun _ _ heq => by cases heq⟩

/-- A QuicEndpoint handler learns of no client but those it takes packets of. -/
theorem quic_informed (law : PathLaw p.quiche.connection paths) {c c' : QuicMode.Connection Q}
    {j : QuicMode.Input} {q : List QuicMode.Output}
    (h : Informed p paths heard (.quic c)) (hj : Takes heard (.quic j))
    (hstep : QuicMode.step p.quiche.connection c j = some (c', q)) :
    Informed p paths heard (.quic c') := by
  cases h with
  | quic hlocal hremote hpaths hout =>
    obtain ⟨hconfig, hqueue⟩ := quic_queue law hstep
    refine .quic (by rw [hconfig]; exact hlocal) (by rw [hconfig]; exact hremote)
      (fun a ha => ?_) fun l packet hpc => ?_
    · rcases quic_paths law hstep ha with hold | ⟨src, hsrc, hlocal⟩
      · exact hpaths a hold
      · refine ⟨src, ?_, hlocal⟩
        unfold QuicMode.Input.source at hsrc
        split at hsrc
        · next packet _ =>
          rw [List.mem_singleton.mp hsrc]
          exact hj packet rfl
        · cases hsrc
    · obtain ⟨data, info, rfl, hdst⟩ := hqueue l packet hpc
      obtain ⟨far, hfar, haddress⟩ := hpaths info.dst hdst
      exact ⟨hlocal, hremote, far, hfar, haddress⟩

/-- A session that takes in what was heard stays informed. -/
theorem Informed.step (law : PathLaw p.quiche.connection paths) {session session' : Session Q}
    {j : SessionInput} (h : Informed p paths heard session) (hj : Takes heard j)
    (hstep : session.step p.quiche.connection j = some session') :
    Informed p paths heard session' := by
  unfold Session.step at hstep
  split at hstep
  · obtain ⟨⟨c', o⟩, hmove, rfl⟩ := Option.map_eq_some_iff.mp hstep
    exact quic_informed law h hj hmove
  · obtain ⟨⟨c', o⟩, hmove, rfl⟩ := Option.map_eq_some_iff.mp hstep
    exact udp_informed h hj hmove
  · cases hstep

/-- What the main loop has in hand was heard. -/
def PcInformed (p : Env K C Q) (paths : Q → List SocketAddr) (heard : List ScionAddr) :
    Pc Q → Prop
  | .lookup d | .forward _ d | .create d => d.src ∈ heard
  | .insert _ task | .spawn task => Informed p paths heard task.session
  | .sendTo packet => Solicited p heard packet
  | _ => True

/-- All the proxy knows of addresses was heard. -/
structure AllInformed (p : Env K C Q) (paths : Q → List SocketAddr) (heard : List ScionAddr)
    (s : State C Q) : Prop where
  tasks : ∀ id task, s.tasks id = some task → Informed p paths heard task.session
  channels : ∀ id, ∀ packet ∈ (s.channels id).queue, packet.src ∈ heard
  main : ∀ packet ∈ s.main.queue, Solicited p heard packet
  pc : PcInformed p paths heard s.pc

/-- At the start there is nothing to know. -/
theorem allInformed_init (quicConfig : C) :
    AllInformed p paths [] (State.init quicConfig : State C Q) := by
  refine ⟨fun id task ht => ?_, fun id packet hmem => ?_, fun packet hmem => ?_, trivial⟩
  · cases ht
  · cases hmem
  · cases hmem

theorem PcInformed.mono {pc : Pc Q} (h : PcInformed p paths heard pc) (hsub : heard ⊆ more) :
    PcInformed p paths more pc := by
  cases pc with
  | lookup d => exact hsub h
  | forward info d => exact hsub h
  | create d => exact hsub h
  | insert origin task => exact Informed.mono h hsub
  | spawn task => exact Informed.mono h hsub
  | sendTo packet => exact Solicited.mono h hsub
  | _ => trivial

theorem AllInformed.mono (h : AllInformed p paths heard s) (hsub : heard ⊆ more) :
    AllInformed p paths more s :=
  ⟨fun id task ht => (h.tasks id task ht).mono hsub, fun id packet hmem => hsub
    (h.channels id packet hmem), fun packet hmem => (h.main packet hmem).mono hsub,
    h.pc.mono hsub⟩

/-- What is put into `main` is in it. -/
theorem MainUse.informed {put sent : List UdpPacket} (h : MainUse s s' put sent)
    (hmain : ∀ packet ∈ s.main.queue, Solicited p heard packet)
    (hput : ∀ packet ∈ put, Solicited p heard packet) :
    ∀ packet ∈ s'.main.queue, Solicited p heard packet := by
  intro packet hmem
  cases h with
  | quiet hsame _ => exact hmain packet (hsame ▸ hmem)
  | @puts entering hok hsame _ =>
    rw [hsame, Chan.trySend_ok_queue hok] at hmem
    rcases List.mem_append.mp hmem with hold | hnew
    · exact hmain packet hold
    · exact hput packet hnew
  | takes hrecv _ _ =>
    obtain ⟨hqueue, -⟩ := Chan.recv_eq_some hrecv
    exact hmain packet (hqueue ▸ List.mem_cons_of_mem _ hmem)
  | sends hsame _ _ => exact hmain packet (hsame ▸ hmem)
  | fails hclosed _ =>
    rw [hclosed] at hmem
    cases hmem

/-- A channel that only loses its front. -/
theorem channels_of_recv {chans : Nat → Chan UdpPacket clientChannelCapacity} {id : Nat}
    {packet : UdpPacket} {chan : Chan UdpPacket clientChannelCapacity}
    (h : ∀ id, ∀ packet ∈ (chans id).queue, packet.src ∈ heard)
    (hrecv : (chans id).recv = some (packet, chan)) :
    packet.src ∈ heard ∧
      ∀ id', ∀ packet ∈ (Function.update chans id chan id').queue, packet.src ∈ heard := by
  obtain ⟨hqueue, -⟩ := Chan.recv_eq_some hrecv
  refine ⟨h id packet (hqueue ▸ List.mem_cons_self), fun id' packet' hmem => ?_⟩
  by_cases hid : id' = id
  · subst hid
    rw [Function.update_self] at hmem
    exact h id' packet' (hqueue ▸ List.mem_cons_of_mem _ hmem)
  · rw [Function.update_of_ne hid] at hmem
    exact h id' packet' hmem

/-- A task that moves knows what it has heard. -/
theorem moved_informed (law : PathLaw p.quiche.connection paths) (h : AllInformed p paths heard s)
    {id : Nat} {j : SessionInput} {task : Task Q} {session : Session Q}
    (hmoved : Moved p s s' id j task session) : AllInformed p paths heard s' := by
  have hbefore := h.tasks id task hmoved.before
  have hpc : PcInformed p paths heard s'.pc := by
    rw [hmoved.pc]
    exact h.pc
  have hafter : Takes heard j →
      ∀ id' task', s'.tasks id' = some task' → Informed p paths heard task'.session := by
    intro hj id' task' ht'
    rw [hmoved.tasks] at ht'
    by_cases hid : id' = id
    · subst hid
      rw [Function.update_self] at ht'
      obtain rfl := Option.some.inj ht'
      exact hbefore.step law hj hmoved.step
    · rw [Function.update_of_ne hid] at ht'
      exact h.tasks id' task' ht'
  have hcoupled := hmoved.coupled
  generalize hj : j.coupling = coupling at hcoupled
  -- only a task that takes a datagram learns of an address
  have hquiet : (∀ packet, coupling ≠ .recv packet) → Takes heard j := fun hne packet hrecv =>
    absurd (hj.symm.trans hrecv) (hne packet)
  cases hcoupled with
  | @took packet chan hrecv hchannels hmain =>
    obtain ⟨hheard, hrest⟩ := channels_of_recv h.channels hrecv
    refine ⟨hafter fun packet' hrecv' => ?_, ?_, ?_, hpc⟩
    · obtain rfl := Coupling.recv.inj (hj.symm.trans hrecv')
      exact hheard
    · rw [hchannels]
      exact hrest
    · rw [hmain]
      exact h.main
  | @queued packet hout hok hmain hchannels =>
    refine ⟨hafter (hquiet (by simp)), by rw [hchannels]; exact h.channels, ?_, hpc⟩
    rw [hmain, Chan.trySend_ok_queue hok]
    intro packet' hmem
    rcases List.mem_append.mp hmem with hold | hnew
    · exact h.main packet' hold
    · rw [List.mem_singleton.mp hnew]
      exact hbefore.outgoing hout
  | refused _ hmain hchannels =>
    exact ⟨hafter (hquiet (by simp)), by rw [hchannels]; exact h.channels,
      by rw [hmain]; exact h.main, hpc⟩
  | own hmain hchannels =>
    exact ⟨hafter (hquiet (by simp)), by rw [hchannels]; exact h.channels,
      by rw [hmain]; exact h.main, hpc⟩
  | cancel _ hmain hchannels =>
    exact ⟨hafter (hquiet (by simp)), by rw [hchannels]; exact h.channels,
      by rw [hmain]; exact h.main, hpc⟩

/-- A task learns nothing by coming to its end. -/
theorem tasks_phase_informed (h : AllInformed p paths heard s) {id : Nat} {task : Task Q}
    (ht : s.tasks id = some task) (phase : Phase) :
    ∀ id' task', (s.setTask id { task with phase := phase }).tasks id' = some task' →
      Informed p paths heard task'.session := by
  intro id' task' ht'
  have hupd : Function.update s.tasks id (some { task with phase := phase }) id' = some task' := ht'
  by_cases hid : id' = id
  · subst hid
    rw [Function.update_self] at hupd
    obtain rfl := Option.some.inj hupd
    exact h.tasks id' task ht
  · rw [Function.update_of_ne hid] at hupd
    exact h.tasks id' task' hupd

/-- A task's turn adds no knowledge that was not heard. -/
theorem TaskTurn.informed (law : PathLaw p.quiche.connection paths)
    (h : AllInformed p paths heard s) (hturn : TaskTurn p s i s') :
    AllInformed p paths heard s' := by
  cases hturn with
  | moves hmove =>
    obtain ⟨task, session, hmoved⟩ := taskMove_moved hmove
    exact moved_informed law h hmoved
  | finishes ht _ => exact ⟨tasks_phase_informed h ht _, h.channels, h.main, h.pc⟩
  | removes ht _ => exact ⟨tasks_phase_informed h ht _, h.channels, h.main, h.pc⟩
  | @drops id task ht _ =>
    refine ⟨tasks_phase_informed h ht _, fun id' packet hmem => ?_, h.main, h.pc⟩
    have hupd : packet ∈ (Function.update s.channels task.receiver
      (s.channels task.receiver).dropReceiver id').queue := hmem
    by_cases hid : id' = task.receiver
    · rw [hid, Function.update_self] at hupd
      cases hupd
    · rw [Function.update_of_ne hid] at hupd
      exact h.channels id' packet hupd

/-- A connection accepted for a peer knows of no other address. -/
def AcceptsPeer (qs : QuicheServer C Q) (paths : Q → List SocketAddr) : Prop :=
  ∀ quicConfig scid odcid localAddr peer conn quicConfig',
    qs.accept quicConfig scid odcid localAddr peer = (.ok conn, quicConfig') →
      paths conn ⊆ [peer]

/-- A session is opened toward the source of its first datagram. -/
theorem create_informed (law : PathLaw p.quiche.connection paths)
    (haccepts : AcceptsPeer p.quiche paths) {d : Incoming} (hd : d.WellFormed p)
    (hheard : d.src ∈ heard) {origin : Origin} {task : Task Q}
    (hcreate : (create p d s).1.pc = .insert origin task) :
    Informed p paths heard task.session := by
  cases d with
  | udp src buf =>
    obtain ⟨-, rfl⟩ := Pc.insert.inj hcreate
    exact .udp rfl hheard fun _ heq => by cases heq
  | quic hdr srcIp src buf =>
    have hopened := create_opened hd hcreate
    cases hsession : task.session with
    | quic c =>
      obtain ⟨odcid, accepted, quicConfig, haccept, rfl⟩ := create_session hcreate hsession
      refine .quic rfl ⟨src, hheard, rfl⟩ (fun a ha => ⟨src, hheard, ?_⟩) fun _ _ heq => by
        cases heq
      -- the one address the connection has heard of is the source's
      have hone : a = srcIp := by
        rcases List.mem_cons.mp (law.recv accepted buf ⟨srcIp, p.localAddr⟩ ha) with heq | hold
        · exact heq
        · exact List.mem_singleton.mp (haccepts _ _ _ _ _ _ _ haccept hold)
      rw [hone]
      exact hd.1
    | udp c =>
      unfold create at hcreate
      simp only at hcreate
      split at hcreate
      · split at hcreate
        · cases hcreate
        · cases hcreate
        · cases hcreate
        · cases hcreate
        · obtain ⟨-, rfl⟩ := Pc.insert.inj hcreate
          cases hsession
      · cases hcreate

/-- A channel that takes in what was heard. -/
theorem channels_of_send {chans : Nat → Chan UdpPacket clientChannelCapacity} {id : Nat}
    {packet : UdpPacket} (h : ∀ id, ∀ packet ∈ (chans id).queue, packet.src ∈ heard)
    (hheard : packet.src ∈ heard) (hok : ((chans id).trySend packet).1 = .ok) :
    ∀ id', ∀ packet' ∈ (Function.update chans id ((chans id).trySend packet).2 id').queue,
      packet'.src ∈ heard := by
  intro id' packet' hmem
  by_cases hid : id' = id
  · rw [hid, Function.update_self, Chan.trySend_ok_queue hok] at hmem
    rcases List.mem_append.mp hmem with hold | hnew
    · exact h id packet' hold
    · rw [List.mem_singleton.mp hnew]
      exact hheard
  · rw [Function.update_of_ne hid] at hmem
    exact h id' packet' hmem

/-- A session is created for a client that was heard, and answers go to such a
client. -/
theorem creates_informed (law : PathLaw p.quiche.connection paths)
    (haccepts : AcceptsPeer p.quiche paths) (h : AllInformed p paths heard s) {d : Incoming}
    (hd : d.WellFormed p) (hheard : d.src ∈ heard) (hpc : s.pc.sending = []) :
    AllInformed p paths heard (create p d s).1 := by
  have hsession : ∀ origin task, (create p d s).1.pc = .insert origin task →
      Informed p paths heard task.session := fun origin task hcreate =>
    create_informed law haccepts hd hheard hcreate
  have hcreated := create_created p d s
  generalize create p d s = r at hcreated hsession ⊢
  cases hcreated with
  | prepared quicConfig origin key session _ _ =>
    exact ⟨h.tasks, h.channels, h.main, hsession _ _ rfl⟩
  | dropped _ => exact ⟨h.tasks, h.channels, h.main, trivial⟩
  | @answered hdr srcIp src buf quicConfig out o _ hanswer =>
    refine ⟨h.tasks, h.channels, ?_, trivial⟩
    refine (MainUse.of_respond (p := p) hpc src out quicConfig).informed h.main ?_
    intro packet hmem
    rw [Chan.trySend_drop] at hmem
    split at hmem
    · rw [List.mem_singleton.mp hmem]
      exact .back rfl hheard
    · cases hmem
  | failed _ _ _ _ =>
    refine ⟨h.tasks, h.channels, fun packet hmem => ?_, trivial⟩
    cases hmem

/-- A task that is spawned knows what its session does. -/
theorem spawns_informed (h : AllInformed p paths heard s) {task : Task Q}
    (hsession : Informed p paths heard task.session) :
    AllInformed p paths heard (spawn task s) := by
  refine ⟨fun id task' ht' => ?_, h.channels, h.main, trivial⟩
  have hupd : Function.update s.tasks task.receiver (some task) id = some task' := ht'
  by_cases hid : id = task.receiver
  · rw [hid, Function.update_self] at hupd
    obtain rfl := Option.some.inj hupd
    exact hsession
  · rw [Function.update_of_ne hid] at hupd
    exact h.tasks id task' hupd

/-- The handler adds no knowledge that was not heard. -/
theorem HandlerMove.informed (law : PathLaw p.quiche.connection paths)
    (haccepts : AcceptsPeer p.quiche paths) (hopened : PcOpened p s.pc)
    (h : AllInformed p paths heard s) {r : State C Q × List Output} (hmove : HandlerMove p s r) :
    AllInformed p paths heard r.1 := by
  have hpc := h.pc
  cases hmove with
  | looksUp d hd =>
    rw [hd] at hpc
    unfold lookup
    split
    · exact ⟨h.tasks, h.channels, h.main, hpc⟩
    · exact ⟨h.tasks, h.channels, h.main, hpc⟩
  | forwards info d hd =>
    rw [hd] at hpc
    simp only [forward]
    split
    · next hsend => exact ⟨h.tasks, channels_of_send h.channels hpc hsend, h.main, trivial⟩
    · exact ⟨h.tasks, h.channels, h.main, trivial⟩
    · exact ⟨h.tasks, h.channels, h.main, trivial⟩
  | creates d hd =>
    rw [hd] at hpc hopened
    exact creates_informed law haccepts h hopened hpc (by rw [hd]; rfl)
  | inserts origin task hd =>
    rw [hd] at hpc
    exact ⟨h.tasks, h.channels, h.main, hpc⟩
  | spawns task hd =>
    rw [hd] at hpc
    exact spawns_informed h hpc

/-- The main loop knows of what it has heard. -/
theorem MainTurn.informed (law : PathLaw p.quiche.connection paths)
    (haccepts : AcceptsPeer p.quiche paths) (hopened : PcOpened p s.pc)
    (h : AllInformed p paths heard s) (hturn : MainTurn p s i s' o) :
    AllInformed p paths (heard ++ i.heard) s' := by
  have hold := h.mono (List.subset_append_left heard i.heard)
  cases hturn with
  | @receives data src hselect _ =>
    rcases recvFrom_hand p data src s with hsame | ⟨d, hlookup, hd⟩
    · rw [hsame]
      exact hold
    · rw [hlookup]
      refine ⟨hold.tasks, hold.channels, hold.main, ?_⟩
      have hsrc : d.src = src := congrArg UdpPacket.src hd
      show d.src ∈ heard ++ [src]
      rw [hsrc]
      exact List.mem_append_right _ (List.mem_singleton.mpr rfl)
  | receiveFails _ => exact ⟨hold.tasks, hold.channels, hold.main, trivial⟩
  | @takes packet main _ hrecv =>
    obtain ⟨hqueue, -⟩ := Chan.recv_eq_some hrecv
    refine ⟨hold.tasks, hold.channels, fun packet' hmem => ?_, ?_⟩
    · exact hold.main packet' (hqueue ▸ List.mem_cons_of_mem _ hmem)
    · exact hold.main packet (hqueue ▸ List.mem_cons_self)
  | sends _ => exact ⟨hold.tasks, hold.channels, hold.main, trivial⟩
  | sendFails _ =>
    refine ⟨hold.tasks, hold.channels, fun packet hmem => ?_, trivial⟩
    cases hmem
  | handles hmove =>
    have hsame : heard ++ Input.step.heard = heard := List.append_nil heard
    rw [hsame]
    exact hmove.informed law haccepts hopened h

/-- What a step sends, the main loop held. -/
theorem MainUse.sent_mem {put sent : List UdpPacket} (h : MainUse s s' put sent)
    {packet : UdpPacket} (hmem : packet ∈ sent) : s.pc.sending = [packet] := by
  cases h with
  | sends _ hbefore _ => rw [hbefore, List.mem_singleton.mp hmem]
  | _ => cases hmem

/-- **A step keeps to what was heard**, and so do the packets it sends. -/
theorem step_informed (law : PathLaw p.quiche.connection paths)
    (haccepts : AcceptsPeer p.quiche paths) (hopening : Opening p s)
    (h : AllInformed p paths heard s) (hstep : step p s i = some (s', o)) :
    AllInformed p paths (heard ++ i.heard) s' ∧
      ∀ packet ∈ o.filterMap Output.sent, Solicited p heard packet := by
  constructor
  · rcases step_turn hstep with ⟨hturn, -⟩ | hmain
    · exact (hturn.informed law h).mono (List.subset_append_left _ _)
    · exact (mainStep_turn hmain).informed law haccepts hopening.pc h
  · intro packet hmem
    have hsending := (step_mainUse hstep).sent_mem hmem
    have hpc := h.pc
    cases hs : s.pc with
    | sendTo packet' =>
      rw [hs] at hsending hpc
      rw [← List.singleton_inj.mp hsending]
      exact hpc
    | _ =>
      rw [hs] at hsending
      cases hsending

/-- A packet that is sent was solicited before. -/
def Spoken (p : Env K C Q) (pre : List Traffic) : Traffic → Prop
  | .sent packet => Solicited p (heards pre) packet
  | _ => True

/-- **The proxy speaks only when spoken to**, in either mode and in every run. -/
theorem outbound_solicited (law : PathLaw p.quiche.connection paths)
    (haccepts : AcceptsPeer p.quiche paths) {quicConfig : C} {is : List Input}
    {es : List Traffic}
    (hr : run (observe (step p) (traffic p)) (State.init quicConfig) is = some (s, es)) :
    LogAll (Spoken p) es := by
  refine @run_logAll _ _ _ _ (fun es s => Opening p s ∧ AllInformed p paths (heards es) s)
    (Spoken p) is es (State.init quicConfig) s
    ⟨opening_init quicConfig, allInformed_init quicConfig⟩ ?_ ?_ hr
  · rintro es s i s' fs ⟨hopening, h⟩ hm
    obtain ⟨o, hstep, rfl⟩ := observe_eq_some.mp hm
    rw [heards_append, heards_traffic]
    exact ⟨step_opening hopening hstep, (step_informed law haccepts hopening h hstep).1⟩
  · rintro es s i s' fs ⟨hopening, h⟩ hm pre x post hpre
    obtain ⟨o, hstep, rfl⟩ := observe_eq_some.mp hm
    cases x with
    | sent packet =>
      have hmem : packet ∈ sents (traffic p s i o) := by
        rw [hpre]
        simp [sents]
      rw [sents_traffic] at hmem
      refine ((step_informed law haccepts hopening h hstep).2 packet hmem).mono ?_
      rw [heards_append]
      exact List.subset_append_left _ _
    | _ => trivial

private theorem speaker_pathLaw : PathLaw speaker.quiche.connection fun _ => [] where
  send_dst h := by cases h
  recv _ _ _ := List.nil_subset _
  send _ := List.nil_subset _
  streamSend _ _ _ _ := List.nil_subset _
  streamRecv _ _ := List.nil_subset _
  close _ _ _ _ := List.nil_subset _
  sendAckEliciting _ := List.nil_subset _
  onTimeout _ := List.nil_subset _

theorem outbound_solicited_sample :
    ∃ s es, run (observe (step speaker) (traffic speaker)) (State.init ()) oddVersion =
        some (s, es) ∧ LogAll (Spoken speaker) es ∧ (sents es).map UdpPacket.dst = [caller] := by
  have hspoken := @outbound_solicited Bytes Unit SendWindow speaker _ (fun _ => []) speaker_pathLaw
    (fun _ _ _ _ _ _ _ _ => List.nil_subset _) () oddVersion _ rfl
  exact ⟨_, _, rfl, hspoken, by decide⟩

end MqttScion.Proxy
