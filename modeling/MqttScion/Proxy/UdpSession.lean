import MqttScion.Lib.Observe
import MqttScion.Lib.Relay
import MqttScion.Proxy.UdpMode

/-!
# What a UdpEndpoint session does with its datagrams

The session stands between two queues, one in each direction: what it takes
from its channel it sends to the broker before it takes anything else, and what
arrives on its socket it hands to the main loop before it looks at the socket
again. `events` logs both ends of both directions, and `Account` balances them:

> `run_account`: in every run, what was sent to the broker is what was taken
> from the channel, in order, but for the one datagram being sent; and what was
> handed to the main loop is what arrived on the socket, in order, cut to the
> size of the buffer.

The address of the client follows the source of what is taken. So as long as
that never differs from the one the session was created for, the packets handed
to the main loop all go there.
-/

namespace MqttScion.Proxy.UdpMode

open MqttScion.Net MqttScion.Lib

/-- What happens to a datagram at a session. -/
inductive Event
  /-- A packet is taken from the channel of the client's datagrams. -/
  | taken (packet : UdpPacket)
  /-- `send_to` on the socket has succeeded. -/
  | relayed (data : Bytes) (dst : SocketAddr)
  /-- A datagram arrives on the socket: all of it, and its source. -/
  | arrived (data : Bytes) (src : SocketAddr)
  /-- `tx_quic_to_udp.send(packet)` is called. -/
  | handed (packet : UdpPacket)
  /-- The send has succeeded. -/
  | queued (packet : UdpPacket)
  deriving DecidableEq

/-- The data of the `send_to` that is awaited. -/
@[simp] def Pc.unsent : Pc → List Bytes
  | .sendBroker data => [data]
  | _ => []

/-- The packet of the `tx_quic_to_udp.send` that is awaited. -/
@[simp] def Pc.unqueued : Pc → List UdpPacket
  | .queue packet => [packet]
  | _ => []

/-- The handler has returned. -/
@[simp] def Pc.ended : Pc → Bool
  | .returned _ => true
  | _ => false

def Output.event : Output → Event
  | .toBroker data dst => .relayed data dst
  | .queued packet => .queued packet

/-- What a step takes in. -/
def intake (s : Connection) : Input → List Event
  | .udp (some packet) => [.taken packet]
  | .broker (some (data, src)) =>
    .arrived data src :: (onBroker (some (data, src)) s).pc.unqueued.map .handed
  | _ => []

/-- The log of a session. -/
def events (s : Connection) (i : Input) (o : List Output) : List Event :=
  intake s i ++ o.map Output.event

def taken (es : List Event) : List UdpPacket :=
  es.filterMap fun e => match e with
    | .taken packet => some packet
    | _ => none

def relayed (es : List Event) : List (Bytes × SocketAddr) :=
  es.filterMap fun e => match e with
    | .relayed data dst => some (data, dst)
    | _ => none

def arrived (es : List Event) : List (Bytes × SocketAddr) :=
  es.filterMap fun e => match e with
    | .arrived data src => some (data, src)
    | _ => none

def handed (es : List Event) : List UdpPacket :=
  es.filterMap fun e => match e with
    | .handed packet => some packet
    | _ => none

def queued (es : List Event) : List UdpPacket :=
  es.filterMap fun e => match e with
    | .queued packet => some packet
    | _ => none

@[simp] theorem taken_append (es fs : List Event) : taken (es ++ fs) = taken es ++ taken fs :=
  List.filterMap_append

@[simp] theorem relayed_append (es fs : List Event) :
    relayed (es ++ fs) = relayed es ++ relayed fs := List.filterMap_append

@[simp] theorem arrived_append (es fs : List Event) :
    arrived (es ++ fs) = arrived es ++ arrived fs := List.filterMap_append

@[simp] theorem handed_append (es fs : List Event) : handed (es ++ fs) = handed es ++ handed fs :=
  List.filterMap_append

@[simp] theorem queued_append (es fs : List Event) : queued (es ++ fs) = queued es ++ queued fs :=
  List.filterMap_append

theorem mem_taken {es : List Event} {packet : UdpPacket} :
    packet ∈ taken es ↔ .taken packet ∈ es := by
  simp only [taken, List.mem_filterMap]
  constructor
  · rintro ⟨e, hmem, heq⟩
    split at heq
    · rw [← Option.some.inj heq]
      exact hmem
    · cases heq
  · intro hmem
    exact ⟨.taken packet, hmem, rfl⟩

theorem mem_handed {es : List Event} {packet : UdpPacket} :
    packet ∈ handed es ↔ .handed packet ∈ es := by
  simp only [handed, List.mem_filterMap]
  constructor
  · rintro ⟨e, hmem, heq⟩
    split at heq
    · rw [← Option.some.inj heq]
      exact hmem
    · cases heq
  · intro hmem
    exact ⟨.handed packet, hmem, rfl⟩

/-- The packet made of a datagram on the socket, for the client of the
session. -/
def Config.reply (config : Config) (data : Bytes) : UdpPacket :=
  { src := config.localProxyAddr
    dst := config.remoteClientAddr
    data := data.take maxDatagramSize }

/-- What a step may log, and in which state. -/
inductive Entries (s : Connection) : Input → List Event → Prop
  | nothing {i} (hi : intake s i = []) : Entries s i []
  | took (packet) (hpc : s.pc = .select) : Entries s (.udp (some packet)) [.taken packet]
  | arrived (data src) (hpc : s.pc = .select) : Entries s (.broker (some (data, src)))
      [.arrived data src, .handed (s.config.reply data)]
  | relayed (data) (hpc : s.pc = .sendBroker data) :
      Entries s (.sent true) [.relayed data s.config.mqttBrokerAddress]
  | queued (packet) (hpc : s.pc = .queue packet) : Entries s (.queued true) [.queued packet]

theorem step_entries {s s' : Connection} {i : Input} {o : List Output}
    (h : step s i = some (s', o)) : Entries s i (events s i o) := by
  unfold step at h
  split at h
  · split at h
    · obtain ⟨-, rfl⟩ := Prod.mk.inj (Option.some.inj h)
      exact .nothing rfl
    · obtain ⟨-, rfl⟩ := Prod.mk.inj (Option.some.inj h)
      exact .nothing rfl
  · obtain ⟨-, rfl⟩ := Prod.mk.inj (Option.some.inj h)
    exact .nothing rfl
  · obtain ⟨-, rfl⟩ := Prod.mk.inj (Option.some.inj h)
    exact .nothing rfl
  · next packet hpc =>
    obtain ⟨-, rfl⟩ := Prod.mk.inj (Option.some.inj h)
    exact .took packet hpc
  · next datagram hpc =>
    obtain ⟨-, rfl⟩ := Prod.mk.inj (Option.some.inj h)
    cases datagram with
    | none => exact .nothing rfl
    | some d => exact .arrived d.1 d.2 hpc
  · obtain ⟨-, rfl⟩ := Prod.mk.inj (Option.some.inj h)
    exact .nothing rfl
  · next data ok hpc =>
    split at h
    · next hok =>
      obtain ⟨-, rfl⟩ := Prod.mk.inj (Option.some.inj h)
      rw [hok]
      exact .relayed data hpc
    · obtain ⟨-, rfl⟩ := Prod.mk.inj (Option.some.inj h)
      exact .nothing rfl
  · next packet rxAlive hpc =>
    split at h
    · next halive =>
      obtain ⟨-, rfl⟩ := Prod.mk.inj (Option.some.inj h)
      rw [halive]
      exact .queued packet hpc
    · obtain ⟨-, rfl⟩ := Prod.mk.inj (Option.some.inj h)
      exact .nothing rfl
  · cases h

/-- A packet is logged as taken when it is taken. -/
theorem taken_events_udp {s s' : Connection} {packet : UdpPacket} {o : List Output}
    (h : step s (.udp (some packet)) = some (s', o)) :
    taken (events s (.udp (some packet)) o) = [packet] := by
  cases hpc : s.pc with
  | select =>
    simp only [step, hpc] at h
    obtain ⟨-, rfl⟩ := Prod.mk.inj (Option.some.inj h)
    rfl
  | _ => simp [step, hpc] at h

/-- A step other than the taking of a packet takes none. -/
theorem taken_events_own {s s' : Connection} {i : Input} {o : List Output}
    (h : step s i = some (s', o)) (hi : ∀ packet, i ≠ .udp (some packet)) :
    taken (events s i o) = [] := by
  have hentries := step_entries h
  generalize events s i o = es at hentries
  cases hentries with
  | took packet _ => exact absurd rfl (hi packet)
  | nothing _ => rfl
  | arrived data src _ => rfl
  | relayed data _ => rfl
  | queued packet _ => rfl

/-- Everything taken from the channel came from the client of the session. -/
def OwnClient (config : Config) (es : List Event) : Prop :=
  ∀ packet ∈ taken es, packet.src = config.remoteClientAddr

theorem ownClient_append {config : Config} {es fs : List Event} :
    OwnClient config (es ++ fs) ↔ OwnClient config es ∧ OwnClient config fs := by
  simp only [OwnClient, taken_append, List.forall_mem_append]

/-- The books of both directions, for a session created with `config`. -/
structure Account (config : Config) (es : List Event) (s : Connection) : Prop where
  localProxyAddr : s.config.localProxyAddr = config.localProxyAddr
  mqttBrokerAddress : s.config.mqttBrokerAddress = config.mqttBrokerAddress
  remoteClientAddr : OwnClient config es → s.config.remoteClientAddr = config.remoteClientAddr
  toBroker : Relay ((taken es).map UdpPacket.data) s.pc.unsent ((relayed es).map Prod.fst)
    s.pc.ended
  toBroker_dst : ∀ d ∈ relayed es, d.2 = config.mqttBrokerAddress
  toClient : Relay (handed es) s.pc.unqueued (queued es) s.pc.ended
  handed_data : (handed es).map UdpPacket.data =
    (arrived es).map fun d => d.1.take maxDatagramSize
  handed_reply : OwnClient config es → handed es = (arrived es).map fun d => config.reply d.1

variable {config : Config} {es : List Event} {s : Connection}

theorem account_new (config : Config) : Account config [] (Connection.new config) :=
  ⟨rfl, rfl, fun _ => rfl, .empty _, nofun, .empty _, rfl, fun _ => rfl⟩

/-- The program counter moves on, with what it awaits still to come or lost. -/
theorem Account.goto (h : Account config es s) {pc : Pc}
    (hsent : Relay ((taken es).map UdpPacket.data) pc.unsent ((relayed es).map Prod.fst) pc.ended)
    (hqueued : Relay (handed es) pc.unqueued (queued es) pc.ended) :
    Account config es { s with pc := pc } :=
  ⟨h.localProxyAddr, h.mqttBrokerAddress, h.remoteClientAddr, hsent, h.toBroker_dst, hqueued,
    h.handed_data, h.handed_reply⟩

/-- The handler returns: what was awaited is lost. -/
theorem Account.ret (h : Account config es s) (r : Except Fault Unit) :
    Account config es { s with pc := .returned r } := h.goto h.toBroker.close h.toClient.close

/-- A packet is taken, and becomes the one being sent. -/
theorem Account.take (h : Account config es s) (hpc : s.pc = .select) (packet : UdpPacket) :
    Account config (es ++ [.taken packet]) (onUdp packet s) := by
  have hsent := h.toBroker
  have hqueued := h.toClient
  rw [hpc] at hsent hqueued
  have hown : OwnClient config (es ++ [.taken packet]) → packet.src = config.remoteClientAddr :=
    fun hown => hown packet (by simp [taken])
  have hconfig : (onUdp packet s).config.localProxyAddr = s.config.localProxyAddr ∧
      (onUdp packet s).config.mqttBrokerAddress = s.config.mqttBrokerAddress ∧
      (onUdp packet s).config.remoteClientAddr = packet.src := by
    unfold onUdp
    split
    · exact ⟨rfl, rfl, rfl⟩
    · next hsrc => exact ⟨rfl, rfl, (not_not.mp hsrc).symm⟩
  refine ⟨hconfig.1.trans h.localProxyAddr, hconfig.2.1.trans h.mqttBrokerAddress,
    fun hown' => hconfig.2.2.trans (hown hown'), ?_, ?_, ?_, ?_, ?_⟩
  · show Relay _ [packet.data] _ false
    simpa [taken, relayed] using hsent.push [packet.data] false
  · simpa [relayed] using h.toBroker_dst
  · show Relay _ [] _ false
    simpa [handed, queued] using hqueued
  · simpa [handed, arrived] using h.handed_data
  · intro hown'
    simpa [handed, arrived] using h.handed_reply (ownClient_append.mp hown').1

/-- A datagram arrives, and its packet becomes the one being queued. -/
theorem Account.arrive (h : Account config es s) (hpc : s.pc = .select) (data : Bytes)
    (src : SocketAddr) :
    Account config (es ++ [.arrived data src, .handed (s.config.reply data)])
      { s with pc := .queue (s.config.reply data) } := by
  have hsent := h.toBroker
  have hqueued := h.toClient
  rw [hpc] at hsent hqueued
  refine ⟨h.localProxyAddr, h.mqttBrokerAddress,
    fun hown => h.remoteClientAddr (ownClient_append.mp hown).1, ?_, ?_, ?_, ?_, ?_⟩
  · simpa [taken, relayed] using hsent
  · simpa [relayed] using h.toBroker_dst
  · simpa [handed, queued] using hqueued.push [s.config.reply data] false
  · have hdata := h.handed_data
    simp only [handed_append, arrived_append, List.map_append, hdata]
    simp [handed, arrived, Config.reply]
  · intro hown
    have hold := (ownClient_append.mp hown).1
    have hreply : s.config.reply data = config.reply data := by
      simp only [Config.reply, h.localProxyAddr, h.remoteClientAddr hold]
    rw [hreply]
    simp only [handed_append, arrived_append, List.map_append, h.handed_reply hold]
    simp [handed, arrived]

/-- The awaited `send_to` succeeds. -/
theorem Account.relay (h : Account config es s) {data : Bytes} (hpc : s.pc = .sendBroker data) :
    Account config (es ++ [.relayed data s.config.mqttBrokerAddress])
      { s with pc := .select } := by
  have hsent := h.toBroker
  have hqueued := h.toClient
  rw [hpc] at hsent hqueued
  refine ⟨h.localProxyAddr, h.mqttBrokerAddress,
    fun hown => h.remoteClientAddr (ownClient_append.mp hown).1, ?_, ?_, ?_, ?_, ?_⟩
  · simpa [taken, relayed] using hsent.pop
  · intro d hd
    rw [relayed_append, List.mem_append] at hd
    rcases hd with hd | hd
    · exact h.toBroker_dst d hd
    · have hlast : d = (data, s.config.mqttBrokerAddress) := by simpa [relayed] using hd
      rw [hlast]
      exact h.mqttBrokerAddress
  · simpa [handed, queued] using hqueued
  · simpa [handed, arrived] using h.handed_data
  · intro hown
    simpa [handed, arrived] using h.handed_reply (ownClient_append.mp hown).1

/-- The awaited `tx_quic_to_udp.send` succeeds. -/
theorem Account.queue (h : Account config es s) {packet : UdpPacket} (hpc : s.pc = .queue packet) :
    Account config (es ++ [.queued packet]) { s with pc := .select } := by
  have hsent := h.toBroker
  have hqueued := h.toClient
  rw [hpc] at hsent hqueued
  refine ⟨h.localProxyAddr, h.mqttBrokerAddress,
    fun hown => h.remoteClientAddr (ownClient_append.mp hown).1, ?_, ?_, ?_, ?_, ?_⟩
  · simpa [taken, relayed] using hsent
  · simpa [relayed] using h.toBroker_dst
  · simpa [handed, queued] using hqueued.pop
  · simpa [handed, arrived] using h.handed_data
  · intro hown
    simpa [handed, arrived] using h.handed_reply (ownClient_append.mp hown).1

/-- A step keeps the books. -/
theorem account_step {s' : Connection} {i : Input} {o : List Output} (h : Account config es s)
    (hstep : step s i = some (s', o)) : Account config (es ++ events s i o) s' := by
  unfold step at hstep
  split at hstep
  · next hpc =>
    split at hstep
    · obtain ⟨rfl, rfl⟩ := Prod.mk.inj (Option.some.inj hstep)
      have hsent := h.toBroker
      have hqueued := h.toClient
      rw [hpc] at hsent hqueued
      simpa [events, intake] using @Account.goto config es s h .select hsent hqueued
    · obtain ⟨rfl, rfl⟩ := Prod.mk.inj (Option.some.inj hstep)
      simpa [events, intake] using h.ret (.error .bind)
  · obtain ⟨rfl, rfl⟩ := Prod.mk.inj (Option.some.inj hstep)
    simpa [events, intake] using h.ret (.ok ())
  · obtain ⟨rfl, rfl⟩ := Prod.mk.inj (Option.some.inj hstep)
    simpa [events, intake] using h.ret (.ok ())
  · next packet hpc =>
    obtain ⟨rfl, rfl⟩ := Prod.mk.inj (Option.some.inj hstep)
    exact h.take hpc packet
  · next datagram hpc =>
    obtain ⟨rfl, rfl⟩ := Prod.mk.inj (Option.some.inj hstep)
    cases datagram with
    | none => simpa [events, intake, onBroker] using h
    | some d => exact h.arrive hpc d.1 d.2
  · obtain ⟨rfl, rfl⟩ := Prod.mk.inj (Option.some.inj hstep)
    simpa [events, intake] using h.ret (.ok ())
  · next data ok hpc =>
    split at hstep
    · obtain ⟨rfl, rfl⟩ := Prod.mk.inj (Option.some.inj hstep)
      exact h.relay hpc
    · obtain ⟨rfl, rfl⟩ := Prod.mk.inj (Option.some.inj hstep)
      simpa [events, intake] using h.ret (.error .brokerSend)
  · next packet rxAlive hpc =>
    split at hstep
    · obtain ⟨rfl, rfl⟩ := Prod.mk.inj (Option.some.inj hstep)
      exact h.queue hpc
    · obtain ⟨rfl, rfl⟩ := Prod.mk.inj (Option.some.inj hstep)
      simpa [events, intake] using h.ret (.error .channelClosed)
  · cases hstep

/-- **The books of a session balance** after every run. -/
theorem run_account {is : List Input} {es : List Event} {s : Connection}
    (hr : run (observe step events) (Connection.new config) is = some (s, es)) :
    Account config es s := by
  refine run_induct (account_new config) ?_ hr
  intro es s i s' fs h hstep
  obtain ⟨o, hm, rfl⟩ := observe_eq_some.mp hstep
  exact account_step h hm

end MqttScion.Proxy.UdpMode
