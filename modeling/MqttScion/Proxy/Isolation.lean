import MqttScion.Proxy.RelayLog

/-!
# UdpEndpoint mode keeps its clients apart

Everything a session is given came from the one source it was created for, so
the branch of the handler that follows a client to a new address is never taken
and its replies all go back to that source.

> `sessions_isolated`: in every run, every session works for one source from
> its creation on, and every entry of the log is explained by earlier ones that
> lie on the way of that source alone.
-/

namespace MqttScion.Proxy

open MqttScion.Net MqttScion.Lib

variable {K C Q : Type}

/-- What has to be in the log before an event. -/
def Justified (p : Env K C Q) (pre : List RelayEvent) : RelayEvent → Prop
  | .received _ _ => True
  | .spawned _ key => ∃ src, key = .udp src
  | .offered id packet _ =>
    .spawned id (.udp packet.src) ∈ pre ∧ .received packet.src packet.data ∈ pre
  | .session id (.taken packet) =>
    .spawned id (.udp packet.src) ∈ pre ∧ .offered id packet .ok ∈ pre
  | .session id (.relayed data dst) => dst = p.mqttBrokerAddress ∧
    ∃ packet, packet.data = data ∧ .spawned id (.udp packet.src) ∈ pre ∧
      .session id (.taken packet) ∈ pre
  | .session id (.arrived _ _) => ∃ src, .spawned id (.udp src) ∈ pre
  | .session id (.handed packet) => packet.src = p.localScionAddr ∧
    .spawned id (.udp packet.dst) ∈ pre ∧
    ∃ data src, .session id (.arrived data src) ∈ pre ∧ packet.data = data.take maxDatagramSize
  | .session id (.queued packet) => .session id (.handed packet) ∈ pre
  | .sentTo packet => ∃ id, .session id (.queued packet) ∈ pre

variable {p : Env K C Q} {es : List RelayEvent} {s : State C Q}

/-- A session takes only what comes from the source it is for. -/
theorem Isolated.ownClient (h : Isolated p es s) {id : Nat} {task : Task Q} {src : ScionAddr}
    (ht : s.tasks id = some task) (hkey : task.key = .udp src) :
    UdpMode.OwnClient (p.udpConfig src) (sessionLog es id) := by
  intro packet hmem
  have haccepted : packet ∈ accepted es id := (h.channel id).out_isPrefix.mem hmem
  obtain ⟨task', ht', hkey'⟩ := h.spawned id _ (h.source id packet haccepted)
  rw [ht, Option.some.injEq] at ht'
  rw [← ht', hkey, Key.udp.injEq] at hkey'
  exact hkey'.symm

/-- The books of a session, and the source it is for. -/
theorem Isolated.account (h : Isolated p es s) {id : Nat} {task : Task Q}
    (ht : s.tasks id = some task) : ∃ src c, task.key = .udp src ∧ task.session = .udp c ∧
      .spawned id (.udp src) ∈ es ∧ UdpMode.OwnClient (p.udpConfig src) (sessionLog es id) ∧
      UdpMode.Account (p.udpConfig src) (sessionLog es id) c := by
  obtain ⟨src, c, is, hkey, hsession, hspawned, hrun⟩ := h.session id task ht
  exact ⟨src, c, hkey, hsession, hspawned, h.ownClient ht hkey, UdpMode.run_account hrun⟩

/-- What a session logs is explained by what it has taken and what arrived. -/
theorem session_justified (hreg : RegistryInv p s) (h : Isolated p es s) {id : Nat}
    {i : SessionInput} {s' : State C Q} (hmove : taskMove p id i s = some s') :
    LogAll (fun pre e => Justified p (es ++ pre) e) (relayEvents p s (.task id i) []) := by
  obtain ⟨task, -, -, -, ht, -⟩ := taskMove_eq_some hmove
  obtain ⟨src, c, hkey, hsession, hspawned, hown, hacc⟩ := h.account ht
  obtain ⟨j, c', o, rfl, hj, hcouple, -, -⟩ := taskMove_udp hmove ht hsession
  rw [relayEvents_udp p [] ht hsession hj]
  have hentries := UdpMode.step_entries hj
  generalize UdpMode.events c j o = fs at hentries
  cases hentries with
  | nothing _ => exact logAll_nil _
  | took packet hpc =>
    cases hcouple with
    | @took packet chan hrecv _ _ =>
      rw [(hreg.task id task ht).1] at hrecv
      obtain ⟨hqueue, -⟩ := Chan.recv_eq_some hrecv
      -- the front of the channel was accepted, so it came from the source of the key
      have haccepted : packet ∈ accepted es id := by
        refine (h.channel id).front.mem (List.mem_append_right _ ?_)
        rw [hqueue]
        exact List.mem_cons_self
      rw [List.map_singleton, logAll_singleton, List.append_nil]
      exact ⟨h.source id packet haccepted, mem_accepted.mp haccepted⟩
    | own htake _ _ => exact absurd rfl (htake packet)
  | arrived data sender hpc =>
    have hreply : c.config.reply data = (p.udpConfig src).reply data := by
      simp only [UdpMode.Config.reply, hacc.localProxyAddr, hacc.remoteClientAddr hown]
    rw [hreply]
    show LogAll _ ([RelayEvent.session id (.arrived data sender)] ++
      [RelayEvent.session id (.handed ((p.udpConfig src).reply data))])
    rw [logAll_append, logAll_singleton, logAll_singleton]
    refine ⟨⟨src, List.mem_append_left _ hspawned⟩, rfl, List.mem_append_left _ hspawned, data,
      sender, ?_, rfl⟩
    exact List.mem_append_right es (by simp)
  | relayed data hpc =>
    -- the datagram being sent is the last one taken
    have hmem : data ∈ (UdpMode.taken (sessionLog es id)).map UdpPacket.data := by
      refine hacc.toBroker.front.mem (List.mem_append_right _ ?_)
      rw [hpc]
      exact List.mem_singleton_self data
    obtain ⟨packet, htaken, hdata⟩ := List.mem_map.mp hmem
    have hsrc : packet.src = src := hown packet htaken
    rw [List.map_singleton, logAll_singleton, List.append_nil]
    refine ⟨hacc.mqttBrokerAddress, packet, hdata, ?_, ?_⟩
    · rw [hsrc]
      exact hspawned
    · exact mem_sessionLog.mp (UdpMode.mem_taken.mp htaken)
  | queued packet hpc =>
    have hmem : packet ∈ UdpMode.handed (sessionLog es id) := by
      refine hacc.toClient.front.mem (List.mem_append_right _ ?_)
      rw [hpc]
      exact List.mem_singleton_self packet
    rw [List.map_singleton, logAll_singleton, List.append_nil]
    exact mem_sessionLog.mp (UdpMode.mem_handed.mp hmem)

/-- What the main loop logs is explained by what it holds. -/
theorem mainStep_justified (h : Isolated p es s) {s' : State C Q} {i : Input}
    {o : List Output} (hstep : mainStep p s i = some (s', o)) :
    LogAll (fun pre e => Justified p (es ++ pre) e) (relayEvents p s i o) := by
  unfold mainStep at hstep
  split at hstep
  · next data src hpc =>
    simp only [relayEvents, logAll_singleton, Justified]
  · exact logAll_nil _
  · exact logAll_nil _
  · exact logAll_nil _
  · next packet ok hpc =>
    have hd : PcIsolated p es s (.sendTo packet) := hpc ▸ h.pc
    obtain ⟨id, hid⟩ := hd
    cases ok with
    | true =>
      simp only [relayEvents, hpc, logAll_singleton, List.append_nil]
      exact ⟨id, hid⟩
    | false => exact logAll_nil _
  · next d hpc =>
    simp only [relayEvents, hpc]
    exact logAll_nil _
  · next info d hpc =>
    have hd : PcIsolated p es s (.forward info d) := hpc ▸ h.pc
    obtain ⟨src, data, task, rfl, hrec, ht, hkey⟩ := hd
    obtain ⟨src', c, hkey', -, hspawned, -⟩ := h.account ht
    rw [hkey] at hkey'
    simp only [relayEvents, hpc, logAll_singleton, List.append_nil]
    refine ⟨?_, hrec⟩
    show RelayEvent.spawned info.sender (.udp src) ∈ es
    rw [hkey']
    exact hspawned
  · next d hpc =>
    simp only [relayEvents, hpc]
    exact logAll_nil _
  · next origin task hpc =>
    simp only [relayEvents, hpc]
    exact logAll_nil _
  · next task hpc =>
    have hd : PcIsolated p es s (.spawn task) := hpc ▸ h.pc
    obtain ⟨src, hkey, -⟩ := hd
    simp only [relayEvents, hpc, logAll_singleton]
    exact ⟨src, hkey⟩
  · cases hstep

theorem step_justified (hreg : RegistryInv p s) (h : Isolated p es s) {s' : State C Q}
    {i : Input} {o : List Output} (hstep : step p s i = some (s', o)) :
    LogAll (fun pre e => Justified p (es ++ pre) e) (relayEvents p s i o) := by
  rcases step_turn hstep with ⟨hturn, rfl⟩ | hmain
  · cases hturn with
    | moves hmove => exact session_justified hreg h hmove
    | finishes _ _ => exact logAll_nil _
    | removes _ _ => exact logAll_nil _
    | drops _ _ => exact logAll_nil _
  · exact mainStep_justified h hmain

/-- No event of a run lacks its cause. -/
theorem run_justified (hmode : p.mode = .udpEndpoint) {quicConfig : C} {is : List Input}
    {s : State C Q} {es : List RelayEvent}
    (hr : run (observe (step p) (relayEvents p)) (State.init quicConfig) is = some (s, es)) :
    LogAll (Justified p) es := by
  refine @run_logAll _ _ _ _ (fun es s => RegistryInv p s ∧ Isolated p es s) _ _ _ _ _
    ⟨registryInv_init quicConfig, isolated_init quicConfig⟩ ?_ ?_ hr
  · intro es s i s' fs h hstep
    obtain ⟨o, hm, rfl⟩ := observe_eq_some.mp hstep
    exact ⟨(step_ok h.1 hm).inv, step_isolated hmode h.1 h.2 hm⟩
  · intro es s i s' fs h hstep
    obtain ⟨o, hm, rfl⟩ := observe_eq_some.mp hstep
    exact step_justified h.1 h.2 hm

/-- **Clients are isolated**: in every run in UdpEndpoint mode, every task is a
session of the one source it was spawned for, still has that source as its
client, and hands every datagram that arrives on its socket to the main loop as
a packet from the proxy's address to that source; and no event of the log lacks
its cause, which for the datagrams of a session is on the way of its source. -/
theorem sessions_isolated (hmode : p.mode = .udpEndpoint) {quicConfig : C} {is : List Input}
    {s : State C Q} {es : List RelayEvent}
    (hr : run (observe (step p) (relayEvents p)) (State.init quicConfig) is = some (s, es)) :
    (∀ id task, s.tasks id = some task → ∃ src c, task.key = .udp src ∧
      task.session = .udp c ∧ .spawned id (.udp src) ∈ es ∧ c.config.remoteClientAddr = src ∧
      UdpMode.handed (sessionLog es id) =
        (UdpMode.arrived (sessionLog es id)).map fun d => (p.udpConfig src).reply d.1) ∧
    (∀ id key key', .spawned id key ∈ es → .spawned id key' ∈ es → key = key') ∧
    LogAll (Justified p) es := by
  obtain ⟨-, h⟩ := run_isolated hmode hr
  refine ⟨?_, ?_, ?_⟩
  · intro id task ht
    obtain ⟨src, c, hkey, hsession, hspawned, hown, hacc⟩ := h.account ht
    exact ⟨src, c, hkey, hsession, hspawned, hacc.remoteClientAddr hown, hacc.handed_reply hown⟩
  · intro id key key' hmem hmem'
    obtain ⟨task, ht, hkey⟩ := h.spawned id key hmem
    obtain ⟨task', ht', hkey'⟩ := h.spawned id key' hmem'
    rw [ht, Option.some.injEq] at ht'
    rw [← hkey, ← hkey', ht']
  · exact run_justified hmode hr

private def alice : ScionAddr := ⟨1, .ip (.ipv4 10 0 0 1), 4433⟩

private def bob : ScionAddr := ⟨6, .ip (.ipv4 10 0 0 1), 4433⟩

private def udpProxy : Env Bytes Unit SendWindow where
  hmac := Hmac.ofTable []
  quiche := wireServer fun _ _ => Vector.replicate 16 0
  mode := .udpEndpoint
  mqttBrokerAddress := ⟨.ipv4 127 0 0 1, 1883⟩
  tokenKey := []
  connIdSeed := []
  localScionAddr := ⟨5, .ip (.ipv4 10 0 0 2), 4433⟩
  localAddr := ⟨.ipv4 10 0 0 2, 4433⟩
  localAddr_eq := rfl

/-- A datagram of an unknown client, up to the spawn of its session. -/
private def hello (src : ScionAddr) : List Input :=
  [.recvFrom [0] src, .step, .step, .step, .step]

/-- A datagram of a known client, up to the `try_send`. -/
private def datagram (src : ScionAddr) (data : Bytes) : List Input :=
  [.recvFrom data src, .step, .step]

/-- Two clients behind the same IP address and port, in different ASes, and a
reply to the second. -/
private def twoClients : List Input :=
  hello alice ++ hello bob ++ datagram alice [1] ++ datagram bob [2] ++
    [.task 0 (.udp (.bound true)), .task 1 (.udp (.bound true)),
      .task 1 (.udp (.udp (some ⟨bob, udpProxy.localScionAddr, [2]⟩))),
      .task 1 (.udp (.sent true)),
      .task 1 (.udp (.broker (some ([3], udpProxy.mqttBrokerAddress)))),
      .task 1 (.udp (.queued true)), .recvPacket, .sent true]

theorem sessions_isolated_sample :
    ∃ s es, run (observe (step udpProxy) (relayEvents udpProxy)) (State.init ()) twoClients =
        some (s, es) ∧
      .sentTo ⟨udpProxy.localScionAddr, bob, [3]⟩ ∈ es ∧ LogAll (Justified udpProxy) es :=
  ⟨_, _, rfl, by decide,
    (@sessions_isolated Bytes Unit SendWindow udpProxy rfl () twoClients _ _ rfl).2.2⟩

end MqttScion.Proxy
