import Mathlib.Data.List.TakeDrop
import MqttScion.Proxy.Isolation

/-!
# When a UdpEndpoint session is a faithful relay

Toward the broker a session is one: every datagram it takes goes out whole and
in order. But the datagram that finds no session, and creates one, is given to
none. Back to the client a session is no faithful relay. The socket is bound to the
wildcard address and never connected, and the source of a datagram is only logged,
so anyone who can reach the socket writes to the client; and the buffer a datagram
is received into has `MAX_DATAGRAM_SIZE` bytes, so a longer one is cut.

> `only_broker_iff`: in every run of a session, what it hands to the main loop
> is the broker's, and is the same as without the datagrams of other hosts,
> exactly when no other host sends one.

> `unchanged_iff`: in every run of the proxy, from any state on, the datagrams of a
> client are relayed unchanged exactly when each of them finds a session and none
> that arrives on the socket of its session is longer than the buffer.
-/

namespace MqttScion.Proxy

open MqttScion.Net MqttScion.Lib

namespace UdpMode

/-- Every packet handed to the main loop is made of a datagram of this host. -/
def OnlyFrom (host : SocketAddr) (es : List Event) : Prop :=
  LogAll (fun pre e => ∀ packet, e = .handed packet →
    ∃ data, pre.getLast? = some (.arrived data host)) es

/-- The inputs without the datagrams of other hosts, and without the outcome of
queueing them; `pending` is whether such a datagram is being queued. -/
def withoutForeign (host : SocketAddr) : Bool → List Input → List Input
  | _, [] => []
  | true, .queued _ :: is => withoutForeign host false is
  | pending, .broker (some (data, src)) :: is =>
    if src = host then .broker (some (data, src)) :: withoutForeign host pending is
    else withoutForeign host true is
  | pending, i :: is => i :: withoutForeign host pending is

/-- The input is no datagram of another host. -/
def Native (host : SocketAddr) (i : Input) : Prop :=
  ∀ data src, i = .broker (some (data, src)) → src = host

variable {config : Config} {s s' : Connection} {i : Input} {o : List Output}

/-- An input of the host's own stays. -/
theorem withoutForeign_cons {host : SocketAddr} (hi : Native host i) (is : List Input) :
    withoutForeign host false (i :: is) = i :: withoutForeign host false is := by
  cases i with
  | broker datagram =>
    cases datagram with
    | none => rfl
    | some d => simp only [withoutForeign, if_pos (hi d.1 d.2 rfl)]
  | _ => rfl

/-- With no foreign datagram there is nothing to leave out. -/
theorem withoutForeign_eq_self {host : SocketAddr} :
    ∀ {is : List Input}, (∀ i ∈ is, Native host i) → withoutForeign host false is = is := by
  intro is
  induction is with
  | nil =>
    intro _
    rfl
  | cons i is ih =>
    intro h
    rw [List.forall_mem_cons] at h
    rw [withoutForeign_cons h.1, ih h.2]

/-- A step leaves only the host's packets handed exactly when it takes no
foreign datagram. -/
theorem step_onlyFrom_iff {host : SocketAddr} {es : List Event}
    (h : step s i = some (s', o)) :
    OnlyFrom host (es ++ events s i o) ↔ OnlyFrom host es ∧ Native host i := by
  have hentries := step_entries h
  generalize events s i o = fs at hentries
  unfold OnlyFrom
  cases hentries with
  | nothing hi =>
    rw [List.append_nil]
    refine (and_iff_left fun data src hd => ?_).symm
    rw [hd] at hi
    cases hi
  | took packet _ =>
    rw [logAll_append_singleton]
    exact and_congr_right fun _ => iff_of_true (fun _ he => by cases he) (fun _ _ hd => by cases hd)
  | relayed data _ =>
    rw [logAll_append_singleton]
    exact and_congr_right fun _ => iff_of_true (fun _ he => by cases he) (fun _ _ hd => by cases hd)
  | queued packet _ =>
    rw [logAll_append_singleton]
    exact and_congr_right fun _ => iff_of_true (fun _ he => by cases he) (fun _ _ hd => by cases hd)
  | arrived data src _ =>
    have hpair : es ++ [Event.arrived data src, .handed (s.config.reply data)] =
        (es ++ [.arrived data src]) ++ [.handed (s.config.reply data)] := by simp
    rw [hpair, logAll_append_singleton, logAll_append_singleton]
    constructor
    · rintro ⟨⟨hes, -⟩, hlast⟩
      obtain ⟨data', hlast'⟩ := hlast _ rfl
      rw [List.getLast?_concat, Option.some.injEq, Event.arrived.injEq] at hlast'
      refine ⟨hes, fun data₂ src₂ hd => ?_⟩
      obtain ⟨rfl, rfl⟩ := Prod.mk.inj (Option.some.inj (Input.broker.inj hd))
      exact hlast'.2
    · rintro ⟨hes, hnative⟩
      refine ⟨⟨hes, fun _ he => by cases he⟩, fun _ _ => ⟨data, ?_⟩⟩
      rw [List.getLast?_concat, hnative data src rfl]

/-- **Foreign datagrams only add**: the run without them sends the broker the
same, and hands the main loop no packet that was not handed anyway, in the same
order. -/
theorem run_withoutForeign (host : SocketAddr) :
    ∀ {is : List Input} {s s' t : Connection} {es : List Event} (pending : Bool),
      (pending = false → s = s') →
      (pending = true → ∃ packet, s = { s' with pc := .queue packet } ∧ s'.pc = .select) →
      run (observe step events) s is = some (t, es) →
      ∃ t' es', run (observe step events) s' (withoutForeign host pending is) = some (t', es') ∧
        relayed es' = relayed es ∧ (handed es').Sublist (handed es) ∧
        (queued es').Sublist (queued es) := by
  intro is
  induction is with
  | nil =>
    intro s s' t es pending _ _ hr
    simp only [run_nil, Option.some.injEq, Prod.mk.injEq] at hr
    obtain ⟨rfl, rfl⟩ := hr
    cases pending <;> exact ⟨s', [], rfl, rfl, .slnil, .slnil⟩
  | cons i is ih =>
    intro s s' t es pending hsame hpend hr
    obtain ⟨s₁, e₁, e₂, hm, hr', rfl⟩ := run_cons_eq_some.mp hr
    obtain ⟨o₁, hstep, rfl⟩ := observe_eq_some.mp hm
    cases pending with
    | true =>
      -- the foreign packet is being queued: nothing else can happen
      obtain ⟨packet, rfl, hpc⟩ := hpend rfl
      cases i with
      | queued rxAlive =>
        show ∃ t' es', run _ s' (withoutForeign host false is) = some (t', es') ∧ _
        cases rxAlive with
        | true =>
          simp only [step, if_true] at hstep
          obtain ⟨rfl, rfl⟩ := Prod.mk.inj (Option.some.inj hstep)
          have hback : ({ s' with pc := .select } : Connection) = s' := by rw [← hpc]
          obtain ⟨t', es', hrun, hrel, hhand, hque⟩ := ih false (fun _ => hback) (by simp) hr'
          refine ⟨t', es', hrun, ?_, ?_, ?_⟩
          · rw [relayed_append, hrel]
            rfl
          · rw [handed_append]
            exact hhand.trans (List.sublist_append_right _ _)
          · rw [queued_append]
            exact hque.trans (List.sublist_append_right _ _)
        | false =>
          simp only [step, Bool.false_eq_true, if_false] at hstep
          obtain ⟨rfl, rfl⟩ := Prod.mk.inj (Option.some.inj hstep)
          -- the handler has returned, so the run is over
          cases is with
          | nil =>
            simp only [run_nil, Option.some.injEq, Prod.mk.injEq] at hr'
            obtain ⟨rfl, rfl⟩ := hr'
            exact ⟨s', [], rfl, rfl, List.nil_sublist _, List.nil_sublist _⟩
          | cons i' is' =>
            obtain ⟨s₂, e₃, e₄, hm', -, -⟩ := run_cons_eq_some.mp hr'
            obtain ⟨o₂, hstep', -⟩ := observe_eq_some.mp hm'
            simp [step] at hstep'
      | _ => simp [step] at hstep
    | false =>
      obtain rfl := hsame rfl
      by_cases hi : Native host i
      · rw [withoutForeign_cons hi]
        obtain ⟨t', es', hrun, hrel, hhand, hque⟩ := ih false (fun _ => rfl) (by simp) hr'
        refine ⟨t', events s i o₁ ++ es', run_cons_eq_some.mpr ⟨s₁, _, es', hm, hrun, rfl⟩,
          ?_, ?_, ?_⟩
        · rw [relayed_append, relayed_append, hrel]
        · rw [handed_append, handed_append]
          exact hhand.append_left _
        · rw [queued_append, queued_append]
          exact hque.append_left _
      · -- a foreign datagram, taken at the loop head
        simp only [Native, not_forall] at hi
        obtain ⟨data, src, rfl, hsrc⟩ := hi
        have hleave : withoutForeign host false (.broker (some (data, src)) :: is) =
            withoutForeign host true is := by
          simp only [withoutForeign, if_neg hsrc]
        rw [hleave]
        have hpc : s.pc = .select := by
          cases hpc : s.pc with
          | select => rfl
          | _ => simp [step, hpc] at hstep
        simp only [step, hpc] at hstep
        obtain ⟨rfl, rfl⟩ := Prod.mk.inj (Option.some.inj hstep)
        obtain ⟨t', es', hrun, hrel, hhand, hque⟩ := ih true (by simp)
          (fun _ => ⟨s.config.reply data, rfl, hpc⟩) hr'
        refine ⟨t', es', hrun, ?_, ?_, ?_⟩
        · rw [relayed_append, hrel]
          rfl
        · rw [handed_append]
          exact hhand.trans (List.sublist_append_right _ _)
        · rw [queued_append]
          exact hque.trans (List.sublist_append_right _ _)

/-- **When only the broker is relayed**: in every run of a session, every packet
handed to the main loop is made of a datagram of the broker, and the run without
the datagrams of other hosts queues the same packets, if and only if no datagram
on the socket comes from another host. -/
theorem only_broker_iff {is : List Input} {es : List Event}
    (hr : run (observe step events) (Connection.new config) is = some (s, es)) :
    (OnlyFrom config.mqttBrokerAddress es ∧
      ∃ s' es', run (observe step events) (Connection.new config)
          (withoutForeign config.mqttBrokerAddress false is) = some (s', es') ∧
        handed es' = handed es ∧ queued es' = queued es) ↔
      ∀ i ∈ is, Native config.mqttBrokerAddress i := by
  have hiff : OnlyFrom config.mqttBrokerAddress es ↔
      ∀ i ∈ is, Native config.mqttBrokerAddress i := by
    rw [← @allSteps_input_iff _ _ _ _ _ is [] es _ _ hr]
    refine @run_iff _ _ _ _ _ (fun _ _ => True) (fun es _ => OnlyFrom config.mqttBrokerAddress es)
      is es _ s trivial (logAll_nil _) (fun _ _ _ _ _ _ _ => trivial) ?_ hr
    intro es s i s' fs _ hm
    obtain ⟨o, hstep, rfl⟩ := observe_eq_some.mp hm
    exact step_onlyFrom_iff hstep
  rw [hiff]
  refine ⟨fun h => h.1, fun h => ⟨h, s, es, ?_, rfl, rfl⟩⟩
  rw [withoutForeign_eq_self h]
  exact hr

private def relayConfig : Config where
  localProxyAddr := ⟨7, .ip (.ipv4 10 0 0 2), 4433⟩
  remoteClientAddr := ⟨1, .ip (.ipv4 10 0 0 1), 4433⟩
  mqttBrokerAddress := ⟨.ipv4 127 0 0 1, 14567⟩

/-- A datagram on the socket, queued for the client. -/
private def oneReply (src : SocketAddr) : List Input :=
  [.bound true, .broker (some ([1, 2, 3], src)), .queued true]

/-- A datagram of the broker. -/
theorem only_broker_iff_sample :
    ∃ s es, run (observe step events) (Connection.new relayConfig)
        (oneReply relayConfig.mqttBrokerAddress) = some (s, es) ∧
      OnlyFrom relayConfig.mqttBrokerAddress es := by
  refine ⟨_, _, rfl, ((@only_broker_iff relayConfig _
    (oneReply relayConfig.mqttBrokerAddress) _ rfl).mpr ?_).1⟩
  intro i hi data src hd
  rw [hd] at hi
  simp only [oneReply, List.mem_cons, List.not_mem_nil, reduceCtorEq, Input.broker.injEq,
    Option.some.injEq, Prod.mk.injEq, false_or, or_false] at hi
  exact hi.2

/-- A datagram of a stranger is queued for the client, and would not have been
without the stranger. -/
theorem stranger_reaches_client :
    ∃ s es s' es', run (observe step events) (Connection.new relayConfig)
        (oneReply ⟨.ipv4 192 0 2 66, 9⟩) = some (s, es) ∧
      run (observe step events) (Connection.new relayConfig)
        (withoutForeign relayConfig.mqttBrokerAddress false (oneReply ⟨.ipv4 192 0 2 66, 9⟩)) =
          some (s', es') ∧
      queued es = [relayConfig.reply [1, 2, 3]] ∧ queued es' = [] ∧
      ¬OnlyFrom relayConfig.mqttBrokerAddress es := by
  refine ⟨_, _, _, _, rfl, rfl, rfl, rfl, ?_⟩
  intro h
  obtain ⟨data, hlast⟩ :=
    h [.arrived [1, 2, 3] ⟨.ipv4 192 0 2 66, 9⟩] (.handed _) [.queued _] rfl _ rfl
  simp only [List.getLast?_singleton, Option.some.injEq, Event.arrived.injEq] at hlast
  exact absurd hlast.2 (by decide)

end UdpMode

/-! ## From the client to its sessions -/

/-- The datagrams received from `src` on the SCION socket. -/
def receivedFrom (es : List RelayEvent) (src : ScionAddr) : List Bytes :=
  es.filterMap fun e => match e with
    | .received src' data => if src' = src then some data else none
    | _ => none

/-- The datagrams of `src` that were offered to some session. -/
def offeredFrom (es : List RelayEvent) (src : ScionAddr) : List Bytes :=
  es.filterMap fun e => match e with
    | .offered _ packet _ => if packet.src = src then some packet.data else none
    | _ => none

/-- The datagram of `src` that the main loop is looking up or about to offer. -/
def heldFrom (s : State C Q) (src : ScionAddr) : List Bytes :=
  match s.pc with
  | .lookup d | .forward _ d => if d.src = src then [d.buf] else []
  | _ => []

/-- The step gives up a datagram of `src`: it has no IP address, or the look-up
finds no session of its source. -/
def strays (src : ScionAddr) (s : State C Q) (i : Input) : Bool :=
  match s.pc, i with
  | .select, .recvFrom _ src' => src' = src && src.localAddress.isNone
  | .lookup d, .step => d.src = src && (s.connections (.udp src)).isNone
  | _, _ => false

/-- No datagram of `src` is given up. -/
def FindsSession (src : ScionAddr) (_ : List RelayEvent) (s : State C Q) (i : Input) : Prop :=
  strays src s i = false

instance (src : ScionAddr) (es : List RelayEvent) (s : State C Q) (i : Input) :
    Decidable (FindsSession src es s i) :=
  inferInstanceAs (Decidable (_ = false))

@[simp] theorem receivedFrom_append (es fs : List RelayEvent) (src : ScionAddr) :
    receivedFrom (es ++ fs) src = receivedFrom es src ++ receivedFrom fs src :=
  List.filterMap_append

@[simp] theorem offeredFrom_append (es fs : List RelayEvent) (src : ScionAddr) :
    offeredFrom (es ++ fs) src = offeredFrom es src ++ offeredFrom fs src := List.filterMap_append

@[simp] theorem receivedFrom_nil (src : ScionAddr) : receivedFrom [] src = [] := rfl

@[simp] theorem offeredFrom_nil (src : ScionAddr) : offeredFrom [] src = [] := rfl

variable {K C Q : Type} {p : Env K C Q} {es : List RelayEvent} {s : State C Q}

theorem receivedFrom_received (src' : ScionAddr) (data : Bytes) (src : ScionAddr) :
    receivedFrom [.received src' data] src = if src' = src then [data] else [] := by
  by_cases hsrc : src' = src
  · simp [receivedFrom, hsrc]
  · simp [receivedFrom, hsrc]

theorem offeredFrom_offered (id : Nat) (d : Incoming) (answer : TrySend) (src : ScionAddr) :
    offeredFrom [.offered id (d.packet p) answer] src = if d.src = src then [d.buf] else [] := by
  by_cases hsrc : d.src = src
  · simp [offeredFrom, Incoming.packet, hsrc]
  · simp [offeredFrom, Incoming.packet, hsrc]

/-- What a step does with the datagrams of `src`: it receives some, offers some,
gives up `lost`, and holds the rest. -/
def Passes (src : ScionAddr) (s : State C Q) (i : Input)
    (fs : List RelayEvent) (s' : State C Q) : Prop :=
  ∃ lost, heldFrom s src ++ receivedFrom fs src =
      offeredFrom fs src ++ (lost ++ heldFrom s' src) ∧
    (lost = [] ↔ strays src s i = false)

/-- A move that neither receives nor offers, with nothing of `src` in hand before
or after that could be given up. -/
theorem passes_keep {src : ScionAddr} {i : Input} {s' : State C Q} {fs : List RelayEvent}
    (hrec : receivedFrom fs src = []) (hoff : offeredFrom fs src = [])
    (hheld : heldFrom s' src = heldFrom s src) (hstrays : strays src s i = false) :
    Passes src s i fs s' :=
  ⟨[], by rw [hrec, hoff, hheld, List.append_nil, List.nil_append, List.nil_append],
    iff_of_true rfl hstrays⟩

/-- A datagram without an IP address is given up at once. -/
theorem recvFrom_passes (hmode : p.mode = .udpEndpoint) (hpc : s.pc = .select) (data : Bytes)
    (src' src : ScionAddr) :
    Passes src s (.recvFrom data src') [.received src' data] (recvFrom p data src' s) := by
  have hbefore : heldFrom s src = [] := by simp only [heldFrom, hpc]
  unfold Passes
  rw [hbefore, receivedFrom_received]
  simp only [strays, hpc]
  cases hlocal : src'.localAddress with
  | none =>
    simp only [recvFrom, hlocal]
    refine ⟨if src' = src then [data] else [], ?_, ?_⟩
    · rw [hbefore, List.append_nil]
      rfl
    · by_cases hsrc : src' = src
      · rw [if_pos hsrc, ← hsrc, hlocal]
        simp
      · simp [hsrc]
  | some srcIp =>
    simp only [recvFrom, hlocal, hmode]
    refine ⟨[], rfl, iff_of_true rfl ?_⟩
    by_cases hsrc : src' = src
    · rw [← hsrc, hlocal]
      simp
    · simp [hsrc]

/-- A datagram whose source has no session goes on to create one, and is given up. -/
theorem lookup_passes (h : Isolated p es s) {d : Incoming} (hpc : s.pc = .lookup d)
    (src : ScionAddr) : Passes src s .step [] (lookup p d s) := by
  have hd : PcIsolated p es s (.lookup d) := hpc ▸ h.pc
  obtain ⟨src', data, rfl, -⟩ := hd
  have hbefore : heldFrom s src = if src' = src then [data] else [] := by
    simp only [heldFrom, hpc]
    rfl
  unfold Passes
  rw [hbefore]
  simp only [strays, hpc, lookup, lookupKeys, List.findSome?_cons, List.findSome?_nil]
  cases hentry : s.connections (.udp src') with
  | some info =>
    refine ⟨[], List.append_nil _, iff_of_true rfl ?_⟩
    by_cases hsrc : src' = src
    · rw [← hsrc, hentry]
      simp
    · simp [Incoming.src, hsrc]
  | none =>
    refine ⟨if src' = src then [data] else [], ?_, ?_⟩
    · simp only [heldFrom, receivedFrom_nil, offeredFrom_nil, List.append_nil, List.nil_append]
    · by_cases hsrc : src' = src
      · rw [if_pos hsrc, ← hsrc, hentry]
        simp [Incoming.src]
      · simp [Incoming.src, hsrc]

/-- A datagram in hand is offered to the channel it was looked up for. -/
theorem forward_passes {info : ConnectionInfo} {d : Incoming} (hpc : s.pc = .forward info d)
    (answer : TrySend) (src : ScionAddr) :
    Passes src s .step [.offered info.sender (d.packet p) answer] (forward p info d s).1 := by
  have hbefore : heldFrom s src = if d.src = src then [d.buf] else [] := by
    simp only [heldFrom, hpc]
  have hafter : heldFrom (forward p info d s).1 src = [] := by
    simp only [forward]
    split <;> rfl
  refine ⟨[], ?_, iff_of_true rfl (by simp only [strays, hpc])⟩
  rw [hbefore, hafter, offeredFrom_offered]
  rfl

/-- What every step does with the datagrams of a client. -/
theorem step_passes (hmode : p.mode = .udpEndpoint) (h : Isolated p es s) {s' : State C Q}
    {i : Input} {o : List Output} (hstep : step p s i = some (s', o)) (src : ScionAddr) :
    Passes src s i (relayEvents p s i o) s' := by
  rcases step_turn hstep with ⟨hturn, rfl⟩ | hmain
  · -- a task's move leaves the main loop where it is
    have hheld : heldFrom s' src = heldFrom s src := by
      unfold heldFrom
      rw [hturn.taskMove.pc]
    have hstrays : strays src s i = false := by
      unfold strays
      cases hturn <;> split <;> first | rfl | contradiction
    cases hturn with
    | @moves id i _ hmove =>
      cases i with
      | quic j => exact passes_keep rfl rfl hheld hstrays
      | udp j =>
        exact passes_keep (by simp [relayEvents, receivedFrom]) (by simp [relayEvents, offeredFrom])
          hheld hstrays
    | finishes _ _ => exact passes_keep rfl rfl hheld hstrays
    | removes _ _ => exact passes_keep rfl rfl hheld hstrays
    | drops _ _ => exact passes_keep rfl rfl hheld hstrays
  · unfold mainStep at hmain
    split at hmain
    · next data src' hpc =>
      split at hmain
      · simp only [relayEvents]
        exact of_result_state hmain (recvFrom_passes hmode hpc data src' src)
      · cases hmain
    · next hpc =>
      obtain ⟨rfl, rfl⟩ := Prod.mk.inj (Option.some.inj hmain)
      exact passes_keep rfl rfl (by simp only [heldFrom, hpc]) (by simp only [strays, hpc])
    · next hpc =>
      obtain ⟨packet, main, -, rfl, -⟩ := recvPacket_eq_some hmain
      simp only [relayEvents]
      exact passes_keep rfl rfl (by simp only [heldFrom, hpc]) (by simp only [strays, hpc])
    · next hpc =>
      obtain ⟨packet, main, -, rfl, -⟩ := recvPacket_eq_some hmain
      simp only [relayEvents]
      exact passes_keep rfl rfl (by simp only [heldFrom, hpc]) (by simp only [strays, hpc])
    · next packet ok hpc =>
      cases ok with
      | true =>
        simp only [relayEvents, hpc]
        obtain ⟨rfl, -⟩ := Prod.mk.inj (Option.some.inj hmain)
        exact passes_keep rfl rfl (by simp only [heldFrom, hpc]) (by simp only [strays, hpc])
      | false =>
        obtain ⟨rfl, -⟩ := Prod.mk.inj (Option.some.inj hmain)
        exact passes_keep (by simp only [relayEvents, receivedFrom_nil])
          (by simp only [relayEvents, offeredFrom_nil])
          (by simp only [heldFrom, hpc, State.fail]) (by simp only [strays, hpc])
    · next d hpc =>
      simp only [relayEvents, hpc]
      exact of_result_state hmain (lookup_passes h hpc src)
    · next info d hpc =>
      simp only [relayEvents, hpc]
      exact of_result_state hmain (forward_passes hpc _ src)
    · next d hpc =>
      simp only [relayEvents, hpc]
      refine of_result_state hmain (passes_keep rfl rfl ?_ (by simp only [strays, hpc]))
      have hcreated := create_created p d s
      generalize create p d s = r at hcreated ⊢
      have hbefore : heldFrom s src = [] := by simp only [heldFrom, hpc]
      rw [hbefore]
      cases hcreated with
      | prepared _ _ _ _ _ _ => rfl
      | dropped _ => rfl
      | answered _ _ _ _ _ => rfl
      | failed _ _ _ _ => rfl
    · next origin task hpc =>
      obtain ⟨rfl, -⟩ := Prod.mk.inj (Option.some.inj hmain)
      simp only [relayEvents, hpc]
      exact passes_keep rfl rfl (by simp only [heldFrom, hpc]) (by simp only [strays, hpc])
    · next task hpc =>
      obtain ⟨rfl, -⟩ := Prod.mk.inj (Option.some.inj hmain)
      simp only [relayEvents, hpc]
      exact passes_keep rfl rfl (by simp only [heldFrom, hpc, spawn]) (by simp only [strays, hpc])
    · cases hmain

/-- On the way from `s`, with the log `es`: what is offered and what is held was
held or received, in that order. -/
structure Passing (p : Env K C Q) (es : List RelayEvent) (s : State C Q) (src : ScionAddr)
    (fs : List RelayEvent) (s' : State C Q) : Prop where
  registry : RegistryInv p s'
  isolated : Isolated p (es ++ fs) s'
  books : Lossy (heldFrom s src ++ receivedFrom fs src) (heldFrom s' src) (offeredFrom fs src)

/-- At the start the one datagram there may be is in hand. -/
theorem passing_start (hreg : RegistryInv p s) (h : Isolated p es s) (src : ScionAddr) :
    Passing p es s src [] s := by
  refine ⟨hreg, by rwa [List.append_nil], ?_⟩
  rw [receivedFrom_nil, List.append_nil]
  exact List.Sublist.refl _

/-- Every step keeps the books of a client. -/
theorem Passing.step (hmode : p.mode = .udpEndpoint) {src : ScionAddr} {fs : List RelayEvent}
    {t t' : State C Q} {i : Input} {o : List Output} (h : Passing p es s src fs t)
    (hstep : Proxy.step p t i = some (t', o)) :
    Passing p es s src (fs ++ relayEvents p t i o) t' := by
  obtain ⟨lost, hmove, -⟩ := step_passes hmode h.isolated hstep src
  refine ⟨(step_ok h.registry hstep).inv, ?_, ?_⟩
  · rw [← List.append_assoc]
    exact step_isolated hmode h.registry h.isolated hstep
  · rw [receivedFrom_append, offeredFrom_append, ← List.append_assoc]
    exact h.books.move hmove

/-- The books of a client balance in every run. -/
theorem run_passing (hmode : p.mode = .udpEndpoint) {is : List Input} {s' : State C Q}
    {fs : List RelayEvent} (hreg : RegistryInv p s) (h : Isolated p es s)
    (hr : run (observe (step p) (relayEvents p)) s is = some (s', fs)) (src : ScionAddr) :
    Passing p es s src fs s' := by
  refine run_induct (passing_start hreg h src) ?_ hr
  intro fs t i t' gs ht hm
  obtain ⟨o, hstep, rfl⟩ := observe_eq_some.mp hm
  exact ht.step hmode hstep

/-- Every datagram of a client is offered to a session exactly when none strays. -/
theorem run_none_lost_iff (hmode : p.mode = .udpEndpoint) {is : List Input} {s' : State C Q}
    {fs : List RelayEvent} (hreg : RegistryInv p s) (h : Isolated p es s)
    (hr : run (observe (step p) (relayEvents p)) s is = some (s', fs)) (src : ScionAddr) :
    heldFrom s src ++ receivedFrom fs src = offeredFrom fs src ++ heldFrom s' src ↔
      AllSteps (observe (step p) (relayEvents p)) (FindsSession src) [] s is := by
  refine @run_iff _ _ _ _ _ (Passing p es s src)
    (fun fs s' => heldFrom s src ++ receivedFrom fs src = offeredFrom fs src ++ heldFrom s' src)
    is fs s s' (passing_start hreg h src) ?_ ?_ ?_ hr
  · rw [receivedFrom_nil, offeredFrom_nil, List.append_nil, List.nil_append]
  · intro fs t i t' gs ht hm
    obtain ⟨o, hstep, rfl⟩ := observe_eq_some.mp hm
    exact ht.step hmode hstep
  · intro fs t i t' gs ht hm
    obtain ⟨o, hstep, rfl⟩ := observe_eq_some.mp hm
    obtain ⟨lost, hmove, hlost⟩ := step_passes hmode ht.isolated hstep src
    rw [receivedFrom_append, offeredFrom_append, ← List.append_assoc, ht.books.none_lost_iff hmove,
      hlost]
    rfl

/-! ## Both directions -/

/-- A session passes on what it is given, whole and in order. Toward the broker go
the datagrams of its client that its channel accepted, and none of these is
missing but by the end of the session. Toward the client goes every datagram that
arrives on its socket, as long as the main loop takes them. -/
structure Faithful (es : List RelayEvent) (s : State C Q) (id : Nat) (src : ScionAddr)
    (c : UdpMode.Connection) : Prop where
  fromClient : ((UdpMode.relayed (sessionLog es id)).map Prod.fst).Sublist (receivedFrom es src)
  toBroker : (UdpMode.relayed (sessionLog es id)).map Prod.fst <+:
    (accepted es id).map UdpPacket.data
  all_sent : c.pc.ended = false → (s.channels id).rxAlive = true →
    (UdpMode.relayed (sessionLog es id)).map Prod.fst ++ c.pc.unsent ++
        (s.channels id).queue.map UdpPacket.data = (accepted es id).map UdpPacket.data
  toClient : (UdpMode.handed (sessionLog es id)).map UdpPacket.data =
    (UdpMode.arrived (sessionLog es id)).map Prod.fst
  queued : UdpMode.queued (sessionLog es id) <+: UdpMode.handed (sessionLog es id)

/-- The task of this number is a session of this client. -/
def SessionFor (s : State C Q) (id : Nat) (src : ScionAddr) : Prop :=
  ∃ task, s.tasks id = some task ∧ task.key = .udp src

/-- From `s₁`, where the log is `es₁`, to `s₂`, with `es₂` logged in between, the
proxy relays the datagrams of a client unchanged. Every one that it receives is
offered to a session of that client, in order, and every session of the client is
faithful; so one that is missing was refused by a full or closed channel, or was
in a session that ended. -/
structure Unchanged (es₁ : List RelayEvent) (s₁ : State C Q) (es₂ : List RelayEvent)
    (s₂ : State C Q) (src : ScionAddr) : Prop where
  none_lost : heldFrom s₁ src ++ receivedFrom es₂ src = offeredFrom es₂ src ++ heldFrom s₂ src
  own : ∀ id packet answer, .offered id packet answer ∈ es₂ → packet.src = src →
    SessionFor s₂ id src
  sessions : ∀ id, SessionFor s₂ id src → ∃ task c, s₂.tasks id = some task ∧
    task.session = .udp c ∧ Faithful (es₁ ++ es₂) s₂ id src c

/-- What a channel accepted is what its source had offered. -/
theorem Isolated.accepted_sublist (h : Isolated p es s) {id : Nat} {src : ScionAddr}
    (hspawned : .spawned id (.udp src) ∈ es) :
    ((accepted es id).map UdpPacket.data).Sublist (offeredFrom es src) := by
  have hsrc : ∀ packet ∈ accepted es id, packet.src = src := by
    intro packet hmem
    obtain ⟨task, ht, hkey⟩ := h.spawned id _ (h.source id packet hmem)
    obtain ⟨task', ht', hkey'⟩ := h.spawned id _ hspawned
    rw [ht, Option.some.injEq] at ht'
    rw [ht', hkey', Key.udp.injEq] at hkey
    exact hkey.symm
  clear h hspawned
  induction es with
  | nil => exact .slnil
  | cons e es ih =>
    have hcons : accepted (e :: es) id = accepted [e] id ++ accepted es id := by
      rw [← List.singleton_append, accepted_append]
    have hcons' : offeredFrom (e :: es) src = offeredFrom [e] src ++ offeredFrom es src := by
      rw [← List.singleton_append, offeredFrom_append]
    rw [hcons] at hsrc ⊢
    rw [hcons', List.map_append]
    refine List.Sublist.append ?_ (ih fun packet hmem => hsrc packet (List.mem_append_right _ hmem))
    cases e with
    | offered id' packet answer =>
      cases answer with
      | ok =>
        by_cases hid : id' = id
        · have hp : packet.src = src :=
            hsrc packet (List.mem_append_left _ (by simp [accepted, hid]))
          simp [accepted, offeredFrom, hid, hp]
        · simp [accepted, hid]
      | full => exact List.nil_sublist _
      | closed => exact List.nil_sublist _
    | _ => exact List.nil_sublist _

/-- Everything but the size of what arrives is taken care of. -/
theorem faithful_iff_toClient (h : Isolated p es s) {id : Nat} {task : Task Q} {src : ScionAddr}
    {c : UdpMode.Connection} (hoffered : (offeredFrom es src).Sublist (receivedFrom es src))
    (ht : s.tasks id = some task) (hkey : task.key = .udp src) (hc : task.session = .udp c) :
    Faithful es s id src c ↔ ∀ d ∈ UdpMode.arrived (sessionLog es id),
      d.1.length ≤ maxDatagramSize := by
  obtain ⟨src', c', hkey', hc', hspawned, -, hacc⟩ := h.account ht
  obtain rfl : src = src' := by rw [hkey] at hkey'; exact Key.udp.inj hkey'
  obtain rfl : c = c' := by rw [hc] at hc'; exact Session.udp.inj hc'
  have hcut : (UdpMode.handed (sessionLog es id)).map UdpPacket.data =
      (UdpMode.arrived (sessionLog es id)).map Prod.fst ↔
        ∀ d ∈ UdpMode.arrived (sessionLog es id), d.1.length ≤ maxDatagramSize := by
    rw [hacc.handed_data, List.map_inj_left]
    simp only [List.take_eq_self_iff]
  rw [← hcut]
  -- the channel and the handler are two relays in a row
  have hchannel := (h.channel id).map UdpPacket.data
  have hfront := hacc.toBroker.out_isPrefix.trans hchannel.out_isPrefix
  refine ⟨fun hu => hu.toClient,
    fun hclient => ⟨?_, hfront, ?_, hclient, hacc.toClient.out_isPrefix⟩⟩
  · exact hfront.sublist.trans ((h.accepted_sublist hspawned).trans hoffered)
  · intro hended halive
    have hsent := hacc.toBroker
    rw [hended] at hsent
    have hboth := hchannel.trans hsent
    rw [halive] at hboth
    rw [List.append_assoc]
    exact hboth.all rfl

/-- A datagram is logged as arrived exactly when the session takes it in. -/
theorem mem_arrived_iff (h : Isolated p es s) {s' : State C Q} {i : Input} {o : List Output}
    (hstep : step p s i = some (s', o)) (id : Nat) (data : Bytes) (sender : SocketAddr) :
    (data, sender) ∈ UdpMode.arrived (sessionLog (relayEvents p s i o) id) ↔
      i = .task id (.udp (.broker (some (data, sender)))) := by
  rcases step_turn hstep with ⟨hturn, rfl⟩ | hmain
  · cases hturn with
    | @moves id' i _ hmove =>
      obtain ⟨task, -, -, -, ht, -⟩ := taskMove_eq_some hmove
      obtain ⟨src, c, -, hc, -⟩ := h.account ht
      obtain ⟨j, c', o', rfl, hj, -, -, -⟩ := taskMove_udp hmove ht hc
      rw [relayEvents_udp p [] ht hc hj, sessionLog_map]
      by_cases hid : id' = id
      · rw [if_pos hid, hid]
        simp only [Input.task.injEq, SessionInput.udp.injEq, true_and]
        have hentries := UdpMode.step_entries hj
        generalize UdpMode.events c j o' = fs at hentries
        cases hentries with
        | nothing hi =>
          refine iff_of_false (by simp [UdpMode.arrived]) fun hd => ?_
          rw [hd] at hi
          cases hi
        | took packet _ => simp [UdpMode.arrived]
        | relayed data' _ => simp [UdpMode.arrived]
        | queued packet _ => simp [UdpMode.arrived]
        | arrived data' sender' _ => simp [UdpMode.arrived, eq_comm]
      · rw [if_neg hid]
        simp [UdpMode.arrived, hid]
    | finishes _ _ => simp [relayEvents, sessionLog, UdpMode.arrived]
    | removes _ _ => simp [relayEvents, sessionLog, UdpMode.arrived]
    | drops _ _ => simp [relayEvents, sessionLog, UdpMode.arrived]
  · -- the main loop takes nothing in for a session
    have hno : ∀ id' j, i ≠ .task id' j := by
      rintro id' j rfl
      rw [mainStep_ofTask p s rfl] at hmain
      cases hmain
    refine iff_of_false ?_ fun hd => hno _ _ hd
    unfold relayEvents
    split
    · next hi => exact absurd rfl (hno _ _)
    · simp [sessionLog, UdpMode.arrived]
    · simp [sessionLog, UdpMode.arrived]
    · simp [sessionLog, UdpMode.arrived]
    · simp [sessionLog, UdpMode.arrived]
    · simp [sessionLog, UdpMode.arrived]

/-- What arrived on the socket of a session is what was taken in, over the whole
run. -/
theorem run_arrived_iff (hmode : p.mode = .udpEndpoint) {quicConfig : C} {is : List Input}
    (hr : run (observe (step p) (relayEvents p)) (State.init quicConfig) is = some (s, es))
    (id : Nat) (P : Bytes → Prop) :
    (∀ d ∈ UdpMode.arrived (sessionLog es id), P d.1) ↔
      ∀ data sender, .task id (.udp (.broker (some (data, sender)))) ∈ is → P data := by
  have hinputs : (∀ d ∈ UdpMode.arrived (sessionLog es id), P d.1) ↔
      ∀ i ∈ is, ∀ data sender, i = .task id (.udp (.broker (some (data, sender)))) → P data := by
    rw [← @allSteps_input_iff _ _ _ _ _ is [] es _ _ hr]
    refine @run_iff _ _ _ _ _ (fun es s => RegistryInv p s ∧ Isolated p es s)
      (fun es _ => ∀ d ∈ UdpMode.arrived (sessionLog es id), P d.1) is es _ s
      ⟨registryInv_init quicConfig, isolated_init quicConfig⟩ (fun d hd => by cases hd) ?_ ?_ hr
    · intro es s i s' fs h hstep
      obtain ⟨o, hm, rfl⟩ := observe_eq_some.mp hstep
      exact ⟨(step_ok h.1 hm).inv, step_isolated hmode h.1 h.2 hm⟩
    · intro es s i s' fs h hstep
      obtain ⟨o, hm, rfl⟩ := observe_eq_some.mp hstep
      rw [sessionLog_append, UdpMode.arrived_append, List.forall_mem_append]
      refine and_congr_right fun _ => ?_
      simp only [Prod.forall, mem_arrived_iff h.2 hm]
  rw [hinputs]
  exact ⟨fun hi data sender hmem => hi _ hmem data sender rfl,
    fun hd i hi data sender heq => hd data sender (heq ▸ hi)⟩

/-- **When datagrams are relayed unchanged**: in every run of the proxy in
UdpEndpoint mode, from any state of it on and for every client, exactly when no
datagram of the client strays from there on (it has an IP address and finds a
session of its source in the registry) and none longer than the buffer arrives on
the socket of a session of the client. -/
theorem unchanged_iff (hmode : p.mode = .udpEndpoint) {quicConfig : C} {is₁ is₂ : List Input}
    {s₁ s₂ : State C Q} {es₁ es₂ : List RelayEvent}
    (hr₁ : run (observe (step p) (relayEvents p)) (State.init quicConfig) is₁ = some (s₁, es₁))
    (hr₂ : run (observe (step p) (relayEvents p)) s₁ is₂ = some (s₂, es₂)) (src : ScionAddr) :
    Unchanged es₁ s₁ es₂ s₂ src ↔
      AllSteps (observe (step p) (relayEvents p)) (FindsSession src) [] s₁ is₂ ∧
      ∀ id, SessionFor s₂ id src → ∀ data sender,
        .task id (.udp (.broker (some (data, sender)))) ∈ is₁ ++ is₂ →
          data.length ≤ maxDatagramSize := by
  obtain ⟨hreg, hisolated⟩ := run_isolated hmode hr₁
  have hr : run (observe (step p) (relayEvents p)) (State.init quicConfig) (is₁ ++ is₂) =
      some (s₂, es₁ ++ es₂) := run_append_eq_some.mpr ⟨s₁, es₁, es₂, hr₁, hr₂, rfl⟩
  obtain ⟨-, h⟩ := run_isolated hmode hr
  -- what has been offered was received, from the first state on
  have hoffered : (offeredFrom (es₁ ++ es₂) src).Sublist (receivedFrom (es₁ ++ es₂) src) := by
    have hbooks := (run_passing hmode (registryInv_init quicConfig) (isolated_init quicConfig) hr
      src).books
    exact (List.sublist_append_left _ _).trans hbooks
  have hfaithful : ∀ {id task c}, s₂.tasks id = some task → task.key = .udp src →
      task.session = .udp c → (Faithful (es₁ ++ es₂) s₂ id src c ↔ ∀ data sender,
        .task id (.udp (.broker (some (data, sender)))) ∈ is₁ ++ is₂ →
          data.length ≤ maxDatagramSize) := by
    intro id task c ht hkey hc
    rw [faithful_iff_toClient h hoffered ht hkey hc]
    exact run_arrived_iff hmode hr id fun data => data.length ≤ maxDatagramSize
  constructor
  · intro hu
    refine ⟨(run_none_lost_iff hmode hreg hisolated hr₂ src).mp hu.none_lost, fun id hid => ?_⟩
    obtain ⟨task, c, ht, hc, hf⟩ := hu.sessions id hid
    obtain ⟨task', ht', hkey⟩ := hid
    rw [ht, Option.some.injEq] at ht'
    rw [← ht'] at hkey
    exact (hfaithful ht hkey hc).mp hf
  · rintro ⟨hfinds, hshort⟩
    refine ⟨(run_none_lost_iff hmode hreg hisolated hr₂ src).mpr hfinds, ?_, ?_⟩
    · intro id packet answer hmem hsrc
      obtain ⟨pre, post, hlog⟩ := List.append_of_mem (List.mem_append_right es₁ hmem)
      obtain ⟨hspawned, -⟩ := run_justified hmode hr pre _ post hlog
      rw [← hsrc]
      exact h.spawned id _ (by rw [hlog]; exact List.mem_append_left _ hspawned)
    · rintro id ⟨task, ht, hkey⟩
      obtain ⟨src', c, hkey', hc, -⟩ := h.account ht
      exact ⟨task, c, ht, hc, (hfaithful ht hkey hc).mpr (hshort id ⟨task, ht, hkey⟩)⟩

private def relayClient : ScionAddr := ⟨1, .ip (.ipv4 10 0 0 1), 4433⟩

private def relayProxy : Env Bytes Unit SendWindow where
  hmac := Hmac.ofTable []
  quiche := wireServer fun _ _ => Vector.replicate 16 0
  mode := .udpEndpoint
  mqttBrokerAddress := ⟨.ipv4 127 0 0 1, 1883⟩
  tokenKey := []
  connIdSeed := []
  localScionAddr := ⟨8, .ip (.ipv4 10 0 0 2), 4433⟩
  localAddr := ⟨.ipv4 10 0 0 2, 4433⟩
  localAddr_eq := rfl

/-- The first datagram of the client, up to the socket of its session. -/
private def firstDatagram : List Input :=
  [.recvFrom [0] relayClient, .step, .step, .step, .step, .task 0 (.udp (.bound true))]

/-- A second one, up to the broker. -/
private def secondDatagram : List Input :=
  [.recvFrom [1] relayClient, .step, .step,
    .task 0 (.udp (.udp (some ⟨relayClient, relayProxy.localScionAddr, [1]⟩))),
    .task 0 (.udp (.sent true))]

/-- A datagram of the broker, up to the queue. -/
private def brokerReply (data : Bytes) : List Input :=
  [.task 0 (.udp (.broker (some (data, relayProxy.mqttBrokerAddress)))),
    .task 0 (.udp (.queued true))]

/-- A client with a session: its next datagram goes to the broker, and a short
answer comes back. -/
theorem unchanged_iff_sample :
    ∃ s₁ es₁ s₂ es₂, run (observe (step relayProxy) (relayEvents relayProxy)) (State.init ())
        firstDatagram = some (s₁, es₁) ∧
      run (observe (step relayProxy) (relayEvents relayProxy)) s₁
        (secondDatagram ++ brokerReply [2, 3]) = some (s₂, es₂) ∧
      UdpMode.relayed (sessionLog es₂ 0) = [([1], relayProxy.mqttBrokerAddress)] ∧
      Unchanged es₁ s₁ es₂ s₂ relayClient := by
  refine ⟨_, _, _, _, rfl, rfl, rfl, (@unchanged_iff Bytes Unit SendWindow relayProxy rfl ()
    firstDatagram (secondDatagram ++ brokerReply [2, 3]) _ _ _ _ rfl rfl relayClient).mpr
      ⟨by decide, ?_⟩⟩
  intro id _ data sender hmem
  obtain ⟨-, rfl, -⟩ : id = 0 ∧ data = [2, 3] ∧ sender = relayProxy.mqttBrokerAddress := by
    simpa [firstDatagram, secondDatagram, brokerReply] using hmem
  decide

/-- One byte more than the buffer holds. -/
private def longDatagram : Bytes := List.replicate 1201 0

/-- The first datagram of a client creates its session and is offered to none; and
after that, a datagram of 1201 bytes from the broker is queued for the client with
its last byte missing. -/
theorem first_is_lost_and_long_is_cut :
    ∃ s₁ es₁ s₂ es₂, run (observe (step relayProxy) (relayEvents relayProxy)) (State.init ())
        firstDatagram = some (s₁, es₁) ∧
      run (observe (step relayProxy) (relayEvents relayProxy)) s₁ (brokerReply longDatagram) =
        some (s₂, es₂) ∧
      receivedFrom es₁ relayClient = [[0]] ∧ offeredFrom es₁ relayClient = [] ∧
      heldFrom s₁ relayClient = [] ∧ ¬Unchanged [] (State.init ()) es₁ s₁ relayClient ∧
      UdpMode.arrived (sessionLog es₂ 0) = [(longDatagram, relayProxy.mqttBrokerAddress)] ∧
      UdpMode.queued (sessionLog es₂ 0) =
        [⟨relayProxy.localScionAddr, relayClient, List.replicate 1200 0⟩] ∧
      ¬Unchanged es₁ s₁ es₂ s₂ relayClient := by
  refine ⟨_, _, _, _, rfl, rfl, rfl, rfl, rfl, fun h => ?_, rfl, ?_, fun h => ?_⟩
  · have hlost : [[0]] = ([] : List Bytes) := h.none_lost
    cases hlost
  · show [UdpPacket.mk _ _ (longDatagram.take maxDatagramSize)] = _
    rw [longDatagram, List.take_replicate]
    rfl
  · obtain ⟨task, c, -, -, hfaithful⟩ := h.sessions 0 ⟨_, rfl, rfl⟩
    have hcut : [longDatagram.take maxDatagramSize] = [longDatagram] := hfaithful.toClient
    rw [List.cons.injEq, List.take_eq_self_iff, longDatagram, List.length_replicate] at hcut
    exact absurd hcut.1 (by decide)

end MqttScion.Proxy
