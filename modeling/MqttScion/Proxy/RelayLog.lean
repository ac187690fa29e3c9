import MqttScion.Proxy.Registry
import MqttScion.Proxy.UdpSession

/-!
# A proxy in UdpEndpoint mode, with the way of every datagram

`relayEvents` logs a datagram wherever it passes: at the proxy's SCION socket,
at the `try_send` into the channel of a session, inside the session, and at the
SCION socket again on the way back.

`Isolated` ties the registry, the channels and the sessions to that log. A
session under the key of `S` is a run of the handler created for `S`; its
channel is a relay from the `try_send`s that were accepted to what the session
took; and everything accepted came from `S`, since an entry of the registry
leads only to the task of its key. Sessions end and are created again under the
same key, but a number is never used twice, and the main loop offers a datagram
only to the number it has just looked up.

> `run_isolated`: in every run in UdpEndpoint mode, all of that holds.
-/

namespace MqttScion.Proxy

open MqttScion.Net MqttScion.Lib

variable {K C Q : Type}

/-- Where a datagram passes. -/
inductive RelayEvent
  /-- `recv_from` on the SCION socket. -/
  | received (src : ScionAddr) (data : Bytes)
  /-- The task of this number has been spawned under this key. -/
  | spawned (id : Nat) (key : Key)
  /-- `try_send` into the channel of this number, and its answer. -/
  | offered (id : Nat) (packet : UdpPacket) (answer : TrySend)
  | session (id : Nat) (e : UdpMode.Event)
  /-- `send_to` on the SCION socket. -/
  | sentTo (packet : UdpPacket)
  deriving DecidableEq

/-- The log of the session of one task. -/
def sessionEvents (s : State C Q) (id : Nat) (i : UdpMode.Input) : List UdpMode.Event :=
  match s.tasks id with
  | some ⟨_, _, _, .udp c, _⟩ =>
    match UdpMode.step c i with
    | some (_, o) => UdpMode.events c i o
    | none => []
  | _ => []

/-- The log of a proxy in UdpEndpoint mode. -/
def relayEvents (p : Env K C Q) (s : State C Q) (i : Input) (_ : List Output) :
    List RelayEvent :=
  match s.pc, i with
  | _, .task id (.udp i) => (sessionEvents s id i).map (.session id)
  | _, .recvFrom data src => [.received src data]
  | .forward info d, .step =>
    [.offered info.sender (d.packet p) ((s.channels info.sender).trySend (d.packet p)).1]
  | .spawn task, .step => [.spawned task.receiver task.key]
  | .sendTo packet, .sent true => [.sentTo packet]
  | _, _ => []

/-- What the session of this number logged. -/
def sessionLog (es : List RelayEvent) (id : Nat) : List UdpMode.Event :=
  es.filterMap fun e => match e with
    | .session id' e => if id' = id then some e else none
    | _ => none

/-- What the channel of this number accepted. -/
def accepted (es : List RelayEvent) (id : Nat) : List UdpPacket :=
  es.filterMap fun e => match e with
    | .offered id' packet .ok => if id' = id then some packet else none
    | _ => none

@[simp] theorem sessionLog_append (es fs : List RelayEvent) (id : Nat) :
    sessionLog (es ++ fs) id = sessionLog es id ++ sessionLog fs id := List.filterMap_append

@[simp] theorem accepted_append (es fs : List RelayEvent) (id : Nat) :
    accepted (es ++ fs) id = accepted es id ++ accepted fs id := List.filterMap_append

/-- A session's events are in its own log only. -/
theorem sessionLog_map (es : List UdpMode.Event) (id id' : Nat) :
    sessionLog (es.map (.session id)) id' = if id = id' then es else [] := by
  induction es with
  | nil => simp [sessionLog]
  | cons e es ih =>
    have hcons : sessionLog ((e :: es).map (.session id)) id' =
        (if id = id' then [e] else []) ++ sessionLog (es.map (.session id)) id' := by
      rw [← List.singleton_append, List.map_append, sessionLog_append]
      by_cases hid : id = id'
      · simp [sessionLog, hid]
      · simp [sessionLog, hid]
    rw [hcons, ih]
    split
    · rfl
    · rfl

theorem accepted_map (es : List UdpMode.Event) (id id' : Nat) :
    accepted (es.map (.session id)) id' = [] := by
  simp [accepted]

theorem mem_sessionLog {es : List RelayEvent} {id : Nat} {e : UdpMode.Event} :
    e ∈ sessionLog es id ↔ .session id e ∈ es := by
  simp only [sessionLog, List.mem_filterMap]
  constructor
  · rintro ⟨e', hmem, heq⟩
    split at heq
    · split at heq
      · next hid => rw [← hid, ← Option.some.inj heq]; exact hmem
      · cases heq
    · cases heq
  · intro hmem
    exact ⟨.session id e, hmem, if_pos rfl⟩

theorem mem_accepted {es : List RelayEvent} {id : Nat} {packet : UdpPacket} :
    packet ∈ accepted es id ↔ .offered id packet .ok ∈ es := by
  simp only [accepted, List.mem_filterMap]
  constructor
  · rintro ⟨e', hmem, heq⟩
    split at heq
    · split at heq
      · next hid => rw [← hid, ← Option.some.inj heq]; exact hmem
      · cases heq
    · cases heq
  · intro hmem
    exact ⟨.offered id packet .ok, hmem, if_pos rfl⟩

/-- The configuration of a session created for `src`. -/
def Env.udpConfig (p : Env K C Q) (src : ScionAddr) : UdpMode.Config :=
  ⟨p.localScionAddr, src, p.mqttBrokerAddress⟩

/-- The task under this number is a session for the source in its key, and has
run as the log says. -/
def SessionOf (p : Env K C Q) (es : List RelayEvent) (id : Nat) (task : Task Q) : Prop :=
  ∃ src c is, task.key = .udp src ∧ task.session = .udp c ∧ .spawned id (.udp src) ∈ es ∧
    run (observe UdpMode.step UdpMode.events) (.new (p.udpConfig src)) is =
      some (c, sessionLog es id)

/-- A session for the source in its key that has not run yet. -/
def FreshSession (p : Env K C Q) (task : Task Q) : Prop :=
  ∃ src, task.key = .udp src ∧ task.session = .udp (.new (p.udpConfig src))

/-- What the main loop holds: a datagram it received, a session it creates, a
packet some session queued. -/
def PcIsolated (p : Env K C Q) (es : List RelayEvent) (s : State C Q) : Pc Q → Prop
  | .lookup d | .create d => ∃ src data, d = .udp src data ∧ .received src data ∈ es
  | .forward info d => ∃ src data task, d = .udp src data ∧ .received src data ∈ es ∧
      s.tasks info.sender = some task ∧ task.key = .udp src
  | .insert _ task | .spawn task => FreshSession p task
  | .sendTo packet => ∃ id, .session id (.queued packet) ∈ es
  | _ => True

/-- The sessions, their channels and the way back, as the log has them. -/
structure Isolated (p : Env K C Q) (es : List RelayEvent) (s : State C Q) : Prop where
  session : ∀ id task, s.tasks id = some task → SessionOf p es id task
  spawned : ∀ id key, .spawned id key ∈ es → ∃ task, s.tasks id = some task ∧ task.key = key
  fresh : ∀ id, s.tasks id = none →
    (s.channels id).queue = [] ∧ accepted es id = [] ∧ sessionLog es id = []
  channel : ∀ id, Relay (accepted es id) (s.channels id).queue
    (UdpMode.taken (sessionLog es id)) (!(s.channels id).rxAlive)
  source : ∀ id packet, packet ∈ accepted es id → .spawned id (.udp packet.src) ∈ es
  main : ∀ packet ∈ s.main.queue, ∃ id, .session id (.queued packet) ∈ es
  pc : PcIsolated p es s s.pc

variable {p : Env K C Q} {es : List RelayEvent} {s : State C Q}

theorem isolated_init (quicConfig : C) : Isolated p [] (State.init quicConfig : State C Q) := by
  refine ⟨?_, ?_, fun id _ => ⟨rfl, rfl, rfl⟩, fun id => .empty _, ?_, ?_, trivial⟩
  · intro id task ht
    cases ht
  · intro id key hmem
    cases hmem
  · intro id packet hmem
    cases hmem
  · intro packet hmem
    cases hmem

/-- What is known at an await stays known as the log grows and tasks move on. -/
theorem PcIsolated.mono {s' : State C Q} {pc : Pc Q} (fs : List RelayEvent)
    (htasks : ∀ id task, s.tasks id = some task → ∃ task', s'.tasks id = some task' ∧
      task'.key = task.key)
    (h : PcIsolated p es s pc) : PcIsolated p (es ++ fs) s' pc := by
  have hmem : ∀ {e : RelayEvent}, e ∈ es → e ∈ es ++ fs := fun he => List.mem_append_left fs he
  cases pc with
  | lookup d =>
    obtain ⟨src, data, hd, hrec⟩ := h
    exact ⟨src, data, hd, hmem hrec⟩
  | create d =>
    obtain ⟨src, data, hd, hrec⟩ := h
    exact ⟨src, data, hd, hmem hrec⟩
  | forward info d =>
    obtain ⟨src, data, task, hd, hrec, ht, hkey⟩ := h
    obtain ⟨task', ht', hkey'⟩ := htasks _ _ ht
    exact ⟨src, data, task', hd, hmem hrec, ht', hkey'.trans hkey⟩
  | insert origin task => exact h
  | spawn task => exact h
  | sendTo packet =>
    obtain ⟨id, hq⟩ := h
    exact ⟨id, hmem hq⟩
  | select => trivial
  | selectOutgoing => trivial
  | returned f => trivial

theorem SessionOf.mono {id : Nat} {task : Task Q} {fs : List RelayEvent}
    (h : SessionOf p es id task) (hfs : sessionLog fs id = []) :
    SessionOf p (es ++ fs) id task := by
  obtain ⟨src, c, is, hkey, hsession, hspawned, hrun⟩ := h
  refine ⟨src, c, is, hkey, hsession, List.mem_append_left fs hspawned, ?_⟩
  rw [sessionLog_append, hfs, List.append_nil]
  exact hrun

/-- The events are of no session and put nothing into a channel. -/
def Quiet (fs : List RelayEvent) : Prop :=
  (∀ id, accepted fs id = []) ∧ (∀ id, sessionLog fs id = []) ∧ ∀ id key, .spawned id key ∉ fs

/-- A move of the main loop that leaves the tasks and their channels alone. -/
theorem Isolated.frame (h : Isolated p es s) {s' : State C Q} {fs : List RelayEvent}
    (hquiet : Quiet fs) (htasks : s'.tasks = s.tasks) (hchannels : s'.channels = s.channels)
    (hmain : ∀ packet ∈ s'.main.queue, packet ∈ s.main.queue)
    (hpc : PcIsolated p (es ++ fs) s' s'.pc) : Isolated p (es ++ fs) s' := by
  have haccepted : ∀ id, accepted (es ++ fs) id = accepted es id := by
    intro id
    rw [accepted_append, hquiet.1, List.append_nil]
  have hlog : ∀ id, sessionLog (es ++ fs) id = sessionLog es id := by
    intro id
    rw [sessionLog_append, hquiet.2.1, List.append_nil]
  refine ⟨?_, ?_, ?_, ?_, ?_, ?_, hpc⟩
  · intro id task ht
    rw [htasks] at ht
    exact (h.session id task ht).mono (hquiet.2.1 id)
  · intro id key hmem
    rw [htasks]
    rcases List.mem_append.mp hmem with hmem | hmem
    · exact h.spawned id key hmem
    · exact absurd hmem (hquiet.2.2 id key)
  · intro id ht
    rw [htasks] at ht
    rw [hchannels, haccepted, hlog]
    exact h.fresh id ht
  · intro id
    rw [hchannels, haccepted, hlog]
    exact h.channel id
  · intro id packet hmem
    rw [haccepted] at hmem
    exact List.mem_append_left fs (h.source id packet hmem)
  · intro packet hmem
    obtain ⟨id, hq⟩ := h.main packet (hmain packet hmem)
    exact ⟨id, List.mem_append_left fs hq⟩

/-! ## Moves of the main loop -/

theorem quiet_nil : Quiet [] := ⟨fun _ => rfl, fun _ => rfl, by simp⟩

/-- With nothing pending, the entry of a key leads to a task under that key. -/
theorem RegistryInv.entry_task (h : RegistryInv p s) (hpend : s.pc.pending = none) {k : Key}
    {info : ConnectionInfo} (hk : s.connections k = some info) :
    ∃ task, s.tasks info.sender = some task ∧ task.key = k := by
  obtain ⟨f, hf⟩ := h.table
  have hlive := hf.holder hk
  unfold liveKey at hlive
  rw [hpend] at hlive
  cases htask : s.tasks info.sender with
  | none =>
    rw [htask] at hlive
    cases hlive
  | some task =>
    rw [htask] at hlive
    simp only at hlive
    split at hlive
    · exact ⟨task, rfl, Option.some.inj hlive⟩
    · cases hlive

theorem recvFrom_isolated (hmode : p.mode = .udpEndpoint) (h : Isolated p es s)
    (hpc : s.pc = .select) (data : Bytes) (src : ScionAddr) :
    Isolated p (es ++ [.received src data]) (recvFrom p data src s) := by
  have hquiet : Quiet [.received src data] := by simp [Quiet, accepted, sessionLog]
  have hkeep : (recvFrom p data src s).tasks = s.tasks ∧
      (recvFrom p data src s).channels = s.channels ∧ (recvFrom p data src s).main = s.main ∧
      ((recvFrom p data src s).pc = .select ∨
        (recvFrom p data src s).pc = .lookup (.udp src data)) := by
    unfold recvFrom
    rw [hmode]
    split
    · exact ⟨rfl, rfl, rfl, .inl hpc⟩
    · exact ⟨rfl, rfl, rfl, .inr rfl⟩
  obtain ⟨htasks, hchannels, hmain, hpc'⟩ := hkeep
  refine h.frame hquiet htasks hchannels (fun packet hp => by rwa [hmain] at hp) ?_
  rcases hpc' with hpc' | hpc'
  · rw [hpc']
    trivial
  · rw [hpc']
    exact ⟨src, data, rfl, List.mem_append_right es (by simp)⟩

theorem recvPacket_isolated (h : Isolated p es s) {s' : State C Q} {o : List Output}
    (hr : recvPacket s = some (s', o)) : Isolated p (es ++ []) s' := by
  obtain ⟨packet, main, hrecv, rfl, -⟩ := recvPacket_eq_some hr
  obtain ⟨hqueue, -⟩ := Chan.recv_eq_some hrecv
  refine h.frame quiet_nil rfl rfl (fun q hq => ?_) ?_
  · rw [hqueue]
    exact List.mem_cons_of_mem packet hq
  · obtain ⟨id, hid⟩ := h.main packet (by rw [hqueue]; exact List.mem_cons_self)
    exact ⟨id, by rw [List.append_nil]; exact hid⟩

/-- The look-up leads to the task of the very source it is for. -/
theorem lookup_isolated (hreg : RegistryInv p s) (h : Isolated p es s) {d : Incoming}
    (hpc : s.pc = .lookup d) : Isolated p (es ++ []) (lookup p d s) := by
  have hd : PcIsolated p es s (.lookup d) := hpc ▸ h.pc
  obtain ⟨src, data, rfl, hrec⟩ := hd
  unfold lookup
  split
  · next info hinfo =>
    have hk : s.connections (.udp src) = some info := by
      simpa [lookupKeys] using hinfo
    obtain ⟨task, ht, hkey⟩ := hreg.entry_task (by rw [hpc]; rfl) hk
    exact h.frame quiet_nil rfl rfl (fun _ hq => hq)
      ⟨src, data, task, rfl, List.mem_append_left [] hrec, ht, hkey⟩
  · exact h.frame quiet_nil rfl rfl (fun _ hq => hq)
      ⟨src, data, rfl, List.mem_append_left [] hrec⟩

/-- What is offered to a channel comes from the source its session is for. -/
theorem forward_isolated (h : Isolated p es s) {info : ConnectionInfo} {d : Incoming}
    (hpc : s.pc = .forward info d) :
    Isolated p (es ++ [.offered info.sender (d.packet p)
      ((s.channels info.sender).trySend (d.packet p)).1]) (forward p info d s).1 := by
  have hd : PcIsolated p es s (.forward info d) := hpc ▸ h.pc
  obtain ⟨src, data, task, rfl, hrec, ht, hkey⟩ := hd
  simp only [forward]
  split
  · next hok =>
    rw [hok]
    obtain ⟨halive, -⟩ := Chan.trySend_ok_iff.mp hok
    have hnew : ∀ id, accepted [.offered info.sender ((Incoming.udp src data).packet p) .ok] id =
        if info.sender = id then [(Incoming.udp src data).packet p] else [] := by
      intro id
      by_cases hid : info.sender = id
      · simp [accepted, hid]
      · simp [accepted, hid]
    have hlog : ∀ id, sessionLog (es ++ [.offered info.sender ((Incoming.udp src data).packet p)
        .ok]) id = sessionLog es id := by
      intro id
      simp [sessionLog]
    refine ⟨?_, ?_, ?_, ?_, ?_, ?_, trivial⟩
    · intro id task' ht'
      exact (h.session id task' ht').mono (by simp [sessionLog])
    · intro id key hmem
      exact h.spawned id key (by simpa using hmem)
    · intro id hnone
      have hid : info.sender ≠ id := by
        rintro rfl
        rw [ht] at hnone
        cases hnone
      obtain ⟨hq, hacc, hl⟩ := h.fresh id hnone
      refine ⟨?_, ?_, ?_⟩
      · show (Function.update s.channels info.sender _ id).queue = []
        rw [Function.update_of_ne (Ne.symm hid)]
        exact hq
      · rw [accepted_append, hnew, if_neg hid, hacc]
        rfl
      · rw [hlog]
        exact hl
    · intro id
      show Relay _ (Function.update s.channels info.sender _ id).queue _
        (!(Function.update s.channels info.sender _ id).rxAlive)
      rw [hlog, accepted_append, hnew]
      by_cases hid : info.sender = id
      · subst hid
        have hold := h.channel info.sender
        rw [halive] at hold
        rw [if_pos rfl, Function.update_self, Chan.trySend_ok_queue hok]
        exact hold.push _ _
      · rw [if_neg hid, List.append_nil, Function.update_of_ne (Ne.symm hid)]
        exact h.channel id
    · intro id packet hmem
      rw [accepted_append, hnew] at hmem
      rcases List.mem_append.mp hmem with hmem | hmem
      · exact List.mem_append_left _ (h.source id packet hmem)
      · split at hmem
        · next hid =>
          rw [List.mem_singleton] at hmem
          obtain ⟨src', c, is, hkey', -, hspawned, -⟩ := h.session info.sender task ht
          rw [hkey] at hkey'
          rw [hmem, ← hid]
          show RelayEvent.spawned info.sender (.udp src) ∈ _
          rw [hkey']
          exact List.mem_append_left _ hspawned
        · cases hmem
    · intro packet hmem
      obtain ⟨id, hq⟩ := h.main packet hmem
      exact ⟨id, List.mem_append_left _ hq⟩
  · next hfull =>
    rw [hfull]
    exact h.frame (by simp [Quiet, accepted, sessionLog]) rfl rfl (fun _ hq => hq) trivial
  · next hclosed =>
    rw [hclosed]
    exact h.frame (by simp [Quiet, accepted, sessionLog]) rfl rfl (fun _ hq => hq) trivial

theorem create_isolated (h : Isolated p es s) {d : Incoming} (hpc : s.pc = .create d) :
    Isolated p (es ++ []) (create p d s).1 := by
  have hd : PcIsolated p es s (.create d) := hpc ▸ h.pc
  obtain ⟨src, data, rfl, -⟩ := hd
  exact h.frame quiet_nil rfl rfl (fun _ hq => hq) ⟨src, rfl, rfl⟩

/-- A session starts with an empty channel and an empty log. -/
theorem spawn_isolated (h : Isolated p es s) {task : Task Q} (hpc : s.pc = .spawn task)
    (hnone : s.tasks task.receiver = none) :
    Isolated p (es ++ [.spawned task.receiver task.key]) (spawn task s) := by
  have hd : PcIsolated p es s (.spawn task) := hpc ▸ h.pc
  obtain ⟨src, hkey, hsession⟩ := hd
  obtain ⟨hq, hacc, hl⟩ := h.fresh _ hnone
  have hlog : ∀ id, sessionLog (es ++ [.spawned task.receiver task.key]) id =
      sessionLog es id := by
    intro id
    simp [sessionLog]
  have haccepted : ∀ id, accepted (es ++ [.spawned task.receiver task.key]) id =
      accepted es id := by
    intro id
    simp [accepted]
  refine ⟨?_, ?_, ?_, ?_, ?_, ?_, trivial⟩
  · intro id task' ht'
    have hupd : Function.update s.tasks task.receiver (some task) id = some task' := ht'
    by_cases hid : id = task.receiver
    · subst hid
      rw [Function.update_self] at hupd
      rw [← Option.some.inj hupd]
      refine ⟨src, _, [], hkey, hsession, ?_, ?_⟩
      · rw [← hkey]
        exact List.mem_append_right es (by simp)
      · rw [hlog, hl]
        rfl
    · rw [Function.update_of_ne hid] at hupd
      exact (h.session id task' hupd).mono (by simp [sessionLog])
  · intro id key hmem
    show ∃ task', Function.update s.tasks task.receiver (some task) id = some task' ∧ _
    rcases List.mem_append.mp hmem with hmem | hmem
    · obtain ⟨task', ht', hkey'⟩ := h.spawned id key hmem
      have hid : id ≠ task.receiver := by
        rintro rfl
        rw [hnone] at ht'
        cases ht'
      rw [Function.update_of_ne hid]
      exact ⟨task', ht', hkey'⟩
    · simp only [List.mem_singleton, RelayEvent.spawned.injEq] at hmem
      rw [hmem.1, hmem.2, Function.update_self]
      exact ⟨task, rfl, rfl⟩
  · intro id hnone'
    have hupd : Function.update s.tasks task.receiver (some task) id = none := hnone'
    by_cases hid : id = task.receiver
    · rw [hid, Function.update_self] at hupd
      cases hupd
    · rw [Function.update_of_ne hid] at hupd
      rw [haccepted, hlog]
      exact h.fresh id hupd
  · intro id
    rw [haccepted, hlog]
    exact h.channel id
  · intro id packet hmem
    rw [haccepted] at hmem
    exact List.mem_append_left _ (h.source id packet hmem)
  · intro packet hmem
    obtain ⟨id, hq⟩ := h.main packet hmem
    exact ⟨id, List.mem_append_left _ hq⟩

theorem mainStep_isolated (hmode : p.mode = .udpEndpoint) (hreg : RegistryInv p s)
    (h : Isolated p es s) {s' : State C Q} {i : Input} {o : List Output}
    (hstep : mainStep p s i = some (s', o)) : Isolated p (es ++ relayEvents p s i o) s' := by
  unfold mainStep at hstep
  split at hstep
  · next data src hpc =>
    split at hstep
    · refine of_result_state hstep ?_
      simpa [relayEvents, hpc] using recvFrom_isolated hmode h hpc data src
    · cases hstep
  · next hpc =>
    refine of_result_state hstep ?_
    simp only [relayEvents]
    exact h.frame quiet_nil rfl rfl (fun _ hq => hq) trivial
  · next hpc => simpa [relayEvents, hpc] using recvPacket_isolated h hstep
  · next hpc => simpa [relayEvents, hpc] using recvPacket_isolated h hstep
  · next packet ok hpc =>
    split at hstep
    · next hok =>
      refine of_result_state hstep ?_
      rw [hok]
      simp only [relayEvents, hpc]
      exact h.frame (by simp [Quiet, accepted, sessionLog]) rfl rfl (fun _ hq => hq) trivial
    · next hok =>
      refine of_result_state hstep ?_
      have hfalse : ok = false := by simpa using hok
      rw [hfalse]
      simp only [relayEvents]
      exact h.frame quiet_nil rfl rfl (fun _ hq => by cases hq) trivial
  · next d hpc =>
    refine of_result_state hstep ?_
    simp only [relayEvents, hpc]
    exact lookup_isolated hreg h hpc
  · next info d hpc =>
    refine of_result_state hstep ?_
    simp only [relayEvents, hpc]
    exact forward_isolated h hpc
  · next d hpc =>
    refine of_result_state hstep ?_
    simp only [relayEvents, hpc]
    exact create_isolated h hpc
  · next origin task hpc =>
    refine of_result_state hstep ?_
    have hd : PcIsolated p es s (.insert origin task) := hpc ▸ h.pc
    simp only [relayEvents, hpc]
    exact h.frame quiet_nil rfl rfl (fun _ hq => hq) hd
  · next task hpc =>
    refine of_result_state hstep ?_
    have hun : PcOk p s (.spawn task) := hpc ▸ hreg.pc
    simp only [relayEvents, hpc]
    exact spawn_isolated h hpc hun.none
  · cases hstep

/-! ## Moves of a task -/

/-- What a session's move has to do with the queues around it. -/
inductive UdpCoupling (s s' : State C Q) (task : Task Q) (c : UdpMode.Connection) :
    UdpMode.Input → Prop
  | took {packet chan} (hrecv : (s.channels task.receiver).recv = some (packet, chan))
      (hchannels : s'.channels = Function.update s.channels task.receiver chan)
      (hmain : s'.main = s.main) : UdpCoupling s s' task c (.udp (some packet))
  | queued {packet} (hpc : c.pc = .queue packet) (hok : (s.main.trySend packet).1 = .ok)
      (hmain : s'.main = (s.main.trySend packet).2) (hchannels : s'.channels = s.channels) :
      UdpCoupling s s' task c (.queued true)
  | own {i} (htake : ∀ packet, i ≠ .udp (some packet)) (hchannels : s'.channels = s.channels)
      (hmain : s'.main = s.main) : UdpCoupling s s' task c i

/-- A session's move is a step of its handler, coupled to its channel and to
the way back. -/
theorem taskMove_udp {id : Nat} {i : SessionInput} {s' : State C Q} {task : Task Q}
    {c : UdpMode.Connection} (h : taskMove p id i s = some s') (ht : s.tasks id = some task)
    (hc : task.session = .udp c) :
    ∃ j c' o, i = .udp j ∧ UdpMode.step c j = some (c', o) ∧ UdpCoupling s s' task c j ∧
      s'.tasks = Function.update s.tasks id (some { task with session := .udp c' }) ∧
      s'.pc = s.pc := by
  unfold taskMove at h
  rw [ht] at h
  simp only at h
  split at h
  · split at h
    · cases h
    · next session hstep =>
      rw [hc] at hstep
      cases i with
      | quic j => cases hstep
      | udp j =>
        obtain ⟨⟨c', o⟩, hj, hsession⟩ := Option.map_eq_some_iff.mp hstep
        refine ⟨j, c', o, rfl, hj, ?_⟩
        rw [← hsession] at h
        cases j with
        | udp packet =>
          cases packet with
          | some packet =>
            simp only [SessionInput.coupling] at h
            split at h
            · next front chan hrecv =>
              split at h
              · next hfront =>
                rw [hfront] at hrecv
                obtain rfl := Option.some.inj h
                exact ⟨.took hrecv rfl rfl, rfl, rfl⟩
              · cases h
            · cases h
          | none => cases h
        | queued rxAlive =>
          simp only [SessionInput.coupling, hc] at h
          split at h
          · cases h
          · next packet hout =>
            have hpc : c.pc = .queue packet := by
              obtain ⟨config, pc⟩ := c
              cases pc with
              | queue packet' => rw [Option.some.inj hout]
              | _ => cases hout
            split at h
            · next hok =>
              split at h
              · next halive =>
                obtain rfl := Option.some.inj h
                rw [halive]
                exact ⟨.queued hpc hok rfl rfl, rfl, rfl⟩
              · cases h
            · cases h
            · split at h
              · cases h
              · obtain rfl := Option.some.inj h
                exact ⟨.own (by simp) rfl rfl, rfl, rfl⟩
        | cancelled =>
          simp only [SessionInput.coupling] at h
          split at h
          · obtain rfl := Option.some.inj h
            exact ⟨.own (by simp) rfl rfl, rfl, rfl⟩
          · cases h
        | bound ok =>
          obtain rfl := Option.some.inj h
          exact ⟨.own (by simp) rfl rfl, rfl, rfl⟩
        | timeout =>
          obtain rfl := Option.some.inj h
          exact ⟨.own (by simp) rfl rfl, rfl, rfl⟩
        | sent ok =>
          obtain rfl := Option.some.inj h
          exact ⟨.own (by simp) rfl rfl, rfl, rfl⟩
        | broker datagram =>
          obtain rfl := Option.some.inj h
          exact ⟨.own (by simp) rfl rfl, rfl, rfl⟩
  · cases h

/-- The log of a session's move. -/
theorem relayEvents_udp (p : Env K C Q) (os : List Output) {id : Nat} {task : Task Q}
    {c c' : UdpMode.Connection} {j : UdpMode.Input} {o : List UdpMode.Output}
    (ht : s.tasks id = some task) (hc : task.session = .udp c)
    (hj : UdpMode.step c j = some (c', o)) :
    relayEvents p s (.task id (.udp j)) os = (UdpMode.events c j o).map (.session id) := by
  have hlog : sessionEvents s id j = UdpMode.events c j o := by
    obtain ⟨key, receiver, cancelToken, session, phase⟩ := task
    obtain rfl : session = .udp c := hc
    simp only [sessionEvents, ht, hj]
  rw [← hlog]
  simp only [relayEvents]

/-- The tasks that are not moving stay as they are, and the one that moves
keeps its key. -/
theorem kept_of_update {s' : State C Q} {id : Nat} {task task' : Task Q}
    (ht : s.tasks id = some task) (hkey : task'.key = task.key)
    (htasks : s'.tasks = Function.update s.tasks id (some task')) (id' : Nat) (t : Task Q)
    (ht' : s.tasks id' = some t) : ∃ t', s'.tasks id' = some t' ∧ t'.key = t.key := by
  rw [htasks]
  by_cases hid : id' = id
  · rw [hid, ht] at ht'
    rw [hid, Function.update_self, ← Option.some.inj ht']
    exact ⟨task', rfl, hkey⟩
  · rw [Function.update_of_ne hid]
    exact ⟨t, ht', rfl⟩

/-- Where there is no task now, none has moved. -/
theorem none_of_update {s' : State C Q} {id : Nat} {task' : Task Q}
    (htasks : s'.tasks = Function.update s.tasks id (some task')) {id' : Nat}
    (hnone : s'.tasks id' = none) : id' ≠ id ∧ s.tasks id' = none := by
  rw [htasks] at hnone
  by_cases hid : id' = id
  · rw [hid, Function.update_self] at hnone
    cases hnone
  · rw [Function.update_of_ne hid] at hnone
    exact ⟨hid, hnone⟩

section Coupling

variable {s' : State C Q} {task : Task Q} {c c' : UdpMode.Connection} {j : UdpMode.Input}
  {o : List UdpMode.Output}

/-- A session takes from no channel but its own. -/
theorem UdpCoupling.channels_ne (h : UdpCoupling s s' task c j) {id : Nat}
    (hid : id ≠ task.receiver) : s'.channels id = s.channels id := by
  cases h with
  | took _ hchannels _ => rw [hchannels, Function.update_of_ne hid]
  | queued _ _ _ hchannels => rw [hchannels]
  | own _ hchannels _ => rw [hchannels]

/-- What a session takes in was at the front of its channel. -/
theorem UdpCoupling.relay (h : UdpCoupling s s' task c j)
    (hj : UdpMode.step c j = some (c', o)) {sent taken : List UdpPacket}
    (hold : Relay sent (s.channels task.receiver).queue taken
      (!(s.channels task.receiver).rxAlive)) :
    Relay sent (s'.channels task.receiver).queue (taken ++ UdpMode.taken (UdpMode.events c j o))
      (!(s'.channels task.receiver).rxAlive) := by
  cases h with
  | took hrecv hchannels _ =>
    obtain ⟨hqueue, halive⟩ := Chan.recv_eq_some hrecv
    rw [hqueue] at hold
    rw [hchannels, Function.update_self, halive, UdpMode.taken_events_udp hj]
    exact hold.pop
  | queued _ _ _ hchannels =>
    rw [hchannels, UdpMode.taken_events_own hj (by simp), List.append_nil]
    exact hold
  | own htake hchannels _ =>
    rw [hchannels, UdpMode.taken_events_own hj htake, List.append_nil]
    exact hold

/-- A packet in `main` was there, or has just been queued. -/
theorem UdpCoupling.mem_main (h : UdpCoupling s s' task c j)
    (hj : UdpMode.step c j = some (c', o)) {packet : UdpPacket}
    (hmem : packet ∈ s'.main.queue) :
    packet ∈ s.main.queue ∨ .queued packet ∈ UdpMode.events c j o := by
  cases h with
  | took _ _ hmain => exact .inl (by rwa [hmain] at hmem)
  | own _ _ hmain => exact .inl (by rwa [hmain] at hmem)
  | queued hcpc hok hmain _ =>
    rw [hmain, Chan.trySend_ok_queue hok] at hmem
    rcases List.mem_append.mp hmem with hold | hnew
    · exact .inl hold
    · rw [List.mem_singleton] at hnew
      simp only [UdpMode.step, hcpc, if_true] at hj
      obtain ⟨-, rfl⟩ := Prod.mk.inj (Option.some.inj hj)
      exact .inr (by simp [UdpMode.events, UdpMode.intake, UdpMode.Output.event, hnew])

end Coupling

/-- A session's move is logged as a move of its handler, and keeps the books of
its channel. -/
theorem taskMove_isolated (hreg : RegistryInv p s) (h : Isolated p es s) {id : Nat}
    {i : SessionInput} {s' : State C Q} (hmove : taskMove p id i s = some s') :
    Isolated p (es ++ relayEvents p s (.task id i) []) s' := by
  obtain ⟨task, -, -, -, ht, -⟩ := taskMove_eq_some hmove
  obtain ⟨src, c, is, hkey, hsession, hspawned, hrun⟩ := h.session id task ht
  obtain ⟨j, c', o, rfl, hj, hcouple, htasks, hpc⟩ := taskMove_udp hmove ht hsession
  have hrx : task.receiver = id := (hreg.task id task ht).1
  have hkept : ∀ id' t, s.tasks id' = some t → ∃ t', s'.tasks id' = some t' ∧ t'.key = t.key :=
    kept_of_update ht (by rfl) htasks
  rw [relayEvents_udp p [] ht hsession hj]
  have haccepted : ∀ id', accepted (es ++ (UdpMode.events c j o).map (.session id)) id' =
      accepted es id' := by
    intro id'
    rw [accepted_append, accepted_map, List.append_nil]
  have hlog : ∀ id', sessionLog (es ++ (UdpMode.events c j o).map (.session id)) id' =
      sessionLog es id' ++ if id = id' then UdpMode.events c j o else [] := by
    intro id'
    rw [sessionLog_append, sessionLog_map]
  refine ⟨?_, ?_, ?_, ?_, ?_, ?_, ?_⟩
  · intro id' task' ht'
    rw [htasks] at ht'
    by_cases hid : id' = id
    · subst hid
      rw [Function.update_self] at ht'
      rw [← Option.some.inj ht']
      refine ⟨src, c', is ++ [j], hkey, rfl, List.mem_append_left _ hspawned, ?_⟩
      rw [hlog, if_pos rfl]
      exact run_snoc (observe_eq_some.mpr ⟨o, hj, rfl⟩) hrun
    · rw [Function.update_of_ne hid] at ht'
      exact (h.session id' task' ht').mono (by rw [sessionLog_map, if_neg (Ne.symm hid)])
  · intro id' key hmem
    have hmem' : .spawned id' key ∈ es := by
      rcases List.mem_append.mp hmem with hmem | hmem
      · exact hmem
      · simp at hmem
    obtain ⟨t, ht', hkey'⟩ := h.spawned id' key hmem'
    obtain ⟨t', ht'', hkey''⟩ := hkept id' t ht'
    exact ⟨t', ht'', hkey''.trans hkey'⟩
  · intro id' hnone
    obtain ⟨hid, hold⟩ := none_of_update htasks hnone
    obtain ⟨hq, hacc, hl⟩ := h.fresh id' hold
    rw [haccepted, hlog, if_neg (Ne.symm hid), List.append_nil,
      hcouple.channels_ne (by rw [hrx]; exact hid)]
    exact ⟨hq, hacc, hl⟩
  · intro id'
    rw [haccepted, hlog]
    by_cases hid : id = id'
    · subst hid
      have hbooks := hcouple.relay hj (by rw [hrx]; exact h.channel id)
      rw [hrx] at hbooks
      rw [if_pos rfl, UdpMode.taken_append]
      exact hbooks
    · rw [if_neg hid, List.append_nil, hcouple.channels_ne (by rw [hrx]; exact Ne.symm hid)]
      exact h.channel id'
  · intro id' packet hmem
    rw [haccepted] at hmem
    exact List.mem_append_left _ (h.source id' packet hmem)
  · intro packet hmem
    rcases hcouple.mem_main hj hmem with hold | hnew
    · obtain ⟨id', hid'⟩ := h.main packet hold
      exact ⟨id', List.mem_append_left _ hid'⟩
    · exact ⟨id, List.mem_append_right _ (List.mem_map_of_mem hnew)⟩
  · rw [hpc]
    exact h.pc.mono _ hkept

/-- A task goes from one phase to the next, its channel open or closed. -/
theorem taskPhase_isolated (h : Isolated p es s) {id : Nat} {task : Task Q} {phase : Phase}
    (ht : s.tasks id = some task) {s' : State C Q}
    (htasks : s'.tasks = Function.update s.tasks id (some { task with phase := phase }))
    (hchannels : ∀ id', s'.channels id' = s.channels id' ∨
      s'.channels id' = (s.channels id').dropReceiver)
    (hmain : s'.main = s.main) (hpc : s'.pc = s.pc) : Isolated p (es ++ []) s' := by
  have hkept : ∀ id' t, s.tasks id' = some t → ∃ t', s'.tasks id' = some t' ∧ t'.key = t.key :=
    kept_of_update ht (by rfl) htasks
  rw [List.append_nil]
  refine ⟨?_, ?_, ?_, ?_, h.source, ?_, ?_⟩
  · intro id' task' ht'
    rw [htasks] at ht'
    by_cases hid : id' = id
    · subst hid
      rw [Function.update_self] at ht'
      rw [← Option.some.inj ht']
      exact h.session id' task ht
    · rw [Function.update_of_ne hid] at ht'
      exact h.session id' task' ht'
  · intro id' key hmem
    obtain ⟨t, ht', hkey⟩ := h.spawned id' key hmem
    obtain ⟨t', ht'', hkey'⟩ := hkept id' t ht'
    exact ⟨t', ht'', hkey'.trans hkey⟩
  · intro id' hnone
    obtain ⟨hq, hacc, hl⟩ := h.fresh id' (none_of_update htasks hnone).2
    refine ⟨?_, hacc, hl⟩
    rcases hchannels id' with hc | hc
    · rw [hc]
      exact hq
    · rw [hc]
      rfl
  · intro id'
    rcases hchannels id' with hc | hc
    · rw [hc]
      exact h.channel id'
    · rw [hc]
      exact (h.channel id').close
  · intro packet hmem
    rw [hmain] at hmem
    exact h.main packet hmem
  · rw [hpc, ← List.append_nil es]
    exact h.pc.mono [] hkept

/-! ## Every run -/

theorem step_isolated (hmode : p.mode = .udpEndpoint) (hreg : RegistryInv p s)
    (h : Isolated p es s) {s' : State C Q} {i : Input} {o : List Output}
    (hstep : step p s i = some (s', o)) : Isolated p (es ++ relayEvents p s i o) s' := by
  rcases step_turn hstep with ⟨hturn, rfl⟩ | hmain
  · cases hturn with
    | moves hmove => exact taskMove_isolated hreg h hmove
    | finishes ht _ =>
      simp only [relayEvents]
      exact taskPhase_isolated h ht rfl (fun _ => .inl rfl) rfl rfl
    | removes ht _ =>
      simp only [relayEvents]
      exact taskPhase_isolated h ht rfl (fun _ => .inl rfl) rfl rfl
    | @drops id task ht _ =>
      simp only [relayEvents]
      refine taskPhase_isolated h ht rfl (fun id' => ?_) rfl rfl
      by_cases hid : id' = task.receiver
      · subst hid
        exact .inr (Function.update_self _ _ _)
      · exact .inl (Function.update_of_ne hid _ _)
  · exact mainStep_isolated hmode hreg h hmain

/-- **Sessions and channels are as the log says**, after every run in
UdpEndpoint mode. -/
theorem run_isolated (hmode : p.mode = .udpEndpoint) {quicConfig : C} {is : List Input}
    {s : State C Q} {es : List RelayEvent}
    (hr : run (observe (step p) (relayEvents p)) (State.init quicConfig) is = some (s, es)) :
    RegistryInv p s ∧ Isolated p es s := by
  refine @run_induct _ _ _ _ (fun es s => RegistryInv p s ∧ Isolated p es s) _ _ _ _
    ⟨registryInv_init quicConfig, isolated_init quicConfig⟩ ?_ hr
  intro es s i s' fs h hstep
  obtain ⟨o, hm, rfl⟩ := observe_eq_some.mp hstep
  exact ⟨(step_ok h.1 hm).inv, step_isolated hmode h.1 h.2 hm⟩

end MqttScion.Proxy
