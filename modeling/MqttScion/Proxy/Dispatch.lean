import Mathlib.Logic.Function.Basic
import MqttScion.Lib.Channel
import MqttScion.Proxy.QuicMode
import MqttScion.Proxy.Token
import MqttScion.Proxy.UdpMode

/-!
# The proxy: main loop, registries and connection tasks

`Proxy::run` (`src/proxy/mod.rs`) with its two datagram handlers, and the tasks
they spawn. The main loop and the tasks share the registry of connections, the
channel toward the socket (`main`), one channel and one cancellation token per
connection.

`step` is the system: an `Input` is one move of the main loop or of one task,
in any order. The main loop is cut where it takes the registry lock and where
it awaits, so the look-up, the `try_send`, the insert and the spawn of one
datagram are separate moves, with tasks moving in between. A task runs its
mode's handler, and once that has returned removes its entry and then drops
the receiver with the rest of its captured state.

`udp_connections` and `quic_connections` are one map here, over the disjoint
union of their keys. A channel, its two ends and the cancellation token created
with it are named by one number, drawn fresh at creation.
-/

namespace MqttScion.Proxy

open MqttScion.Net MqttScion.Lib

/-- `MAIN_CHANNEL_CAPACITY`. -/
def mainChannelCapacity : Nat := 10000

/-- `CLIENT_CHANNEL_CAPACITY`. -/
def clientChannelCapacity : Nat := 200

inductive Mode
  | quicEndpoint
  | udpEndpoint
  deriving DecidableEq, Repr

/-- What stays fixed while the proxy runs: its configuration and keys, the
bound address, and the libraries it calls. -/
structure Env (K C Q : Type) where
  hmac : Hmac K
  quiche : QuicheServer C Q
  mode : Mode
  mqttBrokerAddress : SocketAddr
  tokenKey : K
  connIdSeed : K
  localScionAddr : ScionAddr
  localAddr : SocketAddr
  localAddr_eq : localScionAddr.localAddress = some localAddr

/-- The key of a registry entry: the SCION source in `udp_connections`, the
connection ID in `quic_connections`. -/
inductive Key
  | udp (src : ScionAddr)
  | quic (id : Bytes)
  deriving DecidableEq

/-- `ConnectionInfo`: the sending end of the task's channel and its token. -/
structure ConnectionInfo where
  sender : Nat
  cancelToken : Nat
  deriving DecidableEq

/-- The handler a task runs. -/
inductive Session (Q : Type)
  | quic (c : QuicMode.Connection Q)
  | udp (c : UdpMode.Connection)

/-- How far a task has come: in its handler, before its `remove`, after it,
and gone. -/
inductive Phase
  | running
  | finished
  | removed
  | dropped
  deriving DecidableEq, Repr

/-- The task has not removed its entry yet. -/
def Phase.live : Phase → Bool
  | .running | .finished => true
  | .removed | .dropped => false

structure Task (Q : Type) where
  key : Key
  receiver : Nat
  cancelToken : Nat
  session : Session Q
  phase : Phase

/-- A datagram as the handler of the mode sees it. -/
inductive Incoming
  | quic (hdr : Header) (srcIp : SocketAddr) (src : ScionAddr) (buf : Bytes)
  | udp (src : ScionAddr) (buf : Bytes)
  deriving DecidableEq

/-- What a registration goes back to: the source of the datagram, and in
QuicEndpoint mode the destination ID and the token in it and the ID recovered from
the token. -/
inductive Origin
  | quic (src : ScionAddr) (dcid token odcid : Bytes)
  | udp (src : ScionAddr)
  deriving DecidableEq

/-- Why `run` returns. -/
inductive Fault
  | negotiateVersion (e : QuicheError)
  | tokenMissing
  | retry (e : QuicheError)
  | sendTo
  | panicked
  deriving DecidableEq

/-- Where the main loop is. `selectOutgoing` is `select!` after `recv_from`
failed, which disables that branch until the other one fires. -/
inductive Pc (Q : Type)
  | select
  | selectOutgoing
  | lookup (d : Incoming)
  | forward (info : ConnectionInfo) (d : Incoming)
  | create (d : Incoming)
  | insert (origin : Origin) (task : Task Q)
  | spawn (task : Task Q)
  | sendTo (packet : UdpPacket)
  | returned (f : Fault)

structure State (C Q : Type) where
  quicConfig : C
  connections : Key → Option ConnectionInfo
  channels : Nat → Chan UdpPacket clientChannelCapacity
  cancelled : Nat → Bool
  tasks : Nat → Option (Task Q)
  nextId : Nat
  main : Chan UdpPacket mainChannelCapacity
  pc : Pc Q

/-- The input of a task's handler. -/
inductive SessionInput
  | quic (i : QuicMode.Input)
  | udp (i : UdpMode.Input)

inductive Input
  | recvFrom (data : Bytes) (src : ScionAddr)
  | recvFromError
  | recvPacket
  /-- The outcome of `socket.send_to`. -/
  | sent (ok : Bool)
  | step
  | task (id : Nat) (i : SessionInput)
  | taskFinish (id : Nat)
  | taskRemove (id : Nat)
  | taskDrop (id : Nat)

inductive Output
  | minted (src : ScionAddr) (dcid token : Bytes)
  | inserted (key : Key) (id : Nat) (origin : Origin)
  | forwarded (id : Nat) (d : Incoming)
  | cancelled (token : Nat)
  | sentTo (packet : UdpPacket)
  deriving DecidableEq

variable {K C Q : Type}

/-- The proxy at the head of its main loop, for the first time. -/
def State.init (quicConfig : C) : State C Q where
  quicConfig := quicConfig
  connections _ := none
  channels _ := Chan.new
  cancelled _ := false
  tasks _ := none
  nextId := 0
  main := Chan.new
  pc := .select

/-! ## One datagram -/

/-- The connection ID derived from a destination connection ID (l. 198). -/
def connId (p : Env K C Q) (dcid : Bytes) : Bytes :=
  (p.hmac.sign p.connIdSeed dcid).take maxConnIdLen

/-- A derived ID has the length of a Retry's. -/
theorem connId_length (p : Env K C Q) (dcid : Bytes) : (connId p dcid).length = maxConnIdLen :=
  p.hmac.sign_take_length _ _ (by decide)

def Incoming.src : Incoming → ScionAddr
  | .quic _ _ src _ => src
  | .udp src _ => src

def Incoming.buf : Incoming → Bytes
  | .quic _ _ _ buf => buf
  | .udp _ buf => buf

/-- The datagram as it is handed to a task. -/
def Incoming.packet (p : Env K C Q) (d : Incoming) : UdpPacket :=
  { src := d.src, dst := p.localScionAddr, data := d.buf }

/-- The keys looked up for a datagram, in order. -/
def lookupKeys (p : Env K C Q) : Incoming → List Key
  | .quic hdr _ _ _ => [.quic hdr.dcid, .quic (connId p hdr.dcid)]
  | .udp src _ => [.udp src]

/-- What becomes of an Initial of an unknown connection. -/
inductive Verdict (Q : Type)
  | fail (f : Fault)
  | drop
  | negotiate (out : Bytes)
  | retry (out token : Bytes)
  | register (token odcid : Bytes) (conn : Q)
  deriving DecidableEq

/-- `handle_udp_packet_mode_quic` from l. 232 to the end of l. 359: what is
decided before anything is sent or registered. `accept` borrows `quic_config`
mutably, so that is returned as well. -/
def handleInitial (p : Env K C Q) (quicConfig : C) (hdr : Header) (srcIp : SocketAddr)
    (buf : Bytes) : Verdict Q × C :=
  if !p.quiche.versionIsSupported hdr.version then
    match p.quiche.negotiateVersion hdr.scid hdr.dcid with
    | .error e => (.fail (.negotiateVersion e), quicConfig)
    | .ok out => (.negotiate out, quicConfig)
  else
    let scid := connId p hdr.dcid
    match hdr.token with
    | none => (.fail .tokenMissing, quicConfig)
    | some token =>
      if token.isEmpty then
        let newToken := mintToken p.hmac p.tokenKey hdr srcIp
        match p.quiche.retry hdr.scid hdr.dcid scid newToken hdr.version with
        | .error e => (.fail (.retry e), quicConfig)
        | .ok out => (.retry out newToken, quicConfig)
      else
        match validateToken p.hmac p.tokenKey srcIp token with
        | .error _ => (.fail .panicked, quicConfig)
        | .ok none => (.drop, quicConfig)
        | .ok (some odcid) =>
          if scid.length ≠ hdr.dcid.length then (.drop, quicConfig)
          else
            let scid := hdr.dcid
            match p.quiche.accept quicConfig scid (some odcid) p.localAddr srcIp with
            | (.error _, quicConfig) => (.drop, quicConfig)
            | (.ok conn, quicConfig) =>
              match p.quiche.connection.recv conn buf ⟨srcIp, p.localAddr⟩ with
              | (.error _, _) => (.drop, quicConfig)
              | (.ok _, conn) => (.register token odcid conn, quicConfig)

/-! ## Moves of the main loop -/

/-- `return Err(..)` out of `run`, which drops the receiver of `main`. -/
def State.fail (s : State C Q) (f : Fault) : State C Q :=
  { s with pc := .returned f, main := s.main.dropReceiver }

/-- `recv_from` has returned a datagram. -/
def recvFrom (p : Env K C Q) (data : Bytes) (src : ScionAddr) (s : State C Q) : State C Q :=
  match src.localAddress with
  | none => s
  | some srcIp =>
    match p.mode with
    | .quicEndpoint =>
      match p.quiche.headerFromSlice data maxConnIdLen with
      | .error _ => s
      | .ok hdr => { s with pc := .lookup (.quic hdr srcIp src data) }
    | .udpEndpoint => { s with pc := .lookup (.udp src data) }

/-- `rx_quic_to_udp.recv()` has returned a packet. -/
def recvPacket (s : State C Q) : Option (State C Q × List Output) :=
  match s.main.recv with
  | some (packet, main) => some ({ s with main := main, pc := .sendTo packet }, [])
  | none => none

/-- The look-up, under the lock. -/
def lookup (p : Env K C Q) (d : Incoming) (s : State C Q) : State C Q :=
  match (lookupKeys p d).findSome? s.connections with
  | some info => { s with pc := .forward info d }
  | none => { s with pc := .create d }

/-- `try_send` to the connection's task. -/
def forward (p : Env K C Q) (info : ConnectionInfo) (d : Incoming) (s : State C Q) :
    State C Q × List Output :=
  let r := (s.channels info.sender).trySend (d.packet p)
  match r.1 with
  | .ok =>
    ({ s with channels := Function.update s.channels info.sender r.2, pc := .select },
      [.forwarded info.sender d])
  | .full => ({ s with pc := .select }, [])
  | .closed =>
    ({ s with cancelled := Function.update s.cancelled info.cancelToken true, pc := .select },
      [.cancelled info.cancelToken])

/-- `try_send` of an answer to `main`; a full or closed channel drops it. -/
def State.respond (p : Env K C Q) (s : State C Q) (dst : ScionAddr) (out : Bytes) :
    State C Q :=
  let packet : UdpPacket := { src := p.localScionAddr, dst := dst, data := out }
  { s with main := (s.main.trySend packet).2, pc := .select }

/-- A fresh channel and token, and the task that will own their other ends. -/
def State.prepare (s : State C Q) (origin : Origin) (key : Key) (session : Session Q) :
    State C Q :=
  { s with
    nextId := s.nextId + 1
    pc := .insert origin
      { key := key, receiver := s.nextId, cancelToken := s.nextId, session := session,
        phase := .running } }

/-- A datagram of no known connection. -/
def create (p : Env K C Q) (d : Incoming) (s : State C Q) : State C Q × List Output :=
  match d with
  | .udp src _ =>
    (s.prepare (.udp src) (.udp src)
      (.udp (.new ⟨p.localScionAddr, src, p.mqttBrokerAddress⟩)), [])
  | .quic hdr srcIp src buf =>
    if hdr.ty = .initial then
      let r := handleInitial p s.quicConfig hdr srcIp buf
      let s := { s with quicConfig := r.2 }
      match r.1 with
      | .fail f => (s.fail f, [])
      | .drop => ({ s with pc := .select }, [])
      | .negotiate out => (s.respond p src out, [])
      | .retry out token => (s.respond p src out, [.minted src hdr.dcid token])
      | .register token odcid conn =>
        (s.prepare (.quic src hdr.dcid token odcid) (.quic hdr.dcid)
          (.quic (.new ⟨p.localScionAddr.isdAsn, src.isdAsn, p.mqttBrokerAddress⟩ conn)), [])
    else ({ s with pc := .select }, [])

/-- The insert, under the lock. -/
def insert (origin : Origin) (task : Task Q) (s : State C Q) : State C Q × List Output :=
  let info : ConnectionInfo := { sender := task.receiver, cancelToken := task.cancelToken }
  ({ s with connections := Function.update s.connections task.key (some info), pc := .spawn task },
    [.inserted task.key task.receiver origin])

/-- `tokio::spawn`. -/
def spawn (task : Task Q) (s : State C Q) : State C Q :=
  { s with tasks := Function.update s.tasks task.receiver (some task), pc := .select }

/-! ## Moves of a task -/

/-- What an input of the handler has to agree with outside it. -/
inductive Coupling
  | own
  | recv (packet : UdpPacket)
  | recvClosed
  | queue (rxAlive : Bool)
  | cancel

def SessionInput.coupling : SessionInput → Coupling
  | .quic (.udp (some packet) _) => .recv packet
  | .quic (.udp none _) => .recvClosed
  | .quic (.queued rxAlive) => .queue rxAlive
  | .quic .cancelled => .cancel
  | .udp (.udp (some packet)) => .recv packet
  | .udp (.udp none) => .recvClosed
  | .udp (.queued rxAlive) => .queue rxAlive
  | .udp .cancelled => .cancel
  | _ => .own

/-- One move of the handler. -/
def Session.step (qc : Quiche Q) : Session Q → SessionInput → Option (Session Q)
  | .quic c, .quic i => (QuicMode.step qc c i).map fun r => .quic r.1
  | .udp c, .udp i => (UdpMode.step c i).map fun r => .udp r.1
  | _, _ => none

/-- The packet the handler is sending to `main`. -/
def Session.outgoing : Session Q → Option UdpPacket
  | .quic ⟨_, _, _, .queue _ packet⟩ => some packet
  | .udp ⟨_, .queue packet⟩ => some packet
  | _ => none

def State.setTask (s : State C Q) (id : Nat) (task : Task Q) : State C Q :=
  { s with tasks := Function.update s.tasks id (some task) }

/-- A running task moves, with what it takes from or puts into the channels. -/
def taskMove (p : Env K C Q) (id : Nat) (i : SessionInput) (s : State C Q) :
    Option (State C Q) :=
  match s.tasks id with
  | none => none
  | some task =>
    if task.phase = .running then
      match task.session.step p.quiche.connection i with
      | none => none
      | some session =>
        let s' := s.setTask id { task with session := session }
        match i.coupling with
        | .own => some s'
        | .recv packet =>
          match (s.channels task.receiver).recv with
          | some (front, chan) =>
            if front = packet then
              some { s' with channels := Function.update s.channels task.receiver chan }
            else none
          | none => none
        -- the task's own registry entry keeps a sender alive
        | .recvClosed => none
        | .queue rxAlive =>
          match task.session.outgoing with
          | none => none
          | some packet =>
            let r := s.main.trySend packet
            match r.1 with
            | .ok => if rxAlive then some { s' with main := r.2 } else none
            -- `send(..).await` waits
            | .full => none
            | .closed => if rxAlive then none else some s'
        | .cancel => if s.cancelled task.cancelToken then some s' else none
    else none

/-- The task goes from one phase to the next. -/
def taskPhase (id : Nat) (before after : Phase) (s : State C Q) : Option (Task Q × State C Q) :=
  match s.tasks id with
  | none => none
  | some task =>
    if task.phase = before then some (task, s.setTask id { task with phase := after }) else none

/-- `connections_clone.lock().await.remove(&key)`. -/
def taskRemove (id : Nat) (s : State C Q) : Option (State C Q) :=
  (taskPhase id .finished .removed s).map fun r =>
    { r.2 with connections := Function.update s.connections r.1.key none }

/-- The end of the spawned future, which drops the receiver. -/
def taskDrop (id : Nat) (s : State C Q) : Option (State C Q) :=
  (taskPhase id .removed .dropped s).map fun r =>
    { r.2 with
      channels := Function.update s.channels r.1.receiver
        (s.channels r.1.receiver).dropReceiver }

/-! ## The system -/

/-- One move of the main loop. -/
def mainStep (p : Env K C Q) (s : State C Q) (i : Input) : Option (State C Q × List Output) :=
  match s.pc, i with
  | .select, .recvFrom data src =>
    if data.length ≤ udpPacketBufferSize then some (recvFrom p data src s, []) else none
  | .select, .recvFromError => some ({ s with pc := .selectOutgoing }, [])
  | .select, .recvPacket => recvPacket s
  | .selectOutgoing, .recvPacket => recvPacket s
  | .sendTo packet, .sent ok =>
    if ok then some ({ s with pc := .select }, [.sentTo packet]) else some (s.fail .sendTo, [])
  | .lookup d, .step => some (lookup p d s, [])
  | .forward info d, .step => some (forward p info d s)
  | .create d, .step => some (create p d s)
  | .insert origin task, .step => some (insert origin task s)
  | .spawn task, .step => some (spawn task s, [])
  | _, _ => none

/-- One move of the main loop or of a task. A handler may return at any time
(`taskFinish`). -/
def step (p : Env K C Q) : Machine (State C Q) Input Output := fun s i =>
  match i with
  | .task id i => (taskMove p id i s).map fun s' => (s', [])
  | .taskFinish id => (taskPhase id .running .finished s).map fun r => (r.2, [])
  | .taskRemove id => (taskRemove id s).map fun s' => (s', [])
  | .taskDrop id => (taskDrop id s).map fun s' => (s', [])
  | i => mainStep p s i

/-! ## What the moves leave alone -/

/-- The two states agree on the registry, the tasks and everything named by a
number. -/
structure Undisturbed (s s' : State C Q) : Prop where
  connections : s'.connections = s.connections
  tasks : s'.tasks = s.tasks
  nextId : s'.nextId = s.nextId
  rxAlive : ∀ id, (s'.channels id).rxAlive = (s.channels id).rxAlive
  cancelled : s'.cancelled = s.cancelled

theorem Undisturbed.refl (s : State C Q) : Undisturbed s s := ⟨rfl, rfl, rfl, fun _ => rfl, rfl⟩

/-- `main`, the configuration and the place of the main loop do not matter. -/
theorem Undisturbed.goto (s : State C Q) (quicConfig : C)
    (main : Chan UdpPacket mainChannelCapacity) (pc : Pc Q) :
    Undisturbed s { s with quicConfig := quicConfig, main := main, pc := pc } :=
  ⟨rfl, rfl, rfl, fun _ => rfl, rfl⟩

/-- Receiving a datagram leaves the registry, the tasks and the channels alone. -/
theorem recvFrom_undisturbed (p : Env K C Q) (data : Bytes) (src : ScionAddr) (s : State C Q) :
    Undisturbed s (recvFrom p data src s) := by
  unfold recvFrom
  split
  · exact .refl s
  · split
    · split
      · exact .refl s
      · exact .goto s s.quicConfig s.main _
    · exact .goto s s.quicConfig s.main _

/-- `recvPacket` takes the front of `main` and sends it. -/
theorem recvPacket_eq_some {s s' : State C Q} {o : List Output}
    (h : recvPacket s = some (s', o)) :
    ∃ packet main, s.main.recv = some (packet, main) ∧
      s' = { s with main := main, pc := .sendTo packet } ∧ o = [] := by
  unfold recvPacket at h
  split at h
  · next packet main hrecv =>
    obtain ⟨rfl, rfl⟩ := Prod.mk.inj (Option.some.inj h)
    exact ⟨packet, main, hrecv, rfl, rfl⟩
  · cases h

/-- A task that moves changes its session, the queues, and nothing else. No
receiver is dropped. -/
theorem taskMove_eq_some {p : Env K C Q} {id : Nat} {i : SessionInput} {s s' : State C Q}
    (h : taskMove p id i s = some s') :
    ∃ task session channels main,
      s.tasks id = some task ∧ task.phase = .running ∧
      task.session.step p.quiche.connection i = some session ∧
      (∀ id', (channels id').rxAlive = (s.channels id').rxAlive) ∧
      main.rxAlive = s.main.rxAlive ∧
      s' = { s.setTask id { task with session := session } with
        channels := channels, main := main } := by
  unfold taskMove at h
  split at h
  · cases h
  · next task htask =>
    split at h
    · next hphase =>
      split at h
      · cases h
      · next session hstep =>
        -- every move but `recv` leaves the channels as they are
        have hsame : ∀ main, main.rxAlive = s.main.rxAlive →
            ({ s.setTask id { task with session := session } with
              main := main } : State C Q) = s' → ∃ task session channels main,
              s.tasks id = some task ∧ task.phase = .running ∧
              task.session.step p.quiche.connection i = some session ∧
              (∀ id', (channels id').rxAlive = (s.channels id').rxAlive) ∧
              main.rxAlive = s.main.rxAlive ∧
              s' = { s.setTask id { task with session := session } with
                channels := channels, main := main } := by
          intro main hmain hs'
          exact ⟨task, session, s.channels, main, htask, hphase, hstep, fun _ => rfl, hmain,
            hs'.symm⟩
        simp only at h
        split at h
        · exact hsame s.main rfl (Option.some.inj h)
        · next packet _ =>
          split at h
          · next front chan hrecv =>
            split at h
            · obtain ⟨-, halive⟩ := Chan.recv_eq_some hrecv
              refine ⟨task, session, Function.update s.channels task.receiver chan, s.main, htask,
                hphase, hstep, fun id' => ?_, rfl, (Option.some.inj h).symm⟩
              by_cases hid : id' = task.receiver
              · rw [hid, Function.update_self, halive]
              · rw [Function.update_of_ne hid]
            · cases h
          · cases h
        · cases h
        · split at h
          · cases h
          · next packet _ =>
            split at h
            · split at h
              · exact hsame _ (s.main.trySend_rxAlive packet) (Option.some.inj h)
              · cases h
            · cases h
            · split at h
              · cases h
              · exact hsame s.main rfl (Option.some.inj h)
        · split at h
          · exact hsame s.main rfl (Option.some.inj h)
          · cases h
    · cases h

/-- A task goes from one phase to the next. -/
theorem taskPhase_eq_some {id : Nat} {before after : Phase} {s s₁ : State C Q} {task : Task Q}
    (h : taskPhase id before after s = some (task, s₁)) :
    s.tasks id = some task ∧ task.phase = before ∧
      s₁ = s.setTask id { task with phase := after } := by
  unfold taskPhase at h
  split at h
  · cases h
  · next t ht =>
    split at h
    · next hphase =>
      obtain ⟨rfl, rfl⟩ := Prod.mk.inj (Option.some.inj h)
      exact ⟨ht, hphase, rfl⟩
    · cases h

/-- A task that has finished takes its own key out of the registry. -/
theorem taskRemove_eq_some {id : Nat} {s s' : State C Q} (h : taskRemove id s = some s') :
    ∃ task, s.tasks id = some task ∧ task.phase = .finished ∧
      s' = { s.setTask id { task with phase := .removed } with
        connections := Function.update s.connections task.key none } := by
  obtain ⟨⟨task, s₁⟩, hphase, heq⟩ := Option.map_eq_some_iff.mp h
  obtain ⟨ht, hfin, rfl⟩ := taskPhase_eq_some hphase
  exact ⟨task, ht, hfin, heq.symm⟩

/-- A task that has removed itself drops its receiver. -/
theorem taskDrop_eq_some {id : Nat} {s s' : State C Q} (h : taskDrop id s = some s') :
    ∃ task, s.tasks id = some task ∧ task.phase = .removed ∧
      s' = { s.setTask id { task with phase := .dropped } with
        channels := Function.update s.channels task.receiver
          (s.channels task.receiver).dropReceiver } := by
  obtain ⟨⟨task, s₁⟩, hphase, heq⟩ := Option.map_eq_some_iff.mp h
  obtain ⟨ht, hrem, rfl⟩ := taskPhase_eq_some hphase
  exact ⟨task, ht, hrem, heq.symm⟩

/-- What the step of a task does: its handler goes on, or its future goes to the
next phase. -/
inductive TaskTurn (p : Env K C Q) (s : State C Q) : Input → State C Q → Prop
  | moves {id i s'} (hmove : taskMove p id i s = some s') : TaskTurn p s (.task id i) s'
  | finishes {id task} (ht : s.tasks id = some task) (hrun : task.phase = .running) :
      TaskTurn p s (.taskFinish id) (s.setTask id { task with phase := .finished })
  | removes {id task} (ht : s.tasks id = some task) (hfin : task.phase = .finished) :
      TaskTurn p s (.taskRemove id) { s.setTask id { task with phase := .removed } with
        connections := Function.update s.connections task.key none }
  | drops {id task} (ht : s.tasks id = some task) (hrem : task.phase = .removed) :
      TaskTurn p s (.taskDrop id) { s.setTask id { task with phase := .dropped } with
        channels := Function.update s.channels task.receiver
          (s.channels task.receiver).dropReceiver }

/-- A step is one of a task, which says nothing, or one of the main loop. -/
theorem step_turn {p : Env K C Q} {s s' : State C Q} {i : Input} {o : List Output}
    (h : step p s i = some (s', o)) :
    TaskTurn p s i s' ∧ o = [] ∨ mainStep p s i = some (s', o) := by
  unfold step at h
  split at h
  · obtain ⟨s₁, hmove, heq⟩ := Option.map_eq_some_iff.mp h
    obtain ⟨rfl, rfl⟩ := Prod.mk.inj heq
    exact .inl ⟨.moves hmove, rfl⟩
  · obtain ⟨⟨task, s₁⟩, hphase, heq⟩ := Option.map_eq_some_iff.mp h
    obtain ⟨rfl, rfl⟩ := Prod.mk.inj heq
    obtain ⟨ht, hrun, rfl⟩ := taskPhase_eq_some hphase
    exact .inl ⟨.finishes ht hrun, rfl⟩
  · obtain ⟨s₁, hremove, heq⟩ := Option.map_eq_some_iff.mp h
    obtain ⟨rfl, rfl⟩ := Prod.mk.inj heq
    obtain ⟨task, ht, hfin, rfl⟩ := taskRemove_eq_some hremove
    exact .inl ⟨.removes ht hfin, rfl⟩
  · obtain ⟨s₁, hdrop, heq⟩ := Option.map_eq_some_iff.mp h
    obtain ⟨rfl, rfl⟩ := Prod.mk.inj heq
    obtain ⟨task, ht, hrem, rfl⟩ := taskDrop_eq_some hdrop
    exact .inl ⟨.drops ht hrem, rfl⟩
  · exact .inr h

/-- The input is a move of a task. -/
def Input.ofTask : Input → Bool
  | .task _ _ | .taskFinish _ | .taskRemove _ | .taskDrop _ => true
  | _ => false

theorem TaskTurn.ofTask {p : Env K C Q} {s s' : State C Q} {i : Input}
    (h : TaskTurn p s i s') : i.ofTask = true := by
  cases h with
  | moves _ => rfl
  | finishes _ _ => rfl
  | removes _ _ => rfl
  | drops _ _ => rfl

/-- The main loop takes no input of a task. -/
theorem mainStep_ofTask (p : Env K C Q) (s : State C Q) {i : Input} (hi : i.ofTask = true) :
    mainStep p s i = none := by
  unfold mainStep
  cases i <;> cases hi <;> cases s.pc <;> rfl

/-- An input of the main loop is a move of the main loop. -/
theorem step_of_main (p : Env K C Q) (s : State C Q) {i : Input} (hi : i.ofTask = false) :
    step p s i = mainStep p s i := by
  cases i <;> cases hi <;> rfl

/-- An input of a task is its turn, and logs nothing. -/
theorem step_taskTurn {p : Env K C Q} {s s' : State C Q} {i : Input} {o : List Output}
    (hi : i.ofTask = true) (h : step p s i = some (s', o)) : TaskTurn p s i s' ∧ o = [] := by
  rcases step_turn h with hturn | hmain
  · exact hturn
  · rw [mainStep_ofTask p s hi] at hmain
    cases hmain

/-- A task's step, as the main loop sees it: it can only take entries out of the
registry. -/
structure TaskMove (s s' : State C Q) (i : Input) (o : List Output) : Prop where
  pc : s'.pc = s.pc
  output : o = []
  step : i ≠ .step
  sent : i ≠ .sent false
  nextId : s'.nextId = s.nextId
  connections : ∀ k, s'.connections k = s.connections k ∨ s'.connections k = none

theorem TaskTurn.taskMove {p : Env K C Q} {s s' : State C Q} {i : Input}
    (h : TaskTurn p s i s') : TaskMove s s' i [] := by
  cases h with
  | moves hmove =>
    obtain ⟨task, session, channels, main, -, -, -, -, -, rfl⟩ := taskMove_eq_some hmove
    exact ⟨rfl, rfl, by simp, by simp, rfl, fun _ => .inl rfl⟩
  | finishes _ _ => exact ⟨rfl, rfl, by simp, by simp, rfl, fun _ => .inl rfl⟩
  | @removes id task _ _ =>
    refine ⟨rfl, rfl, by simp, by simp, rfl, fun k => ?_⟩
    show Function.update s.connections task.key none k = s.connections k ∨
      Function.update s.connections task.key none k = none
    by_cases hk : k = task.key
    · rw [hk, Function.update_self]
      exact .inr rfl
    · rw [Function.update_of_ne hk]
      exact .inl rfl
  | drops _ _ => exact ⟨rfl, rfl, by simp, by simp, rfl, fun _ => .inl rfl⟩

/-- A step is a move of a task or of the main loop. -/
theorem step_cases {p : Env K C Q} {s s' : State C Q} {i : Input} {o : List Output}
    (h : step p s i = some (s', o)) : TaskMove s s' i o ∨ mainStep p s i = some (s', o) := by
  rcases step_turn h with ⟨hturn, rfl⟩ | hmain
  · exact .inl hturn.taskMove
  · exact .inr hmain

/-- What `create` makes of a datagram (l.232-381, l.443-468): a task to be
registered, nothing, an answer, or the end of `run`. -/
inductive Created (p : Env K C Q) (s : State C Q) : Incoming → State C Q × List Output → Prop
  | prepared {d} (quicConfig : C) (origin : Origin) (key : Key) (session : Session Q)
      (hkey : key ∈ lookupKeys p d)
      (hopens : ∀ hdr srcIp src buf, d = .quic hdr srcIp src buf → hdr.ty = .initial ∧
        ∃ token odcid conn,
          (handleInitial p s.quicConfig hdr srcIp buf).1 = .register token odcid conn) :
      Created p s d (State.prepare { s with quicConfig := quicConfig } origin key session, [])
  | dropped {d} (quicConfig : C) :
      Created p s d ({ s with quicConfig := quicConfig, pc := .select }, [])
  | answered {hdr srcIp src buf} (quicConfig : C) (out : Bytes) (o : List Output)
      (hty : hdr.ty = .initial)
      (hanswer : (handleInitial p s.quicConfig hdr srcIp buf).1 = .negotiate out ∧ o = [] ∨
        ∃ token, (handleInitial p s.quicConfig hdr srcIp buf).1 = .retry out token ∧
          o = [.minted src hdr.dcid token]) :
      Created p s (.quic hdr srcIp src buf)
        (State.respond p { s with quicConfig := quicConfig } src out, o)
  | failed {hdr srcIp src buf} (quicConfig : C) (f : Fault) (hty : hdr.ty = .initial)
      (hfail : (handleInitial p s.quicConfig hdr srcIp buf).1 = .fail f) :
      Created p s (.quic hdr srcIp src buf) (State.fail { s with quicConfig := quicConfig } f, [])

/-- `create` does one of these. -/
theorem create_created (p : Env K C Q) (d : Incoming) (s : State C Q) :
    Created p s d (create p d s) := by
  unfold create
  split
  · next src buf => exact .prepared s.quicConfig _ _ _ (by simp [lookupKeys]) (by simp)
  · next hdr srcIp src buf =>
    split
    · next hty =>
      simp only
      split
      · next f hv => exact .failed _ f hty hv
      · exact .dropped _
      · next out hv => exact .answered _ out [] hty (.inl ⟨hv, rfl⟩)
      · next out token hv => exact .answered _ out _ hty (.inr ⟨token, hv, rfl⟩)
      · next token odcid conn hv =>
        refine .prepared _ _ _ _ (by simp [lookupKeys]) ?_
        intro hdr' srcIp' src' buf' hd
        obtain ⟨rfl, rfl, rfl, rfl⟩ := Incoming.quic.inj hd
        exact ⟨hty, token, odcid, conn, hv⟩
    · exact .dropped s.quicConfig

/-! ## The life of a datagram

Everything the main loop can do in one move, with the guards under which it
does it. The invariants about tokens and connection IDs look at nothing else. -/

/-- The loop is at one of its awaits, or has returned. -/
def Pc.idle : Pc Q → Bool
  | .select | .selectOutgoing | .sendTo _ | .returned _ => true
  | _ => false

/-- The datagram goes with its source address and its header. -/
def Incoming.WellFormed (p : Env K C Q) : Incoming → Prop
  | .quic hdr srcIp src buf => src.localAddress = some srcIp ∧
      p.quiche.headerFromSlice buf maxConnIdLen = .ok hdr
  | .udp _ _ => True

inductive MainMove (p : Env K C Q) (s : State C Q) : Input → State C Q → List Output → Prop
  /-- Nothing that concerns a registration or a token. -/
  | idle {i s' o} (hpc : s'.pc.idle = true) (hconn : s'.connections = s.connections)
      (hnext : s'.nextId = s.nextId)
      (ho : ∀ out ∈ o, (∃ n, out = .cancelled n) ∨ ∃ packet, out = .sentTo packet)
      (hinsert : ∀ origin task, s.pc ≠ .insert origin task) : MainMove p s i s' o
  | arrive {i s'} (d : Incoming) (hd : d.WellFormed p) (hs : s.pc = .select)
      (hs' : s' = { s with pc := .lookup d }) : MainMove p s i s' []
  | found {s'} (d : Incoming) (info : ConnectionInfo) (hs : s.pc = .lookup d)
      (hinfo : (lookupKeys p d).findSome? s.connections = some info)
      (hs' : s' = { s with pc := .forward info d }) : MainMove p s .step s' []
  | missed {s'} (d : Incoming) (hs : s.pc = .lookup d)
      (hnone : ∀ k ∈ lookupKeys p d, s.connections k = none)
      (hs' : s' = { s with pc := .create d }) : MainMove p s .step s' []
  | forwarded {s'} (d : Incoming) (info : ConnectionInfo) (hs : s.pc = .forward info d)
      (hpc : s'.pc = .select) (hconn : s'.connections = s.connections)
      (hnext : s'.nextId = s.nextId) : MainMove p s .step s' [.forwarded info.sender d]
  | minted {s'} (hdr : Header) (srcIp : SocketAddr) (src : ScionAddr) (buf : Bytes)
      (hs : s.pc = .create (.quic hdr srcIp src buf)) (hpc : s'.pc = .select)
      (hconn : s'.connections = s.connections) (hnext : s'.nextId = s.nextId) :
      MainMove p s .step s' [.minted src hdr.dcid (mintToken p.hmac p.tokenKey hdr srcIp)]
  | registered {s'} (hdr : Header) (srcIp : SocketAddr) (src : ScionAddr) (buf token odcid : Bytes)
      (task : Task Q) (hs : s.pc = .create (.quic hdr srcIp src buf))
      (htoken : hdr.token = some token)
      (hvalid : validateToken p.hmac p.tokenKey srcIp token = .ok (some odcid))
      (hlen : hdr.dcid.length = maxConnIdLen) (hkey : task.key = .quic hdr.dcid)
      (hsession : ∃ conn, task.session =
        .quic (.new ⟨p.localScionAddr.isdAsn, src.isdAsn, p.mqttBrokerAddress⟩ conn))
      (hid : task.receiver = s.nextId)
      (hpc : s'.pc = .insert (.quic src hdr.dcid token odcid) task)
      (hconn : s'.connections = s.connections) (hnext : s'.nextId = s.nextId + 1) :
      MainMove p s .step s' []
  | registeredUdp {s'} (src : ScionAddr) (buf : Bytes) (task : Task Q)
      (hs : s.pc = .create (.udp src buf)) (hkey : task.key = .udp src)
      (hid : task.receiver = s.nextId) (hpc : s'.pc = .insert (.udp src) task)
      (hconn : s'.connections = s.connections) (hnext : s'.nextId = s.nextId + 1) :
      MainMove p s .step s' []
  | inserted {s'} (origin : Origin) (task : Task Q) (hs : s.pc = .insert origin task)
      (hpc : s'.pc = .spawn task)
      (hconn : s'.connections = Function.update s.connections task.key
        (some ⟨task.receiver, task.cancelToken⟩))
      (hnext : s'.nextId = s.nextId) :
      MainMove p s .step s' [.inserted task.key task.receiver origin]

/-- A Retry carries the token minted for the datagram; a registration has a
valid token and an ID of the right length. -/
def Verdict.Sound (p : Env K C Q) (hdr : Header) (srcIp : SocketAddr) : Verdict Q → Prop
  | .retry _ token => token = mintToken p.hmac p.tokenKey hdr srcIp
  | .register token odcid _ => hdr.token = some token ∧
      validateToken p.hmac p.tokenKey srcIp token = .ok (some odcid) ∧
      hdr.dcid.length = maxConnIdLen
  | _ => True

/-- Every verdict is sound. -/
theorem handleInitial_sound (p : Env K C Q) (quicConfig : C) (hdr : Header) (srcIp : SocketAddr)
    (buf : Bytes) : (handleInitial p quicConfig hdr srcIp buf).1.Sound p hdr srcIp := by
  unfold handleInitial
  split
  · split <;> trivial
  · simp only
    split
    · trivial
    · next token htoken =>
      split
      · split
        · trivial
        · rfl
      · split
        · trivial
        · trivial
        · next odcid hvalid =>
          split
          · trivial
          · next hlen =>
            -- the derived ID is the measure of the length check
            have hlen' : hdr.dcid.length = maxConnIdLen := by
              rw [← not_not.mp hlen, connId_length]
            split
            · trivial
            · split
              · trivial
              · exact ⟨htoken, hvalid, hlen'⟩

/-- A connection that is registered was accepted under the datagram's own ID,
and has been fed the datagram. -/
theorem handleInitial_register {p : Env K C Q} {quicConfig quicConfig' : C} {hdr : Header}
    {srcIp : SocketAddr} {buf token odcid : Bytes} {conn : Q}
    (h : handleInitial p quicConfig hdr srcIp buf = (.register token odcid conn, quicConfig')) :
    ∃ accepted,
      p.quiche.accept quicConfig hdr.dcid (some odcid) p.localAddr srcIp =
        (.ok accepted, quicConfig') ∧
      conn = (p.quiche.connection.recv accepted buf ⟨srcIp, p.localAddr⟩).2 := by
  unfold handleInitial at h
  split at h
  · split at h <;> cases h
  · simp only at h
    split at h
    · cases h
    · split at h
      · split at h <;> cases h
      · split at h
        · cases h
        · cases h
        · split at h
          · cases h
          · split at h
            · cases h
            · next accepted quicConfig'' haccept =>
              split at h
              · cases h
              · next n conn' hrecv =>
                simp only [Prod.mk.injEq, Verdict.register.injEq] at h
                obtain ⟨⟨-, rfl, rfl⟩, rfl⟩ := h
                exact ⟨accepted, haccept, by rw [hrecv]⟩

/-- **The connections of QuicEndpoint mode**: the session of a new task is the
handler over a connection that was accepted for the source of the datagram and
fed the datagram, with the ISD-AS of that source. -/
theorem create_session {p : Env K C Q} {s : State C Q} {hdr : Header} {srcIp : SocketAddr}
    {src : ScionAddr} {buf : Bytes} {origin : Origin} {task : Task Q}
    {c : QuicMode.Connection Q}
    (hcreate : (create p (.quic hdr srcIp src buf) s).1.pc = .insert origin task)
    (hc : task.session = .quic c) :
    ∃ odcid accepted quicConfig,
      p.quiche.accept s.quicConfig hdr.dcid (some odcid) p.localAddr srcIp =
        (.ok accepted, quicConfig) ∧
      c = .new ⟨p.localScionAddr.isdAsn, src.isdAsn, p.mqttBrokerAddress⟩
        (p.quiche.connection.recv accepted buf ⟨srcIp, p.localAddr⟩).2 := by
  unfold create at hcreate
  simp only at hcreate
  split at hcreate
  · split at hcreate
    · cases hcreate
    · cases hcreate
    · cases hcreate
    · cases hcreate
    · next token odcid conn hv =>
      obtain ⟨rfl, rfl⟩ := Pc.insert.inj hcreate
      obtain ⟨accepted, haccept, rfl⟩ := handleInitial_register
        (Prod.ext hv rfl : handleInitial p s.quicConfig hdr srcIp buf = (_, _))
      exact ⟨odcid, accepted, _, haccept, (Session.quic.inj hc).symm⟩
  · cases hcreate

/-- A datagram that is received is being looked up, or left. -/
theorem recvFrom_move (p : Env K C Q) {s : State C Q} (hs : s.pc = .select) {i : Input}
    (data : Bytes) (src : ScionAddr) : MainMove p s i (recvFrom p data src s) [] := by
  have hidle : MainMove p s i s [] :=
    .idle (by rw [hs]; rfl) rfl rfl (by simp) (by rw [hs]; simp)
  unfold recvFrom
  split
  · exact hidle
  · next srcIp hsrc =>
    split
    · split
      · exact hidle
      · next hdr hhdr => exact .arrive (.quic hdr srcIp src data) ⟨hsrc, hhdr⟩ hs rfl
    · exact .arrive (.udp src data) trivial hs rfl

/-- `create` mints, registers, or comes back to the loop. -/
theorem create_move (p : Env K C Q) {s : State C Q} {d : Incoming} (hs : s.pc = .create d) :
    MainMove p s .step (create p d s).1 (create p d s).2 := by
  have hinsert : ∀ origin task, s.pc ≠ .insert origin task := by rw [hs]; simp
  unfold create
  split
  · next src buf => exact .registeredUdp src buf _ hs rfl rfl rfl rfl rfl
  · next hdr srcIp src buf =>
    split
    · have hsound := handleInitial_sound p s.quicConfig hdr srcIp buf
      simp only
      split
      · exact .idle rfl rfl rfl (by simp) hinsert
      · exact .idle rfl rfl rfl (by simp) hinsert
      · exact .idle rfl rfl rfl (by simp) hinsert
      · next out token hv =>
        rw [hv] at hsound
        have htoken : token = mintToken p.hmac p.tokenKey hdr srcIp := hsound
        rw [htoken]
        exact .minted hdr srcIp src buf hs rfl rfl rfl
      · next hv =>
        rw [hv] at hsound
        obtain ⟨htoken, hvalid, hlen⟩ := hsound
        exact .registered hdr srcIp src buf _ _ _ hs htoken hvalid hlen rfl ⟨_, rfl⟩ rfl rfl rfl rfl
    · exact .idle rfl rfl rfl (by simp) hinsert

/-- **Every move of the main loop** is one of the above. -/
theorem mainStep_move {p : Env K C Q} {s s' : State C Q} {i : Input} {o : List Output}
    (h : mainStep p s i = some (s', o)) : MainMove p s i s' o := by
  -- both `select!` states may take the outgoing branch
  have hrecv : (∀ origin task, s.pc ≠ .insert origin task) → recvPacket s = some (s', o) →
      MainMove p s i s' o := by
    intro hinsert hr
    obtain ⟨packet, main, -, rfl, rfl⟩ := recvPacket_eq_some hr
    exact .idle rfl rfl rfl (by simp) hinsert
  unfold mainStep at h
  split at h
  · next hs =>
    split at h
    · exact of_result h (recvFrom_move p hs _ _)
    · cases h
  · next hs => exact of_result h (.idle rfl rfl rfl (by simp) (by rw [hs]; simp))
  · next hs => exact hrecv (by rw [hs]; simp) h
  · next hs => exact hrecv (by rw [hs]; simp) h
  · next hs =>
    split at h
    · exact of_result h (.idle rfl rfl rfl (by simp) (by rw [hs]; simp))
    · exact of_result h (.idle rfl rfl rfl (by simp) (by rw [hs]; simp))
  · next d hs =>
    refine of_result h ?_
    unfold lookup
    split
    · next info hinfo => exact .found d info hs hinfo rfl
    · next hnone => exact .missed d hs (List.findSome?_eq_none_iff.mp hnone) rfl
  · next info d hs =>
    refine of_result h ?_
    simp only [forward]
    split
    · exact .forwarded d info hs rfl rfl rfl
    · exact .idle rfl rfl rfl (by simp) (by rw [hs]; simp)
    · exact .idle rfl rfl rfl (by simp) (by rw [hs]; simp)
  · next d hs => exact of_result h (create_move p hs)
  · next origin task hs =>
    refine of_result h ?_
    exact .inserted origin task hs rfl rfl rfl
  · next hs => exact of_result h (.idle rfl rfl rfl (by simp) (by rw [hs]; simp))
  · cases h

end MqttScion.Proxy
