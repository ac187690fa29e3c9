import MqttScion.Lib.Part
import MqttScion.Proxy.Locking
import MqttScion.Proxy.RelayLog

/-!
# Every task runs alone

The proxy is one machine in which any number of tasks and the main loop take
their moves in any order. A task touches the others through channels, the
registry and its cancellation token only, never through the state of its
handler. So its handler is a part of the proxy in the sense of `IsPart`: it is
opened for an accepted datagram and from then on moves by its own machine.

> `handler_isPart`: the handler of every task is a part of the proxy.

> `handler_run`: in every run of the proxy, in either mode, it is where its own
> moves in that run lead it, from a handler opened for its key.
-/

namespace MqttScion.Proxy

open MqttScion.Net MqttScion.Lib

variable {K C Q : Type}

/-! ## The handler as a part -/

/-- What a handler shows, whichever it is. -/
inductive SessionOutput
  | quic (o : QuicMode.Output)
  | udp (o : UdpMode.Output)
  deriving DecidableEq

/-- A handler and the key its task was spawned under. -/
abbrev Handler (Q : Type) := Key × Session Q

/-- One move of a handler, with what it shows. -/
def Handler.step (qc : Quiche Q) : Machine (Handler Q) SessionInput SessionOutput
  | (key, .quic c), .quic i =>
    (QuicMode.step qc c i).map fun r => ((key, .quic r.1), r.2.map .quic)
  | (key, .udp c), .udp i => (UdpMode.step c i).map fun r => ((key, .udp r.1), r.2.map .udp)
  | _, _ => none

def Task.handler (task : Task Q) : Handler Q := (task.key, task.session)

def State.handler (s : State C Q) (id : Nat) : Option (Handler Q) := (s.tasks id).map Task.handler

/-- The moves of the handler of task `id`. -/
def handlerWatch (p : Env K C Q) (id : Nat) :
    Watch (State C Q) Input Output SessionInput SessionOutput := fun s i _ =>
  match i with
  | .task id' j =>
    if id' = id then
      ((s.handler id).bind fun h => h.step p.quiche.connection j).map fun r => (j, r.2)
    else none
  | _ => none

/-- The handlers the proxy opens: a session for a source, or a connection that
`quiche` accepted for an Initial with a valid token, and fed that Initial. -/
inductive Opened (p : Env K C Q) : Handler Q → Prop
  | udp (src : ScionAddr) : Opened p (.udp src, .udp (.new (p.udpConfig src)))
  | quic {quicConfig quicConfig' : C} {hdr : Header} {srcIp : SocketAddr} {src : ScionAddr}
      {buf token odcid : Bytes} {conn : Q} {n : Nat} (hsrc : src.localAddress = some srcIp)
      (hparsed : p.quiche.headerFromSlice buf maxConnIdLen = .ok hdr)
      (htoken : hdr.token = some token)
      (hvalid : validateToken p.hmac p.tokenKey srcIp token = .ok (some odcid))
      (haccept : p.quiche.accept quicConfig hdr.dcid (some odcid) p.localAddr srcIp =
        (.ok conn, quicConfig'))
      (hrecv : (p.quiche.connection.recv conn buf ⟨srcIp, p.localAddr⟩).1 = .ok n) :
      Opened p (.quic hdr.dcid,
        .quic (.new ⟨p.localScionAddr.isdAsn, src.isdAsn, p.mqttBrokerAddress⟩
          (p.quiche.connection.recv conn buf ⟨srcIp, p.localAddr⟩).2))

/-- What the main loop holds is parsed, and a task it has prepared is opened. -/
def PcOpened (p : Env K C Q) : Pc Q → Prop
  | .lookup d | .forward _ d | .create d => d.WellFormed p
  | .insert _ task | .spawn task => Opened p task.handler
  | _ => True

structure Opening (p : Env K C Q) (s : State C Q) : Prop where
  registry : RegistryInv p s
  pc : PcOpened p s.pc

variable {p : Env K C Q} {s s' : State C Q} {i : Input} {o : List Output}

/-- A handler's move is one of its machine. -/
theorem Handler.step_of_session {qc : Quiche Q} (key : Key) {session session' : Session Q}
    {j : SessionInput} (h : session.step qc j = some session') :
    ∃ q, Handler.step qc (key, session) j = some ((key, session'), q) := by
  unfold Session.step at h
  split at h
  · obtain ⟨⟨c', o⟩, hstep, rfl⟩ := Option.map_eq_some_iff.mp h
    exact ⟨o.map .quic, by simp only [Handler.step, hstep, Option.map_some]⟩
  · obtain ⟨⟨c', o⟩, hstep, rfl⟩ := Option.map_eq_some_iff.mp h
    exact ⟨o.map .udp, by simp only [Handler.step, hstep, Option.map_some]⟩
  · cases h

/-! ## What a task does -/

/-- What a move of a task's handler has to do with the queues around it. -/
inductive Coupled (s s' : State C Q) (task : Task Q) : Coupling → Prop
  | took {packet chan} (hrecv : (s.channels task.receiver).recv = some (packet, chan))
      (hchannels : s'.channels = Function.update s.channels task.receiver chan)
      (hmain : s'.main = s.main) : Coupled s s' task (.recv packet)
  | queued {packet} (hout : task.session.outgoing = some packet)
      (hok : (s.main.trySend packet).1 = .ok) (hmain : s'.main = (s.main.trySend packet).2)
      (hchannels : s'.channels = s.channels) : Coupled s s' task (.queue true)
  | refused (hclosed : s.main.rxAlive = false) (hmain : s'.main = s.main)
      (hchannels : s'.channels = s.channels) : Coupled s s' task (.queue false)
  | own (hmain : s'.main = s.main) (hchannels : s'.channels = s.channels) :
      Coupled s s' task .own
  | cancel (hcancelled : s.cancelled task.cancelToken = true) (hmain : s'.main = s.main)
      (hchannels : s'.channels = s.channels) : Coupled s s' task .cancel

/-- A task that moves: its handler's move, and the queues. -/
structure Moved (p : Env K C Q) (s s' : State C Q) (id : Nat) (j : SessionInput) (task : Task Q)
    (session : Session Q) : Prop where
  before : s.tasks id = some task
  running : task.phase = .running
  step : task.session.step p.quiche.connection j = some session
  coupled : Coupled s s' task j.coupling
  tasks : s'.tasks = Function.update s.tasks id (some { task with session := session })
  pc : s'.pc = s.pc
  connections : s'.connections = s.connections

/-- A task's move is a step of its own handler. -/
theorem taskMove_moved {id : Nat} {j : SessionInput} (h : taskMove p id j s = some s') :
    ∃ task session, Moved p s s' id j task session := by
  unfold taskMove at h
  split at h
  · cases h
  · next task ht =>
    split at h
    · next hrun =>
      split at h
      · cases h
      · next session hstep =>
        simp only at h
        split at h
        · next hj =>
          obtain rfl := Option.some.inj h
          exact ⟨task, session, ht, hrun, hstep, hj ▸ .own rfl rfl, rfl, rfl, rfl⟩
        · next packet hj =>
          split at h
          · next front chan hrecv =>
            split at h
            · next hfront =>
              subst hfront
              obtain rfl := Option.some.inj h
              exact ⟨task, session, ht, hrun, hstep, hj ▸ .took hrecv rfl rfl, rfl, rfl, rfl⟩
            · cases h
          · cases h
        · cases h
        · next rxAlive hj =>
          split at h
          · cases h
          · next packet hout =>
            split at h
            · next hok =>
              split at h
              · next halive =>
                subst halive
                obtain rfl := Option.some.inj h
                exact ⟨task, session, ht, hrun, hstep, hj ▸ .queued hout hok rfl rfl, rfl, rfl, rfl⟩
              · cases h
            · cases h
            · next hclosed =>
              split at h
              · cases h
              · next halive =>
                obtain rfl := Bool.not_eq_true _ ▸ halive
                obtain rfl := Option.some.inj h
                exact ⟨task, session, ht, hrun, hstep,
                  hj ▸ .refused (Chan.trySend_closed_iff.mp hclosed) rfl rfl, rfl, rfl, rfl⟩
        · next hj =>
          split at h
          · next hcancelled =>
            obtain rfl := Option.some.inj h
            exact ⟨task, session, ht, hrun, hstep, hj ▸ .cancel hcancelled rfl rfl, rfl, rfl, rfl⟩
          · cases h
    · cases h

/-! ## What the main loop does -/

/-- A step of the main loop: at its awaits, or with a datagram in hand. -/
inductive MainTurn (p : Env K C Q) (s : State C Q) : Input → State C Q → List Output → Prop
  | receives {data src} (hpc : s.pc = .select) (hlen : data.length ≤ udpPacketBufferSize) :
      MainTurn p s (.recvFrom data src) (recvFrom p data src s) []
  | receiveFails (hpc : s.pc = .select) :
      MainTurn p s .recvFromError { s with pc := .selectOutgoing } []
  | takes {packet main} (hpc : s.pc = .select ∨ s.pc = .selectOutgoing)
      (hrecv : s.main.recv = some (packet, main)) :
      MainTurn p s .recvPacket { s with main := main, pc := .sendTo packet } []
  | sends {packet} (hpc : s.pc = .sendTo packet) :
      MainTurn p s (.sent true) { s with pc := .select } [.sentTo packet]
  | sendFails {packet} (hpc : s.pc = .sendTo packet) :
      MainTurn p s (.sent false) (s.fail .sendTo) []
  | handles {r} (hmove : HandlerMove p s r) : MainTurn p s .step r.1 r.2

/-- A move of the main loop is one of its turns. -/
theorem mainStep_turn (h : mainStep p s i = some (s', o)) : MainTurn p s i s' o := by
  have htakes : s.pc = .select ∨ s.pc = .selectOutgoing → recvPacket s = some (s', o) →
      MainTurn p s .recvPacket s' o := by
    intro hpc hr
    obtain ⟨packet, main, hrecv, rfl, rfl⟩ := recvPacket_eq_some hr
    exact .takes hpc hrecv
  unfold mainStep at h
  split at h
  · next hpc =>
    split at h
    · next hlen => exact of_result h (.receives hpc hlen)
    · cases h
  · next hpc => exact of_result h (.receiveFails hpc)
  · next hpc => exact htakes (.inl hpc) h
  · next hpc => exact htakes (.inr hpc) h
  · next packet ok hpc =>
    cases ok with
    | true => exact of_result h (.sends hpc)
    | false => exact of_result h (.sendFails hpc)
  · next d hpc => exact of_result h (.handles (.looksUp d hpc))
  · next info d hpc => exact of_result h (.handles (.forwards info d hpc))
  · next d hpc => exact of_result h (.handles (.creates d hpc))
  · next origin task hpc => exact of_result h (.handles (.inserts origin task hpc))
  · next task hpc => exact of_result h (.handles (.spawns task hpc))
  · cases h

/-- Only the spawn changes the tasks there are. -/
theorem MainTurn.tasks (h : MainTurn p s i s' o) :
    s'.tasks = s.tasks ∨
      ∃ task, s.pc = .spawn task ∧
        s'.tasks = Function.update s.tasks task.receiver (some task) := by
  cases h with
  | receives _ _ => exact .inl (recvFrom_undisturbed p _ _ s).tasks
  | receiveFails _ => exact .inl rfl
  | takes _ _ => exact .inl rfl
  | sends _ => exact .inl rfl
  | sendFails _ => exact .inl rfl
  | handles hmove =>
    cases hmove with
    | looksUp d _ =>
      refine .inl ?_
      unfold lookup
      split <;> rfl
    | forwards info d _ =>
      refine .inl ?_
      simp only [forward]
      split <;> rfl
    | creates d _ => exact .inl (create_tasks d s)
    | inserts _ _ _ => exact .inl rfl
    | spawns task hpc => exact .inr ⟨task, hpc, rfl⟩

/-! ## What is opened -/

/-- A task prepared for a datagram is opened for it. -/
theorem create_opened {d : Incoming} (hd : d.WellFormed p) {origin : Origin} {task : Task Q}
    (hcreate : (create p d s).1.pc = .insert origin task) : Opened p task.handler := by
  unfold create at hcreate
  split at hcreate
  · next src buf =>
    obtain ⟨-, rfl⟩ := Pc.insert.inj hcreate
    exact .udp src
  · next hdr srcIp src buf =>
    obtain ⟨hsrc, hparsed⟩ := hd
    split at hcreate
    · simp only at hcreate
      split at hcreate
      · cases hcreate
      · cases hcreate
      · cases hcreate
      · cases hcreate
      · next token odcid conn hv =>
        obtain ⟨-, rfl⟩ := Pc.insert.inj hcreate
        have hsound := handleInitial_sound p s.quicConfig hdr srcIp buf
        have hopens := handleInitial_explained (p := p) s.quicConfig hdr srcIp buf
        rw [hv] at hsound hopens
        obtain ⟨htoken, hvalid, -⟩ := hsound
        obtain ⟨-, -, token', odcid', accepted, quicConfig', n, htoken', -, hvalid', haccept,
          hrecv⟩ := hopens
        obtain ⟨accepted', haccept', rfl⟩ := handleInitial_register
          (Prod.ext hv rfl : handleInitial p s.quicConfig hdr srcIp buf = (_, _))
        -- the header has one token, and the token is valid for one ID
        obtain rfl := Option.some.inj (htoken'.symm.trans htoken)
        obtain rfl := Option.some.inj (Except.ok.inj (hvalid'.symm.trans hvalid))
        obtain ⟨heq, -⟩ := Prod.mk.inj (haccept.symm.trans haccept')
        obtain rfl := Except.ok.inj heq
        exact .quic hsrc hparsed htoken hvalid haccept hrecv
    · cases hcreate

/-- A datagram that is received is well formed. -/
theorem recvFrom_opened (hpc : s.pc = .select) (data : Bytes) (src : ScionAddr) :
    PcOpened p (recvFrom p data src s).pc := by
  unfold recvFrom
  split
  · rw [hpc]
    trivial
  · next srcIp hsrc =>
    split
    · split
      · rw [hpc]
        trivial
      · next hdr hparsed => exact ⟨hsrc, hparsed⟩
    · trivial

/-- What the main loop holds stays well formed. -/
theorem MainTurn.opened (hopen : PcOpened p s.pc) (h : MainTurn p s i s' o) :
    PcOpened p s'.pc := by
  cases h with
  | receives hpc _ => exact recvFrom_opened hpc _ _
  | receiveFails _ => trivial
  | takes _ _ => trivial
  | sends _ => trivial
  | sendFails _ => trivial
  | handles hmove =>
    cases hmove with
    | looksUp d hpc =>
      rw [hpc] at hopen
      unfold lookup
      split
      · exact hopen
      · exact hopen
    | forwards info d _ =>
      simp only [forward]
      split <;> trivial
    | creates d hpc =>
      rw [hpc] at hopen
      cases hnew : (create p d s).1.pc with
      | insert origin task => exact create_opened hopen hnew
      | _ =>
        have hcreated := create_created p d s
        generalize create p d s = r at hcreated hnew ⊢
        cases hcreated <;> cases hnew <;> trivial
    | inserts _ task hpc =>
      rw [hpc] at hopen
      exact hopen
    | spawns _ _ => trivial

/-- Every task starts as the handler its registration made. -/
theorem step_opening (h : Opening p s) (hstep : step p s i = some (s', o)) : Opening p s' := by
  refine ⟨(step_ok h.registry hstep).inv, ?_⟩
  rcases step_turn hstep with ⟨hturn, -⟩ | hmain
  · rw [hturn.taskMove.pc]
    exact h.pc
  · exact (mainStep_turn hmain).opened h.pc

/-- There are no tasks at the start. -/
theorem opening_init (quicConfig : C) : Opening p (State.init quicConfig : State C Q) :=
  ⟨registryInv_init quicConfig, trivial⟩

/-! ## The handlers are parts -/

/-- The task that is set has its own handler. -/
theorem handler_update {id : Nat} {task : Task Q}
    (htasks : s'.tasks = Function.update s.tasks id (some task)) :
    s'.handler id = some task.handler := by
  rw [State.handler, htasks, Function.update_self]
  rfl

/-- The handlers of the others stay. -/
theorem handler_update_of_ne {id id' : Nat} {task : Task Q} (hid : id ≠ id')
    (htasks : s'.tasks = Function.update s.tasks id' (some task)) :
    s'.handler id = s.handler id := by
  rw [State.handler, State.handler, htasks, Function.update_of_ne hid]

/-- A task that goes from one phase to the next keeps its handler. -/
theorem handler_phase {id id' : Nat} {task : Task Q} {phase : Phase}
    (ht : s.tasks id' = some task)
    (htasks : s'.tasks = Function.update s.tasks id' (some { task with phase := phase })) :
    s'.handler id = s.handler id := by
  by_cases hid : id = id'
  · subst hid
    rw [handler_update htasks, State.handler, ht]
    rfl
  · exact handler_update_of_ne hid htasks

/-- **Every handler is a part of the proxy.** -/
theorem handler_isPart (p : Env K C Q) (id : Nat) :
    IsPart (step p) (fun s => s.handler id) (handlerWatch p id)
      (Handler.step p.quiche.connection) (Opening p) (fun _ => Opened p) where
  inv := step_opening
  own := by
    intro s i s' o j q hinv hstep hw
    unfold handlerWatch at hw
    split at hw
    · next id' j' =>
      split at hw
      · next hid =>
        subst hid
        obtain ⟨⟨h', q'⟩, hbind, heq⟩ := Option.map_eq_some_iff.mp hw
        obtain ⟨rfl, rfl⟩ := Prod.mk.inj heq
        obtain ⟨t, ht, hmove⟩ := Option.bind_eq_some_iff.mp hbind
        refine ⟨t, h', ht, hmove, ?_⟩
        obtain ⟨hturn, -⟩ := step_taskTurn rfl hstep
        cases hturn with
        | moves htask =>
          obtain ⟨task, session, channels, main, hs, -, hsession, -, -, rfl⟩ :=
            taskMove_eq_some htask
          obtain ⟨q, hq⟩ := Handler.step_of_session task.key hsession
          rw [State.handler, hs] at ht
          obtain rfl := Option.some.inj ht
          rw [Task.handler, hq] at hmove
          obtain ⟨rfl, -⟩ := Prod.mk.inj (Option.some.inj hmove)
          have htasks : ({ s.setTask id' { task with session := session } with
              channels := channels, main := main } : State C Q).tasks =
            Function.update s.tasks id' (some { task with session := session }) := rfl
          exact handler_update htasks
      · cases hw
    · cases hw
  other := by
    intro s i s' o hinv hstep hw
    rcases step_turn hstep with ⟨hturn, -⟩ | hmain
    · refine .inl ?_
      cases hturn with
      | @moves id' j _ htask =>
        obtain ⟨task, session, channels, main, hs, -, hsession, -, -, rfl⟩ :=
          taskMove_eq_some htask
        have hid : id ≠ id' := by
          rintro rfl
          -- a move of this task would have been watched
          obtain ⟨q, hq⟩ := Handler.step_of_session task.key hsession
          simp [handlerWatch, State.handler, hs, Task.handler, hq] at hw
        exact handler_update_of_ne hid rfl
      | finishes ht _ => exact handler_phase ht rfl
      | removes ht _ => exact handler_phase ht rfl
      | drops ht _ => exact handler_phase ht rfl
    · rcases (mainStep_turn hmain).tasks with hsame | ⟨task, hpc, htasks⟩
      · exact .inl (by rw [State.handler, State.handler, hsame])
      · by_cases hid : id = task.receiver
        · have hok : PcOk p s (.spawn task) := hpc ▸ hinv.registry.pc
          have hopened : PcOpened p (.spawn task) := hpc ▸ hinv.pc
          subst hid
          refine .inr ⟨?_, task.handler, handler_update htasks, hopened⟩
          rw [State.handler, hok.none]
          rfl
        · exact .inl (handler_update_of_ne hid htasks)

/-! ## Runs -/

/-- The moves of task `id` among those of the proxy. -/
def ownInput (id : Nat) : Input → Option SessionInput
  | .task id' j => if id' = id then some j else none
  | _ => none

/-- What is watched of a handler is its own input. -/
theorem handlerWatch_input (p : Env K C Q) (id : Nat) (s : State C Q) (i : Input)
    (s' : State C Q) (o : List Output) (hstep : step p s i = some (s', o)) :
    (handlerWatch p id s i o).map Prod.fst = ownInput id i := by
  unfold handlerWatch
  split
  · next id' j =>
    show _ = if id' = id then some j else none
    split
    · next hid =>
      subst hid
      obtain ⟨hturn, -⟩ := step_taskTurn rfl hstep
      cases hturn with
      | moves htask =>
        obtain ⟨task, session, channels, main, hs, -, hsession, -⟩ := taskMove_eq_some htask
        obtain ⟨q, hq⟩ := Handler.step_of_session task.key hsession
        rw [State.handler, hs]
        simp [Task.handler, hq]
    · rfl
  · next hother =>
    unfold ownInput
    split
    · next id' j => exact absurd rfl (hother id' j)
    · rfl

/-- **Every handler runs alone**: with the moves of its task, and no others. -/
theorem handler_run {quicConfig : C} {is : List Input} {s : State C Q} {id : Nat}
    {log : List (SessionInput × List SessionOutput)}
    (hr : run (watched (step p) (handlerWatch p id)) (State.init quicConfig) is = some (s, log))
    {task : Task Q} (ht : s.tasks id = some task) :
    log.map Prod.fst = is.filterMap (ownInput id) ∧
      RanAlone (Handler.step p.quiche.connection) (Opened p) log task.handler := by
  refine ⟨watched_inputs (handlerWatch_input p id) hr, ?_⟩
  have hget : s.handler id = some task.handler := by
    rw [State.handler, ht]
    rfl
  refine
    (((handler_isPart p id).run (opening_init quicConfig) rfl hr).2.2 task.handler hget).mono ?_
  rintro h ⟨i, -, hopened⟩
  exact hopened

end MqttScion.Proxy
