import MqttScion.Lib.Turns
import MqttScion.Client.System

/-!
# The Python bindings: one client, many callers

`src/python.rs`. A `PyMqttClient` is a `Client` in a `tokio::sync::Mutex`. Every
method call of Python becomes a future of its own that runs at once; it comes to
the mutex, waits its turn, calls the method of the client and gives the mutex back
when it returns. Python may drop the future at any await.

The calls are numbered in the order they are made. `tokio`'s mutex is fair: the
lock is granted in the order in which it was asked for, and a future that is
dropped while it waits loses its place.

> `begins_progress`, `continues_progress`: a method that is called can begin, and a
move of it leaves it at an await of its own or ends it with one answer.
-/

namespace MqttScion.Python

open MqttScion.Net MqttScion.Lib MqttScion.Client

variable {M Q Pk : Type}

/-! ## Calls and what they return -/

/-- `PyMqttMessage`. -/
structure PyMqttMessage where
  topic : String
  payload : Bytes
  deriving DecidableEq

/-- `From<MqttMessage>`: the level is dropped. -/
def PyMqttMessage.ofMessage (message : MqttMessage) : PyMqttMessage :=
  ⟨message.topic, message.payload⟩

/-- `PyValueError`, `PyConnectionError` and `PyRuntimeError` with their text. -/
inductive PyErr
  | value (message : String)
  | connection (message : String)
  | runtime (message : String)
  deriving DecidableEq

/-- What the awaited future gives: an exception, `None` or a message. -/
abbrev PyResult := Except PyErr (Option PyMqttMessage)

/-- The libraries of the client, `str::parse` for a SCION address with its error
displayed, and the text of a client's error. -/
structure Env (M Q Pk : Type) where
  core : MqttCore M Pk
  quiche : Quiche Q
  parse : String → Except String ScionAddr
  display : System.Error → String

def parseScionAddress (p : Env M Q Pk) (addr : String) : Except String ScionAddr :=
  match p.parse addr with
  | .ok remote => .ok remote
  | .error e => .error ("Invalid SCION address '" ++ addr ++ "': " ++ e)

/-- A method call of Python. -/
inductive Call
  | connect (remote : String)
  | subscribe (topic : String)
  | publish (topic : String) (payload : Bytes)
  | receive
  deriving DecidableEq

/-- A call with its arguments parsed: what is left to do with the client. -/
inductive Method
  | connect (remote : ScionAddr)
  | subscribe (topic : String)
  | publish (topic : String) (payload : Bytes)
  | receive
  deriving DecidableEq

/-- What a future does before it comes to the mutex. -/
def Call.method (p : Env M Q Pk) : Call → Except PyErr Method
  | .connect remote =>
    match parseScionAddress p remote with
    | .ok remote => .ok (.connect remote)
    | .error e => .error (.value e)
  | .subscribe topic => .ok (.subscribe topic)
  | .publish topic payload => .ok (.publish topic payload)
  | .receive => .ok .receive

/-- The first move in the client; `rcv` has none before its await. -/
def Method.begins : Method → Option (System.Input Q)
  | .connect remote => some (.connect remote)
  | .subscribe topic => some (.subscribe topic)
  | .publish topic payload => some (.publish topic payload)
  | .receive => none

/-- The moves in the client that come after. -/
def Method.continues : Method → System.Input Q → Bool
  | .connect _, .connection _ => true
  | .connect _, .poll => true
  | .subscribe _, .send => true
  | .subscribe _, .poll => true
  | .publish _ _, .send => true
  | .publish _ _, .poll => true
  | .receive, .rcv => true
  | _, _ => false

/-- What the future makes of what the client's method returned. -/
def Method.answer (p : Env M Q Pk) : Method → System.Output Pk → Option PyResult
  | .connect _, .connectReturned (.ok _) => some (.ok none)
  | .connect _, .connectReturned (.error e) =>
    some (.error (.connection ("Connection failed: " ++ p.display e)))
  | .subscribe _, .requestReturned (.ok _) => some (.ok none)
  | .subscribe _, .requestReturned (.error e) =>
    some (.error (.runtime ("Subscribe failed: " ++ p.display e)))
  | .publish _ _, .requestReturned (.ok _) => some (.ok none)
  | .publish _ _, .requestReturned (.error e) =>
    some (.error (.runtime ("Publish failed: " ++ p.display e)))
  | .receive, .rcvReturned (.ok message) => some (.ok (some (.ofMessage message)))
  | .receive, .rcvReturned (.error e) =>
    some (.error (.runtime ("Receive failed: " ++ p.display e)))
  | _, _ => none

/-! ## The futures -/

/-- Where the future of a call is. -/
inductive Stage
  | spawned (call : Call)
  /-- `inner.lock().await` -/
  | locking (method : Method)
  /-- In the client's method. -/
  | running (method : Method)
  | finished
  deriving DecidableEq

/-- `PyMqttClient`: the client, the mutex around it, and the futures of its calls. -/
structure State (M Q Pk : Type) where
  client : System.State M Q Pk
  lock : Mutex Nat
  calls : Nat → Option Stage
  nextCall : Nat

inductive Input (Q : Type)
  /-- Python calls a method, and the future is spawned. -/
  | call (call : Call)
  /-- The future runs up to `inner.lock().await`. -/
  | arrive (id : Nat)
  /-- The lock is granted, and the future runs up to the next await. -/
  | start (id : Nat)
  /-- A connection task moves, or the method that is being called. -/
  | client (i : System.Input Q)
  /-- The future is dropped. -/
  | cancel (id : Nat)

/-- What happens to a call. -/
inductive Event
  | called (id : Nat) (call : Call)
  /-- It came to nothing for its arguments. -/
  | rejected (id : Nat) (e : PyErr)
  /-- The future is at the mutex. -/
  | arrived (id : Nat)
  /-- It has the mutex, and the client's method begins. -/
  | started (id : Nat)
  | returned (id : Nat) (r : PyResult)
  /-- The future was dropped before it had the mutex. -/
  | withdrawn (id : Nat)
  /-- The future was dropped in the client's method. -/
  | aborted (id : Nat)
  deriving DecidableEq

/-- `PyMqttClient::new`, with the configuration converted. -/
def State.new (clientId : String) : State M Q Pk where
  client := .new clientId
  lock := .new
  calls _ := none
  nextCall := 0

def State.setStage (s : State M Q Pk) (id : Nat) (stage : Stage) : State M Q Pk :=
  { s with calls := Function.update s.calls id (some stage) }

/-- The future ends, and the guard it holds goes with it. -/
def State.release (s : State M Q Pk) (id : Nat) : State M Q Pk :=
  { s.setStage id .finished with lock := s.lock.release }

/-- The future comes to the mutex, or a bad address ends it before. -/
def arrive (p : Env M Q Pk) (id : Nat) (s : State M Q Pk) : Option (State M Q Pk × List Event) :=
  match s.calls id with
  | some (.spawned call) =>
    match call.method p with
    | .error e => some (s.setStage id .finished, [.rejected id e])
    | .ok method =>
      if h : id ∉ s.lock.queue then
        some ({ s.setStage id (.locking method) with lock := s.lock.enter id h }, [.arrived id])
      else none
  | _ => none

/-- The client has moved for the call `id`: its method goes on or has returned. -/
def settle (p : Env M Q Pk) (id : Nat) (method : Method) (client : System.State M Q Pk)
    (o : List (System.Output Pk)) (s : State M Q Pk) : State M Q Pk × List Event :=
  match o.findSome? (method.answer p) with
  | some r => ({ s.release id with client := client }, [.returned id r])
  | none => ({ s.setStage id (.running method) with client := client }, [])

def start (p : Env M Q Pk) (id : Nat) (s : State M Q Pk) : Option (State M Q Pk × List Event) :=
  match s.calls id with
  | some (.locking method) =>
    if s.lock.holder = some id then
      match method.begins with
      | none => some (s.setStage id (.running method), [.started id])
      | some i =>
        (System.step p.core p.quiche s.client i).map fun r =>
          let settled := settle p id method r.1 r.2 s
          (settled.1, .started id :: settled.2)
    else none
  | _ => none

/-- A move in the client: of a task, or of the method that the holder of the mutex
has called. -/
def clientMove (p : Env M Q Pk) (i : System.Input Q) (s : State M Q Pk) :
    Option (State M Q Pk × List Event) :=
  match i with
  | .task _ _ | .taskDrop _ =>
    (System.step p.core p.quiche s.client i).map fun r => ({ s with client := r.1 }, [])
  | _ =>
    match s.lock.holder with
    | none => none
    | some id =>
      match s.calls id with
      | some (.running method) =>
        if method.continues i then
          (System.step p.core p.quiche s.client i).map fun r => settle p id method r.1 r.2 s
        else none
      | _ => none

/-- The future is dropped at its await, with the guard if it has one. -/
def cancel (p : Env M Q Pk) (id : Nat) (s : State M Q Pk) : Option (State M Q Pk × List Event) :=
  match s.calls id with
  | some (.spawned _) => some (s.setStage id .finished, [.withdrawn id])
  | some (.locking _) =>
    some ({ s.setStage id .finished with lock := s.lock.leave id }, [.withdrawn id])
  | some (.running .receive) => some (s.release id, [.aborted id])
  | some (.running _) =>
    (System.step p.core p.quiche s.client .cancel).map fun r =>
      ({ s.release id with client := r.1 }, [.aborted id])
  | _ => none

/-- One move of Python, of a future or of a connection task. -/
def step (p : Env M Q Pk) : Machine (State M Q Pk) (Input Q) Event := fun s i =>
  match i with
  | .call call =>
    some ({ s.setStage s.nextCall (.spawned call) with nextCall := s.nextCall + 1 },
      [.called s.nextCall call])
  | .arrive id => arrive p id s
  | .start id => start p id s
  | .client i => clientMove p i s
  | .cancel id => cancel p id s

/-! ## What a method does to the client -/

/-- The await the client is at, while this method is being called. -/
def Method.Suits : Method → System.Call → Prop
  | .connect _, .connecting _ _ => True
  | .connect _, .awaitConnack _ => True
  | .subscribe _, .sendRequest _ _ => True
  | .subscribe _, .awaitNotify _ _ => True
  | .publish _ _, .sendRequest _ _ => True
  | .publish _ _, .awaitNotify _ _ => True
  | .receive, .idle => True
  | _, _ => False

/-- After a move of the method: it waits on, silently, or it has returned once. -/
inductive Progress (p : Env M Q Pk) (method : Method) (client : System.State M Q Pk) :
    List (System.Output Pk) → Prop
  | pending (suits : method.Suits client.call) : Progress p method client []
  | answered {x r} (idle : client.call = .idle) (answer : method.answer p x = some r) :
      Progress p method client [x]

variable {p : Env M Q Pk} {c c' : System.State M Q Pk} {i : System.Input Q}
  {o : List (System.Output Pk)} {method : Method}

theorem startRequest_progress {request : Request} (hcall : c.call = .idle)
    (hsuits : ∀ n, method.Suits (.sendRequest n request))
    (hanswer : ∀ e, ∃ r, method.answer p (.requestReturned (.error e)) = some r) :
    Progress p method (System.startRequest request c).1 (System.startRequest request c).2 := by
  unfold System.startRequest
  split
  · split
    · obtain ⟨r, hr⟩ := hanswer .noRequestStream
      exact .answered hcall hr
    · exact .pending (hsuits _)
  · obtain ⟨r, hr⟩ := hanswer .notConnected
    exact .answered hcall hr

/-- An idle client can begin any method. -/
theorem begins_progress (hcall : c.call = .idle) (hi : method.begins = some i) :
    ∃ c' o, System.step p.core p.quiche c i = some (c', o) ∧ Progress p method c' o := by
  cases method with
  | connect remote =>
    obtain rfl := Option.some.inj hi
    refine ⟨System.connect remote c, [], ?_, .pending trivial⟩
    simp only [System.step, hcall]
  | subscribe topic =>
    obtain rfl := Option.some.inj hi
    refine ⟨(System.startRequest (.subscribe topic) c).1,
      (System.startRequest (.subscribe topic) c).2, ?_,
      startRequest_progress hcall (fun _ => trivial) fun _ => ⟨_, rfl⟩⟩
    simp only [System.step, hcall]
  | publish topic payload =>
    obtain rfl := Option.some.inj hi
    refine ⟨(System.startRequest (.publish ⟨topic, .atLeastOnce, payload⟩) c).1,
      (System.startRequest (.publish ⟨topic, .atLeastOnce, payload⟩) c).2, ?_,
      startRequest_progress hcall (fun _ => trivial) fun _ => ⟨_, rfl⟩⟩
    simp only [System.step, hcall]
  | receive => cases hi

theorem sendRequest_progress {n : Nat} {request : Request}
    (hsuits : ∀ n notify, method.Suits (.awaitNotify n notify))
    (hanswer : ∀ e, ∃ r, method.answer p (.requestReturned (.error e)) = some r)
    (h : System.sendRequest n request c = some (c', o)) : Progress p method c' o := by
  obtain ⟨r, hr⟩ := hanswer .sendFailed
  unfold System.sendRequest at h
  simp only at h
  split at h
  · obtain ⟨rfl, rfl⟩ := Prod.mk.inj (Option.some.inj h)
    exact .answered rfl hr
  · split at h
    · obtain ⟨rfl, rfl⟩ := Prod.mk.inj (Option.some.inj h)
      exact .pending (hsuits _ _)
    · obtain ⟨rfl, rfl⟩ := Prod.mk.inj (Option.some.inj h)
      exact .answered rfl hr
    · cases h

theorem rcv_progress (hcall : c.call = .idle) (h : System.rcv c = some (c', o)) :
    Progress p .receive c' o := by
  have hfailed : some (c, [(.rcvReturned (.error .noMessageStream) : System.Output Pk)]) =
      some (c', o) → Progress p .receive c' o := by
    intro heq
    obtain ⟨rfl, rfl⟩ := Prod.mk.inj (Option.some.inj heq)
    exact .answered hcall rfl
  unfold System.rcv at h
  simp only at h
  split at h
  · exact hfailed h
  · split at h
    · exact hfailed h
    · split at h
      · obtain ⟨rfl, rfl⟩ := Prod.mk.inj (Option.some.inj h)
        exact .answered hcall rfl
      · split at h
        · cases h
        · exact hfailed h

/-- A poll of an awaited `Notify`. -/
theorem poll_progress {n notify : Nat} (hcall : c.call = .awaitNotify n notify)
    (hsuits : ∀ n notify, method.Suits (.awaitNotify n notify))
    (hanswer : ∃ r, method.answer p (.requestReturned (.ok ())) = some r)
    (h : System.step p.core p.quiche c .poll = some (c', o)) : Progress p method c' o := by
  simp only [System.step, hcall] at h
  split at h
  · obtain ⟨rfl, rfl⟩ := Prod.mk.inj (Option.some.inj h)
    obtain ⟨r, hr⟩ := hanswer
    exact .answered rfl hr
  · obtain ⟨rfl, rfl⟩ := Prod.mk.inj (Option.some.inj h)
    exact .pending (hcall ▸ hsuits n notify)

/-- A move of `subscribe` or `publish`. -/
theorem request_progress (hsuits : method.Suits c.call)
    (hrequest : ∀ call, method.Suits call ↔
      (∃ n request, call = .sendRequest n request) ∨ ∃ n notify, call = .awaitNotify n notify)
    (hok : ∃ r, method.answer p (.requestReturned (.ok ())) = some r)
    (herror : ∀ e, ∃ r, method.answer p (.requestReturned (.error e)) = some r)
    (hi : i = .send ∨ i = .poll) (h : System.step p.core p.quiche c i = some (c', o)) :
    Progress p method c' o := by
  have hawaits : ∀ n notify, method.Suits (.awaitNotify n notify) :=
    fun n notify => (hrequest _).mpr (.inr ⟨n, notify, rfl⟩)
  rcases (hrequest c.call).mp hsuits with ⟨n, request, hcall⟩ | ⟨n, notify, hcall⟩
  · rcases hi with rfl | rfl
    · simp only [System.step, hcall] at h
      exact sendRequest_progress hawaits herror h
    · simp [System.step, hcall] at h
  · rcases hi with rfl | rfl
    · simp [System.step, hcall] at h
    · exact poll_progress hcall hawaits hok h

/-- A move of `connect`. -/
theorem connect_progress {remote : ScionAddr} (hsuits : (Method.connect remote).Suits c.call)
    (hi : (∃ r, i = .connection r) ∨ i = .poll)
    (h : System.step p.core p.quiche c i = some (c', o)) :
    Progress p (.connect remote) c' o := by
  cases hcall : c.call with
  | connecting n remote' =>
    rcases hi with ⟨r, rfl⟩ | rfl
    · cases r with
      | none =>
        simp only [System.step, hcall] at h
        obtain ⟨rfl, rfl⟩ := Prod.mk.inj (Option.some.inj h)
        exact .answered rfl rfl
      | some r =>
        obtain ⟨localAddr, conn⟩ := r
        simp only [System.step, hcall] at h
        obtain ⟨rfl, rfl⟩ := Prod.mk.inj (Option.some.inj h)
        exact .pending trivial
    · simp [System.step, hcall] at h
  | awaitConnack n =>
    rcases hi with ⟨r, rfl⟩ | rfl
    · simp [System.step, hcall] at h
    · simp only [System.step, hcall] at h
      split at h
      · obtain ⟨rfl, rfl⟩ := Prod.mk.inj (Option.some.inj h)
        exact .answered rfl rfl
      · obtain ⟨rfl, rfl⟩ := Prod.mk.inj (Option.some.inj h)
        exact .pending trivial
  | _ =>
    rw [hcall] at hsuits
    exact hsuits.elim

/-- **A move of the method being called.** -/
theorem continues_progress (hsuits : method.Suits c.call) (hi : method.continues i = true)
    (h : System.step p.core p.quiche c i = some (c', o)) : Progress p method c' o := by
  cases method with
  | connect remote =>
    refine connect_progress hsuits ?_ h
    cases i with
    | connection r => exact .inl ⟨r, rfl⟩
    | poll => exact .inr rfl
    | _ => cases hi
  | subscribe topic =>
    refine request_progress hsuits ?_ ⟨_, rfl⟩ (fun _ => ⟨_, rfl⟩) ?_ h
    · intro call
      cases call <;> simp [Method.Suits]
    · cases i with
      | send => exact .inl rfl
      | poll => exact .inr rfl
      | _ => cases hi
  | publish topic payload =>
    refine request_progress hsuits ?_ ⟨_, rfl⟩ (fun _ => ⟨_, rfl⟩) ?_ h
    · intro call
      cases call <;> simp [Method.Suits]
    · cases i with
      | send => exact .inl rfl
      | poll => exact .inr rfl
      | _ => cases hi
  | receive =>
    cases i with
    | rcv =>
      have hcall : c.call = .idle := by
        cases hcall : c.call with
        | idle => rfl
        | _ =>
          rw [hcall] at hsuits
          exact hsuits.elim
      simp only [System.step, hcall] at h
      exact rcv_progress hcall h
    | _ => cases hi

end MqttScion.Python
