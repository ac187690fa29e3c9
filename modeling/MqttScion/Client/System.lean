import MqttScion.Lib.Notify
import MqttScion.Client.Connection

/-!
# The client and its connection tasks

`src/client/mod.rs`, `impl Client`: the calls `connect`, `subscribe`, `publish`
and `rcv`, next to every connection task spawned so far. A task goes on after
the client has connected again; it only loses the other ends of its channels.

The calls take `&mut self`, so one is in progress at a time (`Call`), cut at
its awaits; dropping its future is the input `cancel`. What is shared with the
tasks is here too: the request channel of each session and the `Notify`s.
`connect_notification` is one `Notify` for all connects; a request has a
`Notify` of its own, numbered when the request enters the channel.

A task that returned (`ended`) is dropped in a move of its own (`taskDrop`):
only then does its end of the request channel close.
-/

namespace MqttScion.Client.System

open MqttScion.Net MqttScion.Lib

/-- A spawned task and the channel its requests arrive in. -/
structure Session (M Q Pk : Type) where
  connection : Connection M Q Pk
  requests : Chan (Request × Nat) 1

/-- The call in progress and the await it is at. -/
inductive Call
  | idle
  /-- `Connection::new(..).await` -/
  | connecting (session : Nat) (remote : ScionAddr)
  /-- `connect_notification.notified().await` -/
  | awaitConnack (session : Nat)
  /-- `sender.send((request, notify)).await` -/
  | sendRequest (session : Nat) (request : Request)
  /-- `notify.notified().await` -/
  | awaitNotify (session : Nat) (notify : Nat)
  deriving DecidableEq

/-- The fields of `Client`, the channels and tasks it has created, and the call
in progress. Sessions are numbered by `connect`; one without a task has lost
its other ends of the channels. -/
structure State (M Q Pk : Type) where
  clientId : String
  connected : Bool
  requestStream : Option Nat
  messageStream : Option Nat
  connectNotification : Notify
  notifies : Nat → Notify
  sessions : Nat → Option (Session M Q Pk)
  nextSession : Nat
  nextNotify : Nat
  call : Call

inductive Error
  | notConnected
  | noRequestStream
  | sendFailed
  | connection
  | noMessageStream
  deriving DecidableEq

inductive Input (Q : Type)
  | connect (remote : ScionAddr)
  /-- The outcome of `Connection::new`: the socket's address and the QUIC
  connection, or an error. -/
  | connection (r : Option (ScionAddr × Q))
  | subscribe (topic : String)
  | publish (topic : String) (payload : Bytes)
  /-- The channel takes the request, or turns out to be closed. -/
  | send
  /-- The awaited `Notify` is polled. -/
  | poll
  | cancel
  | rcv
  | task (session : Nat) (i : Client.Input)
  | taskDrop (session : Nat)

/-- What the caller is told, and what a task does. -/
inductive Output (Pk : Type)
  | connectReturned (r : Except Error Unit)
  | requestReturned (r : Except Error Unit)
  | rcvReturned (r : Except Error MqttMessage)
  | task (session : Nat) (o : Client.Output Pk)

variable {M Q Pk : Type}

/-- `Client::new`. -/
def State.new (clientId : String) : State M Q Pk where
  clientId := clientId
  connected := false
  requestStream := none
  messageStream := none
  connectNotification := .empty
  notifies _ := .empty
  sessions _ := none
  nextSession := 0
  nextNotify := 0
  call := .idle

def State.setSession (s : State M Q Pk) (n : Nat) (session : Session M Q Pk) : State M Q Pk :=
  { s with sessions := Function.update s.sessions n (some session) }

/-! ## Calls -/

/-- `message_stream = Some(..)` drops the receiver it replaces. -/
def dropMessageStream (s : State M Q Pk) : State M Q Pk :=
  match s.messageStream with
  | none => s
  | some n =>
    match s.sessions n with
    | none => s
    | some session =>
      s.setSession n { session with
        connection := { session.connection with
          messages := session.connection.messages.dropReceiver } }

/-- `connect`, up to `Connection::new`. -/
def connect (remote : ScionAddr) (s : State M Q Pk) : State M Q Pk :=
  { dropMessageStream s with
    messageStream := some s.nextSession
    requestStream := some s.nextSession
    nextSession := s.nextSession + 1
    call := .connecting s.nextSession remote }

/-- `subscribe` and `publish`, up to `sender.send`. -/
def startRequest (request : Request) (s : State M Q Pk) : State M Q Pk × List (Output Pk) :=
  if s.connected then
    match s.requestStream with
    | none => (s, [.requestReturned (.error .noRequestStream)])
    | some n => ({ s with call := .sendRequest n request }, [])
  else (s, [.requestReturned (.error .notConnected)])

/-- `sender.send(..)` in session `n`; it waits while the channel is full. -/
def sendRequest (n : Nat) (request : Request) (s : State M Q Pk) :
    Option (State M Q Pk × List (Output Pk)) :=
  let failed : State M Q Pk × List (Output Pk) :=
    ({ s with call := .idle }, [.requestReturned (.error .sendFailed)])
  match s.sessions n with
  | none => some failed
  | some session =>
    let r := session.requests.trySend (request, s.nextNotify)
    match r.1 with
    | .ok =>
      some ({ s.setSession n { session with requests := r.2 } with
        nextNotify := s.nextNotify + 1
        call := .awaitNotify n s.nextNotify }, [])
    | .closed => some failed
    | .full => none

/-- `rcv`; it waits while the channel is empty and the task may still send. -/
def rcv (s : State M Q Pk) : Option (State M Q Pk × List (Output Pk)) :=
  let failed : State M Q Pk × List (Output Pk) :=
    (s, [.rcvReturned (.error .noMessageStream)])
  match s.messageStream with
  | none => some failed
  | some n =>
    match s.sessions n with
    | none => some failed
    | some session =>
      match session.connection.messages.recv with
      | some (message, messages) =>
        some (s.setSession n { session with
          connection := { session.connection with messages := messages } },
          [.rcvReturned (.ok message)])
      | none => if session.requests.rxAlive then none else some failed

/-! ## Tasks -/

/-- The `notify_one` calls of a task's move. -/
def applyOutput (s : State M Q Pk) (o : Client.Output Pk) : State M Q Pk :=
  match o with
  | .connectNotified => { s with connectNotification := s.connectNotification.notifyOne }
  | .notified notify =>
    { s with notifies := Function.update s.notifies notify (s.notifies notify).notifyOne }
  | _ => s

/-- What the task of `session` finds in its request channel for the input. A
request must be at the front; the client's own moves are not the task's. -/
def takeRequest (i : Client.Input) (requests : Chan (Request × Nat) 1) :
    Option (Chan (Request × Nat) 1) :=
  match i with
  | .request request notify =>
    match requests.recv with
    | some (front, rest) => if front = (request, notify) then some rest else none
    | none => none
  | .rcv => none
  | .dropReceiver => none
  | _ => some requests

def taskMove (core : MqttCore M Pk) (qc : Quiche Q) (n : Nat) (i : Client.Input)
    (s : State M Q Pk) : Option (State M Q Pk × List (Output Pk)) :=
  match s.sessions n with
  | none => none
  | some session =>
    match takeRequest i session.requests, Client.step core qc session.connection i with
    | some requests, some (connection, o) =>
      some (o.foldl applyOutput (s.setSession n ⟨connection, requests⟩), o.map (.task n))
    | _, _ => none

/-- The future of an ended task is dropped, and with it `request_receiver`. -/
def taskDrop (n : Nat) (s : State M Q Pk) : Option (State M Q Pk) :=
  match s.sessions n with
  | none => none
  | some session =>
    match session.connection.pc with
    | .ended _ =>
      if session.requests.rxAlive then
        some (s.setSession n { session with requests := session.requests.dropReceiver })
      else none
    | _ => none

/-- One move of the caller, of the client or of a task. -/
def step (core : MqttCore M Pk) (qc : Quiche Q) : Machine (State M Q Pk) (Input Q) (Output Pk) :=
  fun s i =>
  match s.call, i with
  | _, .task n i => taskMove core qc n i s
  | _, .taskDrop n => (taskDrop n s).map fun s' => (s', [])
  | .idle, .connect remote => some (connect remote s, [])
  | .connecting _ _, .connection none =>
    some ({ s with call := .idle }, [.connectReturned (.error .connection)])
  | .connecting n remote, .connection (some (localAddr, conn)) =>
    some ({ s.setSession n
      ⟨Connection.new core remote localAddr s.clientId conn, .new⟩ with
        call := .awaitConnack n }, [])
  | .awaitConnack _, .poll =>
    let r := s.connectNotification.poll
    if r.1 then
      some ({ s with connectNotification := r.2, connected := true, call := .idle },
        [.connectReturned (.ok ())])
    else some ({ s with connectNotification := r.2 }, [])
  | .idle, .subscribe topic => some (startRequest (.subscribe topic) s)
  | .idle, .publish topic payload =>
    some (startRequest (.publish ⟨topic, .atLeastOnce, payload⟩) s)
  | .sendRequest n request, .send => sendRequest n request s
  | .awaitNotify _ notify, .poll =>
    let r := (s.notifies notify).poll
    let s := { s with notifies := Function.update s.notifies notify r.2 }
    if r.1 then some ({ s with call := .idle }, [.requestReturned (.ok ())])
    else some (s, [])
  | .idle, .rcv => rcv s
  | .idle, .cancel => none
  | .awaitConnack _, .cancel =>
    some ({ s with connectNotification := s.connectNotification.dropWaiter, call := .idle }, [])
  -- a request's `Notify` goes with its caller
  | _, .cancel => some ({ s with call := .idle }, [])
  | _, _ => none

end MqttScion.Client.System
