import MqttScion.Lib.Relay
import MqttScion.Client.Alone
import MqttScion.Client.Wire

/-!
# The messages a client receives

Each `connect` makes a new message channel, and the task it spawns puts the
messages of that session into it. `rcv` takes from the channel of the latest
`connect`; the earlier tasks go on, their receivers are gone.

The log names the session of every message that is put into a channel and of
every message that `rcv` returns.

> `rcv_relays`: whatever calls are made, cancelled and interleaved with the tasks,
> `rcv` returns the messages of a session in the order in which its task put them
> into the channel, each once; and it returns no message of a session after one
> of a later session.
-/

namespace MqttScion.Client.System

open MqttScion.Net MqttScion.Lib

variable {M Q Pk : Type}

/-! ## The log -/

inductive MailEvent
  | put (session : Nat) (message : MqttMessage)
  | got (session : Nat) (message : MqttMessage)
  deriving DecidableEq

/-- What is put into the channels, and what `rcv` returns from the stream. -/
def mail (s : State M Q Pk) (_ : Input Q) (o : List (Output Pk)) : List MailEvent :=
  o.flatMap fun out => match out with
    | .task n (.message message .ok) => [.put n message]
    | .rcvReturned (.ok message) => (s.messageStream.map fun n => .got n message).toList
    | _ => []

@[simp] def MailEvent.putIn (n : Nat) : MailEvent → List MqttMessage
  | .put n' message => if n' = n then [message] else []
  | .got _ _ => []

@[simp] def MailEvent.gotFrom (n : Nat) : MailEvent → List MqttMessage
  | .got n' message => if n' = n then [message] else []
  | .put _ _ => []

/-- The messages put into the channel of session `n`. -/
def putsIn (n : Nat) (es : List MailEvent) : List MqttMessage := es.flatMap (MailEvent.putIn n)

/-- The messages of session `n` that `rcv` returned. -/
def gotsFrom (n : Nat) (es : List MailEvent) : List MqttMessage := es.flatMap (MailEvent.gotFrom n)

/-- The sessions of the messages that `rcv` returned. -/
def gotSessions (es : List MailEvent) : List Nat :=
  es.filterMap fun e => match e with
    | .got n _ => some n
    | .put _ _ => none

@[simp] theorem putsIn_append (n : Nat) (es fs : List MailEvent) :
    putsIn n (es ++ fs) = putsIn n es ++ putsIn n fs := List.flatMap_append

@[simp] theorem gotsFrom_append (n : Nat) (es fs : List MailEvent) :
    gotsFrom n (es ++ fs) = gotsFrom n es ++ gotsFrom n fs := List.flatMap_append

@[simp] theorem gotSessions_append (es fs : List MailEvent) :
    gotSessions (es ++ fs) = gotSessions es ++ gotSessions fs := List.filterMap_append

/-! ## The channels -/

/-- The message channel of a session; one whose task is not spawned yet is empty. -/
def State.mailbox (s : State M Q Pk) (n : Nat) : Chan MqttMessage 100 :=
  match s.sessions n with
  | some session => session.connection.messages
  | none => .new

/-- What a step does to the channels of messages. -/
inductive MailMove (s s' : State M Q Pk) : List MailEvent → Prop
  | quiet (hmail : ∀ n, s'.mailbox n = s.mailbox n) (hstream : s'.messageStream = s.messageStream)
      (hnext : s'.nextSession = s.nextSession) : MailMove s s' []
  | puts {n message} (hok : ((s.mailbox n).trySend message).1 = .ok)
      (hmail : ∀ m, s'.mailbox m =
        if m = n then ((s.mailbox n).trySend message).2 else s.mailbox m)
      (hstream : s'.messageStream = s.messageStream) (hnext : s'.nextSession = s.nextSession) :
      MailMove s s' [.put n message]
  | takes {n message chan} (hlatest : s.messageStream = some n)
      (hrecv : (s.mailbox n).recv = some (message, chan))
      (hmail : ∀ m, s'.mailbox m = if m = n then chan else s.mailbox m)
      (hstream : s'.messageStream = s.messageStream) (hnext : s'.nextSession = s.nextSession) :
      MailMove s s' [.got n message]
  | begins (hmail : ∀ n, s'.mailbox n = s.mailbox n ∨ s'.mailbox n = (s.mailbox n).dropReceiver)
      (hstream : s'.messageStream = some s.nextSession)
      (hnext : s'.nextSession = s.nextSession + 1) : MailMove s s' []

variable {core : MqttCore M Pk} {qc : Quiche Q} {s s' : State M Q Pk} {i : Input Q}
  {o : List (Output Pk)}

/-- What a task does to its message channel: nothing, or it offers one message. -/
theorem task_messages {c c' : Connection M Q Pk} {j : Client.Input} {q : List (Client.Output Pk)}
    (hrcv : j ≠ .rcv) (hdrop : j ≠ .dropReceiver) (hstep : Client.step core qc c j = some (c', q)) :
    (c'.messages = c.messages ∧ ∀ message, .message message .ok ∉ q) ∨
      ∃ message, c'.messages = (c.messages.trySend message).2 ∧
        q = [.message message (c.messages.trySend message).1] := by
  cases Client.step_move hstep with
  | quiet _ _ frame _ _ _ _ out =>
    refine .inl ⟨frame.1, fun message hmem => ?_⟩
    obtain ⟨data, dst, hout⟩ := out _ hmem
    cases hout
  | checkedSend _ _ _ frame _ _ _ _ => exact .inl ⟨frame.1, by simp⟩
  | recv _ _ => exact .inl ⟨rfl, by simp⟩
  | event _ _ handled =>
    cases handled with
    | sends _ => exact .inl ⟨rfl, by simp⟩
    | offers message => exact .inr ⟨message, rfl, rfl⟩
    | connects _ => exact .inl ⟨rfl, by simp⟩
    | acknowledges _ _ => exact .inl ⟨rfl, by simp⟩
    | ignores _ _ => exact .inl ⟨rfl, by simp⟩
  | @resume events next _ _ =>
    obtain ⟨pc, sent, -, -, heq⟩ := resume_eq qc next c
    rw [heq]
    exact .inl ⟨rfl, by simp⟩
  | rcv _ => exact absurd rfl hrcv
  | dropReceiver => exact absurd rfl hdrop

/-- A session has its own mailbox. -/
theorem mailbox_setSession (s : State M Q Pk) (n : Nat) (session : Session M Q Pk) (m : Nat) :
    (s.setSession n session).mailbox m =
      if m = n then session.connection.messages else s.mailbox m := by
  unfold State.mailbox State.setSession
  by_cases hm : m = n
  · rw [if_pos hm, hm]
    simp only [Function.update_self]
  · rw [if_neg hm]
    simp only [Function.update_of_ne hm]

/-- The mailboxes are in the sessions. -/
theorem mailbox_of_sessions (h : s'.sessions = s.sessions) (n : Nat) :
    s'.mailbox n = s.mailbox n := by
  unfold State.mailbox
  rw [h]

/-- A session that is replaced by one with the same channel. -/
theorem mailbox_same {n : Nat} {session session' : Session M Q Pk}
    (found : s.sessions n = some session)
    (hsame : session'.connection.messages = session.connection.messages) (m : Nat) :
    (s.setSession n session').mailbox m = s.mailbox m := by
  rw [mailbox_setSession]
  split
  · next hm =>
    unfold State.mailbox
    rw [hm, found]
    exact hsame
  · rfl

/-! ## What a step does to the messages -/

/-- Of what a task logs, only the messages its channel took are mail. -/
theorem mail_task (s : State M Q Pk) (i : Input Q) (n : Nat) (q : List (Client.Output Pk)) :
    mail s i (q.map (.task n)) =
      q.flatMap fun out => match out with
        | .message message .ok => [.put n message]
        | _ => [] := by
  unfold mail
  rw [List.flatMap_map]
  refine List.flatMap_congr fun out _ => ?_
  cases out with
  | message message r => cases r <;> rfl
  | _ => rfl

/-- A task's move puts what it logs into its own mailbox, and into no other. -/
theorem task_mail {n : Nat} {j : Client.Input} {session session' : Session M Q Pk}
    {q : List (Client.Output Pk)} (found : s.sessions n = some session)
    (taken : takeRequest j session.requests = some session'.requests)
    (moved : Client.step core qc session.connection j = some (session'.connection, q))
    (sessions : s'.sessions = (s.setSession n session').sessions)
    (hstream : s'.messageStream = s.messageStream) (hnext : s'.nextSession = s.nextSession) :
    MailMove s s' (mail s (.task n j : Input Q) (q.map (.task n))) := by
  have hown : j ≠ .rcv ∧ j ≠ .dropReceiver := by
    rcases takeRequest_eq_some taken with ⟨_, _, rfl, -⟩ | ⟨-, hrcv, hdrop, -⟩
    · exact ⟨nofun, nofun⟩
    · exact ⟨hrcv, hdrop⟩
  have hbefore : s.mailbox n = session.connection.messages := by
    unfold State.mailbox
    rw [found]
  have hafter : ∀ m, s'.mailbox m =
      if m = n then session'.connection.messages else s.mailbox m := fun m =>
    (mailbox_of_sessions sessions m).trans (mailbox_setSession s n session' m)
  have hquiet : session'.connection.messages = session.connection.messages →
      ∀ m, s'.mailbox m = s.mailbox m := fun hsame m =>
    (mailbox_of_sessions sessions m).trans (mailbox_same found hsame m)
  rw [mail_task]
  rcases task_messages hown.1 hown.2 moved with ⟨hsame, hnone⟩ | ⟨message, hsent, rfl⟩
  · rw [List.flatMap_eq_nil_iff.mpr fun out hmem => ?_]
    · exact .quiet (hquiet hsame) hstream hnext
    · cases out with
      | message message r =>
        cases r with
        | ok => exact absurd hmem (hnone message)
        | _ => rfl
      | _ => rfl
  · rw [← hbefore] at hsent ⊢
    cases hok : ((s.mailbox n).trySend message).1 with
    | ok => exact .puts hok (fun m => (hafter m).trans (by rw [hsent])) hstream hnext
    | _ =>
      have hsame : session'.connection.messages = session.connection.messages := by
        rw [hsent, Chan.trySend_ne_ok (by rw [hok]; nofun), hbefore]
      exact .quiet (hquiet hsame) hstream hnext

/-- `connect` opens an empty mailbox. -/
theorem connect_mail (remote : ScionAddr) (s : State M Q Pk) :
    MailMove s (connect remote s) [] := by
  refine .begins (fun n => ?_) rfl rfl
  show (dropMessageStream s).mailbox n = _ ∨ (dropMessageStream s).mailbox n = _
  unfold dropMessageStream
  split
  · exact .inl rfl
  · next n' _ =>
    split
    · exact .inl rfl
    · next session found =>
      rw [mailbox_setSession]
      split
      · next hn =>
        refine .inr ?_
        rw [hn]
        unfold State.mailbox
        rw [found]
      · exact .inl rfl

/-- Where no message moves there is no mail. -/
theorem mail_eq_nil (s : State M Q Pk) (i : Input Q)
    (hout : ∀ x ∈ o, (∀ n q, x ≠ .task n q) ∧ ∀ message, x ≠ .rcvReturned (.ok message)) :
    mail s i o = [] := by
  refine List.flatMap_eq_nil_iff.mpr fun x hx => ?_
  obtain ⟨htask, hrcv⟩ := hout x hx
  cases x with
  | task n q => exact absurd rfl (htask n q)
  | rcvReturned r =>
    cases r with
    | ok message => exact absurd rfl (hrcv message)
    | error e => rfl
  | _ => rfl

/-- **What a step does to the messages.** -/
theorem step_mail (h : Filed s) (hstep : step core qc s i = some (s', o)) :
    MailMove s s' (mail s i o) := by
  by_cases hi : ∃ remote, i = .connect remote
  · obtain ⟨remote, rfl⟩ := hi
    obtain ⟨rfl, rfl⟩ := connect_eq_some hstep
    exact connect_mail remote s
  have hconnect : ∀ remote, i ≠ .connect remote := fun remote hr => hi ⟨remote, hr⟩
  have hstays := step_stays hconnect hstep
  cases step_sessionsMove hstep with
  | task found taken moved sessions =>
    exact task_mail found taken moved sessions hstays.messageStream hstays.nextSession
  | connects _ => exact absurd rfl (hconnect _)
  | @spawns n remote localAddr conn call sessions =>
    have hnone := (h.connecting n remote call).2
    refine .quiet (fun m => ?_) hstays.messageStream hstays.nextSession
    rw [mailbox_of_sessions sessions, mailbox_setSession]
    split
    · next hm =>
      unfold State.mailbox
      rw [hm, hnone]
      rfl
    · rfl
  | requests _ found sessions =>
    refine .quiet (fun m => ?_) hstays.messageStream hstays.nextSession
    rw [mailbox_of_sessions sessions]
    refine mailbox_same found ?_ m
    rfl
  | @reads n session message messages stream found recv sessions =>
    have hmail : mail s .rcv ([.rcvReturned (.ok message)] : List (Output Pk)) =
        [.got n message] := by
      simp [mail, stream]
    have hrecv : (s.mailbox n).recv = some (message, messages) := by
      unfold State.mailbox
      rw [found]
      exact recv
    rw [hmail]
    exact .takes stream hrecv
      (fun m => (mailbox_of_sessions sessions m).trans (mailbox_setSession s n _ m))
      hstays.messageStream hstays.nextSession
  | same _ _ _ out sessions =>
    rw [mail_eq_nil s i out]
    exact .quiet (mailbox_of_sessions sessions) hstays.messageStream hstays.nextSession

/-! ## Every run -/

/-- The books of all channels, and the order in which sessions are read. -/
structure MailKept (es : List MailEvent) (s : State M Q Pk) : Prop where
  relay : ∀ n,
    Lib.Relay (putsIn n es) (s.mailbox n).queue (gotsFrom n es) (!(s.mailbox n).rxAlive)
  ordered : (gotSessions es).Pairwise (· ≤ ·)
  begun : ∀ n ∈ gotSessions es, n < s.nextSession

/-- There is no mail before the first `connect`. -/
theorem mailKept_new (clientId : String) : MailKept [] (State.new clientId : State M Q Pk) where
  relay _ := .empty _
  ordered := .nil
  begun n hn := by cases hn

/-- The books of the channels a move leaves alone. -/
theorem MailKept.relay_same {es fs : List MailEvent} (h : MailKept es s) {n : Nat}
    (hmail : s'.mailbox n = s.mailbox n) (hput : putsIn n fs = []) (hgot : gotsFrom n fs = []) :
    Lib.Relay (putsIn n (es ++ fs)) (s'.mailbox n).queue (gotsFrom n (es ++ fs))
      (!(s'.mailbox n).rxAlive) := by
  rw [putsIn_append, gotsFrom_append, hput, hgot, List.append_nil, List.append_nil, hmail]
  exact h.relay n

/-- Every move of the mail keeps the books of every mailbox. -/
theorem MailMove.mailKept {es fs : List MailEvent} (hfiled : Filed s) (h : MailKept es s)
    (hmove : MailMove s s' fs) : MailKept (es ++ fs) s' := by
  cases hmove with
  | quiet hmail _ hnext =>
    refine ⟨fun n => h.relay_same (hmail n) rfl rfl, ?_, ?_⟩
    · rw [List.append_nil]
      exact h.ordered
    · rw [List.append_nil, hnext]
      exact h.begun
  | @puts n message hok hmail _ hnext =>
    refine ⟨fun m => ?_, ?_, ?_⟩
    · by_cases hm : m = n
      · subst hm
        obtain ⟨halive, -⟩ := Chan.trySend_ok_iff.mp hok
        have hbooks := h.relay m
        rw [halive] at hbooks
        rw [hmail, if_pos rfl, Chan.trySend_ok_queue hok]
        simpa [putsIn, gotsFrom] using hbooks.push [message] _
      · refine h.relay_same (by rw [hmail, if_neg hm]) ?_ rfl
        simp [putsIn, Ne.symm hm]
    · simpa [gotSessions] using h.ordered
    · simpa [gotSessions, hnext] using h.begun
  | @takes n message chan hlatest hrecv hmail _ hnext =>
    have hlast : s.nextSession = n + 1 := hfiled.stream n hlatest
    refine ⟨fun m => ?_, ?_, ?_⟩
    · by_cases hm : m = n
      · subst hm
        obtain ⟨hqueue, halive⟩ := Chan.recv_eq_some hrecv
        have hbooks := h.relay m
        rw [hqueue] at hbooks
        rw [hmail, if_pos rfl, halive]
        simpa [putsIn, gotsFrom] using hbooks.pop
      · refine h.relay_same (by rw [hmail, if_neg hm]) rfl ?_
        simp [gotsFrom, Ne.symm hm]
    · rw [gotSessions_append, List.pairwise_append]
      refine ⟨h.ordered, List.pairwise_singleton _ _, fun m hm n' hn' => ?_⟩
      have hlt := h.begun m hm
      obtain rfl := List.mem_singleton.mp hn'
      omega
    · intro m hm
      rw [hnext]
      rcases List.mem_append.mp (gotSessions_append es _ ▸ hm) with hold | hnew
      · exact h.begun m hold
      · obtain rfl := List.mem_singleton.mp hnew
        omega
  | begins hmail _ hnext =>
    refine ⟨fun n => ?_, ?_, fun n hn => ?_⟩
    · rcases hmail n with hsame | hdropped
      · exact h.relay_same hsame rfl rfl
      · rw [List.append_nil, hdropped]
        exact (h.relay n).close
    · rw [List.append_nil]
      exact h.ordered
    · rw [List.append_nil] at hn
      rw [hnext]
      exact Nat.lt_succ_of_lt (h.begun n hn)

/-- The books of every mailbox balance in every run. -/
theorem run_mailKept {clientId : String} {is : List (Input Q)} {es : List MailEvent}
    (hr : run (observe (step core qc) mail) (State.new clientId) is = some (s, es)) :
    MailKept es s := by
  have hboth : Filed s ∧ MailKept es s := by
    refine @run_induct _ _ _ _ (fun es s => Filed s ∧ MailKept es s) is es _ s
      ⟨filed_new clientId, mailKept_new clientId⟩ ?_ hr
    rintro es s i s' fs ⟨hfiled, h⟩ hm
    obtain ⟨o, hstep, rfl⟩ := observe_eq_some.mp hm
    exact ⟨step_filed hfiled hstep, (step_mail hfiled hstep).mailKept hfiled h⟩
  exact hboth.2

/-- **`rcv` returns every session's messages in order**, each once, and one
session after the other. -/
theorem rcv_relays {clientId : String} {is : List (Input Q)} {es : List MailEvent}
    (hr : run (observe (step core qc) mail) (State.new clientId) is = some (s, es)) :
    (∀ n, Lib.Relay (putsIn n es) (s.mailbox n).queue (gotsFrom n es)
      (!(s.mailbox n).rxAlive)) ∧
      (gotSessions es).Pairwise (· ≤ ·) := by
  have hkept := run_mailKept hr
  exact ⟨hkept.relay, hkept.ordered⟩

/-- `connect` up to its return, as session `n`. -/
private def connectAs (n : Nat) : List (Input Peer) :=
  [.connect peerAddr, .connection (some ((peerClient 100).localAddr, (peerClient 100).conn))] ++
    connectInputs.map (.task n) ++ [.poll]

/-- A PUBLISH of level 0 with one byte of payload reaches session `n`. -/
private def publishTo (n : Nat) (b : UInt8) : List (Input Peer) :=
  (Client.Input.datagram [0x30, 5, 0, 1, 116, 0, b] peerAddr ::
    List.replicate 7 .step).map (.task n)

/-- Two messages, of which one is read, a second `connect`, and one more. -/
private def readAcross : List (Input Peer) :=
  connectAs 0 ++ publishTo 0 1 ++ publishTo 0 2 ++ [.rcv] ++ connectAs 1 ++ publishTo 1 3 ++ [.rcv]

/-- Two sessions, read one after the other. -/
theorem rcv_relays_sample :
    ∃ s es, run (observe (step wireCore peerQuiche) mail) (State.new "c1") readAcross =
        some (s, es) ∧
      (gotSessions es).Pairwise (· ≤ ·) ∧ gotSessions es = [0, 1] ∧
      putsIn 0 es = [⟨"t", .atMostOnce, [1]⟩, ⟨"t", .atMostOnce, [2]⟩] ∧
      Lib.Relay (putsIn 0 es) (s.mailbox 0).queue (gotsFrom 0 es) (!(s.mailbox 0).rxAlive) := by
  obtain ⟨hbooks, hordered⟩ := @rcv_relays WireCore Peer Bytes wireCore peerQuiche _ "c1" readAcross
    _ rfl
  exact ⟨_, _, rfl, hordered, rfl, rfl, hbooks 0⟩

end MqttScion.Client.System
