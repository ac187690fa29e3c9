import MqttScion.Client.Session

/-!
# The log of a task

What the broker answers and what a caller is told are far apart: a packet is
handled by a task, the task calls `notify_one`, and the caller is polled later.
`CallEvent` names the steps in between: the packets handled, the requests sent
and stored with the identifiers acquired for them, the requests signalled, and
the polls and returns of the calls.

A task's move is a `Turn`: it says what becomes of the channel, of the arm and
of `current_request`, with the requests and identifiers in them, and which
events it logs.

> `task_turn`: every move of a task is one of these.

> `Turn.requestMove`: what that does to the place of each request.
-/

namespace MqttScion.Client

open MqttScion.Net MqttScion.Lib

variable {M Q Pk : Type}

/-- The request whose arm is being executed, with the identifier acquired for
it. -/
def Pc.arm : Pc Pk → Option (Request × UInt16 × Nat)
  | .handle _ (.request request id notify) => some (request, id, notify)
  | _ => none

theorem Pc.Plain.arm {pc : Pc Pk} (h : pc.Plain) : pc.arm = none := by
  cases pc with
  | handle _ _ => exact h.elim
  | _ => rfl

theorem Pc.inArm_eq (pc : Pc Pk) : pc.inArm = pc.arm.map fun r => r.2.2 := by
  cases pc with
  | handle events next => cases next <;> rfl
  | _ => rfl

/-- The packet a step handles. -/
def Connection.handling (c : Connection M Q Pk) (i : Input) : Option Packet :=
  match c.pc, i with
  | .handle (.notifyPacketReceived packet :: _) _, .step => some packet
  | _, _ => none

/-- The request a step takes and sends, with the identifier acquired for it. -/
def Connection.sending (core : MqttCore M Pk) (qc : Quiche Q) (c : Connection M Q Pk) (i : Input) :
    Option (Request × UInt16 × Nat) :=
  match i with
  | .request _ _ => (step core qc c i).bind fun r => r.1.pc.arm
  | _ => none

/-- The request a step puts into `current_request`. -/
def Connection.storing (c : Connection M Q Pk) (i : Input) : Option (Request × UInt16 × Nat) :=
  match c.pc, i with
  | .handle [] (.request request id notify), .step => some (request, id, notify)
  | .handle (.requestClose :: _) (.request request id notify), .step => some (request, id, notify)
  | _, _ => none

/-- Nobody is notified. -/
def Silent (o : List (Output Pk)) : Prop :=
  .connectNotified ∉ o ∧ ∀ notify, .notified notify ∉ o

theorem silent_of_sent {o : List (Output Pk)} (h : ∀ x ∈ o, ∃ data dst, x = .sent data dst) :
    Silent o := by
  refine ⟨fun hmem => ?_, fun notify hmem => ?_⟩
  · obtain ⟨data, dst, hx⟩ := h _ hmem
    cases hx
  · obtain ⟨data, dst, hx⟩ := h _ hmem
    cases hx

variable {core : MqttCore M Pk} {qc : Quiche Q}

section Connection

variable {c c' : Connection M Q Pk} {i : Input} {o : List (Output Pk)}

/-- A request that is sent has the identifier that was acquired for it. -/
theorem sendRequest_acquired {build : UInt16 → Option Pk} {fault : Fault}
    {request request' : Request} {id : UInt16} {notify notify' : Nat}
    (h : (sendRequest core build fault request notify c).1.pc.arm = some (request', id, notify')) :
    (core.acquirePacketId c.mqttConn).1 = some id ∧ request' = request ∧ notify' = notify := by
  unfold sendRequest at h
  simp only at h
  split at h
  · cases h
  · next id' hid =>
    split at h
    · cases h
    · simp only [Pc.arm, Option.some.injEq, Prod.mk.injEq] at h
      obtain ⟨rfl, rfl, rfl⟩ := h
      exact ⟨hid, rfl, rfl⟩

theorem sending_acquired {request request' : Request} {id : UInt16} {notify notify' : Nat}
    (h : step core qc c (.request request notify) = some (c', o))
    (harm : c'.pc.arm = some (request', id, notify')) :
    (core.acquirePacketId c.mqttConn).1 = some id ∧ request' = request ∧ notify' = notify := by
  have hselect : some (onRequest core request notify c) = some (c', o) := by
    cases hpc : c.pc with
    | select => simpa only [step, taskStep, hpc] using h
    | _ => simp [step, taskStep, hpc] at h
  obtain rfl : (onRequest core request notify c).1 = c' :=
    congrArg Prod.fst (Option.some.inj hselect)
  unfold onRequest at harm
  split at harm
  · split at harm
    · exact sendRequest_acquired harm
    · cases harm
  · split at harm
    · exact sendRequest_acquired harm
    · cases harm

/-- A task that has ended makes no more moves. -/
theorem step_running (hrcv : i ≠ .rcv) (hdrop : i ≠ .dropReceiver)
    (h : step core qc c i = some (c', o)) : ¬ c.pc.Ended := by
  rintro ⟨r, hpc⟩
  rcases step_cases h with htask | ⟨hi | hi, -⟩
  · simp [taskStep, hpc] at htask
  · exact hrcv hi
  · exact hdrop hi

/-- A packet is handled alone, and the batch goes on behind it. -/
theorem step_handling {packet : Packet} (hhandling : c.handling i = some packet)
    (h : step core qc c i = some (c', o)) :
    ∃ rest next, c.pc = .handle (.notifyPacketReceived packet :: rest) next ∧ i = .step ∧
      c' = { (packetReceived packet c).1 with pc := .handle rest next } ∧
      o = (packetReceived packet c).2 := by
  unfold Connection.handling at hhandling
  split at hhandling
  · next packet' rest next hpc =>
    obtain rfl := Option.some.inj hhandling
    simp only [step, taskStep, hpc, handleEvents, handleEvent] at h
    obtain ⟨rfl, rfl⟩ := Prod.mk.inj (Option.some.inj h)
    exact ⟨rest, next, hpc, rfl, rfl, rfl⟩
  · cases hhandling

end Connection

/-! ## The log of a task -/

namespace System

inductive CallEvent
  /-- The channel of the session takes a request. -/
  | queued (session : Nat) (notify : Nat)
  /-- The task handles a packet it received. -/
  | handled (session : Nat) (packet : Packet)
  /-- A request leaves the channel and is sent. -/
  | sent (session : Nat) (request : Request) (packetId : UInt16) (notify : Nat)
  /-- It becomes the current request. -/
  | stored (session : Nat) (request : Request) (packetId : UInt16) (notify : Nat)
  /-- `notify.notify_one()` for a request. -/
  | signalled (session : Nat) (notify : Nat)
  /-- `connect` is polled, waiting for the CONNACK of its session. -/
  | polled (session : Nat)
  /-- `connect` is dropped there. -/
  | dropped
  /-- `connect` returns `Ok`. -/
  | connected (session : Nat)
  /-- `subscribe` or `publish` returns `Ok`. -/
  | completed (notify : Nat)
  deriving DecidableEq

/-- The signals among the outputs of a task. -/
def signals (n : Nat) (o : List (Client.Output Pk)) : List CallEvent :=
  o.filterMap fun out => match out with
    | .notified notify => some (.signalled n notify)
    | _ => none

def taskEvents (core : MqttCore M Pk) (qc : Quiche Q) (n : Nat) (c : Connection M Q Pk)
    (i : Client.Input) (o : List (Client.Output Pk)) : List CallEvent :=
  (c.handling i).toList.map (.handled n) ++
  (c.sending core qc i).toList.map (fun r => .sent n r.1 r.2.1 r.2.2) ++
  (c.storing i).toList.map (fun r => .stored n r.1 r.2.1 r.2.2) ++ signals n o

theorem signals_of_silent {n : Nat} {o : List (Client.Output Pk)} (h : Silent o) :
    signals n o = [] := by
  refine List.filterMap_eq_nil_iff.mpr fun out hout => ?_
  cases out with
  | notified notify => exact absurd hout (h.2 notify)
  | _ => rfl

/-- What a move of its task does to a session, with the events it logs. -/
inductive Turn (core : MqttCore M Pk) (n : Nat) (session session' : Session M Q Pk) :
    Client.Input → List (Client.Output Pk) → List CallEvent → Prop
  | quiet {i o} (queued : session'.queued = session.queued)
      (arm : session'.connection.pc.arm = session.connection.pc.arm)
      (current : session'.connection.currentRequest = session.connection.currentRequest)
      (silent : Silent o) : Turn core n session session' i o []
  /-- A packet that is no CONNACK and does not acknowledge the current request. -/
  | ignored {i o packet} (queued : session'.queued = session.queued)
      (arm : session'.connection.pc.arm = session.connection.pc.arm)
      (current : session'.connection.currentRequest = session.connection.currentRequest)
      (noConnack : ∀ reasonCode, packet ≠ .connack reasonCode)
      (unmatched : ∀ request id notify,
        session.connection.currentRequest = some (request, id, notify) →
          ¬ packet.Acknowledges request id)
      (silent : Silent o) : Turn core n session session' i o [.handled n packet]
  | connack {i reasonCode} (queued : session'.queued = session.queued)
      (arm : session'.connection.pc.arm = session.connection.pc.arm)
      (current : session'.connection.currentRequest = session.connection.currentRequest) :
      Turn core n session session' i [.connectNotified] [.handled n (.connack reasonCode)]
  | acknowledged {i packet request id notify} (queued : session'.queued = session.queued)
      (arm : session'.connection.pc.arm = session.connection.pc.arm)
      (before : session.connection.currentRequest = some (request, id, notify))
      (acknowledges : packet.Acknowledges request id)
      (after : session'.connection.currentRequest = none) :
      Turn core n session session' i [.notified notify] [.handled n packet, .signalled n notify]
  | sent {o request id notify} (queued : session.queued = notify :: session'.queued)
      (before : session.connection.pc.arm = none)
      (after : session'.connection.pc.arm = some (request, id, notify))
      (current : session'.connection.currentRequest = session.connection.currentRequest)
      (acquired : (core.acquirePacketId session.connection.mqttConn).1 = some id)
      (silent : Silent o) :
      Turn core n session session' (.request request notify) o [.sent n request id notify]
  /-- The arm fails, which ends the task. -/
  | lost {request o notify} (queued : session.queued = notify :: session'.queued)
      (before : session.connection.pc.arm = none) (after : session'.connection.pc.arm = none)
      (current : session'.connection.currentRequest = session.connection.currentRequest)
      (ended : ¬ session'.Running) (silent : Silent o) :
      Turn core n session session' (.request request notify) o []
  | stored {i request id notify} (queued : session'.queued = session.queued)
      (before : session.connection.pc.arm = some (request, id, notify))
      (after : session'.connection.pc.arm = none)
      (current : session'.connection.currentRequest = some (request, id, notify)) :
      Turn core n session session' i [] [.stored n request id notify]

/-- An acknowledgement of the current request takes it; any other leaves it. -/
theorem acknowledge_turn {n : Nat} {expects : Request → Bool} {packet : Packet} {packetId : UInt16}
    {session : Session M Q Pk} {i : Client.Input} {pc : Pc Pk}
    (harm : pc.arm = session.connection.pc.arm)
    (hconnack : ∀ reasonCode, packet ≠ .connack reasonCode)
    (hack : ∀ request id, packet.Acknowledges request id ↔ expects request = true ∧ id = packetId) :
    Turn core n session
      ⟨{ (acknowledge expects packetId session.connection).1 with pc := pc }, session.requests⟩ i
      (acknowledge expects packetId session.connection).2
      (.handled n packet :: signals n (acknowledge expects packetId session.connection).2) := by
  unfold acknowledge
  split
  · next request id notify hcurrent =>
    split
    · next hexp =>
      obtain ⟨hexpects, hid⟩ := Bool.and_eq_true_iff.mp hexp
      exact .acknowledged rfl harm hcurrent
        ((hack request id).mpr ⟨hexpects, beq_iff_eq.mp hid⟩) rfl
    · next hexp =>
      refine .ignored rfl harm rfl hconnack (fun request' id' notify' hcurrent' hmatch => hexp ?_)
        ⟨nofun, nofun⟩
      rw [hcurrent] at hcurrent'
      cases hcurrent'
      obtain ⟨hexpects, hid⟩ := (hack request id).mp hmatch
      rw [hexpects, hid, beq_self_eq_true]
      rfl
  · next hnone =>
    refine .ignored rfl harm rfl hconnack (fun request' id' notify' hcurrent' => ?_) ⟨nofun, nofun⟩
    rw [hnone] at hcurrent'
    cases hcurrent'

theorem packetReceived_turn {n : Nat} (packet : Packet) {session : Session M Q Pk}
    {i : Client.Input} {pc : Pc Pk} (harm : pc.arm = session.connection.pc.arm) :
    Turn core n session
      ⟨{ (packetReceived packet session.connection).1 with pc := pc }, session.requests⟩ i
      (packetReceived packet session.connection).2
      (.handled n packet :: signals n (packetReceived packet session.connection).2) := by
  cases packet with
  | connack reasonCode => exact .connack rfl harm rfl
  | puback id _ => exact acknowledge_turn harm nofun fun _ _ => Iff.rfl
  | pubrec id _ => exact acknowledge_turn harm nofun fun _ _ => Iff.rfl
  | suback id _ => exact acknowledge_turn harm nofun fun _ _ => Iff.rfl
  | publish topic qos payload =>
    exact .ignored rfl harm rfl nofun (fun _ _ _ _ h => h) ⟨by simp [packetReceived],
      by simp [packetReceived]⟩
  | pubcomp _ => exact .ignored rfl harm rfl nofun (fun _ _ _ _ h => h) ⟨nofun, nofun⟩
  | subscribe _ => exact .ignored rfl harm rfl nofun (fun _ _ _ _ h => h) ⟨nofun, nofun⟩
  | other _ => exact .ignored rfl harm rfl nofun (fun _ _ _ _ h => h) ⟨nofun, nofun⟩

/-- A request is taken: it is sent, or the task ends. -/
theorem request_turn {n : Nat} {request : Request} {notify : Nat} {session : Session M Q Pk}
    {requests : Chan (Request × Nat) 1} {c : Connection M Q Pk} {o : List (Client.Output Pk)}
    (hqueue : session.requests.queue = (request, notify) :: requests.queue)
    (h : Client.step core qc session.connection (.request request notify) = some (c, o)) :
    Turn core n session ⟨c, requests⟩ (.request request notify) o
      (taskEvents core qc n session.connection (.request request notify) o) := by
  have hqueued : session.queued = notify :: (⟨c, requests⟩ : Session M Q Pk).queued := by
    unfold Session.queued
    rw [hqueue]
    rfl
  have hevents : Silent o → taskEvents core qc n session.connection (.request request notify) o =
      c.pc.arm.toList.map fun r => .sent n r.1 r.2.1 r.2.2 := by
    intro hsilent
    have hhandling : session.connection.handling (.request request notify) = none := by
      unfold Connection.handling
      split
      · contradiction
      · rfl
    have hstoring : session.connection.storing (.request request notify) = none := by
      unfold Connection.storing
      split
      · contradiction
      · contradiction
      · rfl
    have hsending : session.connection.sending core qc (.request request notify) = c.pc.arm := by
      show (Client.step core qc session.connection (.request request notify)).bind _ = _
      rw [h]
      rfl
    simp [taskEvents, hhandling, hstoring, hsending, signals_of_silent hsilent]
  cases step_move h with
  | quiet _ _ frame before after _ ended out =>
    rw [hevents (silent_of_sent out), after.arm]
    exact .lost hqueued before.arm after.arm frame.2
      (fun hrunning => hrunning (ended request notify rfl)) (silent_of_sent out)
  | checkedSend _ _ _ frame before after _ starts =>
    rcases starts with ⟨-, hno⟩ | ⟨request', id, notify', hi, rfl⟩
    · exact absurd rfl (hno request notify)
    · cases hi
      have harm : c.pc.arm = some (request, id, notify) := by
        rw [after]
        rfl
      rw [hevents ⟨by simp, by simp⟩, harm]
      exact .sent hqueued before.arm harm frame.2 (sending_acquired h harm).1 ⟨by simp, by simp⟩

/-- **What a move of a task does**, with the events it logs. -/
theorem task_turn {n : Nat} {i : Client.Input} {session : Session M Q Pk}
    {requests : Chan (Request × Nat) 1} {c : Connection M Q Pk} {o : List (Client.Output Pk)}
    (htake : takeRequest i session.requests = some requests)
    (h : Client.step core qc session.connection i = some (c, o)) :
    Turn core n session ⟨c, requests⟩ i o (taskEvents core qc n session.connection i o) := by
  rcases takeRequest_eq_some htake with ⟨request, notify, rfl, hqueue⟩ | ⟨hreq, hrcv, hdrop, rfl⟩
  · exact request_turn hqueue h
  have hsending : session.connection.sending core qc i = none := by
    unfold Connection.sending
    split
    · next request notify => exact absurd rfl (hreq request notify)
    · rfl
  cases hhandling : session.connection.handling i with
  | some packet =>
    obtain ⟨rest, next, hpc, rfl, rfl, rfl⟩ := step_handling hhandling h
    have hstoring : session.connection.storing .step = none := by
      simp [Connection.storing, hpc]
    have hevents : taskEvents core qc n session.connection .step
        (packetReceived packet session.connection).2 =
          .handled n packet :: signals n (packetReceived packet session.connection).2 := by
      simp [taskEvents, hhandling, hsending, hstoring]
    rw [hevents]
    exact packetReceived_turn packet (by rw [hpc]; cases next <;> rfl)
  | none =>
    -- nothing is handled, so only a request's arm that ends logs an event
    have hquiet : Silent o → session.connection.storing i = none →
        taskEvents core qc n session.connection i o = [] := by
      intro hsilent hstoring
      simp [taskEvents, hhandling, hsending, hstoring, signals_of_silent hsilent]
    have hplain : session.connection.pc.Plain → session.connection.storing i = none := by
      intro hp
      unfold Connection.storing
      split
      · next hpc => rw [hpc] at hp; exact hp.elim
      · next hpc => rw [hpc] at hp; exact hp.elim
      · rfl
    cases step_move h with
    | quiet _ _ frame before after _ _ out =>
      rw [hquiet (silent_of_sent out) (hplain before)]
      exact .quiet rfl (after.arm.trans before.arm.symm) frame.2 (silent_of_sent out)
    | checkedSend _ _ _ frame before after _ starts =>
      rcases starts with ⟨rfl, -⟩ | ⟨request, id, notify, hi, -⟩
      · rw [hquiet ⟨by simp, by simp⟩ (hplain before)]
        refine .quiet rfl ?_ frame.2 ⟨by simp, by simp⟩
        rw [before.arm, after]
        rfl
      · exact absurd hi (hreq request notify)
    | recv before _ =>
      rw [hquiet ⟨by simp, by simp⟩ (hplain before)]
      exact .quiet rfl before.arm.symm rfl ⟨by simp, by simp⟩
    | @event event rest next c' o pc goes handled =>
      have hstoring : session.connection.storing .step = none := by
        unfold Connection.storing
        rw [pc]
        split
        · next heq _ => cases heq
        · next heq _ =>
          cases heq
          exact absurd rfl goes
        · rfl
      have harm : (Pc.handle rest next : Pc Pk).arm = session.connection.pc.arm := by
        rw [pc]
        cases next <;> rfl
      have hno : ∀ packet, event ≠ .notifyPacketReceived packet := by
        rintro packet rfl
        simp [Connection.handling, pc] at hhandling
      cases handled with
      | sends packet =>
        rw [hquiet ⟨by simp, by simp⟩ hstoring]
        exact .quiet rfl harm rfl ⟨by simp, by simp⟩
      | offers message => exact absurd rfl (hno _)
      | connects reasonCode => exact absurd rfl (hno _)
      | acknowledges _ _ => exact absurd rfl (hno _)
      | ignores _ _ =>
        rw [hquiet ⟨nofun, nofun⟩ hstoring]
        exact .quiet rfl harm rfl ⟨nofun, nofun⟩
    | @resume events next pc finished =>
      obtain ⟨pc', sent, hplain', -, heq⟩ := resume_eq qc next session.connection
      rw [heq]
      cases next with
      | request request id notify =>
        have hstoring : session.connection.storing .step = some (request, id, notify) := by
          rcases finished with rfl | ⟨rest, rfl⟩
          · simp [Connection.storing, pc]
          · simp [Connection.storing, pc]
        have hevents : taskEvents core qc n session.connection .step [] =
            [.stored n request id notify] := by
          simp [taskEvents, hhandling, hsending, hstoring, signals]
        rw [hevents]
        exact .stored rfl (by rw [pc]; rfl) hplain'.arm rfl
      | connected =>
        rw [hquiet ⟨nofun, nofun⟩ (by simp [Connection.storing, pc])]
        exact .quiet rfl (by rw [pc]; exact hplain'.arm) rfl ⟨nofun, nofun⟩
      | readStreams ids =>
        rw [hquiet ⟨nofun, nofun⟩ (by simp [Connection.storing, pc])]
        exact .quiet rfl (by rw [pc]; exact hplain'.arm) rfl ⟨nofun, nofun⟩
    | rcv _ => exact absurd rfl hrcv
    | dropReceiver => exact absurd rfl hdrop

/-- What a turn does to the places where requests are. -/
theorem Turn.requestMove {n : Nat} {session session' : Session M Q Pk} {i : Client.Input}
    {o : List (Client.Output Pk)} {es : List CallEvent} (h : Turn core n session session' i o es) :
    RequestMove session session' o := by
  have hcurrent : session'.connection.currentRequest = session.connection.currentRequest →
      session'.current = session.current := by
    intro heq
    unfold Session.current
    rw [heq]
  have harm : session'.connection.pc.arm = session.connection.pc.arm →
      session'.connection.pc.inArm = session.connection.pc.inArm := by
    intro heq
    rw [Pc.inArm_eq, Pc.inArm_eq, heq]
  cases h with
  | quiet queued arm current silent => exact .same queued (hcurrent current) (harm arm) silent.2
  | ignored queued arm current _ _ silent =>
    exact .same queued (hcurrent current) (harm arm) silent.2
  | connack queued arm current => exact .same queued (hcurrent current) (harm arm) (by simp)
  | @acknowledged i packet request id notify queued arm before _ after =>
    exact .acknowledge notify queued (by unfold Session.current; rw [before]; rfl)
      (by unfold Session.current; rw [after]; rfl) (harm arm) rfl
  | @sent o request id notify queued before after current _ silent =>
    exact .take notify queued (hcurrent current) (by rw [Pc.inArm_eq, before]; rfl)
      (by rw [Pc.inArm_eq, after]; rfl) silent.2
  | @lost request o notify queued before after current ended silent =>
    exact .lost notify queued (hcurrent current) (by rw [Pc.inArm_eq, before]; rfl)
      (by rw [Pc.inArm_eq, after]; rfl) ended silent.2
  | @stored i request id notify queued before after current =>
    exact .store notify queued (by rw [Pc.inArm_eq, before]; rfl)
      (by rw [Pc.inArm_eq, after]; rfl) (by unfold Session.current; rw [current]; rfl) (by simp)

/-- No call returns in a turn of a task. -/
theorem Turn.noReturn {n : Nat} {session session' : Session M Q Pk} {i : Client.Input}
    {o : List (Client.Output Pk)} {es : List CallEvent} (h : Turn core n session session' i o es) :
    (∀ m, .connected m ∉ es) ∧ ∀ notify, .completed notify ∉ es := by
  constructor
  · intro m hmem
    cases h <;> simp at hmem
  · intro notify hmem
    cases h <;> simp at hmem

end System

end MqttScion.Client
