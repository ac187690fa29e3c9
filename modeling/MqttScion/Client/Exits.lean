import MqttScion.Client.Connection

/-!
# The exits of the connection task

`connection_handling` returns at every `?`, at the `break` behind `is_closed`
and at every `unwrap` that panics. `Exits` lists them, by where the task is and
what it meets there: the answer of the library it calls and the outcome of what
it awaits.

> `taskStep_ended_iff`: a step ends the task exactly when it is listed.
-/

namespace MqttScion.Client

open MqttScion.Net MqttScion.Lib

variable {M Q Pk : Type}

/-- `process_udp_packet` fails: an address without IP, `recv`, or the CONNECT
packet cannot be built. -/
def DatagramExits (core : MqttCore M Pk) (qc : Quiche Q) (s : Connection M Q Pk) (data : Bytes)
    (src : ScionAddr) : Prop :=
  match src.localAddress, s.localAddr.localAddress with
  | some src, some dst =>
    match qc.recv s.conn data ⟨src, dst⟩ with
    | (.error _, _) => True
    | (.ok _, conn) =>
      qc.isEstablished conn = true ∧ s.mqttInitSent = false ∧
        (core.connectClientId s.clientId = true → core.connectBuild s.clientId = none)
  | _, _ => True

/-- The arm of a request fails: the topic is refused, there is no packet
identifier, or the packet cannot be built. -/
def RequestExits (core : MqttCore M Pk) (m : M) (request : Request) : Prop :=
  match request with
  | .subscribe topic =>
    core.subEntry topic .atLeastOnce = true → ∀ id, (core.acquirePacketId m).1 = some id →
      core.subscribeBuild id topic .atLeastOnce = none
  | .publish message =>
    core.publishTopicName message.topic = true → ∀ id, (core.acquirePacketId m).1 = some id →
      core.publishBuild id message = none

/-- The ways the task ends, by where it is and what it meets there. -/
def Exits (core : MqttCore M Pk) (qc : Quiche Q) (s : Connection M Q Pk) (i : Input) : Prop :=
  match s.pc, i with
  | .initialSend, .step => ∃ e, (qc.send s.conn).1 = .error e
  | .initialSendTo _ _, .sent ok => ok = false
  | .select, .keepalive =>
    qc.isEstablished s.conn = true ∧ ∃ e, (qc.sendAckEliciting s.conn).1 = .error e
  | .select, .datagram data src => DatagramExits core qc s data src
  | .select, .request request _ => RequestExits core s.mqttConn request
  | .checkClosed, .step => qc.isClosed s.conn = true
  | .sendTo _ _, .sent ok => ok = false
  | _, _ => False

/-- The task has returned. -/
def Pc.Ended (pc : Pc Pk) : Prop := ∃ r, pc = .ended r

variable {core : MqttCore M Pk} {qc : Quiche Q} {s s' : Connection M Q Pk}

/-- CONNECT ends the task when it cannot be built, or its client ID is refused. -/
theorem sendConnect_ended :
    (sendConnect core s).1.pc.Ended ↔
      (core.connectClientId s.clientId = true → core.connectBuild s.clientId = none) := by
  unfold sendConnect
  split
  · next hid =>
    split
    · next hbuild => simp [Pc.Ended, hbuild]
    · next packet hbuild => simp [Pc.Ended, hid, hbuild]
  · next hid => simp [Pc.Ended, hid]

/-- `process_udp_packet` ends the task as `DatagramExits` says. -/
theorem processUdpPacket_ended {data : Bytes} {src : ScionAddr} :
    (processUdpPacket core qc data src s).1.pc.Ended ↔ DatagramExits core qc s data src := by
  unfold processUdpPacket DatagramExits
  cases src.localAddress with
  | none => simp [Pc.Ended]
  | some ip =>
    cases s.localAddr.localAddress with
    | none => simp [Pc.Ended]
    | some dst =>
      simp only
      split
      · next e herr =>
        have hpair : qc.recv s.conn data ⟨ip, dst⟩ =
            (.error e, (qc.recv s.conn data ⟨ip, dst⟩).2) := Prod.ext herr rfl
        rw [hpair]
        simp [Pc.Ended]
      · next k hok =>
        have hpair : qc.recv s.conn data ⟨ip, dst⟩ =
            (.ok k, (qc.recv s.conn data ⟨ip, dst⟩).2) := Prod.ext hok rfl
        rw [hpair]
        simp only
        split
        · next hnew =>
          obtain ⟨hest, hinit⟩ := Bool.and_eq_true_iff.mp hnew
          rw [sendConnect_ended]
          simp only [Bool.not_eq_true'] at hinit
          simp [hest, hinit]
        · next hold =>
          -- the CONNECT packet is out already, or the handshake is not done
          obtain ⟨pc, heq, -, hrunning⟩ :=
            readable_eq qc { s with conn := (qc.recv s.conn data ⟨ip, dst⟩).2 }
          rw [heq]
          refine ⟨fun ⟨r, hr⟩ => absurd hr (hrunning r), fun ⟨hest, hinit, _⟩ => absurd ?_ hold⟩
          rw [hest, hinit]
          rfl

/-- A request ends the task when it gets no packet identifier, or its packet cannot
be built. -/
theorem sendRequest_ended {build : UInt16 → Option Pk} {fault : Fault} {request : Request}
    {notify : Nat} :
    (sendRequest core build fault request notify s).1.pc.Ended ↔
      ∀ id, (core.acquirePacketId s.mqttConn).1 = some id → build id = none := by
  unfold sendRequest
  simp only
  split
  · next hnone => simp [Pc.Ended, hnone]
  · next id hid =>
    split
    · next hbuild => simp [Pc.Ended, hid, hbuild]
    · next packet hbuild => simp [Pc.Ended, hid, hbuild]

/-- The arm of a request ends the task as `RequestExits` says. -/
theorem onRequest_ended {request : Request} {notify : Nat} :
    (onRequest core request notify s).1.pc.Ended ↔ RequestExits core s.mqttConn request := by
  unfold onRequest RequestExits
  split
  · split
    · next hentry => rw [sendRequest_ended]; simp [hentry]
    · next hentry => simp [Pc.Ended, hentry]
  · split
    · next htopic => rw [sendRequest_ended]; simp [htopic]
    · next htopic => simp [Pc.Ended, htopic]

/-- The first `send` must succeed. -/
theorem initialSend_ended :
    (initialSend qc s).pc.Ended ↔ ∃ e, (qc.send s.conn).1 = .error e := by
  unfold initialSend
  simp only
  split
  · next hok => simp [Pc.Ended, hok]
  · next e herr => simp [Pc.Ended, herr]

/-- The keepalive ends the task where `send_ack_eliciting` fails. -/
theorem keepalive_ended :
    (keepalive qc s).pc.Ended ↔
      qc.isEstablished s.conn = true ∧ ∃ e, (qc.sendAckEliciting s.conn).1 = .error e := by
  unfold keepalive
  split
  · next hest =>
    simp only
    split
    · next hok => simp [Pc.Ended, hok]
    · next e herr => simp [Pc.Ended, hest, herr]
  · next hest => simp [Pc.Ended, hest]

/-- Neither the batch nor the streams nor the send loop is a way out. -/
theorem handleEvents_running {events : List (Event Pk)} {next : Next} :
    ¬ (handleEvents core qc events next s).1.pc.Ended := by
  rintro ⟨r, hr⟩
  obtain ⟨_, _, -, hrunning, heq⟩ := resume_eq qc next s
  unfold handleEvents at hr
  split at hr
  · rw [heq] at hr
    exact hrunning r hr
  · rw [heq] at hr
    exact hrunning r hr
  · cases hr

/-- Reading the streams never ends the task. -/
theorem readStreams_running {ids : List Nat} :
    ¬ (readStreams core qc ids s).1.pc.Ended := by
  rintro ⟨r, hr⟩
  unfold readStreams at hr
  split at hr
  · cases hr
  · split at hr
    · cases hr
    · simp only at hr
      split at hr
      · cases hr
      · cases hr

/-- A round of the send loop never ends the task. -/
theorem sendPending_running : ¬ (sendPending qc s).pc.Ended := by
  rintro ⟨r, hr⟩
  unfold sendPending at hr
  simp only at hr
  split at hr
  · cases hr
  · cases hr

/-- **The exits are all of them**: a step of the task ends it exactly when it
is listed in `Exits`. -/
theorem taskStep_ended_iff {i : Input} {o : List (Output Pk)}
    (h : taskStep core qc s i = some (s', o)) : s'.pc.Ended ↔ Exits core qc s i := by
  have hfst : ∀ {r : Connection M Q Pk × List (Output Pk)}, some r = some (s', o) →
      s' = r.1 := fun hr => (congrArg Prod.fst (Option.some.inj hr)).symm
  unfold taskStep at h
  unfold Exits
  split at h
  · next hpc =>
    rw [hfst h, hpc]
    exact initialSend_ended
  · next data dst ok hpc =>
    rw [hpc]
    split at h
    · next hok => rw [hfst h]; simp [Pc.Ended, hok]
    · next hok => rw [hfst h]; simp [Pc.Ended, hok]
  · next hpc =>
    rw [hfst h, hpc]
    simp [Pc.Ended]
  · next hpc =>
    rw [hfst h, hpc]
    exact keepalive_ended
  · next data src hpc =>
    rw [hpc]
    split at h
    · rw [hfst h]
      exact processUdpPacket_ended
    · cases h
  · next request notify hpc =>
    rw [hfst h, hpc]
    exact onRequest_ended
  · next events next hpc =>
    rw [hfst h, hpc]
    exact ⟨handleEvents_running, False.elim⟩
  · next ids hpc =>
    rw [hfst h, hpc]
    exact ⟨readStreams_running, False.elim⟩
  · next hpc =>
    rw [hpc]
    split at h
    · next hclosed => rw [hfst h]; simp [Pc.Ended, hclosed]
    · next hclosed => rw [hfst h]; simp [Pc.Ended, hclosed]
  · next hpc =>
    rw [hfst h, hpc]
    exact ⟨sendPending_running, False.elim⟩
  · next data dst ok hpc =>
    rw [hpc]
    split at h
    · next hok => rw [hfst h]; simp [Pc.Ended, hok]
    · next hok => rw [hfst h]; simp [Pc.Ended, hok]
  · cases h

end MqttScion.Client
