import MqttScion.Client.Wire

/-!
# The client's send path: when no packet is cut short

Every packet the MQTT library asks to send goes through one line of
`handle_events`: its encoding is offered to stream 0 and what `stream_send`
answers, the number of bytes taken or an error, is dropped. The client has no
buffer for the bytes that were not taken, so "accepted or still held" can only
mean accepted.

> `sendPath_faithful_iff`: in every run, stream 0 has accepted exactly the
> packets offered so far, in order and in full, if and only if each of them
> fitted the window it met.
-/

namespace MqttScion.Client

open MqttScion.Net MqttScion.Lib

variable {M Q Pk : Type}

/-- The encodings of the packets handled so far, in event order. -/
def offered (os : List (Output Pk)) : Bytes :=
  os.flatMap fun o => match o with
    | .packet buffer => buffer
    | _ => []

theorem offered_append (os ps : List (Output Pk)) :
    offered (os ++ ps) = offered os ++ offered ps := List.flatMap_append

/-- Stream 0 has accepted every byte of every packet handled so far, in order,
and nothing else. -/
def Faithful (accepted : Q → Bytes) (os : List (Output Pk)) (s : Connection M Q Pk) : Prop :=
  accepted s.conn = offered os

/-- If the step handles a packet to be sent, stream 0 has room for it. -/
def PacketFits (core : MqttCore M Pk) (qc : Quiche Q) (_ : List (Output Pk))
    (s : Connection M Q Pk) (i : Input) : Prop :=
  ∀ packet, i = .step → s.pc.batch.head? = some (.requestSendPacket packet) →
    core.toContinuousBuffer packet = [] ∨ qc.Fits s.conn (core.toContinuousBuffer packet)

variable {core : MqttCore M Pk} {qc : Quiche Q} {accepted : Q → Bytes}

/-- What a step does to the two byte strings: it offers the packet at the head
of the batch to stream 0, or it touches neither. -/
theorem step_offers (law : StreamSendLaw qc accepted) {s s' : Connection M Q Pk} {i : Input}
    {o : List (Output Pk)} (h : step core qc s i = some (s', o)) :
    (∃ packet, i = .step ∧ s.pc.batch.head? = some (.requestSendPacket packet) ∧
      s'.conn = (qc.streamSend s.conn 0 (core.toContinuousBuffer packet) false).2 ∧
      offered o = core.toContinuousBuffer packet) ∨
    ((∀ packet, i = .step → s.pc.batch.head? ≠ some (.requestSendPacket packet)) ∧
      accepted s'.conn = accepted s.conn ∧ offered o = []) := by
  cases step_move h with
  | quiet conn _ _ before _ _ _ out =>
    refine .inr ⟨fun packet _ => by rw [before.batch]; nofun, law.call conn, ?_⟩
    refine List.flatMap_eq_nil_iff.mpr fun x hx => ?_
    obtain ⟨data, dst, rfl⟩ := out x hx
    rfl
  | checkedSend conn _ _ _ before _ _ _ =>
    exact .inr ⟨fun packet _ => by rw [before.batch]; nofun, law.call conn, rfl⟩
  | recv before _ =>
    exact .inr ⟨fun packet _ => by rw [before.batch]; nofun, law.streamRecv s.conn 0, rfl⟩
  | @event event rest next s' o pc _ handled =>
    have hhead : s.pc.batch.head? = some event := by rw [pc]; rfl
    have hquiet : (∀ packet, event ≠ .requestSendPacket packet) →
        ∀ packet, Input.step = .step → s.pc.batch.head? ≠ some (.requestSendPacket packet) := by
      intro hne packet _ hp
      rw [hhead] at hp
      exact hne packet (Option.some.inj hp)
    cases handled with
    | sends packet => exact .inl ⟨packet, rfl, hhead, rfl, List.append_nil _⟩
    | offers message => exact .inr ⟨hquiet nofun, rfl, rfl⟩
    | connects reasonCode => exact .inr ⟨hquiet nofun, rfl, rfl⟩
    | acknowledges current _ => exact .inr ⟨hquiet nofun, rfl, rfl⟩
    | ignores noSend _ => exact .inr ⟨hquiet noSend, rfl, rfl⟩
  | @resume events next pc finished =>
    obtain ⟨_, _, -, -, heq⟩ := resume_eq qc next s
    refine .inr ⟨fun packet _ hp => ?_, by rw [heq], rfl⟩
    -- the batch is empty or stops at a `RequestClose`: no packet is at its head
    rw [pc] at hp
    rcases finished with rfl | ⟨rest, rfl⟩
    · cases hp
    · cases hp
  | rcv _ => exact .inr ⟨fun packet hi => (nomatch hi), rfl, rfl⟩
  | dropReceiver => exact .inr ⟨fun packet hi => (nomatch hi), rfl, rfl⟩

/-- Stream 0 never runs ahead of the client. -/
theorem step_accepted_le (law : StreamSendLaw qc accepted) {os o : List (Output Pk)}
    {s s' : Connection M Q Pk} {i : Input} (h : step core qc s i = some (s', o))
    (hle : (accepted s.conn).length ≤ (offered os).length) :
    (accepted s'.conn).length ≤ (offered (os ++ o)).length := by
  rw [offered_append, List.length_append]
  rcases step_offers law h with ⟨packet, -, -, hconn, hoff⟩ | ⟨-, hacc, hoff⟩
  · have hsend := law.accepted_length_le s.conn (core.toContinuousBuffer packet)
    rw [hconn, hoff]
    omega
  · rw [hacc, hoff]
    show _ ≤ _ + 0
    omega

/-- A step keeps the stream faithful exactly when the packet it handles, if
any, fits. -/
theorem step_faithful_iff (law : StreamSendLaw qc accepted) {os o : List (Output Pk)}
    {s s' : Connection M Q Pk} {i : Input} (h : step core qc s i = some (s', o))
    (hle : (accepted s.conn).length ≤ (offered os).length) :
    Faithful accepted (os ++ o) s' ↔ Faithful accepted os s ∧ PacketFits core qc os s i := by
  unfold Faithful
  rw [offered_append]
  rcases step_offers law h with ⟨packet, hi, hhead, hconn, hoff⟩ | ⟨hno, hacc, hoff⟩
  · rw [hconn, hoff, law.accepted_eq_iff hle]
    refine and_congr_right fun _ => ⟨fun hfits packet' _ hhead' => ?_, fun hC => hC packet hi hhead⟩
    rw [hhead, Option.some.injEq, Event.requestSendPacket.injEq] at hhead'
    rw [← hhead']
    exact hfits
  · rw [hacc, hoff, List.append_nil]
    exact ⟨fun hP => ⟨hP, fun packet hi hhead => absurd hhead (hno packet hi)⟩, fun hP => hP.1⟩

/-- **When the send path is faithful**: in every run of the connection task,
the bytes stream 0 accepted are the concatenation, in event order, of the
packets handled so far, if and only if every packet fitted the window it
met. -/
theorem sendPath_faithful_iff (law : StreamSendLaw qc accepted) {remote localAddr : ScionAddr}
    {clientId : String} {conn : Q} (hempty : accepted conn = []) {is : List Input}
    {s : Connection M Q Pk} {os : List (Output Pk)}
    (hr : run (step core qc) (Connection.new core remote localAddr clientId conn) is =
      some (s, os)) :
    Faithful accepted os s ↔
      AllSteps (step core qc) (PacketFits core qc) []
        (Connection.new core remote localAddr clientId conn) is := by
  refine @run_iff _ _ _ (step core qc) (PacketFits core qc)
    (fun os s => (accepted s.conn).length ≤ (offered os).length) (Faithful accepted)
    is os _ s ?_ ?_ ?_ ?_ hr
  · show (accepted conn).length ≤ 0
    rw [hempty]
    exact Nat.le_refl _
  · exact hempty
  · intro os s i s' o hle h
    exact step_accepted_le law h hle
  · intro os s i s' o hle h
    exact step_faithful_iff law h hle

/-- The handshake, a datagram that reopens the window, and a request. -/
private def connectThenSubscribe : List Input :=
  connectInputs ++ [.datagram [0xd0, 0] peerAddr] ++ List.replicate 7 .step ++
    [.request (.subscribe "t") 0] ++ List.replicate 4 .step

theorem sendPath_faithful_iff_sample :
    ∃ s os, run (step wireCore peerQuiche) (peerClient 100) connectThenSubscribe = some (s, os) ∧
      (Faithful Peer.accepted os s ↔
        AllSteps (step wireCore peerQuiche) (PacketFits wireCore peerQuiche) [] (peerClient 100)
          connectThenSubscribe) :=
  ⟨_, _, rfl, sendPath_faithful_iff peerQuiche_law rfl rfl⟩

/-- With a window of ten bytes the CONNECT packet is cut short and the next
packet follows it on the stream, while the client is at its loop head as if
both had been sent. -/
theorem packet_cut_short :
    StreamSendLaw peerQuiche Peer.accepted ∧
    ∃ s os, run (step wireCore peerQuiche) (peerClient 10) connectThenSubscribe = some (s, os) ∧
      s.pc = .select ∧ ¬ s.conn.accepted <+: offered os ∧
      ∃ connect subscribe, os.filterMap (fun o => match o with | .packet b => some b | _ => none) =
          [connect, subscribe] ∧
        connect.length = 17 ∧ s.conn.accepted = connect.take 10 ++ subscribe :=
  ⟨peerQuiche_law, _, _, rfl, rfl, by decide, _, _, rfl, rfl, rfl⟩

end MqttScion.Client
