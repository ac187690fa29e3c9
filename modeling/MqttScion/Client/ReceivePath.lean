import MqttScion.Client.Wire

/-!
# The client's receive path: when the cut into chunks does not matter

Every chunk `stream_recv` returns gets a cursor of its own, and `recv` of the
MQTT library is called on it once. What the cursor has left is dropped with it.
A library that returns after one complete packet therefore never sees the
packets that follow it in the same chunk.

The account is kept in three logs: the bytes read, the bytes left behind and
the packets handed to `handle_events`. As long as nothing was left behind the
library's partial packet is the unfinished rest of the stream
(`step_pending`), and then one call takes a whole chunk exactly when no packet
ends strictly inside it:

> `receivePath_iff`: under the cursor contract, a run in which no packet ends
> strictly inside a chunk hands over all complete packets of the stream,
> however it was cut; and if the library does return after its first packet,
> then only such a run does.
-/

namespace MqttScion.Client

open MqttScion.Net MqttScion.Lib

variable {M Q Pk : Type}

/-- What `stream_recv` returned so far. -/
def chunkBytes (os : List (Output Pk)) : Bytes :=
  os.flatMap fun o => match o with
    | .recv chunk _ _ => chunk
    | _ => []

/-- What was left in the cursors. -/
def unread (os : List (Output Pk)) : Bytes :=
  os.flatMap fun o => match o with
    | .recv chunk consumed _ => chunk.drop consumed
    | _ => []

/-- The packets handed to `handle_events`. -/
def receivedPackets (os : List (Output Pk)) : List Packet :=
  os.flatMap fun o => match o with
    | .recv _ _ events => notifiedPackets events
    | _ => []

theorem chunkBytes_append (os ps : List (Output Pk)) :
    chunkBytes (os ++ ps) = chunkBytes os ++ chunkBytes ps := List.flatMap_append

theorem unread_append (os ps : List (Output Pk)) :
    unread (os ++ ps) = unread os ++ unread ps := List.flatMap_append

theorem receivedPackets_append (os ps : List (Output Pk)) :
    receivedPackets (os ++ ps) = receivedPackets os ++ receivedPackets ps := List.flatMap_append

/-- The packets handed over are all complete packets of the stream, in order,
and no byte was left behind. -/
structure Delivered (F : Framing UInt8) (parse : Bytes → Option Packet)
    (os : List (Output Pk)) : Prop where
  packets : receivedPackets os = (F.frames (chunkBytes os)).1.filterMap parse
  unread : unread os = []

/-- If the step reads a chunk, no packet of the stream ends strictly inside it. -/
def ChunkAligned (F : Framing UInt8) (qc : Quiche Q) (os : List (Output Pk))
    (s : Connection M Q Pk) (i : Input) : Prop :=
  ∀ chunk, i = .step → s.nextChunk qc = some chunk → F.Aligned (chunkBytes os) chunk

variable {core : MqttCore M Pk} {qc : Quiche Q} {F : Framing UInt8}
  {parse : Bytes → Option Packet} {pending : M → Bytes} {completed : M → Bytes → List Bytes}

/-- An acquired packet identifier leaves the partial packet alone. -/
theorem RecvLaw.acquired (law : RecvLaw core F parse pending completed) {m m' : M}
    (h : Acquired core m m') : pending m' = pending m := by
  rcases h with rfl | rfl
  · rfl
  · exact law.acquirePacketId m

/-- The log of a step that reads nothing. -/
structure ReadsNothing (o : List (Output Pk)) : Prop where
  chunkBytes : chunkBytes o = []
  unread : unread o = []
  packets : receivedPackets o = []

/-- Outputs of another kind read nothing. -/
theorem readsNothing_of {o : List (Output Pk)}
    (h : ∀ x ∈ o, ∀ chunk consumed events, x ≠ .recv chunk consumed events) : ReadsNothing o := by
  refine ⟨List.flatMap_eq_nil_iff.mpr ?_, List.flatMap_eq_nil_iff.mpr ?_,
    List.flatMap_eq_nil_iff.mpr ?_⟩
  all_goals
    intro x hx
    split
    · exact absurd rfl (h _ hx _ _ _)
    · rfl

/-- Handling an event reads nothing and leaves the library alone. -/
theorem Handled.reads {event : Event Pk} {s s' : Connection M Q Pk} {o : List (Output Pk)}
    (h : Handled core qc s event s' o) : s'.mqttConn = s.mqttConn ∧ ReadsNothing o := by
  cases h with
  | sends packet => exact ⟨rfl, rfl, rfl, rfl⟩
  | offers message => exact ⟨rfl, rfl, rfl, rfl⟩
  | connects reasonCode => exact ⟨rfl, rfl, rfl, rfl⟩
  | acknowledges current _ => exact ⟨rfl, rfl, rfl, rfl⟩
  | ignores _ _ => exact ⟨rfl, rfl, rfl, rfl⟩

/-- What a step does to the receive side: it feeds one chunk to the library, or
it reads nothing and leaves the partial packet alone. -/
theorem step_reads (law : RecvLaw core F parse pending completed) {s s' : Connection M Q Pk}
    {i : Input} {o : List (Output Pk)} (h : step core qc s i = some (s', o)) :
    (∃ chunk, i = .step ∧ s.nextChunk qc = some chunk ∧
      s'.mqttConn = (core.recv s.mqttConn chunk).2.2 ∧
      o = [.recv chunk (core.recv s.mqttConn chunk).2.1 (core.recv s.mqttConn chunk).1]) ∨
    ((∀ chunk, i = .step → s.nextChunk qc ≠ some chunk) ∧
      pending s'.mqttConn = pending s.mqttConn ∧ ReadsNothing o) := by
  cases step_move h with
  | quiet _ mqttConn _ _ _ idle _ out =>
    refine .inr ⟨fun chunk _ => by rw [idle]; nofun, law.acquired mqttConn,
      readsNothing_of fun x hx chunk consumed events hrecv => ?_⟩
    obtain ⟨data, dst, hsent⟩ := out x hx
    rw [hsent] at hrecv
    cases hrecv
  | checkedSend _ acquired mqttConn _ _ _ idle _ =>
    refine .inr ⟨fun chunk _ => by rw [idle]; nofun, ?_, ⟨rfl, rfl, rfl⟩⟩
    rw [mqttConn, law.checkedSend, law.acquired acquired]
  | recv _ reads => exact .inl ⟨_, rfl, reads, rfl, rfl⟩
  | event pc _ handled =>
    obtain ⟨hconn, hreads⟩ := handled.reads
    refine .inr ⟨fun chunk _ => ?_, congrArg pending hconn, hreads⟩
    rw [nextChunk_eq_none (by rw [pc]; nofun)]
    nofun
  | @resume events next pc _ =>
    obtain ⟨_, _, -, -, heq⟩ := resume_eq qc next s
    refine .inr ⟨fun chunk _ => ?_, by rw [heq], ⟨rfl, rfl, rfl⟩⟩
    rw [nextChunk_eq_none (by rw [pc]; nofun)]
    nofun
  | rcv _ => exact .inr ⟨fun chunk hi => (nomatch hi), rfl, ⟨rfl, rfl, rfl⟩⟩
  | dropReceiver => exact .inr ⟨fun chunk hi => (nomatch hi), rfl, ⟨rfl, rfl, rfl⟩⟩

/-- While nothing was left behind, the library holds the unfinished rest of the
stream and everything before it was handed over. -/
structure InStep (F : Framing UInt8) (parse : Bytes → Option Packet) (pending : M → Bytes)
    (os : List (Output Pk)) (s : Connection M Q Pk) : Prop where
  pending : pending s.mqttConn = (F.frames (chunkBytes os)).2
  packets : receivedPackets os = (F.frames (chunkBytes os)).1.filterMap parse

/-- A chunk is left without a rest exactly when the cursor is at its end. -/
theorem drop_consumed_eq_nil (law : RecvLaw core F parse pending completed) (m : M)
    (chunk : Bytes) :
    chunk.drop (core.recv m chunk).2.1 = [] ↔ (core.recv m chunk).2.1 = chunk.length := by
  have hle : (core.recv m chunk).2.1 ≤ chunk.length := law.parser.consumed_le m chunk
  rw [List.drop_eq_nil_iff]
  omega

/-- A step that leaves nothing behind keeps the library in step with the
stream. -/
theorem step_inStep (law : RecvLaw core F parse pending completed) {os o : List (Output Pk)}
    {s s' : Connection M Q Pk} {i : Input} (h : step core qc s i = some (s', o))
    (hin : unread os = [] → InStep F parse pending os s) :
    unread (os ++ o) = [] → InStep F parse pending (os ++ o) s' := by
  intro hunread
  rw [unread_append, List.append_eq_nil_iff] at hunread
  obtain ⟨hpend, hpackets⟩ := hin hunread.1
  -- a chunk read to its end completes the frames of the longer stream
  rcases step_reads law h with ⟨chunk, -, -, hconn, rfl⟩ | ⟨-, hsame, hno⟩
  · have hdrop : chunk.drop (core.recv s.mqttConn chunk).2.1 = [] := by
      have hlog := hunread.2
      unfold unread at hlog
      rwa [List.flatMap_singleton] at hlog
    have hall := (drop_consumed_eq_nil law s.mqttConn chunk).mp hdrop
    obtain ⟨hframes, hrest⟩ := law.parser.feed_all hpend hall
    have hbytes : chunkBytes (os ++ [.recv chunk (core.recv s.mqttConn chunk).2.1
        (core.recv s.mqttConn chunk).1]) = chunkBytes os ++ chunk := by
      rw [chunkBytes_append]
      show _ ++ (chunk ++ []) = _
      rw [List.append_nil]
    constructor
    · rw [hbytes, hconn]
      exact hrest
    · rw [hbytes, receivedPackets_append, hframes, List.filterMap_append, hpackets]
      show _ ++ (notifiedPackets (core.recv s.mqttConn chunk).1 ++ []) = _
      rw [List.append_nil, law.notified]
  · constructor
    · rw [hsame, chunkBytes_append, hno.chunkBytes, List.append_nil]
      exact hpend
    · rw [receivedPackets_append, chunkBytes_append, hno.packets, hno.chunkBytes, List.append_nil,
        List.append_nil]
      exact hpackets

/-- A step whose chunk, if any, is aligned leaves nothing behind. -/
theorem step_unread_of_aligned (law : RecvLaw core F parse pending completed)
    {os o : List (Output Pk)} {s s' : Connection M Q Pk} {i : Input}
    (h : step core qc s i = some (s', o)) (hin : InStep F parse pending os s)
    (hC : ChunkAligned F qc os s i) : unread o = [] := by
  rcases step_reads law h with ⟨chunk, hi, hchunk, -, rfl⟩ | ⟨-, -, hno⟩
  · have hall : (core.recv s.mqttConn chunk).2.1 = chunk.length :=
      law.parser.aligned_consumes hin.pending (hC chunk hi hchunk)
    unfold unread
    rw [List.flatMap_singleton]
    exact (drop_consumed_eq_nil law s.mqttConn chunk).mpr hall
  · exact hno.unread

/-- With a library that returns after its first packet, only such a step
does. -/
theorem step_aligned_of_unread (law : RecvLaw core F parse pending completed)
    (hs : Strict F (fun m chunk => (completed m chunk, (core.recv m chunk).2.1,
      (core.recv m chunk).2.2)) pending)
    {os o : List (Output Pk)} {s s' : Connection M Q Pk} {i : Input}
    (h : step core qc s i = some (s', o)) (hin : InStep F parse pending os s)
    (hunread : unread o = []) : ChunkAligned F qc os s i := by
  intro chunk hi hchunk
  rcases step_reads law h with ⟨chunk', -, hchunk', -, rfl⟩ | ⟨hno, -, -⟩
  · rw [hchunk'] at hchunk
    cases hchunk
    unfold unread at hunread
    rw [List.flatMap_singleton] at hunread
    exact hs.aligned_of_consumes hin.pending
      ((drop_consumed_eq_nil law s.mqttConn chunk).mp hunread)
  · exact absurd hchunk (hno chunk hi)

section Runs

variable {remote localAddr : ScionAddr} {clientId : String} {conn : Q} {is : List Input}
  {s : Connection M Q Pk} {os : List (Output Pk)}

/-- The fresh task is in step with the empty stream. -/
theorem inStep_new (law : RecvLaw core F parse pending completed) (remote localAddr : ScionAddr)
    (clientId : String) (conn : Q) :
    InStep F parse pending [] (Connection.new core remote localAddr clientId conn) := by
  constructor
  · show pending core.new = (F.frames []).2
    rw [law.new, F.frames_of_none F.next_nil]
  · show [] = (F.frames []).1.filterMap parse
    rw [F.frames_of_none F.next_nil]
    rfl

/-- In every run: what was delivered completely is decided by what was left
behind. -/
theorem run_inStep (law : RecvLaw core F parse pending completed)
    (hr : run (step core qc) (Connection.new core remote localAddr clientId conn) is =
      some (s, os)) :
    unread os = [] → InStep F parse pending os s := by
  refine @run_induct _ _ _ _ (fun os s => unread os = [] → InStep F parse pending os s)
    _ _ _ _ ?_ ?_ hr
  · intro _
    exact inStep_new law remote localAddr clientId conn
  · intro os s i s' o hin h
    exact step_inStep law h hin

theorem delivered_iff_unread (law : RecvLaw core F parse pending completed)
    (hr : run (step core qc) (Connection.new core remote localAddr clientId conn) is =
      some (s, os)) :
    Delivered F parse os ↔ unread os = [] :=
  ⟨fun h => h.unread, fun h => ⟨(run_inStep law hr h).packets, h⟩⟩

/-- Aligned chunks leave nothing behind. -/
theorem run_unread_of_aligned (law : RecvLaw core F parse pending completed)
    (hr : run (step core qc) (Connection.new core remote localAddr clientId conn) is =
      some (s, os))
    (hC : AllSteps (step core qc) (ChunkAligned F qc) []
      (Connection.new core remote localAddr clientId conn) is) :
    unread os = [] := by
  have hrun := @run_induct_of_steps _ _ _ (step core qc) (ChunkAligned F qc)
    (fun os s => unread os = [] ∧ InStep F parse pending os s) ?_ is [] os _ s
    ⟨rfl, inStep_new law remote localAddr clientId conn⟩ hC hr
  · exact hrun.1
  · intro os s i s' o ⟨hunread, hin⟩ hC h
    have hnil : unread (os ++ o) = [] := by
      rw [unread_append, hunread, step_unread_of_aligned law h hin hC]
      rfl
    exact ⟨hnil, step_inStep law h (fun _ => hin) hnil⟩

/-- With a library that returns after its first packet, nothing is left behind
only if every chunk was aligned. -/
theorem run_aligned_of_unread (law : RecvLaw core F parse pending completed)
    (hs : Strict F (fun m chunk => (completed m chunk, (core.recv m chunk).2.1,
      (core.recv m chunk).2.2)) pending)
    (hr : run (step core qc) (Connection.new core remote localAddr clientId conn) is =
      some (s, os)) :
    unread os = [] ↔ AllSteps (step core qc) (ChunkAligned F qc) []
      (Connection.new core remote localAddr clientId conn) is := by
  refine @run_iff _ _ _ (step core qc) (ChunkAligned F qc)
    (fun os s => unread os = [] → InStep F parse pending os s) (fun os _ => unread os = [])
    is os _ s ?_ rfl ?_ ?_ hr
  · intro _
    exact inStep_new law remote localAddr clientId conn
  · intro os s i s' o hin h
    exact step_inStep law h hin
  · intro os s i s' o hin h
    rw [unread_append, List.append_eq_nil_iff]
    refine and_congr_right fun hnil => ?_
    exact ⟨step_aligned_of_unread law hs h (hin hnil), step_unread_of_aligned law h (hin hnil)⟩

end Runs

/-- **When the receive path does not depend on the cut**: under the cursor
contract, a run in which no packet ends strictly inside a chunk delivers, and
with a library that returns after its first packet only such a run does. Two
such runs that read the same stream hand over the same packets, however each
was cut. -/
theorem receivePath_iff (law : RecvLaw core F parse pending completed)
    {remote localAddr : ScionAddr} {clientId : String} {conn : Q} {is : List Input}
    {s : Connection M Q Pk} {os : List (Output Pk)}
    (hr : run (step core qc) (Connection.new core remote localAddr clientId conn) is =
      some (s, os)) :
    (AllSteps (step core qc) (ChunkAligned F qc) []
        (Connection.new core remote localAddr clientId conn) is → Delivered F parse os) ∧
    (Strict F (fun m chunk => (completed m chunk, (core.recv m chunk).2.1,
        (core.recv m chunk).2.2)) pending →
      (Delivered F parse os ↔ AllSteps (step core qc) (ChunkAligned F qc) []
        (Connection.new core remote localAddr clientId conn) is)) ∧
    (∀ (conn' : Q) is' s' os',
      run (step core qc) (Connection.new core remote localAddr clientId conn') is' =
        some (s', os') → chunkBytes os' = chunkBytes os →
      AllSteps (step core qc) (ChunkAligned F qc) []
        (Connection.new core remote localAddr clientId conn) is →
      AllSteps (step core qc) (ChunkAligned F qc) []
        (Connection.new core remote localAddr clientId conn') is' →
      receivedPackets os' = receivedPackets os) := by
  have hdelivers : ∀ (conn : Q) is s os,
      run (step core qc) (Connection.new core remote localAddr clientId conn) is = some (s, os) →
      AllSteps (step core qc) (ChunkAligned F qc) []
        (Connection.new core remote localAddr clientId conn) is → Delivered F parse os := by
    intro conn is s os hr hC
    exact (delivered_iff_unread law hr).mpr (run_unread_of_aligned law hr hC)
  refine ⟨hdelivers conn is s os hr, fun hs => ?_, fun conn' is' s' os' hr' hbytes hC hC' => ?_⟩
  · rw [delivered_iff_unread law hr]
    exact run_aligned_of_unread law hs hr
  · rw [(hdelivers conn is s os hr hC).packets, (hdelivers conn' is' s' os' hr' hC').packets,
      hbytes]

/-- The handshake, and a SUBSCRIBE on its way. -/
private def subscribing : List Input :=
  connectInputs ++ [.request (.subscribe "t") 0] ++ List.replicate 4 .step

/-- Its SUBACK and a PUBLISH, each in a datagram of its own. -/
private def twoDatagrams : List Input :=
  subscribing ++ [.datagram [0x90, 4, 0, 1, 0, 1] peerAddr] ++ List.replicate 7 .step ++
    [.datagram [0x30, 5, 0, 1, 116, 0, 120] peerAddr] ++ List.replicate 7 .step

/-- The same bytes in one datagram. -/
private def oneDatagram : List Input :=
  subscribing ++ [.datagram [0x90, 4, 0, 1, 0, 1, 0x30, 5, 0, 1, 116, 0, 120] peerAddr] ++
    List.replicate 7 .step

theorem receivePath_iff_sample :
    ∃ s os, run (step wireCore peerQuiche) (peerClient 100) twoDatagrams = some (s, os) ∧
      (Delivered mqttFraming wireParse os ↔
        AllSteps (step wireCore peerQuiche) (ChunkAligned mqttFraming peerQuiche) []
          (peerClient 100) twoDatagrams) :=
  ⟨_, _, rfl, (receivePath_iff wireCore_law rfl).2.1 wireCore_strict⟩

/-- The same stream, cut in two ways: the PUBLISH behind the SUBACK is lost when
both arrive in one chunk. -/
theorem cut_decides_packets :
    RecvLaw wireCore mqttFraming wireParse WireCore.pending wireCompleted ∧
    ∃ s os s' os',
      run (step wireCore peerQuiche) (peerClient 100) twoDatagrams = some (s, os) ∧
      run (step wireCore peerQuiche) (peerClient 100) oneDatagram = some (s', os') ∧
      s.pc = .select ∧ s'.pc = .select ∧ chunkBytes os = chunkBytes os' ∧
      receivedPackets os = [.connack 0, .suback 1 [1], .publish "t" .atMostOnce [120]] ∧
      receivedPackets os' = [.connack 0, .suback 1 [1]] :=
  ⟨wireCore_law, _, _, _, _, rfl, rfl, rfl, rfl, rfl, rfl, rfl⟩

end MqttScion.Client
