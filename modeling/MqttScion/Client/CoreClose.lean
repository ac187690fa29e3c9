import MqttScion.Lib.Observe
import MqttScion.Client.Connection
import MqttScion.Client.Wire

/-!
# A close the MQTT library asks for

`handle_events` returns at `RequestClose`, and its callers cannot tell that from
a batch that came to its end: the task goes on to the head of its loop with the
connection open.

> `closedOff_iff`: in every state of a run, what was behind a `RequestClose` is
> still handled, the loop comes back to its head only with the connection being
> closed, and no request is taken: exactly when every `RequestClose` is the last
> event of its batch and the task does not come back to the head of its loop.
-/

namespace MqttScion.Client

open MqttScion.Net MqttScion.Lib

variable {M Q Pk : Type} {core : MqttCore M Pk} {qc : Quiche Q} {closing : Q → Prop}
  {s s' : Connection M Q Pk} {i : Input} {o : List (Output Pk)}

/-- `RequestClose` was met, with `rest` behind it and `left` still to be handled
afterwards; a request was taken. -/
inductive CloseEvent (Pk : Type)
  | met (rest left : List (Event Pk))
  | took (request : Request)
  deriving DecidableEq

def closeEvents (core : MqttCore M Pk) (qc : Quiche Q) (s : Connection M Q Pk) (i : Input)
    (_ : List (Output Pk)) : List (CloseEvent Pk) :=
  match s.pc, i with
  | .handle (.requestClose :: rest) _, .step =>
    match step core qc s .step with
    | some (s', _) => [.met rest s'.pc.batch]
    | none => []
  | .select, .request request _ => [.took request]
  | _, _ => []

/-- The library has asked for a close. -/
def Met (es : List (CloseEvent Pk)) : Prop := ∃ rest left, .met rest left ∈ es

/-- A close that was met was met in one of the parts. -/
theorem met_append {es es' : List (CloseEvent Pk)} : Met (es ++ es') ↔ Met es ∨ Met es' := by
  unfold Met
  simp only [List.mem_append, exists_or]

/-- A close that was asked for ends the session. -/
structure ClosedOff (closing : Q → Prop) (es : List (CloseEvent Pk)) (s : Connection M Q Pk) :
    Prop where
  /-- What is behind `RequestClose` is still handled. -/
  handled : ∀ rest left, .met rest left ∈ es → left = rest
  /-- The next iteration finds the connection being closed. -/
  closing : Met es → s.pc = .select → closing s.conn
  /-- No request is taken any more. -/
  refused : LogAll (fun before event => ∀ request, event = .took request → ¬Met before) es

/-- `RequestClose` is the last event of its batch, and once it was met the send
loop does not run dry, which leads back to the head of the loop. -/
def EndsSession (qc : Quiche Q) (es : List (CloseEvent Pk)) (s : Connection M Q Pk) (i : Input) :
    Prop :=
  (∀ rest next, s.pc = .handle (.requestClose :: rest) next → i = .step → rest = []) ∧
    (Met es → ¬(s.pc = .send ∧ i = .step ∧ ∃ e, (qc.send s.conn).1 = .error e))

/-! ## What a step does -/

/-- The task is at the head of its loop, or on its way there for the first
time. -/
def Pc.atHead : Pc Pk → Bool
  | .initialSend | .initialSendTo _ _ | .select => true
  | _ => false

/-- From the events the task does not go to the head of its loop. -/
theorem resume_atHead (qc : Quiche Q) (next : Next) (s : Connection M Q Pk) :
    (resume qc next s).pc.atHead = false := by
  unfold resume
  split
  · unfold readable
    split <;> rfl
  · rfl
  · rfl

/-- A batch that is being handled stays away from the head of the loop. -/
theorem handleEvents_atHead (events : List (Event Pk)) (next : Next) :
    (handleEvents core qc events next s).1.pc.atHead = false := by
  unfold handleEvents
  split
  · exact resume_atHead qc next s
  · exact resume_atHead qc next s
  · rfl

/-- Reading the streams stays away from the head of the loop. -/
theorem readStreams_atHead (ids : List Nat) :
    (readStreams core qc ids s).1.pc.atHead = false := by
  unfold readStreams
  split
  · rfl
  · split
    · rfl
    · simp only
      split
      · rfl
      · rfl

/-- The task comes to the head of its loop from the send loop when it has run
dry. -/
theorem taskStep_atHead (h : taskStep core qc s i = some (s', o)) (hhead : s'.pc.atHead = true) :
    s.pc.atHead = true ∨ s.pc = .send ∧ i = .step ∧ ∃ e, (qc.send s.conn).1 = .error e := by
  have hnot : ∀ {r : Connection M Q Pk × List (Output Pk)}, some r = some (s', o) →
      r.1.pc.atHead = true := by
    intro r hr
    rw [Option.some.inj hr]
    exact hhead
  unfold taskStep at h
  split at h
  · next hpc => exact .inl (by rw [hpc]; rfl)
  · next hpc => exact .inl (by rw [hpc]; rfl)
  · next hpc => exact .inl (by rw [hpc]; rfl)
  · next hpc => exact .inl (by rw [hpc]; rfl)
  · next hpc => exact .inl (by rw [hpc]; rfl)
  · next hpc => exact .inl (by rw [hpc]; rfl)
  · next events next hpc =>
    have hfalse : (handleEvents core qc events next s).1.pc.atHead = false :=
      handleEvents_atHead events next
    rw [hnot h] at hfalse
    cases hfalse
  · next ids hpc =>
    have hfalse : (readStreams core qc ids s).1.pc.atHead = false := readStreams_atHead ids
    rw [hnot h] at hfalse
    cases hfalse
  · split at h
    · cases hnot h
    · cases hnot h
  · next hpc =>
    refine .inr ⟨hpc, rfl, ?_⟩
    have htrue := hnot h
    unfold sendPending at htrue
    simp only at htrue
    split at htrue
    · cases htrue
    · next e he => exact ⟨e, he⟩
  · split at h
    · cases hnot h
    · cases hnot h
  · cases h

/-- The head of the loop is reached from the send loop alone, when it has run dry.
-/
theorem step_atHead (h : step core qc s i = some (s', o)) (hhead : s'.pc.atHead = true) :
    s.pc.atHead = true ∨ s.pc = .send ∧ i = .step ∧ ∃ e, (qc.send s.conn).1 = .error e := by
  rcases step_cases h with htask | ⟨-, messages, rfl⟩
  · exact taskStep_atHead htask hhead
  · exact .inl hhead

/-- The arm of a request does not touch the connection before its batch. -/
theorem onRequest_conn (request : Request) (notify : Nat) :
    (onRequest core request notify s).1.conn = s.conn := by
  have hsend : ∀ build fault,
      (sendRequest core build fault request notify s).1.conn = s.conn := by
    intro build fault
    unfold sendRequest
    simp only
    split
    · rfl
    · split <;> rfl
  unfold onRequest
  split
  · split
    · exact hsend _ _
    · rfl
  · split
    · exact hsend _ _
    · rfl

/-- A `recv` that starts a close ends the task. -/
theorem processUdpPacket_open (law : OwnCloseLaw qc closing) {data : Bytes} {src : ScionAddr}
    (hc : closing (processUdpPacket core qc data src s).1.conn) :
    closing s.conn ∨ ∃ r, (processUdpPacket core qc data src s).1.pc = .ended r := by
  unfold processUdpPacket at hc ⊢
  split at hc
  · exact .inl hc
  · next ip _ =>
    split at hc
    · exact .inl hc
    · next dst _ =>
      simp only at hc ⊢
      split at hc
      · exact .inr ⟨_, rfl⟩
      · next n hn =>
        refine .inl (law.recv hn ?_)
        split at hc
        · unfold sendConnect at hc
          split at hc
          · split at hc
            · exact hc
            · exact hc
          · exact hc
        · obtain ⟨pc, heq, -, -⟩ :=
            readable_eq qc { s with conn := (qc.recv s.conn data ⟨ip, dst⟩).2 }
          rw [heq] at hc
          exact hc

/-- Handling the events closes nothing. -/
theorem handleEvents_open (law : OwnCloseLaw qc closing) {events : List (Event Pk)} {next : Next}
    (hc : closing (handleEvents core qc events next s).1.conn) : closing s.conn := by
  have hresume : (resume qc next s).conn = s.conn := by
    obtain ⟨pc, sent, -, -, heq⟩ := resume_eq qc next s
    rw [heq]
  unfold handleEvents at hc
  split at hc
  · exact hresume ▸ hc
  · exact hresume ▸ hc
  · next event rest _ =>
    have hhandled : Handled core qc s event (handleEvent core qc event s).1
        (handleEvent core qc event s).2 := handleEvent_handled event s
    replace hc : closing (handleEvent core qc event s).1.conn := hc
    generalize (handleEvent core qc event s).1 = t at hhandled hc
    generalize (handleEvent core qc event s).2 = o at hhandled
    cases hhandled with
    | sends packet => exact law.streamSend hc
    | _ => exact hc

/-- The calls the task makes on the connection do not close it, but for a `recv`
that fails and ends the task. -/
theorem taskStep_open (law : OwnCloseLaw qc closing)
    (h : taskStep core qc s i = some (s', o)) (hc : closing s'.conn) :
    closing s.conn ∨ ∃ r, s'.pc = .ended r := by
  have hto : ∀ {r : Connection M Q Pk × List (Output Pk)}, some r = some (s', o) →
      (closing r.1.conn → closing s.conn ∨ ∃ e, r.1.pc = .ended e) →
      closing s.conn ∨ ∃ r, s'.pc = .ended r := by
    intro r hr hopen
    rw [Option.some.inj hr] at hopen
    exact hopen hc
  unfold taskStep at h
  split at h
  · refine hto h fun hc => ?_
    unfold initialSend at hc
    simp only at hc
    split at hc
    · exact .inl (law.send hc)
    · exact .inl (law.send hc)
  · split at h
    · exact hto h .inl
    · exact hto h .inl
  · exact hto h fun hc => .inl (law.onTimeout hc)
  · refine hto h fun hc => ?_
    unfold keepalive at hc
    split at hc
    · simp only at hc
      split at hc
      · exact .inl (law.sendAckEliciting hc)
      · exact .inl (law.sendAckEliciting hc)
    · exact .inl hc
  · next data src _ =>
    split at h
    · exact hto h (processUdpPacket_open law)
    · cases h
  · exact hto h fun hc => .inl (onRequest_conn _ _ ▸ hc)
  · exact hto h fun hc => .inl (handleEvents_open law hc)
  · refine hto h fun hc => ?_
    unfold readStreams at hc
    split at hc
    · exact .inl hc
    · split at hc
      · exact .inl hc
      · simp only at hc
        split at hc
        · exact .inl (law.streamRecv hc)
        · exact .inl (law.streamRecv hc)
  · split at h
    · exact hto h .inl
    · exact hto h .inl
  · refine hto h fun hc => ?_
    unfold sendPending at hc
    simp only at hc
    split at hc
    · exact .inl (law.send hc)
    · exact .inl (law.send hc)
  · split at h
    · exact hto h .inl
    · exact hto h .inl
  · cases h

/-- A step that starts a close ends the task. -/
theorem step_open (law : OwnCloseLaw qc closing) (h : step core qc s i = some (s', o))
    (hc : closing s'.conn) : closing s.conn ∨ ∃ r, s'.pc = .ended r := by
  rcases step_cases h with htask | ⟨-, messages, rfl⟩
  · exact taskStep_open law htask hc
  · exact .inl hc

/-! ## Every run -/

/-- While the task runs, nobody on this side has closed the connection; and once
a close was asked for the task is past the head of its loop. -/
structure CloseInv (closing : Q → Prop) (es : List (CloseEvent Pk)) (s : Connection M Q Pk) :
    Prop where
  running : (∃ r, s.pc = .ended r) ∨ ¬closing s.conn
  past : Met es → s.pc.atHead = false

/-- Nothing is behind `handle_events` when it has met `RequestClose`. -/
theorem closeEvents_cases (h : step core qc s i = some (s', o)) :
    (closeEvents core qc s i o = [] ∧
        ∀ rest next, s.pc = .handle (.requestClose :: rest) next → i ≠ .step) ∨
      (∃ rest next, s.pc = .handle (.requestClose :: rest) next ∧ i = .step ∧
        closeEvents core qc s i o = [.met rest []]) ∨
      ∃ request, s.pc = .select ∧ closeEvents core qc s i o = [.took request] := by
  unfold closeEvents
  split
  · next rest next hpc =>
    refine .inr (.inl ⟨rest, next, hpc, rfl, ?_⟩)
    have hresume : step core qc s .step = some (resume qc next s, []) := by
      simp only [step, taskStep, hpc, handleEvents]
    obtain ⟨pc, sent, hplain, -, heq⟩ := resume_eq qc next s
    rw [hresume]
    simp only [heq, hplain.batch]
  · next request notify hpc => exact .inr (.inr ⟨request, hpc, rfl⟩)
  · next hclose _ => exact .inl ⟨rfl, fun rest next hpc hi => hclose rest next hpc hi⟩

/-- A task that has ended stays so. -/
theorem step_ended {r : Except Fault Unit} (hpc : s.pc = .ended r)
    (h : step core qc s i = some (s', o)) : s'.pc = .ended r := by
  rcases step_cases h with htask | ⟨-, messages, rfl⟩
  · simp [taskStep, hpc] at htask
  · exact hpc

/-- While the task runs, this side has not closed the connection. -/
theorem step_keepsOpen (law : OwnCloseLaw qc closing)
    (hrunning : (∃ r, s.pc = .ended r) ∨ ¬closing s.conn)
    (h : step core qc s i = some (s', o)) : (∃ r, s'.pc = .ended r) ∨ ¬closing s'.conn := by
  rcases hrunning with ⟨r, hr⟩ | hopen
  · exact .inl ⟨r, step_ended hr h⟩
  · by_cases hc : closing s'.conn
    · exact .inl ((step_open law h hc).resolve_left hopen)
    · exact .inr hc

/-- A step that leads back to the head of the loop after a close was asked for is
the send loop running dry. -/
theorem step_past {es : List (CloseEvent Pk)} (hpast : Met es → s.pc.atHead = false)
    (h : step core qc s i = some (s', o)) (hmet : Met (es ++ closeEvents core qc s i o))
    (hhead : s'.pc.atHead = true) :
    Met es ∧ s.pc = .send ∧ i = .step ∧ ∃ e, (qc.send s.conn).1 = .error e := by
  rcases met_append.mp hmet with hbefore | ⟨rest, left, hnow⟩
  · rcases step_atHead h hhead with hold | hdry
    · rw [hpast hbefore] at hold
      cases hold
    · exact ⟨hbefore, hdry⟩
  · rcases closeEvents_cases h with ⟨hnone, -⟩ | ⟨rest', next, hpc, -, -⟩ | ⟨request, -, htook⟩
    · rw [hnone] at hnow
      cases hnow
    · rcases step_atHead h hhead with hold | ⟨hsend, -⟩
      · rw [hpc] at hold
        cases hold
      · rw [hpc] at hsend
        cases hsend
    · rw [htook] at hnow
      cases List.mem_singleton.mp hnow

/-- **What a step means for a close that was asked for.** -/
theorem step_closedOff_iff (law : OwnCloseLaw qc closing) {es : List (CloseEvent Pk)}
    (hinv : CloseInv closing es s) (hP : ClosedOff closing es s)
    (h : step core qc s i = some (s', o)) :
    ClosedOff closing (es ++ closeEvents core qc s i o) s' ↔ EndsSession qc es s i := by
  have hcases := closeEvents_cases h
  constructor
  · intro hP'
    refine ⟨fun rest next hpc hi => ?_, ?_⟩
    · rcases hcases with ⟨-, hnot⟩ | ⟨rest', next', hpc', -, hmet⟩ | ⟨request, hselect, -⟩
      · exact absurd hi (hnot rest next hpc)
      · rw [hpc] at hpc'
        obtain ⟨heq, -⟩ := Pc.handle.inj hpc'
        obtain rfl := (List.cons.inj heq).2
        refine (hP'.handled rest [] ?_).symm
        rw [hmet]
        exact List.mem_append_right _ (List.mem_singleton_self _)
      · rw [hpc] at hselect
        cases hselect
    · -- the loop would be at its head with the connection open
      rintro hmet ⟨hpc, rfl, e, he⟩
      have hsend : s' = sendPending qc s := by
        simp only [step, taskStep, hpc, Option.some.injEq, Prod.mk.injEq] at h
        exact h.1.symm
      have hselect : s'.pc = .select := by
        rw [hsend]
        simp only [sendPending, he]
      rcases step_keepsOpen law hinv.running h with ⟨r, hr⟩ | hopen
      · rw [hselect] at hr
        cases hr
      · exact hopen (hP'.closing (met_append.mpr (.inl hmet)) hselect)
  · rintro ⟨hlast, hdry⟩
    refine ⟨fun rest left hmem => ?_, fun hmet hselect => ?_, ?_⟩
    · rcases List.mem_append.mp hmem with hold | hnew
      · exact hP.handled rest left hold
      · rcases hcases with ⟨hnone, -⟩ | ⟨rest', next, hpc, hi, hmet⟩ | ⟨request, -, htook⟩
        · rw [hnone] at hnew
          cases hnew
        · rw [hmet] at hnew
          obtain ⟨rfl, rfl⟩ := CloseEvent.met.inj (List.mem_singleton.mp hnew)
          exact (hlast rest next hpc hi).symm
        · rw [htook] at hnew
          cases List.mem_singleton.mp hnew
    · have hhead : s'.pc.atHead = true := by rw [hselect]; rfl
      obtain ⟨hbefore, hran⟩ := step_past hinv.past h hmet hhead
      exact absurd hran (hdry hbefore)
    · refine logAll_append.mpr ⟨hP.refused, ?_⟩
      rcases hcases with ⟨hnone, -⟩ | ⟨rest', next, -, -, hmet⟩ | ⟨request, hselect, htook⟩
      · rw [hnone]
        exact logAll_nil _
      · rw [hmet, logAll_singleton]
        exact fun request heq => nomatch heq
      · rw [htook, logAll_singleton]
        intro request' _ hmet
        rw [List.append_nil] at hmet
        have hpast := hinv.past hmet
        rw [hselect] at hpast
        cases hpast

/-- **When a close the MQTT library asks for ends the session**: in every state
of a run, exactly when every `RequestClose` is the last event of its batch and
the task does not come back to the head of its loop after one. -/
theorem closedOff_iff (law : OwnCloseLaw qc closing) {remote localAddr : ScionAddr}
    {clientId : String} {conn : Q} (hconn : ¬closing conn) {is : List Input}
    {es : List (CloseEvent Pk)}
    (hr : run (observe (step core qc) (closeEvents core qc))
      (Connection.new core remote localAddr clientId conn) is = some (s, es)) :
    AllStates (observe (step core qc) (closeEvents core qc)) (ClosedOff closing) []
        (Connection.new core remote localAddr clientId conn) is ↔
      AllSteps (observe (step core qc) (closeEvents core qc)) (EndsSession qc) []
        (Connection.new core remote localAddr clientId conn) is := by
  have hnil : ¬Met ([] : List (CloseEvent Pk)) := fun ⟨_, _, hmem⟩ => nomatch hmem
  refine allStates_iff (H := fun _ _ _ => True) (J := CloseInv closing) ?_ ?_
    ⟨.inr hconn, fun h => absurd h hnil⟩
    ⟨(fun _ _ hmem => nomatch hmem), fun h => absurd h hnil, logAll_nil _⟩
    (allSteps_true is [] _) hr
  · intro es s i s' es' hinv _ _ hC hm
    obtain ⟨o, h, rfl⟩ := observe_eq_some.mp hm
    refine ⟨step_keepsOpen law hinv.running h, fun hmet => ?_⟩
    rw [← Bool.not_eq_true]
    intro hhead
    obtain ⟨hbefore, hran⟩ := step_past hinv.past h hmet hhead
    exact hC.2 hbefore hran
  · intro es s i s' es' hinv hP _ hm
    obtain ⟨o, h, rfl⟩ := observe_eq_some.mp hm
    exact step_closedOff_iff law hinv hP h

/-- The peer of `peerQuiche`, and whether this side has closed the connection. -/
private def closablePeer : Quiche (Peer × Bool) where
  send q := (peerQuiche.send q.1).map id (·, q.2)
  recv q d ri := (peerQuiche.recv q.1 d ri).map id (·, q.2)
  streamSend q id b fin := (peerQuiche.streamSend q.1 id b fin).map (fun r => r) (·, q.2)
  streamRecv q id := (peerQuiche.streamRecv q.1 id).map (fun r => r) (·, q.2)
  readable q := peerQuiche.readable q.1
  close q app err reason := (peerQuiche.close q.1 app err reason).map id fun peer => (peer, true)
  sendAckEliciting q := (peerQuiche.sendAckEliciting q.1).map id (·, q.2)
  onTimeout q := (peerQuiche.onTimeout q.1, q.2)
  isEstablished q := peerQuiche.isEstablished q.1
  isClosed q := peerQuiche.isClosed q.1
  peerCert q := peerQuiche.peerCert q.1

private theorem closablePeer_law : OwnCloseLaw closablePeer fun q => q.2 = true where
  close _ := rfl
  recv _ hc := hc
  send hc := hc
  streamSend hc := hc
  streamRecv hc := hc
  sendAckEliciting hc := hc
  onTimeout hc := hc

private def closableClient : Connection WireCore (Peer × Bool) Bytes :=
  Connection.new wireCore peerAddr ⟨1, .ip (.ipv4 10 0 0 1), 4433⟩ "c1"
    (⟨false, 100, 100, [], [], false⟩, false)

/-- A PUBLISH without a topic, up to the close the library asks for. -/
private def malformedPublish : List Input :=
  connectInputs ++ [.datagram [0x30, 0] peerAddr] ++ List.replicate 3 .step

/-- A PUBLISH without a topic: the library asks for a close, with an event behind
it. -/
theorem closedOff_iff_sample :
    ∃ s, run (observe (step wireCore closablePeer) (closeEvents wireCore closablePeer))
        closableClient malformedPublish = some (s, [.met [.notifyError] []]) ∧
      (AllStates (observe (step wireCore closablePeer) (closeEvents wireCore closablePeer))
          (ClosedOff fun q => q.2 = true) [] closableClient malformedPublish ↔
        AllSteps (observe (step wireCore closablePeer) (closeEvents wireCore closablePeer))
          (EndsSession closablePeer) [] closableClient malformedPublish) :=
  ⟨_, rfl, closedOff_iff closablePeer_law (by decide) rfl⟩

/-- What stands behind the close is left, and the task goes back to the head of its
loop, sends a keepalive and takes the next request, on a connection nobody has
closed. -/
theorem close_is_ignored :
    ∃ s, run (observe (step wireCore closablePeer) (closeEvents wireCore closablePeer))
        closableClient (malformedPublish ++ List.replicate 4 .step ++
          [.keepalive, .step, .step, .request (.subscribe "t") 0]) =
        some (s, [.met [.notifyError] [], .took (.subscribe "t")]) ∧
      OwnCloseLaw closablePeer (fun q => q.2 = true) ∧ s.conn.2 = false ∧
      closablePeer.isClosed s.conn = false ∧
      ¬ClosedOff (fun q => q.2 = true) [.met [.notifyError] [], .took (.subscribe "t")] s := by
  refine ⟨_, rfl, closablePeer_law, rfl, rfl, fun h => ?_⟩
  exact h.refused [.met [.notifyError] []] _ [] rfl _ rfl ⟨_, [], List.mem_singleton_self _⟩

end MqttScion.Client
