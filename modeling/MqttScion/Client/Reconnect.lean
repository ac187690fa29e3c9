import MqttScion.Client.CallMove
import MqttScion.Client.Wire

/-!
# What a failed connect leaves behind

`connect` replaces both ends of its channels before anything can fail, and
`connected` only when everything has succeeded.

> `connect_never_atomic`: after a `connect` that fails or is dropped, the streams
> are never those it found; they belong to the session that did not come about.
-/

namespace MqttScion.Client.System

open MqttScion.Net MqttScion.Lib

variable {M Q Pk : Type} {core : MqttCore M Pk} {qc : Quiche Q} {s s' : State M Q Pk}
  {o : List (Output Pk)}

/-- `connected` and the streams are as they were. -/
structure Unchanged (s s' : State M Q Pk) : Prop where
  connected : s'.connected = s.connected
  requestStream : s'.requestStream = s.requestStream
  messageStream : s'.messageStream = s.messageStream

/-- A move other than the start of `connect`: no stream is replaced and no
session begun, and `connected` is set by a `connect` that returns. -/
structure Stays (s s' : State M Q Pk) (o : List (Output Pk)) : Prop where
  requestStream : s'.requestStream = s.requestStream
  messageStream : s'.messageStream = s.messageStream
  nextSession : s'.nextSession = s.nextSession
  connected : .connectReturned (.ok ()) ∉ o → s'.connected = s.connected

theorem applyOutput_stays (s : State M Q Pk) (x : Client.Output Pk) :
    Stays s (applyOutput s x) [] := by
  cases x <;> exact ⟨rfl, rfl, rfl, fun _ => rfl⟩

theorem foldl_applyOutput_stays : ∀ (xs : List (Client.Output Pk)) (s : State M Q Pk),
    Stays s (xs.foldl applyOutput s) [] := by
  intro xs
  induction xs with
  | nil => exact fun s => ⟨rfl, rfl, rfl, fun _ => rfl⟩
  | cons x xs ih =>
    intro s
    have h := applyOutput_stays s x
    have h' := ih (applyOutput s x)
    exact ⟨h'.requestStream.trans h.requestStream, h'.messageStream.trans h.messageStream,
      h'.nextSession.trans h.nextSession, fun hnot => (h'.connected hnot).trans (h.connected hnot)⟩

/-- A request leaves the connection it has. -/
theorem startRequest_stays (request : Request) (s : State M Q Pk) :
    Stays s (startRequest request s).1 (startRequest request s).2 := by
  unfold startRequest
  split
  · split <;> exact ⟨rfl, rfl, rfl, fun _ => rfl⟩
  · exact ⟨rfl, rfl, rfl, fun _ => rfl⟩

/-- The send of a request leaves the connection it has. -/
theorem sendRequest_stays {n : Nat} {request : Request}
    (h : sendRequest n request s = some (s', o)) : Stays s s' o := by
  unfold sendRequest at h
  simp only at h
  split at h
  · exact of_result (P := Stays s) h ⟨rfl, rfl, rfl, fun _ => rfl⟩
  · split at h
    · exact of_result (P := Stays s) h ⟨rfl, rfl, rfl, fun _ => rfl⟩
    · exact of_result (P := Stays s) h ⟨rfl, rfl, rfl, fun _ => rfl⟩
    · cases h

/-- `rcv` leaves the connection it has. -/
theorem rcv_stays (h : rcv s = some (s', o)) : Stays s s' o := by
  unfold rcv at h
  simp only at h
  split at h
  · exact of_result (P := Stays s) h ⟨rfl, rfl, rfl, fun _ => rfl⟩
  · split at h
    · exact of_result (P := Stays s) h ⟨rfl, rfl, rfl, fun _ => rfl⟩
    · split at h
      · exact of_result (P := Stays s) h ⟨rfl, rfl, rfl, fun _ => rfl⟩
      · split at h
        · cases h
        · exact of_result (P := Stays s) h ⟨rfl, rfl, rfl, fun _ => rfl⟩

/-- **What a step does to the streams.** -/
theorem step_stays {i : Input Q} (hi : ∀ remote, i ≠ .connect remote)
    (h : step core qc s i = some (s', o)) : Stays s s' o := by
  have hsame : ∀ {r : State M Q Pk × List (Output Pk)}, some r = some (s', o) →
      Stays s r.1 r.2 → Stays s s' o := by
    intro r hr hstays
    exact of_result (P := Stays s) hr hstays
  unfold step at h
  split at h
  · next n i =>
    unfold taskMove at h
    split at h
    · cases h
    · split at h
      · next requests connection xs _ _ =>
        refine hsame h ?_
        have hstays := foldl_applyOutput_stays xs (s.setSession n ⟨connection, requests⟩)
        exact ⟨hstays.requestStream, hstays.messageStream, hstays.nextSession,
          fun _ => hstays.connected nofun⟩
      · cases h
  · next n =>
    obtain ⟨s₁, hdrop, heq⟩ := Option.map_eq_some_iff.mp h
    obtain ⟨rfl, rfl⟩ := Prod.mk.inj heq
    unfold taskDrop at hdrop
    split at hdrop
    · cases hdrop
    · split at hdrop
      · split at hdrop
        · rw [← Option.some.inj hdrop]
          exact ⟨rfl, rfl, rfl, fun _ => rfl⟩
        · cases hdrop
      · cases hdrop
  · next remote _ => exact absurd rfl (hi remote)
  · exact hsame h ⟨rfl, rfl, rfl, fun _ => rfl⟩
  · exact hsame h ⟨rfl, rfl, rfl, fun _ => rfl⟩
  · simp only at h
    split at h
    · exact hsame h ⟨rfl, rfl, rfl, fun hnot => absurd (List.mem_singleton_self _) hnot⟩
    · exact hsame h ⟨rfl, rfl, rfl, fun _ => rfl⟩
  · exact hsame h (startRequest_stays _ s)
  · exact hsame h (startRequest_stays _ s)
  · exact sendRequest_stays h
  · simp only at h
    split at h
    · exact hsame h ⟨rfl, rfl, rfl, fun _ => rfl⟩
    · exact hsame h ⟨rfl, rfl, rfl, fun _ => rfl⟩
  · exact rcv_stays h
  · cases h
  · exact hsame h ⟨rfl, rfl, rfl, fun _ => rfl⟩
  · exact hsame h ⟨rfl, rfl, rfl, fun _ => rfl⟩
  · cases h

theorem dropMessageStream_connected (s : State M Q Pk) :
    (dropMessageStream s).connected = s.connected := by
  unfold dropMessageStream
  split
  · rfl
  · split <;> rfl

/-! ## A connect that does not succeed -/

/-- A stream belongs to a session that has been begun. -/
def Numbered (s : State M Q Pk) : Prop := ∀ n, s.requestStream = some n → n < s.nextSession

/-- `connect` begins when no other call is in progress. -/
theorem connect_eq_some {remote : ScionAddr}
    (h : step core qc s (.connect remote) = some (s', o)) : s' = connect remote s ∧ o = [] := by
  cases hcall : s.call with
  | idle =>
    simp only [step, hcall, Option.some.injEq, Prod.mk.injEq] at h
    exact ⟨h.1.symm, h.2.symm⟩
  | _ => simp [step, hcall] at h

/-- The numbers handed out stay below the next one. -/
theorem step_numbered {i : Input Q} (h : Numbered s) (hstep : step core qc s i = some (s', o)) :
    Numbered s' := by
  by_cases hi : ∃ remote, i = .connect remote
  · obtain ⟨remote, rfl⟩ := hi
    cases hcall : s.call with
    | idle =>
      simp only [step, hcall, Option.some.injEq, Prod.mk.injEq] at hstep
      obtain ⟨rfl, rfl⟩ := hstep
      intro n hn
      obtain rfl := Option.some.inj hn
      exact Nat.lt_succ_self _
    | _ => simp [step, hcall] at hstep
  · have hstays := step_stays (fun remote hr => hi ⟨remote, hr⟩) hstep
    intro n hn
    rw [hstays.nextSession]
    exact h n (hstays.requestStream ▸ hn)

/-- The state after a `connect` from `s` that has come to nothing: both streams
are those of the session it began, and `connected` says what it said. -/
structure Abandoned (s s' : State M Q Pk) : Prop where
  connected : s'.connected = s.connected
  requestStream : s'.requestStream = some s.nextSession
  messageStream : s'.messageStream = some s.nextSession

/-- A call is in progress. -/
def InCall (_ : List (Output Pk)) (s : State M Q Pk) (_ : Input Q) : Prop := s.call ≠ .idle

/-- A `connect` that has not returned Ok has left the session before it. -/
theorem connect_abandoned {remote : ScionAddr} {is : List (Input Q)} {os : List (Output Pk)}
    (hcall : AllSteps (step core qc) InCall [] (connect remote s) is)
    (hr : run (step core qc) (connect remote s) is = some (s', os))
    (hfailed : .connectReturned (.ok ()) ∉ os) : Abandoned s s' := by
  have hstart : (connect remote s).requestStream = some s.nextSession ∧
      (connect remote s).messageStream = some s.nextSession ∧
      (.connectReturned (.ok ()) ∉ ([] : List (Output Pk)) →
        (connect remote s).connected = s.connected) :=
    ⟨rfl, rfl, fun _ => dropMessageStream_connected s⟩
  have hend : s'.requestStream = some s.nextSession ∧ s'.messageStream = some s.nextSession ∧
      (.connectReturned (.ok ()) ∉ os → s'.connected = s.connected) := by
    refine run_induct_of_steps (C := InCall) (P := fun os t =>
      t.requestStream = some s.nextSession ∧ t.messageStream = some s.nextSession ∧
        (.connectReturned (.ok ()) ∉ os → t.connected = s.connected)) ?_ hstart hcall hr
    intro os t i t' o ht hbusy hstep
    -- no other call begins while this one is in progress
    have hi : ∀ remote, i ≠ .connect remote := by
      rintro remote rfl
      cases hc : t.call with
      | idle => exact hbusy hc
      | _ => simp [step, hc] at hstep
    have hstays := step_stays hi hstep
    refine ⟨hstays.requestStream.trans ht.1, hstays.messageStream.trans ht.2.1, fun hnot => ?_⟩
    rw [List.mem_append, not_or] at hnot
    exact (hstays.connected hnot.2).trans (ht.2.2 hnot.1)
  exact ⟨hend.2.2 hfailed, hend.1, hend.2.1⟩

/-- **connect is never atomic on failure.** In every reachable state, a `connect`
that has not returned `Ok`, whether it failed, was dropped or goes on, has not
left `connected` and the streams as they were. -/
theorem connect_never_atomic {clientId : String} {is : List (Input Q)} {os : List (Output Pk)}
    (hr : run (step core qc) (State.new clientId) is = some (s, os)) {remote : ScionAddr}
    {js : List (Input Q)} {os' : List (Output Pk)}
    (hcall : AllSteps (step core qc) InCall [] (connect remote s) js)
    (hrun : run (step core qc) s (.connect remote :: js) = some (s', os'))
    (hfailed : .connectReturned (.ok ()) ∉ os') : ¬Unchanged s s' := by
  have hnumbered : Numbered s := by
    refine run_induct (P := fun _ t => Numbered t) (fun n hn => by cases hn) ?_ hr
    intro os t i t' o ht hstep
    exact step_numbered ht hstep
  obtain ⟨s₁, o₁, o₂, hbegin, hrest, rfl⟩ := run_cons_eq_some.mp hrun
  obtain ⟨rfl, rfl⟩ := connect_eq_some hbegin
  rw [List.nil_append] at hfailed
  have habandoned := connect_abandoned hcall hrest hfailed
  intro hsame
  have hlt := hnumbered s.nextSession (hsame.requestStream ▸ habandoned.requestStream)
  omega

/-- `connect` and a successful CONNACK. -/
private def connectOnce : List (Input Peer) :=
  [.connect peerAddr, .connection (some ((peerClient 100).localAddr, (peerClient 100).conn))] ++
    connectInputs.map (.task 0) ++ [.poll]

/-- A client that has never connected, and whose certificate file is missing. -/
theorem connect_never_atomic_sample :
    ∃ s', run (step wireCore peerQuiche) (State.new "c1") [.connect peerAddr, .connection none] =
        some (s', [.connectReturned (.error .connection)]) ∧
      ¬Unchanged (State.new "c1" : State WireCore Peer Bytes) s' := by
  refine ⟨_, rfl, ?_⟩
  refine @connect_never_atomic WireCore Peer Bytes wireCore peerQuiche _ _ "c1" [] _ rfl
    peerAddr [.connection none] _ ⟨nofun, fun _ _ _ => trivial⟩ rfl ?_
  simp

/-- A connected client whose `connect` fails still says it is connected. What it
sends then fails: its request channel belongs to no task, and the session it
had cannot be reached. -/
theorem failed_reconnect_disconnects :
    ∃ s os s', run (step wireCore peerQuiche) (State.new "c1") connectOnce = some (s, os) ∧
      s.connected = true ∧ s.requestStream = some 0 ∧
      run (step wireCore peerQuiche) s
        [.connect peerAddr, .connection none, .publish "t" [1], .send] =
        some (s', [.connectReturned (.error .connection),
          .requestReturned (.error .sendFailed)]) ∧
      s'.connected = true ∧ s'.requestStream = some 1 ∧ s'.sessions 1 = none ∧
      ¬Unchanged s s' := by
  refine ⟨_, _, _, rfl, rfl, rfl, rfl, rfl, rfl, rfl, ?_⟩
  intro hsame
  cases hsame.requestStream

end MqttScion.Client.System
