import MqttScion.Lib.Observe
import MqttScion.Client.Lifecycle
import MqttScion.Client.OwnConnack

/-!
# Refusals reported as success

`handle_events` reads no reason code: a CONNACK is a CONNACK, and an
acknowledgement with the right identifier releases its request, whatever it
says. A `Notify` carries no value, so the call that it releases has nothing to
tell a refusal by.

So a call is told the truth only if it is not there to be told otherwise.

> `honest_iff`: in every run, no refused `connect`, `subscribe` or `publish` has
> returned `Ok` if and only if no call was polled after its refusal was handled,
> and no connection was refused whose `connect` had returned before.
-/

namespace MqttScion.Client

open MqttScion.Net MqttScion.Lib

variable {M Q Pk : Type}

/-- An acknowledgement with an error code. -/
def Packet.refuses : Packet → Bool
  | .puback _ reasonCode => 0x80 ≤ reasonCode
  | .suback _ reasonCodes => reasonCodes.any (0x80 ≤ ·)
  | _ => false

namespace System

/-- The reason code of the CONNACK of a connection: the first one handled. -/
def connackOf (n : Nat) (es : List CallEvent) : Option UInt8 :=
  es.findSome? fun e => match e with
    | .handled m (.connack reasonCode) => if m = n then some reasonCode else none
    | _ => none

theorem connackOf_append (n : Nat) (es es' : List CallEvent) :
    connackOf n (es ++ es') = (connackOf n es).or (connackOf n es') := by
  unfold connackOf
  rw [List.findSome?_append]

theorem connackOf_eq_none_iff {n : Nat} {es : List CallEvent} :
    connackOf n es = none ↔ ∀ reasonCode, .handled n (.connack reasonCode) ∉ es := by
  unfold connackOf
  rw [List.findSome?_eq_none_iff]
  constructor
  · intro h reasonCode hmem
    have hnone := h _ hmem
    simp at hnone
  · intro h e he
    split
    · next m reasonCode =>
      refine if_neg fun hm => h reasonCode ?_
      rw [← hm]
      exact he
    · rfl

/-- No refused call has returned `Ok`. -/
structure HonestLog (es : List CallEvent) : Prop where
  connect : ∀ n reasonCode, .connected n ∈ es → connackOf n es = some reasonCode → reasonCode = 0
  request : ∀ notify packet, .completed notify ∈ es → phaseOf notify es = .answered packet →
    packet.refuses = false

/-- No refused call has returned `Ok`, and `connected` is set only by a connect
that was not refused. -/
structure Honest (es : List CallEvent) (s : State M Q Pk) : Prop where
  log : HonestLog es
  connected : s.connected = true → ∃ n, .connected n ∈ es ∧
    ∀ reasonCode, connackOf n es = some reasonCode → reasonCode = 0

/-- The step handles a packet on connection `n`. -/
def Handles (s : State M Q Pk) (i : Input Q) (n : Nat) (packet : Packet) : Prop :=
  ∃ i' session, i = .task n i' ∧ s.sessions n = some session ∧
    session.connection.handling i' = some packet

/-- No refused call is polled, and no connection is refused whose `connect` has
returned. -/
structure Unrefused (es : List CallEvent) (s : State M Q Pk) (i : Input Q) : Prop where
  connack : ∀ n reasonCode, s.call = .awaitConnack n → i = .poll →
    connackOf n es = some reasonCode → reasonCode = 0
  request : ∀ n notify packet, s.call = .awaitNotify n notify → i = .poll →
    phaseOf notify es = .answered packet → packet.refuses = false
  late : ∀ n reasonCode, Handles s i n (.connack reasonCode) → .connected n ∈ es →
    connackOf n es = none → reasonCode = 0

variable {core : MqttCore M Pk} {qc : Quiche Q} {s s' : State M Q Pk} {i : Input Q}
  {es es' : List CallEvent}

/-- The log has the packets that are handled. -/
theorem handled_mem_callEvents {o : List (Output Pk)} {n : Nat} {packet : Packet} :
    .handled n packet ∈ callEvents core qc s i o ↔ Handles s i n packet := by
  have hsignals : ∀ m (o : List (Client.Output Pk)), .handled n packet ∉ signals m o := by
    intro m o hmem
    obtain ⟨out, -, heq⟩ := List.mem_filterMap.mp hmem
    split at heq
    · cases heq
    · cases heq
  have hother : (∀ m i', i ≠ .task m i') → ¬ Handles s i n packet := by
    rintro htask ⟨i', session, hi, -, -⟩
    exact htask n i' hi
  unfold callEvents
  split
  · next m i' =>
    split
    · next session hs =>
      constructor
      · intro hmem
        have hhandling : (session.connection.handling i').map (CallEvent.handled m) =
            some (.handled n packet) := by
          simpa [taskEvents, hsignals] using hmem
        obtain ⟨packet', hhandling, heq⟩ := Option.map_eq_some_iff.mp hhandling
        cases heq
        exact ⟨i', session, rfl, hs, hhandling⟩
      · rintro ⟨i'', session', hi, hs', hhandling⟩
        cases hi
        rw [hs] at hs'
        cases hs'
        simp [taskEvents, hhandling]
    · next hs =>
      refine ⟨fun hmem => absurd hmem List.not_mem_nil, ?_⟩
      rintro ⟨i'', session', hi, hs', -⟩
      cases hi
      rw [hs] at hs'
      cases hs'
  -- the other events are about the calls
  · refine iff_of_false (fun hmem => ?_) (hother (by simp))
    rcases List.mem_cons.mp hmem with heq | hmem
    · cases heq
    · obtain ⟨out, -, heq⟩ := List.mem_filterMap.mp hmem
      split at heq
      · cases heq
      · cases heq
  · exact iff_of_false (by simp) (hother (by simp))
  · refine iff_of_false (fun hmem => ?_) (hother (by simp))
    split at hmem
    · cases List.mem_singleton.mp hmem
    · cases hmem
  · refine iff_of_false (fun hmem => ?_) (hother (by simp))
    obtain ⟨out, -, heq⟩ := List.mem_filterMap.mp hmem
    split at heq
    · cases heq
    · cases heq
  · next htask _ _ _ _ => exact iff_of_false List.not_mem_nil (hother htask)

/-! ## What the calls know -/

/-- A connection has no log before it has a task, a waiting `connect` is
signalled once its connection has a CONNACK, and what returned is in the log. -/
structure CallsInv (es : List CallEvent) (s : State M Q Pk) : Prop where
  numbered : ∀ n session, s.sessions n = some session → n < s.nextSession
  connecting : ∀ n remote, s.call = .connecting n remote → s.sessions n = none ∧ n < s.nextSession
  spawned : ∀ n, s.sessions n = none → connackOf n es = none
  awaiting : ∀ n reasonCode, s.call = .awaitConnack n → connackOf n es = some reasonCode →
    s.connectNotification.signalled = true
  connected : s.connected = true → ∃ n, .connected n ∈ es
  completed : ∀ notify, .completed notify ∈ es → ∃ packet, phaseOf notify es = .answered packet

theorem callsInv_new (clientId : String) : CallsInv [] (State.new clientId : State M Q Pk) where
  numbered _ _ h := nomatch h
  connecting _ _ h := nomatch h
  spawned _ _ := rfl
  awaiting _ _ h := nomatch h
  connected h := nomatch h
  completed _ h := nomatch h

/-- A move of a task handles a CONNACK, or leaves the CONNACKs and the shared
`Notify` alone. -/
theorem Turn.connack_or {n : Nat} {session session' : Session M Q Pk} {i : Client.Input}
    {o : List (Client.Output Pk)} (h : Turn core n session session' i o es') :
    (∃ reasonCode, es' = [.handled n (.connack reasonCode)] ∧ o = [.connectNotified]) ∨
    ((∀ m, connackOf m es' = none) ∧ .connectNotified ∉ o) := by
  cases h with
  | quiet _ _ _ silent => exact .inr ⟨fun _ => rfl, silent.1⟩
  | ignored _ _ _ noConnack _ silent =>
    refine .inr ⟨fun m => connackOf_eq_none_iff.mpr fun reasonCode hmem => ?_, silent.1⟩
    cases List.mem_singleton.mp hmem
    exact noConnack reasonCode rfl
  | @connack i reasonCode _ _ _ => exact .inl ⟨reasonCode, rfl, rfl⟩
  | acknowledged _ _ _ acknowledges _ =>
    refine .inr ⟨fun m => connackOf_eq_none_iff.mpr fun reasonCode hmem => ?_, by simp⟩
    rcases List.mem_cons.mp hmem with heq | hmem
    · cases heq
      exact acknowledges
    · cases List.mem_singleton.mp hmem
  | sent _ _ _ _ _ silent => exact .inr ⟨fun _ => rfl, silent.1⟩
  | lost _ _ _ _ _ silent => exact .inr ⟨fun _ => rfl, silent.1⟩
  | stored _ _ _ _ => exact .inr ⟨fun _ => rfl, nofun⟩

theorem UntouchedSessions.none_iff (h : UntouchedSessions s s') (n : Nat) :
    s'.sessions n = none ↔ s.sessions n = none := by
  have hrel := h n
  cases hs : s.sessions n with
  | none =>
    cases hs' : s'.sessions n with
    | none => exact Iff.rfl
    | some session' =>
      rw [hs, hs'] at hrel
      cases hrel
  | some session =>
    cases hs' : s'.sessions n with
    | none =>
      rw [hs, hs'] at hrel
      cases hrel
    | some session' => exact iff_of_false nofun nofun

theorem setSession_none_iff {n m : Nat} {session session' : Session M Q Pk}
    (found : s.sessions n = some session) :
    (s.setSession n session').sessions m = none ↔ s.sessions m = none := by
  rw [setSession_sessions]
  split
  · next hm =>
    rw [hm, found]
    exact iff_of_false nofun nofun
  · exact Iff.rfl

/-- A move that creates no session and no `connect`. -/
theorem CallsInv.frame (hinv : CallsInv es s)
    (hsessions : ∀ n, s'.sessions n = none ↔ s.sessions n = none)
    (hnext : s'.nextSession = s.nextSession)
    (hconnack : ∀ n, s.sessions n = none → connackOf n es' = none)
    (hconnecting : ∀ n remote, s'.call = .connecting n remote → s.call = .connecting n remote)
    (hawaiting : ∀ n, s'.call = .awaitConnack n → s.call = .awaitConnack n ∧
      (s.connectNotification.signalled = true ∨ connackOf n es' ≠ none →
        s'.connectNotification.signalled = true))
    (hconnected : s'.connected = true → s.connected = true ∨ ∃ n, .connected n ∈ es')
    (hcompleted : ∀ notify, .completed notify ∈ es' →
      ∃ packet, phaseOf notify es = .answered packet) : CallsInv (es ++ es') s' := by
  constructor
  · intro n session' hn
    rw [hnext]
    cases hs : s.sessions n with
    | none =>
      rw [(hsessions n).mpr hs] at hn
      cases hn
    | some session => exact hinv.numbered n session hs
  · intro n remote hcall
    obtain ⟨hnone, hlt⟩ := hinv.connecting n remote (hconnecting n remote hcall)
    rw [hnext]
    exact ⟨(hsessions n).mpr hnone, hlt⟩
  · intro n hnone
    have hnone := (hsessions n).mp hnone
    rw [connackOf_append, hinv.spawned n hnone, hconnack n hnone]
    rfl
  · intro n reasonCode hcall hsome
    obtain ⟨hcall, hkeep⟩ := hawaiting n hcall
    rw [connackOf_append] at hsome
    cases hold : connackOf n es with
    | some reasonCode' => exact hkeep (.inl (hinv.awaiting n reasonCode' hcall hold))
    | none =>
      rw [hold, Option.none_or] at hsome
      exact hkeep (.inr (by rw [hsome]; nofun))
  · intro hset
    rcases hconnected hset with hold | ⟨n, hmem⟩
    · obtain ⟨n, hmem⟩ := hinv.connected hold
      exact ⟨n, List.mem_append_left _ hmem⟩
    · exact ⟨n, List.mem_append_right _ hmem⟩
  · intro notify hmem
    have hanswered : ∃ packet, phaseOf notify es = .answered packet := by
      rcases List.mem_append.mp hmem with hold | hnew
      · exact hinv.completed notify hold
      · exact hcompleted notify hnew
    obtain ⟨packet, hphase⟩ := hanswered
    exact ⟨packet, phaseOf_answered es' hphase⟩

/-- What a task notifies is no field of the client. -/
theorem foldl_applyOutput_fields : ∀ (o : List (Client.Output Pk)) (s : State M Q Pk),
    (o.foldl applyOutput s).nextSession = s.nextSession ∧
      (o.foldl applyOutput s).connected = s.connected := by
  intro o
  induction o with
  | nil => exact fun s => ⟨rfl, rfl⟩
  | cons x o ih =>
    intro s
    obtain ⟨hnext, hconnected⟩ := ih (applyOutput s x)
    rw [List.foldl_cons, hnext, hconnected]
    cases x <;> exact ⟨rfl, rfl⟩

theorem CallsInv.task {n : Nat} {i : Client.Input} {session session' : Session M Q Pk}
    {o : List (Client.Output Pk)} (hinv : CallsInv es s) (found : s.sessions n = some session)
    (turn : Turn core n session session' i o es') :
    CallsInv (es ++ es') (o.foldl applyOutput (s.setSession n session')) := by
  have hsignals := foldl_applyOutput_signals o (s.setSession n session')
  obtain ⟨hnext, hconnected⟩ := foldl_applyOutput_fields o (s.setSession n session')
  have hnone : ∀ m, (o.foldl applyOutput (s.setSession n session')).sessions m = none ↔
      s.sessions m = none := by
    intro m
    rw [hsignals.sessions]
    exact setSession_none_iff found
  refine hinv.frame hnone hnext (fun m hm => ?_) (fun m remote hcall => hsignals.call ▸ hcall)
    (fun m hcall => ⟨hsignals.call ▸ hcall, fun h => ?_⟩) (fun hset => .inl (hconnected ▸ hset))
    fun notify hmem => absurd hmem (turn.noReturn.2 notify)
  · -- a task that handles something is there
    rcases turn.connack_or with ⟨reasonCode, rfl, -⟩ | ⟨hno, -⟩
    · refine connackOf_eq_none_iff.mpr fun reasonCode' hmem => ?_
      cases List.mem_singleton.mp hmem
      rw [found] at hm
      cases hm
    · exact hno m
  · rcases turn.connack_or with ⟨reasonCode, -, rfl⟩ | ⟨hno, -⟩
    · exact Notify.signalled_notifyOne _
    · rcases h with hold | hnew
      · exact hsignals.connect hold
      · exact absurd (hno m) hnew

/-- **What the calls know stays so.** -/
theorem CallMove.callsInv (hagrees : Agrees es s) (hinv : CallsInv es s)
    (h : CallMove core qc s i s' es') : CallsInv (es ++ es') s' := by
  -- a move that returns to the client, or waits for a request
  have hreturn : ∀ {s' : State M Q Pk} {es' : List CallEvent},
      (∀ n, s'.sessions n = none ↔ s.sessions n = none) → s'.nextSession = s.nextSession →
      (∀ n, connackOf n es' = none) → (∀ n remote, s'.call ≠ .connecting n remote) →
      (∀ n, s'.call ≠ .awaitConnack n) →
      (s'.connected = true → s.connected = true ∨ ∃ n, .connected n ∈ es') →
      (∀ notify, .completed notify ∈ es' → ∃ packet, phaseOf notify es = .answered packet) →
      CallsInv (es ++ es') s' := by
    intro s' es' hsessions hnext hconnack hconnecting hawaiting hconnected hcompleted
    exact hinv.frame hsessions hnext (fun n _ => hconnack n)
      (fun n remote hcall => absurd hcall (hconnecting n remote))
      (fun n hcall => absurd hcall (hawaiting n)) hconnected hcompleted
  cases h with
  | task found _ turn _ _ => exact hinv.task found turn
  | taskDrop found _ =>
    exact hinv.frame (fun _ => setSession_none_iff found) rfl (fun _ _ => rfl) (fun _ _ h => h)
      (fun _ hcall => ⟨hcall, fun h => h.elim id fun h => absurd rfl h⟩) .inl nofun
  | begins begins =>
    have hnone := begins.sessions.none_iff
    obtain ⟨remote, hcall⟩ := begins.call
    rw [List.append_nil]
    refine ⟨fun n session' hn => ?_, fun n remote' hc => ?_,
      fun n hn => hinv.spawned n ((hnone n).mp hn), fun n reasonCode hc => ?_,
      fun hset => hinv.connected (begins.connected ▸ hset), hinv.completed⟩
    · rw [begins.nextSession]
      cases hs : s.sessions n with
      | none =>
        rw [(hnone n).mpr hs] at hn
        cases hn
      | some session =>
        have hlt := hinv.numbered n session hs
        omega
    · -- the new number has no session yet
      rw [hcall] at hc
      cases hc
      rw [begins.nextSession]
      refine ⟨(hnone s.nextSession).mpr ?_, Nat.lt_succ_self _⟩
      cases hs : s.sessions s.nextSession with
      | none => rfl
      | some session => exact absurd (hinv.numbered _ session hs) (Nat.lt_irrefl _)
    · rw [hcall] at hc
      cases hc
  | @spawn n remote localAddr conn call =>
    obtain ⟨hnone, hlt⟩ := hinv.connecting n remote call
    have hsessions := setSession_sessions s n
      ⟨Connection.new core remote localAddr s.clientId conn, .new⟩
    rw [List.append_nil]
    refine ⟨fun m session' hm => ?_, nofun, fun m hm => ?_, fun m reasonCode hc hsome => ?_,
      hinv.connected, hinv.completed⟩
    · have hm := (hsessions m).symm.trans hm
      split at hm
      · next hmn =>
        rw [hmn]
        exact hlt
      · exact hinv.numbered m session' hm
    · have hm := (hsessions m).symm.trans hm
      split at hm
      · cases hm
      · exact hinv.spawned m hm
    · -- nothing has been handled on it
      cases hc
      rw [hinv.spawned n hnone] at hsome
      cases hsome
  | @connectPending n call pending =>
    refine hinv.frame (fun _ => Iff.rfl) rfl (fun _ _ => rfl) (fun _ _ h => h)
      (fun m hcall => ⟨hcall, fun h => ?_⟩) .inl (by simp)
    rcases h with hsignalled | hnew
    · rw [pending] at hsignalled
      cases hsignalled
    · exact absurd rfl hnew
  | @connectReturned n call signalled =>
    exact hreturn (fun _ => Iff.rfl) rfl (fun _ => rfl) nofun nofun
      (fun _ => .inr ⟨n, by simp⟩) (by simp)
  | connectDropped call =>
    exact hreturn (fun _ => Iff.rfl) rfl (fun _ => rfl) nofun nofun .inl (by simp)
  | enqueue call found taken =>
    exact hreturn (fun _ => setSession_none_iff found) rfl (fun _ => rfl) nofun nofun .inl (by simp)
  | @requestPending n notify call pending =>
    refine hreturn (fun _ => Iff.rfl) rfl (fun _ => rfl) (fun m remote hc => ?_) (fun m hc => ?_)
      .inl nofun
    · cases call.symm.trans hc
    · cases call.symm.trans hc
  | @requestReturned n notify call signalled =>
    refine hreturn (fun _ => Iff.rfl) rfl (fun _ => rfl) nofun nofun .inl fun k hmem => ?_
    cases List.mem_singleton.mp hmem
    obtain ⟨m, hmem⟩ := hagrees.signalled notify signalled
    exact hagrees.answered m notify hmem
  | rests _ _ _ rests =>
    exact hreturn rests.sessions.none_iff rests.nextSession (fun _ => rfl) rests.connecting
      rests.awaitConnack (fun hset => .inl (rests.connected ▸ hset)) nofun

/-! ## Steps and runs -/

/-- What a step adds to a log in which every completed request was answered. -/
theorem honestLog_append (hinv : CallsInv es s) :
    HonestLog (es ++ es') ↔ HonestLog es ∧
      (∀ n reasonCode, .connected n ∈ es' → connackOf n (es ++ es') = some reasonCode →
        reasonCode = 0) ∧
      (∀ n reasonCode, .connected n ∈ es → connackOf n es = none →
        connackOf n es' = some reasonCode → reasonCode = 0) ∧
      (∀ notify packet, .completed notify ∈ es' →
        phaseOf notify (es ++ es') = .answered packet → packet.refuses = false) := by
  constructor
  · intro h
    refine ⟨⟨fun n reasonCode hmem hsome => ?_, fun notify packet hmem hphase => ?_⟩,
      fun n reasonCode hmem => h.connect n reasonCode (List.mem_append_right _ hmem),
      fun n reasonCode hmem hnone hsome => ?_,
      fun notify packet hmem => h.request notify packet (List.mem_append_right _ hmem)⟩
    · refine h.connect n reasonCode (List.mem_append_left _ hmem) ?_
      rw [connackOf_append, hsome]
      rfl
    · exact h.request notify packet (List.mem_append_left _ hmem) (phaseOf_answered es' hphase)
    · refine h.connect n reasonCode (List.mem_append_left _ hmem) ?_
      rw [connackOf_append, hnone, hsome]
      rfl
  · rintro ⟨hold, hconnected, hlate, hcompleted⟩
    refine ⟨fun n reasonCode hmem hsome => ?_, fun notify packet hmem hphase => ?_⟩
    · rcases List.mem_append.mp hmem with hmem | hmem
      · rw [connackOf_append] at hsome
        cases hbefore : connackOf n es with
        | none =>
          rw [hbefore, Option.none_or] at hsome
          exact hlate n reasonCode hmem hbefore hsome
        | some reasonCode' =>
          rw [hbefore] at hsome
          cases hsome
          exact hold.connect n reasonCode hmem hbefore
      · exact hconnected n reasonCode hmem hsome
    · rcases List.mem_append.mp hmem with hmem | hmem
      · -- it was answered when it completed, and is still answered by that packet
        obtain ⟨packet', hphase'⟩ := hinv.completed notify hmem
        rw [phaseOf_answered es' hphase'] at hphase
        cases hphase
        exact hold.request notify packet hmem hphase'
      · exact hcompleted notify packet hmem hphase

/-- Nothing returns and no CONNACK is handled. -/
theorem honestLog_append_of_calm (hinv : CallsInv es s) (hconnected : ∀ n, .connected n ∉ es')
    (hcompleted : ∀ notify, .completed notify ∉ es') (hconnack : ∀ n, connackOf n es' = none) :
    HonestLog (es ++ es') ↔ HonestLog es := by
  rw [honestLog_append hinv]
  refine and_iff_left ⟨fun n _ hmem => absurd hmem (hconnected n), fun n _ _ _ hsome => ?_,
    fun notify _ hmem => absurd hmem (hcompleted notify)⟩
  rw [hconnack n] at hsome
  cases hsome

/-- A move of a task can only refuse a connection too late. -/
theorem task_honest_iff {n : Nat} {i : Client.Input} {session session' : Session M Q Pk}
    {o : List (Client.Output Pk)} (hinv : CallsInv es s)
    (hhandled : ∀ m packet, .handled m packet ∈ es' ↔ Handles s (.task n i) m packet)
    (turn : Turn core n session session' i o es') :
    HonestLog (es ++ es') ↔ HonestLog es ∧ Unrefused es s (.task n i) := by
  have hconnack : ∀ m reasonCode, connackOf m es' = some reasonCode ↔
      Handles s (.task n i) m (.connack reasonCode) := by
    intro m reasonCode
    rw [← hhandled m (.connack reasonCode)]
    rcases turn.connack_or with ⟨reasonCode', rfl, -⟩ | ⟨hno, -⟩
    · simp only [connackOf, List.findSome?_cons, List.findSome?_nil, List.mem_singleton]
      by_cases hm : n = m
      · simp [hm, eq_comm]
      · simp [hm, Ne.symm hm]
    · rw [hno m]
      exact iff_of_false nofun (connackOf_eq_none_iff.mp (hno m) reasonCode)
  rw [honestLog_append hinv]
  refine and_congr_right fun _ => ⟨fun h => ⟨nofun, nofun, fun m reasonCode hh hmem hnone => ?_⟩,
    fun hC => ⟨fun m _ hmem => absurd hmem (turn.noReturn.1 m),
      fun m reasonCode hmem hnone hsome => ?_,
      fun notify _ hmem => absurd hmem (turn.noReturn.2 notify)⟩⟩
  · exact h.2.1 m reasonCode hmem hnone ((hconnack m reasonCode).mpr hh)
  · exact hC.late m reasonCode ((hconnack m reasonCode).mp hsome) hmem hnone

/-- A step keeps the law exactly when it polls no refused call and refuses no
connection too late. -/
theorem step_honest_iff (hagrees : Agrees es s) (hinv : CallsInv es s)
    (hhandled : ∀ n packet, .handled n packet ∈ es' ↔ Handles s i n packet)
    (h : CallMove core qc s i s' es') :
    HonestLog (es ++ es') ↔ HonestLog es ∧ Unrefused es s i := by
  have hlate : (∀ n, connackOf n es' = none) → ∀ n reasonCode,
      Handles s i n (.connack reasonCode) → .connected n ∈ es → connackOf n es = none →
        reasonCode = 0 := by
    intro hnone n reasonCode hh _ _
    exact absurd ((hhandled n _).mpr hh) (connackOf_eq_none_iff.mp (hnone n) reasonCode)
  have hcalm : i ≠ .poll → (∀ n, .connected n ∉ es') → (∀ notify, .completed notify ∉ es') →
      (∀ n, connackOf n es' = none) →
      (HonestLog (es ++ es') ↔ HonestLog es ∧ Unrefused es s i) := by
    intro hpoll hconnected hcompleted hnone
    rw [honestLog_append_of_calm hinv hconnected hcompleted hnone]
    exact (and_iff_left ⟨fun _ _ _ hi => absurd hi hpoll, fun _ _ _ _ hi => absurd hi hpoll,
      hlate hnone⟩).symm
  cases h with
  | task found _ turn _ _ => exact task_honest_iff hinv hhandled turn
  | taskDrop _ _ => exact hcalm nofun nofun nofun fun _ => rfl
  | begins _ => exact hcalm nofun nofun nofun fun _ => rfl
  | spawn _ => exact hcalm nofun nofun nofun fun _ => rfl
  | @connectPending n call pending =>
    rw [honestLog_append_of_calm hinv (by simp) (by simp) fun _ => rfl]
    refine (and_iff_left ⟨fun m reasonCode hc _ hsome => ?_, fun m notify packet hc => ?_,
      hlate fun _ => rfl⟩).symm
    · -- a CONNACK would have signalled it
      rw [hinv.awaiting m reasonCode hc hsome] at pending
      cases pending
    · cases call.symm.trans hc
  | @connectReturned n call signalled =>
    have hsame : ∀ m, connackOf m (es ++ [.polled n, .connected n]) = connackOf m es := by
      intro m
      rw [connackOf_append]
      exact Option.or_none
    rw [honestLog_append hinv]
    refine and_congr_right fun _ => ⟨fun h => ⟨fun m reasonCode hc _ hsome => ?_,
      fun m notify packet hc => ?_, hlate fun _ => rfl⟩,
      fun hC => ⟨fun m reasonCode hmem hsome => ?_, fun _ _ _ _ => nofun, by simp⟩⟩
    · obtain rfl := Call.awaitConnack.inj (call.symm.trans hc)
      exact h.1 n reasonCode (by simp) ((hsame n).trans hsome)
    · cases call.symm.trans hc
    · have hm : m = n := by simpa using hmem
      subst hm
      exact hC.connack m reasonCode call rfl ((hsame m).symm.trans hsome)
  | connectDropped _ => exact hcalm nofun (by simp) (by simp) fun _ => rfl
  | enqueue _ _ _ => exact hcalm nofun (by simp) (by simp) fun _ => rfl
  | @requestPending n notify call pending =>
    rw [honestLog_append_of_calm hinv (by simp) (by simp) fun _ => rfl]
    refine (and_iff_left ⟨fun m reasonCode hc => ?_, fun m k packet hc _ hphase => ?_,
      hlate fun _ => rfl⟩).symm
    · cases call.symm.trans hc
    · -- an answered request is signalled
      obtain ⟨rfl, rfl⟩ := Call.awaitNotify.inj (call.symm.trans hc)
      obtain ⟨session, -, hwaits⟩ := hagrees.waits n notify call
      cases hwaits with
      | queued phase _ => cases phase.symm.trans hphase
      | sent phase _ => cases phase.symm.trans hphase
      | stored phase _ => cases phase.symm.trans hphase
      | answered _ signalled =>
        rw [pending] at signalled
        cases signalled
  | @requestReturned n notify call signalled =>
    have hsame : phaseOf notify (es ++ [.completed notify]) = phaseOf notify es := by
      rw [phaseOf_append]
      rfl
    rw [honestLog_append hinv]
    refine and_congr_right fun _ => ⟨fun h => ⟨fun m reasonCode hc => ?_,
      fun m k packet hc _ hphase => ?_, hlate fun _ => rfl⟩,
      fun hC => ⟨by simp, fun _ _ _ _ => nofun, fun k packet hmem hphase => ?_⟩⟩
    · cases call.symm.trans hc
    · obtain ⟨rfl, rfl⟩ := Call.awaitNotify.inj (call.symm.trans hc)
      exact h.2.2 notify packet List.mem_cons_self (hsame.trans hphase)
    · cases List.mem_singleton.mp hmem
      exact hC.request n notify packet call rfl (hsame.symm.trans hphase)
  | rests _ noPoll _ _ => exact hcalm noPoll nofun nofun fun _ => rfl

/-- **When no refusal is reported as success**: in every run, no `connect` whose
connection was refused and no `subscribe` or `publish` that was answered with an
error has returned `Ok`, and `connected` is set by no refused connect, if and
only if no step polls a refused call or handles the refusal of a connection
whose `connect` has returned. -/
theorem honest_iff {clientId : String} {is : List (Input Q)} {s : State M Q Pk}
    {es : List CallEvent}
    (hr : run (observe (step core qc) (callEvents core qc)) (State.new clientId) is =
      some (s, es)) :
    Honest es s ↔ AllSteps (observe (step core qc) (callEvents core qc)) Unrefused []
      (State.new clientId) is := by
  have hstep : ∀ es s i s' es', (Inv s ∧ Agrees es s ∧ CallsInv es s) →
      observe (step core qc) (callEvents core qc) s i = some (s', es') →
      (Inv s' ∧ Agrees (es ++ es') s' ∧ CallsInv (es ++ es') s') ∧
        (HonestLog (es ++ es') ↔ HonestLog es ∧ Unrefused es s i) := by
    rintro es s i s' es' ⟨hinv, hagrees, hcalls⟩ hm
    obtain ⟨o, hstep, rfl⟩ := observe_eq_some.mp hm
    have hmove := step_callMove hstep
    exact ⟨⟨step_inv hinv hstep, hmove.agrees hinv hagrees, hmove.callsInv hagrees hcalls⟩,
      step_honest_iff hagrees hcalls (fun _ _ => handled_mem_callEvents) hmove⟩
  have hnew : Inv (State.new clientId : State M Q Pk) ∧
      Agrees [] (State.new clientId : State M Q Pk) ∧
        CallsInv [] (State.new clientId : State M Q Pk) :=
    ⟨inv_new clientId, agrees_new clientId, callsInv_new clientId⟩
  have hcalls : CallsInv es s := by
    have hall := @run_induct _ _ _ (observe (step core qc) (callEvents core qc))
      (fun es s => Inv s ∧ Agrees es s ∧ CallsInv es s) is es (State.new clientId) s hnew
      (fun es s i s' es' hJ hm => (hstep es s i s' es' hJ hm).1) hr
    exact hall.2.2
  have hlog : HonestLog es ↔ AllSteps (observe (step core qc) (callEvents core qc)) Unrefused []
      (State.new clientId) is :=
    @run_iff _ _ _ (observe (step core qc) (callEvents core qc)) Unrefused
      (fun es s => Inv s ∧ Agrees es s ∧ CallsInv es s) (fun es _ => HonestLog es) is es
      (State.new clientId) s hnew ⟨fun _ _ h => (nomatch h), fun _ _ h => (nomatch h)⟩
      (fun es s i s' es' hJ hm => (hstep es s i s' es' hJ hm).1)
      (fun es s i s' es' hJ hm => (hstep es s i s' es' hJ hm).2) hr
  rw [← hlog]
  refine ⟨fun h => h.log, fun h => ⟨h, fun hset => ?_⟩⟩
  obtain ⟨n, hmem⟩ := hcalls.connected hset
  exact ⟨n, hmem, fun reasonCode hsome => h.connect n reasonCode hmem hsome⟩

/-- The first `connect`, answered by a CONNACK with this reason code, up to its
return. -/
def connectAnswered (reasonCode : UInt8) : List (Input Peer) :=
  connectStart ++ [.task 0 .step, .task 0 (.sent true),
    .task 0 (.datagram [0x20, 3, 0, reasonCode, 0] peerAddr)] ++
    List.replicate 9 (.task 0 .step) ++ [.poll]

/-- A first `publish`, answered by a PUBACK with this reason code, up to its
return. -/
def publishAnswered (reasonCode : UInt8) : List (Input Peer) :=
  [.publish "t" [1], .send, .task 0 (.request (.publish ⟨"t", .atLeastOnce, [1]⟩) 0)] ++
    List.replicate 4 (.task 0 .step) ++
    [.task 0 (.datagram [0x40, 3, 0, 1, reasonCode] peerAddr)] ++
    List.replicate 7 (.task 0 .step) ++ [.poll]

theorem honest_iff_sample :
    ∃ s es, run (observe (step wireCore peerQuiche) (callEvents wireCore peerQuiche))
        (State.new "c1") (connectAnswered 0 ++ publishAnswered 0) = some (s, es) ∧
      (Honest es s ↔ AllSteps (observe (step wireCore peerQuiche) (callEvents wireCore peerQuiche))
        Unrefused [] (State.new "c1") (connectAnswered 0 ++ publishAnswered 0)) :=
  ⟨_, _, rfl, honest_iff rfl⟩

/-- The broker answers CONNECT with "not authorized" (0x87), and `connect`
returns `Ok` and sets `connected`. It answers PUBLISH so, and `publish` returns
`Ok`. -/
theorem refusal_reported_as_success :
    (∃ s es, run (observe (step wireCore peerQuiche) (callEvents wireCore peerQuiche))
        (State.new "c1") (connectAnswered 0x87) = some (s, es) ∧
      s.connected = true ∧ es = [.handled 0 (.connack 0x87), .polled 0, .connected 0] ∧
      ¬ Honest es s) ∧
    ∃ s es, run (observe (step wireCore peerQuiche) (callEvents wireCore peerQuiche))
        (State.new "c1") (connectAnswered 0 ++ publishAnswered 0x87) = some (s, es) ∧
      .handled 0 (.puback 1 0x87) ∈ es ∧ .completed 0 ∈ es ∧ ¬ Honest es s := by
  refine ⟨⟨_, _, rfl, rfl, rfl, fun h => ?_⟩, _, _, rfl, by decide, by decide, fun h => ?_⟩
  · have hzero := h.log.connect 0 0x87 (by decide) rfl
    exact absurd hzero (by decide)
  · have hfine := h.log.request 0 (.puback 1 0x87) (by decide) rfl
    exact absurd hfine (by decide)

end System

end MqttScion.Client
