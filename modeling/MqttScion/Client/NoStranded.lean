import MqttScion.Client.Callers
import MqttScion.Client.Wire

/-!
# No stranded caller: exactly when

A caller waits on a `Notify` that only its connection task signals, and holds
an `Arc` of it, so it does not see the task go. The task signals nothing on its
way out.

A waiting request is the last one of its session, so the running task keeps it
until it signals it. So a caller can be stranded in two ways only: the task
ends while it waits, or its request enters the channel of a task that has
already ended and is about to be dropped.

> `noStranded_iff`: in every run of the client and its tasks, no caller is
> stranded in any state if and only if no step is of one of these two kinds.
-/

namespace MqttScion.Client.System

open MqttScion.Net MqttScion.Lib

variable {M Q Pk : Type} {core : MqttCore M Pk} {qc : Quiche Q}

/-- A waiting caller's task runs and, for a request, still has it. -/
def NoStranded (_ : List (Output Pk)) (s : State M Q Pk) : Prop :=
  ∀ n, s.Waits n → ∃ session, s.sessions n = some session ∧ session.Running ∧
    ∀ notify, s.call = .awaitNotify n notify → session.Holds notify

/-- The step ends no task a caller waits on, and puts no request into the
channel of a task that has ended. -/
def Spares (core : MqttCore M Pk) (qc : Quiche Q) (_ : List (Output Pk)) (s : State M Q Pk)
    (i : Input Q) : Prop :=
  (∀ n i' session, i = .task n i' → s.sessions n = some session → s.Waits n →
    ¬ Exits core qc session.connection i') ∧
  (∀ n request session, i = .send → s.call = .sendRequest n request →
    s.sessions n = some session → session.requests.rxAlive = true → session.Running)

/-- `Notify`s are numbered in order, and a waiting request is the last one. -/
structure Inv (s : State M Q Pk) : Prop where
  bound : ∀ n session notify, s.sessions n = some session → session.Holds notify →
    notify < s.nextNotify
  fresh : ∀ notify, s.nextNotify ≤ notify → (s.notifies notify).signalled = false
  waiting : ∀ n notify, s.call = .awaitNotify n notify → notify < s.nextNotify ∧
    ∀ session, s.sessions n = some session → session.Last notify

theorem inv_new (clientId : String) : Inv (State.new clientId : State M Q Pk) where
  bound _ _ _ h := nomatch h
  fresh _ _ := rfl
  waiting _ _ h := nomatch h

/-- A task's move keeps numbers, and what it signals had one already. -/
theorem task_inv {s s' : State M Q Pk} {n : Nat} {session session' : Session M Q Pk}
    {o : List (Client.Output Pk)} (hinv : Inv s) (found : s.sessions n = some session)
    (move : RequestMove session session' o) (signals : Signals (s.setSession n session') s' o) :
    Inv s' := by
  have hsessions : ∀ m found', s'.sessions m = some found' →
      (m = n ∧ found' = session') ∨ (m ≠ n ∧ s.sessions m = some found') := by
    intro m found' hm
    rw [signals.sessions, setSession_sessions] at hm
    split at hm
    · next hmn =>
      cases hm
      exact .inl ⟨hmn, rfl⟩
    · next hmn => exact .inr ⟨hmn, hm⟩
  constructor
  · intro m found' notify hm hholds
    rw [signals.nextNotify]
    rcases hsessions m found' hm with ⟨-, rfl⟩ | ⟨-, hm⟩
    · exact hinv.bound n session notify found (move.holds_of_holds hholds)
    · exact hinv.bound m found' notify hm hholds
  · intro notify hle
    rw [signals.nextNotify] at hle
    rw [signals.notifiedSame notify fun hn => ?_]
    · exact hinv.fresh notify hle
    · have hlt := hinv.bound n session notify found (move.holds_of_notified hn)
      have hle : s.nextNotify ≤ notify := hle
      omega
  · intro m notify hcall
    rw [signals.call] at hcall
    obtain ⟨hlt, hlast⟩ := hinv.waiting m notify hcall
    refine ⟨by rw [signals.nextNotify]; exact hlt, fun found' hm => ?_⟩
    rcases hsessions m found' hm with ⟨rfl, rfl⟩ | ⟨-, hm⟩
    · exact move.last (hlast session found)
    · exact hlast found' hm

/-- A dropped channel only loses requests. -/
theorem taskDrop_inv {s : State M Q Pk} {n : Nat} {session : Session M Q Pk} (hinv : Inv s)
    (found : s.sessions n = some session) :
    Inv (s.setSession n { session with requests := session.requests.dropReceiver }) := by
  have hnil : (⟨session.connection, session.requests.dropReceiver⟩ : Session M Q Pk).queued = [] :=
    rfl
  constructor
  · intro m found' notify hm hholds
    rw [setSession_sessions] at hm
    split at hm
    · cases hm
      rcases hholds with hq | hrest
      · cases hq
      · exact hinv.bound n session notify found (.inr hrest)
    · exact hinv.bound m found' notify hm hholds
  · exact hinv.fresh
  · intro m notify hcall
    obtain ⟨hlt, hlast⟩ := hinv.waiting m notify hcall
    refine ⟨hlt, fun found' hm => ?_⟩
    rw [setSession_sessions] at hm
    split at hm
    · next hmn =>
      cases hm
      have hold := hlast session (by rw [hmn]; exact found)
      exact ⟨fun hcur => ⟨(hold.1 hcur).1, hnil⟩, fun _ => hnil⟩
    · exact hlast found' hm

/-- A fresh task has no requests. -/
theorem spawn_inv {s : State M Q Pk} {n : Nat} {remote localAddr : ScionAddr} {conn : Q}
    (hinv : Inv s) :
    Inv { s.setSession n ⟨Connection.new core remote localAddr s.clientId conn, .new⟩ with
      call := .awaitConnack n } := by
  constructor
  · intro m found' notify hm hholds
    have hm : (s.setSession n _).sessions m = some found' := hm
    rw [setSession_sessions] at hm
    split at hm
    · cases hm
      rcases hholds with hq | harm | hcur
      · cases hq
      · cases harm
      · cases hcur
    · exact hinv.bound m found' notify hm hholds
  · exact hinv.fresh
  · intro m notify hcall
    cases hcall

/-- The request that enters a channel gets the next number, and the channel has
room for no other. -/
theorem enqueue_inv {s : State M Q Pk} {n : Nat} {request : Request} {session : Session M Q Pk}
    (hinv : Inv s) (found : s.sessions n = some session)
    (taken : (session.requests.trySend (request, s.nextNotify)).1 = .ok) :
    Inv { s.setSession n { session with
        requests := (session.requests.trySend (request, s.nextNotify)).2 } with
      nextNotify := s.nextNotify + 1
      call := .awaitNotify n s.nextNotify } := by
  have hqueue := Chan.trySend_ok_single taken
  constructor
  · intro m found' notify hm hholds
    show notify < s.nextNotify + 1
    have hm : (s.setSession n _).sessions m = some found' := hm
    rw [setSession_sessions] at hm
    split at hm
    · cases hm
      rcases hholds with hq | hrest
      · unfold Session.queued at hq
        rw [hqueue] at hq
        have hnew : notify = s.nextNotify := List.mem_singleton.mp hq
        omega
      · have hlt := hinv.bound n session notify found (.inr hrest)
        omega
    · have hlt := hinv.bound m found' notify hm hholds
      omega
  · intro notify hle
    have hle : s.nextNotify + 1 ≤ notify := hle
    exact hinv.fresh notify (by omega)
  · intro m notify hcall
    have hcall : Call.awaitNotify n s.nextNotify = .awaitNotify m notify := hcall
    obtain ⟨rfl, rfl⟩ := Call.awaitNotify.inj hcall
    refine ⟨Nat.lt_succ_self _, fun found' hm => ?_⟩
    have hm : (s.setSession n _).sessions n = some found' := hm
    rw [setSession_sessions, if_pos rfl] at hm
    cases hm
    -- the new number is in no request the task has already
    have hnew : ¬ (session.connection.pc.inArm = some s.nextNotify ∨
        session.current = some s.nextNotify) := by
      intro hheld
      have hlt := hinv.bound n session s.nextNotify found (.inr hheld)
      omega
    exact ⟨fun hcur => absurd (.inr hcur) hnew, fun harm => absurd (.inl harm) hnew⟩

theorem calm_inv {s s' : State M Q Pk} {i : Input Q} (hinv : Inv s) (calm : Calm s i s') :
    Inv s' := by
  constructor
  · intro m found' notify hm hholds
    obtain ⟨session, hs, hsame⟩ := calm.sessions m found' hm
    rw [calm.nextNotify]
    exact hinv.bound m session notify hs ((hsame.holds notify).mp hholds)
  · intro notify hle
    rw [calm.nextNotify] at hle
    rw [calm.fresh notify fun n hcall => ?_]
    · exact hinv.fresh notify hle
    · -- an awaited number has been given out
      have hlt := (hinv.waiting n notify hcall).1
      omega
  · intro m notify hcall
    obtain ⟨hlt, hlast⟩ := hinv.waiting m notify (calm.waiting m notify hcall)
    refine ⟨by rw [calm.nextNotify]; exact hlt, fun found' hm => ?_⟩
    obtain ⟨session, hs, hsame⟩ := calm.sessions m found' hm
    exact hsame.last (hlast session hs)

theorem step_inv {s s' : State M Q Pk} {i : Input Q} {o : List (Output Pk)} (hinv : Inv s)
    (h : step core qc s i = some (s', o)) : Inv s' := by
  cases step_action h with
  | task found move _ _ signals => exact task_inv hinv found move signals
  | taskDrop found _ => exact taskDrop_inv hinv found
  | spawn _ => exact spawn_inv hinv
  | enqueue _ found taken => exact enqueue_inv hinv found taken
  | calm calm => exact calm_inv hinv calm

/-! ## Steps and runs -/

/-- Signals are only added, so who waits afterwards waited before. -/
theorem Signals.waits {s s' : State M Q Pk} {o : List (Client.Output Pk)} (h : Signals s s' o)
    {n : Nat} (hw : s'.Waits n) : s.Waits n := by
  rcases hw with ⟨hcall, hpending⟩ | ⟨notify, hcall, hpending⟩
  · refine .inl ⟨h.call ▸ hcall, Bool.eq_false_iff.mpr fun hsig => ?_⟩
    rw [h.connect hsig] at hpending
    cases hpending
  · refine .inr ⟨notify, h.call ▸ hcall, Bool.eq_false_iff.mpr fun hsig => ?_⟩
    rw [h.notified notify (.inl hsig)] at hpending
    cases hpending

/-- Where nothing was signalled, who waited before still waits. -/
theorem Signals.waits_of_silent {s s' : State M Q Pk} {o : List (Client.Output Pk)}
    (h : Signals s s' o) (hsilent : ∀ x ∈ o, ∃ data dst, x = .sent data dst) {n : Nat}
    (hw : s.Waits n) : s'.Waits n := by
  have hnone : ∀ x : Client.Output Pk, (∀ data dst, x ≠ .sent data dst) → x ∉ o := by
    intro x hx hmem
    obtain ⟨data, dst, hsent⟩ := hsilent x hmem
    exact hx data dst hsent
  rcases hw with ⟨hcall, hpending⟩ | ⟨notify, hcall, hpending⟩
  · exact .inl ⟨h.call.trans hcall, by rw [h.connectSame (hnone _ nofun)]; exact hpending⟩
  · exact .inr ⟨notify, h.call.trans hcall,
      by rw [h.notifiedSame notify (hnone _ nofun)]; exact hpending⟩

/-- A step of a task strands a caller exactly when it ends the task one waits
on. -/
theorem task_noStranded_iff {os o : List (Output Pk)} {s s' : State M Q Pk} {n : Nat}
    {i : Client.Input} {session session' : Session M Q Pk} {out : List (Client.Output Pk)}
    (hinv : Inv s) (hP : NoStranded os s) (found : s.sessions n = some session)
    (move : RequestMove session session' out)
    (exits : ¬ session'.Running ↔ Exits core qc session.connection i)
    (silent : ¬ session'.Running → ∀ x ∈ out, ∃ data dst, x = .sent data dst)
    (signals : Signals (s.setSession n session') s' out) :
    NoStranded (os ++ o) s' ↔ Spares core qc os s (.task n i) := by
  have hn : s'.sessions n = some session' := by
    rw [signals.sessions, setSession_sessions, if_pos rfl]
  have hother : ∀ m, m ≠ n → s'.sessions m = s.sessions m := by
    intro m hm
    rw [signals.sessions, setSession_sessions, if_neg hm]
  constructor
  · intro hP'
    refine ⟨fun m i' found' hi hs hw hexits => ?_, fun _ _ _ hi => nomatch hi⟩
    cases hi
    rw [found] at hs
    cases hs
    -- the exit signals nobody, so the caller waits on a task that has ended
    have hended := exits.mpr hexits
    obtain ⟨session₂, hs₂, hrunning, -⟩ := hP' n (signals.waits_of_silent (silent hended) hw)
    rw [hn] at hs₂
    cases hs₂
    exact hended hrunning
  · intro hC m hw'
    have hw : s.Waits m := signals.waits hw'
    obtain ⟨session₀, hs₀, hrunning₀, hholds₀⟩ := hP m hw
    by_cases hm : m = n
    · subst hm
      rw [found] at hs₀
      cases hs₀
      have hrunning : session'.Running :=
        not_not.mp fun hnot => hC.1 m i session rfl found hw (exits.mp hnot)
      refine ⟨session', hn, hrunning, fun notify hcall => ?_⟩
      have hcall₀ : s.call = .awaitNotify m notify := signals.call.symm.trans hcall
      have hlast := (hinv.waiting m notify hcall₀).2 session found
      rcases move.holds hlast (hholds₀ notify hcall₀) hrunning with hheld | hsignalled
      · exact hheld
      · -- signalled, and so not waiting
        have hsig := signals.notified notify (.inr hsignalled)
        rcases hw' with ⟨hcall', -⟩ | ⟨k, hcall', hpending⟩
        · exact absurd (hcall.symm.trans hcall') nofun
        · obtain ⟨-, rfl⟩ := Call.awaitNotify.inj (hcall.symm.trans hcall')
          rw [hsig] at hpending
          cases hpending
    · exact ⟨session₀, (hother m hm).trans hs₀, hrunning₀,
        fun notify hcall => hholds₀ notify (signals.call.symm.trans hcall)⟩

/-- Only a task and `send` can strand a caller. -/
theorem spares_of {os : List (Output Pk)} {s : State M Q Pk} {i : Input Q}
    (htask : ∀ n i', i ≠ .task n i') (hsend : i ≠ .send) : Spares core qc os s i :=
  ⟨fun n i' _ hi => absurd hi (htask n i'), fun _ _ _ hi => absurd hi hsend⟩

/-- A request strands its caller as it enters the channel exactly when the task
has ended. -/
theorem enqueue_noStranded_iff {os o : List (Output Pk)} {s : State M Q Pk} {n : Nat}
    {request : Request} {session : Session M Q Pk} (hinv : Inv s)
    (call : s.call = .sendRequest n request) (found : s.sessions n = some session)
    (taken : (session.requests.trySend (request, s.nextNotify)).1 = .ok) :
    NoStranded (os ++ o) { s.setSession n { session with
        requests := (session.requests.trySend (request, s.nextNotify)).2 } with
      nextNotify := s.nextNotify + 1
      call := .awaitNotify n s.nextNotify } ↔ Spares core qc os s (.send : Input Q) := by
  have hn := setSession_sessions s n { session with
    requests := (session.requests.trySend (request, s.nextNotify)).2 } n
  rw [if_pos rfl] at hn
  obtain ⟨halive, -⟩ := Chan.trySend_ok_iff.mp taken
  constructor
  · intro hP'
    refine ⟨fun _ _ _ hi => (nomatch hi), fun m request' found' _ hcall hs _ => ?_⟩
    rw [call] at hcall
    cases hcall
    rw [found] at hs
    cases hs
    obtain ⟨session₂, hs₂, hrunning, -⟩ :=
      hP' n (.inr ⟨s.nextNotify, rfl, hinv.fresh s.nextNotify (Nat.le_refl _)⟩)
    have hs₂ := hn.symm.trans hs₂
    cases hs₂
    exact hrunning
  · intro hC m hw
    rcases hw with ⟨hcall, -⟩ | ⟨notify, hcall, -⟩
    · cases hcall
    · obtain ⟨rfl, rfl⟩ := Call.awaitNotify.inj hcall
      refine ⟨_, hn, hC.2 n request session rfl call found halive, fun k hk => ?_⟩
      obtain ⟨-, rfl⟩ := Call.awaitNotify.inj hk
      refine .inl ?_
      unfold Session.queued
      rw [Chan.trySend_ok_queue taken, List.map_append]
      exact List.mem_append_right _ (List.mem_singleton.mpr rfl)

/-- Where nobody is stranded, a step strands nobody exactly when it spares
them. -/
theorem step_noStranded_iff {os o : List (Output Pk)} {s s' : State M Q Pk} {i : Input Q}
    (hinv : Inv s) (hP : NoStranded os s) (h : step core qc s i = some (s', o)) :
    NoStranded (os ++ o) s' ↔ Spares core qc os s i := by
  cases step_action h with
  | task found move exits silent signals =>
    exact task_noStranded_iff hinv hP found move exits silent signals
  | @taskDrop n session found ended =>
    refine ⟨fun _ => spares_of (fun _ _ h => nomatch h) (fun h => nomatch h), fun _ m hw => ?_⟩
    obtain ⟨session₀, hs₀, hrunning, hholds⟩ := hP m hw
    -- the dropped task had ended, so it is not the one waited on
    have hm : m ≠ n := by
      rintro rfl
      rw [found] at hs₀
      cases hs₀
      exact ended hrunning
    refine ⟨session₀, ?_, hrunning, hholds⟩
    rw [setSession_sessions, if_neg hm]
    exact hs₀
  | @spawn n remote localAddr conn call =>
    refine ⟨fun _ => spares_of (fun _ _ h => nomatch h) (fun h => nomatch h), fun _ m hw => ?_⟩
    rcases hw with ⟨hcall, -⟩ | ⟨notify, hcall, -⟩
    · obtain rfl := Call.awaitConnack.inj hcall
      refine ⟨_, (setSession_sessions s n _ n).trans (if_pos rfl), ?_, fun _ hc => nomatch hc⟩
      rintro ⟨r, hr⟩
      cases hr
    · cases hcall
  | enqueue call found taken => exact enqueue_noStranded_iff hinv call found taken
  | calm calm =>
    refine ⟨fun _ => ⟨fun n i' _ hi => absurd hi (calm.noTask n i'),
      fun n request session hi hcall hs halive => ?_⟩, fun _ m hw => ?_⟩
    · have hclosed := calm.noRequest n request session hi hcall hs
      rw [hclosed] at halive
      cases halive
    · obtain ⟨hw₀, hcall, hsessions⟩ := calm.waits m hw
      obtain ⟨session₀, hs₀, hrunning, hholds⟩ := hP m hw₀
      refine ⟨session₀, by rw [hsessions]; exact hs₀, hrunning, fun notify hc => ?_⟩
      exact hholds notify (hcall.symm.trans hc)

/-- **When no caller is stranded**: in every run of a client and its connection
tasks, in every state a waiting, unsignalled call has a running task that still
holds its request, if and only if no step of the run ends a task somebody waits
on, and none puts a request into the channel of an ended task. -/
theorem noStranded_iff {clientId : String} {is : List (Input Q)} {s : State M Q Pk}
    {os : List (Output Pk)} (hr : run (step core qc) (State.new clientId) is = some (s, os)) :
    AllStates (step core qc) NoStranded [] (State.new clientId) is ↔
      AllSteps (step core qc) (Spares core qc) [] (State.new clientId) is := by
  refine @allStates_iff _ _ _ (step core qc) (fun _ _ _ => True) (Spares core qc)
    (fun _ s => Inv s) NoStranded ?_ ?_ is [] os _ s (inv_new clientId) ?_
    (allSteps_true is [] _) hr
  · intro os s i s' o hinv _ _ _ h
    exact step_inv hinv h
  · intro os s i s' o hinv hP _ h
    exact step_noStranded_iff hinv hP h
  · rintro n (⟨hcall, -⟩ | ⟨notify, hcall, -⟩)
    · cases hcall
    · cases hcall

/-- `connect` up to its return. -/
private def connectCall : List (Input Peer) :=
  [.connect peerAddr, .connection (some ((peerClient 100).localAddr, (peerClient 100).conn))] ++
    connectInputs.map (.task 0) ++ [.poll]

/-- `subscribe` up to the SUBACK it waits for. -/
private def subscribeCall : List (Input Peer) :=
  [.subscribe "t", .send, .poll, .task 0 (.request (.subscribe "t") 0)] ++
    List.replicate 4 (.task 0 .step)

/-- The idle timeout: the loop ends at `is_closed`, and the task is dropped. -/
private def connectionLost : List (Input Peer) :=
  [.task 0 .timeout, .task 0 .step, .taskDrop 0]

theorem noStranded_iff_sample :
    ∃ s os, run (step wireCore peerQuiche) (State.new "c1") (connectCall ++ subscribeCall) =
        some (s, os) ∧
      (AllStates (step wireCore peerQuiche) NoStranded [] (State.new "c1")
          (connectCall ++ subscribeCall) ↔
        AllSteps (step wireCore peerQuiche) (Spares wireCore peerQuiche) [] (State.new "c1")
          (connectCall ++ subscribeCall)) :=
  ⟨_, _, rfl, noStranded_iff rfl⟩

/-- The connection is lost while `subscribe` waits for its SUBACK: the task and
its channel are gone, and the caller waits on, unsignalled. -/
theorem caller_stranded :
    ∃ s os, run (step wireCore peerQuiche) (State.new "c1")
        (connectCall ++ subscribeCall ++ connectionLost) = some (s, os) ∧
      s.call = .awaitNotify 0 0 ∧ s.notifies 0 = .waiting ∧
      (∃ session, s.sessions 0 = some session ∧ session.connection.pc = .ended (.ok ()) ∧
        session.requests.rxAlive = false) ∧
      ¬ NoStranded os s := by
  refine ⟨_, _, rfl, rfl, rfl, ⟨_, rfl, rfl, rfl⟩, fun h => ?_⟩
  obtain ⟨session, hs, hrunning, -⟩ := h 0 (.inr ⟨0, rfl, rfl⟩)
  cases hs
  exact hrunning ⟨.ok (), rfl⟩

end MqttScion.Client.System
