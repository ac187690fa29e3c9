import MqttScion.Client.Exits
import MqttScion.Client.System

/-!
# Where a request is

While a connection task runs, a request sent to it is in one of three places:
in the request channel, in the arm that took it out, in `currentRequest`
(`Session.Holds`). `RequestMove` says once what a move of the task does to
these places and which `Notify` it signals; the rest is read off it.

> `RequestMove.holds`: a running task keeps the last request until it signals
> it. Only a request behind it could overwrite it in `currentRequest`.

> `foldl_applyOutput_signals`: a move of a task only adds signals, and those its
> outputs name.
-/

namespace MqttScion.Client

open MqttScion.Net MqttScion.Lib

variable {M Q Pk : Type} {core : MqttCore M Pk} {qc : Quiche Q}

namespace System

def Session.Running (session : Session M Q Pk) : Prop := ¬ session.connection.pc.Ended

/-- The `Notify` of the request in `currentRequest`. -/
def Session.current (session : Session M Q Pk) : Option Nat :=
  session.connection.currentRequest.map fun r => r.2.2

/-- The `Notify`s of the requests in the channel. -/
def Session.queued (session : Session M Q Pk) : List Nat :=
  session.requests.queue.map Prod.snd

/-- The request with this `Notify` is queued in the channel, in the arm that
took it out (which has no await), or in `currentRequest`. -/
def Session.Holds (session : Session M Q Pk) (notify : Nat) : Prop :=
  notify ∈ session.queued ∨ session.connection.pc.inArm = some notify ∨
    session.current = some notify

/-- No request is behind the one with this `Notify`. -/
def Session.Last (session : Session M Q Pk) (notify : Nat) : Prop :=
  (session.current = some notify →
    session.connection.pc.inArm = none ∧ session.queued = []) ∧
  (session.connection.pc.inArm = some notify → session.queued = [])

/-- What a move of its task does to the requests of a session. -/
inductive RequestMove (session session' : Session M Q Pk) (o : List (Client.Output Pk)) : Prop
  | same (queued : session'.queued = session.queued) (current : session'.current = session.current)
      (inArm : session'.connection.pc.inArm = session.connection.pc.inArm)
      (silent : ∀ notify, .notified notify ∉ o)
  | take (notify : Nat) (queued : session.queued = notify :: session'.queued)
      (current : session'.current = session.current)
      (before : session.connection.pc.inArm = none)
      (after : session'.connection.pc.inArm = some notify)
      (silent : ∀ notify, .notified notify ∉ o)
  | lost (notify : Nat) (queued : session.queued = notify :: session'.queued)
      (current : session'.current = session.current)
      (before : session.connection.pc.inArm = none)
      (after : session'.connection.pc.inArm = none) (ended : ¬ session'.Running)
      (silent : ∀ notify, .notified notify ∉ o)
  | acknowledge (notify : Nat) (queued : session'.queued = session.queued)
      (before : session.current = some notify) (after : session'.current = none)
      (inArm : session'.connection.pc.inArm = session.connection.pc.inArm)
      (out : o = [.notified notify])
  | store (notify : Nat) (queued : session'.queued = session.queued)
      (before : session.connection.pc.inArm = some notify)
      (after : session'.connection.pc.inArm = none) (current : session'.current = some notify)
      (silent : ∀ notify, .notified notify ∉ o)

/-- What the task finds in its channel: the request of the input, or nothing is
taken. -/
theorem takeRequest_eq_some {i : Client.Input} {requests requests' : Chan (Request × Nat) 1}
    (h : takeRequest i requests = some requests') :
    (∃ request notify, i = .request request notify ∧
      requests.queue = (request, notify) :: requests'.queue) ∨
    ((∀ request notify, i ≠ .request request notify) ∧ i ≠ .rcv ∧ i ≠ .dropReceiver ∧
      requests' = requests) := by
  unfold takeRequest at h
  split at h
  · next request notify =>
    split at h
    · next front rest hrecv =>
      split at h
      · next hfront =>
        cases h
        rw [hfront] at hrecv
        exact .inl ⟨request, notify, rfl, (Chan.recv_eq_some hrecv).1⟩
      · cases h
    · cases h
  · cases h
  · cases h
  · next hreq hrcv hdrop =>
    cases h
    exact .inr ⟨hreq, hrcv, hdrop, rfl⟩

namespace RequestMove

variable {session session' : Session M Q Pk} {o : List (Client.Output Pk)}

/-- While the task runs it keeps the last request until it signals it. -/
theorem holds (h : RequestMove session session' o) {notify : Nat} (hlast : session.Last notify)
    (hholds : session.Holds notify) (hrunning : session'.Running) :
    session'.Holds notify ∨ .notified notify ∈ o := by
  cases h with
  | same queued current inArm _ =>
    refine .inl ?_
    unfold Session.Holds
    rw [queued, current, inArm]
    exact hholds
  | take taken queued current before after _ =>
    refine .inl ?_
    rcases hholds with hq | harm | hcur
    · rw [queued] at hq
      rcases List.mem_cons.mp hq with rfl | hrest
      · exact .inr (.inl after)
      · exact .inl hrest
    · rw [before] at harm
      cases harm
    · exact .inr (.inr (current.trans hcur))
  | lost _ _ _ _ _ ended _ => exact absurd hrunning ended
  | acknowledge acked queued before after inArm out =>
    -- the request that leaves `currentRequest` is the one that is signalled
    rcases hholds with hq | harm | hcur
    · exact .inl (.inl (by rw [queued]; exact hq))
    · exact .inl (.inr (.inl (inArm.trans harm)))
    · rw [before] at hcur
      cases hcur
      exact .inr (by rw [out]; exact List.mem_singleton.mpr rfl)
  | store stored queued before after current _ =>
    refine .inl ?_
    rcases hholds with hq | harm | hcur
    · exact .inl (by rw [queued]; exact hq)
    · exact .inr (.inr (current.trans (before.symm.trans harm)))
    · -- the last request is not the one a later arm would overwrite
      rw [(hlast.1 hcur).1] at before
      cases before

/-- A move brings in no request of its own. -/
theorem holds_of_holds (h : RequestMove session session' o) {notify : Nat}
    (hholds : session'.Holds notify) : session.Holds notify := by
  cases h with
  | same queued current inArm _ =>
    unfold Session.Holds at hholds
    rw [queued, current, inArm] at hholds
    exact hholds
  | take taken queued current before after _ =>
    rcases hholds with hq | harm | hcur
    · exact .inl (by rw [queued]; exact List.mem_cons_of_mem _ hq)
    · rw [after] at harm
      cases harm
      exact .inl (by rw [queued]; exact List.mem_cons_self)
    · exact .inr (.inr (current.symm.trans hcur))
  | lost taken queued current before after _ _ =>
    rcases hholds with hq | harm | hcur
    · exact .inl (by rw [queued]; exact List.mem_cons_of_mem _ hq)
    · rw [after] at harm
      cases harm
    · exact .inr (.inr (current.symm.trans hcur))
  | acknowledge acked queued before after inArm _ =>
    rcases hholds with hq | harm | hcur
    · exact .inl (by rw [← queued]; exact hq)
    · exact .inr (.inl (inArm.symm.trans harm))
    · rw [after] at hcur
      cases hcur
  | store stored queued before after current _ =>
    rcases hholds with hq | harm | hcur
    · exact .inl (by rw [← queued]; exact hq)
    · rw [after] at harm
      cases harm
    · exact .inr (.inl (before.trans (current.symm.trans hcur)))

/-- The channel holds one request. -/
theorem queued_tail {notify : Nat} (h : session.queued = notify :: session'.queued) :
    session'.queued = [] := by
  have hlen := congrArg List.length h
  have hcap := session.requests.bound
  unfold Session.queued at hlen ⊢
  rw [List.length_map, List.length_cons, List.length_map] at hlen
  rw [List.map_eq_nil_iff]
  exact List.eq_nil_of_length_eq_zero (by omega)

/-- The last request stays the last one. -/
theorem last (h : RequestMove session session' o) {notify : Nat} (hlast : session.Last notify) :
    session'.Last notify := by
  cases h with
  | same queued current inArm _ =>
    unfold Session.Last
    rw [queued, current, inArm]
    exact hlast
  | take taken queued current before after _ =>
    refine ⟨fun hcur => ?_, fun _ => queued_tail queued⟩
    -- behind the current request the channel was empty, so nothing was taken
    have hnil := (hlast.1 (current.symm.trans hcur)).2
    rw [queued] at hnil
    cases hnil
  | lost taken queued current before after _ _ =>
    exact ⟨fun _ => ⟨after, queued_tail queued⟩, fun _ => queued_tail queued⟩
  | acknowledge acked queued before after inArm _ =>
    refine ⟨fun hcur => ?_, fun harm => ?_⟩
    · rw [after] at hcur
      cases hcur
    · rw [queued]
      exact hlast.2 (inArm.symm.trans harm)
  | store stored queued before after current _ =>
    refine ⟨fun hcur => ⟨after, ?_⟩, fun harm => ?_⟩
    · rw [queued]
      exact hlast.2 (before.trans (current.symm.trans hcur))
    · rw [after] at harm
      cases harm

/-- What is signalled was the current request. -/
theorem holds_of_notified (h : RequestMove session session' o) {notify : Nat}
    (hn : .notified notify ∈ o) : session.Holds notify := by
  cases h with
  | same _ _ _ silent => exact absurd hn (silent notify)
  | take _ _ _ _ _ silent => exact absurd hn (silent notify)
  | lost _ _ _ _ _ _ silent => exact absurd hn (silent notify)
  | acknowledge acked _ before _ _ out =>
    rw [out, List.mem_singleton] at hn
    cases hn
    exact .inr (.inr before)
  | store _ _ _ _ _ silent => exact absurd hn (silent notify)

end RequestMove

/-! ## The signals of a move -/

/-- What the outputs of a task do to the `Notify`s: signals are added, and only
those they name. -/
structure Signals (s s' : State M Q Pk) (o : List (Client.Output Pk)) : Prop where
  call : s'.call = s.call
  sessions : s'.sessions = s.sessions
  nextNotify : s'.nextNotify = s.nextNotify
  connect : s.connectNotification.signalled = true → s'.connectNotification.signalled = true
  connectSame : .connectNotified ∉ o → s'.connectNotification = s.connectNotification
  notified : ∀ notify, (s.notifies notify).signalled = true ∨ .notified notify ∈ o →
    (s'.notifies notify).signalled = true
  notifiedSame : ∀ notify, .notified notify ∉ o → s'.notifies notify = s.notifies notify

theorem applyOutput_signals (s : State M Q Pk) (x : Client.Output Pk) :
    Signals s (applyOutput s x) [x] := by
  have hsame : (∀ notify, x ≠ .notified notify) → applyOutput s x = s →
      Signals s (applyOutput s x) [x] := by
    intro hne heq
    rw [heq]
    refine ⟨rfl, rfl, rfl, id, fun _ => rfl, fun notify h => ?_, fun _ _ => rfl⟩
    rcases h with hsig | hmem
    · exact hsig
    · exact absurd (List.mem_singleton.mp hmem).symm (hne notify)
  cases x with
  | connectNotified =>
    refine ⟨rfl, rfl, rfl, fun _ => Notify.signalled_notifyOne _, fun h => ?_, fun notify h => ?_,
      fun _ _ => rfl⟩
    · exact absurd (List.mem_singleton.mpr rfl) h
    · rcases h with hsig | hmem
      · exact hsig
      · cases List.mem_singleton.mp hmem
  | notified k =>
    refine ⟨rfl, rfl, rfl, id, fun _ => rfl, fun notify h => ?_, fun notify h => ?_⟩
    · show (Function.update s.notifies k (s.notifies k).notifyOne notify).signalled = true
      by_cases hk : notify = k
      · rw [hk, Function.update_self, Notify.signalled_notifyOne]
      · rw [Function.update_of_ne hk]
        rcases h with hsig | hmem
        · exact hsig
        · cases List.mem_singleton.mp hmem
          exact absurd rfl hk
    · show Function.update s.notifies k (s.notifies k).notifyOne notify = s.notifies notify
      refine Function.update_of_ne (fun hk => h ?_) _ _
      rw [hk]
      exact List.mem_singleton.mpr rfl
  | sent data dst => exact hsame nofun rfl
  | checkedSend events => exact hsame nofun rfl
  | recv chunk consumed events => exact hsame nofun rfl
  | packet buffer => exact hsame nofun rfl
  | message message r => exact hsame nofun rfl
  | received message => exact hsame nofun rfl

theorem foldl_applyOutput_signals : ∀ (o : List (Client.Output Pk)) (s : State M Q Pk),
    Signals s (o.foldl applyOutput s) o := by
  intro o
  induction o with
  | nil =>
    intro s
    exact ⟨rfl, rfl, rfl, id, fun _ => rfl, fun _ h => h.elim id nofun, fun _ _ => rfl⟩
  | cons x o ih =>
    intro s
    have h₁ := applyOutput_signals s x
    have h₂ := ih (applyOutput s x)
    refine ⟨h₂.call.trans h₁.call, h₂.sessions.trans h₁.sessions,
      h₂.nextNotify.trans h₁.nextNotify, fun h => h₂.connect (h₁.connect h), fun h => ?_,
      fun notify h => ?_, fun notify h => ?_⟩
    · rw [List.mem_cons, not_or] at h
      exact (h₂.connectSame h.2).trans (h₁.connectSame (by rw [List.mem_singleton]; exact h.1))
    · rw [List.mem_cons] at h
      refine h₂.notified notify ?_
      rcases h with hsig | rfl | hmem
      · exact .inl (h₁.notified notify (.inl hsig))
      · exact .inl (h₁.notified notify (.inr List.mem_cons_self))
      · exact .inr hmem
    · rw [List.mem_cons, not_or] at h
      exact (h₂.notifiedSame notify h.2).trans
        (h₁.notifiedSame notify (by rw [List.mem_singleton]; exact h.1))

/-- A task that ends signals nothing on its way out. -/
theorem ended_silent {i : Client.Input} {c c' : Connection M Q Pk} {o : List (Client.Output Pk)}
    (hrcv : i ≠ .rcv) (hdrop : i ≠ .dropReceiver) (h : Client.step core qc c i = some (c', o))
    (hended : c'.pc.Ended) : ∀ x ∈ o, ∃ data dst, x = .sent data dst := by
  obtain ⟨r, hr⟩ := hended
  cases step_move h with
  | quiet _ _ _ _ _ _ _ out => exact out
  | checkedSend _ _ _ _ _ after _ _ =>
    rw [after] at hr
    cases hr
  | recv _ _ => cases hr
  | event _ _ _ => cases hr
  | @resume events next _ _ =>
    obtain ⟨_, _, -, hrunning, heq⟩ := resume_eq qc next c
    rw [heq] at hr
    exact absurd hr (hrunning r)
  | rcv _ => exact absurd rfl hrcv
  | dropReceiver => exact absurd rfl hdrop

/-- The client's own moves apart, a step is a step of the task. -/
theorem step_ended_iff {i : Client.Input} {c c' : Connection M Q Pk}
    {o : List (Client.Output Pk)} (hrcv : i ≠ .rcv) (hdrop : i ≠ .dropReceiver)
    (h : Client.step core qc c i = some (c', o)) : c'.pc.Ended ↔ Exits core qc c i := by
  rcases step_cases h with htask | ⟨hi | hi, -⟩
  · exact taskStep_ended_iff htask
  · exact absurd hi hrcv
  · exact absurd hi hdrop

end System

end MqttScion.Client
