import MqttScion.Lib.Observe
import MqttScion.Proxy.Registry

/-!
# The handler at work

`Handles` is the handling of one datagram: the main loop from `recv_from` back to
one of its awaits, with the tasks moving in between (`TaskTurn`). The main loop has
the datagram in hand meanwhile, waits for nothing and comes nearer to its end with
every move of its own.

> `handles_exists`: a datagram that is received is handled, without any task having
> to move.

> `Handles.induct`: what holds when the datagram has been received, and is kept by
> the moves of the handler and of the tasks, holds when it has been handled.
-/

namespace MqttScion.Proxy

open MqttScion.Net MqttScion.Lib

variable {K C Q : Type} {p : Env K C Q}

/-! ## The handler at work -/

/-- The packets a move of the main loop puts into `main`. -/
def pushes (p : Env K C Q) (s : State C Q) (i : Input) (_ : List Output) : List UdpPacket :=
  match mainStep p s i with
  | some (s', _) => s'.main.queue.drop s.main.queue.length
  | none => []

/-- The handler runs: the main loop is at none of its own awaits. -/
def Busy (_ : List UdpPacket) (s : State C Q) (_ : Input) : Prop := s.pc.idle = false

/-- The run `is` handles the datagram received in `s`, ending in `s'` with `es`
put into `main`. -/
structure Handles (p : Env K C Q) (data : Bytes) (src : ScionAddr) (s : State C Q)
    (is : List Input) (s' : State C Q) (es : List UdpPacket) : Prop where
  received : step p s (.recvFrom data src) = some (recvFrom p data src s, [])
  busy : AllSteps (observe (step p) (pushes p)) Busy [] (recvFrom p data src s) is
  ran : run (observe (step p) (pushes p)) (recvFrom p data src s) is = some (s', es)
  done : s'.pc.idle = true

/-- How many moves the handler has in front of it. -/
def Pc.togo : Pc Q → Nat
  | .lookup _ => 4
  | .create _ => 3
  | .insert _ _ => 2
  | .forward _ _ | .spawn _ => 1
  | .select | .selectOutgoing | .sendTo _ | .returned _ => 0

/-- A datagram is received at the head of the loop. -/
theorem Handles.start {data : Bytes} {src : ScionAddr} {s s' : State C Q} {is : List Input}
    {es : List UdpPacket} (h : Handles p data src s is s' es) : s.pc = .select := by
  have hreceived := h.received
  cases hpc : s.pc with
  | select => rfl
  | _ => simp [step, mainStep, hpc] at hreceived

/-- After `create` there are the insert and the spawn at most. -/
theorem create_togo (d : Incoming) (s : State C Q) : (create p d s).1.pc.togo ≤ 2 := by
  have hcreated := create_created p d s
  generalize create p d s = r at hcreated ⊢
  cases hcreated with
  | prepared _ _ _ _ _ _ => exact Nat.le_refl 2
  | dropped _ => exact Nat.zero_le 2
  | answered _ _ _ _ _ => exact Nat.zero_le 2
  | failed _ _ _ _ => exact Nat.zero_le 2

/-- The moves of the main loop with a datagram in hand. -/
inductive HandlerMove (p : Env K C Q) (s : State C Q) : State C Q × List Output → Prop
  | looksUp (d : Incoming) (hpc : s.pc = .lookup d) : HandlerMove p s (lookup p d s, [])
  | forwards (info : ConnectionInfo) (d : Incoming) (hpc : s.pc = .forward info d) :
      HandlerMove p s (forward p info d s)
  | creates (d : Incoming) (hpc : s.pc = .create d) : HandlerMove p s (create p d s)
  | inserts (origin : Origin) (task : Task Q) (hpc : s.pc = .insert origin task) :
      HandlerMove p s (insert origin task s)
  | spawns (task : Task Q) (hpc : s.pc = .spawn task) : HandlerMove p s (spawn task s, [])

/-- The moves of the handler are made while it has a datagram in hand. -/
theorem HandlerMove.busy {s : State C Q} {r : State C Q × List Output}
    (h : HandlerMove p s r) : s.pc.idle = false := by
  cases h with
  | looksUp _ hpc => rw [hpc]; rfl
  | forwards _ _ hpc => rw [hpc]; rfl
  | creates _ hpc => rw [hpc]; rfl
  | inserts _ _ hpc => rw [hpc]; rfl
  | spawns _ hpc => rw [hpc]; rfl

/-- The main loop with a datagram in hand has a move. -/
theorem busy_moves {s : State C Q} (hbusy : s.pc.idle = false) :
    ∃ r, mainStep p s .step = some r ∧ HandlerMove p s r := by
  cases hpc : s.pc with
  | lookup d => exact ⟨_, by simp only [mainStep, hpc], .looksUp d hpc⟩
  | forward info d => exact ⟨_, by simp only [mainStep, hpc], .forwards info d hpc⟩
  | create d => exact ⟨_, by simp only [mainStep, hpc], .creates d hpc⟩
  | insert origin task => exact ⟨_, by simp only [mainStep, hpc], .inserts origin task hpc⟩
  | spawn task => exact ⟨_, by simp only [mainStep, hpc], .spawns task hpc⟩
  | _ =>
    rw [hpc] at hbusy
    cases hbusy

/-- A running handler waits for nothing outside the proxy. -/
theorem busy_input {s : State C Q} {i : Input} {r : State C Q × List Output}
    (hbusy : s.pc.idle = false) (h : mainStep p s i = some r) : i = .step := by
  cases i with
  | step => rfl
  | _ =>
    cases hpc : s.pc with
    | lookup d => simp [mainStep, hpc] at h
    | forward info d => simp [mainStep, hpc] at h
    | create d => simp [mainStep, hpc] at h
    | insert origin task => simp [mainStep, hpc] at h
    | spawn task => simp [mainStep, hpc] at h
    | _ =>
      rw [hpc] at hbusy
      cases hbusy

/-- And it has no other. -/
theorem handlerMove_of_busy {s : State C Q} {i : Input} {r : State C Q × List Output}
    (hbusy : s.pc.idle = false) (h : mainStep p s i = some r) : HandlerMove p s r := by
  obtain rfl := busy_input hbusy h
  obtain ⟨r', hr', hmove⟩ := busy_moves (p := p) hbusy
  rw [h] at hr'
  rw [Option.some.inj hr']
  exact hmove

/-- Every move of the handler brings it nearer to its end. -/
theorem HandlerMove.togo {s : State C Q} {r : State C Q × List Output} (h : HandlerMove p s r) :
    r.1.pc.togo < s.pc.togo := by
  cases h with
  | looksUp d hpc =>
    rw [hpc]
    unfold lookup
    split
    · show 1 < 4
      omega
    · show 3 < 4
      omega
  | forwards info d hpc =>
    rw [hpc]
    simp only [forward]
    split <;> exact Nat.zero_lt_one
  | creates d hpc =>
    have hle := create_togo (p := p) d s
    rw [hpc]
    show (create p d s).1.pc.togo < 3
    omega
  | inserts origin task hpc =>
    rw [hpc]
    show 1 < 2
    omega
  | spawns task hpc =>
    rw [hpc]
    show 0 < 1
    omega

/-- While the handler runs it has a next move, and one less after it. -/
theorem busy_step {s : State C Q} (hbusy : s.pc.idle = false) :
    ∃ s' o, step p s .step = some (s', o) ∧ s'.pc.togo < s.pc.togo := by
  obtain ⟨⟨s', o⟩, hstep, hmove⟩ := busy_moves (p := p) hbusy
  exact ⟨s', o, hstep, hmove.togo⟩

/-- The handler ends by its own moves. -/
theorem busy_returns : ∀ (n : Nat) (s : State C Q), s.pc.togo ≤ n →
    ∃ m s' es, AllSteps (observe (step p) (pushes p)) Busy [] s (List.replicate m .step) ∧
      run (observe (step p) (pushes p)) s (List.replicate m .step) = some (s', es) ∧
      s'.pc.idle = true := by
  intro n
  induction n with
  | zero =>
    intro s htogo
    refine ⟨0, s, [], trivial, rfl, ?_⟩
    cases hidle : s.pc.idle with
    | true => rfl
    | false =>
      obtain ⟨s', o, -, hlt⟩ := busy_step (p := p) hidle
      omega
  | succ n ih =>
    intro s htogo
    cases hidle : s.pc.idle with
    | true => exact ⟨0, s, [], trivial, rfl, hidle⟩
    | false =>
      obtain ⟨s₁, o, hstep, hlt⟩ := busy_step (p := p) hidle
      obtain ⟨m, s', es, hbusy, hrun, hdone⟩ := ih s₁ (by omega)
      have hm : observe (step p) (pushes p) s .step = some (s₁, pushes p s .step o) :=
        observe_eq_some.mpr ⟨o, hstep, rfl⟩
      refine ⟨m + 1, s', pushes p s .step o ++ es, ⟨hidle, fun s₂ o₂ hm₂ => ?_⟩,
        run_cons_eq_some.mpr ⟨s₁, _, es, hm, hrun, rfl⟩, hdone⟩
      rw [hm] at hm₂
      obtain ⟨rfl, rfl⟩ := Prod.mk.inj (Option.some.inj hm₂)
      refine AllSteps.imp ?_ hbusy
      exact fun _ _ _ _ h => h

/-- **A datagram that is received is handled**, by the moves of the main loop
alone. -/
theorem handles_exists {s : State C Q} (hselect : s.pc = .select) {data : Bytes}
    (hlen : data.length ≤ udpPacketBufferSize) (src : ScionAddr) :
    ∃ n s' es, Handles p data src s (List.replicate n .step) s' es := by
  have hreceived : step p s (.recvFrom data src) = some (recvFrom p data src s, []) := by
    simp only [step, mainStep, hselect, if_pos hlen]
  obtain ⟨n, s', es, hbusy, hran, hdone⟩ := busy_returns (p := p) _ (recvFrom p data src s)
    (Nat.le_refl _)
  exact ⟨n, s', es, hreceived, hbusy, hran, hdone⟩

/-- **Induction over a handling.** -/
theorem Handles.induct {data : Bytes} {src : ScionAddr} {s s' : State C Q} {is : List Input}
    {es : List UdpPacket} {P : State C Q → Prop} (h : Handles p data src s is s' es)
    (hfirst : P (recvFrom p data src s))
    (hstep : ∀ t i t' o, t.pc.idle = false → P t → step p t i = some (t', o) → P t') : P s' := by
  refine run_induct_of_steps (C := Busy) (P := fun _ t => P t) ?_ hfirst h.busy h.ran
  intro os t i t' es ht hbusy hm
  obtain ⟨o, hs, -⟩ := observe_eq_some.mp hm
  exact hstep t i t' o hbusy ht hs

/-- The same while no task moves. -/
theorem Handles.induct_alone {data : Bytes} {src : ScionAddr} {s s' : State C Q} {is : List Input}
    {es : List UdpPacket} {P : State C Q → Prop} (h : Handles p data src s is s' es)
    (halone : ∀ i ∈ is, i.ofTask = false) (hfirst : P (recvFrom p data src s))
    (hstep : ∀ t r, P t → HandlerMove p t r → P r.1) : P s' := by
  refine run_induct_of_steps (C := fun os t i => Busy os t i ∧ i.ofTask = false)
    (P := fun _ t => P t) ?_ hfirst (h.busy.and ((allSteps_input_iff h.ran).mpr halone)) h.ran
  intro os t i t' es ht hbusy hm
  obtain ⟨o, hs, -⟩ := observe_eq_some.mp hm
  rw [step_of_main p t hbusy.2] at hs
  exact hstep t (t', o) ht (handlerMove_of_busy hbusy.1 hs)

/-! ## What the tasks do meanwhile -/

/-- The main loop is where it was, and no key has been registered. -/
structure Waited (s s' : State C Q) : Prop where
  pc : s'.pc = s.pc
  quicConfig : s'.quicConfig = s.quicConfig
  unregistered : ∀ k, s.connections k = none → s'.connections k = none

theorem Waited.trans {s s' s'' : State C Q} (h : Waited s s') (h' : Waited s' s'') :
    Waited s s'' :=
  ⟨h'.pc.trans h.pc, h'.quicConfig.trans h.quicConfig,
    fun k hk => h'.unregistered k (h.unregistered k hk)⟩

/-- A task's turn leaves the main loop where it is and registers nothing. -/
theorem TaskTurn.waited {s s' : State C Q} {i : Input} (h : TaskTurn p s i s') : Waited s s' := by
  cases h with
  | moves hmove =>
    obtain ⟨task, session, channels, main, -, -, -, -, -, rfl⟩ := taskMove_eq_some hmove
    exact ⟨rfl, rfl, fun _ hk => hk⟩
  | finishes _ _ => exact ⟨rfl, rfl, fun _ hk => hk⟩
  | @removes id task _ _ =>
    refine ⟨rfl, rfl, fun k hk => ?_⟩
    show Function.update s.connections task.key none k = none
    by_cases hkey : k = task.key
    · rw [hkey, Function.update_self]
    · rw [Function.update_of_ne hkey, hk]
  | drops _ _ => exact ⟨rfl, rfl, fun _ hk => hk⟩

/-- A task that held the key has taken itself out of the registry since. -/
def Departed (s s' : State C Q) (k : Key) : Prop :=
  ∃ id task task', s.tasks id = some task ∧ task.key = k ∧ task.phase.live = true ∧
    s'.tasks id = some task' ∧ task'.phase.live = false

/-- What has become of the tasks and of the registry is the tasks' own doing:
none has been spawned, and an entry that is gone was that of a task that left. -/
structure TasksMoved (s s' : State C Q) : Prop where
  spawned : ∀ id, s.tasks id = none → s'.tasks id = none
  tasks : ∀ id task, s.tasks id = some task →
    ∃ task', s'.tasks id = some task' ∧ task'.key = task.key ∧
      (task'.phase.live = true → task.phase.live = true)
  connections : ∀ k, s'.connections k = s.connections k ∨
    s'.connections k = none ∧ Departed s s' k

theorem TasksMoved.of_same {s s' : State C Q} (htasks : s'.tasks = s.tasks)
    (hconn : s'.connections = s.connections) : TasksMoved s s' :=
  ⟨fun _ h => by rw [htasks]; exact h,
    fun _ task h => ⟨task, by rw [htasks]; exact h, rfl, fun hl => hl⟩,
    fun _ => .inl (by rw [hconn])⟩

/-- What the tasks do in a row is the tasks' doing. -/
theorem TasksMoved.trans {s s' s'' : State C Q} (h : TasksMoved s s') (h' : TasksMoved s' s'') :
    TasksMoved s s'' := by
  refine ⟨fun id hnone => h'.spawned id (h.spawned id hnone), fun id task htask => ?_, fun k => ?_⟩
  · obtain ⟨task', htask', hkey, hlive⟩ := h.tasks id task htask
    obtain ⟨task'', htask'', hkey', hlive'⟩ := h'.tasks id task' htask'
    exact ⟨task'', htask'', hkey'.trans hkey, fun hl => hlive (hlive' hl)⟩
  · rcases h'.connections k with hsame | ⟨hgone, id, task', task'', ht', hk, hl, ht'', hl''⟩
    · rcases h.connections k with hsame₀ | ⟨hgone, id, task, task', ht, hk, hl, ht', hl'⟩
      · exact .inl (hsame.trans hsame₀)
      · -- a task that has left does not come back
        obtain ⟨task'', ht'', -, hback⟩ := h'.tasks id task' ht'
        refine .inr ⟨hsame.trans hgone, id, task, task'', ht, hk, hl, ht'', ?_⟩
        rw [← Bool.not_eq_true] at hl' ⊢
        exact fun hl'' => hl' (hback hl'')
    · -- the task that leaves now was there before
      cases ht : s.tasks id with
      | none =>
        rw [h.spawned id ht] at ht'
        cases ht'
      | some task =>
        obtain ⟨t, heq, hkey, hlive⟩ := h.tasks id task ht
        rw [ht'] at heq
        obtain rfl := Option.some.inj heq
        exact .inr ⟨hgone, id, task, task'', ht, hkey.symm.trans hk, hlive hl, ht'', hl''⟩

/-- One task goes on, with its key. -/
theorem tasksMoved_setTask {s s' : State C Q} {id : Nat} {task : Task Q} (task' : Task Q)
    (ht : s.tasks id = some task) (hkey : task'.key = task.key)
    (hlive : task'.phase.live = true → task.phase.live = true)
    (htasks : s'.tasks = Function.update s.tasks id (some task'))
    (hconn : ∀ k, s'.connections k = s.connections k ∨
      s'.connections k = none ∧ Departed s s' k) : TasksMoved s s' := by
  refine ⟨fun id' hnone => ?_, fun id' t ht' => ?_, hconn⟩
  · have hne : id' ≠ id := by
      rintro rfl
      rw [ht] at hnone
      cases hnone
    rw [htasks, Function.update_of_ne hne]
    exact hnone
  · rw [htasks]
    by_cases hid : id' = id
    · rw [hid, ht] at ht'
      obtain rfl := Option.some.inj ht'
      rw [hid, Function.update_self]
      exact ⟨task', rfl, hkey, hlive⟩
    · rw [Function.update_of_ne hid]
      exact ⟨t, ht', rfl, fun h => h⟩

/-- A task's turn is the tasks' doing. -/
theorem TaskTurn.tasksMoved {s s' : State C Q} {i : Input} (h : TaskTurn p s i s') :
    TasksMoved s s' := by
  cases h with
  | moves hmove =>
    obtain ⟨task, session, channels, main, ht, -, -, -, -, rfl⟩ := taskMove_eq_some hmove
    exact tasksMoved_setTask { task with session := session } ht rfl (fun h => h) rfl
      fun _ => .inl rfl
  | @finishes id task ht hrun =>
    exact tasksMoved_setTask { task with phase := .finished } ht rfl
      (fun _ => by rw [hrun]; rfl) rfl fun _ => .inl rfl
  | @removes id task ht hfin =>
    have hlive : task.phase.live = true := by rw [hfin]; rfl
    refine tasksMoved_setTask { task with phase := .removed } ht rfl (fun _ => hlive) rfl
      fun k => ?_
    show Function.update s.connections task.key none k = s.connections k ∨
      Function.update s.connections task.key none k = none ∧ _
    by_cases hk : k = task.key
    · rw [hk, Function.update_self]
      exact .inr ⟨rfl, id, task, _, ht, rfl, hlive, Function.update_self _ _ _, rfl⟩
    · rw [Function.update_of_ne hk]
      exact .inl rfl
  | @drops id task ht _ =>
    exact tasksMoved_setTask { task with phase := .dropped } ht rfl nofun rfl
      fun _ => .inl rfl

/-- A handler that moves takes a packet from the front of its own channel at most. -/
theorem taskMove_queue_suffix {s s' : State C Q} {id : Nat} {i : SessionInput}
    (h : taskMove p id i s = some s') (id' : Nat) :
    (s'.channels id').queue <:+ (s.channels id').queue := by
  have hsame : ∀ t : State C Q, some t = some s' → t.channels = s.channels →
      (s'.channels id').queue <:+ (s.channels id').queue := by
    intro t heq hchannels
    simp only [← Option.some.inj heq, hchannels, List.suffix_rfl]
  unfold taskMove at h
  split at h
  · cases h
  · next task _ =>
    split at h
    · split at h
      · cases h
      · simp only at h
        split at h
        · exact hsame _ h rfl
        · split at h
          · next front chan hrecv =>
            split at h
            · obtain rfl := Option.some.inj h
              obtain ⟨hqueue, -⟩ := Chan.recv_eq_some hrecv
              show (Function.update s.channels task.receiver chan id').queue <:+ _
              by_cases hid : id' = task.receiver
              · rw [hid, Function.update_self, hqueue]
                exact List.suffix_cons front chan.queue
              · simp only [Function.update_of_ne hid, List.suffix_rfl]
            · cases h
          · cases h
        · cases h
        · split at h
          · cases h
          · split at h
            · split at h
              · exact hsame _ h rfl
              · cases h
            · cases h
            · split at h
              · cases h
              · exact hsame _ h rfl
        · split at h
          · exact hsame _ h rfl
          · cases h
    · cases h

/-- A task only takes from the channels. -/
theorem TaskTurn.queue_suffix {s s' : State C Q} {i : Input} (h : TaskTurn p s i s') (id : Nat) :
    (s'.channels id).queue <:+ (s.channels id).queue := by
  cases h with
  | moves hmove => exact taskMove_queue_suffix hmove id
  | finishes _ _ => exact List.suffix_rfl
  | removes _ _ => exact List.suffix_rfl
  | @drops id' task _ _ =>
    show (Function.update s.channels task.receiver (s.channels task.receiver).dropReceiver id).queue
      <:+ _
    by_cases hid : id = task.receiver
    · rw [hid, Function.update_self]
      exact List.nil_suffix
    · simp only [Function.update_of_ne hid, List.suffix_rfl]

end MqttScion.Proxy
