import MqttScion.Lib.Mutex
import MqttScion.Proxy.Answers

/-!
# The lock and the full channel

The main loop and the tasks share two things they may have to wait for: the
mutex around the registry and room in `main`. Here the mutex is in the open:
the look-up and the insert of the main loop and the remove of a task take place
under the lock, which a process has to come to first.

The main loop is the only one to take packets out of `main`, and it waits for the
mutex; a task that holds the mutex does not send. So whoever waits for the mutex
waits for processes that send nothing, and no wait leads back to itself.

> `locked_run`: with the lock in the open the proxy does nothing it did not do
> before.

> `no_deadlock`: in every reachable state, wherever a task is blocked on `main` or
> a process waits for the mutex, the main loop or the holder has moves of its own
> that make room or free the mutex; and nobody waits for himself.
-/

namespace MqttScion.Proxy

open MqttScion.Net MqttScion.Lib

variable {K C Q : Type} {p : Env K C Q}

/-! ## The mutex in the open -/

/-- Who runs: the main loop and the spawned tasks. -/
inductive Proc
  | main
  | task (id : Nat)
  deriving DecidableEq

/-- The proxy and the mutex of its registry. -/
structure Locked (C Q : Type) where
  base : State C Q
  lock : Mutex Proc

/-- The proxy at the head of its main loop, with nobody at the lock. -/
def Locked.init (quicConfig : C) : Locked C Q := ⟨State.init quicConfig, Mutex.new⟩

/-- The process is at `lock().await`: the main loop before its look-up or its
insert, a task before its remove. -/
def State.atLock (s : State C Q) : Proc → Bool
  | .main =>
    match s.pc with
    | .lookup _ | .insert _ _ => true
    | _ => false
  | .task id =>
    match s.tasks id with
    | some task => task.phase = .finished
    | none => false

/-- Who makes the move. -/
def Input.proc : Input → Proc
  | .task id _ | .taskFinish id | .taskRemove id | .taskDrop id => .task id
  | _ => .main

/-- The process comes to the lock, or a move of the proxy. -/
inductive LockInput
  | request (proc : Proc)
  | base (i : Input)

def LockInput.proc : LockInput → Proc
  | .request proc => proc
  | .base i => i.proc

def LockInput.input : LockInput → Option Input
  | .request _ => none
  | .base i => some i

/-- One move. A process that is at `lock().await` moves on when it holds the lock,
and the guard is gone when it has moved: no await lies in between. -/
def lockStep (p : Env K C Q) : Machine (Locked C Q) LockInput Output := fun s i =>
  match i with
  | .request proc =>
    if h : s.base.atLock proc = true ∧ proc ∉ s.lock.queue then
      some ({ s with lock := s.lock.enter proc h.2 }, [])
    else none
  | .base i =>
    if s.base.atLock i.proc = true then
      if s.lock.holder = some i.proc then
        (step p s.base i).map fun r => (⟨r.1, s.lock.release⟩, r.2)
      else none
    else (step p s.base i).map fun r => (⟨r.1, s.lock⟩, r.2)

/-- A process asks for the lock where its code locks, and queues for it. -/
theorem request_eq_some {s s' : Locked C Q} {proc : Proc} {o : List Output}
    (h : lockStep p s (.request proc) = some (s', o)) :
    ∃ hnew : proc ∉ s.lock.queue, s.base.atLock proc = true ∧
      s' = { s with lock := s.lock.enter proc hnew } ∧ o = [] := by
  simp only [lockStep] at h
  split at h
  · next hat =>
    obtain ⟨rfl, rfl⟩ := Prod.mk.inj (Option.some.inj h)
    exact ⟨hat.2, hat.1, rfl, rfl⟩
  · cases h

/-- A move of the proxy, alone or under the lock. -/
theorem base_eq_some {s s' : Locked C Q} {i : Input} {o : List Output}
    (h : lockStep p s (.base i) = some (s', o)) :
    step p s.base i = some (s'.base, o) ∧
      (s.base.atLock i.proc = true ∧ s.lock.holder = some i.proc ∧ s'.lock = s.lock.release ∨
        s.base.atLock i.proc = false ∧ s'.lock = s.lock) := by
  simp only [lockStep] at h
  split at h
  · next hat =>
    split at h
    · next hholder =>
      obtain ⟨⟨t, o'⟩, hstep, heq⟩ := Option.map_eq_some_iff.mp h
      obtain ⟨rfl, rfl⟩ := Prod.mk.inj heq
      exact ⟨hstep, .inl ⟨hat, hholder, rfl⟩⟩
    · cases h
  · next hat =>
    obtain ⟨⟨t, o'⟩, hstep, heq⟩ := Option.map_eq_some_iff.mp h
    obtain ⟨rfl, rfl⟩ := Prod.mk.inj heq
    exact ⟨hstep, .inr ⟨Bool.eq_false_iff.mpr hat, rfl⟩⟩

/-- The lock only delays the proxy: a run with the lock in the open is a run
without it. -/
theorem locked_run : ∀ {is : List LockInput} {s s' : Locked C Q} {os : List Output},
    run (lockStep p) s is = some (s', os) →
      run (step p) s.base (is.filterMap LockInput.input) = some (s'.base, os) := by
  intro is
  induction is with
  | nil =>
    intro s s' os h
    obtain ⟨rfl, rfl⟩ := Prod.mk.inj (Option.some.inj h)
    rfl
  | cons i is ih =>
    intro s s' os h
    obtain ⟨s₁, o₁, o₂, hstep, hrun, rfl⟩ := run_cons_eq_some.mp h
    cases i with
    | request proc =>
      obtain ⟨hnew, -, rfl, rfl⟩ := request_eq_some hstep
      have hbase := ih hrun
      exact hbase
    | base i =>
      exact run_cons_eq_some.mpr ⟨s₁.base, o₁, o₂, (base_eq_some hstep).1, ih hrun, rfl⟩

/-! ## Who is at the lock -/

/-- `run` has returned and dropped the receiver of `main`. -/
def Ended (s : State C Q) : Prop := ∀ f, s.pc = .returned f → s.main.rxAlive = false

def Pc.hasReturned : Pc Q → Bool
  | .returned _ => true
  | _ => false

theorem ended_of_running {s : State C Q} (h : s.pc.hasReturned = false) : Ended s := by
  intro f hf
  rw [hf] at h
  cases h

/-- Where `create` returns, `main` has lost its receiver. -/
theorem create_ended (d : Incoming) (s : State C Q) : Ended (create p d s).1 := by
  have hcreated := create_created p d s
  generalize create p d s = r at hcreated ⊢
  cases hcreated with
  | prepared _ _ _ _ _ _ => exact ended_of_running rfl
  | dropped _ => exact ended_of_running rfl
  | answered _ _ _ _ _ => exact ended_of_running rfl
  | failed _ _ _ _ => exact fun _ _ => rfl

/-- Taking a packet does not return. -/
theorem recvPacket_ended {s s' : State C Q} {o : List Output}
    (h : recvPacket s = some (s', o)) : Ended s' := by
  unfold recvPacket at h
  split at h
  · exact of_result_state (P := Ended) h (ended_of_running rfl)
  · cases h

/-- Where the main loop returns, `main` has lost its receiver. -/
theorem mainStep_ended {s s' : State C Q} {i : Input} {o : List Output}
    (h : mainStep p s i = some (s', o)) : Ended s' := by
  unfold mainStep at h
  split at h
  · next data src hpc =>
    split at h
    · refine of_result_state (P := Ended) h ?_
      rcases recvFrom_pc (p := p) data src s hpc with hpc' | ⟨d, hpc'⟩
      · exact ended_of_running (by rw [hpc']; rfl)
      · exact ended_of_running (by rw [hpc']; rfl)
    · cases h
  · exact of_result_state (P := Ended) h (ended_of_running rfl)
  · exact recvPacket_ended h
  · exact recvPacket_ended h
  · split at h
    · exact of_result_state (P := Ended) h (ended_of_running rfl)
    · exact of_result_state (P := Ended) h fun _ _ => rfl
  · next d _ =>
    refine of_result_state (P := Ended) h ?_
    unfold lookup
    split
    · exact ended_of_running rfl
    · exact ended_of_running rfl
  · refine of_result_state (P := Ended) h ?_
    simp only [forward]
    split <;> exact ended_of_running rfl
  · exact of_result_state (P := Ended) h (create_ended _ s)
  · exact of_result_state (P := Ended) h (ended_of_running rfl)
  · exact of_result_state (P := Ended) h (ended_of_running rfl)
  · cases h

/-- No task closes `main`. -/
theorem TaskTurn.main_rxAlive {s s' : State C Q} {i : Input} (h : TaskTurn p s i s') :
    s'.main.rxAlive = s.main.rxAlive := by
  cases h with
  | moves hmove =>
    obtain ⟨task, session, channels, main, -, -, -, -, hmain, rfl⟩ := taskMove_eq_some hmove
    exact hmain
  | finishes _ _ => rfl
  | removes _ _ => rfl
  | drops _ _ => rfl

/-- Once `run` has returned, `main` has no receiver. -/
theorem step_ended {s s' : State C Q} {i : Input} {o : List Output} (h : Ended s)
    (hstep : step p s i = some (s', o)) : Ended s' := by
  rcases step_turn hstep with ⟨hturn, -⟩ | hmain
  · unfold Ended
    rw [hturn.waited.pc, hturn.main_rxAlive]
    exact h
  · exact mainStep_ended hmain

theorem proc_of_main {i : Input} (hi : i.ofTask = false) : i.proc = .main := by
  cases i <;> first | rfl | cases hi

/-- A task goes on alone: the others are as they were. -/
theorem TaskTurn.tasks_other {s s' : State C Q} {i : Input} {id : Nat} (h : TaskTurn p s i s')
    (hid : i.proc ≠ .task id) : s'.tasks id = s.tasks id := by
  have hupdate : ∀ id' (task' : Task Q), Proc.task id' ≠ .task id →
      Function.update s.tasks id' (some task') id = s.tasks id := by
    intro id' task' hne
    exact Function.update_of_ne (fun heq => hne (congrArg Proc.task heq.symm)) _ _
  cases h with
  | @moves id' i _ hmove =>
    obtain ⟨task, session, channels, main, -, -, -, -, -, rfl⟩ := taskMove_eq_some hmove
    exact hupdate id' _ hid
  | @finishes id' _ _ _ => exact hupdate id' _ hid
  | @removes id' _ _ _ => exact hupdate id' _ hid
  | @drops id' _ _ _ => exact hupdate id' _ hid

/-- `create` spawns nothing. -/
theorem create_tasks (d : Incoming) (s : State C Q) : (create p d s).1.tasks = s.tasks := by
  have hcreated := create_created p d s
  generalize create p d s = r at hcreated ⊢
  cases hcreated with
  | prepared _ _ _ _ _ _ => rfl
  | dropped _ => rfl
  | answered _ _ _ _ _ => rfl
  | failed _ _ _ _ => rfl

/-- The main loop leaves the tasks there are alone: what it spawns is new. -/
theorem mainStep_tasks {s s' : State C Q} {i : Input} {o : List Output} {id : Nat}
    {task : Task Q} (hinv : RegistryInv p s) (ht : s.tasks id = some task)
    (h : mainStep p s i = some (s', o)) : s'.tasks id = some task := by
  have hsame : ∀ {r : State C Q × List Output}, some r = some (s', o) → r.1.tasks = s.tasks →
      s'.tasks id = some task := by
    intro r hr htasks
    exact of_result_state (P := fun t => t.tasks id = some task) hr (by rw [htasks]; exact ht)
  have hpacket : recvPacket s = some (s', o) → s'.tasks id = some task := by
    intro hr
    obtain ⟨packet, main, -, rfl, -⟩ := recvPacket_eq_some hr
    exact ht
  unfold mainStep at h
  split at h
  · next data src _ =>
    split at h
    · exact hsame h (recvFrom_undisturbed p data src s).tasks
    · cases h
  · exact hsame h rfl
  · exact hpacket h
  · exact hpacket h
  · split at h
    · exact hsame h rfl
    · exact hsame h rfl
  · refine hsame h ?_
    unfold lookup
    split <;> rfl
  · refine hsame h ?_
    simp only [forward]
    split <;> rfl
  · exact hsame h (create_tasks _ s)
  · exact hsame h rfl
  · next task' hpc =>
    have hunspawned : Unspawned s task' := by
      have hok := hinv.pc
      rw [hpc] at hok
      exact hok
    have hne : id ≠ task'.receiver := by
      rintro rfl
      rw [hunspawned.none] at ht
      cases ht
    refine of_result_state (P := fun t => t.tasks id = some task) h ?_
    show Function.update s.tasks task'.receiver (some task') id = some task
    rw [Function.update_of_ne hne]
    exact ht
  · cases h

/-- Only a process itself takes itself away from `lock().await`. -/
theorem step_atLock_other {s s' : State C Q} {i : Input} {o : List Output} {proc : Proc}
    (hinv : RegistryInv p s) (hproc : i.proc ≠ proc) (hat : s.atLock proc = true)
    (hstep : step p s i = some (s', o)) : s'.atLock proc = true := by
  cases hi : i.ofTask with
  | true =>
    obtain ⟨hturn, -⟩ := step_taskTurn hi hstep
    cases proc with
    | main =>
      simp only [State.atLock, hturn.waited.pc] at hat ⊢
      exact hat
    | task id =>
      simp only [State.atLock, hturn.tasks_other hproc] at hat ⊢
      exact hat
  | false =>
    rw [step_of_main p s hi] at hstep
    cases proc with
    | main =>
      exact absurd (proc_of_main hi) hproc
    | task id =>
      cases ht : s.tasks id with
      | none =>
        rw [State.atLock, ht] at hat
        cases hat
      | some task =>
        rw [State.atLock, ht] at hat
        rw [State.atLock, mainStep_tasks hinv ht hstep]
        exact hat

/-! ## The invariant -/

/-- Whoever is in the queue of the lock is at `lock().await`. -/
structure LockInv (p : Env K C Q) (s : Locked C Q) : Prop where
  registry : RegistryInv p s.base
  ended : Ended s.base
  queued : ∀ proc ∈ s.lock.queue, s.base.atLock proc = true

/-- Every step keeps the invariant of the lock. -/
theorem lockStep_inv {s s' : Locked C Q} {i : LockInput} {o : List Output} (h : LockInv p s)
    (hstep : lockStep p s i = some (s', o)) : LockInv p s' := by
  cases i with
  | request proc =>
    obtain ⟨hnew, hat, rfl, -⟩ := request_eq_some hstep
    refine ⟨h.registry, h.ended, fun q hq => ?_⟩
    rcases (Mutex.mem_enter hnew).mp hq with hold | rfl
    · exact h.queued q hold
    · exact hat
  | base i =>
    obtain ⟨hbase, hlock⟩ := base_eq_some hstep
    refine ⟨(step_ok h.registry hbase).inv, step_ended h.ended hbase, fun q hq => ?_⟩
    -- the process that moved has left the queue, or was not in it
    have hmem : q ∈ s.lock.queue ∧ i.proc ≠ q := by
      rcases hlock with ⟨-, hholder, heq⟩ | ⟨hnot, heq⟩
      · rw [heq] at hq
        refine ⟨Mutex.mem_of_release hq, ?_⟩
        rintro rfl
        exact Mutex.release_not_mem hholder hq
      · rw [heq] at hq
        refine ⟨hq, ?_⟩
        rintro rfl
        rw [h.queued _ hq] at hnot
        cases hnot
    exact step_atLock_other h.registry hmem.2 (h.queued q hmem.1) hbase

/-- The invariant of the lock holds in every run. -/
theorem run_lockInv {quicConfig : C} {is : List LockInput} {s : Locked C Q} {os : List Output}
    (hr : run (lockStep p) (Locked.init quicConfig) is = some (s, os)) : LockInv p s := by
  refine run_induct (P := fun _ s => LockInv p s) ?_ ?_ hr
  · exact ⟨registryInv_init quicConfig, ended_of_running rfl,
      fun proc hproc => absurd hproc List.not_mem_nil⟩
  · intro os s i s' o h hstep
    exact lockStep_inv h hstep

/-! ## Going on alone -/

/-- `socket.send_to`, if it is awaited, returns `ok`. -/
def LockInput.sentAs (ok : Bool) : LockInput → Prop
  | .base (.sent sent) => sent = ok
  | _ => True

/-- The process moves alone, and `socket.send_to` returns `ok` whenever it is
awaited. -/
def OwnMoves (proc : Proc) (ok : Bool) (js : List LockInput) : Prop :=
  ∀ j ∈ js, j.proc = proc ∧ j.sentAs ok

theorem ownMoves_singleton {proc : Proc} {ok : Bool} {j : LockInput} (hproc : j.proc = proc)
    (hsent : j.sentAs ok) : OwnMoves proc ok [j] := by
  intro j' hj'
  rw [List.mem_singleton] at hj'
  rw [hj']
  exact ⟨hproc, hsent⟩

theorem OwnMoves.append {proc : Proc} {ok : Bool} {js js' : List LockInput}
    (h : OwnMoves proc ok js) (h' : OwnMoves proc ok js') : OwnMoves proc ok (js ++ js') := by
  intro j hj
  rcases List.mem_append.mp hj with hj | hj
  · exact h j hj
  · exact h' j hj

/-- Whoever holds the lock is done with it in one move. -/
theorem holder_frees {s : Locked C Q} (h : LockInv p s) {proc : Proc}
    (hholder : s.lock.holder = some proc) (ok : Bool) :
    ∃ i s' o, OwnMoves proc ok [.base i] ∧ lockStep p s (.base i) = some (s', o) ∧
      s'.lock = s.lock.release := by
  have hat := h.queued proc (Mutex.mem_of_holder hholder)
  have hgo : ∀ {i : Input} {t : State C Q} {o : List Output}, i.proc = proc →
      step p s.base i = some (t, o) →
      lockStep p s (.base i) = some (⟨t, s.lock.release⟩, o) := by
    intro i t o hproc hstep
    simp only [lockStep, hproc, hat, hholder, if_true, hstep, Option.map_some]
  cases proc with
  | main =>
    have hbusy : s.base.pc.idle = false := by
      unfold State.atLock at hat
      cases hpc : s.base.pc <;> first | rfl | (rw [hpc] at hat; cases hat)
    obtain ⟨t, o, hstep, -⟩ := busy_step (p := p) hbusy
    exact ⟨.step, _, o, ownMoves_singleton rfl trivial, hgo rfl hstep, rfl⟩
  | task id =>
    cases ht : s.base.tasks id with
    | none =>
      rw [State.atLock, ht] at hat
      cases hat
    | some task =>
      rw [State.atLock, ht] at hat
      have hfinished : task.phase = .finished := of_decide_eq_true hat
      have hstep : ∃ t, step p s.base (.taskRemove id) = some (t, []) := by
        simp only [step, taskRemove, taskPhase, ht, hfinished, if_true, Option.map_some]
        exact ⟨_, rfl⟩
      obtain ⟨t, hstep⟩ := hstep
      exact ⟨.taskRemove id, _, [], ownMoves_singleton rfl trivial, hgo rfl hstep, rfl⟩

/-- While the main loop handles a datagram and the lock is free, it goes on. -/
theorem main_goes_on {s : Locked C Q} (hbusy : s.base.pc.idle = false)
    (hfree : s.lock.holder = none) (ok : Bool) :
    ∃ js s' os, js ≠ [] ∧ OwnMoves .main ok js ∧ run (lockStep p) s js = some (s', os) ∧
      s'.lock.holder = none ∧ s'.base.pc.togo < s.base.pc.togo ∧
      step p s.base .step = some (s'.base, os) := by
  obtain ⟨t, o, hstep, hlt⟩ := busy_step (p := p) hbusy
  have hqueue := Mutex.queue_of_free hfree
  cases hat : s.base.atLock .main with
  | false =>
    refine ⟨[.base .step], ⟨t, s.lock⟩, o, by simp, ownMoves_singleton rfl trivial, ?_, hfree, hlt,
      hstep⟩
    refine run_cons_eq_some.mpr ⟨⟨t, s.lock⟩, o, [], ?_, rfl, (List.append_nil o).symm⟩
    simp [lockStep, Input.proc, hat, hstep]
  | true =>
    -- it comes to the lock, holds it at once and leaves it
    have hnew : Proc.main ∉ s.lock.queue := by
      rw [hqueue]
      exact List.not_mem_nil
    have hholder : (s.lock.enter .main hnew).holder = some .main := by
      simp [Mutex.holder, Mutex.enter, hqueue]
    have hmoves : OwnMoves .main ok [.request .main, .base .step] :=
      (ownMoves_singleton (j := .request .main) rfl trivial).append
        (ownMoves_singleton (j := .base .step) rfl trivial)
    refine ⟨[.request .main, .base .step], ⟨t, (s.lock.enter .main hnew).release⟩, o, by simp,
      hmoves, ?_, ?_, hlt, hstep⟩
    · refine run_cons_eq_some.mpr ⟨⟨s.base, s.lock.enter .main hnew⟩, [], o, ?_,
        run_cons_eq_some.mpr ⟨_, o, [], ?_, rfl, (List.append_nil o).symm⟩, rfl⟩
      · simp only [lockStep, hat, hnew, not_false_eq_true, and_self, dite_true]
      · simp only [lockStep, Input.proc, hat, hholder, if_true, hstep, Option.map_some]
    · simp [Mutex.holder, Mutex.enter, hqueue]

/-- A move of the main loop that does not need the lock. -/
theorem main_move {s : Locked C Q} {i : Input} {t : State C Q} {o : List Output}
    (hproc : i.proc = .main) (hidle : s.base.pc.idle = true)
    (hstep : step p s.base i = some (t, o)) : lockStep p s (.base i) = some (⟨t, s.lock⟩, o) := by
  have hat : s.base.atLock .main = false := by
    unfold State.atLock
    cases hpc : s.base.pc <;> first | rfl | (rw [hpc] at hidle; cases hidle)
  simp [lockStep, hproc, hat, hstep]

/-- At the head of its loop the main loop takes a packet out of a full `main`. -/
theorem select_makes_room {s : Locked C Q} (hfull : s.base.main.Full)
    (hpc : s.base.pc = .select ∨ s.base.pc = .selectOutgoing) :
    ∃ s' os, run (lockStep p) s [.base .recvPacket] = some (s', os) ∧ ¬s'.base.main.Full := by
  cases hqueue : s.base.main.queue with
  | nil =>
    have hlen := hfull.2
    rw [hqueue] at hlen
    cases hlen
  | cons packet rest =>
    obtain ⟨main, hrecv, hrest, -⟩ := Chan.recv_of_queue hqueue
    have hstep : step p s.base .recvPacket =
        some ({ s.base with main := main, pc := .sendTo packet }, []) := by
      rcases hpc with hpc | hpc <;> simp only [step, mainStep, hpc, recvPacket, hrecv]
    have hidle : s.base.pc.idle = true := by
      rcases hpc with hpc | hpc <;> rw [hpc] <;> rfl
    refine ⟨_, [], run_cons_eq_some.mpr ⟨_, [], [], main_move rfl hidle hstep, rfl, rfl⟩, ?_⟩
    rintro ⟨-, hlen⟩
    have hlen' := hfull.2
    rw [hqueue, List.length_cons] at hlen'
    replace hlen : main.queue.length = mainChannelCapacity := hlen
    rw [hrest] at hlen
    omega

/-- At an await, the main loop makes room with its next move or two, or it has
returned. -/
theorem idle_makes_room (ok : Bool) {s : Locked C Q} (hidle : s.base.pc.idle = true)
    (hended : Ended s.base) (hfull : s.base.main.Full) :
    ∃ js s' os, js ≠ [] ∧ OwnMoves .main ok js ∧ run (lockStep p) s js = some (s', os) ∧
      ¬s'.base.main.Full := by
  have hown : OwnMoves .main ok [.base .recvPacket] := ownMoves_singleton rfl trivial
  cases hpc : s.base.pc with
  | select =>
    obtain ⟨s', os, hrun, hroom⟩ := select_makes_room (p := p) hfull (.inl hpc)
    exact ⟨_, s', os, by simp, hown, hrun, hroom⟩
  | selectOutgoing =>
    obtain ⟨s', os, hrun, hroom⟩ := select_makes_room (p := p) hfull (.inr hpc)
    exact ⟨_, s', os, by simp, hown, hrun, hroom⟩
  | sendTo packet =>
    have hsent : OwnMoves .main ok [.base (.sent ok)] := ownMoves_singleton rfl rfl
    cases ok with
    | true =>
      -- the packet is out, and the next one is taken
      have hstep : step p s.base (.sent true) =
          some ({ s.base with pc := .select }, [.sentTo packet]) := by
        simp only [step, mainStep, hpc, if_true]
      obtain ⟨s', os, hrun, hroom⟩ := select_makes_room (p := p)
        (s := ⟨{ s.base with pc := .select }, s.lock⟩) hfull (.inl rfl)
      exact ⟨[.base (.sent true), .base .recvPacket], s', _, by simp, hsent.append hown,
        run_cons_eq_some.mpr ⟨_, _, os, main_move rfl hidle hstep, hrun, rfl⟩, hroom⟩
    | false =>
      -- `run` returns, and the receiver of `main` is gone
      have hstep : step p s.base (.sent false) = some (s.base.fail .sendTo, []) := by
        simp [step, mainStep, hpc]
      refine ⟨[.base (.sent false)], _, [], by simp, hsent,
        run_cons_eq_some.mpr ⟨_, [], [], main_move rfl hidle hstep, rfl, rfl⟩, ?_⟩
      rintro ⟨halive, -⟩
      cases halive
  | returned f =>
    have halive := hfull.1
    rw [hended f hpc] at halive
    cases halive
  | _ =>
    rw [hpc] at hidle
    cases hidle

/-- With the lock free, the main loop alone makes room in `main`, whatever
`send_to` returns. -/
theorem main_makes_room (ok : Bool) : ∀ (n : Nat) (s : Locked C Q), s.base.pc.togo ≤ n →
    Ended s.base → s.lock.holder = none → s.base.main.Full →
      ∃ js s' os, js ≠ [] ∧ OwnMoves .main ok js ∧ run (lockStep p) s js = some (s', os) ∧
        ¬s'.base.main.Full := by
  intro n
  induction n with
  | zero =>
    intro s htogo hended hfree hfull
    refine idle_makes_room ok ?_ hended hfull
    cases h : s.base.pc.idle with
    | true => rfl
    | false =>
      obtain ⟨t, o, -, hlt⟩ := busy_step (p := p) h
      omega
  | succ n ih =>
    intro s htogo hended hfree hfull
    cases h : s.base.pc.idle with
    | true => exact idle_makes_room ok h hended hfull
    | false =>
      obtain ⟨js, s₁, os, hne, hmoves, hrun, hfree₁, hlt, hstep⟩ := main_goes_on (p := p) h hfree ok
      by_cases hfull₁ : s₁.base.main.Full
      · obtain ⟨js', s', os', -, hmoves', hrun', hroom⟩ :=
          ih s₁ (by omega) (step_ended hended hstep) hfree₁ hfull₁
        exact ⟨js ++ js', s', os ++ os', by simp [hne], hmoves.append hmoves',
          run_append_eq_some.mpr ⟨s₁, os, os', hrun, hrun', rfl⟩, hroom⟩
      · exact ⟨js, s₁, os, hne, hmoves, hrun, hfull₁⟩

/-! ## Nobody waits for himself -/

/-- The task has a packet for `main`, and `main` is full. -/
def State.Blocked (s : State C Q) (id : Nat) : Prop :=
  ∃ task packet, s.tasks id = some task ∧ task.phase = .running ∧
    task.session.outgoing = some packet ∧ s.main.Full

/-- Who waits for whom: a blocked task for the main loop, which alone takes
packets out of `main`, and a process at the lock for those ahead of it. -/
inductive WaitsFor (s : Locked C Q) : Proc → Proc → Prop
  | room {id} (h : s.base.Blocked id) : WaitsFor s (.task id) .main
  | lock {proc other} (h : s.lock.Ahead other proc) : WaitsFor s proc other

/-- Behind everybody at the lock come the main loop and the tasks that run. -/
def waitRank (s : Locked C Q) : Proc → Nat
  | .main => s.lock.queue.idxOf .main
  | .task id =>
    match s.base.tasks id with
    | some task => if task.phase = .running then s.lock.queue.length + 1
        else s.lock.queue.idxOf (.task id)
    | none => s.lock.queue.idxOf (.task id)

/-- A process in the queue ranks by its place. -/
theorem waitRank_of_queued {s : Locked C Q} (h : LockInv p s) {proc : Proc}
    (hmem : proc ∈ s.lock.queue) : waitRank s proc = s.lock.queue.idxOf proc := by
  cases proc with
  | main => rfl
  | task id =>
    have hat := h.queued _ hmem
    unfold State.atLock at hat
    cases ht : s.base.tasks id with
    | none => simp only [waitRank, ht]
    | some task =>
      simp only [ht, decide_eq_true_eq] at hat
      simp [waitRank, ht, hat]

/-- Whoever is waited for ranks lower. -/
theorem waitRank_lt {s : Locked C Q} (h : LockInv p s) (proc other : Proc)
    (hwaits : WaitsFor s proc other) : waitRank s other < waitRank s proc := by
  cases hwaits with
  | @room id hblocked =>
    obtain ⟨task, packet, ht, hrun, -, -⟩ := hblocked
    have hle : s.lock.queue.idxOf .main ≤ s.lock.queue.length := List.idxOf_le_length
    simp only [waitRank, ht, hrun, if_true]
    omega
  | lock hahead =>
    rw [waitRank_of_queued h hahead.1, waitRank_of_queued h hahead.2.1]
    exact hahead.2.2

/-- Room in `main`, or the mutex, has become free. -/
def Frees (s s' : Locked C Q) : Prop :=
  s.base.main.Full ∧ ¬s'.base.main.Full ∨
    ∃ proc, s.lock.holder = some proc ∧ s'.lock = s.lock.release

/-- **No deadlock.** In every reachable state in which a task is blocked on
`main` or a process waits for the mutex, the main loop or the holder of the mutex
has a move, after which finitely many further ones of the same process make room
or free the mutex, whatever `send_to` returns; and nobody waits for himself. -/
theorem no_deadlock {quicConfig : C} {is : List LockInput} {s : Locked C Q} {os : List Output}
    (hr : run (lockStep p) (Locked.init quicConfig) is = some (s, os)) :
    ((∃ id, s.base.Blocked id) ∨ (∃ proc, s.lock.Waits proc) → ∀ ok,
      ∃ proc, (proc = .main ∨ s.lock.holder = some proc) ∧
        ∃ js s' os', js ≠ [] ∧ OwnMoves proc ok js ∧ run (lockStep p) s js = some (s', os') ∧
          Frees s s') ∧
      ∀ proc, ¬Relation.TransGen (WaitsFor s) proc proc := by
  have hinv := run_lockInv hr
  refine ⟨fun hwait ok => ?_, acyclic_of_rank (waitRank s) (waitRank_lt hinv)⟩
  cases hholder : s.lock.holder with
  | some proc =>
    obtain ⟨i, s', o, hown, hstep, hlock⟩ := holder_frees hinv hholder ok
    exact ⟨proc, .inr rfl, [.base i], s', o, by simp, hown,
      run_cons_eq_some.mpr ⟨s', o, [], hstep, rfl, (List.append_nil o).symm⟩,
      .inr ⟨proc, hholder, hlock⟩⟩
  | none =>
    rcases hwait with ⟨id, task, packet, -, -, -, hfull⟩ | ⟨proc, hwaits⟩
    · obtain ⟨js, s', os', hne, hown, hrun, hroom⟩ :=
        main_makes_room ok _ s (Nat.le_refl _) hinv.ended hholder hfull
      exact ⟨.main, .inl rfl, js, s', os', hne, hown, hrun, .inl ⟨hfull, hroom⟩⟩
    · -- a lock somebody waits for is held
      obtain ⟨q, hq⟩ := hwaits.held
      rw [hholder] at hq
      cases hq

private def lockedRelay : Env Bytes Unit SendWindow where
  hmac := Hmac.ofTable []
  quiche := wireServer fun _ _ => Vector.replicate 16 0
  mode := .udpEndpoint
  mqttBrokerAddress := ⟨.ipv4 127 0 0 1, 1883⟩
  tokenKey := []
  connIdSeed := []
  localScionAddr := ⟨7, .ip (.ipv4 10 0 0 7), 4433⟩
  localAddr := ⟨.ipv4 10 0 0 7, 4433⟩
  localAddr_eq := rfl

private def sender : ScionAddr := ⟨1, .ip (.ipv4 10 0 0 1), 4433⟩

/-- A client's task finishes and holds the lock when the next datagram comes. -/
private def removeMeetsLookup : List LockInput :=
  [.base (.recvFrom [1] sender), .request .main, .base .step, .base .step, .request .main,
    .base .step, .base .step, .base (.taskFinish 0), .request (.task 0),
    .base (.recvFrom [2] sender), .request .main]

/-- A task removes itself while the main loop looks up. -/
theorem no_deadlock_sample :
    ∃ s os, run (lockStep lockedRelay) (Locked.init ()) removeMeetsLookup = some (s, os) ∧
      s.lock.holder = some (.task 0) ∧ s.lock.Waits .main ∧
      ∀ ok, ∃ proc, (proc = .main ∨ s.lock.holder = some proc) ∧
        ∃ js s' os', js ≠ [] ∧ OwnMoves proc ok js ∧
          run (lockStep lockedRelay) s js = some (s', os') ∧ Frees s s' := by
  refine ⟨_, _, rfl, rfl, List.mem_singleton_self _, ?_⟩
  exact (@no_deadlock Bytes Unit SendWindow lockedRelay () removeMeetsLookup _ _ rfl).1
    (.inr ⟨.main, List.mem_singleton_self _⟩)

end MqttScion.Proxy
