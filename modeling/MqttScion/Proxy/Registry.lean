import MqttScion.Lib.Lease
import MqttScion.Net.QuicWire
import MqttScion.Proxy.Dispatch

/-!
# The registry refines a table of leases

What the registry is for: a key is leased to one task from the insert to the
task's own `remove`. `Abstracts s f` reads a state that way: `f` maps each key
to the number of the sender in its entry, and back each number to the key the
task of that number still holds. Since `f` is a `PEquiv`, a state it abstracts
has no entry without its task and no task without its entry.

`step_ok` says of every step that it is one `Move` of that table or none, with
what it may insert, remove or cancel on the way. The look-up and the insert of
one datagram are two moves of the main loop with tasks running in between, and
the invariant that carries the argument is in `PcOk`: a key once found vacant
stays so, because only the main loop inserts.

> `registry_invariant`: in every reachable state each entry belongs to exactly
> one task that has not removed itself, or to the task the main loop is about
> to spawn; and every step from there inserts without replacing, removes its
> own entry, and cancels only what has gone.
-/

namespace MqttScion.Proxy

open MqttScion.Net MqttScion.Lib

variable {K C Q : Type}

/-! ## The abstraction -/

/-- The task between its insert and its spawn. -/
def Pc.pending : Pc Q → Option (Task Q)
  | .spawn task => some task
  | _ => none

/-- The key the task of this number holds. -/
def liveKey (s : State C Q) (id : Nat) : Option Key :=
  match s.tasks id with
  | some task => if task.phase.live then some task.key else none
  | none =>
    match s.pc.pending with
    | some task => if task.receiver = id then some task.key else none
    | none => none

/-- `f` is the table of leases of `s`. -/
structure Abstracts (s : State C Q) (f : PEquiv Key Nat) : Prop where
  entries : ∀ k, (s.connections k).map ConnectionInfo.sender = f k
  holders : ∀ id, liveKey s id = f.symm id

/-- The task has been prepared under a number of its own and not spawned. -/
structure Unspawned (s : State C Q) (task : Task Q) : Prop where
  token : task.cancelToken = task.receiver
  lt : task.receiver < s.nextId
  none : s.tasks task.receiver = none
  live : task.phase.live = true

/-- What the main loop knows at each of its awaits. -/
def PcOk (p : Env K C Q) (s : State C Q) : Pc Q → Prop
  | .forward info _ => info.cancelToken = info.sender ∧ (s.tasks info.sender).isSome
  | .create d => ∀ k ∈ lookupKeys p d, s.connections k = none
  | .insert _ task => Unspawned s task ∧ s.connections task.key = none
  | .spawn task => Unspawned s task
  | _ => True

/-- The invariant of the proxy. -/
structure RegistryInv (p : Env K C Q) (s : State C Q) : Prop where
  table : ∃ f, Abstracts s f
  info : ∀ k info, s.connections k = some info → info.cancelToken = info.sender
  task : ∀ id task, s.tasks id = some task →
    task.receiver = id ∧ task.cancelToken = id ∧ id < s.nextId
  pc : PcOk p s s.pc
  closed : ∀ id, (s.channels id).rxAlive = false →
    ∃ task, s.tasks id = some task ∧ task.phase = .dropped
  cancelled : ∀ id, s.cancelled id = true → ∃ task, s.tasks id = some task ∧ task.phase.live = false

/-- How a step may change the registry: not at all, by the insert of a vacant
key, or by a task that has finished taking out its own entry. -/
inductive Change (s s' : State C Q) : Prop
  | same (h : s'.connections = s.connections)
  | insert (origin : Origin) (task : Task Q) (hpc : s.pc = .insert origin task)
      (hvacant : s.connections task.key = none)
      (h : s'.connections = Function.update s.connections task.key
        (some ⟨task.receiver, task.cancelToken⟩))
  | remove (id : Nat) (task : Task Q) (ht : s.tasks id = some task)
      (hfinished : task.phase = .finished)
      (hremoved : s'.tasks id = some { task with phase := .removed })
      (hown : s.connections task.key = some ⟨task.receiver, task.cancelToken⟩)
      (h : s'.connections = Function.update s.connections task.key none)

/-- What any step does: it keeps the invariant, makes a move of the table,
changes the registry as it should, and cancels only what has gone. -/
structure StepOk (p : Env K C Q) (s s' : State C Q) (o : List Output) : Prop where
  inv : RegistryInv p s'
  move : ∀ f, Abstracts s f → ∃ g, Lease.Move f g ∧ Abstracts s' g
  change : Change s s'
  cancelled : ∀ token, .cancelled token ∈ o →
    ∃ task, s.tasks token = some task ∧ task.phase.live = false

variable {p : Env K C Q}

theorem liveKey_of_task {s : State C Q} {id : Nat} {task : Task Q} (h : s.tasks id = some task) :
    liveKey s id = if task.phase.live then some task.key else none := by
  rw [liveKey, h]

/-- `liveKey` looks at the tasks and the pending one only. -/
theorem liveKey_congr {s s' : State C Q} (htasks : s'.tasks = s.tasks)
    (hpc : s'.pc.pending = s.pc.pending) (id : Nat) : liveKey s' id = liveKey s id := by
  rw [liveKey, liveKey, htasks, hpc]

/-- An entry's number is held by a task or by the pending one. -/
theorem Abstracts.holder {s : State C Q} {f : PEquiv Key Nat} (ha : Abstracts s f) {k : Key}
    {info : ConnectionInfo} (hk : s.connections k = some info) :
    liveKey s info.sender = some k := by
  rw [ha.holders, ← Lease.holds_iff, ← ha.entries, hk]
  rfl

/-- A key that is held has its holder's number in its entry. -/
theorem Abstracts.entry {s : State C Q} {f : PEquiv Key Nat} (ha : Abstracts s f) {k : Key}
    {id : Nat} (hid : liveKey s id = some k) :
    ∃ info, s.connections k = some info ∧ info.sender = id := by
  rw [ha.holders, ← Lease.holds_iff, ← ha.entries] at hid
  exact Option.map_eq_some_iff.mp hid

/-- Two states with the same entries and the same live keys have the same
table. -/
theorem Abstracts.congr {s s' : State C Q} {f : PEquiv Key Nat} (ha : Abstracts s f)
    (hconn : s'.connections = s.connections) (hlive : ∀ id, liveKey s' id = liveKey s id) :
    Abstracts s' f :=
  ⟨fun k => by rw [hconn]; exact ha.entries k, fun id => by rw [hlive]; exact ha.holders id⟩

/-- The insert of a vacant key for a number that holds none is a grant. -/
theorem Abstracts.grant {s s' : State C Q} {f : PEquiv Key Nat} (ha : Abstracts s f) {k : Key}
    {id token : Nat} (hvacant : s.connections k = none) (hfree : liveKey s id = none)
    (hconn : s'.connections = Function.update s.connections k (some ⟨id, token⟩))
    (hlive : ∀ id', liveKey s' id' = Function.update (liveKey s) id (some k) id') :
    ∃ g, Lease.Move f g ∧ Abstracts s' g := by
  have hk : f k = none := by rw [← ha.entries, hvacant]; rfl
  have hh : f.symm id = none := by rw [← ha.holders]; exact hfree
  refine ⟨Lease.grant f k id hk hh, .grant _ _ hk hh, ?_, ?_⟩
  · intro k'
    rw [hconn, Lease.grant_apply]
    by_cases hkk : k' = k
    · rw [hkk, Function.update_self, Function.update_self]
      rfl
    · rw [Function.update_of_ne hkk, Function.update_of_ne hkk]
      exact ha.entries k'
  · intro id'
    rw [hlive, Lease.grant_symm_apply]
    by_cases hid : id' = id
    · rw [hid, Function.update_self, Function.update_self]
    · rw [Function.update_of_ne hid, Function.update_of_ne hid]
      exact ha.holders id'

/-- The removal of the key a number holds is a release. -/
theorem Abstracts.release {s s' : State C Q} {f : PEquiv Key Nat} (ha : Abstracts s f) {k : Key}
    {id : Nat} (hheld : liveKey s id = some k)
    (hconn : s'.connections = Function.update s.connections k none)
    (hlive : ∀ id', liveKey s' id' = Function.update (liveKey s) id none id') :
    ∃ g, Lease.Move f g ∧ Abstracts s' g := by
  have hkh : f k = some id := by
    rw [Lease.holds_iff, ← ha.holders]
    exact hheld
  refine ⟨Lease.release f k id hkh, .release _ _ hkh, ?_, ?_⟩
  · intro k'
    rw [hconn, Lease.release_apply]
    by_cases hkk : k' = k
    · rw [hkk, Function.update_self, Function.update_self]
      rfl
    · rw [Function.update_of_ne hkk, Function.update_of_ne hkk]
      exact ha.entries k'
  · intro id'
    rw [hlive, Lease.release_symm_apply]
    by_cases hid : id' = id
    · rw [hid, Function.update_self, Function.update_self]
    · rw [Function.update_of_ne hid, Function.update_of_ne hid]
      exact ha.holders id'

/-- What the main loop knows survives the moves of tasks: none disappears and
no key is taken. -/
theorem PcOk.mono {s s' : State C Q} (hid : s'.nextId = s.nextId)
    (htasks : ∀ id, (s'.tasks id).isSome = (s.tasks id).isSome)
    (hconn : ∀ k, s.connections k = none → s'.connections k = none) {pc : Pc Q}
    (h : PcOk p s pc) : PcOk p s' pc := by
  have hun : ∀ task, Unspawned s task → Unspawned s' task := by
    intro task hu
    refine ⟨hu.token, by rw [hid]; exact hu.lt, ?_, hu.live⟩
    have hnone := htasks task.receiver
    rw [hu.none] at hnone
    exact Option.not_isSome_iff_eq_none.mp (by simp [hnone])
  cases pc with
  | forward info d => exact ⟨h.1, by rw [htasks]; exact h.2⟩
  | create d => exact fun k hk => hconn k (h k hk)
  | insert origin task => exact ⟨hun task h.1, hconn _ h.2⟩
  | spawn task => exact hun task h
  | select => trivial
  | selectOutgoing => trivial
  | lookup d => trivial
  | sendTo packet => trivial
  | returned f => trivial

/-! ## Steps of the main loop -/

/-- The output cancels nothing. -/
def Output.silent : Output → Bool
  | .cancelled _ => false
  | _ => true

/-- A step of the main loop that leaves the registry and the tasks alone. -/
theorem stepOk_of_undisturbed {s s' : State C Q} {o : List Output} (h : RegistryInv p s)
    (hs : Undisturbed s s') (hpc : s.pc.pending = none) (hpc' : s'.pc.pending = none)
    (hok : PcOk p s' s'.pc) (ho : ∀ out ∈ o, out.silent = true) : StepOk p s s' o := by
  have hlive : ∀ id, liveKey s' id = liveKey s id :=
    liveKey_congr hs.tasks (by rw [hpc', hpc])
  obtain ⟨f, hf⟩ := h.table
  refine ⟨⟨⟨f, hf.congr hs.connections hlive⟩, ?_, ?_, hok, ?_, ?_⟩, ?_, .same hs.connections, ?_⟩
  · rw [hs.connections]
    exact h.info
  · rw [hs.tasks, hs.nextId]
    exact h.task
  · intro id hid
    rw [hs.rxAlive] at hid
    rw [hs.tasks]
    exact h.closed id hid
  · rw [hs.cancelled, hs.tasks]
    exact h.cancelled
  · intro g hg
    exact ⟨g, .stay, hg.congr hs.connections hlive⟩
  · intro token hmem
    cases ho _ hmem

/-- `recv_from` leads to the look-up or back to the loop head. -/
theorem recvFrom_pc (data : Bytes) (src : ScionAddr) (s : State C Q) (hpc : s.pc = .select) :
    (recvFrom p data src s).pc = .select ∨ ∃ d, (recvFrom p data src s).pc = .lookup d := by
  unfold recvFrom
  split
  · exact .inl hpc
  · split
    · split
      · exact .inl hpc
      · exact .inr ⟨_, rfl⟩
    · exact .inr ⟨_, rfl⟩

theorem recvFrom_ok {s : State C Q} (h : RegistryInv p s) (hpc : s.pc = .select) (data : Bytes)
    (src : ScionAddr) : StepOk p s (recvFrom p data src s) [] := by
  have hpc' := recvFrom_pc (p := p) data src s hpc
  refine stepOk_of_undisturbed h (recvFrom_undisturbed p data src s) (by rw [hpc]; rfl) ?_ ?_
    (by simp)
  · rcases hpc' with hpc' | ⟨d, hpc'⟩ <;> rw [hpc'] <;> rfl
  · rcases hpc' with hpc' | ⟨d, hpc'⟩ <;> rw [hpc'] <;> trivial

/-- The entry found belongs to a spawned task: nothing is pending at a look-up. -/
theorem lookup_ok {s : State C Q} (h : RegistryInv p s) {d : Incoming} (hpc : s.pc = .lookup d) :
    StepOk p s (lookup p d s) [] := by
  have hpend : s.pc.pending = none := by rw [hpc]; rfl
  unfold lookup
  split
  · next info hfound =>
    refine stepOk_of_undisturbed h (.goto s _ _ _) hpend rfl ?_ (by simp)
    obtain ⟨k, -, hk⟩ := List.exists_of_findSome?_eq_some hfound
    obtain ⟨f, hf⟩ := h.table
    refine ⟨h.info k info hk, ?_⟩
    -- the number in the entry has a holder, and that is a task
    have hlive := hf.holder hk
    unfold liveKey at hlive
    rw [hpend] at hlive
    show (s.tasks info.sender).isSome = true
    cases htask : s.tasks info.sender with
    | none => rw [htask] at hlive; cases hlive
    | some task => rfl
  · next hnone =>
    refine stepOk_of_undisturbed h (.goto s _ _ _) hpend rfl ?_ (by simp)
    exact List.findSome?_eq_none_iff.mp hnone

theorem forward_ok {s : State C Q} (h : RegistryInv p s) {info : ConnectionInfo} {d : Incoming}
    (hpc : s.pc = .forward info d) : StepOk p s (forward p info d s).1 (forward p info d s).2 := by
  have hpend : s.pc.pending = none := by rw [hpc]; rfl
  have hok : info.cancelToken = info.sender ∧ (s.tasks info.sender).isSome := by
    have hpcok := h.pc
    rw [hpc] at hpcok
    exact hpcok
  simp only [forward]
  split
  · refine stepOk_of_undisturbed h ⟨rfl, rfl, rfl, fun id => ?_, rfl⟩ hpend rfl trivial
      (by simp [Output.silent])
    show (Function.update s.channels info.sender _ id).rxAlive = _
    by_cases hid : id = info.sender
    · rw [hid, Function.update_self, Chan.trySend_rxAlive]
    · rw [Function.update_of_ne hid]
  · exact stepOk_of_undisturbed h (.goto s _ _ _) hpend rfl trivial (by simp)
  · next hclosed =>
    -- the receiver is gone, so its task has left the registry
    obtain ⟨task, htask, hphase⟩ := h.closed _ (Chan.trySend_closed_iff.mp hclosed)
    have hgone : task.phase.live = false := by rw [hphase]; rfl
    have hlive : ∀ id, liveKey { s with
        cancelled := Function.update s.cancelled info.cancelToken true, pc := .select } id =
          liveKey s id := liveKey_congr rfl hpend.symm
    obtain ⟨f, hf⟩ := h.table
    refine ⟨⟨⟨f, hf.congr rfl hlive⟩, h.info, h.task, trivial, h.closed, ?_⟩, ?_, .same rfl, ?_⟩
    · intro id hid
      have hupd : Function.update s.cancelled info.cancelToken true id = true := hid
      by_cases hidt : id = info.cancelToken
      · rw [hidt, hok.1]
        exact ⟨task, htask, hgone⟩
      · rw [Function.update_of_ne hidt] at hupd
        exact h.cancelled id hupd
    · intro g hg
      exact ⟨g, .stay, hg.congr rfl hlive⟩
    · intro token hmem
      simp only [List.mem_singleton, Output.cancelled.injEq] at hmem
      rw [hmem, hok.1]
      exact ⟨task, htask, hgone⟩

/-- A prepared task has a fresh number, and its key is vacant. -/
theorem prepare_ok {s : State C Q} (h : RegistryInv p s) (hpend : s.pc.pending = none)
    (quicConfig : C) (origin : Origin) {key : Key} (hkey : s.connections key = none)
    (session : Session Q) :
    StepOk p s (State.prepare { s with quicConfig := quicConfig } origin key session) [] := by
  have hnone : s.tasks s.nextId = none := by
    cases htask : s.tasks s.nextId with
    | none => rfl
    | some task => exact absurd (h.task _ _ htask).2.2 (Nat.lt_irrefl _)
  have hlive : ∀ id, liveKey (State.prepare { s with quicConfig := quicConfig } origin key
      session) id = liveKey s id := liveKey_congr rfl hpend.symm
  obtain ⟨f, hf⟩ := h.table
  refine ⟨⟨⟨f, hf.congr rfl hlive⟩, h.info, ?_, ⟨⟨rfl, Nat.lt_succ_self _, hnone, rfl⟩, hkey⟩,
    h.closed, h.cancelled⟩, ?_, .same rfl, by simp⟩
  · intro id task htask
    obtain ⟨hrx, htok, hlt⟩ := h.task id task htask
    exact ⟨hrx, htok, Nat.lt_succ_of_lt hlt⟩
  · intro g hg
    exact ⟨g, .stay, hg.congr rfl hlive⟩

theorem create_ok {s : State C Q} (h : RegistryInv p s) {d : Incoming} (hpc : s.pc = .create d) :
    StepOk p s (create p d s).1 (create p d s).2 := by
  have hpend : s.pc.pending = none := by rw [hpc]; rfl
  have hvacant : ∀ k ∈ lookupKeys p d, s.connections k = none := by
    have hpcok := h.pc
    rw [hpc] at hpcok
    exact hpcok
  -- an answer or a failure changes `main` and the program counter only
  have hquiet : ∀ (s' : State C Q) o, Undisturbed s s' → s'.pc.pending = none →
      PcOk p s' s'.pc → (∀ out ∈ o, out.silent = true) → StepOk p s s' o :=
    fun s' o hs hpc' hok ho => stepOk_of_undisturbed h hs hpend hpc' hok ho
  have hcreated := create_created p d s
  generalize create p d s = r at hcreated ⊢
  cases hcreated with
  | prepared quicConfig _ _ _ hkey _ => exact prepare_ok h hpend quicConfig _ (hvacant _ hkey) _
  | dropped _ => exact hquiet _ _ (.goto s _ _ _) rfl trivial (by simp)
  | answered _ _ _ _ hanswer =>
    refine hquiet _ _ (.goto s _ _ _) rfl trivial ?_
    rcases hanswer with ⟨-, rfl⟩ | ⟨token, -, rfl⟩
    · simp
    · simp [Output.silent]
  | failed _ _ _ _ => exact hquiet _ _ (.goto s _ _ _) rfl trivial (by simp)

/-- The insert grants a vacant key to a number that holds none. -/
theorem insert_ok {s : State C Q} (h : RegistryInv p s) {origin : Origin} {task : Task Q}
    (hpc : s.pc = .insert origin task) :
    StepOk p s (insert origin task s).1 (insert origin task s).2 := by
  have hpcok := h.pc
  rw [hpc] at hpcok
  obtain ⟨hun, hvacant⟩ := hpcok
  have hpend : s.pc.pending = none := by rw [hpc]; rfl
  -- before the insert the prepared task is no holder yet
  have hfree : liveKey s task.receiver = none := by
    rw [liveKey, hun.none, hpend]
  have hlive : ∀ id, liveKey (insert origin task s).1 id =
      Function.update (liveKey s) task.receiver (some task.key) id := by
    intro id
    show (match s.tasks id with
      | some t => if t.phase.live then some t.key else none
      | none => if task.receiver = id then some task.key else none) = _
    by_cases hid : id = task.receiver
    · rw [hid, Function.update_self, hun.none]
      exact if_pos rfl
    · rw [Function.update_of_ne hid, if_neg (Ne.symm hid), liveKey, hpend]
  have hgrant : ∀ f, Abstracts s f → ∃ g, Lease.Move f g ∧ Abstracts (insert origin task s).1 g :=
    fun f hf => hf.grant hvacant hfree rfl hlive
  obtain ⟨f, hf⟩ := h.table
  obtain ⟨g, -, hg⟩ := hgrant f hf
  refine ⟨⟨⟨g, hg⟩, ?_, h.task, ⟨hun.token, hun.lt, hun.none, hun.live⟩, h.closed, h.cancelled⟩,
    hgrant, .insert origin task hpc hvacant rfl, ?_⟩
  · intro k info hk
    have hupd : Function.update s.connections task.key
      (some ⟨task.receiver, task.cancelToken⟩) k = some info := hk
    by_cases hkk : k = task.key
    · rw [hkk, Function.update_self] at hupd
      rw [← Option.some.inj hupd]
      exact hun.token
    · rw [Function.update_of_ne hkk] at hupd
      exact h.info k info hupd
  · intro token hmem
    simp [insert] at hmem

/-- The spawn hands the key from the pending task to the spawned one. -/
theorem spawn_ok {s : State C Q} (h : RegistryInv p s) {task : Task Q} (hpc : s.pc = .spawn task) :
    StepOk p s (spawn task s) [] := by
  have hun : Unspawned s task := by
    have hpcok := h.pc
    rw [hpc] at hpcok
    exact hpcok
  have hlive : ∀ id, liveKey (spawn task s) id = liveKey s id := by
    intro id
    rw [liveKey, liveKey, hpc]
    show (match Function.update s.tasks task.receiver (some task) id with
      | some t => if t.phase.live then some t.key else none
      | none => none) = match s.tasks id with
      | some t => if t.phase.live then some t.key else none
      | none => if task.receiver = id then some task.key else none
    by_cases hid : id = task.receiver
    · rw [hid, Function.update_self, hun.none]
      show (if task.phase.live then some task.key else none) = _
      rw [hun.live, if_pos rfl, if_pos rfl]
    · rw [Function.update_of_ne hid, if_neg (Ne.symm hid)]
  -- the number was unused, so no task is replaced
  have hkeep : ∀ id t, s.tasks id = some t → (spawn task s).tasks id = some t := by
    intro id t ht
    have hid : id ≠ task.receiver := fun hid => by
      rw [hid, hun.none] at ht
      cases ht
    show Function.update s.tasks task.receiver (some task) id = some t
    rw [Function.update_of_ne hid]
    exact ht
  obtain ⟨f, hf⟩ := h.table
  refine ⟨⟨⟨f, hf.congr rfl hlive⟩, h.info, ?_, trivial, ?_, ?_⟩, ?_, .same rfl, by simp⟩
  · intro id t ht
    have hupd : Function.update s.tasks task.receiver (some task) id = some t := ht
    by_cases hid : id = task.receiver
    · rw [hid, Function.update_self] at hupd
      rw [hid, ← Option.some.inj hupd]
      exact ⟨rfl, hun.token, hun.lt⟩
    · rw [Function.update_of_ne hid] at hupd
      exact h.task id t hupd
  · intro id hid
    obtain ⟨t, ht, hphase⟩ := h.closed id hid
    exact ⟨t, hkeep id t ht, hphase⟩
  · intro id hid
    obtain ⟨t, ht, hphase⟩ := h.cancelled id hid
    exact ⟨t, hkeep id t ht, hphase⟩
  · intro g hg
    exact ⟨g, .stay, hg.congr rfl hlive⟩

theorem mainStep_ok {s s' : State C Q} {i : Input} {o : List Output} (h : RegistryInv p s)
    (hstep : mainStep p s i = some (s', o)) : StepOk p s s' o := by
  -- the moves that only change `main` and the program counter
  have hpcOnly : s.pc.pending = none → ∀ main pc o, pc.pending = none → PcOk p s pc →
      (∀ out ∈ o, out.silent = true) → StepOk p s { s with main := main, pc := pc } o := by
    intro hpend main pc o hpc' hok ho
    have hok' : PcOk p ({ s with main := main, pc := pc } : State C Q) pc := by
      refine PcOk.mono ?_ ?_ ?_ hok
      · rfl
      · exact fun _ => rfl
      · exact fun _ hk => hk
    exact stepOk_of_undisturbed h (.goto s _ _ _) hpend hpc' hok' ho
  have hrecv : s.pc.pending = none → recvPacket s = some (s', o) → StepOk p s s' o := by
    intro hpend hr
    obtain ⟨packet, main, -, rfl, rfl⟩ := recvPacket_eq_some hr
    exact hpcOnly hpend main (.sendTo packet) [] rfl trivial (by simp)
  unfold mainStep at hstep
  split at hstep
  · next hpc =>
    split at hstep
    · exact of_result hstep (recvFrom_ok h hpc _ _)
    · cases hstep
  · next hpc =>
    exact of_result hstep
      (hpcOnly (by rw [hpc]; rfl) s.main .selectOutgoing [] rfl trivial (by simp))
  · next hpc => exact hrecv (by rw [hpc]; rfl) hstep
  · next hpc => exact hrecv (by rw [hpc]; rfl) hstep
  · next packet ok hpc =>
    have hpend : s.pc.pending = none := by rw [hpc]; rfl
    split at hstep
    · exact of_result hstep (hpcOnly hpend s.main .select [.sentTo packet] rfl trivial
        (by simp [Output.silent]))
    · exact of_result hstep (hpcOnly hpend s.main.dropReceiver (.returned .sendTo) [] rfl trivial
        (by simp))
  · next hpc => exact of_result hstep (lookup_ok h hpc)
  · next hpc => exact of_result hstep (forward_ok h hpc)
  · next hpc => exact of_result hstep (create_ok h hpc)
  · next hpc => exact of_result hstep (insert_ok h hpc)
  · next hpc => exact of_result hstep (spawn_ok h hpc)
  · cases hstep

/-! ## Steps of a task -/

/-- Replacing a spawned task by one of the same number and key takes no number
away. -/
theorem isSome_setTask {s : State C Q} {id : Nat} {task task' : Task Q}
    (ht : s.tasks id = some task) (id' : Nat) :
    (Function.update s.tasks id (some task') id').isSome = (s.tasks id').isSome := by
  by_cases hid : id' = id
  · rw [hid, Function.update_self, ht]
    rfl
  · rw [Function.update_of_ne hid]

/-- Nor does it change a number. -/
theorem RegistryInv.task_setTask {s : State C Q} (h : RegistryInv p s) {id id' : Nat}
    {task task' t : Task Q} (ht : s.tasks id = some task)
    (ht' : Function.update s.tasks id (some task') id' = some t)
    (hrx : task'.receiver = task.receiver) (htok : task'.cancelToken = task.cancelToken) :
    t.receiver = id' ∧ t.cancelToken = id' ∧ id' < s.nextId := by
  by_cases hid : id' = id
  · rw [hid, Function.update_self] at ht'
    rw [hid, ← Option.some.inj ht', hrx, htok]
    exact h.task id task ht
  · rw [Function.update_of_ne hid] at ht'
    exact h.task id' t ht'

/-- A step of a task that leaves the registry alone: its handler moves or
ends, or it is dropped. -/
theorem stepOk_of_task {s s' : State C Q} {id : Nat} {task task' : Task Q} (h : RegistryInv p s)
    (ht : s.tasks id = some task) (htasks : s'.tasks = Function.update s.tasks id (some task'))
    (hkey : task'.key = task.key) (hrx : task'.receiver = task.receiver)
    (htok : task'.cancelToken = task.cancelToken) (hlive : task'.phase.live = task.phase.live)
    (hdropped : task.phase = .dropped → task'.phase = .dropped)
    (hconn : s'.connections = s.connections) (hnext : s'.nextId = s.nextId) (hpc : s'.pc = s.pc)
    (hcancelled : s'.cancelled = s.cancelled)
    (hclosed : ∀ id', (s'.channels id').rxAlive = false →
      (s.channels id').rxAlive = false ∨ id' = id ∧ task'.phase = .dropped) :
    StepOk p s s' [] := by
  have hliveKey : ∀ id', liveKey s' id' = liveKey s id' := by
    intro id'
    rw [liveKey, liveKey, htasks, hpc]
    by_cases hid : id' = id
    · rw [hid, Function.update_self, ht]
      show (if task'.phase.live then some task'.key else none) = _
      rw [hlive, hkey]
    · rw [Function.update_of_ne hid]
  have hkeep : ∀ id' t, s.tasks id' = some t → ∃ t', s'.tasks id' = some t' ∧
      t'.phase.live = t.phase.live ∧ (t.phase = .dropped → t'.phase = .dropped) := by
    intro id' t ht'
    rw [htasks]
    by_cases hid : id' = id
    · rw [hid, ht] at ht'
      rw [hid, Function.update_self, ← Option.some.inj ht']
      exact ⟨task', rfl, hlive, hdropped⟩
    · rw [Function.update_of_ne hid]
      exact ⟨t, ht', rfl, fun hp => hp⟩
  obtain ⟨f, hf⟩ := h.table
  refine ⟨⟨⟨f, hf.congr hconn hliveKey⟩, ?_, ?_, ?_, ?_, ?_⟩, ?_, .same hconn, by simp⟩
  · rw [hconn]
    exact h.info
  · intro id' t ht'
    rw [htasks] at ht'
    rw [hnext]
    exact h.task_setTask ht ht' hrx htok
  · rw [hpc]
    exact h.pc.mono hnext (fun id' => by rw [htasks]; exact isSome_setTask ht id')
      (fun k hk => by rw [hconn]; exact hk)
  · intro id' hid'
    rcases hclosed id' hid' with hold | ⟨hid, hphase⟩
    · obtain ⟨t, ht', hphase⟩ := h.closed id' hold
      obtain ⟨t', ht'', -, hp⟩ := hkeep id' t ht'
      exact ⟨t', ht'', hp hphase⟩
    · rw [htasks, hid, Function.update_self]
      exact ⟨task', rfl, hphase⟩
  · rw [hcancelled]
    intro id' hid'
    obtain ⟨t, ht', hphase⟩ := h.cancelled id' hid'
    obtain ⟨t', ht'', hl, -⟩ := hkeep id' t ht'
    exact ⟨t', ht'', by rw [hl]; exact hphase⟩
  · intro g hg
    exact ⟨g, .stay, hg.congr hconn hliveKey⟩

/-- A live task's entry is its own. -/
theorem RegistryInv.own_entry {s : State C Q} (h : RegistryInv p s) {id : Nat} {task : Task Q}
    (ht : s.tasks id = some task) (hlive : task.phase.live = true) :
    s.connections task.key = some ⟨task.receiver, task.cancelToken⟩ := by
  obtain ⟨hrx, htok, -⟩ := h.task id task ht
  have hkey : liveKey s id = some task.key := by rw [liveKey_of_task ht, hlive, if_pos rfl]
  obtain ⟨f, hf⟩ := h.table
  obtain ⟨info, hk, hsender⟩ := hf.entry hkey
  have htoken := h.info _ _ hk
  obtain ⟨sender, cancelToken⟩ := info
  rw [hk, hrx, htok]
  simp only at htoken hsender
  rw [htoken, hsender]

/-- A task that removes its key releases its own lease. -/
theorem taskRemove_ok {s s' : State C Q} {id : Nat} {task : Task Q} (h : RegistryInv p s)
    (ht : s.tasks id = some task) (hfin : task.phase = .finished)
    (hs' : s' = { s.setTask id { task with phase := .removed } with
      connections := Function.update s.connections task.key none }) : StepOk p s s' [] := by
  have hlive : task.phase.live = true := by rw [hfin]; rfl
  have hkey : liveKey s id = some task.key := by rw [liveKey_of_task ht, hlive, if_pos rfl]
  have hown := h.own_entry ht hlive
  have hconn : s'.connections = Function.update s.connections task.key none := by rw [hs']
  have hpc : s'.pc = s.pc := by rw [hs']; rfl
  have htasks : s'.tasks = Function.update s.tasks id (some { task with phase := .removed }) := by
    rw [hs']
    rfl
  have hliveKey : ∀ id', liveKey s' id' = Function.update (liveKey s) id none id' := by
    intro id'
    rw [liveKey, htasks, hpc]
    by_cases hid : id' = id
    · rw [hid, Function.update_self, Function.update_self]
      rfl
    · rw [Function.update_of_ne hid, Function.update_of_ne hid]
      rfl
  have hrelease : ∀ f, Abstracts s f → ∃ g, Lease.Move f g ∧ Abstracts s' g :=
    fun f hf => hf.release hkey hconn hliveKey
  -- a task that has gone is not the one removing itself
  have hkeep : ∀ id' t, s.tasks id' = some t → t.phase.live = false → s'.tasks id' = some t := by
    intro id' t ht' hgone
    have hid : id' ≠ id := fun hid => by
      rw [hid, ht] at ht'
      rw [← Option.some.inj ht', hlive] at hgone
      cases hgone
    rw [htasks, Function.update_of_ne hid]
    exact ht'
  obtain ⟨f, hf⟩ := h.table
  obtain ⟨g, -, hg⟩ := hrelease f hf
  refine ⟨⟨⟨g, hg⟩, ?_, ?_, ?_, ?_, ?_⟩, hrelease, ?_, by simp⟩
  · intro k info hk
    rw [hconn] at hk
    by_cases hkk : k = task.key
    · rw [hkk, Function.update_self] at hk
      cases hk
    · rw [Function.update_of_ne hkk] at hk
      exact h.info k info hk
  · intro id' t ht'
    have hnext : s'.nextId = s.nextId := by rw [hs']; rfl
    rw [htasks] at ht'
    rw [hnext]
    exact h.task_setTask ht ht' rfl rfl
  -- a removal can only make room, so a vacant key stays vacant
  · rw [hpc]
    refine h.pc.mono (by rw [hs']; rfl) (fun id' => by rw [htasks]; exact isSome_setTask ht id') ?_
    intro k hk
    rw [hconn]
    by_cases hkk : k = task.key
    · rw [hkk, Function.update_self]
    · rw [Function.update_of_ne hkk]
      exact hk
  · intro id' hid'
    rw [hs'] at hid'
    obtain ⟨t, ht', hphase⟩ := h.closed id' hid'
    exact ⟨t, hkeep id' t ht' (by rw [hphase]; rfl), hphase⟩
  · intro id' hid'
    rw [hs'] at hid'
    obtain ⟨t, ht', hphase⟩ := h.cancelled id' hid'
    exact ⟨t, hkeep id' t ht' hphase, hphase⟩
  · exact .remove id task ht hfin (by rw [htasks, Function.update_self]) hown hconn

/-- **What a step does to the registry.** -/
theorem step_ok {s s' : State C Q} {i : Input} {o : List Output} (h : RegistryInv p s)
    (hstep : step p s i = some (s', o)) : StepOk p s s' o := by
  rcases step_turn hstep with ⟨hturn, rfl⟩ | hmain
  · cases hturn with
    | moves hmove =>
      obtain ⟨task, session, channels, main, ht, hrun, -, halive, -, rfl⟩ :=
        taskMove_eq_some hmove
      refine stepOk_of_task h ht rfl rfl rfl rfl rfl (fun hp => hp) rfl rfl rfl rfl ?_
      intro id' hid'
      exact .inl (by rw [← halive]; exact hid')
    | finishes ht hrun =>
      exact stepOk_of_task h ht rfl rfl rfl rfl (by rw [hrun]; rfl)
        (fun hp => by rw [hrun] at hp; cases hp) rfl rfl rfl rfl (fun id' hid' => .inl hid')
    | removes ht hfin => exact taskRemove_ok h ht hfin rfl
    | @drops id task ht hrem =>
      obtain ⟨hrx, -, -⟩ := h.task _ task ht
      refine stepOk_of_task h ht rfl rfl rfl rfl (by rw [hrem]; rfl) (fun _ => rfl) rfl rfl rfl
        rfl ?_
      intro id' hid'
      by_cases hid : id' = task.receiver
      · exact .inr ⟨by rw [hid, hrx], rfl⟩
      · refine .inl ?_
        have hupd : (Function.update s.channels task.receiver
          (s.channels task.receiver).dropReceiver id').rxAlive = false := hid'
        rw [Function.update_of_ne hid] at hupd
        exact hupd
  · exact mainStep_ok h hmain

/-! ## Every reachable state -/

theorem registryInv_init (quicConfig : C) : RegistryInv p (State.init quicConfig : State C Q) := by
  refine ⟨⟨Lease.empty, fun _ => rfl, fun _ => rfl⟩, ?_, ?_, trivial, ?_, ?_⟩
  · intro k info hk
    cases hk
  · intro id task ht
    cases ht
  · intro id hid
    cases hid
  · intro id hid
    cases hid

/-- **The registry refines a table of leases**, in every reachable state. -/
theorem run_registryInv {quicConfig : C} {is : List Input} {s : State C Q} {os : List Output}
    (hr : run (step p) (State.init quicConfig) is = some (s, os)) : RegistryInv p s := by
  refine @run_induct _ _ _ _ (fun _ s => RegistryInv p s) _ _ _ _ (registryInv_init quicConfig)
    ?_ hr
  intro os s i s' o h hstep
  exact (step_ok h hstep).inv

/-- The task was spawned under `k` and has not removed itself. -/
def Spawned (s : State C Q) (k : Key) (id : Nat) (task : Task Q) : Prop :=
  s.tasks id = some task ∧ task.key = k ∧ task.phase.live = true

/-- The entry of `k` belongs to exactly one spawned task that has not removed
itself, or else to the task that the main loop has inserted it for and spawns
next. The task receives what the entry's sender sends. -/
def Owned (s : State C Q) (k : Key) (info : ConnectionInfo) : Prop :=
  (∃ id task, Spawned s k id task ∧ task.receiver = info.sender ∧
    ∀ id' task', Spawned s k id' task' → id' = id) ∨
  (∃ task, s.pc = .spawn task ∧ task.key = k ∧ task.receiver = info.sender ∧
    ∀ id' task', ¬Spawned s k id' task')

theorem RegistryInv.owned {s : State C Q} (h : RegistryInv p s) {k : Key} {info : ConnectionInfo}
    (hk : s.connections k = some info) : Owned s k info := by
  obtain ⟨f, hf⟩ := h.table
  have hlive := hf.holder hk
  -- any spawned task under `k` holds the number in the entry
  have hunique : ∀ id' task', Spawned s k id' task' → id' = info.sender := by
    intro id' task' ⟨ht', hkey', hphase'⟩
    have hlive' : liveKey s id' = some k := by
      rw [liveKey_of_task ht', hphase', if_pos rfl, hkey']
    obtain ⟨info', hk', hsender'⟩ := hf.entry hlive'
    rw [hk] at hk'
    rw [← hsender', ← Option.some.inj hk']
  cases ht : s.tasks info.sender with
  | some task =>
    refine .inl ⟨info.sender, task, ⟨ht, ?_⟩, (h.task _ task ht).1, hunique⟩
    rw [liveKey_of_task ht] at hlive
    split at hlive
    · next hphase => exact ⟨Option.some.inj hlive, hphase⟩
    · cases hlive
  | none =>
    rw [liveKey, ht] at hlive
    cases hpc : s.pc with
    | spawn task =>
      simp only [hpc, Pc.pending] at hlive
      split at hlive
      · next hrx =>
        refine .inr ⟨task, hpc, Option.some.inj hlive, hrx, fun id' task' hsp => ?_⟩
        have hid := hunique id' task' hsp
        obtain ⟨ht', -, -⟩ := hsp
        rw [hid, ht] at ht'
        cases ht'
      · cases hlive
    | _ => simp [hpc, Pc.pending] at hlive

/-- **The registry invariant.** In every reachable state each entry is owned as
above; the key about to be inserted is vacant; a task about to remove its key
finds its own entry there; and a cancelled token belongs to no task that still
has its entry. From there a step changes the registry only as `Change` allows,
and cancels only the token of a task that has removed itself. -/
theorem registry_invariant {quicConfig : C} {is : List Input} {s : State C Q} {os : List Output}
    (hr : run (step p) (State.init quicConfig) is = some (s, os)) :
    (∀ k info, s.connections k = some info → Owned s k info) ∧
    (∀ origin task, s.pc = .insert origin task → s.connections task.key = none) ∧
    (∀ id task, s.tasks id = some task → task.phase = .finished →
      s.connections task.key = some ⟨task.receiver, task.cancelToken⟩) ∧
    (∀ id task, s.tasks id = some task → s.cancelled task.cancelToken = true →
      task.phase.live = false) ∧
    ∀ i s' o, step p s i = some (s', o) → Change s s' ∧
      ∀ token, .cancelled token ∈ o → ∃ id task, s.tasks id = some task ∧
        task.cancelToken = token ∧ task.phase.live = false := by
  have h := run_registryInv hr
  refine ⟨fun k info hk => h.owned hk, ?_, ?_, ?_, ?_⟩
  · intro origin task hpc
    have hpcok := h.pc
    rw [hpc] at hpcok
    exact hpcok.2
  · intro id task ht hfin
    exact h.own_entry ht (by rw [hfin]; rfl)
  · intro id task ht hcancelled
    rw [(h.task id task ht).2.1] at hcancelled
    obtain ⟨task', ht', hphase⟩ := h.cancelled id hcancelled
    rw [ht] at ht'
    rw [Option.some.inj ht']
    exact hphase
  · intro i s' o hstep
    have hok := step_ok h hstep
    refine ⟨hok.change, ?_⟩
    intro token hmem
    obtain ⟨task, ht, hphase⟩ := hok.cancelled token hmem
    exact ⟨token, task, ht, (h.task token task ht).2.1, hphase⟩

private def client : ScionAddr := ⟨1, .ip (.ipv4 10 0 0 1), 4433⟩

private def relay : Env Bytes Unit SendWindow where
  hmac := Hmac.ofTable []
  quiche := wireServer fun _ _ => Vector.replicate 16 0
  mode := .udpEndpoint
  mqttBrokerAddress := ⟨.ipv4 127 0 0 1, 1883⟩
  tokenKey := []
  connIdSeed := []
  localScionAddr := ⟨2, .ip (.ipv4 10 0 0 2), 4433⟩
  localAddr := ⟨.ipv4 10 0 0 2, 4433⟩
  localAddr_eq := rfl

/-- A datagram of a new client, up to the insert. -/
private def upToInsert : List Input := [.recvFrom [1, 2, 3] client, .step, .step, .step]

theorem registry_invariant_sample :
    ∃ s os, run (step relay) (State.init ()) (upToInsert ++ [.step, .taskFinish 0]) = some (s, os) ∧
      s.connections (.udp client) = some ⟨0, 0⟩ ∧
      Owned s (.udp client) ⟨0, 0⟩ :=
  ⟨_, _, rfl, rfl, (@registry_invariant Bytes Unit SendWindow relay ()
    (upToInsert ++ [.step, .taskFinish 0]) _ _ rfl).1 _ _ rfl⟩

/-- Between the insert and the spawn of one datagram the entry is there and no
task has been spawned. -/
theorem entry_before_its_task :
    ∃ s os, run (step relay) (State.init ()) upToInsert = some (s, os) ∧
      (s.connections (.udp client)).isSome ∧
      ∀ id task, ¬Spawned s (.udp client) id task := by
  refine ⟨_, _, rfl, rfl, ?_⟩
  intro id task hsp
  cases hsp.1

end MqttScion.Proxy
