import MqttScion.Lib.Accept
import MqttScion.Client.Session
import MqttScion.Client.Wire
import MqttScion.Python.Bindings

/-!
# One method at a time

The books of the futures at the mutex (`Books`), and the client behind it.

> `served_in_turn`: the client's methods are called one at a time, in the order in
> which the calls came to the mutex; a call that is passed over was dropped. Who is
> next in turn can begin.

> `client_alone`: whatever the callers do, the client goes through a run of its
> own, and what its methods return goes to the calls they were for, each as its
> own kind of answer.
-/

namespace MqttScion.Python

open MqttScion.Net MqttScion.Lib MqttScion.Client

variable {M Q Pk : Type} {p : Env M Q Pk}

/-! ## Logs -/

/-- The calls that came to the mutex, in the order they did. -/
def arrivals (es : List Event) : List Nat :=
  es.filterMap fun e => match e with
    | .arrived id => some id
    | _ => none

/-- The calls whose method has begun. -/
def starts (es : List Event) : List Nat :=
  es.filterMap fun e => match e with
    | .started id => some id
    | _ => none

/-- The calls that were dropped before they had the mutex. -/
def withdrawals (es : List Event) : List Nat :=
  es.filterMap fun e => match e with
    | .withdrawn id => some id
    | _ => none

/-- What the client's methods answered, and to which call. -/
def answers (es : List Event) : List (Nat × PyResult) :=
  es.filterMap fun e => match e with
    | .returned id r => some (id, r)
    | _ => none

@[simp] theorem arrivals_append (es fs : List Event) :
    arrivals (es ++ fs) = arrivals es ++ arrivals fs := List.filterMap_append

@[simp] theorem starts_append (es fs : List Event) :
    starts (es ++ fs) = starts es ++ starts fs := List.filterMap_append

@[simp] theorem withdrawals_append (es fs : List Event) :
    withdrawals (es ++ fs) = withdrawals es ++ withdrawals fs := List.filterMap_append

@[simp] theorem answers_append (es fs : List Event) :
    answers (es ++ fs) = answers es ++ answers fs := List.filterMap_append

/-- A client that serves one call at a time: which one, and what may happen. -/
def oneAtATime : Acceptor (Option Nat) Event
  | none, .started id => some (some id)
  | some _, .started _ => none
  | cur, .returned id _ => if cur = some id then some none else none
  | cur, .aborted id => if cur = some id then some none else none
  | cur, _ => some cur

/-- Answers are given in turn, and to a call at most one. -/
theorem answers_in_turn {es : List Event} {cur : Option Nat}
    (h : follow oneAtATime none es = some cur) :
    ((answers es).map Prod.fst).Sublist (starts es) := by
  -- who is being served is the last one who began, and is not answered
  have hturns : ∃ front, starts es = front ++ cur.toList ∧
      ((answers es).map Prod.fst).Sublist front := by
    refine @follow_induct _ _ oneAtATime (fun es cur => ∃ front, starts es = front ++ cur.toList ∧
      ((answers es).map Prod.fst).Sublist front) none ⟨[], rfl, .slnil⟩ ?_ es cur h
    rintro es v e v' ⟨front, hstarts, hsub⟩ he
    rw [starts_append, answers_append, List.map_append, hstarts]
    cases e with
    | started id =>
      cases v with
      | none =>
        obtain rfl := Option.some.inj he
        exact ⟨front, by simp [starts], by simpa [answers] using hsub⟩
      | some q => cases he
    | returned id r =>
      cases v with
      | none => cases he
      | some q =>
        obtain ⟨rfl, rfl⟩ : q = id ∧ v' = none := by simpa [oneAtATime, eq_comm] using he
        exact ⟨front ++ [q], by simp [starts],
          hsub.append (by simp [answers])⟩
    | aborted id =>
      cases v with
      | none => cases he
      | some q =>
        obtain ⟨rfl, rfl⟩ : q = id ∧ v' = none := by simpa [oneAtATime, eq_comm] using he
        exact ⟨front ++ [q], by simp [starts],
          by simpa [answers] using hsub.trans (List.sublist_append_left front [q])⟩
    | _ =>
      obtain rfl : v = v' := by cases v <;> exact Option.some.inj he
      exact ⟨front, by simp [starts], by simpa [answers] using hsub⟩
  obtain ⟨front, hstarts, hsub⟩ := hturns
  rw [hstarts]
  exact hsub.trans (List.sublist_append_left _ _)

/-! ## The books -/

variable {es : List Event} {s s' : State M Q Pk} {cur : Option Nat} {waiting : List Nat} {id : Nat}

theorem setStage_calls (s : State M Q Pk) (id q : Nat) (stage : Stage) :
    (s.setStage id stage).calls q = if q = id then some stage else s.calls q :=
  Function.update_apply _ _ _ _

theorem setStage_setStage (s : State M Q Pk) (id : Nat) (stage stage' : Stage) :
    (s.setStage id stage).setStage id stage' = s.setStage id stage' := by
  unfold State.setStage
  simp only [Function.update_idem]

theorem setStage_self {stage : Stage} (h : s.calls id = some stage) : s.setStage id stage = s := by
  unfold State.setStage
  rw [← h, Function.update_eq_self]

theorem release_setStage (s : State M Q Pk) (id : Nat) (stage : Stage) :
    (s.setStage id stage).release id = s.release id := by
  unfold State.release
  rw [setStage_setStage]
  rfl

/-- The stage is one of the call that Python made under this number. -/
def Stage.IsOf (p : Env M Q Pk) (es : List Event) (id : Nat) : Stage → Prop
  | .spawned call => .called id call ∈ es
  | .locking method => ∃ call, .called id call ∈ es ∧ call.method p = .ok method
  | .running method => ∃ call, .called id call ∈ es ∧ call.method p = .ok method
  | .finished => True

theorem Stage.IsOf.mono {stage : Stage} (h : stage.IsOf p es id) (fs : List Event) :
    stage.IsOf p (es ++ fs) id := by
  cases stage with
  | spawned call => exact List.mem_append_left fs h
  | locking method =>
    obtain ⟨call, hcall, hmethod⟩ := h
    exact ⟨call, List.mem_append_left fs hcall, hmethod⟩
  | running method =>
    obtain ⟨call, hcall, hmethod⟩ := h
    exact ⟨call, List.mem_append_left fs hcall, hmethod⟩
  | finished => trivial

/-- The books at the mutex: `cur` is being served, `waiting` stands behind it. -/
structure Books (p : Env M Q Pk) (es : List Event) (s : State M Q Pk) (cur : Option Nat)
    (waiting : List Nat) : Prop where
  queue : s.lock.queue = cur.toList ++ waiting
  turns : Turns (arrivals es) (starts es) (withdrawals es) waiting
  serial : follow oneAtATime none es = some cur
  waits : ∀ q, q ∈ waiting ↔ ∃ method, s.calls q = some (.locking method)
  serves : ∀ q, cur = some q ↔ ∃ method, s.calls q = some (.running method)
  /-- A call that has not come to the mutex. -/
  away : ∀ q, (s.calls q = none ∨ ∃ call, s.calls q = some (.spawned call)) →
    q ∉ arrivals es ∧ q ∉ withdrawals es
  fresh : ∀ q, s.nextCall ≤ q → s.calls q = none
  origin : ∀ q stage, s.calls q = some stage → stage.IsOf p es q

theorem books_new (clientId : String) :
    Books p [] (State.new clientId) none [] where
  queue := rfl
  turns := .empty
  serial := rfl
  waits q := by simp [State.new]
  serves q := by simp [State.new]
  away q _ := ⟨List.not_mem_nil, List.not_mem_nil⟩
  fresh _ _ := rfl
  origin q stage h := by cases h

/-- Who is at a stage of a kind `K`, when a future comes to a stage of another kind. -/
theorem exists_setStage {K : Method → Stage} {P : Nat → Prop} {stage : Stage}
    (h : ∀ q, P q ↔ ∃ method, s.calls q = some (K method))
    (hold : ∀ method, s.calls id ≠ some (K method)) (hnew : ∀ method, stage ≠ K method) (q : Nat) :
    P q ↔ ∃ method, (s.setStage id stage).calls q = some (K method) := by
  rw [h q, setStage_calls]
  by_cases hq : q = id
  · subst hq
    rw [if_pos rfl]
    refine ⟨fun ⟨method, hcall⟩ => absurd hcall (hold method), fun ⟨method, hcall⟩ => ?_⟩
    exact absurd (Option.some.inj hcall) (hnew method)
  · rw [if_neg hq]

namespace Books

/-- The books do not depend on the client. -/
theorem client (h : Books p es s cur waiting) (c : System.State M Q Pk) :
    Books p es { s with client := c } cur waiting :=
  ⟨h.queue, h.turns, h.serial, h.waits, h.serves, h.away, h.fresh, h.origin⟩

theorem serial_snoc (h : Books p es s cur waiting) {e : Event} {cur' : Option Nat}
    (he : oneAtATime cur e = some cur') : follow oneAtATime none (es ++ [e]) = some cur' :=
  follow_append_eq_some.mpr ⟨cur, h.serial, by rw [follow_singleton, he]⟩

/-- One future moves to another stage; the log grows by what it was. -/
theorem origin_setStage (h : Books p es s cur waiting) {stage : Stage} (fs : List Event)
    (hstage : stage.IsOf p (es ++ fs) id) (q : Nat) (stage' : Stage)
    (hq : (s.setStage id stage).calls q = some stage') : stage'.IsOf p (es ++ fs) q := by
  rw [setStage_calls] at hq
  split at hq
  · next heq =>
    subst heq
    rwa [← Option.some.inj hq]
  · exact (h.origin q stage' hq).mono fs

/-- A future whose call is numbered is not a fresh one. -/
theorem fresh_setStage (h : Books p es s cur waiting) {stage stage' : Stage}
    (hcall : s.calls id = some stage) (q : Nat) (hq : s.nextCall ≤ q) :
    (s.setStage id stage').calls q = none := by
  rw [setStage_calls]
  split
  · next heq =>
    subst heq
    rw [h.fresh q hq] at hcall
    cases hcall
  · exact h.fresh q hq

/-- `away`, when the future of `id` comes to a stage of its own. -/
theorem away_setStage (h : Books p es s cur waiting) {stage : Stage} {fs : List Event}
    (hstage : ∀ call, stage ≠ .spawned call)
    (hfs : ∀ q, q ≠ id → q ∉ arrivals fs ∧ q ∉ withdrawals fs) (q : Nat)
    (hq : (s.setStage id stage).calls q = none ∨
      ∃ call, (s.setStage id stage).calls q = some (.spawned call)) :
    q ∉ arrivals (es ++ fs) ∧ q ∉ withdrawals (es ++ fs) := by
  rw [setStage_calls] at hq
  split at hq
  · rcases hq with hq | ⟨call, hq⟩
    · cases hq
    · exact absurd (Option.some.inj hq) (hstage call)
  · next hne =>
    obtain ⟨harrived, hwithdrawn⟩ := h.away q hq
    simp [harrived, hwithdrawn, hfs q hne]

/-- Python calls a method. -/
theorem called (h : Books p es s cur waiting) (call : Call) :
    Books p (es ++ [.called s.nextCall call])
      { s.setStage s.nextCall (.spawned call) with nextCall := s.nextCall + 1 } cur waiting where
  queue := h.queue
  turns := by simpa [arrivals, starts, withdrawals] using h.turns
  serial := h.serial_snoc (by cases cur <;> rfl)
  waits := exists_setStage h.waits (fun method hcall => by
    rw [h.fresh _ (Nat.le_refl _)] at hcall
    cases hcall) nofun
  serves := exists_setStage h.serves (fun method hcall => by
    rw [h.fresh _ (Nat.le_refl _)] at hcall
    cases hcall) nofun
  away q hq := by
    have haway : q ∉ arrivals es ∧ q ∉ withdrawals es := by
      by_cases heq : q = s.nextCall
      · exact h.away q (.inl (h.fresh q (by omega)))
      · have hcalls := setStage_calls s s.nextCall q (.spawned call)
        rw [if_neg heq] at hcalls
        exact h.away q (by rwa [← hcalls])
    simpa [arrivals, withdrawals] using haway
  fresh q hq := by
    have hlt : s.nextCall < q := hq
    show (s.setStage _ _).calls q = none
    rw [setStage_calls, if_neg (by omega)]
    exact h.fresh q (by omega)
  origin := h.origin_setStage _ (List.mem_append_right es List.mem_cons_self)

/-- A future ends on its way to the mutex. -/
theorem ends (h : Books p es s cur waiting) {call : Call}
    (hcall : s.calls id = some (.spawned call))
    {e : Event} (he : (∃ r, e = .rejected id r) ∨ e = .withdrawn id) :
    Books p (es ++ [e]) (s.setStage id .finished) cur waiting where
  queue := h.queue
  turns := by
    rcases he with ⟨r, rfl⟩ | rfl
    · simpa [arrivals, starts, withdrawals] using h.turns
    · simpa [arrivals, starts, withdrawals] using
        h.turns.quit_outside (h.away id (.inr ⟨call, hcall⟩)).1
  serial := h.serial_snoc (by rcases he with ⟨r, rfl⟩ | rfl <;> cases cur <;> rfl)
  waits := exists_setStage h.waits (fun method => by rw [hcall]; nofun) nofun
  serves := exists_setStage h.serves (fun method => by rw [hcall]; nofun) nofun
  away := h.away_setStage nofun fun q hq => by
    rcases he with ⟨r, rfl⟩ | rfl <;> simp [arrivals, withdrawals, hq]
  fresh := h.fresh_setStage hcall
  origin := h.origin_setStage _ trivial

/-- A future comes to the mutex. -/
theorem arrived (h : Books p es s cur waiting) {call : Call} {method : Method}
    (hcall : s.calls id = some (.spawned call)) (hmethod : call.method p = .ok method)
    (hqueue : id ∉ s.lock.queue) :
    Books p (es ++ [.arrived id])
      { s.setStage id (.locking method) with lock := s.lock.enter id hqueue } cur
      (waiting ++ [id]) where
  queue := by
    show s.lock.queue ++ [id] = _
    rw [h.queue, List.append_assoc]
  turns := by
    obtain ⟨harrived, hwithdrawn⟩ := h.away id (.inr ⟨call, hcall⟩)
    simpa [arrivals, starts, withdrawals] using h.turns.come harrived hwithdrawn
  serial := h.serial_snoc (by cases cur <;> rfl)
  waits q := by
    show _ ↔ ∃ method', (s.setStage _ _).calls q = _
    rw [setStage_calls, List.mem_append, List.mem_singleton, h.waits q]
    by_cases hq : q = id
    · simp [hq]
    · simp [hq]
  serves := exists_setStage h.serves (fun method => by rw [hcall]; nofun) nofun
  away := h.away_setStage nofun fun q hq => by simp [arrivals, withdrawals, hq]
  fresh := h.fresh_setStage hcall
  origin := h.origin_setStage _
    ⟨call, List.mem_append_left _ (h.origin id _ hcall), hmethod⟩

/-- A future that waits at the mutex is dropped. -/
theorem leaves (h : Books p es s cur waiting) {method : Method}
    (hcall : s.calls id = some (.locking method)) :
    Books p (es ++ [.withdrawn id])
      { s.setStage id .finished with lock := s.lock.leave id } cur (waiting.erase id) where
  queue := by
    have hcur : id ∉ cur.toList := by
      intro hmem
      obtain ⟨method', hrunning⟩ := (h.serves id).mp (Option.mem_toList.mp hmem)
      rw [hcall] at hrunning
      cases hrunning
    show s.lock.queue.erase id = _
    rw [h.queue, List.erase_append_right _ hcur]
  turns := by
    simpa [arrivals, starts, withdrawals] using h.turns.quit ((h.waits id).mpr ⟨method, hcall⟩)
  serial := h.serial_snoc (by cases cur <;> rfl)
  waits q := by
    have hnodup : waiting.Nodup := (List.nodup_append.mp h.turns.nodup_books).2.1
    show _ ↔ ∃ method', (s.setStage _ _).calls q = _
    rw [setStage_calls, hnodup.mem_erase_iff, h.waits q]
    by_cases hq : q = id
    · simp [hq]
    · simp [hq]
  serves := exists_setStage h.serves (fun method => by rw [hcall]; nofun) nofun
  away := h.away_setStage nofun fun q hq => by simp [arrivals, withdrawals, hq]
  fresh := h.fresh_setStage hcall
  origin := h.origin_setStage _ trivial

/-- Who waits at the mutex and has it is the next in turn, and nobody is served. -/
theorem next_in_turn (h : Books p es s cur waiting) {method : Method}
    (hcall : s.calls id = some (.locking method)) (hholder : s.lock.holder = some id) :
    cur = none ∧ ∃ rest, waiting = id :: rest := by
  obtain ⟨rest, hqueue⟩ := List.head?_eq_some_iff.mp hholder
  rw [h.queue] at hqueue
  cases cur with
  | none => exact ⟨rfl, rest, hqueue⟩
  | some q =>
    obtain ⟨rfl, -⟩ := List.cons.inj hqueue
    obtain ⟨method', hrunning⟩ := (h.serves q).mp rfl
    rw [hcall] at hrunning
    cases hrunning

/-- The next in turn begins. -/
theorem started {rest : List Nat} (h : Books p es s none (id :: rest)) {method : Method}
    (hcall : s.calls id = some (.locking method)) :
    Books p (es ++ [.started id]) (s.setStage id (.running method)) (some id) rest where
  queue := h.queue
  turns := by simpa [arrivals, starts, withdrawals] using h.turns.serve
  serial := h.serial_snoc rfl
  waits q := by
    have hnodup : (id :: rest).Nodup := (List.nodup_append.mp h.turns.nodup_books).2.1
    have hq := h.waits q
    rw [setStage_calls]
    by_cases heq : q = id
    · subst heq
      simp [(List.nodup_cons.mp hnodup).1]
    · rw [if_neg heq, ← hq, List.mem_cons, or_iff_right heq]
  serves q := by
    have hq := h.serves q
    rw [setStage_calls]
    by_cases heq : q = id
    · simp [heq]
    · rw [if_neg heq, ← hq]
      simp [Ne.symm heq]
  away := h.away_setStage nofun fun q _ => by simp [arrivals, withdrawals]
  fresh := h.fresh_setStage hcall
  origin := h.origin_setStage _ ((h.origin id _ hcall).mono _)

/-- The method of the call that is served ends. -/
theorem ended (h : Books p es s (some id) waiting) {e : Event}
    (he : (∃ r, e = .returned id r) ∨ e = .aborted id) :
    Books p (es ++ [e]) (s.release id) none waiting where
  queue := by
    show s.lock.queue.tail = _
    rw [h.queue]
    rfl
  turns := by
    rcases he with ⟨r, rfl⟩ | rfl
    · simpa [arrivals, starts, withdrawals] using h.turns
    · simpa [arrivals, starts, withdrawals] using h.turns
  serial := h.serial_snoc (by rcases he with ⟨r, rfl⟩ | rfl <;> simp [oneAtATime])
  waits := exists_setStage h.waits (fun method => by
    obtain ⟨method', hrunning⟩ := (h.serves id).mp rfl
    rw [hrunning]
    nofun) nofun
  serves q := by
    have hq := h.serves q
    show _ ↔ ∃ method', (s.setStage _ _).calls q = _
    rw [setStage_calls]
    by_cases heq : q = id
    · simp [heq]
    · rw [if_neg heq, ← hq]
      simp [Ne.symm heq]
  away := h.away_setStage nofun fun q hq => by
    rcases he with ⟨r, rfl⟩ | rfl <;> simp [arrivals, withdrawals]
  fresh q hq := by
    obtain ⟨method, hrunning⟩ := (h.serves id).mp rfl
    exact h.fresh_setStage hrunning q hq
  origin := h.origin_setStage _ trivial

end Books

/-! ## The client behind the mutex -/

variable {c c' : System.State M Q Pk} {o os : List (System.Output Pk)} {js : List (System.Input Q)}
  {clientId : String} {fs : List Event}

/-- A method of the client returns. -/
def returns : System.Output Pk → Bool
  | .task _ _ => false
  | _ => true

/-- What the client returned is what Python gets, for the call it was for. -/
def Answers (p : Env M Q Pk) (es : List Event) (x : System.Output Pk) (a : Nat × PyResult) : Prop :=
  ∃ call method, .called a.1 call ∈ es ∧ call.method p = .ok method ∧
    method.answer p x = some a.2

theorem Answers.mono {x : System.Output Pk} {a : Nat × PyResult} (h : Answers p es x a)
    (fs : List Event) : Answers p (es ++ fs) x a := by
  obtain ⟨call, method, hcall, hmethod, hanswer⟩ := h
  exact ⟨call, method, List.mem_append_left fs hcall, hmethod, hanswer⟩

theorem returns_of_answer {method : Method} {x : System.Output Pk} {r : PyResult}
    (h : method.answer p x = some r) : returns x = true := by
  cases x with
  | task n q => cases method <;> cases h
  | _ => rfl

/-- The client is where a run of its own leads, and what it returned in that run has
been handed out. -/
def Ran (p : Env M Q Pk) (clientId : String) (es : List Event) (c : System.State M Q Pk) : Prop :=
  ∃ js os, run (System.step p.core p.quiche) (.new clientId) js = some (c, os) ∧
    List.Forall₂ (Answers p es) (os.filter returns) (answers es)

/-- The client behind the books: it stands at an await of the method that is being
called. -/
structure Behind (p : Env M Q Pk) (clientId : String) (es : List Event) (s : State M Q Pk)
    (cur : Option Nat) : Prop where
  idle : cur = none → s.client.call = .idle
  suits : ∀ q method, s.calls q = some (.running method) → method.Suits s.client.call
  ran : Ran p clientId es s.client

/-- The books and the client. -/
def Serves (p : Env M Q Pk) (clientId : String) (es : List Event) (s : State M Q Pk) : Prop :=
  ∃ cur waiting, Books p es s cur waiting ∧ Behind p clientId es s cur

/-- The client moves, and what it returns is handed out. -/
theorem Ran.moves (h : Ran p clientId es c) {i : System.Input Q}
    (hm : System.step p.core p.quiche c i = some (c', o))
    (hanswers : List.Forall₂ (Answers p (es ++ fs)) (o.filter returns) (answers fs)) :
    Ran p clientId (es ++ fs) c' := by
  obtain ⟨js, os, hr, hold⟩ := h
  refine ⟨js ++ [i], os ++ o, ?_, ?_⟩
  · exact run_append_eq_some.mpr ⟨c, os, o, hr,
      run_cons_eq_some.mpr ⟨c', o, [], hm, rfl, (List.append_nil o).symm⟩, rfl⟩
  · rw [List.filter_append, answers_append]
    exact List.rel_append (hold.imp fun x a h => h.mono fs) hanswers

/-- The client rests. -/
theorem Ran.rests (h : Ran p clientId es c) (hfs : answers fs = []) :
    Ran p clientId (es ++ fs) c := by
  obtain ⟨js, os, hr, hold⟩ := h
  refine ⟨js, os, hr, ?_⟩
  rw [answers_append, hfs, List.append_nil]
  exact hold.imp fun x a h => h.mono fs

/-- A future moves that is not in the client. -/
theorem Behind.rests (h : Behind p clientId es s cur) (hfs : answers fs = [])
    (hclient : s'.client = s.client)
    (hcalls : ∀ q method, s'.calls q = some (.running method) →
      s.calls q = some (.running method)) :
    Behind p clientId (es ++ fs) s' cur := by
  refine ⟨?_, fun q method hq => ?_, ?_⟩
  · rw [hclient]
    exact h.idle
  · rw [hclient]
    exact h.suits q method (hcalls q method hq)
  · rw [hclient]
    exact h.ran.rests hfs

/-- A future that comes to a stage before or after the client is not in it. -/
theorem running_setStage {stage : Stage} (hstage : ∀ method, stage ≠ .running method) (q : Nat)
    (method : Method) (h : (s.setStage id stage).calls q = some (.running method)) :
    s.calls q = some (.running method) := by
  rw [setStage_calls] at h
  split at h
  · exact absurd (Option.some.inj h) (hstage method)
  · exact h

/-- What a task does is not for the callers, and the call in progress stays where it
is. -/
theorem aside_keeps {i : System.Input Q}
    (hi : (∃ n j, i = .task n j) ∨ ∃ n, i = .taskDrop n)
    (h : System.step p.core p.quiche c i = some (c', o)) :
    c'.call = c.call ∧ o.filter returns = [] := by
  rcases hi with ⟨n, j, rfl⟩ | ⟨n, rfl⟩
  · have hmove : System.taskMove p.core p.quiche n j c = some (c', o) := by
      unfold System.step at h
      exact h
    unfold System.taskMove at hmove
    split at hmove
    · cases hmove
    · split at hmove
      · next q _ _ =>
        obtain ⟨rfl, rfl⟩ := Prod.mk.inj (Option.some.inj hmove)
        refine ⟨(System.foldl_applyOutput_signals _ _).call, ?_⟩
        rw [List.filter_eq_nil_iff]
        intro x hx
        obtain ⟨y, -, rfl⟩ := List.mem_map.mp hx
        simp [returns]
      · cases hmove
  · have hmove : (System.taskDrop n c).map (fun c' => (c', [])) = some (c', o) := by
      unfold System.step at h
      exact h
    obtain ⟨c₁, hdrop, heq⟩ := Option.map_eq_some_iff.mp hmove
    obtain ⟨rfl, rfl⟩ := Prod.mk.inj heq
    refine ⟨?_, rfl⟩
    unfold System.taskDrop at hdrop
    split at hdrop
    · cases hdrop
    · split at hdrop
      · split at hdrop
        · rw [← Option.some.inj hdrop]
          rfl
        · cases hdrop
      · cases hdrop

/-- A method that is dropped leaves the client idle, without a word. -/
theorem cancel_idle (h : System.step p.core p.quiche c .cancel = some (c', o)) :
    c'.call = .idle ∧ o = [] := by
  cases hcall : c.call with
  | idle =>
    simp only [System.step, hcall] at h
    cases h
  | _ =>
    simp only [System.step, hcall] at h
    obtain ⟨rfl, rfl⟩ := Prod.mk.inj (Option.some.inj h)
    exact ⟨rfl, rfl⟩

/-- **The method of the call that is served has moved.** -/
theorem settle_serves {method : Method} {i : System.Input Q}
    (hbooks : Books p es (s.setStage id (.running method)) (some id) waiting)
    (hran : Ran p clientId es s.client)
    (hm : System.step p.core p.quiche s.client i = some (c', o))
    (hprogress : Progress p method c' o) :
    Serves p clientId (es ++ (settle p id method c' o s).2) (settle p id method c' o s).1 := by
  cases hprogress with
  | pending suits =>
    refine ⟨some id, waiting, ?_, nofun, fun q method' hq => ?_, hran.moves hm .nil⟩
    · rw [show (settle p id method c' [] s).2 = [] from rfl, List.append_nil]
      exact hbooks.client c'
    · obtain rfl := Option.some.inj ((hbooks.serves q).mpr ⟨method', hq⟩)
      have hsame : (s.setStage id (.running method)).calls id = some (.running method') := hq
      rw [setStage_calls, if_pos rfl] at hsame
      obtain rfl := Stage.running.inj (Option.some.inj hsame)
      exact suits
  | @answered x r idle answer =>
    have hsettle : settle p id method c' [x] s =
        ({ s.release id with client := c' }, [.returned id r]) := by
      unfold settle
      rw [List.findSome?_singleton, answer]
    rw [hsettle]
    have hended := hbooks.ended (.inl ⟨r, rfl⟩)
    rw [release_setStage] at hended
    refine ⟨none, waiting, hended.client c', fun _ => idle, fun q method' hq => ?_,
      hran.moves hm ?_⟩
    · cases (hended.serves q).mpr ⟨method', hq⟩
    · obtain ⟨call, hcall, hmethod⟩ :=
        hbooks.origin id (.running method) (by rw [setStage_calls, if_pos rfl])
      rw [List.filter_cons_of_pos (returns_of_answer answer)]
      exact .cons ⟨call, method, List.mem_append_left _ hcall, hmethod, answer⟩ .nil

/-! ## Steps -/

theorem arrive_serves (h : Serves p clientId es s) (hm : arrive p id s = some (s', fs)) :
    Serves p clientId (es ++ fs) s' := by
  obtain ⟨cur, waiting, hbooks, hbehind⟩ := h
  unfold arrive at hm
  split at hm
  · next call hcall =>
    split at hm
    · obtain ⟨rfl, rfl⟩ := Prod.mk.inj (Option.some.inj hm)
      exact ⟨cur, waiting, hbooks.ends hcall (.inl ⟨_, rfl⟩),
        hbehind.rests rfl rfl (running_setStage nofun)⟩
    · next method hmethod =>
      split at hm
      · next hqueue =>
        obtain ⟨rfl, rfl⟩ := Prod.mk.inj (Option.some.inj hm)
        exact ⟨cur, waiting ++ [id], hbooks.arrived hcall hmethod hqueue,
          hbehind.rests rfl rfl (running_setStage nofun)⟩
      · cases hm
  · cases hm

theorem start_serves (h : Serves p clientId es s) (hm : start p id s = some (s', fs)) :
    Serves p clientId (es ++ fs) s' := by
  obtain ⟨cur, waiting, hbooks, hbehind⟩ := h
  unfold start at hm
  split at hm
  · next method hcall =>
    split at hm
    · next hholder =>
      obtain ⟨rfl, rest, rfl⟩ := hbooks.next_in_turn hcall hholder
      have hidle := hbehind.idle rfl
      have hstarted := hbooks.started hcall
      split at hm
      · next hbegins =>
        obtain ⟨rfl, rfl⟩ := Prod.mk.inj (Option.some.inj hm)
        refine ⟨some id, rest, hstarted, nofun, fun q method' hq => ?_, hbehind.ran.rests rfl⟩
        obtain rfl := Option.some.inj ((hstarted.serves q).mpr ⟨method', hq⟩)
        rw [setStage_calls, if_pos rfl] at hq
        obtain rfl := Stage.running.inj (Option.some.inj hq)
        show method.Suits s.client.call
        rw [hidle]
        cases method with
        | receive => trivial
        | _ => cases hbegins
      · next i hbegins =>
        obtain ⟨c', o, hstep, hprogress⟩ := begins_progress hidle hbegins
        rw [hstep] at hm
        obtain ⟨rfl, rfl⟩ := Prod.mk.inj (Option.some.inj hm)
        have hsettled := settle_serves hstarted (hbehind.ran.rests rfl) hstep hprogress
        rwa [List.append_assoc] at hsettled
    · cases hm
  · cases hm

theorem aside_serves (h : Serves p clientId es s) {i : System.Input Q}
    (hi : (∃ n j, i = .task n j) ∨ ∃ n, i = .taskDrop n)
    (hm : System.step p.core p.quiche s.client i = some (c', o)) :
    Serves p clientId (es ++ []) { s with client := c' } := by
  obtain ⟨cur, waiting, hbooks, hbehind⟩ := h
  obtain ⟨hcall, hsilent⟩ := aside_keeps hi hm
  refine ⟨cur, waiting, ?_, fun hcur => ?_, fun q method hq => ?_, hbehind.ran.moves hm ?_⟩
  · rw [List.append_nil]
    exact hbooks.client c'
  · exact hcall.trans (hbehind.idle hcur)
  · show method.Suits c'.call
    rw [hcall]
    exact hbehind.suits q method hq
  · rw [hsilent]
    exact .nil

theorem clientMove_serves (h : Serves p clientId es s) {i : System.Input Q}
    (hm : clientMove p i s = some (s', fs)) : Serves p clientId (es ++ fs) s' := by
  unfold clientMove at hm
  split at hm
  · obtain ⟨⟨c', o⟩, hstep, heq⟩ := Option.map_eq_some_iff.mp hm
    obtain ⟨rfl, rfl⟩ := Prod.mk.inj heq
    exact aside_serves h (.inl ⟨_, _, rfl⟩) hstep
  · obtain ⟨⟨c', o⟩, hstep, heq⟩ := Option.map_eq_some_iff.mp hm
    obtain ⟨rfl, rfl⟩ := Prod.mk.inj heq
    exact aside_serves h (.inr ⟨_, rfl⟩) hstep
  · split at hm
    · cases hm
    · next id hholder =>
      split at hm
      · next method hcall =>
        split at hm
        · next hcontinues =>
          obtain ⟨cur, waiting, hbooks, hbehind⟩ := h
          obtain ⟨⟨c', o⟩, hstep, heq⟩ := Option.map_eq_some_iff.mp hm
          have hprogress := continues_progress (hbehind.suits id method hcall) hcontinues hstep
          obtain rfl := (hbooks.serves id).mpr ⟨method, hcall⟩
          have hserves := settle_serves (by rwa [setStage_self hcall]) hbehind.ran hstep hprogress
          simp only at heq
          rwa [heq] at hserves
        · cases hm
      · cases hm

theorem cancel_serves (h : Serves p clientId es s) (hm : cancel p id s = some (s', fs)) :
    Serves p clientId (es ++ fs) s' := by
  obtain ⟨cur, waiting, hbooks, hbehind⟩ := h
  -- the method that is being called is dropped, and the client is left idle
  have haborted : ∀ {method c'}, s.calls id = some (.running method) → c'.call = .idle →
      Ran p clientId (es ++ [.aborted id]) c' →
      Serves p clientId (es ++ [.aborted id]) { s.release id with client := c' } := by
    intro method c' hcall hidle hran
    obtain rfl := (hbooks.serves id).mpr ⟨method, hcall⟩
    have hended := hbooks.ended (.inr rfl)
    refine ⟨none, waiting, hended.client c', fun _ => hidle, fun q method' hq => ?_, hran⟩
    cases (hended.serves q).mpr ⟨method', hq⟩
  unfold cancel at hm
  split at hm
  · next call hcall =>
    obtain ⟨rfl, rfl⟩ := Prod.mk.inj (Option.some.inj hm)
    exact ⟨cur, waiting, hbooks.ends hcall (.inr rfl),
      hbehind.rests rfl rfl (running_setStage nofun)⟩
  · next method hcall =>
    obtain ⟨rfl, rfl⟩ := Prod.mk.inj (Option.some.inj hm)
    exact ⟨cur, waiting.erase id, hbooks.leaves hcall,
      hbehind.rests rfl rfl (running_setStage nofun)⟩
  · next hcall =>
    obtain ⟨rfl, rfl⟩ := Prod.mk.inj (Option.some.inj hm)
    have hidle : s.client.call = .idle := by
      have hsuits := hbehind.suits id .receive hcall
      cases hat : s.client.call with
      | idle => rfl
      | _ =>
        rw [hat] at hsuits
        exact hsuits.elim
    exact haborted hcall hidle (hbehind.ran.rests rfl)
  · next method _ hcall =>
    obtain ⟨⟨c', o⟩, hstep, heq⟩ := Option.map_eq_some_iff.mp hm
    obtain ⟨rfl, rfl⟩ := Prod.mk.inj heq
    obtain ⟨hidle, rfl⟩ := cancel_idle hstep
    exact haborted hcall hidle (hbehind.ran.moves hstep .nil)
  · cases hm

theorem step_serves {i : Input Q} (h : Serves p clientId es s) (hm : step p s i = some (s', fs)) :
    Serves p clientId (es ++ fs) s' := by
  cases i with
  | call call =>
    obtain ⟨cur, waiting, hbooks, hbehind⟩ := h
    obtain ⟨rfl, rfl⟩ := Prod.mk.inj (Option.some.inj hm)
    exact ⟨cur, waiting, hbooks.called call, hbehind.rests rfl rfl (running_setStage nofun)⟩
  | arrive id => exact arrive_serves h hm
  | start id => exact start_serves h hm
  | client i => exact clientMove_serves h hm
  | cancel id => exact cancel_serves h hm

theorem run_serves {is : List (Input Q)}
    (hr : run (step p) (State.new clientId) is = some (s, es)) : Serves p clientId es s := by
  refine @run_induct _ _ _ (step p) (fun es s => Serves p clientId es s) is es _ s ?_
    (fun es s i s' fs h hm => step_serves h hm) hr
  exact ⟨none, [], books_new clientId, fun _ => rfl, nofun, [], [], rfl, .nil⟩

/-- Who is next in turn can begin, when nobody is served. -/
theorem next_begins {rest : List Nat} (hbooks : Books p es s none (id :: rest))
    (hbehind : Behind p clientId es s none) : (step p s (.start id)).isSome := by
  obtain ⟨method, hcall⟩ := (hbooks.waits id).mp List.mem_cons_self
  have hholder : s.lock.holder = some id := by
    unfold Mutex.holder
    rw [hbooks.queue]
    rfl
  show (start p id s).isSome
  unfold start
  rw [hcall]
  simp only [hholder, if_true]
  cases hbegins : method.begins with
  | none => rfl
  | some i =>
    have hcan : ∃ c' o, System.step p.core p.quiche s.client i = some (c', o) ∧
        Progress p method c' o := begins_progress (hbehind.idle rfl) hbegins
    obtain ⟨c', o, hstep, -⟩ := hcan
    simp only [hstep]
    rfl

/-- **No call is overtaken**: the methods begin in the order in which the calls came
to the mutex, and who came before one who has begun has begun before, or was
dropped. -/
theorem never_overtaken {is : List (Input Q)}
    (hr : run (step p) (State.new clientId) is = some (s, es)) :
    (starts es).Sublist (arrivals es) ∧
      ∀ id id', [id, id'].Sublist (arrivals es) → id' ∈ starts es →
        id ∈ withdrawals es ∨ [id, id'].Sublist (starts es) := by
  obtain ⟨_, _, hbooks, -⟩ := run_serves hr
  exact ⟨hbooks.turns.in_order, fun id id' => hbooks.turns.first_come⟩

/-- **The client's methods are called one at a time**, in the order in which the
calls came to the mutex, and answered in it; who is next can begin. -/
theorem served_in_turn {is : List (Input Q)}
    (hr : run (step p) (State.new clientId) is = some (s, es)) :
    ∃ cur waiting, follow oneAtATime none es = some cur ∧
      Turns (arrivals es) (starts es) (withdrawals es) waiting ∧
      ((answers es).map Prod.fst).Sublist (starts es) ∧
      ∀ id rest, cur = none → waiting = id :: rest → (step p s (.start id)).isSome := by
  obtain ⟨cur, waiting, hbooks, hbehind⟩ := run_serves hr
  refine ⟨cur, waiting, hbooks.serial, hbooks.turns, answers_in_turn hbooks.serial,
    fun id rest hcur hwaiting => ?_⟩
  subst hcur hwaiting
  exact next_begins hbooks hbehind

/-- The libraries of the examples; every address is the peer's. -/
private def peerEnv : Env WireCore Peer Bytes :=
  ⟨wireCore, peerQuiche, fun _ => .ok peerAddr, fun _ => "no connection"⟩

/-- `connect`, `receive` and `publish` are called, and come to the mutex in this
order; `connect` returns, `receive` is dropped in the queue, and `publish` begins. -/
private def threeCalls : List (Input Peer) :=
  [.call (.connect "[1-1,10.0.0.2]:8883"), .call (.publish "t" [7]), .call .receive,
    .arrive 0, .arrive 2, .arrive 1, .start 0,
    .client (.connection (some (⟨1, .ip (.ipv4 10 0 0 9), 4433⟩, (peerClient 90).conn)))] ++
  connectInputs.map (fun i => .client (.task 0 i)) ++
  [.client .poll, .cancel 2, .start 1, .client .send]

theorem served_in_turn_sample :
    ∃ s es cur waiting, run (step peerEnv) (State.new "c1") threeCalls = some (s, es) ∧
      arrivals es = [0, 2, 1] ∧ starts es = [0, 1] ∧ withdrawals es = [2] ∧
      follow oneAtATime none es = some cur ∧ Turns [0, 2, 1] [0, 1] [2] waiting := by
  obtain ⟨cur, waiting, hserial, hturns, -⟩ :=
    @served_in_turn WireCore Peer Bytes peerEnv _ _ "c1" threeCalls rfl
  exact ⟨_, _, cur, waiting, rfl, rfl, rfl, rfl, hserial, hturns⟩

/-- **The client is alone behind the mutex**: it goes through a run of its own, and
what it returned there, and nothing else, went to the calls it was for. -/
theorem client_alone {is : List (Input Q)}
    (hr : run (step p) (State.new clientId) is = some (s, es)) :
    ∃ js os, run (System.step p.core p.quiche) (.new clientId) js = some (s.client, os) ∧
      List.Forall₂ (Answers p es) (os.filter returns) (answers es) := by
  obtain ⟨_, _, -, hbehind⟩ := run_serves hr
  exact hbehind.ran

theorem client_alone_sample :
    ∃ s es js os, run (step peerEnv) (State.new "c1") threeCalls = some (s, es) ∧
      run (System.step wireCore peerQuiche) (.new "c1") js = some (s.client, os) ∧
      List.Forall₂ (Answers peerEnv es) (os.filter returns) [(0, .ok none)] := by
  obtain ⟨js, os, hr, hanswers⟩ :=
    @client_alone WireCore Peer Bytes peerEnv _ _ "c1" threeCalls rfl
  exact ⟨_, _, js, os, rfl, hr, hanswers⟩

end MqttScion.Python
