import MqttScion.Lib.Switch
import MqttScion.Proxy.Alone

/-!
# The proxy is a switch

Seen from the datagrams, the proxy is a `Switch`: its keys are those of the
registry, its sessions the tasks, its inboxes their channels. Between the
look-up of a datagram and its `try_send` tasks come to their end and take their
entries out of the registry; the switch does not see the registry, it knows the
newest session of each key.

`switchEvents` logs what becomes of a datagram in either mode. `Mirrors` ties a
state of the proxy to one of the switch; an entry of the registry always leads
to the newest session of its key, because the main loop alone inserts, and it
inserts only where it has found no entry.

> `proxy_refines_switch`: the log of every run of the proxy is one of the switch.

> `datagrams_switched`: so every datagram is settled before the next, a task
> takes in a prefix of what was delivered to it, and a datagram is delivered to
> the newest session of a key that accepts it or to none.
-/

namespace MqttScion.Proxy

open MqttScion.Net MqttScion.Lib

variable {K C Q : Type}

/-- The key accepts the packet: it is the source, or in QuicEndpoint mode the
destination connection ID or what is derived from it. -/
def accepts (p : Env K C Q) (k : Key) (packet : UdpPacket) : Bool :=
  match k with
  | .udp src => src = packet.src
  | .quic id =>
    match p.quiche.headerFromSlice packet.data maxConnIdLen with
    | .ok hdr => id = hdr.dcid || id = connId p hdr.dcid
    | .error _ => false

/-- The datagram the main loop has in hand. -/
def Pc.inHand (p : Env K C Q) : Pc Q → Option UdpPacket
  | .lookup d | .forward _ d | .create d => some (d.packet p)
  | _ => none

/-- What becomes of a datagram in a step of the proxy. -/
def switchEvents (p : Env K C Q) (s : State C Q) (i : Input) (_ : List Output) :
    List (SwitchEvent Key UdpPacket) :=
  match s.pc, i with
  | _, .task id j =>
    match j.coupling with
    | .recv packet => [.takes id packet]
    | _ => []
  | _, .taskDrop id => [.leaves id]
  | .select, .recvFrom data src =>
    let packet : UdpPacket := { src := src, dst := p.localScionAddr, data := data }
    match (recvFrom p data src s).pc with
    | .lookup _ => [.arrives packet]
    | _ => [.arrives packet, .discards packet]
  | .forward info d, .step =>
    match ((s.channels info.sender).trySend (d.packet p)).1 with
    | .ok => [.delivers info.sender (d.packet p)]
    | _ => [.discards (d.packet p)]
  | .create d, .step =>
    match (create p d s).1.pc with
    | .insert _ task => [.opens task.receiver task.key (d.packet p)]
    | _ => [.discards (d.packet p)]
  | _, _ => []

/-- The task that has a number and is not spawned yet. -/
def Pc.prepared : Pc Q → Option (Task Q)
  | .insert _ task | .spawn task => some task
  | _ => none

/-- The key under which the session of this number was opened. -/
def State.keyOf (s : State C Q) (id : Nat) : Option Key :=
  match s.tasks id with
  | some task => some task.key
  | none =>
    match s.pc.prepared with
    | some task => if task.receiver = id then some task.key else none
    | none => none

/-- What the switch has to know at each await of the main loop. -/
def PcMirrors (p : Env K C Q) (w : Switch Key UdpPacket) : Pc Q → Prop
  | .forward info d => ∃ k ∈ lookupKeys p d, w.newest k = some info.sender ∧
      w.key info.sender = some k
  | .insert _ task => w.newest task.key = some task.receiver
  | _ => True

/-- The switch `w` is what the proxy looks like to its datagrams. -/
structure Mirrors (p : Env K C Q) (s : State C Q) (w : Switch Key UdpPacket) : Prop where
  hand : w.hand = s.pc.inHand p
  key : ∀ id, w.key id = s.keyOf id
  newest : ∀ k info, s.connections k = some info → w.newest k = some info.sender
  inbox : ∀ id, w.inbox id = (s.channels id).queue
  gone : ∀ id, w.gone id = !(s.channels id).rxAlive
  pc : PcMirrors p w s.pc

variable {p : Env K C Q} {s s' : State C Q} {w : Switch Key UdpPacket} {i : Input}
  {o : List Output}

theorem mirrors_init (quicConfig : C) :
    Mirrors p (State.init quicConfig : State C Q) Switch.new := by
  refine ⟨rfl, fun _ => rfl, fun k info hk => ?_, fun _ => rfl, fun _ => rfl, trivial⟩
  cases hk

/-- The keys looked up for a datagram accept it. -/
theorem accepts_of_lookupKeys {d : Incoming} (hd : d.WellFormed p) {k : Key}
    (hk : k ∈ lookupKeys p d) : accepts p k (d.packet p) = true := by
  cases d with
  | udp src buf =>
    rw [lookupKeys, List.mem_singleton] at hk
    subst hk
    exact decide_eq_true rfl
  | quic hdr srcIp src buf =>
    obtain ⟨-, hparsed⟩ := hd
    simp only [lookupKeys, List.mem_cons, List.not_mem_nil, or_false] at hk
    rcases hk with rfl | rfl
    · simp [accepts, Incoming.packet, Incoming.buf, hparsed]
    · simp [accepts, Incoming.packet, Incoming.buf, hparsed]

/-! ## Moves of a task -/

/-- A task that goes on keeps its key. -/
theorem keyOf_update {id : Nat} {task task' : Task Q} (ht : s.tasks id = some task)
    (hkey : task'.key = task.key) (htasks : s'.tasks = Function.update s.tasks id (some task'))
    (hpc : s'.pc = s.pc) (id' : Nat) : s'.keyOf id' = s.keyOf id' := by
  unfold State.keyOf
  rw [htasks, hpc]
  by_cases hid : id' = id
  · subst hid
    rw [Function.update_self, ht]
    exact congrArg some hkey
  · rw [Function.update_of_ne hid]

theorem TaskTurn.keyOf (h : TaskTurn p s i s') (id : Nat) : s'.keyOf id = s.keyOf id := by
  have hphase : ∀ {id' : Nat} {task : Task Q} (phase : Phase) {t : State C Q},
      s.tasks id' = some task →
      t.tasks = Function.update s.tasks id' (some { task with phase := phase }) →
      t.pc = s.pc → t.keyOf id = s.keyOf id :=
    fun _ _ ht htasks hpc => keyOf_update ht (by rfl) htasks hpc id
  cases h with
  | moves hmove =>
    obtain ⟨task, session, hmoved⟩ := taskMove_moved hmove
    exact keyOf_update hmoved.before (by rfl) hmoved.tasks hmoved.pc id
  | finishes ht _ => exact hphase .finished ht rfl rfl
  | removes ht _ => exact hphase .removed ht rfl rfl
  | drops ht _ => exact hphase .dropped ht rfl rfl

/-- A step that the switch does not see. -/
theorem Mirrors.unseen (h : Mirrors p s w) (hhand : s'.pc.inHand p = s.pc.inHand p)
    (hkey : ∀ id, s'.keyOf id = s.keyOf id)
    (hconn : ∀ k info, s'.connections k = some info → w.newest k = some info.sender)
    (hchannels : s'.channels = s.channels) (hpc : PcMirrors p w s'.pc) : Mirrors p s' w := by
  refine ⟨?_, fun id => ?_, hconn, fun id => ?_, fun id => ?_, hpc⟩
  · rw [hhand]
    exact h.hand
  · rw [hkey]
    exact h.key id
  · rw [hchannels]
    exact h.inbox id
  · rw [hchannels]
    exact h.gone id

/-- What the switch knows does not depend on the inboxes. -/
theorem PcMirrors.of_inbox {inbox : Nat → List UdpPacket} {gone : Nat → Bool} {pc : Pc Q}
    (h : PcMirrors p w pc) : PcMirrors p { w with inbox := inbox, gone := gone } pc := by
  cases pc with
  | forward info d => exact h
  | insert origin task => exact h
  | _ => trivial

theorem moves_follow (hinv : RegistryInv p s) (h : Mirrors p s w) {id : Nat} {j : SessionInput}
    {task : Task Q} {session : Session Q} (hmoved : Moved p s s' id j task session)
    (hkey : ∀ id, s'.keyOf id = s.keyOf id) :
    ∃ w', follow (Switch.next (accepts p)) w (switchEvents p s (.task id j) []) = some w' ∧
      Mirrors p s' w' := by
  have hnewest : ∀ k info, s'.connections k = some info → w.newest k = some info.sender := by
    rw [hmoved.connections]
    exact h.newest
  have hpc : PcMirrors p w s'.pc := by
    rw [hmoved.pc]
    exact h.pc
  have hquiet : s'.channels = s.channels → Mirrors p s' w := fun hchannels =>
    h.unseen (by rw [hmoved.pc]) hkey hnewest hchannels hpc
  have hcoupled := hmoved.coupled
  simp only [switchEvents]
  generalize j.coupling = coupling at hcoupled ⊢
  cases hcoupled with
  | @took packet chan hrecv hchannels _ =>
    have hid : task.receiver = id := (hinv.task id task hmoved.before).1
    obtain ⟨hqueue, halive⟩ := Chan.recv_eq_some hrecv
    rw [hid] at hqueue hrecv hchannels halive
    refine ⟨{ w with inbox := Function.update w.inbox id chan.queue }, ?_, ?_⟩
    · rw [follow_singleton, Switch.next, h.inbox id, hqueue]
      exact if_pos rfl
    · refine ⟨?_, fun id' => ?_, hnewest, fun id' => ?_, fun id' => ?_, hpc.of_inbox⟩
      · rw [hmoved.pc]
        exact h.hand
      · rw [hkey]
        exact h.key id'
      · rw [hchannels]
        by_cases hid' : id' = id
        · subst hid'
          simp
        · simp [Function.update_of_ne hid', h.inbox id']
      · rw [hchannels]
        by_cases hid' : id' = id
        · subst hid'
          simpa [halive] using h.gone id'
        · simpa [Function.update_of_ne hid'] using h.gone id'
  | queued _ _ _ hchannels => exact ⟨w, rfl, hquiet hchannels⟩
  | refused _ _ hchannels => exact ⟨w, rfl, hquiet hchannels⟩
  | own _ hchannels => exact ⟨w, rfl, hquiet hchannels⟩
  | cancel _ _ hchannels => exact ⟨w, rfl, hquiet hchannels⟩

theorem TaskTurn.follow (hinv : RegistryInv p s) (h : Mirrors p s w) (hturn : TaskTurn p s i s') :
    ∃ w', follow (Switch.next (accepts p)) w (switchEvents p s i []) = some w' ∧
      Mirrors p s' w' := by
  have hkey := hturn.keyOf
  cases hturn with
  | moves hmove =>
    obtain ⟨task, session, hmoved⟩ := taskMove_moved hmove
    exact moves_follow hinv h hmoved hkey
  | finishes ht _ =>
    exact ⟨w, by simp [switchEvents], h.unseen rfl hkey h.newest rfl h.pc⟩
  | @removes id task ht _ =>
    refine ⟨w, by simp [switchEvents], h.unseen rfl hkey (fun k info hk => ?_) rfl h.pc⟩
    have hupd : Function.update s.connections task.key none k = some info := hk
    by_cases hkk : k = task.key
    · rw [hkk, Function.update_self] at hupd
      cases hupd
    · rw [Function.update_of_ne hkk] at hupd
      exact h.newest k info hupd
  | @drops id task ht _ =>
    have hid : task.receiver = id := (hinv.task id task ht).1
    refine ⟨{ w with
      inbox := Function.update w.inbox id []
      gone := Function.update w.gone id true },
      by simp [switchEvents, follow_singleton, Switch.next], h.hand, fun id' => ?_, h.newest,
      fun id' => ?_, fun id' => ?_, h.pc.of_inbox⟩
    · exact (h.key id').trans (hkey id').symm
    · show Function.update w.inbox id [] id' =
        (Function.update s.channels task.receiver _ id').queue
      rw [hid]
      by_cases hid' : id' = id
      · subst hid'
        simp [Chan.dropReceiver]
      · simp [Function.update_of_ne hid', h.inbox id']
    · show Function.update w.gone id true id' =
        !(Function.update s.channels task.receiver _ id').rxAlive
      rw [hid]
      by_cases hid' : id' = id
      · subst hid'
        simp [Chan.dropReceiver]
      · simp [Function.update_of_ne hid', h.gone id']

/-! ## Moves of the main loop -/

/-- Where nothing is prepared, the numbers are those of the tasks. -/
theorem keyOf_congr (htasks : s'.tasks = s.tasks) (hpc : s'.pc.prepared = s.pc.prepared)
    (id : Nat) : s'.keyOf id = s.keyOf id := by
  unfold State.keyOf
  rw [htasks, hpc]

/-- A move of the main loop that concerns neither the tasks nor the registry nor
the channels. -/
theorem Mirrors.goto (h : Mirrors p s w) (quicConfig : C)
    (main : Chan UdpPacket mainChannelCapacity) {pc : Pc Q}
    (hprepared : pc.prepared = s.pc.prepared) (hhand : pc.inHand p = s.pc.inHand p)
    (hpc : PcMirrors p w pc) :
    Mirrors p { s with quicConfig := quicConfig, main := main, pc := pc } w :=
  h.unseen hhand (keyOf_congr rfl hprepared) h.newest rfl hpc

/-- The datagram in hand is settled without a trace. -/
theorem Mirrors.discard (h : Mirrors p s w) (quicConfig : C)
    (main : Chan UdpPacket mainChannelCapacity) (cancelled : Nat → Bool) {pc : Pc Q}
    (hprepared : s.pc.prepared = none) (hpc : pc.prepared = none) (hhand : pc.inHand p = none)
    (hmirrors : ∀ w', PcMirrors p w' pc) :
    Mirrors p { s with quicConfig := quicConfig, main := main, cancelled := cancelled, pc := pc }
      { w with hand := none } := by
  refine ⟨hhand.symm, fun id => ?_, h.newest, h.inbox, h.gone, hmirrors _⟩
  refine (h.key id).trans (Eq.symm ?_)
  exact keyOf_congr (by rfl) (by exact hpc.trans hprepared.symm) id

theorem discards_follow {packet : UdpPacket} (hhand : w.hand = some packet) :
    follow (Switch.next (accepts p)) w [.discards packet] = some { w with hand := none } := by
  rw [follow_singleton, Switch.next]
  exact if_pos hhand

/-- `recv_from` returned a datagram: it is dropped at once, or looked up. -/
theorem recvFrom_hand (p : Env K C Q) (data : Bytes) (src : ScionAddr) (s : State C Q) :
    recvFrom p data src s = s ∨ ∃ d, recvFrom p data src s = { s with pc := .lookup d } ∧
      d.packet p = { src := src, dst := p.localScionAddr, data := data } := by
  unfold recvFrom
  split
  · exact .inl rfl
  · next srcIp _ =>
    split
    · split
      · exact .inl rfl
      · next hdr _ => exact .inr ⟨.quic hdr srcIp src data, rfl, rfl⟩
    · exact .inr ⟨.udp src data, rfl, rfl⟩

theorem receives_follow (h : Mirrors p s w) (hpc : s.pc = .select) (data : Bytes)
    (src : ScionAddr) :
    ∃ w', follow (Switch.next (accepts p)) w (switchEvents p s (.recvFrom data src) []) = some w' ∧
      Mirrors p (recvFrom p data src s) w' := by
  have hhand : w.hand = none := by
    rw [h.hand, hpc]
    rfl
  have harrives : ∀ packet, Switch.next (accepts p) w (.arrives packet) =
      some { w with hand := some packet } := fun packet => if_pos hhand
  rcases recvFrom_hand p data src s with hsame | ⟨d, hlookup, hd⟩
  · refine ⟨{ w with hand := none }, ?_, ?_⟩
    · simp only [switchEvents, hpc, hsame]
      rw [← List.singleton_append, follow_append_eq_some]
      refine ⟨_, (follow_singleton _ _ _).trans (harrives _), ?_⟩
      exact discards_follow rfl
    · rw [hsame]
      exact ⟨by rw [hpc]; rfl, h.key, h.newest, h.inbox, h.gone, by rw [hpc]; trivial⟩
  · refine ⟨{ w with hand := some (d.packet p) }, ?_, ?_⟩
    · simp only [switchEvents, hpc, hlookup, ← hd]
      rw [follow_singleton]
      exact harrives _
    · rw [hlookup]
      refine ⟨rfl, fun id => ?_, h.newest, h.inbox, h.gone, trivial⟩
      refine (h.key id).trans (Eq.symm ?_)
      exact keyOf_congr (by rfl) (by rw [hpc]; rfl) id

/-- The look-up leads to the newest session of a key that accepts the datagram. -/
theorem looksUp_follow (hinv : RegistryInv p s) (h : Mirrors p s w) {d : Incoming}
    (hpc : s.pc = .lookup d) : Mirrors p (lookup p d s) w := by
  have hhand : w.hand = some (d.packet p) := by
    rw [h.hand, hpc]
    rfl
  unfold lookup
  split
  · next info hinfo =>
    obtain ⟨k, hk, hentry⟩ := List.exists_of_findSome?_eq_some hinfo
    obtain ⟨task, ht, hkey⟩ := hinv.entry_task (by rw [hpc]; rfl) hentry
    refine h.goto s.quicConfig s.main (by rw [hpc]; rfl) (by rw [hpc]; rfl)
      ⟨k, hk, h.newest k info hentry, ?_⟩
    rw [h.key, State.keyOf, ht]
    exact congrArg some hkey
  · exact h.goto s.quicConfig s.main (by rw [hpc]; rfl) (by rw [hpc]; rfl) trivial

theorem forwards_follow (hopen : Opening p s) (h : Mirrors p s w) {info : ConnectionInfo}
    {d : Incoming} (hpc : s.pc = .forward info d) :
    ∃ w', follow (Switch.next (accepts p)) w (switchEvents p s .step (forward p info d s).2) =
      some w' ∧ Mirrors p (forward p info d s).1 w' := by
  have hhand : w.hand = some (d.packet p) := by
    rw [h.hand, hpc]
    rfl
  have hknown : PcMirrors p w (.forward info d) := hpc ▸ h.pc
  have hd : PcOpened p (.forward info d) := hpc ▸ hopen.pc
  obtain ⟨k, hk, hnewest, hkey⟩ := hknown
  have hprepared : s.pc.prepared = none := by
    rw [hpc]
    rfl
  cases hsend : ((s.channels info.sender).trySend (d.packet p)).1 with
  | ok =>
    simp only [forward, switchEvents, hpc, hsend]
    obtain ⟨halive, -⟩ := Chan.trySend_ok_iff.mp hsend
    have hgone : w.gone info.sender = false := by
      rw [h.gone, halive]
      rfl
    refine ⟨{ w with
      hand := none
      inbox := Function.update w.inbox info.sender (w.inbox info.sender ++ [d.packet p]) }, ?_, ?_⟩
    · rw [follow_singleton, Switch.next, hkey]
      exact if_pos ⟨hhand, accepts_of_lookupKeys hd hk, hnewest, hgone⟩
    · refine ⟨rfl, fun id => ?_, h.newest, fun id => ?_, fun id => ?_, trivial⟩
      · refine (h.key id).trans (Eq.symm ?_)
        exact keyOf_congr (by rfl) (by exact hprepared.symm) id
      · show Function.update w.inbox _ _ id = (Function.update s.channels _ _ id).queue
        by_cases hid : id = info.sender
        · subst hid
          rw [Function.update_self, Function.update_self, Chan.trySend_ok_queue hsend, h.inbox]
        · rw [Function.update_of_ne hid, Function.update_of_ne hid]
          exact h.inbox id
      · show w.gone id = !(Function.update s.channels _ _ id).rxAlive
        by_cases hid : id = info.sender
        · subst hid
          rw [Function.update_self, Chan.trySend_rxAlive]
          exact h.gone info.sender
        · rw [Function.update_of_ne hid]
          exact h.gone id
  | full =>
    simp only [forward, switchEvents, hpc, hsend]
    exact ⟨_, discards_follow hhand,
      h.discard s.quicConfig s.main s.cancelled hprepared rfl rfl fun _ => trivial⟩
  | closed =>
    simp only [forward, switchEvents, hpc, hsend]
    exact ⟨_, discards_follow hhand,
      h.discard s.quicConfig s.main _ hprepared rfl rfl fun _ => trivial⟩

/-- A datagram of no known connection opens a session under a vacant key, or is
settled without one. -/
theorem creates_follow (hopen : Opening p s) (h : Mirrors p s w) {d : Incoming}
    (hpc : s.pc = .create d) :
    ∃ w', follow (Switch.next (accepts p)) w (switchEvents p s .step (create p d s).2) = some w' ∧
      Mirrors p (create p d s).1 w' := by
  have hhand : w.hand = some (d.packet p) := by
    rw [h.hand, hpc]
    rfl
  have hd : PcOpened p (.create d) := hpc ▸ hopen.pc
  have hvacant : PcOk p s (.create d) := hpc ▸ hopen.registry.pc
  have hprepared : s.pc.prepared = none := by
    rw [hpc]
    rfl
  have hcreated := create_created p d s
  simp only [switchEvents, hpc]
  generalize create p d s = r at hcreated ⊢
  cases hcreated with
  | prepared quicConfig origin key session hkey _ =>
    have hfresh : s.tasks s.nextId = none := by
      cases ht : s.tasks s.nextId with
      | none => rfl
      | some task => exact absurd (hopen.registry.task _ task ht).2.2 (Nat.lt_irrefl _)
    have hunknown : w.key s.nextId = none := by
      rw [h.key, State.keyOf, hfresh, hprepared]
    refine ⟨{ w with
      hand := none
      key := Function.update w.key s.nextId (some key)
      newest := Function.update w.newest key (some s.nextId) }, ?_, ?_⟩
    · show follow (Switch.next (accepts p)) w
        [SwitchEvent.opens s.nextId key (d.packet p)] = _
      rw [follow_singleton, Switch.next]
      exact if_pos ⟨hhand, accepts_of_lookupKeys hd hkey, hunknown⟩
    · refine ⟨rfl, fun id => ?_, fun k info hk => ?_, h.inbox, h.gone, Function.update_self _ _ _⟩
      · show Function.update w.key s.nextId (some key) id = _
        by_cases hid : id = s.nextId
        · subst hid
          rw [Function.update_self]
          simp [State.keyOf, State.prepare, hfresh, Pc.prepared]
        · rw [Function.update_of_ne hid, h.key]
          unfold State.keyOf
          rw [hprepared]
          cases ht : s.tasks id with
          | some task => simp [State.prepare, ht]
          | none => simp [State.prepare, ht, Pc.prepared, Ne.symm hid]
      · have hne : k ≠ key := by
          rintro rfl
          have hnone : s.connections k = none := hvacant k hkey
          rw [show s.connections k = some info from hk] at hnone
          cases hnone
        show Function.update w.newest key (some s.nextId) k = some info.sender
        rw [Function.update_of_ne hne]
        exact h.newest k info hk
  | dropped quicConfig =>
    exact ⟨_, discards_follow hhand,
      h.discard quicConfig s.main s.cancelled hprepared rfl rfl fun _ => trivial⟩
  | answered quicConfig out o _ _ =>
    exact ⟨_, discards_follow hhand,
      h.discard quicConfig _ s.cancelled hprepared rfl rfl fun _ => trivial⟩
  | failed quicConfig f _ _ =>
    exact ⟨_, discards_follow hhand,
      h.discard quicConfig _ s.cancelled hprepared rfl rfl fun _ => trivial⟩

theorem inserts_mirrors (h : Mirrors p s w) {origin : Origin} {task : Task Q}
    (hpc : s.pc = .insert origin task) : Mirrors p (insert origin task s).1 w := by
  have hnewest : PcMirrors p w (.insert origin task) := hpc ▸ h.pc
  refine h.unseen (by rw [hpc]; rfl) (keyOf_congr rfl (by rw [hpc]; rfl)) (fun k info hk => ?_) rfl
    trivial
  have hupd : Function.update s.connections task.key _ k = some info := hk
  by_cases hkk : k = task.key
  · subst hkk
    rw [Function.update_self] at hupd
    rw [← Option.some.inj hupd]
    exact hnewest
  · rw [Function.update_of_ne hkk] at hupd
    exact h.newest k info hupd

theorem spawns_mirrors (hinv : RegistryInv p s) (h : Mirrors p s w) {task : Task Q}
    (hpc : s.pc = .spawn task) : Mirrors p (spawn task s) w := by
  have hun : PcOk p s (.spawn task) := hpc ▸ hinv.pc
  refine h.unseen (by rw [hpc]; rfl) (fun id => ?_) h.newest rfl trivial
  show (match Function.update s.tasks task.receiver (some task) id with
    | some task => some task.key
    | none => none) = s.keyOf id
  unfold State.keyOf
  rw [hpc]
  by_cases hid : id = task.receiver
  · subst hid
    rw [Function.update_self, hun.none]
    exact (if_pos rfl).symm
  · rw [Function.update_of_ne hid]
    cases s.tasks id with
    | some task' => rfl
    | none => exact (if_neg (Ne.symm hid)).symm

/-! ## Every run -/

theorem MainTurn.follow (hopen : Opening p s) (h : Mirrors p s w) (hturn : MainTurn p s i s' o) :
    ∃ w', follow (Switch.next (accepts p)) w (switchEvents p s i o) = some w' ∧
      Mirrors p s' w' := by
  cases hturn with
  | receives hpc _ => exact receives_follow h hpc _ _
  | receiveFails hpc =>
    exact ⟨w, by simp [switchEvents], h.goto s.quicConfig s.main (by rw [hpc]; rfl)
      (by rw [hpc]; rfl) trivial⟩
  | takes hpc _ =>
    rcases hpc with hpc | hpc
    · exact ⟨w, by simp [switchEvents], h.goto s.quicConfig _ (by rw [hpc]; rfl)
        (by rw [hpc]; rfl) trivial⟩
    · exact ⟨w, by simp [switchEvents], h.goto s.quicConfig _ (by rw [hpc]; rfl)
        (by rw [hpc]; rfl) trivial⟩
  | sends hpc =>
    exact ⟨w, by simp [switchEvents], h.goto s.quicConfig s.main (by rw [hpc]; rfl)
      (by rw [hpc]; rfl) trivial⟩
  | sendFails hpc =>
    exact ⟨w, by simp [switchEvents], h.goto s.quicConfig _ (by rw [hpc]; rfl)
      (by rw [hpc]; rfl) trivial⟩
  | handles hmove =>
    cases hmove with
    | looksUp d hpc => exact ⟨w, by simp [switchEvents, hpc], looksUp_follow hopen.registry h hpc⟩
    | forwards info d hpc => exact forwards_follow hopen h hpc
    | creates d hpc => exact creates_follow hopen h hpc
    | inserts origin task hpc => exact ⟨w, by simp [switchEvents, hpc], inserts_mirrors h hpc⟩
    | spawns task hpc =>
      exact ⟨w, by simp [switchEvents, hpc], spawns_mirrors hopen.registry h hpc⟩

theorem step_follow (hopen : Opening p s) (h : Mirrors p s w)
    (hstep : step p s i = some (s', o)) :
    ∃ w', follow (Switch.next (accepts p)) w (switchEvents p s i o) = some w' ∧
      Mirrors p s' w' := by
  rcases step_turn hstep with ⟨hturn, rfl⟩ | hmain
  · exact hturn.follow hopen.registry h
  · exact (mainStep_turn hmain).follow hopen h

/-- Every log of the proxy leads the switch to what the proxy looks like. -/
theorem run_mirrors {quicConfig : C} {is : List Input} {es : List (SwitchEvent Key UdpPacket)}
    (hr : run (observe (step p) (switchEvents p)) (State.init quicConfig) is = some (s, es)) :
    ∃ w, follow (Switch.next (accepts p)) Switch.new es = some w ∧ Mirrors p s w := by
  have hinit : Opening p (State.init quicConfig : State C Q) := opening_init quicConfig
  refine follow_of_run (fun s i s' es hs hm => ?_) (fun s i s' es w hs h hm => ?_) hinit
    (mirrors_init quicConfig) hr
  · obtain ⟨o, hstep, -⟩ := observe_eq_some.mp hm
    exact step_opening hs hstep
  · obtain ⟨o, hstep, rfl⟩ := observe_eq_some.mp hm
    exact step_follow hs h hstep

/-- **The proxy is a switch**: the log of every run is one of the switch, which
ends where the proxy does. -/
theorem proxy_refines_switch {quicConfig : C} {is : List Input}
    {es : List (SwitchEvent Key UdpPacket)}
    (hr : run (observe (step p) (switchEvents p)) (State.init quicConfig) is = some (s, es)) :
    ∃ w, follow (Switch.next (accepts p)) Switch.new es = some w ∧ Mirrors p s w :=
  run_mirrors hr

private def switchRelay : Env Bytes Unit SendWindow where
  hmac := Hmac.ofTable []
  quiche := wireServer fun _ _ => Vector.replicate 16 0
  mode := .udpEndpoint
  mqttBrokerAddress := ⟨.ipv4 127 0 0 1, 1883⟩
  tokenKey := []
  connIdSeed := []
  localScionAddr := ⟨3, .ip (.ipv4 10 0 8 3), 4433⟩
  localAddr := ⟨.ipv4 10 0 8 3, 4433⟩
  localAddr_eq := rfl

private def firstClient : ScionAddr := ⟨1, .ip (.ipv4 10 0 1 1), 4433⟩
private def secondClient : ScionAddr := ⟨1, .ip (.ipv4 10 0 1 2), 4433⟩

private def arrived (src : ScionAddr) (data : Bytes) : UdpPacket :=
  ⟨src, switchRelay.localScionAddr, data⟩

/-- Two clients are registered, and the first one sends again. -/
private def threeDatagrams : List Input :=
  [.recvFrom [1] firstClient, .step, .step, .step, .step, .recvFrom [2] secondClient,
    .task 0 (.udp (.bound true)), .step, .step, .step, .step, .recvFrom [3] firstClient, .step,
    .step, .task 0 (.udp (.udp (some (arrived firstClient [3]))))]

private def threeDatagramsLog : List (SwitchEvent Key UdpPacket) :=
  [.arrives (arrived firstClient [1]), .opens 0 (.udp firstClient) (arrived firstClient [1]),
    .arrives (arrived secondClient [2]), .opens 1 (.udp secondClient) (arrived secondClient [2]),
    .arrives (arrived firstClient [3]), .delivers 0 (arrived firstClient [3]),
    .takes 0 (arrived firstClient [3])]

theorem proxy_refines_switch_sample :
    ∃ s w, run (observe (step switchRelay) (switchEvents switchRelay)) (State.init ())
        threeDatagrams = some (s, threeDatagramsLog) ∧
      follow (Switch.next (accepts switchRelay)) Switch.new threeDatagramsLog = some w ∧
      Mirrors switchRelay s w := by
  obtain ⟨w, hfollow, hm⟩ := @proxy_refines_switch Bytes Unit SendWindow switchRelay _ ()
    threeDatagrams threeDatagramsLog rfl
  exact ⟨_, w, rfl, hfollow, hm⟩

/-! ## What becomes of a datagram -/

/-- What the socket hands over. -/
def received (p : Env K C Q) : Input → List UdpPacket
  | .recvFrom data src => [{ src := src, dst := p.localScionAddr, data := data }]
  | _ => []

/-- What a handler takes from its channel. -/
def SessionInput.datagram (j : SessionInput) : Option UdpPacket :=
  match j.coupling with
  | .recv packet => some packet
  | _ => none

/-- A turn of the main loop that handles a datagram only settles it. -/
theorem turn_readings (p : Env K C Q) (s : State C Q) (o : List Output) (id : Nat) :
    (switchEvents p s .step o).flatMap SwitchEvent.arrived = [] ∧
      (switchEvents p s .step o).flatMap (SwitchEvent.takenBy id) = [] := by
  cases hpc : s.pc with
  | forward info d =>
    simp only [switchEvents, hpc]
    cases ((s.channels info.sender).trySend (d.packet p)).1 <;> exact ⟨rfl, rfl⟩
  | create d =>
    simp only [switchEvents, hpc]
    cases (create p d s).1.pc <;> exact ⟨rfl, rfl⟩
  | _ => simp [switchEvents, hpc]

theorem step_arrived (hstep : step p s i = some (s', o)) :
    (switchEvents p s i o).flatMap SwitchEvent.arrived = received p i := by
  cases i with
  | step => exact (turn_readings p s o 0).1
  | recvFrom data src =>
    cases mainStep_turn hstep with
    | receives hpc _ =>
      simp only [switchEvents, hpc, received]
      cases (recvFrom p data src s).pc <;> rfl
  | task id j =>
    simp only [switchEvents, received]
    cases j.coupling <;> rfl
  | _ => simp [switchEvents, received]

theorem step_taken (id : Nat) (hstep : step p s i = some (s', o)) :
    (switchEvents p s i o).flatMap (SwitchEvent.takenBy id) =
      ((ownInput id i).bind SessionInput.datagram).toList := by
  cases i with
  | step => exact (turn_readings p s o id).2
  | recvFrom data src =>
    cases mainStep_turn hstep with
    | receives hpc _ =>
      simp only [switchEvents, hpc, ownInput]
      cases (recvFrom p data src s).pc <;> rfl
  | task id' j =>
    by_cases hid : id' = id
    · simp only [switchEvents, ownInput, if_pos hid, Option.bind_some, SessionInput.datagram]
      cases j.coupling <;> simp [hid]
    · simp only [switchEvents, ownInput, if_neg hid, Option.bind_none]
      cases j.coupling <;> simp [hid]
  | _ => simp [switchEvents, ownInput]

/-- The readings of a log that the inputs alone give. -/
theorem run_readings {quicConfig : C} {is : List Input} {es : List (SwitchEvent Key UdpPacket)}
    (hr : run (observe (step p) (switchEvents p)) (State.init quicConfig) is = some (s, es))
    (id : Nat) :
    arrivals es = is.flatMap (received p) ∧
      takings id es = (is.filterMap (ownInput id)).filterMap SessionInput.datagram := by
  constructor
  · refine run_reading (fun s i s' es hm => ?_) hr
    obtain ⟨o, hstep, rfl⟩ := observe_eq_some.mp hm
    exact step_arrived hstep
  · rw [List.filterMap_filterMap, List.filterMap_eq_flatMap_toList]
    refine run_reading (fun s i s' es hm => ?_) hr
    obtain ⟨o, hstep, rfl⟩ := observe_eq_some.mp hm
    exact step_taken id hstep

/-- **Every datagram is settled once, in the order of arrival**, the one in hand
apart; every task takes in what was delivered to it, in order; and a datagram is
delivered to the newest session of a key that accepts it. -/
theorem datagrams_switched {quicConfig : C} {is : List Input}
    {es : List (SwitchEvent Key UdpPacket)}
    (hr : run (observe (step p) (switchEvents p)) (State.init quicConfig) is = some (s, es)) :
    settled es ++ (s.pc.inHand p).toList = is.flatMap (received p) ∧
      List.Sublist (allDeliveries es) (is.flatMap (received p)) ∧
      LogAll (Served (accepts p)) es ∧
      ∀ id, Relay (deliveries id es) (s.channels id).queue
        ((is.filterMap (ownInput id)).filterMap SessionInput.datagram)
        (!(s.channels id).rxAlive) := by
  obtain ⟨w, hfollow, hm⟩ := run_mirrors hr
  have hswitched := switched_of_follow hfollow
  refine ⟨?_, ?_, hswitched.served, fun id => ?_⟩
  · rw [← (run_readings hr 0).1, ← hm.hand]
    exact hswitched.settled
  · rw [← (run_readings hr 0).1]
    exact hswitched.deliveries_sublist
  · have hinbox := hswitched.inbox id
    rwa [hm.inbox, hm.gone, (run_readings hr id).2] at hinbox

theorem datagrams_switched_sample :
    (∃ s, run (observe (step switchRelay) (switchEvents switchRelay)) (State.init ())
        threeDatagrams = some (s, threeDatagramsLog) ∧
      settled threeDatagramsLog ++ (s.pc.inHand switchRelay).toList =
        threeDatagrams.flatMap (received switchRelay)) ∧
      deliveries 0 threeDatagramsLog = [arrived firstClient [3]] := by
  obtain ⟨hsettled, -⟩ := @datagrams_switched Bytes Unit SendWindow switchRelay _ ()
    threeDatagrams threeDatagramsLog rfl
  exact ⟨⟨_, rfl, hsettled⟩, rfl⟩

/-- **A session is served as if it were alone.** Whatever else goes on in the
proxy, its handler is where its own moves lead it from where it was opened, and
the datagrams it has taken in are the first of those delivered to it, which its
key accepts. -/
theorem session_served {quicConfig : C} {is : List Input}
    {es : List (SwitchEvent Key UdpPacket)}
    (hr : run (observe (step p) (switchEvents p)) (State.init quicConfig) is = some (s, es))
    {id : Nat} {task : Task Q} (ht : s.tasks id = some task) :
    (∃ h₀ qs, Opened p h₀ ∧
      run (Handler.step p.quiche.connection) h₀ (is.filterMap (ownInput id)) =
        some (task.handler, qs)) ∧
      (is.filterMap (ownInput id)).filterMap SessionInput.datagram <+: deliveries id es ∧
      ∀ packet ∈ deliveries id es, accepts p task.key packet = true := by
  obtain ⟨w, hfollow, hm⟩ := run_mirrors hr
  have hswitched := switched_of_follow hfollow
  refine ⟨?_, ?_, fun packet hpacket => ?_⟩
  · obtain ⟨os, hrun⟩ := run_of_observe hr
    obtain ⟨log, hlog⟩ := run_watched (handlerWatch p id) hrun
    obtain ⟨hinputs, h₀, hopened, halone⟩ := handler_run hlog ht
    rw [hinputs] at halone
    exact ⟨h₀, _, hopened, halone⟩
  · rw [← (run_readings hr id).2]
    exact (hswitched.inbox id).out_isPrefix
  · obtain ⟨k, hk, haccepts⟩ := hswitched.accepts_of_delivered hpacket
    rw [hm.key, State.keyOf, ht] at hk
    rwa [Option.some.inj hk]

theorem session_served_sample :
    ∃ s task h₀ qs, run (observe (step switchRelay) (switchEvents switchRelay)) (State.init ())
        threeDatagrams = some (s, threeDatagramsLog) ∧
      s.tasks 0 = some task ∧ Opened switchRelay h₀ ∧
      run (Handler.step switchRelay.quiche.connection) h₀
        [.udp (.bound true), .udp (.udp (some (arrived firstClient [3])))] =
          some (task.handler, qs) := by
  obtain ⟨⟨h₀, qs, hopened, halone⟩, -⟩ := @session_served Bytes Unit SendWindow switchRelay _ ()
    threeDatagrams threeDatagramsLog rfl 0 _ rfl
  exact ⟨_, _, h₀, qs, rfl, rfl, hopened, halone⟩

end MqttScion.Proxy
