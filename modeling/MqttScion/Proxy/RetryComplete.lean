import MqttScion.Proxy.AddressValidation
import MqttScion.Proxy.Handling
import MqttScion.Proxy.Survival

/-!
# A Retry that is answered is honoured

Between a Retry and the Initial that answers it the proxy remembers nothing.
What it needs comes back to it: the ID it had derived from the client's first
destination ID is the destination ID now, and the token holds that first ID.
So what the answer meets depends on the answer alone, whatever the proxy has
done in between, and the only state it looks at is the registry.

The first ID is found again by deriving: a datagram that still has it is looked
up under the ID derived from it, which is the one the connection is registered
under.

> `retry_complete`: the Retry carries an ID `k` and a token `t` such that an
> Initial from the same IP address with these two, if nothing is registered
> under `k` or the ID derived from it, is handled by asking `quiche` to accept
> `k` with the first ID; if it does, the connection is registered under `k` and
> its task spawned; and from then on datagrams with `k` and with the first ID go
> into the channel of that task.
-/

namespace MqttScion.Proxy

open MqttScion.Net MqttScion.Lib

variable {K C Q : Type} {p : Env K C Q}

/-! ## The answer to a Retry -/

/-- An Initial from the IP address that was sent a Retry, with its ID and its
token. -/
structure AnswersRetry (p : Env K C Q) (ip : IpAddr) (k t : Bytes) (hdr : Header)
    (srcIp : SocketAddr) : Prop where
  initial : hdr.ty = .initial
  supported : p.quiche.versionIsSupported hdr.version = true
  ip_eq : srcIp.ip = ip
  dcid : hdr.dcid = k
  token : hdr.token = some t

/-- What is left to `quiche` when the token and the length of the ID have
passed: to accept the connection and to process the packet. -/
def acceptInitial (p : Env K C Q) (quicConfig : C) (k odcid t : Bytes) (srcIp : SocketAddr)
    (buf : Bytes) : Verdict Q × C :=
  match p.quiche.accept quicConfig k (some odcid) p.localAddr srcIp with
  | (.error _, quicConfig) => (.drop, quicConfig)
  | (.ok conn, quicConfig) =>
    match p.quiche.connection.recv conn buf ⟨srcIp, p.localAddr⟩ with
    | (.error _, _) => (.drop, quicConfig)
    | (.ok _, conn) => (.register t odcid conn, quicConfig)

/-- A datagram with an empty token is answered with the ID derived from its own
and the token minted for it. -/
theorem handleInitial_retry {quicConfig quicConfig' : C} {hdr : Header} {srcIp : SocketAddr}
    {buf out token : Bytes}
    (h : handleInitial p quicConfig hdr srcIp buf = (.retry out token, quicConfig')) :
    p.quiche.versionIsSupported hdr.version = true ∧
      token = mintToken p.hmac p.tokenKey hdr srcIp ∧
      p.quiche.retry hdr.scid hdr.dcid (connId p hdr.dcid) token hdr.version = .ok out := by
  unfold handleInitial at h
  split at h
  · split at h <;> cases h
  · next hversion =>
    simp only at h
    split at h
    · cases h
    · split at h
      · split at h
        · cases h
        · next out' hretry =>
          simp only [Prod.mk.injEq, Verdict.retry.injEq] at h
          obtain ⟨⟨rfl, rfl⟩, -⟩ := h
          exact ⟨by simpa using hversion, rfl, hretry⟩
      · split at h
        · cases h
        · cases h
        · split at h
          · cases h
          · split at h
            · cases h
            · split at h <;> cases h

/-- **The answer comes to `accept`**, with the ID of the Retry and the first ID:
the token validates, and the two IDs are equally long. -/
theorem handleInitial_answer {hdr₀ : Header} {srcIp₀ : SocketAddr} {hdr : Header}
    {srcIp : SocketAddr}
    (h : AnswersRetry p srcIp₀.ip (connId p hdr₀.dcid) (mintToken p.hmac p.tokenKey hdr₀ srcIp₀) hdr
      srcIp) (quicConfig : C) (buf : Bytes) :
    handleInitial p quicConfig hdr srcIp buf =
      acceptInitial p quicConfig (connId p hdr₀.dcid) hdr₀.dcid
        (mintToken p.hmac p.tokenKey hdr₀ srcIp₀) srcIp buf := by
  have hvalid := validateToken_mint_self p.hmac p.tokenKey hdr₀ h.ip_eq
  have hne : (mintToken p.hmac p.tokenKey hdr₀ srcIp₀).isEmpty = false := by
    rw [mintToken_eq, tokenData]
    rfl
  unfold handleInitial
  rw [h.supported, h.token]
  simp only [Bool.not_true, Bool.false_eq_true, if_false, hne, hvalid, h.dcid, connId_length, ne_eq,
    not_true]
  rfl

/-! ## What is owed to the client -/

/-- At the head of the loop, `recv_from` returns a datagram from an IP address
whose header can be read. -/
structure Receives (p : Env K C Q) (s : State C Q) (data : Bytes) (src : ScionAddr) (hdr : Header)
    (srcIp : SocketAddr) : Prop where
  select : s.pc = .select
  fits : data.length ≤ udpPacketBufferSize
  source : src.localAddress = some srcIp
  parsed : p.quiche.headerFromSlice data maxConnIdLen = .ok hdr

/-- The task of a connection that has been accepted. -/
def acceptedTask (p : Env K C Q) (k : Bytes) (src : ScionAddr) (conn : Q) (id : Nat) : Task Q :=
  ⟨.quic k, id, id,
    .quic (.new ⟨p.localScionAddr.isdAsn, src.isdAsn, p.mqttBrokerAddress⟩ conn), .running⟩

/-- From `s` to `s'` the answer to the Retry has been handled: `quiche` was asked
to accept `k` with the first ID and to process the packet, and if it did both, the
connection is registered under `k` and its task runs. -/
def Honoured (p : Env K C Q) (k odcid t : Bytes) (srcIp : SocketAddr) (src : ScionAddr)
    (data : Bytes) (s s' : State C Q) : Prop :=
  match acceptInitial p s.quicConfig k odcid t srcIp data with
  | (.register _ _ conn, quicConfig) => s'.quicConfig = quicConfig ∧
      ∃ id, s'.connections (.quic k) = some ⟨id, id⟩ ∧
        s'.tasks id = some (acceptedTask p k src conn id)
  | (_, quicConfig) => s'.quicConfig = quicConfig ∧ s'.connections (.quic k) = none

/-- A queue behind which there may be room for the datagram. -/
def putInto (p : Env K C Q) (d : Incoming) (queue : List UdpPacket) : List UdpPacket :=
  if queue.length < clientChannelCapacity then queue ++ [d.packet p] else queue

/-- From `s` to `s'`, by the moves `is`, the datagram has been handled, and has gone
into the channel of the connection with this entry, if there was room for it. The
connection may have read from its channel meanwhile, or have left. -/
structure Routed (p : Env K C Q) (k : Bytes) (info : ConnectionInfo) (d : Incoming) (s : State C Q)
    (is : List Input) (s' : State C Q) : Prop where
  reached : s'.connections (.quic k) = some info → ∃ rest,
    rest <:+ (s.channels info.sender).queue ∧ (s'.channels info.sender).queue = putInto p d rest
  alone : (∀ i ∈ is, i.ofTask = false) → s'.connections (.quic k) = some info ∧
    (s'.channels info.sender).queue = putInto p d (s.channels info.sender).queue

/-- What the proxy owes, in every run that goes on from `s₀`, to a client at `ip`
that has been sent a Retry with `k` and `t` for the first ID `odcid`. -/
structure Completes (p : Env K C Q) (s₀ : State C Q) (odcid : Bytes) (ip : IpAddr) (k t : Bytes) :
    Prop where
  honoured : ∀ {is s os data src hdr srcIp}, run (step p) s₀ is = some (s, os) →
    Receives p s data src hdr srcIp → AnswersRetry p ip k t hdr srcIp →
    s.connections (.quic k) = none → s.connections (.quic (connId p k)) = none →
      (∃ n s' es, Handles p data src s (List.replicate n .step) s' es) ∧
        ∀ is' s' es, Handles p data src s is' s' es → Honoured p k odcid t srcIp src data s s'
  routed : ∀ {is s os data src hdr srcIp info}, run (step p) s₀ is = some (s, os) →
    Receives p s data src hdr srcIp → hdr.dcid = k ∨ hdr.dcid = odcid →
    s.connections (.quic k) = some info → s.connections (.quic odcid) = none →
      (∃ n s' es, Handles p data src s (List.replicate n .step) s' es) ∧
        ∀ is' s' es, Handles p data src s is' s' es →
          Routed p k info (.quic hdr srcIp src data) s is' s'

/-- The datagram is received and being looked up. -/
theorem Receives.recvFrom {s : State C Q} {data : Bytes} {src : ScionAddr} {hdr : Header}
    {srcIp : SocketAddr} (h : Receives p s data src hdr srcIp) (hmode : p.mode = .quicEndpoint) :
    recvFrom p data src s = { s with pc := .lookup (.quic hdr srcIp src data) } := by
  unfold Proxy.recvFrom
  simp only [h.source, hmode, h.parsed]

/-! ## The answer is honoured -/

/-- `quiche` takes the connection, or the datagram is dropped. -/
theorem acceptInitial_cases (quicConfig : C) (k odcid t : Bytes) (srcIp : SocketAddr)
    (buf : Bytes) :
    (∃ quicConfig', acceptInitial p quicConfig k odcid t srcIp buf = (.drop, quicConfig')) ∨
      ∃ conn quicConfig',
        acceptInitial p quicConfig k odcid t srcIp buf = (.register t odcid conn, quicConfig') := by
  unfold acceptInitial
  split
  · exact .inl ⟨_, rfl⟩
  · split
    · exact .inl ⟨_, rfl⟩
    · exact .inr ⟨_, _, rfl⟩

/-- Between its insert and its spawn a task has its entry. -/
theorem RegistryInv.pending_entry {s : State C Q} (h : RegistryInv p s) {task : Task Q}
    (hpc : s.pc = .spawn task) :
    s.connections task.key = some ⟨task.receiver, task.receiver⟩ := by
  have hun : Unspawned s task := by
    have hok := h.pc
    rw [hpc] at hok
    exact hok
  have hkey : liveKey s task.receiver = some task.key := by
    unfold liveKey
    rw [hun.none, hpc]
    simp only [Pc.pending, if_true]
  obtain ⟨f, hf⟩ := h.table
  obtain ⟨⟨sender, cancelToken⟩, hk, hsender⟩ := hf.entry hkey
  have htoken : cancelToken = sender := h.info _ _ hk
  have hsender' : sender = task.receiver := hsender
  rw [hk, htoken, hsender']

/-- The handling of the answer `d` so far, with the verdict on it: it is being
looked up, or dropped, or on its way into the registry. -/
inductive Honouring (p : Env K C Q) (k odcid t : Bytes) (srcIp : SocketAddr) (src : ScionAddr)
    (data : Bytes) (d : Incoming) (s : State C Q) : State C Q → Prop
  | waits {s'} (hpc : s'.pc = .lookup d ∨ s'.pc = .create d)
      (hconfig : s'.quicConfig = s.quicConfig)
      (hnone : ∀ key, s.connections key = none → s'.connections key = none) :
      Honouring p k odcid t srcIp src data d s s'
  | enters {s' conn quicConfig id}
      (hverdict : acceptInitial p s.quicConfig k odcid t srcIp data =
        (.register t odcid conn, quicConfig))
      (hpc : s'.pc = .insert (.quic src k t odcid) (acceptedTask p k src conn id) ∨
        s'.pc = .spawn (acceptedTask p k src conn id))
      (hconfig : s'.quicConfig = quicConfig) : Honouring p k odcid t srcIp src data d s s'
  | done {s'} (hpc : s'.pc = .select) (honoured : Honoured p k odcid t srcIp src data s s') :
      Honouring p k odcid t srcIp src data d s s'

section Answer

variable {k odcid t data : Bytes} {srcIp : SocketAddr} {src : ScionAddr} {hdr : Header}
  {s t₁ t₂ : State C Q}

/-- `create` is `acceptInitial` on the answer. -/
theorem create_honouring (hty : hdr.ty = .initial) (hdcid : hdr.dcid = k)
    (hverdict : handleInitial p s.quicConfig hdr srcIp data =
      acceptInitial p s.quicConfig k odcid t srcIp data)
    (hconfig : t₁.quicConfig = s.quicConfig) (hnone : t₁.connections (.quic k) = none) :
    Honouring p k odcid t srcIp src data (.quic hdr srcIp src data) s
      (create p (.quic hdr srcIp src data) t₁).1 := by
  subst hdcid
  rcases acceptInitial_cases (p := p) s.quicConfig hdr.dcid odcid t srcIp data with
    ⟨quicConfig', haccept⟩ | ⟨conn, quicConfig', haccept⟩
  · rw [haccept] at hverdict
    simp only [create, hty, if_true, hconfig, hverdict]
    refine .done rfl ?_
    unfold Honoured
    rw [haccept]
    exact ⟨rfl, hnone⟩
  · rw [haccept] at hverdict
    simp only [create, hty, if_true, hconfig, hverdict]
    exact .enters haccept (.inl rfl) rfl

/-- A task that moves does not stand in the way of the answer. -/
theorem Honouring.turn {d : Incoming} {i : Input} (hbusy : t₁.pc.idle = false)
    (h : Honouring p k odcid t srcIp src data d s t₁) (hturn : TaskTurn p t₁ i t₂) :
    Honouring p k odcid t srcIp src data d s t₂ := by
  have hwaited := hturn.waited
  cases h with
  | waits hpc hconfig hnone =>
    refine .waits ?_ (hwaited.quicConfig.trans hconfig)
      fun key hkey => hwaited.unregistered key (hnone key hkey)
    rw [hwaited.pc]
    exact hpc
  | enters hverdict hpc hconfig =>
    rw [← hwaited.pc] at hpc
    exact .enters hverdict hpc (hwaited.quicConfig.trans hconfig)
  | done hpc _ =>
    rw [hpc] at hbusy
    cases hbusy

/-- A move of the handler brings the answer further. -/
theorem Honouring.moves (hreg : RegistryInv p t₁) (hbusy : t₁.pc.idle = false)
    (h : Honouring p k odcid t srcIp src data (.quic hdr srcIp src data) s t₁)
    (hty : hdr.ty = .initial) (hdcid : hdr.dcid = k)
    (hverdict : handleInitial p s.quicConfig hdr srcIp data =
      acceptInitial p s.quicConfig k odcid t srcIp data)
    (hnone : s.connections (.quic k) = none)
    (hnone' : s.connections (.quic (connId p k)) = none) {i : Input} {o : List Output}
    (hm : mainStep p t₁ i = some (t₂, o)) :
    Honouring p k odcid t srcIp src data (.quic hdr srcIp src data) s t₂ := by
  obtain rfl := busy_input hbusy hm
  cases h with
  | waits hpc hconfig hkept =>
    rcases hpc with hpc | hpc
    · have hfind : (lookupKeys p (.quic hdr srcIp src data)).findSome? t₁.connections = none := by
        simp only [lookupKeys, List.findSome?_cons, hdcid, hkept _ hnone, hkept _ hnone',
          List.findSome?_nil]
      simp only [mainStep, hpc, lookup, hfind] at hm
      obtain ⟨rfl, -⟩ := Prod.mk.inj (Option.some.inj hm)
      exact .waits (.inr rfl) hconfig hkept
    · simp only [mainStep, hpc] at hm
      obtain rfl := (congrArg Prod.fst (Option.some.inj hm)).symm
      exact create_honouring hty hdcid hverdict hconfig (hkept _ hnone)
  | enters haccept hpc hconfig =>
    rcases hpc with hpc | hpc
    · simp only [mainStep, hpc, insert] at hm
      obtain ⟨rfl, -⟩ := Prod.mk.inj (Option.some.inj hm)
      exact .enters haccept (.inr rfl) hconfig
    · have hentry := hreg.pending_entry hpc
      simp only [mainStep, hpc] at hm
      obtain ⟨rfl, -⟩ := Prod.mk.inj (Option.some.inj hm)
      refine .done rfl ?_
      unfold Honoured
      rw [haccept]
      exact ⟨hconfig, _, hentry, Function.update_self _ _ _⟩
  | done hpc _ =>
    rw [hpc] at hbusy
    cases hbusy

/-- **The answer is honoured**, whatever the tasks do while it is handled. -/
theorem handles_honoured (hmode : p.mode = .quicEndpoint) (hreg : RegistryInv p s)
    (hreceives : Receives p s data src hdr srcIp) (hty : hdr.ty = .initial) (hdcid : hdr.dcid = k)
    (hverdict : handleInitial p s.quicConfig hdr srcIp data =
      acceptInitial p s.quicConfig k odcid t srcIp data)
    (hnone : s.connections (.quic k) = none)
    (hnone' : s.connections (.quic (connId p k)) = none) {is : List Input} {s' : State C Q}
    {es : List UdpPacket} (h : Handles p data src s is s' es) :
    Honoured p k odcid t srcIp src data s s' := by
  have hend : RegistryInv p s' ∧
      Honouring p k odcid t srcIp src data (.quic hdr srcIp src data) s s' := by
    refine h.induct (P := fun t₁ => RegistryInv p t₁ ∧
      Honouring p k odcid t srcIp src data (.quic hdr srcIp src data) s t₁) ?_ ?_
    · refine ⟨(step_ok hreg h.received).inv, ?_⟩
      rw [hreceives.recvFrom hmode]
      exact .waits (.inl rfl) rfl fun _ hkey => hkey
    · intro t₁ i t₂ o hbusy ht hstep
      refine ⟨(step_ok ht.1 hstep).inv, ?_⟩
      rcases step_turn hstep with ⟨hturn, -⟩ | hmain
      · exact ht.2.turn hbusy hturn
      · exact ht.2.moves ht.1 hbusy hty hdcid hverdict hnone hnone' hmain
  have hdone := h.done
  cases hend.2 with
  | waits hpc _ _ => rcases hpc with hpc | hpc <;> rw [hpc] at hdone <;> cases hdone
  | enters _ hpc _ => rcases hpc with hpc | hpc <;> rw [hpc] at hdone <;> cases hdone
  | done _ honoured => exact honoured

end Answer

/-! ## Datagrams are routed -/

/-- While an entry is there, its channel has a receiver. -/
theorem RegistryInv.entry_alive {s : State C Q} (h : RegistryInv p s) {k : Key}
    {info : ConnectionInfo} (hk : s.connections k = some info) :
    (s.channels info.sender).rxAlive = true := by
  by_contra hdead
  obtain ⟨task, ht, hdropped⟩ := h.closed info.sender (by simpa using hdead)
  rcases h.owned hk with ⟨id, task', ⟨ht', -, hlive⟩, hrx, -⟩ | ⟨task', hpc, -, hrx, -⟩
  · have hid : id = info.sender := (h.task id task' ht').1.symm.trans hrx
    rw [hid, ht] at ht'
    rw [← Option.some.inj ht', hdropped] at hlive
    cases hlive
  · have hok := h.pc
    rw [hpc] at hok
    have hnone := hok.none
    rw [hrx, ht] at hnone
    cases hnone

/-- A task that has been spawned stays known by its number. -/
theorem busy_tasks {s s' : State C Q} {i : Input} {o : List Output} {id : Nat}
    (hbusy : s.pc.idle = false) (hstep : step p s i = some (s', o))
    (hid : (s.tasks id).isSome = true) : (s'.tasks id).isSome = true := by
  obtain ⟨task, ht⟩ := Option.isSome_iff_exists.mp hid
  rcases step_turn hstep with ⟨hturn, -⟩ | hmain
  · obtain ⟨task', ht', -⟩ := hturn.tasksMoved.tasks id task ht
    rw [ht']
    rfl
  · have hmove := handlerMove_of_busy hbusy hmain
    generalize hr : (s', o) = r at hmove
    have hs' : s' = r.1 := congrArg Prod.fst hr
    rw [hs']
    cases hmove with
    | looksUp d _ =>
      unfold lookup
      split <;> exact hid
    | forwards info d _ =>
      simp only [forward]
      split <;> exact hid
    | creates d _ =>
      have hcreated := create_created p d s
      generalize create p d s = r' at hcreated ⊢
      cases hcreated with
      | prepared _ _ _ _ _ _ => exact hid
      | dropped _ => exact hid
      | answered _ _ _ _ _ => exact hid
      | failed _ _ _ _ => exact hid
    | inserts origin task' _ => exact hid
    | spawns task' _ =>
      show (Function.update s.tasks task'.receiver (some task') id).isSome = true
      by_cases heq : id = task'.receiver
      · rw [heq, Function.update_self]
        rfl
      · rw [Function.update_of_ne heq]
        exact hid

/-- An entry that is gone does not come back: its number is taken. -/
theorem RegistryInv.stays_gone {s s' : State C Q} {i : Input} {o : List Output} {k : Key}
    {info : ConnectionInfo} (h : RegistryInv p s) (hstep : step p s i = some (s', o))
    (hid : (s.tasks info.sender).isSome = true) (hgone : s.connections k ≠ some info) :
    s'.connections k ≠ some info := by
  cases (step_ok h hstep).change with
  | same hsame =>
    rw [hsame]
    exact hgone
  | insert origin task hpc _ hconn =>
    rw [hconn]
    by_cases hk : k = task.key
    · rw [hk, Function.update_self]
      intro heq
      have hok := h.pc
      rw [hpc] at hok
      have hnone := hok.1.none
      have hsender : task.receiver = info.sender :=
        congrArg ConnectionInfo.sender (Option.some.inj heq)
      rw [hsender] at hnone
      rw [hnone] at hid
      cases hid
    · rw [Function.update_of_ne hk]
      exact hgone
  | remove id task _ _ _ _ hconn =>
    rw [hconn]
    by_cases hk : k = task.key
    · rw [hk, Function.update_self]
      simp
    · rw [Function.update_of_ne hk]
      exact hgone

/-- `try_send` to a channel that has a receiver. -/
theorem forward_put {s : State C Q} {info : ConnectionInfo} (d : Incoming)
    (halive : (s.channels info.sender).rxAlive = true) :
    (forward p info d s).1.pc = .select ∧
      (forward p info d s).1.connections = s.connections ∧
      ((forward p info d s).1.channels info.sender).queue =
        putInto p d (s.channels info.sender).queue := by
  unfold putInto
  simp only [forward]
  split
  · next hok =>
    refine ⟨rfl, rfl, ?_⟩
    rw [if_pos (Chan.trySend_ok_iff.mp hok).2]
    show (Function.update s.channels info.sender _ info.sender).queue = _
    rw [Function.update_self, Chan.trySend_ok_queue hok]
  · next hfull =>
    refine ⟨rfl, rfl, ?_⟩
    rw [if_neg fun hroom => ?_]
    have hok := Chan.trySend_ok_iff (a := d.packet p).mpr ⟨halive, hroom⟩
    rw [hfull] at hok
    cases hok
  · next hclosed =>
    rw [Chan.trySend_closed_iff, halive] at hclosed
    cases hclosed

/-- The handling of a datagram of a registered connection so far: the connection
has left, or its entry is being used, or the datagram has been put into its
channel. -/
inductive Routing (p : Env K C Q) (k odcid : Bytes) (info : ConnectionInfo) (d : Incoming)
    (s : State C Q) : State C Q → Prop
  | gone {s'} (hgone : s'.connections (.quic k) ≠ some info) : Routing p k odcid info d s s'
  | held {s'} (hpc : s'.pc = .lookup d ∨ s'.pc = .forward info d)
      (hentry : s'.connections (.quic k) = some info) (hnone : s'.connections (.quic odcid) = none)
      (hqueue : (s'.channels info.sender).queue <:+ (s.channels info.sender).queue) :
      Routing p k odcid info d s s'
  | put {s' rest} (hpc : s'.pc = .select) (hrest : rest <:+ (s.channels info.sender).queue)
      (hqueue : (s'.channels info.sender).queue = putInto p d rest) : Routing p k odcid info d s s'

/-- The same while no task moves: nothing but the main loop's place changes up to
the `try_send`. -/
inductive RoutingAlone (p : Env K C Q) (info : ConnectionInfo) (d : Incoming) (s : State C Q) :
    State C Q → Prop
  | held {s'} (hpc : s'.pc = .lookup d ∨ s'.pc = .forward info d)
      (hconnections : s'.connections = s.connections) (hchannels : s'.channels = s.channels) :
      RoutingAlone p info d s s'
  | put {s'} (hpc : s'.pc = .select) (hconnections : s'.connections = s.connections)
      (hqueue : (s'.channels info.sender).queue = putInto p d (s.channels info.sender).queue) :
      RoutingAlone p info d s s'

section Route

variable {k odcid data : Bytes} {srcIp : SocketAddr} {src : ScionAddr} {hdr : Header}
  {info : ConnectionInfo} {s t₁ t₂ : State C Q}

/-- Both IDs of the client lead to the entry under the derived one. -/
theorem lookup_found (hdcid : hdr.dcid = connId p odcid ∨ hdr.dcid = odcid)
    (hentry : t₁.connections (.quic (connId p odcid)) = some info)
    (hnone : t₁.connections (.quic odcid) = none) :
    lookup p (.quic hdr srcIp src data) t₁ =
      { t₁ with pc := .forward info (.quic hdr srcIp src data) } := by
  have hfind : (lookupKeys p (.quic hdr srcIp src data)).findSome? t₁.connections = some info := by
    rcases hdcid with hk | hodcid
    · simp only [lookupKeys, List.findSome?_cons, hk, hentry]
    · simp only [lookupKeys, List.findSome?_cons, hodcid, hnone, hentry]
  simp only [lookup, hfind]

/-- A task that moves may leave or read, and does not touch the datagram. -/
theorem Routing.turn {d : Incoming} (hbusy : t₁.pc.idle = false)
    (h : Routing p k odcid info d s t₁) {i : Input} (hturn : TaskTurn p t₁ i t₂)
    (hgone : t₁.connections (.quic k) ≠ some info → t₂.connections (.quic k) ≠ some info) :
    Routing p k odcid info d s t₂ := by
  have hwaited := hturn.waited
  cases h with
  | gone h => exact .gone (hgone h)
  | held hpc hentry hnone hqueue =>
    rw [← hwaited.pc] at hpc
    rcases hturn.tasksMoved.connections (.quic k) with hsame | ⟨hleft, -⟩
    · exact .held hpc (hsame.trans hentry) (hwaited.unregistered _ hnone)
        ((hturn.queue_suffix info.sender).trans hqueue)
    · exact .gone (by rw [hleft]; simp)
  | put hpc _ _ =>
    rw [hpc] at hbusy
    cases hbusy

/-- A move of the handler brings the datagram nearer to the channel. -/
theorem Routing.moves (hreg : RegistryInv p t₁) (hbusy : t₁.pc.idle = false)
    (h : Routing p (connId p odcid) odcid info (.quic hdr srcIp src data) s t₁)
    (hdcid : hdr.dcid = connId p odcid ∨ hdr.dcid = odcid) {i : Input} {o : List Output}
    (hm : mainStep p t₁ i = some (t₂, o))
    (hgone : t₁.connections (.quic (connId p odcid)) ≠ some info →
      t₂.connections (.quic (connId p odcid)) ≠ some info) :
    Routing p (connId p odcid) odcid info (.quic hdr srcIp src data) s t₂ := by
  obtain rfl := busy_input hbusy hm
  cases h with
  | gone h => exact .gone (hgone h)
  | held hpc hentry hnone hqueue =>
    rcases hpc with hpc | hpc
    · simp only [mainStep, hpc, lookup_found hdcid hentry hnone] at hm
      obtain ⟨rfl, -⟩ := Prod.mk.inj (Option.some.inj hm)
      exact .held (.inr rfl) hentry hnone hqueue
    · obtain ⟨hselect, -, hput⟩ := forward_put (p := p) (.quic hdr srcIp src data)
        (hreg.entry_alive hentry)
      simp only [mainStep, hpc] at hm
      obtain rfl := (congrArg Prod.fst (Option.some.inj hm)).symm
      exact .put hselect hqueue hput
  | put hpc _ _ =>
    rw [hpc] at hbusy
    cases hbusy

/-- A move of the handler brings the datagram nearer to the channel, and changes no
more than it has to. -/
theorem RoutingAlone.moves (hreg : RegistryInv p s)
    (hentry : s.connections (.quic (connId p odcid)) = some info)
    (hnone : s.connections (.quic odcid) = none)
    (hdcid : hdr.dcid = connId p odcid ∨ hdr.dcid = odcid)
    (h : RoutingAlone p info (.quic hdr srcIp src data) s t₁) {r : State C Q × List Output}
    (hmove : HandlerMove p t₁ r) : RoutingAlone p info (.quic hdr srcIp src data) s r.1 := by
  cases h with
  | held hpc hconnections hchannels =>
    rcases hpc with hpc | hpc
    · cases hmove with
      | looksUp d hd =>
        rw [hpc] at hd
        obtain rfl := Pc.lookup.inj hd
        rw [lookup_found hdcid (by rw [hconnections]; exact hentry)
          (by rw [hconnections]; exact hnone)]
        exact .held (.inr rfl) hconnections hchannels
      | forwards _ _ hd => rw [hpc] at hd; cases hd
      | creates _ hd => rw [hpc] at hd; cases hd
      | inserts _ _ hd => rw [hpc] at hd; cases hd
      | spawns _ hd => rw [hpc] at hd; cases hd
    · cases hmove with
      | forwards info' d hd =>
        rw [hpc] at hd
        obtain ⟨rfl, rfl⟩ := Pc.forward.inj hd
        have halive : (t₁.channels info.sender).rxAlive = true := by
          rw [hchannels]
          exact hreg.entry_alive hentry
        obtain ⟨hselect, hsame, hput⟩ :=
          forward_put (p := p) (.quic hdr srcIp src data) halive
        rw [hchannels] at hput
        exact .put hselect (hsame.trans hconnections) hput
      | looksUp _ hd => rw [hpc] at hd; cases hd
      | creates _ hd => rw [hpc] at hd; cases hd
      | inserts _ _ hd => rw [hpc] at hd; cases hd
      | spawns _ hd => rw [hpc] at hd; cases hd
  | put hpc _ _ =>
    have hbusy := hmove.busy
    rw [hpc] at hbusy
    cases hbusy

/-- A datagram of a registered connection is put into its channel, if the connection
is still there then. -/
theorem handles_reached (hmode : p.mode = .quicEndpoint) (hreg : RegistryInv p s)
    (hreceives : Receives p s data src hdr srcIp)
    (hdcid : hdr.dcid = connId p odcid ∨ hdr.dcid = odcid)
    (hentry : s.connections (.quic (connId p odcid)) = some info)
    (hnone : s.connections (.quic odcid) = none) {is : List Input} {s' : State C Q}
    {es : List UdpPacket} (h : Handles p data src s is s' es)
    (hstill : s'.connections (.quic (connId p odcid)) = some info) :
    ∃ rest, rest <:+ (s.channels info.sender).queue ∧
      (s'.channels info.sender).queue = putInto p (.quic hdr srcIp src data) rest := by
  have hfirst := hreceives.recvFrom hmode
  have htask : (s.tasks info.sender).isSome = true := by
    rcases hreg.owned hentry with ⟨id, task, ⟨ht, -, -⟩, hrx, -⟩ | ⟨task, hpc, -⟩
    · rw [← hrx, (hreg.task id task ht).1, ht]
      rfl
    · rw [hreceives.select] at hpc
      cases hpc
  have hend : RegistryInv p s' ∧ (s'.tasks info.sender).isSome = true ∧
      Routing p (connId p odcid) odcid info (.quic hdr srcIp src data) s s' := by
    refine h.induct (P := fun t₁ => RegistryInv p t₁ ∧ (t₁.tasks info.sender).isSome = true ∧
      Routing p (connId p odcid) odcid info (.quic hdr srcIp src data) s t₁) ?_ ?_
    · refine ⟨(step_ok hreg h.received).inv, ?_, ?_⟩
      · rw [hfirst]
        exact htask
      · rw [hfirst]
        exact .held (.inl rfl) hentry hnone List.suffix_rfl
    · rintro t₁ i t₂ o hbusy ⟨hreg₁, htask₁, hrouting⟩ hstep
      refine ⟨(step_ok hreg₁ hstep).inv, busy_tasks hbusy hstep htask₁, ?_⟩
      have hgone := fun hg => hreg₁.stays_gone (k := .quic (connId p odcid)) hstep htask₁ hg
      rcases step_turn hstep with ⟨hturn, -⟩ | hmain
      · exact hrouting.turn hbusy hturn hgone
      · exact hrouting.moves hreg₁ hbusy hdcid hmain hgone
  have hdone := h.done
  cases hend.2.2 with
  | gone hgone => exact absurd hstill hgone
  | held hpc _ _ _ => rcases hpc with hpc | hpc <;> rw [hpc] at hdone <;> cases hdone
  | put _ hrest hqueue => exact ⟨_, hrest, hqueue⟩

/-- **A datagram is routed**, whatever the tasks do while it is handled. -/
theorem handles_routed (hmode : p.mode = .quicEndpoint) (hreg : RegistryInv p s)
    (hreceives : Receives p s data src hdr srcIp)
    (hdcid : hdr.dcid = connId p odcid ∨ hdr.dcid = odcid)
    (hentry : s.connections (.quic (connId p odcid)) = some info)
    (hnone : s.connections (.quic odcid) = none) {is : List Input} {s' : State C Q}
    {es : List UdpPacket} (h : Handles p data src s is s' es) :
    Routed p (connId p odcid) info (.quic hdr srcIp src data) s is s' := by
  refine ⟨handles_reached hmode hreg hreceives hdcid hentry hnone h, fun halone => ?_⟩
  have hend : RoutingAlone p info (.quic hdr srcIp src data) s s' := by
    refine h.induct_alone (P := RoutingAlone p info (.quic hdr srcIp src data) s) halone ?_
      fun t₁ r ht hmove => ht.moves hreg hentry hnone hdcid hmove
    rw [hreceives.recvFrom hmode]
    exact .held (.inl rfl) rfl rfl
  have hdone := h.done
  cases hend with
  | held hpc _ _ => rcases hpc with hpc | hpc <;> rw [hpc] at hdone <;> cases hdone
  | put _ hconnections hqueue => exact ⟨by rw [hconnections]; exact hentry, hqueue⟩

end Route

/-! ## Every run -/

/-- **Stateless Retry is complete**: whenever the proxy answers an Initial with
a Retry, the packet carries an ID and a token with which the client completes, in
every run that goes on from there: an Initial from its IP address with the two is
handled, comes to `accept` with that ID and the first one and is registered under
it if `quiche` takes it, and while it is registered, its datagrams are routed to
its channel under both IDs. -/
theorem retry_complete (hmode : p.mode = .quicEndpoint) (law : QuicheServerLaw p.quiche)
    (retryLaw : RetryLaw p.quiche) {quicConfig quicConfig' : C} {is : List Input} {s : State C Q}
    {os : List Output} (hr : run (step p) (State.init quicConfig) is = some (s, os)) {hdr : Header}
    {srcIp : SocketAddr} {src : ScionAddr} {buf out token : Bytes}
    (hpc : s.pc = .create (.quic hdr srcIp src buf))
    (hretry : handleInitial p s.quicConfig hdr srcIp buf = (.retry out token, quicConfig')) :
    ∃ k t, p.quiche.headerFromSlice out maxConnIdLen =
        .ok ⟨.retry, hdr.version, hdr.scid, k, some t⟩ ∧
      Completes p s hdr.dcid srcIp.ip k t := by
  obtain ⟨hversion, rfl, hout⟩ := handleInitial_retry hretry
  have hparsed : p.quiche.headerFromSlice buf maxConnIdLen = .ok hdr := by
    have h := run_parsed law hr
    rw [hpc] at h
    exact h
  have hscid := (law.cid_length_supported buf hdr hparsed hversion).2
  refine ⟨connId p hdr.dcid, mintToken p.hmac p.tokenKey hdr srcIp, ?_, ?_⟩
  · exact retryLaw _ _ _ _ _ _ hscid (Nat.le_of_eq (connId_length p hdr.dcid)) hout
  -- a run that goes on from `s` is a run of its own
  have hreg : ∀ {is' s' os'}, run (step p) s is' = some (s', os') → RegistryInv p s' :=
    fun hr' => run_registryInv (run_append_eq_some.mpr ⟨s, os, _, hr, hr', rfl⟩)
  refine ⟨?_, ?_⟩
  · intro is' s' os' data src' hdr' srcIp' hr' hreceives hanswers hnone hnone'
    refine ⟨handles_exists hreceives.select hreceives.fits src', fun is s'' es h => ?_⟩
    exact handles_honoured hmode (hreg hr') hreceives hanswers.initial hanswers.dcid
      (handleInitial_answer hanswers _ _) hnone hnone' h
  · intro is' s' os' data src' hdr' srcIp' info hr' hreceives hdcid hentry hnone
    refine ⟨handles_exists hreceives.select hreceives.fits src', fun is s'' es h => ?_⟩
    exact handles_routed hmode (hreg hr') hreceives hdcid hentry hnone h

/-- The first Initial of the client in ISD-AS 1, and its header. -/
private def firstInitial : Bytes := sampleInitial sampleOdcid []

private def firstHeader : Header := ⟨.initial, wireVersion, sampleOdcid, [0xa1, 0xa2], some []⟩

/-- Its answer to the Retry, with the ID and the token. -/
private def secondInitial : Bytes := sampleInitial (connId sampleProxy sampleOdcid) sampleToken

/-- The Retry in between. -/
private def retryPacket : Bytes :=
  0xf0 :: versionBytes wireVersion ++ cidBytes [0xa1, 0xa2] ++
    cidBytes (connId sampleProxy sampleOdcid) ++ sampleToken ++
    (sampleRetryTag [] []).toList

/-- The client completes: its answer is registered, and its next datagram with the
first ID goes into the channel of the connection. -/
theorem retry_complete_sample :
    ∃ s, run (step sampleProxy) (State.init ()) [.recvFrom firstInitial (sampleClient 1), .step] =
        some (s, []) ∧
      Completes sampleProxy s sampleOdcid sampleIp (connId sampleProxy sampleOdcid) sampleToken ∧
      (run (step sampleProxy) s (.step :: .recvFrom secondInitial (sampleClient 1) ::
          (List.replicate 4 .step ++ .recvFrom firstInitial (sampleClient 1) ::
            List.replicate 2 .step))).map
        (fun r => (r.1.connections (.quic (connId sampleProxy sampleOdcid)),
          (r.1.tasks 0).map Task.key, (r.1.channels 0).queue)) =
        some (some ⟨0, 0⟩, some (.quic (connId sampleProxy sampleOdcid)),
          [⟨sampleClient 1, sampleProxy.localScionAddr, firstInitial⟩]) := by
  have hretry : handleInitial sampleProxy () firstHeader ⟨sampleIp, 4433⟩ firstInitial =
      (.retry retryPacket sampleToken, ()) := by decide +kernel
  have hread : wireHeader retryPacket maxConnIdLen =
      .ok ⟨.retry, wireVersion, [0xa1, 0xa2], connId sampleProxy sampleOdcid,
        some sampleToken⟩ := by
    decide +kernel
  refine ⟨_, rfl, ?_, ?_⟩
  · obtain ⟨k, t, hparsed, hcompletes⟩ := @retry_complete _ _ _ sampleProxy rfl
      (wireServer_law sampleRetryTag) (wireServer_retryLaw sampleRetryTag) () ()
      [.recvFrom firstInitial (sampleClient 1), .step] _ [] rfl firstHeader ⟨sampleIp, 4433⟩
      (sampleClient 1) firstInitial retryPacket sampleToken rfl hretry
    have heq := Except.ok.inj (hread.symm.trans hparsed)
    simp only [Header.mk.injEq, Option.some.injEq] at heq
    obtain ⟨-, -, -, rfl, rfl⟩ := heq
    exact hcompletes
  · decide +kernel

end MqttScion.Proxy
