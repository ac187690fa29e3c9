import MqttScion.Proxy.AddressValidation
import MqttScion.Proxy.Registry

/-!
# The connection ID of a registration

A Retry hands out the ID derived from the client's first destination ID
(`connId`). The handler registers the connection under the destination ID of
the *second* packet, and compares only its length with the derived one. The two
agree for a client that uses the ID it was given.

`RetryIds` is what the registry should look like: every key is the ID derived
from the ID the token recovers, no two live connections go back to one ID or to
one token, and a datagram reaches a connection only by the derived ID or by the
first one. A step keeps it exactly when the registration it makes, if any,
reuses the ID of the Retry and no live connection has the same token by an
address of the other family.

> `retryIds_iff`: `RetryIds` holds in every state of a run, provided the derived
> IDs seen in it do not collide, exactly when every step does that.
-/

namespace MqttScion.Proxy

open MqttScion.Net MqttScion.Lib

variable {K C Q : Type}

/-! ## The property, the condition and the assumption -/

/-- There is an entry under `k`, and it was registered from `origin`. -/
def Live (os : List Output) (s : State C Q) (k : Key) (origin : Origin) : Prop :=
  ∃ info, s.connections k = some info ∧ .inserted k info.sender origin ∈ os

structure RetryIds (p : Env K C Q) (os : List Output) (s : State C Q) : Prop where
  key : ∀ key id src dcid token odcid, .inserted key id (.quic src dcid token odcid) ∈ os →
    key = .quic (connId p odcid)
  perOdcid : ∀ k k' src src' dcid dcid' token token' odcid,
    Live os s k (.quic src dcid token odcid) → Live os s k' (.quic src' dcid' token' odcid) →
      k = k'
  perToken : ∀ k k' src src' dcid dcid' token odcid odcid',
    Live os s k (.quic src dcid token odcid) → Live os s k' (.quic src' dcid' token odcid') →
      k = k'
  forwarded : ∀ id hdr srcIp src buf, .forwarded id (.quic hdr srcIp src buf) ∈ os →
    ∀ key src' dcid token odcid, .inserted key id (.quic src' dcid token odcid) ∈ os →
      hdr.dcid = connId p odcid ∨ hdr.dcid = odcid

/-- The number of octets of the source address, by its family. -/
def addressLength (src : ScionAddr) : Option Nat :=
  src.localAddress.map fun l => l.ip.octets.length

/-- If the step registers a connection: the destination ID of the datagram is
the one a Retry hands out for the ID its token recovers, and no live connection
was registered by the same token from the other address family. -/
def ReusesRetryId (p : Env K C Q) (os : List Output) (s : State C Q) (i : Input) : Prop :=
  ∀ src dcid token odcid task, s.pc = .insert (.quic src dcid token odcid) task → i = .step →
    dcid = connId p odcid ∧
    ∀ k src' dcid' odcid', Live os s k (.quic src' dcid' token odcid') →
      addressLength src' = addressLength src

/-- The destination ID being looked up. -/
def Pc.lookupDcid : Pc Q → Option Bytes
  | .lookup (.quic hdr _ _ _) => some hdr.dcid
  | _ => none

/-- The IDs recovered from the tokens of all registrations. -/
def recoveredIds (os : List Output) : List Bytes :=
  os.filterMap fun out => match out with
    | .inserted _ _ (.quic _ _ _ odcid) => some odcid
    | _ => none

/-- The ID being looked up and a recovered one derive the same ID only if they
are the same. -/
def NoCollision (p : Env K C Q) (os : List Output) (s : State C Q) (_ : Input) : Prop :=
  ∀ dcid ∈ s.pc.lookupDcid, ∀ odcid ∈ recoveredIds os, connId p dcid = connId p odcid →
    dcid = odcid

instance (p : Env K C Q) (os : List Output) (s : State C Q) (i : Input) :
    Decidable (NoCollision p os s i) :=
  inferInstanceAs (Decidable (∀ dcid ∈ s.pc.lookupDcid, _))

theorem mem_recoveredIds {os : List Output} {key : Key} {id : Nat} {src : ScionAddr}
    {dcid token odcid : Bytes} (h : .inserted key id (.quic src dcid token odcid) ∈ os) :
    odcid ∈ recoveredIds os :=
  List.mem_filterMap.mpr ⟨_, h, rfl⟩

/-! ## The invariant -/

/-- `odcid` is what `validate_token` recovers from the token for this source. -/
def Recovered (p : Env K C Q) (src : ScionAddr) (token odcid : Bytes) : Prop :=
  ∃ srcIp, src.localAddress = some srcIp ∧ token = signedToken p (tokenData srcIp.ip odcid)

/-- What the main loop knows of the datagram it is handling. -/
def PcId (p : Env K C Q) (os : List Output) : Pc Q → Prop
  | .lookup d => d.WellFormed p
  | .create d => d.WellFormed p
  | .forward info d => (∃ key origin, .inserted key info.sender origin ∈ os) ∧
      ∀ hdr srcIp src buf, d = .quic hdr srcIp src buf →
        ∀ key src' dcid token odcid, .inserted key info.sender (.quic src' dcid token odcid) ∈ os →
          hdr.dcid = connId p odcid ∨ hdr.dcid = odcid
  | .insert (.quic src dcid token odcid) task => task.key = .quic dcid ∧ Recovered p src token odcid
  | _ => True

structure IdInv (p : Env K C Q) (os : List Output) (s : State C Q) : Prop where
  registry : RegistryInv p s
  entries : ∀ k info, s.connections k = some info →
    ∃ origin, .inserted k info.sender origin ∈ os
  fresh : ∀ key id origin, .inserted key id origin ∈ os → id < s.nextId ∧
    ∀ origin' task, s.pc = .insert origin' task → id ≠ task.receiver
  unique : ∀ key key' id origin origin', .inserted key id origin ∈ os →
    .inserted key' id origin' ∈ os → key = key' ∧ origin = origin'
  recovered : ∀ key id src dcid token odcid, .inserted key id (.quic src dcid token odcid) ∈ os →
    Recovered p src token odcid
  forwarded : ∀ id d, .forwarded id d ∈ os → ∃ key origin, .inserted key id origin ∈ os
  pc : PcId p os s.pc

variable {p : Env K C Q}

/-- One token recovers one ID for all sources of a family. -/
theorem Recovered.unique {src src' : ScionAddr} {token odcid odcid' : Bytes}
    (h : Recovered p src token odcid) (h' : Recovered p src' token odcid')
    (hlen : addressLength src' = addressLength src) : odcid' = odcid := by
  obtain ⟨srcIp, hsrc, htoken⟩ := h
  obtain ⟨srcIp', hsrc', htoken'⟩ := h'
  rw [addressLength, addressLength, hsrc, hsrc'] at hlen
  have hoctets : srcIp'.ip.octets.length = srcIp.ip.octets.length := Option.some.inj hlen
  rw [htoken, signedToken, signedToken] at htoken'
  have hdata : tokenData srcIp.ip odcid = tokenData srcIp'.ip odcid' :=
    (List.append_inj' htoken' (by rw [p.hmac.sign_length, p.hmac.sign_length])).1
  rw [tokenData_inj] at hdata
  exact (List.append_inj hdata hoctets.symm).2.symm

theorem PcId.of_idle {os : List Output} {pc : Pc Q} (h : pc.idle = true) : PcId p os pc := by
  cases pc with
  | insert origin task => cases h
  | lookup d => cases h
  | create d => cases h
  | forward info d => cases h
  | _ => trivial

/-! ## Steps that register nothing -/

/-- The step adds no registration to the log, may take entries out of the
registry, and forwards a datagram only by an ID of its connection. -/
structure NoRegistration (p : Env K C Q) (os : List Output) (s s' : State C Q) (o : List Output) :
    Prop where
  inserted : ∀ key id origin, .inserted key id origin ∉ o
  connections : ∀ k, s'.connections k = s.connections k ∨ s'.connections k = none
  nextId : s.nextId ≤ s'.nextId
  pending : ∀ origin task, s'.pc = .insert origin task →
    s.pc = .insert origin task ∨ task.receiver = s.nextId
  known : ∀ id d, .forwarded id d ∈ o → ∃ key origin, .inserted key id origin ∈ os
  forwarded : ∀ id hdr srcIp src buf, .forwarded id (.quic hdr srcIp src buf) ∈ o →
    ∀ key src' dcid token odcid, .inserted key id (.quic src' dcid token odcid) ∈ os →
      hdr.dcid = connId p odcid ∨ hdr.dcid = odcid

theorem NoRegistration.mem_iff {os o : List Output} {s s' : State C Q}
    (hr : NoRegistration p os s s' o) {key : Key} {id : Nat} {origin : Origin} :
    .inserted key id origin ∈ os ++ o ↔ .inserted key id origin ∈ os := by
  rw [List.mem_append]
  exact or_iff_left (hr.inserted key id origin)

theorem NoRegistration.live {os o : List Output} {s s' : State C Q}
    (hr : NoRegistration p os s s' o) {k : Key} {origin : Origin}
    (h : Live (os ++ o) s' k origin) : Live os s k origin := by
  obtain ⟨info, hk, hmem⟩ := h
  refine ⟨info, ?_, hr.mem_iff.mp hmem⟩
  rcases hr.connections k with hsame | hnone
  · rw [← hsame]
    exact hk
  · rw [hnone] at hk
    cases hk

theorem NoRegistration.idInv {os o : List Output} {s s' : State C Q}
    (hr : NoRegistration p os s s' o) (h : IdInv p os s) (hreg : RegistryInv p s')
    (hpc : PcId p (os ++ o) s'.pc) :
    IdInv p (os ++ o) s' := by
  refine ⟨hreg, ?_, ?_, ?_, ?_, ?_, hpc⟩
  · intro k info hk
    rcases hr.connections k with hsame | hnone
    · rw [hsame] at hk
      obtain ⟨origin, hmem⟩ := h.entries k info hk
      exact ⟨origin, hr.mem_iff.mpr hmem⟩
    · rw [hnone] at hk
      cases hk
  · intro key id origin hmem
    obtain ⟨hlt, hne⟩ := h.fresh key id origin (hr.mem_iff.mp hmem)
    refine ⟨Nat.lt_of_lt_of_le hlt hr.nextId, fun origin' task hpc' => ?_⟩
    rcases hr.pending origin' task hpc' with hold | hnew
    · exact hne origin' task hold
    · rw [hnew]
      exact Nat.ne_of_lt hlt
  · intro key key' id origin origin' hmem hmem'
    exact h.unique key key' id origin origin' (hr.mem_iff.mp hmem) (hr.mem_iff.mp hmem')
  · intro key id src dcid token odcid hmem
    exact h.recovered key id src dcid token odcid (hr.mem_iff.mp hmem)
  · intro id d hmem
    have hknown : ∃ key origin, .inserted key id origin ∈ os := by
      rcases List.mem_append.mp hmem with hold | hnew
      · exact h.forwarded id d hold
      · exact hr.known id d hnew
    obtain ⟨key, origin, hmem'⟩ := hknown
    exact ⟨key, origin, hr.mem_iff.mpr hmem'⟩

theorem NoRegistration.retryIds {os o : List Output} {s s' : State C Q}
    (hr : NoRegistration p os s s' o) (h : RetryIds p os s) : RetryIds p (os ++ o) s' := by
  refine ⟨?_, ?_, ?_, ?_⟩
  · intro key id src dcid token odcid hmem
    exact h.key key id src dcid token odcid (hr.mem_iff.mp hmem)
  · intro k k' src src' dcid dcid' token token' odcid hlive hlive'
    exact h.perOdcid k k' src src' dcid dcid' token token' odcid (hr.live hlive) (hr.live hlive')
  · intro k k' src src' dcid dcid' token odcid odcid' hlive hlive'
    exact h.perToken k k' src src' dcid dcid' token odcid odcid' (hr.live hlive) (hr.live hlive')
  · intro id hdr srcIp src buf hmem key src' dcid token odcid hins
    rcases List.mem_append.mp hmem with hold | hnew
    · exact h.forwarded id hdr srcIp src buf hold key src' dcid token odcid (hr.mem_iff.mp hins)
    · exact hr.forwarded id hdr srcIp src buf hnew key src' dcid token odcid (hr.mem_iff.mp hins)

/-- A step without registration and without forwarding. -/
theorem noRegistration_of_silent {os o : List Output} {s s' : State C Q}
    (ho : ∀ out ∈ o, (∀ key id origin, out ≠ .inserted key id origin) ∧
      ∀ id d, out ≠ .forwarded id d)
    (hconn : ∀ k, s'.connections k = s.connections k ∨ s'.connections k = none)
    (hnext : s.nextId ≤ s'.nextId)
    (hpending : ∀ origin task, s'.pc = .insert origin task →
      s.pc = .insert origin task ∨ task.receiver = s.nextId) :
    NoRegistration p os s s' o := by
  refine ⟨fun key id origin hmem => (ho _ hmem).1 key id origin rfl, hconn, hnext, hpending, ?_, ?_⟩
  · intro id d hmem
    exact absurd rfl ((ho _ hmem).2 id d)
  · intro id hdr srcIp src buf hmem
    exact absurd rfl ((ho _ hmem).2 id _)

/-- The entry found for a datagram goes by its destination ID, or by the ID
derived from it. -/
theorem found_pcId {os : List Output} {s : State C Q} {i : Input} {d : Incoming}
    {info : ConnectionInfo} (h : IdInv p os s) (hP : RetryIds p os s) (hno : NoCollision p os s i)
    (hs : s.pc = .lookup d) (hinfo : (lookupKeys p d).findSome? s.connections = some info) :
    PcId p os (.forward info d) := by
  obtain ⟨k, hkey, hk⟩ := List.exists_of_findSome?_eq_some hinfo
  obtain ⟨origin, hmem⟩ := h.entries k info hk
  refine ⟨⟨k, origin, hmem⟩, ?_⟩
  intro hdr srcIp src buf hd key src' dcid token odcid hins
  obtain ⟨rfl, -⟩ := h.unique key k info.sender _ _ hins hmem
  -- its key is the ID derived from `odcid`; the two look-ups are the two cases
  have hretry := hP.key key info.sender src' dcid token odcid hins
  rw [hd, hretry] at hkey
  simp only [lookupKeys, List.mem_cons, Key.quic.injEq, List.not_mem_nil, or_false] at hkey
  rcases hkey with hdcid | hderived
  · exact .inl hdcid.symm
  · refine .inr (hno hdr.dcid (by rw [hs, hd]; rfl) odcid (mem_recoveredIds hins) hderived.symm)

/-- Every step but the insert registers nothing and keeps the invariant. -/
theorem step_noRegistration {os : List Output} {s s' : State C Q} {i : Input} {o : List Output}
    (h : IdInv p os s) (hP : RetryIds p os s) (hno : NoCollision p os s i)
    (hstep : step p s i = some (s', o))
    (hi : ∀ origin task, s.pc = .insert origin task → i ≠ .step) :
    NoRegistration p os s s' o ∧ PcId p os s'.pc := by
  rcases step_cases hstep with htask | hmain
  · rw [htask.pc, htask.output]
    refine ⟨
      noRegistration_of_silent (by simp) htask.connections (Nat.le_of_eq htask.nextId.symm) ?_,
      h.pc⟩
    intro origin task hpc
    rw [htask.pc] at hpc
    exact .inl hpc
  · have hpc := h.pc
    cases mainStep_move hmain with
    | idle hidle hconn hnext ho hinsert =>
      refine ⟨noRegistration_of_silent ?_ (fun k => .inl (by rw [hconn])) (Nat.le_of_eq hnext.symm)
        ?_, .of_idle hidle⟩
      · intro out hout
        rcases ho out hout with ⟨n, rfl⟩ | ⟨packet, rfl⟩
        · simp
        · simp
      · intro origin task hpc'
        rw [hpc'] at hidle
        cases hidle
    | arrive d hd hs hs' =>
      rw [hs']
      exact ⟨noRegistration_of_silent (by simp) (fun _ => .inl rfl) (Nat.le_refl _) (by simp), hd⟩
    | found d info hs hinfo hs' =>
      rw [hs']
      exact ⟨noRegistration_of_silent (by simp) (fun _ => .inl rfl) (Nat.le_refl _) (by simp),
        found_pcId h hP hno hs hinfo⟩
    | missed d hs hnone hs' =>
      rw [hs] at hpc
      rw [hs']
      exact ⟨noRegistration_of_silent (by simp) (fun _ => .inl rfl) (Nat.le_refl _) (by simp), hpc⟩
    | forwarded d info hs hpc' hconn hnext =>
      rw [hs] at hpc
      refine ⟨⟨by simp, fun k => .inl (by rw [hconn]), Nat.le_of_eq hnext.symm,
        by rw [hpc']; simp, ?_, ?_⟩, by rw [hpc']; trivial⟩
      · intro id d' hmem
        simp only [List.mem_singleton, Output.forwarded.injEq] at hmem
        rw [hmem.1]
        exact hpc.1
      · intro id hdr srcIp src buf hmem
        simp only [List.mem_singleton, Output.forwarded.injEq] at hmem
        rw [hmem.1]
        exact hpc.2 hdr srcIp src buf hmem.2.symm
    | minted hdr srcIp src buf hs hpc' hconn hnext =>
      exact ⟨noRegistration_of_silent (by simp) (fun k => .inl (by rw [hconn]))
        (Nat.le_of_eq hnext.symm) (by rw [hpc']; simp), by rw [hpc']; trivial⟩
    | registered hdr srcIp src buf token odcid task hs htoken hvalid hlen hkey _ hid hpc' hconn
        hnext =>
      rw [hs] at hpc
      refine ⟨noRegistration_of_silent (by simp) (fun k => .inl (by rw [hconn])) (by omega) ?_, ?_⟩
      · intro origin task' heq
        rw [hpc'] at heq
        simp only [Pc.insert.injEq] at heq
        rw [← heq.2]
        exact .inr hid
      · rw [hpc']
        exact ⟨hkey, srcIp, hpc.1, validateToken_eq_some.mp hvalid⟩
    | registeredUdp src buf task hs hkey hid hpc' hconn hnext =>
      refine ⟨noRegistration_of_silent (by simp) (fun k => .inl (by rw [hconn])) (by omega) ?_, ?_⟩
      · intro origin task' heq
        rw [hpc'] at heq
        simp only [Pc.insert.injEq] at heq
        rw [← heq.2]
        exact .inr hid
      · rw [hpc']
        trivial
    | inserted origin task hs hpc' hconn hnext => exact absurd rfl (hi origin task hs)

/-- The log of the registrations only grows, so what the main loop knows
stands. -/
theorem NoRegistration.pcId {os o : List Output} {s s' : State C Q}
    (hr : NoRegistration p os s s' o) {pc : Pc Q} (h : PcId p os pc) : PcId p (os ++ o) pc := by
  cases pc with
  | forward info d =>
    obtain ⟨⟨key, origin, hmem⟩, hids⟩ := h
    refine ⟨⟨key, origin, hr.mem_iff.mpr hmem⟩, ?_⟩
    intro hdr srcIp src buf hd key' src' dcid token odcid hins
    exact hids hdr srcIp src buf hd key' src' dcid token odcid (hr.mem_iff.mp hins)
  | lookup d => exact h
  | create d => exact h
  | insert origin task =>
    cases origin with
    | quic src dcid token odcid => exact h
    | udp src => trivial
  | _ => trivial

/-! ## The insert -/

section Insert

variable {os : List Output} {s s' : State C Q} {origin : Origin} {task : Task Q}

/-- The number of the new registration has not been seen before. -/
theorem insert_new (h : IdInv p os s) (hs : s.pc = .insert origin task) (key : Key)
    (origin' : Origin) : .inserted key task.receiver origin' ∉ os := by
  intro hmem
  exact (h.fresh key task.receiver origin' hmem).2 origin task hs rfl

theorem mem_insert_iff {key : Key} {id : Nat} {origin' : Origin} :
    .inserted key id origin' ∈ os ++ [.inserted task.key task.receiver origin] ↔
      .inserted key id origin' ∈ os ∨ (key = task.key ∧ id = task.receiver ∧ origin' = origin) := by
  rw [List.mem_append, List.mem_singleton, Output.inserted.injEq]

/-- After the insert an entry is the new one, or it was there before. -/
theorem live_insert (h : IdInv p os s) (hs : s.pc = .insert origin task)
    (hconn : s'.connections = Function.update s.connections task.key
      (some ⟨task.receiver, task.cancelToken⟩)) {k : Key} {origin' : Origin} :
    Live (os ++ [.inserted task.key task.receiver origin]) s' k origin' ↔
      (k = task.key ∧ origin' = origin) ∨ (k ≠ task.key ∧ Live os s k origin') := by
  unfold Live
  rw [hconn]
  by_cases hk : k = task.key
  · rw [hk, Function.update_self]
    refine ⟨fun ⟨info, hinfo, hmem⟩ => .inl ⟨rfl, ?_⟩, fun hor => ?_⟩
    · rw [← Option.some.inj hinfo] at hmem
      rcases mem_insert_iff.mp hmem with hold | ⟨-, -, horigin⟩
      · exact absurd hold (insert_new h hs _ _)
      · exact horigin
    · rcases hor with ⟨-, rfl⟩ | ⟨hne, -⟩
      · exact ⟨_, rfl, by simp⟩
      · exact absurd rfl hne
  · rw [Function.update_of_ne hk]
    refine ⟨fun ⟨info, hinfo, hmem⟩ => .inr ⟨hk, info, hinfo, ?_⟩, fun hor => ?_⟩
    · rcases mem_insert_iff.mp hmem with hold | ⟨hkey, -, -⟩
      · exact hold
      · exact absurd hkey hk
    · rcases hor with ⟨hkey, -⟩ | ⟨-, info, hinfo, hmem⟩
      · exact absurd hkey hk
      · exact ⟨info, hinfo, List.mem_append_left _ hmem⟩

theorem insert_idInv (h : IdInv p os s) (hs : s.pc = .insert origin task)
    (hreg : RegistryInv p s') (hpc' : s'.pc = .spawn task)
    (hconn : s'.connections = Function.update s.connections task.key
      (some ⟨task.receiver, task.cancelToken⟩)) (hnext : s'.nextId = s.nextId) :
    IdInv p (os ++ [.inserted task.key task.receiver origin]) s' := by
  have hlt : task.receiver < s.nextId := by
    have hok := h.registry.pc
    rw [hs] at hok
    exact hok.1.lt
  refine ⟨hreg, ?_, ?_, ?_, ?_, ?_, by rw [hpc']; trivial⟩
  · intro k info hk
    rw [hconn] at hk
    by_cases hkk : k = task.key
    · rw [hkk, Function.update_self] at hk
      rw [hkk, ← Option.some.inj hk]
      exact ⟨origin, by simp⟩
    · rw [Function.update_of_ne hkk] at hk
      obtain ⟨origin', hmem⟩ := h.entries k info hk
      exact ⟨origin', List.mem_append_left _ hmem⟩
  · intro key id origin' hmem
    rw [hnext, hpc']
    refine ⟨?_, by simp⟩
    rcases mem_insert_iff.mp hmem with hold | ⟨-, rfl, -⟩
    · exact (h.fresh key id origin' hold).1
    · exact hlt
  · intro key key' id origin₁ origin₂ hmem hmem'
    rcases mem_insert_iff.mp hmem with hold | ⟨hkey, hid, horigin⟩
    · rcases mem_insert_iff.mp hmem' with hold' | ⟨-, hid', -⟩
      · exact h.unique key key' id origin₁ origin₂ hold hold'
      · rw [hid'] at hold
        exact absurd hold (insert_new h hs _ _)
    · rcases mem_insert_iff.mp hmem' with hold' | ⟨hkey', -, horigin'⟩
      · rw [hid] at hold'
        exact absurd hold' (insert_new h hs _ _)
      · rw [hkey, hkey', horigin, horigin']
        exact ⟨rfl, rfl⟩
  · intro key id src dcid token odcid hmem
    rcases mem_insert_iff.mp hmem with hold | ⟨-, -, rfl⟩
    · exact h.recovered key id src dcid token odcid hold
    · have hpc := h.pc
      rw [hs] at hpc
      exact hpc.2
  · intro id d hmem
    have hold : .forwarded id d ∈ os := by simpa using hmem
    obtain ⟨key, origin', hins⟩ := h.forwarded id d hold
    exact ⟨key, origin', List.mem_append_left _ hins⟩

/-- A registration that reuses the ID of its Retry keeps the property. -/
theorem insert_retryIds (h : IdInv p os s) (hP : RetryIds p os s)
    (hs : s.pc = .insert origin task)
    (hconn : s'.connections = Function.update s.connections task.key
      (some ⟨task.receiver, task.cancelToken⟩)) (hC : ReusesRetryId p os s .step) :
    RetryIds p (os ++ [.inserted task.key task.receiver origin]) s' := by
  have hkey : ∀ key id src dcid token odcid,
      .inserted key id (.quic src dcid token odcid) ∈
        os ++ [.inserted task.key task.receiver origin] → key = .quic (connId p odcid) := by
    intro key id src dcid token odcid hmem
    rcases mem_insert_iff.mp hmem with hold | ⟨rfl, -, rfl⟩
    · exact hP.key key id src dcid token odcid hold
    · have hpc := h.pc
      rw [hs] at hpc
      rw [hpc.1, (hC src dcid token odcid task hs rfl).1]
  -- a live connection of the new token recovers the same ID, so has its key
  have hold : ∀ k src dcid token odcid odcid', origin = .quic src dcid token odcid →
      ∀ src' dcid', Live os s k (.quic src' dcid' token odcid') → k = task.key := by
    intro k src dcid token odcid odcid' horigin src' dcid' hlive
    rw [horigin] at hs
    obtain ⟨hnew, hfamily⟩ := hC src dcid token odcid task hs rfl
    obtain ⟨hdcid, hrecovered⟩ : task.key = .quic dcid ∧ Recovered p src token odcid := by
      have hpc := h.pc
      rw [hs] at hpc
      exact hpc
    obtain ⟨info, -, hmem⟩ := id hlive
    have hsame := hrecovered.unique (h.recovered _ _ _ _ _ _ hmem)
      (hfamily k src' dcid' odcid' hlive)
    rw [hP.key _ _ _ _ _ _ hmem, hsame, hdcid, hnew]
  refine ⟨hkey, ?_, ?_, ?_⟩
  · intro k k' src src' dcid dcid' token token' odcid hlive hlive'
    obtain ⟨info, -, hmem⟩ := hlive
    obtain ⟨info', -, hmem'⟩ := hlive'
    rw [hkey _ _ _ _ _ _ hmem, hkey _ _ _ _ _ _ hmem']
  · intro k k' src src' dcid dcid' token odcid odcid' hlive hlive'
    rcases (live_insert h hs hconn).mp hlive with ⟨hk, horigin⟩ | ⟨-, hlive₁⟩
    · rcases (live_insert h hs hconn).mp hlive' with ⟨hk', -⟩ | ⟨-, hlive₂⟩
      · rw [hk, hk']
      · rw [hk, hold k' src dcid token odcid odcid' horigin.symm src' dcid' hlive₂]
    · rcases (live_insert h hs hconn).mp hlive' with ⟨hk', horigin⟩ | ⟨-, hlive₂⟩
      · rw [hk', hold k src' dcid' token odcid' odcid horigin.symm src dcid hlive₁]
      · exact hP.perToken k k' src src' dcid dcid' token odcid odcid' hlive₁ hlive₂
  · intro id hdr srcIp src buf hmem key src' dcid token odcid hins
    have hforwarded : .forwarded id (.quic hdr srcIp src buf) ∈ os := by simpa using hmem
    rcases mem_insert_iff.mp hins with hins' | ⟨-, rfl, -⟩
    · exact hP.forwarded id hdr srcIp src buf hforwarded key src' dcid token odcid hins'
    · obtain ⟨key', origin', hknown⟩ := h.forwarded _ _ hforwarded
      exact absurd hknown (insert_new h hs key' origin')

/-- A registration that keeps the property has reused the ID of its Retry: its
key is vacant, so another connection of its token would be a second one. -/
theorem reuses_of_insert (h : IdInv p os s) (hs : s.pc = .insert origin task)
    (hconn : s'.connections = Function.update s.connections task.key
      (some ⟨task.receiver, task.cancelToken⟩))
    (hP' : RetryIds p (os ++ [.inserted task.key task.receiver origin]) s') :
    ReusesRetryId p os s .step := by
  intro src dcid token odcid task' hs' _
  rw [hs] at hs'
  simp only [Pc.insert.injEq] at hs'
  obtain ⟨rfl, rfl⟩ := hs'
  have hdcid : task.key = .quic dcid := by
    have hpc := h.pc
    rw [hs] at hpc
    exact hpc.1
  refine ⟨Key.quic.inj (hdcid.symm.trans
    (hP'.key task.key task.receiver src dcid token odcid (by simp))), ?_⟩
  intro k src' dcid' odcid' hlive
  have hvacant : s.connections task.key = none := by
    have hok := h.registry.pc
    rw [hs] at hok
    exact hok.2
  -- a live connection has an entry, and this key has none
  have hk : k ≠ task.key := by
    intro hk
    obtain ⟨info, hinfo, -⟩ := hlive
    rw [hk, hvacant] at hinfo
    cases hinfo
  exact absurd (hP'.perToken k task.key src' src dcid' dcid token odcid' odcid
    ((live_insert h hs hconn).mpr (.inr ⟨hk, hlive⟩))
    ((live_insert h hs hconn).mpr (.inl ⟨rfl, rfl⟩))) hk

end Insert

/-! ## Every run -/

/-- A step at the insert is the insert. -/
theorem step_insert {s s' : State C Q} {i : Input} {o : List Output} {origin : Origin}
    {task : Task Q} (hs : s.pc = .insert origin task) (hi : i = .step)
    (hstep : step p s i = some (s', o)) :
    s'.pc = .spawn task ∧ s'.connections = Function.update s.connections task.key
      (some ⟨task.receiver, task.cancelToken⟩) ∧ s'.nextId = s.nextId ∧
      o = [.inserted task.key task.receiver origin] := by
  subst hi
  simp only [step, mainStep, hs] at hstep
  obtain ⟨rfl, rfl⟩ := Prod.mk.inj (Option.some.inj hstep)
  exact ⟨rfl, rfl, rfl, rfl⟩

theorem step_idInv {os : List Output} {s s' : State C Q} {i : Input} {o : List Output}
    (h : IdInv p os s) (hP : RetryIds p os s) (hno : NoCollision p os s i)
    (hstep : step p s i = some (s', o)) : IdInv p (os ++ o) s' := by
  have hreg := (step_ok h.registry hstep).inv
  by_cases hi : ∃ origin task, s.pc = .insert origin task ∧ i = .step
  · obtain ⟨origin, task, hs, hi⟩ := hi
    obtain ⟨hpc', hconn, hnext, rfl⟩ := step_insert hs hi hstep
    exact insert_idInv h hs hreg hpc' hconn hnext
  · obtain ⟨hr, hpc⟩ := step_noRegistration h hP hno hstep
      fun origin task hs heq => hi ⟨origin, task, hs, heq⟩
    exact hr.idInv h hreg (hr.pcId hpc)

theorem step_retryIds_iff {os : List Output} {s s' : State C Q} {i : Input} {o : List Output}
    (h : IdInv p os s) (hP : RetryIds p os s) (hno : NoCollision p os s i)
    (hstep : step p s i = some (s', o)) :
    RetryIds p (os ++ o) s' ↔ ReusesRetryId p os s i := by
  by_cases hi : ∃ origin task, s.pc = .insert origin task ∧ i = .step
  · obtain ⟨origin, task, hs, hi⟩ := hi
    obtain ⟨-, hconn, -, rfl⟩ := step_insert hs hi hstep
    rw [hi]
    exact ⟨fun hP' => reuses_of_insert h hs hconn hP', fun hC => insert_retryIds h hP hs hconn hC⟩
  · obtain ⟨hr, -⟩ := step_noRegistration h hP hno hstep
      fun origin task hs heq => hi ⟨origin, task, hs, heq⟩
    exact ⟨fun _ src dcid token odcid task hs heq => absurd ⟨_, task, hs, heq⟩ hi,
      fun _ => hr.retryIds hP⟩

/-- **When registrations use the ID of the Retry**: in every run in which the
derived IDs do not collide, `RetryIds` holds in every state if and only if
every registering datagram has the destination ID that a Retry hands out for
the ID its token recovers, and no live connection was registered by the same
token from the other address family. -/
theorem retryIds_iff {quicConfig : C} {is : List Input} {s : State C Q} {os : List Output}
    (hno : AllSteps (step p) (NoCollision p) [] (State.init quicConfig) is)
    (hr : run (step p) (State.init quicConfig) is = some (s, os)) :
    AllStates (step p) (RetryIds p) [] (State.init quicConfig) is ↔
      AllSteps (step p) (ReusesRetryId p) [] (State.init quicConfig) is := by
  refine @allStates_iff _ _ _ (step p) (NoCollision p) (ReusesRetryId p) (IdInv p) (RetryIds p)
    ?_ ?_ is [] os _ s ?_ ?_ hno hr
  · intro os s i s' o h hP hno _ hstep
    exact step_idInv h hP hno hstep
  · intro os s i s' o h hP hno hstep
    exact step_retryIds_iff h hP hno hstep
  · refine ⟨registryInv_init quicConfig, ?_, by simp, by simp, by simp, by simp, trivial⟩
    intro k info hk
    cases hk
  · refine ⟨by simp, ?_, ?_, by simp⟩
    · intro k k' src src' dcid dcid' token token' odcid hlive
      obtain ⟨info, hk, -⟩ := hlive
      cases hk
    · intro k k' src src' dcid dcid' token odcid odcid' hlive
      obtain ⟨info, hk, -⟩ := hlive
      cases hk

/-- The client takes the token of its Retry to a connection under an ID of its
own, and then to one under the ID of the Retry. -/
private def twoConnections : List Input :=
  [.recvFrom (sampleInitial sampleOdcid []) (sampleClient 1), .step, .step,
    .recvFrom (sampleInitial sampleOwnId sampleToken) (sampleClient 1), .step, .step, .step, .step,
    .recvFrom (sampleInitial (connId sampleProxy sampleOdcid) sampleToken) (sampleClient 1),
    .step, .step, .step]

/-- The honest client. -/
private def oneConnection : List Input :=
  [.recvFrom (sampleInitial sampleOdcid []) (sampleClient 1), .step, .step,
    .recvFrom (sampleInitial (connId sampleProxy sampleOdcid) sampleToken) (sampleClient 1),
    .step, .step, .step]

/-- A connection that goes back to the Retry, under an ID. -/
private def sampleOrigin (dcid : Bytes) : Origin :=
  .quic (sampleClient 1) dcid sampleToken sampleOdcid

theorem retryIds_iff_sample :
    ∃ s os, run (step sampleProxy) (State.init ()) oneConnection = some (s, os) ∧
      (AllStates (step sampleProxy) (RetryIds sampleProxy) [] (State.init ()) oneConnection ↔
        AllSteps (step sampleProxy) (ReusesRetryId sampleProxy) [] (State.init ())
          oneConnection) := by
  have hrun : (run (step sampleProxy) (State.init ()) oneConnection).isSome := by decide +kernel
  obtain ⟨⟨s, os⟩, hr⟩ := Option.isSome_iff_exists.mp hrun
  exact ⟨s, os, hr, retryIds_iff (by decide +kernel) hr⟩

/-- One token, two live connections, one of them under an ID that no Retry
handed out; no two IDs of the run collide. -/
theorem token_registers_twice :
    AllSteps (step sampleProxy) (NoCollision sampleProxy) [] (State.init ()) twoConnections ∧
    ∃ s os, run (step sampleProxy) (State.init ()) twoConnections = some (s, os) ∧
      Live os s (.quic sampleOwnId) (sampleOrigin sampleOwnId) ∧
      Live os s (.quic (connId sampleProxy sampleOdcid))
        (sampleOrigin (connId sampleProxy sampleOdcid)) ∧
      sampleOwnId ≠ connId sampleProxy sampleOdcid ∧
      ¬RetryIds sampleProxy os s := by
  have hrun : (run (step sampleProxy) (State.init ()) twoConnections).map
      (fun r => (r.2, r.1.connections (.quic sampleOwnId),
        r.1.connections (.quic (connId sampleProxy sampleOdcid)))) =
      some ([.minted (sampleClient 1) sampleOdcid sampleToken,
        .inserted (.quic sampleOwnId) 0 (sampleOrigin sampleOwnId),
        .inserted (.quic (connId sampleProxy sampleOdcid)) 1
          (sampleOrigin (connId sampleProxy sampleOdcid))],
        some ⟨0, 0⟩, some ⟨1, 1⟩) := by decide +kernel
  obtain ⟨⟨s, os⟩, hr, heq⟩ := Option.map_eq_some_iff.mp hrun
  simp only [Prod.mk.injEq] at heq
  obtain ⟨hos, hown, hretry⟩ := heq
  have hne : sampleOwnId ≠ connId sampleProxy sampleOdcid := by decide +kernel
  have hlive : Live os s (.quic sampleOwnId) (sampleOrigin sampleOwnId) :=
    ⟨_, hown, by rw [hos]; simp⟩
  have hlive' : Live os s (.quic (connId sampleProxy sampleOdcid))
      (sampleOrigin (connId sampleProxy sampleOdcid)) := ⟨_, hretry, by rw [hos]; simp⟩
  refine ⟨by decide +kernel, s, os, hr, hlive, hlive', hne, fun h => hne ?_⟩
  exact Key.quic.inj (h.perToken _ _ _ _ _ _ _ _ _ hlive hlive')

end MqttScion.Proxy
