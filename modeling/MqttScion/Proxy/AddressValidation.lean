import MqttScion.Net.QuicWire
import MqttScion.Proxy.Dispatch

/-!
# What the Retry token validates

The token of a Retry is bound to the IP address of its receiver. The address
that replies go to is a SCION address: the handler's `Config` takes its ISD-AS
from the datagram that registers the connection, and everything the handler
queues goes there (`QuicMode.run_routed`). So a token handed to a host in one
ISD-AS validates for the host of the same IP address in any other.

`TokenInv` is what the main loop knows: every Retry token sent is the tag of
the octets and the ID it was minted for, and the registration under way has a
token whose data the proxy has signed before. HMAC is idealised by `Unforged`,
a condition on the steps of the run: a token in a datagram verifies only if
its data was signed.

> `sourceBound_iff`: every registration of the run was preceded by a Retry with
> that token to its own ISD-AS exactly when, at each registration, the sources
> sent a Retry for the same octets and ID included one of that ISD-AS.
-/

namespace MqttScion.Proxy

open MqttScion.Net MqttScion.Lib

variable {K C Q : Type}

/-! ## Retries in the log -/

/-- The sources that were sent a Retry whose token covers this data. -/
def retriedTo (os : List Output) (data : Bytes) : List ScionAddr :=
  os.filterMap fun out => match out with
    | .minted src dcid _ =>
      match src.localAddress with
      | some srcIp => if tokenData srcIp.ip dcid = data then some src else none
      | none => none
    | _ => none

theorem mem_retriedTo {os : List Output} {data : Bytes} {src : ScionAddr} :
    src ∈ retriedTo os data ↔ ∃ srcIp dcid token, .minted src dcid token ∈ os ∧
      src.localAddress = some srcIp ∧ tokenData srcIp.ip dcid = data := by
  unfold retriedTo
  rw [List.mem_filterMap]
  refine ⟨fun ⟨out, hmem, hout⟩ => ?_, fun ⟨srcIp, dcid, token, hmem, hsrc, hdata⟩ => ?_⟩
  · split at hout
    · next src' dcid token =>
      split at hout
      · next srcIp hsrc =>
        split at hout
        · next hdata =>
          obtain rfl := Option.some.inj hout
          exact ⟨srcIp, dcid, token, hmem, hsrc, hdata⟩
        · cases hout
      · cases hout
    · cases hout
  · refine ⟨_, hmem, ?_⟩
    simp only [hsrc]
    exact if_pos hdata

/-! ## The property, the condition and the assumption -/

/-- The registration was preceded by a Retry with its token to a source in its
ISD-AS. -/
def BoundToIsdAs (pre : List Output) : Output → Prop
  | .inserted _ _ (.quic src _ token _) =>
    ∃ src' dcid, .minted src' dcid token ∈ pre ∧ src'.isdAsn = src.isdAsn
  | _ => True

/-- Every registration so far was. -/
def SourceBound (os : List Output) : Prop := LogAll BoundToIsdAs os

/-- If the step registers a connection: when any source was sent a Retry for
the octets and the ID its token decodes to, then one in its own ISD-AS was. -/
def RetriedInIsdAs (os : List Output) (s : State C Q) (i : Input) : Prop :=
  match s.pc, i with
  | .insert (.quic src _ _ odcid) _, .step =>
    match src.localAddress with
    | some srcIp => retriedTo os (tokenData srcIp.ip odcid) ≠ [] →
        ∃ src' ∈ retriedTo os (tokenData srcIp.ip odcid), src'.isdAsn = src.isdAsn
    | none => True
  | _, _ => True

/-- The token in the Initial at hand. -/
def Pc.token : Pc Q → Option Bytes
  | .create (.quic hdr _ _ _) => hdr.token
  | _ => none

/-- The tag of the token in the datagram at hand verifies only for data the
proxy has signed. -/
def Unforged (p : Env K C Q) (os : List Output) (s : State C Q) (_ : Input) : Prop :=
  ∀ token ∈ s.pc.token,
    p.hmac.verify p.tokenKey (token.take (token.length - hmacTagLen))
      (token.drop (token.length - hmacTagLen)) = true →
    retriedTo os (token.take (token.length - hmacTagLen)) ≠ []

instance (p : Env K C Q) (os : List Output) (s : State C Q) (i : Input) :
    Decidable (Unforged p os s i) :=
  inferInstanceAs (Decidable (∀ token ∈ s.pc.token, _))

/-! ## The invariant -/

/-- The token for this data. -/
def signedToken (p : Env K C Q) (data : Bytes) : Bytes := data ++ p.hmac.sign p.tokenKey data

/-- What the main loop knows of the datagram it is handling. -/
def PcToken (p : Env K C Q) (os : List Output) : Pc Q → Prop
  | .lookup d => d.WellFormed p
  | .create d => d.WellFormed p
  | .insert (.quic src _ token odcid) _ => ∃ srcIp, src.localAddress = some srcIp ∧
      token = signedToken p (tokenData srcIp.ip odcid) ∧
      retriedTo os (tokenData srcIp.ip odcid) ≠ []
  | _ => True

structure TokenInv (p : Env K C Q) (os : List Output) (s : State C Q) : Prop where
  minted : ∀ src dcid token, .minted src dcid token ∈ os →
    ∃ srcIp, src.localAddress = some srcIp ∧ token = signedToken p (tokenData srcIp.ip dcid)
  pc : PcToken p os s.pc

variable {p : Env K C Q}

theorem PcToken.of_idle {os : List Output} {pc : Pc Q} (h : pc.idle = true) : PcToken p os pc := by
  cases pc with
  | insert origin task => cases h
  | lookup d => cases h
  | create d => cases h
  | _ => trivial

/-- A token that validates has its data in front of its tag. -/
theorem unforged_token {os : List Output} {s : State C Q} {i : Input} {hdr : Header}
    {srcIp : SocketAddr} {src : ScionAddr} {buf token odcid : Bytes}
    (hun : Unforged p os s i) (hs : s.pc = .create (.quic hdr srcIp src buf))
    (htoken : hdr.token = some token)
    (hvalid : validateToken p.hmac p.tokenKey srcIp token = .ok (some odcid)) :
    token = signedToken p (tokenData srcIp.ip odcid) ∧
      retriedTo os (tokenData srcIp.ip odcid) ≠ [] := by
  have hgrammar : token = signedToken p (tokenData srcIp.ip odcid) :=
    validateToken_eq_some.mp hvalid
  -- the cut of `validate_token` is where the data ends and the tag begins
  have hcut : token.length - hmacTagLen = (tokenData srcIp.ip odcid).length := by
    rw [hgrammar, signedToken, List.length_append, p.hmac.sign_length, Nat.add_sub_cancel]
  have hdata : token.take (token.length - hmacTagLen) = tokenData srcIp.ip odcid := by
    rw [hcut, hgrammar, signedToken, List.take_left]
  have htag : token.drop (token.length - hmacTagLen) =
      p.hmac.sign p.tokenKey (tokenData srcIp.ip odcid) := by
    rw [hcut, hgrammar, signedToken, List.drop_left]
  refine ⟨hgrammar, ?_⟩
  have hretried := hun token (by rw [hs]; exact htoken)
  rw [hdata, htag] at hretried
  exact hretried (Hmac.verify_iff.mpr rfl)

theorem step_tokenInv {os : List Output} {s s' : State C Q} {i : Input} {o : List Output}
    (h : TokenInv p os s) (hun : Unforged p os s i) (hstep : step p s i = some (s', o)) :
    TokenInv p (os ++ o) s' := by
  -- all but `minted` leave the Retries as they are
  have hkeep : (∀ src dcid token, .minted src dcid token ∉ o) →
      ∀ src dcid token, .minted src dcid token ∈ os ++ o → ∃ srcIp,
        src.localAddress = some srcIp ∧ token = signedToken p (tokenData srcIp.ip dcid) := by
    intro hno src dcid token hmem
    rcases List.mem_append.mp hmem with hold | hnew
    · exact h.minted src dcid token hold
    · exact absurd hnew (hno src dcid token)
  rcases step_cases hstep with htask | hmain
  · rw [htask.output, List.append_nil]
    exact ⟨h.minted, by rw [htask.pc]; exact h.pc⟩
  · have hpc := h.pc
    cases mainStep_move hmain with
    | idle hidle hconn hnext ho hinsert =>
      refine ⟨hkeep fun src dcid token hmem => ?_, ?_⟩
      · rcases ho _ hmem with ⟨n, hn⟩ | ⟨packet, hpacket⟩
        · cases hn
        · cases hpacket
      · exact .of_idle hidle
    | arrive d hd hs hs' =>
      rw [hs', List.append_nil]
      exact ⟨h.minted, hd⟩
    | found d info hs hinfo hs' =>
      rw [hs', List.append_nil]
      exact ⟨h.minted, trivial⟩
    | missed d hs hnone hs' =>
      rw [hs] at hpc
      rw [hs', List.append_nil]
      exact ⟨h.minted, hpc⟩
    | forwarded d info hs hpc' hconn hnext =>
      exact ⟨hkeep (by simp), by rw [hpc']; trivial⟩
    | minted hdr srcIp src buf hs hpc' hconn hnext =>
      rw [hs] at hpc
      refine ⟨fun src' dcid' token' hmem => ?_, by rw [hpc']; trivial⟩
      rcases List.mem_append.mp hmem with hold | hnew
      · exact h.minted src' dcid' token' hold
      · cases List.mem_singleton.mp hnew
        exact ⟨srcIp, hpc.1, rfl⟩
    | registered hdr srcIp src buf token odcid task hs htoken hvalid hlen hkey _ hid hpc' hconn =>
      rw [hs] at hpc
      obtain ⟨hgrammar, hretried⟩ := unforged_token hun hs htoken hvalid
      rw [List.append_nil]
      exact ⟨h.minted, by rw [hpc']; exact ⟨srcIp, hpc.1, hgrammar, hretried⟩⟩
    | registeredUdp src buf task hs hkey hid hpc' hconn =>
      rw [List.append_nil]
      exact ⟨h.minted, by rw [hpc']; trivial⟩
    | inserted origin task hs hpc' hconn hnext =>
      exact ⟨hkeep (by simp), by rw [hpc']; trivial⟩

/-- At a registration: a Retry with the token went to the ISD-AS exactly when a
Retry for the same octets and ID did. -/
theorem bound_iff_retried {os : List Output} {s : State C Q} (h : TokenInv p os s)
    {origin : Origin} {task : Task Q} (hs : s.pc = .insert origin task) :
    BoundToIsdAs os (.inserted task.key task.receiver origin) ↔ RetriedInIsdAs os s .step := by
  have hpc := h.pc
  rw [hs] at hpc
  cases origin with
  | udp src => simp [BoundToIsdAs, RetriedInIsdAs, hs]
  | quic src _ token odcid =>
    obtain ⟨srcIp, hsrc, htoken, hretried⟩ := hpc
    simp only [BoundToIsdAs, RetriedInIsdAs, hs, hsrc]
    refine ⟨fun ⟨src', dcid, hmem, hia⟩ _ => ?_, fun hcond => ?_⟩
    · obtain ⟨srcIp', hsrc', htoken'⟩ := h.minted src' dcid token hmem
      -- equal tokens have equal data, since the tags are equally long
      have hdata : tokenData srcIp'.ip dcid = tokenData srcIp.ip odcid := by
        rw [htoken, signedToken, signedToken] at htoken'
        exact (List.append_inj' htoken' (by rw [p.hmac.sign_length, p.hmac.sign_length])).1.symm
      exact ⟨src', mem_retriedTo.mpr ⟨srcIp', dcid, token, hmem, hsrc', hdata⟩, hia⟩
    · obtain ⟨src', hmem, hia⟩ := hcond hretried
      obtain ⟨srcIp', dcid, token', hminted, hsrc', hdata⟩ := mem_retriedTo.mp hmem
      obtain ⟨srcIp'', hsrc'', htoken'⟩ := h.minted src' dcid token' hminted
      rw [hsrc'] at hsrc''
      rw [← Option.some.inj hsrc'', hdata, ← htoken] at htoken'
      rw [htoken'] at hminted
      exact ⟨src', dcid, hminted, hia⟩

/-- Every other output meets the property anyway. -/
theorem step_sourceBound_iff {os : List Output} {s s' : State C Q} {i : Input} {o : List Output}
    (h : TokenInv p os s) (hstep : step p s i = some (s', o)) :
    SourceBound (os ++ o) ↔ SourceBound os ∧ RetriedInIsdAs os s i := by
  have htrivial : (∀ x ∈ o, ∀ pre, BoundToIsdAs pre x) → RetriedInIsdAs os s i →
      (SourceBound (os ++ o) ↔ SourceBound os ∧ RetriedInIsdAs os s i) := by
    intro ho hcond
    rw [SourceBound, logAll_append_of_trivial ho]
    exact (and_iff_left hcond).symm
  have hother : (∀ origin task, s.pc = .insert origin task → i ≠ .step) →
      RetriedInIsdAs os s i := by
    intro hne
    unfold RetriedInIsdAs
    split
    · next hs => exact absurd rfl (hne _ _ hs)
    · trivial
  -- only the insert logs a registration, and only there the condition bites
  rcases step_cases hstep with htask | hmain
  · exact htrivial (by rw [htask.output]; simp) (hother fun _ _ _ => htask.step)
  · cases mainStep_move hmain with
    | inserted origin task hs hpc' hconn hnext =>
      rw [SourceBound, logAll_append_singleton, bound_iff_retried h hs]
      rfl
    | idle hidle hconn hnext ho hinsert =>
      refine htrivial ?_ (hother fun origin task hs => absurd hs (hinsert origin task))
      intro x hx pre
      rcases ho x hx with ⟨n, rfl⟩ | ⟨packet, rfl⟩
      · trivial
      · trivial
    | arrive d hd hs hs' => exact htrivial (by simp) (hother (by rw [hs]; simp))
    | found d info hs hinfo hs' => exact htrivial (by simp) (hother (by rw [hs]; simp))
    | missed d hs hnone hs' => exact htrivial (by simp) (hother (by rw [hs]; simp))
    | forwarded d info hs hpc' hconn hnext =>
      exact htrivial (by simp [BoundToIsdAs]) (hother (by rw [hs]; simp))
    | minted hdr srcIp src buf hs hpc' hconn hnext =>
      exact htrivial (by simp [BoundToIsdAs]) (hother (by rw [hs]; simp))
    | registered hdr srcIp src buf token odcid task hs htoken hvalid hlen hkey _ hid hpc' hconn =>
      exact htrivial (by simp) (hother (by rw [hs]; simp))
    | registeredUdp src buf task hs hkey hid hpc' hconn =>
      exact htrivial (by simp) (hother (by rw [hs]; simp))

/-- **When address validation binds the SCION source**: in every run in which
no tag is forged, every registration was preceded by a Retry with its token to
its own ISD-AS, if and only if at each registration the sources that were sent
a Retry for the octets and ID of its token, if there are any, include one of
its ISD-AS. -/
theorem sourceBound_iff {quicConfig : C} {is : List Input} {s : State C Q} {os : List Output}
    (hun : AllSteps (step p) (Unforged p) [] (State.init quicConfig) is)
    (hr : run (step p) (State.init quicConfig) is = some (s, os)) :
    SourceBound os ↔ AllSteps (step p) RetriedInIsdAs [] (State.init quicConfig) is := by
  refine @run_iff_assuming _ _ _ (step p) (Unforged p) RetriedInIsdAs (TokenInv p)
    (fun os _ => SourceBound os) is os _ s ?_ (logAll_nil _) ?_ ?_ hun hr
  · exact ⟨(fun _ _ _ hmem => by simp at hmem), trivial⟩
  · intro os s i s' o h hun hstep
    exact step_tokenInv h hun hstep
  · intro os s i s' o h _ hstep
    exact step_sourceBound_iff h hstep

/-! ## Two clients of one IP address -/

/-- The two keys of the proxy below, the bytes 00 .. 1f and 20 .. 3f. -/
def sampleTokenKey : Bytes := (List.range 32).map Nat.toUInt8

def sampleConnIdSeed : Bytes := (List.range 32).map fun n => (n + 32).toUInt8

/-- 10.0.0.7, an address that every network may use. -/
def sampleIp : IpAddr := .ipv4 10 0 0 7

def sampleOdcid : Bytes := [1, 2, 3, 4, 5, 6, 7, 8]

/-- Twenty bytes of a client's own choice. -/
def sampleOwnId : Bytes := (List.range 20).map fun n => (0xc0 + n).toUInt8

/-- HMAC-SHA256 on the inputs signed below. -/
def sampleHmac : Hmac Bytes :=
  Hmac.ofTable
    [((sampleTokenKey, tokenData sampleIp sampleOdcid),
      #v[0x8a, 0x73, 0xf1, 0x41, 0x6a, 0xa0, 0x49, 0x4d, 0xc8, 0x73, 0x41, 0xd3, 0x25, 0xbf,
        0xf1, 0x7b, 0xd6, 0x25, 0x78, 0xe2, 0x17, 0x71, 0x19, 0x1c, 0xbf, 0xb2, 0xc5, 0x4b,
        0x9b, 0xf3, 0x4f, 0xbb]),
     ((sampleConnIdSeed, sampleOdcid),
      #v[0x88, 0xb4, 0xe0, 0x77, 0x61, 0x66, 0x35, 0xf8, 0xd2, 0xfc, 0xa9, 0x7c, 0xa6, 0x43,
        0xaa, 0x40, 0x53, 0xb3, 0x90, 0x68, 0xf0, 0x4b, 0x62, 0x43, 0x00, 0x8b, 0x26, 0xea,
        0x69, 0xb0, 0x3f, 0xa4]),
     ((sampleConnIdSeed, [0x88, 0xb4, 0xe0, 0x77, 0x61, 0x66, 0x35, 0xf8, 0xd2, 0xfc, 0xa9, 0x7c,
        0xa6, 0x43, 0xaa, 0x40, 0x53, 0xb3, 0x90, 0x68]),
      #v[0xb6, 0x04, 0x45, 0xbc, 0x0e, 0x27, 0xf4, 0x94, 0x1f, 0xcf, 0x71, 0xa4, 0x07, 0xf5,
        0xe8, 0x7a, 0xcf, 0x1d, 0x5d, 0x56, 0x9f, 0xa2, 0x96, 0x43, 0x37, 0x1c, 0x4a, 0xe9,
        0x91, 0xb1, 0x15, 0x98]),
     ((sampleConnIdSeed, sampleOwnId),
      #v[0xf2, 0x17, 0x3c, 0x4e, 0xec, 0xc0, 0x06, 0xec, 0xb2, 0xf6, 0x74, 0x4d, 0x8e, 0x95,
        0xaa, 0x4f, 0xce, 0x20, 0x80, 0x73, 0xa8, 0xa6, 0x96, 0x5d, 0xc7, 0x9f, 0x3a, 0x13,
        0x5f, 0x49, 0x4e, 0xa2])]

/-- The integrity tag of the one Retry packet sent below. -/
def sampleRetryTag : Bytes → Bytes → Vector UInt8 16 := fun _ _ =>
  #v[0xcb, 0xba, 0x05, 0x6e, 0xc7, 0x73, 0xb3, 0xae, 0x2e, 0x3a, 0xad, 0x8b, 0xe8, 0xcd, 0x28, 0xcc]

def sampleProxy : Env Bytes Unit SendWindow where
  hmac := sampleHmac
  quiche := wireServer sampleRetryTag
  mode := .quicEndpoint
  mqttBrokerAddress := ⟨.ipv4 127 0 0 1, 1883⟩
  tokenKey := sampleTokenKey
  connIdSeed := sampleConnIdSeed
  localScionAddr := ⟨3, .ip (.ipv4 10 0 0 2), 4433⟩
  localAddr := ⟨.ipv4 10 0 0 2, 4433⟩
  localAddr_eq := rfl

/-- The token of that Retry. -/
def sampleToken : Bytes := signedToken sampleProxy (tokenData sampleIp sampleOdcid)

/-- An Initial of version 1, up to its token. -/
def sampleInitial (dcid token : Bytes) : Bytes :=
  0xc0 :: versionBytes wireVersion ++ cidBytes dcid ++ cidBytes [0xa1, 0xa2] ++ cidBytes token

/-- The host `sampleIp` of an ISD-AS. -/
def sampleClient (isdAsn : IsdAsn) : ScionAddr := ⟨isdAsn, .ip sampleIp, 4433⟩

/-- A Retry to the client in ISD-AS 1, and its token back from ISD-AS `isdAsn`
with the connection ID of the Retry. -/
private def retryThenInitial (isdAsn : IsdAsn) : List Input :=
  [.recvFrom (sampleInitial sampleOdcid []) (sampleClient 1), .step, .step,
    .recvFrom (sampleInitial (connId sampleProxy sampleOdcid) sampleToken) (sampleClient isdAsn),
    .step, .step, .step]

private theorem retryThenInitial_run {isdAsn : IsdAsn} {os : List Output}
    (h : (run (step sampleProxy) (State.init ()) (retryThenInitial isdAsn)).map (fun r => r.2) =
      some os) :
    ∃ s, run (step sampleProxy) (State.init ()) (retryThenInitial isdAsn) = some (s, os) := by
  obtain ⟨⟨s, os'⟩, hr, hos⟩ := Option.map_eq_some_iff.mp h
  rw [← hos]
  exact ⟨s, hr⟩

theorem sourceBound_iff_sample :
    ∃ s os, run (step sampleProxy) (State.init ()) (retryThenInitial 1) = some (s, os) ∧
      (SourceBound os ↔
        AllSteps (step sampleProxy) RetriedInIsdAs [] (State.init ()) (retryThenInitial 1)) := by
  obtain ⟨s, hr⟩ := @retryThenInitial_run 1
    [.minted (sampleClient 1) sampleOdcid sampleToken,
      .inserted (.quic (connId sampleProxy sampleOdcid)) 0
        (.quic (sampleClient 1) (connId sampleProxy sampleOdcid) sampleToken sampleOdcid)]
      (by decide +kernel)
  exact ⟨s, _, hr, sourceBound_iff (by decide +kernel) hr⟩

/-- The token that went to a client in ISD-AS 1 registers a connection for the
host of the same address in ISD-AS 2; no tag was forged. -/
theorem token_crosses_isdAs :
    AllSteps (step sampleProxy) (Unforged sampleProxy) [] (State.init ()) (retryThenInitial 2) ∧
    ∃ s os, run (step sampleProxy) (State.init ()) (retryThenInitial 2) = some (s, os) ∧
      ¬SourceBound os := by
  obtain ⟨s, hr⟩ := @retryThenInitial_run 2
    [.minted (sampleClient 1) sampleOdcid sampleToken,
      .inserted (.quic (connId sampleProxy sampleOdcid)) 0
        (.quic (sampleClient 2) (connId sampleProxy sampleOdcid) sampleToken sampleOdcid)]
      (by decide +kernel)
  refine ⟨by decide +kernel, s, _, hr, fun hbound => ?_⟩
  obtain ⟨src, dcid, hmem, hia⟩ := hbound [_] _ [] rfl
  cases List.mem_singleton.mp hmem
  exact absurd hia (by decide)

end MqttScion.Proxy
