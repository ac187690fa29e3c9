import Mathlib.Algebra.Group.Nat.Defs
import MqttScion.Net.Quic

/-!
# QUIC packets before a connection exists

What is documented of the packet-level calls of `quiche`, as one structure
`QuicheServerLaw`: an Initial carries a token, connection IDs are as long as
one length byte allows and at most 20 bytes in a supported version, and the two
stateless answers fail only when they do not fit the output buffer. `RetryLaw`:
what is put into a Retry packet is read from it.

`wireServer` is a server that meets it: it reads and writes the invariant
header fields of version 1 as on the wire. The integrity tag of a Retry packet
is a parameter, and the connections it accepts take every datagram.
-/

namespace MqttScion.Net

/-- What the proxy may rely on before a connection exists. -/
structure QuicheServerLaw {C Q : Type} (qs : QuicheServer C Q) : Prop where
  initial_token : ∀ b hdr, qs.headerFromSlice b maxConnIdLen = .ok hdr → hdr.ty = .initial →
    hdr.token.isSome
  cid_length : ∀ b hdr, qs.headerFromSlice b maxConnIdLen = .ok hdr →
    hdr.dcid.length ≤ 255 ∧ hdr.scid.length ≤ 255
  cid_length_supported : ∀ b hdr, qs.headerFromSlice b maxConnIdLen = .ok hdr →
    qs.versionIsSupported hdr.version = true →
      hdr.dcid.length ≤ maxConnIdLen ∧ hdr.scid.length ≤ maxConnIdLen
  negotiateVersion_fits : ∀ scid dcid, 7 + scid.length + dcid.length + 4 * 8 ≤ maxDatagramSize →
    ∃ out, qs.negotiateVersion scid dcid = .ok out
  retry_fits : ∀ scid dcid newScid token version, qs.versionIsSupported version = true →
    newScid.length = maxConnIdLen → 43 + scid.length + token.length ≤ maxDatagramSize →
      ∃ out, qs.retry scid dcid newScid token version = .ok out

/-- A Retry packet addresses the sender of the Initial and carries the ID and
the token it was made with. -/
def RetryLaw {C Q : Type} (qs : QuicheServer C Q) : Prop :=
  ∀ scid dcid newScid token version out, scid.length ≤ maxConnIdLen →
    newScid.length ≤ maxConnIdLen → qs.retry scid dcid newScid token version = .ok out →
      qs.headerFromSlice out maxConnIdLen = .ok ⟨.retry, version, scid, newScid, some token⟩

/-- How long an Initial header is at least, and how long the answers are. One
version is offered. -/
structure AnswerSizeLaw {C Q : Type} (qs : QuicheServer C Q) : Prop where
  header : ∀ b hdr token, qs.headerFromSlice b maxConnIdLen = .ok hdr → hdr.ty = .initial →
    hdr.token = some token →
      8 + hdr.dcid.length + hdr.scid.length + token.length ≤ b.length
  negotiateVersion : ∀ scid dcid out, qs.negotiateVersion scid dcid = .ok out →
    out.length = 7 + scid.length + dcid.length + 4
  retry : ∀ scid dcid newScid token version out, newScid.length = maxConnIdLen →
    qs.retry scid dcid newScid token version = .ok out →
      out.length = 7 + scid.length + 20 + token.length + 16

/-! ## Reading a header -/

def QuicheError.bufferTooShort : QuicheError := .other 1

def QuicheError.invalidPacket : QuicheError := .other 4

/-- Take `n` bytes off the front. -/
def getBytes (n : Nat) (b : Bytes) : Except QuicheError (Bytes × Bytes) :=
  if n ≤ b.length then .ok (b.take n, b.drop n) else .error .bufferTooShort

/-- A big-endian number. -/
def beNat (b : Bytes) : Nat := b.foldl (fun n x => n * 256 + x.toNat) 0

/-- A connection ID behind its length byte. -/
def getCid (supported : Bool) (b : Bytes) : Except QuicheError (Bytes × Bytes) :=
  match b with
  | [] => .error .bufferTooShort
  | n :: b =>
    if supported && maxConnIdLen < n.toNat then .error .invalidPacket else getBytes n.toNat b

/-- A byte string behind its length, a variable-length integer. -/
def getVarintBytes (b : Bytes) : Except QuicheError (Bytes × Bytes) :=
  match b with
  | [] => .error .bufferTooShort
  | x :: _ =>
    match getBytes (2 ^ (x.toNat / 64)) b with
    | .error e => .error e
    | .ok (n, rest) => getBytes (beNat n % 2 ^ (8 * 2 ^ (x.toNat / 64) - 2)) rest

/-- The packet type in the first byte of a long header. -/
def longType (first : UInt8) (version : UInt32) : PacketType :=
  if version = 0 then .versionNegotiation
  else match first.toNat / 16 % 4 with
    | 0 => .initial
    | 1 => .zeroRtt
    | 2 => .handshake
    | _ => .retry

/-- The version this server speaks. -/
def wireVersion : UInt32 := 1

/-- The length of the integrity tag at the end of a Retry packet. -/
def retryTagLen : Nat := 16

/-- `Header::from_slice`. -/
def wireHeader (b : Bytes) (dcidLen : Nat) : Except QuicheError Header :=
  match b with
  | [] => .error .bufferTooShort
  | first :: b =>
    if first.toNat < 128 then
      match getBytes dcidLen b with
      | .error e => .error e
      | .ok (dcid, _) => .ok ⟨.short, 0, dcid, [], none⟩
    else
      match getBytes 4 b with
      | .error e => .error e
      | .ok (v, b) =>
        let version := (beNat v).toUInt32
        let supported : Bool := version = wireVersion
        match getCid supported b with
        | .error e => .error e
        | .ok (dcid, b) =>
          match getCid supported b with
          | .error e => .error e
          | .ok (scid, b) =>
            match longType first version with
            | .initial =>
              match getVarintBytes b with
              | .error e => .error e
              | .ok (token, _) => .ok ⟨.initial, version, dcid, scid, some token⟩
            | .retry =>
              if b.length < retryTagLen then .error .invalidPacket
              else .ok ⟨.retry, version, dcid, scid, some (b.take (b.length - retryTagLen))⟩
            | ty => .ok ⟨ty, version, dcid, scid, none⟩

/-- `get_bytes` returns as many bytes as it was asked for. -/
theorem getBytes_length {n : Nat} {b x rest : Bytes} (h : getBytes n b = .ok (x, rest)) :
    x.length = n := by
  unfold getBytes at h
  split at h
  · next hn =>
    obtain ⟨rfl, -⟩ := Prod.mk.inj (Except.ok.inj h)
    rw [List.length_take]
    omega
  · cases h

/-- The length of a connection ID is a byte, and at most 20 in a supported version.
-/
theorem getCid_length {supported : Bool} {b cid rest : Bytes}
    (h : getCid supported b = .ok (cid, rest)) :
    cid.length ≤ 255 ∧ (supported = true → cid.length ≤ maxConnIdLen) := by
  unfold getCid at h
  split at h
  · cases h
  · next n b =>
    split at h
    · cases h
    · next hn =>
      have hlen := getBytes_length h
      have hlt := n.toNat_lt
      refine ⟨by omega, fun hs => ?_⟩
      rw [hs] at hn
      simp only [Bool.true_and, decide_eq_true_eq] at hn
      omega

/-- Any header read: its type, its token and its connection IDs. -/
theorem wireHeader_ok {b : Bytes} {hdr : Header} (h : wireHeader b maxConnIdLen = .ok hdr) :
    (hdr.ty = .initial → hdr.token.isSome) ∧
      (hdr.dcid.length ≤ 255 ∧ (hdr.version = wireVersion → hdr.dcid.length ≤ maxConnIdLen)) ∧
      (hdr.scid.length ≤ 255 ∧ (hdr.version = wireVersion → hdr.scid.length ≤ maxConnIdLen)) := by
  unfold wireHeader at h
  split at h
  · cases h
  · split at h
    -- a short header: the ID has the length asked for, and there is no version
    · split at h
      · cases h
      · next hdcid =>
        have hlen := getBytes_length hdcid
        rw [← Except.ok.inj h]
        simp only [hlen]
        decide
    · split at h
      · cases h
      · simp only at h
        split at h
        · cases h
        · next hdcid =>
          split at h
          · cases h
          · next hscid =>
            obtain ⟨hd, hds⟩ := getCid_length hdcid
            obtain ⟨hs, hss⟩ := getCid_length hscid
            simp only [decide_eq_true_eq] at hds hss
            -- only an Initial and a Retry go on to read a token
            split at h
            · split at h
              · cases h
              · rw [← Except.ok.inj h]
                exact ⟨fun _ => rfl, ⟨hd, hds⟩, ⟨hs, hss⟩⟩
            · split at h
              · cases h
              · rw [← Except.ok.inj h]
                exact ⟨nofun, ⟨hd, hds⟩, ⟨hs, hss⟩⟩
            · next hty _ =>
              rw [← Except.ok.inj h]
              exact ⟨fun hi => absurd hi hty, ⟨hd, hds⟩, ⟨hs, hss⟩⟩

/-! ## Answering -/

/-- The four bytes of a version. -/
def versionBytes (v : UInt32) : Bytes :=
  [(v.toNat / 2 ^ 24).toUInt8, (v.toNat / 2 ^ 16).toUInt8, (v.toNat / 2 ^ 8).toUInt8,
    v.toNat.toUInt8]

/-- A connection ID behind its length byte. -/
def cidBytes (cid : Bytes) : Bytes := cid.length.toUInt8 :: cid

/-- The bytes, if they fit the output buffer. -/
def fit (out : Bytes) : Except QuicheError Bytes :=
  if out.length ≤ maxDatagramSize then .ok out else .error .bufferTooShort

/-- What is short enough for a datagram fits. -/
theorem fit_ok {out : Bytes} (h : out.length ≤ maxDatagramSize) : ∃ out', fit out = .ok out' :=
  ⟨out, if_pos h⟩

/-- A server of version 1 that accepts every connection. -/
def wireServer (retryTag : Bytes → Bytes → Vector UInt8 16) : QuicheServer Unit SendWindow where
  headerFromSlice := wireHeader
  versionIsSupported v := v = wireVersion
  negotiateVersion scid dcid :=
    fit (0x80 :: versionBytes 0 ++ cidBytes scid ++ cidBytes dcid ++ versionBytes wireVersion)
  retry scid dcid newScid token version :=
    let packet := 0xf0 :: versionBytes version ++ cidBytes scid ++ cidBytes newScid ++ token
    if version = wireVersion then fit (packet ++ (retryTag dcid packet).toList)
    else .error (.other 2)
  accept _ _ _ _ _ := (.ok ⟨0, []⟩, ())
  connection := windowQuiche

/-- The server meets the law the proxy relies on. -/
theorem wireServer_law (retryTag : Bytes → Bytes → Vector UInt8 16) :
    QuicheServerLaw (wireServer retryTag) where
  initial_token b hdr h hty := (wireHeader_ok h).1 hty
  cid_length b hdr h := ⟨(wireHeader_ok h).2.1.1, (wireHeader_ok h).2.2.1⟩
  cid_length_supported b hdr h hv := by
    have hversion : hdr.version = wireVersion := of_decide_eq_true hv
    exact ⟨(wireHeader_ok h).2.1.2 hversion, (wireHeader_ok h).2.2.2 hversion⟩
  negotiateVersion_fits scid dcid hlen := by
    refine fit_ok ?_
    simp only [List.length_cons, List.length_append, versionBytes, cidBytes, List.length_nil]
    omega
  retry_fits scid dcid newScid token version hv hnew hlen := by
    have hversion : version = wireVersion := of_decide_eq_true hv
    simp only [wireServer, hversion, if_true]
    refine fit_ok ?_
    simp only [List.length_cons, List.length_append, versionBytes, cidBytes, List.length_nil,
      Vector.length_toList, hnew, maxConnIdLen]
    omega

/-! ## Lengths -/

/-- `get_bytes` leaves the bytes it does not return. -/
theorem getBytes_rest {n : Nat} {b x rest : Bytes} (h : getBytes n b = .ok (x, rest)) :
    b.length = x.length + rest.length := by
  unfold getBytes at h
  split at h
  · next hn =>
    obtain ⟨rfl, rfl⟩ := Prod.mk.inj (Except.ok.inj h)
    rw [← List.length_append, List.take_append_drop]
  · cases h

/-- A connection ID takes its length byte and its own bytes. -/
theorem getCid_rest {supported : Bool} {b cid rest : Bytes}
    (h : getCid supported b = .ok (cid, rest)) : b.length = 1 + cid.length + rest.length := by
  unfold getCid at h
  split at h
  · cases h
  · next n b =>
    split at h
    · cases h
    · have hrest := getBytes_rest h
      rw [List.length_cons]
      omega

/-- The length takes a byte at least. -/
theorem getVarintBytes_rest {b x rest : Bytes} (h : getVarintBytes b = .ok (x, rest)) :
    1 + x.length ≤ b.length := by
  unfold getVarintBytes at h
  split at h
  · cases h
  · next first b =>
    split at h
    · cases h
    · next n rest' hn =>
      have hlen := getBytes_length hn
      have hrest := getBytes_rest hn
      have hx := getBytes_rest h
      have hpos : 0 < 2 ^ (first.toNat / 64) := Nat.two_pow_pos _
      omega

/-- An Initial is at least eight bytes longer than the fields of its header. -/
theorem wireHeader_initial_length {b token : Bytes} {hdr : Header}
    (h : wireHeader b maxConnIdLen = .ok hdr) (hty : hdr.ty = .initial)
    (htoken : hdr.token = some token) :
    8 + hdr.dcid.length + hdr.scid.length + token.length ≤ b.length := by
  unfold wireHeader at h
  split at h
  · cases h
  · next first b =>
    split at h
    · split at h
      · cases h
      · rw [← Except.ok.inj h] at hty
        cases hty
    · split at h
      · cases h
      · next v b₁ hversion =>
        simp only at h
        split at h
        · cases h
        · next dcid b₂ hdcid =>
          split at h
          · cases h
          · next scid b₃ hscid =>
            split at h
            · split at h
              · cases h
              · next token' b₄ htok =>
                obtain rfl := Except.ok.inj h
                obtain rfl := Option.some.inj htoken
                have h₁ := getBytes_rest hversion
                have hv := getBytes_length hversion
                have h₂ := getCid_rest hdcid
                have h₃ := getCid_rest hscid
                have h₄ := getVarintBytes_rest htok
                rw [List.length_cons]
                show 8 + dcid.length + scid.length + token'.length ≤ b.length + 1
                omega
            · split at h
              · cases h
              · rw [← Except.ok.inj h] at hty
                cases hty
            · next hne _ =>
              rw [← Except.ok.inj h] at hty
              exact absurd hty hne

/-- What fits is written unchanged. -/
theorem fit_eq {out out' : Bytes} (h : fit out = .ok out') : out' = out := by
  unfold fit at h
  split at h
  · exact (Except.ok.inj h).symm
  · cases h

/-- The answers of the server have the lengths their fields give them. -/
theorem wireServer_answerSizeLaw (retryTag : Bytes → Bytes → Vector UInt8 16) :
    AnswerSizeLaw (wireServer retryTag) where
  header b hdr token h hty htoken := wireHeader_initial_length h hty htoken
  negotiateVersion scid dcid out hout := by
    rw [fit_eq hout]
    simp only [List.length_cons, List.length_append, versionBytes, cidBytes, List.length_nil]
    omega
  retry scid dcid newScid token version out hnew hout := by
    simp only [wireServer] at hout
    split at hout
    · rw [fit_eq hout]
      simp only [List.length_cons, List.length_append, versionBytes, cidBytes, List.length_nil,
        Vector.length_toList, hnew, maxConnIdLen]
      omega
    · cases hout

/-! ## Reading a Retry -/

/-- What stands in front is read. -/
theorem getBytes_append (x rest : Bytes) : getBytes x.length (x ++ rest) = .ok (x, rest) := by
  rw [getBytes, if_pos (by rw [List.length_append]; omega), List.take_left, List.drop_left]

/-- A connection ID is read as it was written. -/
theorem getCid_cidBytes (supported : Bool) {cid : Bytes} (hlen : cid.length ≤ maxConnIdLen)
    (rest : Bytes) : getCid supported (cidBytes cid ++ rest) = .ok (cid, rest) := by
  have hlt : cid.length < 256 := Nat.lt_of_le_of_lt hlen (by decide)
  have hbyte : cid.length.toUInt8.toNat = cid.length := by
    rw [UInt8.toNat_ofNat']
    exact Nat.mod_eq_of_lt hlt
  show getCid supported (cid.length.toUInt8 :: (cid ++ rest)) = _
  rw [getCid, hbyte, if_neg, getBytes_append]
  rw [decide_eq_false (Nat.not_lt.mpr hlen), Bool.and_false]
  exact Bool.false_ne_true

/-- A Retry packet is read back field by field. -/
theorem wireHeader_retry {scid newScid tag : Bytes} (hscid : scid.length ≤ maxConnIdLen)
    (hnew : newScid.length ≤ maxConnIdLen) (token : Bytes) (htag : tag.length = retryTagLen) :
    wireHeader (0xf0 :: versionBytes wireVersion ++ cidBytes scid ++ cidBytes newScid ++ token ++
      tag) maxConnIdLen = .ok ⟨.retry, wireVersion, scid, newScid, some token⟩ := by
  have hversion : getBytes 4 (versionBytes wireVersion ++ (cidBytes scid ++
      (cidBytes newScid ++ (token ++ tag)))) = .ok (versionBytes wireVersion,
        cidBytes scid ++ (cidBytes newScid ++ (token ++ tag))) :=
    getBytes_append (versionBytes wireVersion) _
  have hsupported : (beNat (versionBytes wireVersion)).toUInt32 = wireVersion := by decide
  have hlong : ¬(0xf0 : UInt8).toNat < 128 := by decide
  have hty : longType 0xf0 wireVersion = .retry := by decide
  have hlen : ¬(token ++ tag).length < retryTagLen := by
    rw [List.length_append]
    omega
  have htoken : (token ++ tag).take ((token ++ tag).length - retryTagLen) = token := by
    rw [List.length_append, htag, Nat.add_sub_cancel, List.take_left]
  simp only [List.cons_append, List.append_assoc, wireHeader, if_neg hlong, hversion, hsupported,
    getCid_cidBytes _ hscid, getCid_cidBytes _ hnew, hty, if_neg hlen, htoken]

/-- A Retry packet is read with the fields it was written with. -/
theorem wireServer_retryLaw (retryTag : Bytes → Bytes → Vector UInt8 16) :
    RetryLaw (wireServer retryTag) := by
  intro scid dcid newScid token version out hscid hnew hout
  simp only [wireServer] at hout ⊢
  split at hout
  · next hversion =>
    subst hversion
    unfold fit at hout
    split at hout
    · obtain rfl := Except.ok.inj hout
      exact wireHeader_retry hscid hnew token Vector.length_toList
    · cases hout
  · cases hout

end MqttScion.Net
