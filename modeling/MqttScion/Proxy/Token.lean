import MqttScion.Net.Hmac
import MqttScion.Net.Quic

/-!
# Retry tokens: what `mint_token` signs and `validate_token` recovers

A token is `TOKEN_PREFIX`, the octets of the source address, the destination
connection ID of the client's first packet, and the HMAC tag of all that. The
two fields in the middle have no length in front of them, so it is the
*validating* address that decides where the first one ends.

`validateToken` indexes its argument as the source does; a slice out of bounds
is a panic there and a `Panic` here. `validateToken_eq_some` is its grammar: it
accepts exactly the tokens that are the prefix, the octets of the address, some
`d` and the tag, and answers that `d`. `validateToken_mint` then says what a
minted token decodes to under *another* address:

> it decodes exactly when the octets of that address are a prefix of the minted
> octets followed by the connection ID.

Within a family that means the same address. Across families it does not, and
`mintToken_unambiguous_iff` states when a minted token is unambiguous.
-/

namespace MqttScion.Proxy

open MqttScion.Net

/-- `TOKEN_PREFIX`, the bytes of `mqtt-rust-scion`. -/
def tokenPrefix : Bytes := "mqtt-rust-scion".toList.map fun c => c.toNat.toUInt8

@[simp] theorem tokenPrefix_length : tokenPrefix.length = 15 := rfl

variable {K : Type}

/-- The bytes a token's tag covers. -/
def tokenData (ip : IpAddr) (dcid : Bytes) : Bytes := tokenPrefix ++ ip.octets ++ dcid

/-- `Proxy::mint_token`. -/
def mintToken (h : Hmac K) (tokenKey : K) (hdr : Header) (src : SocketAddr) : Bytes :=
  let token := tokenPrefix ++ src.ip.octets ++ hdr.dcid
  token ++ h.sign tokenKey token

theorem mintToken_eq (h : Hmac K) (key : K) (hdr : Header) (src : SocketAddr) :
    mintToken h key hdr src =
      tokenData src.ip hdr.dcid ++ h.sign key (tokenData src.ip hdr.dcid) := rfl

/-! ## `validate_token`, with its slices -/

/-- A slice or split out of bounds. -/
inductive Panic
  | indexOutOfBounds
  deriving DecidableEq, Repr

/-- `&b[i..j]`. -/
def slice (b : Bytes) (i j : Nat) : Except Panic Bytes :=
  if i ≤ j ∧ j ≤ b.length then .ok ((b.take j).drop i) else .error .indexOutOfBounds

theorem slice_ok {b : Bytes} {i j : Nat} (hij : i ≤ j) (hj : j ≤ b.length) :
    slice b i j = .ok ((b.take j).drop i) := if_pos ⟨hij, hj⟩

/-- `Proxy::validate_token`: the connection ID the token carries. -/
def validateToken (h : Hmac K) (tokenKey : K) (src : SocketAddr) (token : Bytes) :
    Except Panic (Option Bytes) := do
  if token.length < tokenPrefix.length then
    return none
  if (← slice token 0 tokenPrefix.length) ≠ tokenPrefix then
    return none
  let addr := src.ip.octets
  if (← slice token tokenPrefix.length token.length).length < addr.length then
    return none
  if (← slice token tokenPrefix.length (tokenPrefix.length + addr.length)) ≠ addr then
    return none
  if token.length < tokenPrefix.length + addr.length + hmacTagLen then
    return none
  let data ← slice token 0 (token.length - hmacTagLen)
  let tag ← slice token (token.length - hmacTagLen) token.length
  if !h.verify tokenKey data tag then
    return none
  let dcidStart := tokenPrefix.length + addr.length
  let dcidEnd := token.length - hmacTagLen
  return some (← slice token dcidStart dcidEnd)

/-- The checks of `validate_token`, as one condition on the token. -/
def TokenChecks (h : Hmac K) (key : K) (ip : IpAddr) (token : Bytes) : Prop :=
  tokenPrefix.length + ip.octets.length + hmacTagLen ≤ token.length ∧
    token.take tokenPrefix.length = tokenPrefix ∧
    (token.take (tokenPrefix.length + ip.octets.length)).drop tokenPrefix.length = ip.octets ∧
    h.verify key (token.take (token.length - hmacTagLen))
      (token.drop (token.length - hmacTagLen)) = true

/-- The bytes between the address and the tag. -/
def tokenDcid (ip : IpAddr) (token : Bytes) : Bytes :=
  (token.take (token.length - hmacTagLen)).drop (tokenPrefix.length + ip.octets.length)

/-- A token that passes all checks yields its middle; every slice on the way
is in bounds. -/
theorem validateToken_of_checks {h : Hmac K} {key : K} {src : SocketAddr} {token : Bytes}
    (hc : TokenChecks h key src.ip token) :
    validateToken h key src token = .ok (some (tokenDcid src.ip token)) := by
  obtain ⟨hlen, hpre, haddr, htag⟩ := hc
  unfold validateToken
  simp only [bind, Except.bind, pure, Except.pure]
  rw [if_neg (by omega), slice_ok (Nat.zero_le _) (by omega)]
  simp only [List.drop_zero]
  rw [if_neg (not_not.mpr hpre), slice_ok (by omega) (Nat.le_refl _)]
  simp only [List.take_length, List.length_drop]
  rw [if_neg (by omega), slice_ok (by omega) (by omega)]
  simp only
  rw [if_neg (not_not.mpr haddr), if_neg (by omega), slice_ok (Nat.zero_le _) (by omega)]
  simp only [List.drop_zero]
  rw [slice_ok (by omega) (Nat.le_refl _)]
  simp only [List.take_length]
  rw [htag, if_neg (by simp), slice_ok (by omega) (by omega)]
  rfl

/-- Any other token is refused, again with every slice in bounds. -/
theorem validateToken_of_not_checks {h : Hmac K} {key : K} {src : SocketAddr} {token : Bytes}
    (hc : ¬TokenChecks h key src.ip token) : validateToken h key src token = .ok none := by
  unfold validateToken
  simp only [bind, Except.bind, pure, Except.pure]
  split
  · rfl
  · next h1 =>
    rw [slice_ok (Nat.zero_le _) (by omega)]
    simp only [List.drop_zero]
    split
    · rfl
    · next h2 =>
      rw [slice_ok (by omega) (Nat.le_refl _)]
      simp only [List.take_length, List.length_drop]
      split
      · rfl
      · next h3 =>
        rw [slice_ok (by omega) (by omega)]
        simp only
        split
        · rfl
        · next h4 =>
          split
          · rfl
          · next h5 =>
            rw [slice_ok (Nat.zero_le _) (by omega)]
            simp only [List.drop_zero]
            rw [slice_ok (by omega) (Nat.le_refl _)]
            simp only [List.take_length]
            split
            · rfl
            · next h6 =>
              exact absurd ⟨by omega, not_not.mp h2, not_not.mp h4, by simpa using h6⟩ hc

/-! ## The grammar -/

theorem tokenData_length (ip : IpAddr) (dcid : Bytes) :
    (tokenData ip dcid).length = tokenPrefix.length + ip.octets.length + dcid.length := by
  rw [tokenData, List.length_append, List.length_append]

/-- A string with the prefix and the address in front is some token data. -/
theorem eq_tokenData {ip : IpAddr} {t : Bytes} (hpre : t.take tokenPrefix.length = tokenPrefix)
    (haddr : (t.take (tokenPrefix.length + ip.octets.length)).drop tokenPrefix.length
      = ip.octets) :
    t = tokenData ip (t.drop (tokenPrefix.length + ip.octets.length)) := by
  have hfront : t.take (tokenPrefix.length + ip.octets.length) = tokenPrefix ++ ip.octets := by
    have hsplit := List.take_append_drop tokenPrefix.length
      (t.take (tokenPrefix.length + ip.octets.length))
    rw [List.take_take, Nat.min_eq_left (Nat.le_add_right _ _), hpre, haddr] at hsplit
    exact hsplit.symm
  rw [tokenData, ← hfront, List.take_append_drop]

/-- The middle of a token is what stands behind the address. -/
theorem tokenDcid_tokenData (ip : IpAddr) (dcid : Bytes) {tag : Bytes}
    (htag : tag.length = hmacTagLen) : tokenDcid ip (tokenData ip dcid ++ tag) = dcid := by
  have hlen : (tokenData ip dcid ++ tag).length - hmacTagLen = (tokenData ip dcid).length := by
    rw [List.length_append, htag, Nat.add_sub_cancel]
  rw [tokenDcid, hlen, List.take_left]
  have hpos : tokenPrefix.length + ip.octets.length = (tokenPrefix ++ ip.octets).length := by
    rw [List.length_append]
  rw [tokenData, hpos, List.drop_left]

/-- The checks hold exactly for prefix, address, some `d` and their tag. -/
theorem tokenChecks_iff {h : Hmac K} {key : K} {ip : IpAddr} {token : Bytes} :
    TokenChecks h key ip token ↔
      ∃ d, token = tokenData ip d ++ h.sign key (tokenData ip d) := by
  refine ⟨fun hc => ?_, fun hd => ?_⟩
  · obtain ⟨hlen, hpre, haddr, htag⟩ := hc
    -- the checks look at the token; the data in front of the tag begins alike
    have hle : tokenPrefix.length + ip.octets.length ≤ token.length - hmacTagLen := by omega
    have hdata : token.take (token.length - hmacTagLen) = tokenData ip (tokenDcid ip token) := by
      refine eq_tokenData ?_ ?_
      · rw [List.take_take, Nat.min_eq_left (by omega)]
        exact hpre
      · rw [List.take_take, Nat.min_eq_left hle]
        exact haddr
    refine ⟨tokenDcid ip token, ?_⟩
    rw [← hdata, ← Hmac.verify_iff.mp htag, List.take_append_drop]
  · obtain ⟨d, rfl⟩ := hd
    have htag := h.sign_length key (tokenData ip d)
    have hlen : (tokenData ip d ++ h.sign key (tokenData ip d)).length
        = tokenPrefix.length + ip.octets.length + d.length + hmacTagLen := by
      rw [List.length_append, htag, tokenData_length]
    have hfront : tokenData ip d ++ h.sign key (tokenData ip d)
        = tokenPrefix ++ (ip.octets ++ (d ++ h.sign key (tokenData ip d))) := by
      simp only [tokenData, List.append_assoc]
    refine ⟨by omega, ?_, ?_, ?_⟩
    · rw [hfront, List.take_left]
    · rw [hfront, List.take_length_add_append, List.drop_left, List.take_left]
    · have hcut : (tokenData ip d ++ h.sign key (tokenData ip d)).length - hmacTagLen
          = (tokenData ip d).length := by
        rw [List.length_append, htag, Nat.add_sub_cancel]
      rw [hcut, List.take_left, List.drop_left]
      exact Hmac.verify_iff.mpr rfl

/-- **`validate_token` accepts its grammar and nothing else.** -/
theorem validateToken_eq_some {h : Hmac K} {key : K} {src : SocketAddr} {token d : Bytes} :
    validateToken h key src token = .ok (some d) ↔
      token = tokenData src.ip d ++ h.sign key (tokenData src.ip d) := by
  refine ⟨fun hv => ?_, fun ht => ?_⟩
  · by_cases hc : TokenChecks h key src.ip token
    · obtain ⟨d', hd'⟩ := tokenChecks_iff.mp hc
      rw [validateToken_of_checks hc, hd', tokenDcid_tokenData _ _ (h.sign_length _ _)] at hv
      simp only [Except.ok.injEq, Option.some.injEq] at hv
      rw [← hv]
      exact hd'
    · rw [validateToken_of_not_checks hc] at hv
      simp at hv
  · have hc : TokenChecks h key src.ip token := tokenChecks_iff.mpr ⟨d, ht⟩
    rw [validateToken_of_checks hc, ht, tokenDcid_tokenData _ _ (h.sign_length _ _)]

/-- `validate_token` never panics. -/
theorem validateToken_ok (h : Hmac K) (key : K) (src : SocketAddr) (token : Bytes) :
    ∃ r, validateToken h key src token = .ok r := by
  by_cases hc : TokenChecks h key src.ip token
  · exact ⟨_, validateToken_of_checks hc⟩
  · exact ⟨_, validateToken_of_not_checks hc⟩

/-! ## A minted token under another address -/

/-- Token data is determined by the octets followed by the connection ID:
nothing marks where the one ends. -/
theorem tokenData_inj {ip ip' : IpAddr} {d d' : Bytes} :
    tokenData ip d = tokenData ip' d' ↔ ip.octets ++ d = ip'.octets ++ d' := by
  rw [tokenData, tokenData, List.append_assoc, List.append_assoc, List.append_right_inj]

/-- What a minted token decodes to: whatever the validating address leaves
over of the minted octets and connection ID. -/
theorem validateToken_mint {h : Hmac K} {key : K} {hdr : Header} {src₁ src₂ : SocketAddr}
    {d : Bytes} :
    validateToken h key src₂ (mintToken h key hdr src₁) = .ok (some d) ↔
      src₁.ip.octets ++ hdr.dcid = src₂.ip.octets ++ d := by
  rw [validateToken_eq_some, mintToken_eq, ← tokenData_inj]
  refine ⟨fun heq => ?_, fun heq => by rw [heq]⟩
  exact (List.append_inj' heq (by rw [h.sign_length, h.sign_length])).1

/-- A token minted for `src₁` and `dcid` means the same under `src₂`, or
nothing at all. -/
def Unambiguous (src₁ src₂ : SocketAddr) (dcid : Bytes) : Prop :=
  src₁.ip = src₂.ip ∨ ¬src₂.ip.octets <+: src₁.ip.octets ++ dcid

/-- Within one address family every token is unambiguous. -/
theorem unambiguous_of_length {src₁ src₂ : SocketAddr} (dcid : Bytes)
    (hlen : src₁.ip.octets.length = src₂.ip.octets.length) : Unambiguous src₁ src₂ dcid := by
  by_cases hp : src₂.ip.octets <+: src₁.ip.octets ++ dcid
  · obtain ⟨rest, hrest⟩ := hp
    exact .inl (IpAddr.octets_inj (List.append_inj hrest hlen.symm).1.symm)
  · exact .inr hp

/-- **When Retry tokens are unambiguous across addresses**: exactly when the
validating address is the minting one or its octets do not begin the minted
octets and connection ID. -/
theorem mintToken_unambiguous_iff (h : Hmac K) (key : K) (src₁ src₂ : SocketAddr) (hdr : Header)
    (hdcid : hdr.dcid.length ≤ maxConnIdLen) :
    (∀ d, validateToken h key src₂ (mintToken h key hdr src₁) = .ok (some d) →
        src₁.ip = src₂.ip ∧ d = hdr.dcid ∧ d.length ≤ maxConnIdLen) ↔
      Unambiguous src₁ src₂ hdr.dcid := by
  refine ⟨fun hall => ?_, fun hu d hd => ?_⟩
  · by_cases hp : src₂.ip.octets <+: src₁.ip.octets ++ hdr.dcid
    -- then the token validates for `src₂`, whatever is left over
    · obtain ⟨rest, hrest⟩ := hp
      exact .inl (hall rest (validateToken_mint.mpr hrest.symm)).1
    · exact .inr hp
  · rw [validateToken_mint] at hd
    rcases hu with hip | hnot
    · rw [hip] at hd
      have hdd := List.append_cancel_left hd
      exact ⟨hip, hdd.symm, by rw [← hdd]; exact hdcid⟩
    · exact absurd ⟨d, hd.symm⟩ hnot

/-- 32.1.13.184 and 2001:db8::1, whose first four octets are the same. -/
private def src4 : SocketAddr := ⟨.ipv4 0x20 0x01 0x0d 0xb8, 4433⟩

private def src6 : SocketAddr :=
  ⟨.v6 #v[0x20, 0x01, 0x0d, 0xb8, 0, 0, 0, 0, 0, 0, 0, 0, 0, 0, 0, 0x01], 4433⟩

private def initialWithDcid (dcid : Bytes) : Header := ⟨.initial, 1, dcid, [], some []⟩

/-- A connection ID whose first twelve bytes complete `src4` to `src6`. -/
private def dcid4 : Bytes :=
  [0, 0, 0, 0, 0, 0, 0, 0, 0, 0, 0, 0x01, 0xa1, 0xa2, 0xa3, 0xa4, 0xa5, 0xa6, 0xa7, 0xa8]

private def dcid6 : Bytes :=
  [0xb1, 0xb2, 0xb3, 0xb4, 0xb5, 0xb6, 0xb7, 0xb8, 0xb9, 0xba,
    0xbb, 0xbc, 0xbd, 0xbe, 0xbf, 0xc0, 0xc1, 0xc2, 0xc3, 0xc4]

/-- The key `00 01 .. 1f`. -/
private def familyKey : Bytes := (List.range 32).map Nat.toUInt8

/-- HMAC-SHA256 on the two inputs signed below. -/
private def familyHmac : Hmac Bytes :=
  Hmac.ofTable
    [((familyKey, tokenData src4.ip dcid4),
      #v[0x65, 0x05, 0x84, 0x53, 0x5f, 0x35, 0x6e, 0xc4, 0x6b, 0x5d, 0x75, 0xae, 0x29, 0x70,
        0x51, 0x61, 0x62, 0xc1, 0x81, 0x13, 0x14, 0x5e, 0xd7, 0xe8, 0xdc, 0x79, 0x98, 0xf9,
        0x41, 0xb4, 0xff, 0x93]),
     ((familyKey, tokenData src6.ip dcid6),
      #v[0x41, 0xb7, 0xa2, 0xeb, 0xdf, 0x54, 0xef, 0xe2, 0xc4, 0x64, 0xb7, 0x08, 0x32, 0x23,
        0xa1, 0x43, 0xf7, 0x88, 0xcc, 0xd0, 0xc4, 0x49, 0x6e, 0x25, 0x6f, 0x74, 0x0c, 0x23,
        0x86, 0x8f, 0x9c, 0x55])]

theorem mintToken_unambiguous_iff_sample :
    dcid4.length ≤ maxConnIdLen ∧
      ((∀ d, validateToken familyHmac familyKey src4
          (mintToken familyHmac familyKey (initialWithDcid dcid4) src4) = .ok (some d) →
          src4.ip = src4.ip ∧ d = dcid4 ∧ d.length ≤ maxConnIdLen) ↔
        Unambiguous src4 src4 dcid4) :=
  ⟨by decide, mintToken_unambiguous_iff familyHmac familyKey src4 src4 (initialWithDcid dcid4)
    (by decide)⟩

/-- Mixed families: a token minted for an IPv4 source validates for an IPv6
one and yields a truncated ID, and one minted for an IPv6 source validates for
an IPv4 one and yields 32 bytes. -/
theorem mintToken_ambiguous_across_families :
    validateToken familyHmac familyKey src6
        (mintToken familyHmac familyKey (initialWithDcid dcid4) src4)
      = .ok (some (dcid4.drop 12)) ∧
    validateToken familyHmac familyKey src4
        (mintToken familyHmac familyKey (initialWithDcid dcid6) src6)
      = .ok (some (src6.ip.octets.drop 4 ++ dcid6)) ∧
    src4.ip ≠ src6.ip ∧ dcid4.length ≤ maxConnIdLen ∧ dcid6.length ≤ maxConnIdLen ∧
    maxConnIdLen < (src6.ip.octets.drop 4 ++ dcid6).length := by
  refine ⟨?_, ?_, by decide, by decide, by decide, by decide⟩
  · decide
  · decide

/-! ## The round trip -/

/-- A minted token validates for every port of its address. -/
theorem validateToken_mint_self (h : Hmac K) (key : K) (hdr : Header) {src src' : SocketAddr}
    (hip : src'.ip = src.ip) :
    validateToken h key src' (mintToken h key hdr src) = .ok (some hdr.dcid) := by
  rw [validateToken_mint, hip]

/-- **`validate_token` decides a grammar**: no token makes it panic, it accepts
exactly prefix, octets, some `d` and their tag, with `d` for an answer, and so
it recovers the ID of every token minted for the same address. -/
theorem validateToken_grammar (h : Hmac K) (key : K) (src : SocketAddr) :
    (∀ token, ∃ r, validateToken h key src token = .ok r) ∧
    (∀ token d, validateToken h key src token = .ok (some d) ↔
      token = tokenPrefix ++ src.ip.octets ++ d ++
        h.sign key (tokenPrefix ++ src.ip.octets ++ d)) ∧
    ∀ hdr src', src'.ip = src.ip →
      validateToken h key src' (mintToken h key hdr src) = .ok (some hdr.dcid) := by
  refine ⟨fun token => ?_, fun token d => ?_, fun hdr src' hip => ?_⟩
  · exact validateToken_ok h key src token
  · exact validateToken_eq_some
  · exact validateToken_mint_self h key hdr hip

/-- The client of `src4` after a rebinding of its port. -/
private def src4' : SocketAddr := { src4 with port := 9 }

theorem validateToken_grammar_sample :
    src4'.ip = src4.ip ∧ src4' ≠ src4 ∧
      validateToken familyHmac familyKey src4'
        (mintToken familyHmac familyKey (initialWithDcid dcid4) src4) = .ok (some dcid4) :=
  ⟨rfl, by decide, (validateToken_grammar familyHmac familyKey src4).2.2 (initialWithDcid dcid4)
    src4' rfl⟩

end MqttScion.Proxy
