import MqttScion.Net.Packet

/-!
# HMAC, as far as it is called

The proxy signs with `ring::hmac` under two HMAC-SHA256 keys. `Hmac K` is that
function as a parameter: any function from a key and data to a tag of
`HMAC_TAG_LEN` bytes. `verify` recomputes the tag and compares, as documented;
nothing is assumed about collisions or forgeries here.
-/

namespace MqttScion.Net

/-- `HMAC_TAG_LEN` (`src/proxy/mod.rs`). -/
def hmacTagLen : Nat := 32

/-- A keyed hash with 32-byte tags. -/
structure Hmac (K : Type) where
  sign : K → Bytes → Bytes
  sign_length : ∀ key data, (sign key data).length = hmacTagLen

namespace Hmac

variable {K : Type}

/-- `ring::hmac::verify(key, data, tag).is_ok()`. -/
def verify (h : Hmac K) (key : K) (data tag : Bytes) : Bool :=
  h.sign key data == tag

theorem verify_iff {h : Hmac K} {key : K} {data tag : Bytes} :
    h.verify key data tag = true ↔ tag = h.sign key data := by
  rw [verify, beq_iff_eq]
  exact eq_comm

/-- The first `n` bytes of a tag are `n` bytes, for `n` up to the tag length. -/
theorem sign_take_length (h : Hmac K) (key : K) (data : Bytes) {n : Nat} (hn : n ≤ hmacTagLen) :
    ((h.sign key data).take n).length = n := by
  rw [List.length_take, h.sign_length]
  exact Nat.min_eq_left hn

/-- The function that knows the tags of finitely many inputs, and answers
zeros elsewhere. -/
def ofTable [DecidableEq K] (rows : List ((K × Bytes) × Vector UInt8 32)) : Hmac K where
  sign key data := match rows.lookup (key, data) with
    | some tag => tag.toList
    | none => List.replicate hmacTagLen 0
  sign_length key data := by
    cases rows.lookup (key, data) with
    | none => exact List.length_replicate
    | some tag => exact Vector.length_toList

end Hmac

end MqttScion.Net
