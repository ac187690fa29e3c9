import Mathlib.Data.List.Basic

/-!
# Cutting a byte stream into frames, whatever the chunks

A `Framing` says where the first frame of a byte string ends, once it is all
there. `frames` cuts a string into its complete frames and the unfinished
rest, and `frames_append` is the law everything else is read off: cutting
`as ++ bs` is cutting `as`, then cutting its rest followed by `bs`. So a
decoder that keeps the rest between calls sees the same frames however the
stream was chunked, *provided it is handed every byte*.

`CursorParser` is the contract of a decoder that is handed a chunk behind a
cursor and may stop before the chunk's end: it keeps an unfinished frame
inside, it never stops early except directly after a complete frame, and what
it reports is what the bytes up to the cursor complete. A caller that does not
call again while the cursor has bytes left drops them. `Aligned` is the exact
condition under which one call per chunk is enough:

> `CursorParser.aligned_consumes`: when no frame ends strictly inside the
> chunk, one call consumes the whole chunk.

> `Strict.aligned_of_consumes`: a parser that does stop after its first
> complete frame consumes the whole chunk *only* then.

`strictRecv` is such a parser, for any framing.
-/

namespace MqttScion.Lib

/-- Where the first frame of a string ends. The end, once seen, does not move
when more bytes arrive, it is never beyond the bytes at hand, and it is seen as
soon as the frame is all there. -/
structure Framing (α : Type) where
  next : List α → Option Nat
  pos : ∀ {bs n}, next bs = some n → 0 < n
  le_length : ∀ {bs n}, next bs = some n → n ≤ bs.length
  stable : ∀ {as bs n}, next as = some n → next (as ++ bs) = some n
  prompt : ∀ {bs n}, next bs = some n → next (bs.take n) = some n

namespace Framing

variable {α : Type} (F : Framing α)

/-- All complete frames of a string, in order, and the unfinished rest. -/
def frames (bs : List α) : List (List α) × List α :=
  match _h : F.next bs with
  | none => ([], bs)
  | some n => (bs.take n :: (frames (bs.drop n)).1, (frames (bs.drop n)).2)
termination_by bs.length
decreasing_by all_goals
  have h1 := F.pos _h
  have h2 := F.le_length _h
  rw [List.length_drop]
  omega

/-- A string whose first frame is unfinished has no complete frame. -/
theorem frames_of_none {bs : List α} (h : F.next bs = none) : F.frames bs = ([], bs) := by
  rw [frames]
  split
  · rfl
  · next n hn => rw [h] at hn; cases hn

/-- One frame is cut off the front. -/
theorem frames_of_some {bs : List α} {n : Nat} (h : F.next bs = some n) :
    F.frames bs = (bs.take n :: (F.frames (bs.drop n)).1, (F.frames (bs.drop n)).2) := by
  rw [frames]
  split
  · next hn => rw [h] at hn; cases hn
  · next m hm =>
    rw [h] at hm
    cases hm
    rfl

/-- The rest holds no complete frame. -/
theorem next_rest (bs : List α) : F.next (F.frames bs).2 = none := by
  cases h : F.next bs with
  | none => rw [F.frames_of_none h]; exact h
  | some n =>
    have h1 := F.pos h
    have h2 := F.le_length h
    rw [F.frames_of_some h]
    exact next_rest (bs.drop n)
termination_by bs.length
decreasing_by rw [List.length_drop]; omega

/-- **The incremental law**: cutting may stop anywhere and resume with the
rest. -/
theorem frames_append : ∀ (as bs : List α),
    F.frames (as ++ bs) =
      ((F.frames as).1 ++ (F.frames ((F.frames as).2 ++ bs)).1,
        (F.frames ((F.frames as).2 ++ bs)).2)
  | as, bs => by
    cases h : F.next as with
    | none => rw [F.frames_of_none h]; rfl
    | some n =>
      have h1 := F.pos h
      have h2 := F.le_length h
      -- the first frame of `as` is the first frame of `as ++ bs`
      have htake : (as ++ bs).take n = as.take n := List.take_append_of_le_length h2
      have hdrop : (as ++ bs).drop n = as.drop n ++ bs := List.drop_append_of_le_length h2
      rw [F.frames_of_some (F.stable h), F.frames_of_some h, htake, hdrop,
        frames_append (as.drop n) bs]
      rfl
  termination_by as _ => as.length
  decreasing_by rw [List.length_drop]; omega

/-! ## Chunks that end no frame early -/

/-- After the bytes `p`, no frame ends strictly inside the chunk `c`: the
stream's frames stay what they are until the last byte of `c`. -/
def Aligned (p c : List α) : Prop :=
  ∀ k, k < c.length → (F.frames (p ++ c.take k)).1 = (F.frames p).1

/-- Alignment only depends on the unfinished rest of the bytes before. -/
theorem aligned_iff_rest {p c : List α} :
    F.Aligned p c ↔ ∀ k, k < c.length → (F.frames ((F.frames p).2 ++ c.take k)).1 = [] := by
  unfold Aligned
  constructor
  · intro h k hk
    have hc := h k hk
    rw [F.frames_append] at hc
    exact List.append_right_eq_self.mp hc
  · intro h k hk
    rw [F.frames_append]
    exact List.append_right_eq_self.mpr (h k hk)

end Framing

/-! ## Parsers behind a cursor -/

/-- The contract of a resumable parser. `recv m d` returns the frames it
completed, how far its cursor moved into `d` and its next state; `pending` is
the unfinished frame it keeps. -/
structure CursorParser {α M : Type} (F : Framing α)
    (recv : M → List α → List (List α) × Nat × M) (pending : M → List α) : Prop where
  consumed_le : ∀ m d, (recv m d).2.1 ≤ d.length
  feed : ∀ m d, F.next (pending m) = none →
    F.frames (pending m ++ d.take (recv m d).2.1) = ((recv m d).1, pending (recv m d).2.2)
  stop : ∀ m d, (recv m d).2.1 < d.length → (recv m d).1 ≠ []

namespace CursorParser

variable {α M : Type} {F : Framing α} {recv : M → List α → List (List α) × Nat × M}
  {pending : M → List α}

/-- **One call per chunk is enough** when no frame ends strictly inside the
chunk: the cursor is at the end afterwards. -/
theorem aligned_consumes (hp : CursorParser F recv pending) {m : M} {p d : List α}
    (hm : pending m = (F.frames p).2) (ha : F.Aligned p d) : (recv m d).2.1 = d.length := by
  have hnone : F.next (pending m) = none := by rw [hm]; exact F.next_rest p
  rcases Nat.lt_or_ge (recv m d).2.1 d.length with hlt | hge
  · -- an early stop follows a complete frame, which would end inside the chunk
    have hnil := F.aligned_iff_rest.mp ha _ hlt
    rw [← hm, hp.feed m d hnone] at hnil
    exact absurd hnil (hp.stop m d hlt)
  · exact Nat.le_antisymm (hp.consumed_le m d) hge

/-- A fully consumed chunk: the parser reports exactly the frames the chunk
completes and keeps exactly the unfinished rest. -/
theorem feed_all (hp : CursorParser F recv pending) {m : M} {p d : List α}
    (hm : pending m = (F.frames p).2) (hc : (recv m d).2.1 = d.length) :
    (F.frames (p ++ d)).1 = (F.frames p).1 ++ (recv m d).1 ∧
      pending (recv m d).2.2 = (F.frames (p ++ d)).2 := by
  have hnone : F.next (pending m) = none := by rw [hm]; exact F.next_rest p
  have hfeed := hp.feed m d hnone
  rw [hc, List.take_length, hm] at hfeed
  rw [F.frames_append p d, hfeed]
  exact ⟨rfl, rfl⟩

end CursorParser

/-- A parser that returns as soon as it completed one frame. -/
def Strict {α M : Type} (F : Framing α) (recv : M → List α → List (List α) × Nat × M)
    (pending : M → List α) : Prop :=
  ∀ m d k, k ≤ (recv m d).2.1 → k < d.length → (F.frames (pending m ++ d.take k)).1 ≠ [] →
    (recv m d).2.1 = k

/-- A strict parser that consumed the whole chunk met no frame end strictly
inside it. -/
theorem Strict.aligned_of_consumes {α M : Type} {F : Framing α}
    {recv : M → List α → List (List α) × Nat × M} {pending : M → List α}
    (hs : Strict F recv pending) {m : M} {p d : List α} (hm : pending m = (F.frames p).2)
    (hc : (recv m d).2.1 = d.length) : F.Aligned p d := by
  rw [F.aligned_iff_rest]
  intro k hk
  by_contra hne
  rw [← hm] at hne
  have := hs m d k (by rw [hc]; exact Nat.le_of_lt hk) hk hne
  omega

/-! ## The strict parser of a framing -/

namespace Framing

variable {α : Type} (F : Framing α)

/-- Append to what is pending and cut off the first frame, if it is there. -/
def strictRecv (pending d : List α) : List (List α) × Nat × List α :=
  match F.next (pending ++ d) with
  | none => ([], d.length, pending ++ d)
  | some n => ([(pending ++ d).take n], n - pending.length, [])

theorem next_nil : F.next [] = none := by
  cases h : F.next [] with
  | none => rfl
  | some n =>
    have hpos := F.pos h
    have hle := F.le_length h
    rw [List.length_nil] at hle
    omega

/-- A frame that a longer string begins with has to end beyond a prefix that
has no complete frame. -/
theorem length_lt_of_next {as bs : List α} {n : Nat} (ha : F.next as = none)
    (h : F.next (as ++ bs) = some n) : as.length < n := by
  by_contra hge
  have hle : n ≤ as.length := Nat.le_of_not_lt hge
  -- the frame would be all there in `as` already
  have hin : F.next (as.take n) = some n := by
    rw [← List.take_append_of_le_length hle]
    exact F.prompt h
  have hall : F.next as = some n := by
    rw [← List.take_append_drop n as]
    exact F.stable hin
  rw [ha] at hall
  cases hall

theorem strictRecv_cursor : CursorParser F F.strictRecv id where
  consumed_le pending d := by
    unfold strictRecv
    split
    · exact Nat.le_refl _
    · next n hn =>
      have hle := F.le_length hn
      rw [List.length_append] at hle
      show n - pending.length ≤ d.length
      omega
  feed pending d hnone := by
    unfold strictRecv
    split
    · next hn =>
      show F.frames (pending ++ d.take d.length) = ([], pending ++ d)
      rw [List.take_length]
      exact F.frames_of_none hn
    · next n hn =>
      -- the frame ends in the chunk: nothing of it is pending afterwards
      have hlt : pending.length < n := F.length_lt_of_next hnone hn
      have hcut : pending ++ d.take (n - pending.length) = (pending ++ d).take n := by
        rw [List.take_append, List.take_of_length_le (Nat.le_of_lt hlt)]
      have hrest : ((pending ++ d).take n).drop n = [] := by
        rw [List.drop_take, Nat.sub_self, List.take_zero]
      show F.frames (pending ++ d.take (n - pending.length)) = ([(pending ++ d).take n], [])
      rw [hcut, F.frames_of_some (F.prompt hn), List.take_take, Nat.min_self, hrest,
        F.frames_of_none F.next_nil]
  stop pending d hlt := by
    unfold strictRecv at hlt ⊢
    split at hlt
    · exact absurd hlt (Nat.lt_irrefl _)
    · exact List.cons_ne_nil _ _

theorem strictRecv_strict : Strict F F.strictRecv id := by
  intro pending d k hk hkd hne
  obtain ⟨n, hn⟩ : ∃ n, F.next (pending ++ d.take k) = some n := by
    cases h : F.next (pending ++ d.take k) with
    | some n => exact ⟨n, rfl⟩
    | none =>
      have hnil := F.frames_of_none h
      exact absurd (by rw [id_eq, hnil]) hne
  -- it is also the first frame of the whole chunk, where the cursor stops
  have hall : F.next (pending ++ d) = some n := by
    rw [← List.take_append_drop k d, ← List.append_assoc]
    exact F.stable hn
  have hle := F.le_length hn
  rw [List.length_append, List.length_take, Nat.min_eq_left (Nat.le_of_lt hkd)] at hle
  have hcons : (F.strictRecv pending d).2.1 = n - pending.length := by
    unfold strictRecv
    rw [hall]
  rw [hcons] at hk ⊢
  omega

end Framing

end MqttScion.Lib
