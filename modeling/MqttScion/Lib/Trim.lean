import Mathlib.Data.List.Basic
import Mathlib.Data.List.Forall2

/-!
# A stream that drops tails

A sender offers a stream one piece after the other. The stream takes a front of
the piece, all of it or less, and the sender goes on with the next. `Trims pieces
out`: what the stream took is a front of every piece, one behind the other.
Nothing is out of order, doubled or made up; what is missing is missing at the
ends of pieces.

The other end of such a stream sees no worse:

> `Trims.of_isPrefix`: a front of what the stream took is again trimmed from the
> same pieces.

> `Trims.eq_of_length_le`: a stream that took as many values as it was offered has
> taken the pieces whole.
-/

namespace MqttScion.Lib

variable {α : Type}

/-- `out` is made of fronts of the pieces, in their order. -/
def Trims (pieces : List (List α)) (out : List α) : Prop :=
  ∃ fronts, List.Forall₂ (· <+: ·) fronts pieces ∧ fronts.flatten = out

namespace Trims

variable {pieces : List (List α)} {out : List α}

theorem nil : Trims ([] : List (List α)) [] := ⟨[], .nil, rfl⟩

/-- Nothing may be left of any piece. -/
theorem none (pieces : List (List α)) : Trims pieces [] := by
  induction pieces with
  | nil => exact nil
  | cons piece pieces ih =>
    obtain ⟨fronts, hfronts, hflat⟩ := ih
    exact ⟨[] :: fronts, .cons List.nil_prefix hfronts, hflat⟩

/-- The first piece, and what is trimmed from the rest. -/
theorem cons {front piece : List α} (hfront : front <+: piece) (h : Trims pieces out) :
    Trims (piece :: pieces) (front ++ out) := by
  obtain ⟨fronts, hfronts, rfl⟩ := h
  exact ⟨front :: fronts, .cons hfront hfronts, rfl⟩

/-- The whole pieces are. -/
theorem whole (pieces : List (List α)) : Trims pieces pieces.flatten :=
  ⟨pieces, List.forall₂_same.mpr fun _ _ => List.prefix_rfl, rfl⟩

/-- More pieces are offered, and more is taken. -/
theorem append {pieces' : List (List α)} {out' : List α} (h : Trims pieces out)
    (h' : Trims pieces' out') : Trims (pieces ++ pieces') (out ++ out') := by
  obtain ⟨fronts, hfronts, rfl⟩ := h
  obtain ⟨fronts', hfronts', rfl⟩ := h'
  exact ⟨fronts ++ fronts', List.rel_append hfronts hfronts', List.flatten_append⟩

/-- **A front of it is trimmed too**: it stops inside one of the pieces, and has
nothing of the later ones. -/
theorem of_isPrefix {out' : List α} (h : Trims pieces out) (hout : out' <+: out) :
    Trims pieces out' := by
  obtain ⟨fronts, hfronts, rfl⟩ := h
  induction hfronts generalizing out' with
  | nil =>
    rw [List.prefix_nil.mp hout]
    exact nil
  | @cons front piece fronts pieces hfront _ ih =>
    rw [List.flatten_cons] at hout
    rcases List.prefix_or_prefix_of_prefix hout (List.prefix_append front _) with hshort | hlong
    · have hcons := cons (hshort.trans hfront) (none pieces)
      rwa [List.append_nil] at hcons
    · obtain ⟨rest, rfl⟩ := hlong
      exact cons hfront (ih ((List.prefix_append_right_inj front).mp hout))

/-- Fronts are no longer than the pieces. -/
theorem length_le (h : Trims pieces out) : out.length ≤ pieces.flatten.length := by
  obtain ⟨fronts, hfronts, rfl⟩ := h
  induction hfronts with
  | nil => exact Nat.le_refl _
  | cons hfront _ ih =>
    rw [List.flatten_cons, List.flatten_cons, List.length_append, List.length_append]
    exact Nat.add_le_add hfront.length_le ih

/-- **Where nothing is missing by count, nothing is missing.** -/
theorem eq_of_length_le (h : Trims pieces out) (hlen : pieces.flatten.length ≤ out.length) :
    out = pieces.flatten := by
  obtain ⟨fronts, hfronts, rfl⟩ := h
  induction hfronts with
  | nil => rfl
  | @cons front piece fronts pieces hfront hrest ih =>
    have hle : fronts.flatten.length ≤ pieces.flatten.length := length_le ⟨fronts, hrest, rfl⟩
    have hfrontle := hfront.length_le
    rw [List.flatten_cons, List.flatten_cons, List.length_append, List.length_append] at hlen
    -- neither part may be shorter, so neither is
    rw [List.flatten_cons, List.flatten_cons, hfront.eq_of_length (by omega), ih (by omega)]

end Trims

end MqttScion.Lib
