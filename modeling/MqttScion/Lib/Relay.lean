import Mathlib.Data.List.Basic

/-!
# Store and forward

A relay takes values in, holds some of them, and passes them on in the order
they came. `Relay sent inside out closed` balances its books: what came out and
what is inside is what was sent in. A relay that closes loses what it holds, so
from then on the books only say that nothing came out that was not sent in, in
that order.

A bounded channel is a relay; so is a task that takes a value from one queue
and sends it to the next before it takes another. `Relay.trans` puts two of
them in a row.

A stage that may give up a value it holds is `Lossy`: its books balance with what
each move lost, and it has lost nothing exactly when no move did
(`Lossy.none_lost_iff`).
-/

namespace MqttScion.Lib

variable {α β : Type}

/-- `out ++ inside` is what was sent into the relay, and at least its front
once the relay is closed. -/
structure Relay (sent inside out : List α) (closed : Bool) : Prop where
  front : out ++ inside <+: sent
  all : closed = false → out ++ inside = sent

namespace Relay

variable {sent inside out : List α} {closed : Bool}

theorem empty (closed : Bool) : Relay ([] : List α) [] [] closed :=
  ⟨List.prefix_rfl, fun _ => rfl⟩

/-- Whole books are books of a relay in any state. -/
theorem of_eq (h : out ++ inside = sent) (closed : Bool) : Relay sent inside out closed :=
  ⟨h ▸ List.prefix_rfl, fun _ => h⟩

/-- What came out is a front of what was sent in. -/
theorem out_isPrefix (h : Relay sent inside out closed) : out <+: sent :=
  (List.prefix_append out inside).trans h.front

/-- An open relay takes values in behind what it holds. -/
theorem push (h : Relay sent inside out false) (more : List α) (closed : Bool) :
    Relay (sent ++ more) (inside ++ more) out closed :=
  of_eq (by rw [← List.append_assoc, h.all rfl]) closed

/-- The value held longest comes out. -/
theorem pop {a : α} (h : Relay sent (a :: inside) out closed) :
    Relay sent inside (out ++ [a]) closed := by
  have hbooks : (out ++ [a]) ++ inside = out ++ a :: inside := by
    rw [List.append_assoc, List.singleton_append]
  refine ⟨?_, fun hc => ?_⟩
  · rw [hbooks]
    exact h.front
  · rw [hbooks]
    exact h.all hc

/-- All that is held comes out. -/
theorem drain (h : Relay sent inside out closed) : Relay sent [] (out ++ inside) closed := by
  refine ⟨?_, fun hc => ?_⟩
  · rw [List.append_nil]
    exact h.front
  · rw [List.append_nil]
    exact h.all hc

/-- A front of what is held comes out, and the relay closes on the rest. -/
theorem cut (h : Relay sent inside out closed) {part : List α} (hpart : part <+: inside) :
    Relay sent [] (out ++ part) true := by
  refine ⟨?_, nofun⟩
  rw [List.append_nil]
  exact ((List.prefix_append_right_inj out).mpr hpart).trans h.front

/-- The relay closes, and what it holds is lost. -/
theorem close (h : Relay sent inside out closed) : Relay sent [] out true := by
  have hcut := h.cut (List.nil_prefix (l := inside))
  rwa [List.append_nil] at hcut

/-- Two relays in a row: the second, still open, is fed by the first. -/
theorem trans {inside' out' : List α} (h : Relay sent inside out closed)
    (h' : Relay out inside' out' false) : Relay sent (inside' ++ inside) out' closed := by
  have hbooks : out' ++ (inside' ++ inside) = out ++ inside := by
    rw [← List.append_assoc, h'.all rfl]
  refine ⟨?_, fun hc => ?_⟩
  · rw [hbooks]
    exact h.front
  · rw [hbooks]
    exact h.all hc

/-- The books of what is told of each value. -/
theorem map (h : Relay sent inside out closed) (f : α → β) :
    Relay (sent.map f) (inside.map f) (out.map f) closed := by
  refine ⟨?_, fun hc => ?_⟩
  · rw [← List.map_append]
    exact h.front.map f
  · rw [← List.map_append, h.all hc]

end Relay

/-- What came out and what is inside was sent in, in that order. -/
def Lossy (sent inside out : List α) : Prop := (out ++ inside).Sublist sent

namespace Lossy

variable {sent inside out more next lost inside' : List α}

/-- A move takes values in, passes some on, loses some, and holds the rest. -/
theorem move (h : Lossy sent inside out) (hmove : inside ++ more = next ++ (lost ++ inside')) :
    Lossy (sent ++ more) inside' (out ++ next) := by
  have hall : (out ++ (inside ++ more)).Sublist (sent ++ more) := by
    rw [← List.append_assoc]
    exact h.append_right more
  rw [hmove] at hall
  refine List.Sublist.trans ?_ hall
  rw [List.append_assoc]
  exact ((List.sublist_append_right lost inside').append_left next).append_left out

/-- **Nothing is lost** up to the end of a move exactly when nothing was before
and the move loses nothing. -/
theorem none_lost_iff (h : Lossy sent inside out)
    (hmove : inside ++ more = next ++ (lost ++ inside')) :
    sent ++ more = out ++ next ++ inside' ↔ sent = out ++ inside ∧ lost = [] := by
  constructor
  · intro heq
    -- the lengths leave no room for a value that has gone missing
    have hle := h.length_le
    have hmoved := congrArg List.length hmove
    have htotal := congrArg List.length heq
    simp only [List.length_append] at hle hmoved htotal
    have hlost : lost.length = 0 := by omega
    refine ⟨(h.eq_of_length ?_).symm, List.length_eq_zero_iff.mp hlost⟩
    rw [List.length_append]
    omega
  · rintro ⟨hsent, hlost⟩
    rw [hlost, List.nil_append] at hmove
    rw [hsent, List.append_assoc, hmove, List.append_assoc]

end Lossy

end MqttScion.Lib
