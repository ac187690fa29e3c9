import Mathlib.Data.List.Basic

/-!
# A bounded channel with a droppable receiver

The queue between any number of senders and one receiver. `Chan α cap` holds
at most `cap` values by construction (`bound`), so no lemma below has to carry
the capacity as a side condition. `rxAlive` is the receiver's end: once it is
dropped the queued values are gone and every later send is refused.

`trySend` never waits: it answers `ok`, `full` or `closed`. A send that waits
is a `trySend` retried by its caller until it is not `full`.

The two conservation laws are what users of a channel rely on: an accepted
value goes to the back (`trySend_ok_queue`), a received one comes from the
front (`recv_eq_some`), and a refused send changes nothing
(`trySend_ne_ok`).
-/

namespace MqttScion.Lib

/-- What a send that does not wait answers. -/
inductive TrySend
  | ok
  | full
  | closed
  deriving DecidableEq, Repr

/-- A bounded FIFO queue and whether its receiver still exists. -/
structure Chan (α : Type) (cap : Nat) where
  queue : List α
  rxAlive : Bool
  bound : queue.length ≤ cap

namespace Chan

variable {α : Type} {cap : Nat}

/-- The fresh channel. -/
def new : Chan α cap := ⟨[], true, Nat.zero_le _⟩

/-- The channel after its receiver was dropped. -/
def dropReceiver (_ : Chan α cap) : Chan α cap := ⟨[], false, Nat.zero_le _⟩

/-- A send takes place now or not at all. -/
def trySend (c : Chan α cap) (a : α) : TrySend × Chan α cap :=
  if c.rxAlive then
    if h : c.queue.length < cap then
      (.ok, ⟨c.queue ++ [a], c.rxAlive, by rw [List.length_append]; exact h⟩)
    else (.full, c)
  else (.closed, c)

/-- Take the oldest value, if there is one. -/
def recv (c : Chan α cap) : Option (α × Chan α cap) :=
  match h : c.queue with
  | [] => none
  | a :: rest => some (a, ⟨rest, c.rxAlive, by
      have hb := c.bound
      rw [h, List.length_cons] at hb
      exact Nat.le_of_succ_le hb⟩)

/-- There is room and someone to receive: exactly when a send succeeds. -/
theorem trySend_ok_iff {c : Chan α cap} {a : α} :
    (c.trySend a).1 = .ok ↔ c.rxAlive = true ∧ c.queue.length < cap := by
  unfold trySend
  by_cases ha : c.rxAlive = true
  · by_cases hl : c.queue.length < cap
    · simp [ha, hl]
    · simp [ha, hl]
  · simp [ha]

/-- A send is refused as closed exactly when the receiver is gone. -/
theorem trySend_closed_iff {c : Chan α cap} {a : α} :
    (c.trySend a).1 = .closed ↔ c.rxAlive = false := by
  unfold trySend
  by_cases ha : c.rxAlive = true
  · by_cases hl : c.queue.length < cap
    · simp [ha, hl]
    · simp [ha, hl]
  · simp [ha]

/-- An accepted value joins the back of the queue. -/
theorem trySend_ok_queue {c : Chan α cap} {a : α} (h : (c.trySend a).1 = .ok) :
    (c.trySend a).2.queue = c.queue ++ [a] := by
  obtain ⟨ha, hl⟩ := trySend_ok_iff.mp h
  simp [trySend, ha, hl]

/-- A channel for one value is empty when it takes one. -/
theorem trySend_ok_single {c : Chan α 1} {a : α} (h : (c.trySend a).1 = .ok) :
    (c.trySend a).2.queue = [a] := by
  obtain ⟨-, hroom⟩ := trySend_ok_iff.mp h
  have hempty : c.queue = [] := List.eq_nil_of_length_eq_zero (by omega)
  rw [trySend_ok_queue h, hempty, List.nil_append]

/-- A refused send leaves the channel as it was. -/
theorem trySend_ne_ok {c : Chan α cap} {a : α} (h : (c.trySend a).1 ≠ .ok) :
    (c.trySend a).2 = c := by
  unfold trySend at h ⊢
  split
  · split
    · next ha hl => exact absurd (trySend_ok_iff.mpr ⟨ha, hl⟩) (by simpa [trySend] using h)
    · rfl
  · rfl

@[simp] theorem trySend_rxAlive (c : Chan α cap) (a : α) :
    (c.trySend a).2.rxAlive = c.rxAlive := by
  unfold trySend
  split
  · split <;> rfl
  · rfl

/-- There is someone to receive and the queue is full: a send that waits is
blocked. -/
def Full (c : Chan α cap) : Prop := c.rxAlive = true ∧ c.queue.length = cap

/-- What a send leaves behind what was there: the value, or nothing. -/
theorem trySend_drop (c : Chan α cap) (a : α) :
    (c.trySend a).2.queue.drop c.queue.length =
      if c.rxAlive = true ∧ c.queue.length < cap then [a] else [] := by
  by_cases hok : (c.trySend a).1 = .ok
  · rw [trySend_ok_queue hok, if_pos (trySend_ok_iff.mp hok), List.drop_left]
  · rw [trySend_ne_ok hok, if_neg fun h => hok (trySend_ok_iff.mpr h), List.drop_length]

/-- A received value was at the front, and the rest stays queued. -/
theorem recv_eq_some {c c' : Chan α cap} {a : α} (h : c.recv = some (a, c')) :
    c.queue = a :: c'.queue ∧ c'.rxAlive = c.rxAlive := by
  unfold recv at h
  split at h
  next => simp at h
  next b rest hq =>
    simp only [Option.some.injEq, Prod.mk.injEq] at h
    obtain ⟨rfl, rfl⟩ := h
    exact ⟨hq, rfl⟩

/-- A nonempty queue can be received from. -/
theorem recv_of_queue {c : Chan α cap} {a : α} {rest : List α} (h : c.queue = a :: rest) :
    ∃ c', c.recv = some (a, c') ∧ c'.queue = rest ∧ c'.rxAlive = c.rxAlive := by
  cases hr : c.recv with
  | none =>
    unfold recv at hr
    split at hr
    next hq => rw [hq] at h; simp at h
    next => simp at hr
  | some p =>
    obtain ⟨b, c'⟩ := p
    obtain ⟨hq, ha⟩ := recv_eq_some hr
    rw [h, List.cons.injEq] at hq
    obtain ⟨rfl, rfl⟩ := hq
    exact ⟨c', rfl, rfl, ha⟩

end Chan

end MqttScion.Lib
