import Mathlib.Data.List.Nodup
import MqttScion.Lib.Mutex

/-!
# First come, first served

Processes come to a desk, wait, and are served one after the other; one that
waits may go away. `Turns came served gone waiting` balances the books: those
served and then those waiting are those who came, in the order they came, but for
the ones who went away.

> `Turns.in_order`: the order of service is the order of arrival.

> `Turns.first_come`: who came before one who was served was served before, or
> went away.

At a fair mutex a process that waits leaves by `Mutex.leave`.
-/

namespace MqttScion.Lib

variable {P : Type} [DecidableEq P]

/-- A process gives up its place, wherever it stands. -/
def Mutex.leave (m : Mutex P) (p : P) : Mutex P := ⟨m.queue.erase p, m.nodup.erase p⟩

/-- The books of a desk. -/
structure Turns (came served gone waiting : List P) : Prop where
  nodup : came.Nodup
  books : served ++ waiting = came.filter fun p => p ∉ gone

namespace Turns

variable {came served gone waiting : List P} {p q : P}

theorem empty : Turns ([] : List P) [] [] [] := ⟨List.nodup_nil, rfl⟩

/-- Nobody is served twice, or served and waiting. -/
theorem nodup_books (h : Turns came served gone waiting) : (served ++ waiting).Nodup := by
  rw [h.books]
  exact h.nodup.filter _

/-- One comes, for the first time. -/
theorem come (h : Turns came served gone waiting) (hcame : p ∉ came) (hgone : p ∉ gone) :
    Turns (came ++ [p]) served gone (waiting ++ [p]) := by
  refine ⟨?_, ?_⟩
  · rw [List.nodup_append]
    refine ⟨h.nodup, List.nodup_singleton p, fun a ha b hb => ?_⟩
    rw [List.mem_singleton.mp hb]
    rintro rfl
    exact hcame ha
  · rw [← List.append_assoc, h.books, List.filter_append]
    simp [hgone]

/-- The first one who waits is served. -/
theorem serve (h : Turns came served gone (p :: waiting)) :
    Turns came (served ++ [p]) gone waiting :=
  ⟨h.nodup, by rw [List.append_assoc, List.singleton_append]; exact h.books⟩

/-- One who waits goes away. -/
theorem quit (h : Turns came served gone waiting) (hp : p ∈ waiting) :
    Turns came served (gone ++ [p]) (waiting.erase p) := by
  refine ⟨h.nodup, ?_⟩
  have hserved : p ∉ served := fun hs =>
    (List.nodup_append.mp h.nodup_books).2.2 p hs p hp rfl
  have hfilter : (came.filter fun q => q ∉ gone ++ [p]) =
      (came.filter fun q => q ∉ gone).filter fun q => q ≠ p := by
    rw [List.filter_filter]
    refine List.filter_congr fun q _ => ?_
    simp [and_comm]
  have hwaiting : waiting.Nodup := (List.nodup_append.mp h.nodup_books).2.1
  rw [hfilter, ← h.books, List.filter_append, hwaiting.erase_eq_filter]
  refine congrArg₂ _ ?_ ?_
  · refine (List.filter_eq_self.mpr fun q hq => ?_).symm
    simp only [ne_eq, decide_eq_true_eq]
    rintro rfl
    exact hserved hq
  · refine List.filter_congr fun q _ => ?_
    simp [bne, Bool.beq_eq_decide_eq]

/-- One who never came goes away. -/
theorem quit_outside (h : Turns came served gone waiting) (hp : p ∉ came) :
    Turns came served (gone ++ [p]) waiting := by
  refine ⟨h.nodup, ?_⟩
  rw [h.books]
  refine List.filter_congr fun q hq => ?_
  have hne : q ≠ p := fun heq => hp (heq ▸ hq)
  simp [hne]

/-- **The order of service is the order of arrival.** -/
theorem in_order (h : Turns came served gone waiting) : served.Sublist came := by
  have hfront : served.Sublist (served ++ waiting) := List.sublist_append_left served waiting
  rw [h.books] at hfront
  exact hfront.trans List.filter_sublist

/-- **First come, first served**, unless one goes away. -/
theorem first_come (h : Turns came served gone waiting) (hcame : [q, p].Sublist came)
    (hserved : p ∈ served) : q ∈ gone ∨ [q, p].Sublist served := by
  by_cases hq : q ∈ gone
  · exact .inl hq
  refine .inr ?_
  have hp : p ∉ gone := by
    have hmem : p ∈ served ++ waiting := List.mem_append_left waiting hserved
    rw [h.books] at hmem
    simpa using (List.mem_filter.mp hmem).2
  have hbooks : [q, p].Sublist (served ++ waiting) := by
    rw [h.books]
    have hkept := hcame.filter fun p => p ∉ gone
    simpa [hq, hp] using hkept
  -- `p` is served, so it is not in the waiting part, and `q` stands before it
  obtain ⟨front, back, hsplit, hfront, hback⟩ := List.sublist_append_iff.mp hbooks
  have hnot : p ∉ waiting := fun hw => (List.nodup_append.mp h.nodup_books).2.2 p hserved p hw rfl
  cases front with
  | nil =>
    rw [List.nil_append] at hsplit
    rw [← hsplit] at hback
    exact absurd (hback.subset (by simp)) hnot
  | cons a front =>
    cases front with
    | nil =>
      obtain ⟨rfl, rfl⟩ := List.cons.inj hsplit
      exact absurd (hback.subset (by simp)) hnot
    | cons b front =>
      obtain ⟨rfl, hrest⟩ := List.cons.inj hsplit
      obtain ⟨rfl, hnil⟩ := List.cons.inj hrest
      obtain ⟨rfl, -⟩ := List.append_eq_nil_iff.mp hnil.symm
      exact hfront

end Turns

end MqttScion.Lib
