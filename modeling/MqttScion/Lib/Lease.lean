import Mathlib.Data.PEquiv

/-!
# Leases: keys and holders matched one to one

A table that hands out keys to holders is right when nobody holds two keys and
no key has two holders. As an object that is a partial equivalence, and
Mathlib's `PEquiv` carries the two directions and their agreement as fields,
so a table in which a holder and its key disagree cannot be built.

A table changes in two ways only. `grant` adds a pair whose key and holder are
both free, `release` takes one pair out. `Move` is one change or none. A
concurrent program that keeps such a table is then checked by naming, for each
of its steps, the move it makes.
-/

namespace MqttScion.Lib.Lease

variable {K H : Type}

/-- Nothing is held. -/
def empty : PEquiv K H := ⊥

/-- A key is held by `h` exactly when `h` holds it. -/
theorem holds_iff {f : PEquiv K H} {k : K} {h : H} : f k = some h ↔ f.symm h = some k :=
  (PEquiv.mem_iff_mem f).symm

variable [DecidableEq K] [DecidableEq H]

/-- Match a free key with a free holder. -/
def grant (f : PEquiv K H) (k : K) (h : H) (hk : f k = none) (hh : f.symm h = none) :
    PEquiv K H where
  toFun := Function.update f k (some h)
  invFun := Function.update f.symm h (some k)
  inv := by
    intro k' h'
    by_cases hkk : k' = k
    · subst hkk
      by_cases hhh : h' = h
      · subst hhh
        simp
      -- nobody else holds the key, which was free
      · have hne : f.symm h' ≠ some k' := fun hm => by
          rw [holds_iff.mpr hm] at hk
          cases hk
        simp [hhh, hne, Ne.symm hhh]
    · by_cases hhh : h' = h
      · subst hhh
        have hne : f k' ≠ some h' := fun hm => by
          rw [holds_iff.mp hm] at hh
          cases hh
        simp [hkk, hne, Ne.symm hkk]
      · simp only [Function.update_of_ne hkk, Function.update_of_ne hhh]
        exact holds_iff.symm

/-- A grant adds the one entry. -/
@[simp] theorem grant_apply (f : PEquiv K H) (k : K) (h : H) (hk : f k = none)
    (hh : f.symm h = none) (k' : K) :
    grant f k h hk hh k' = Function.update f k (some h) k' := rfl

/-- The new holder holds the key, and every other what it held. -/
@[simp] theorem grant_symm_apply (f : PEquiv K H) (k : K) (h : H) (hk : f k = none)
    (hh : f.symm h = none) (h' : H) :
    (grant f k h hk hh).symm h' = Function.update f.symm h (some k) h' := rfl

/-- Take the pair of `k` and `h` out. -/
def release (f : PEquiv K H) (k : K) (h : H) (hkh : f k = some h) : PEquiv K H where
  toFun := Function.update f k none
  invFun := Function.update f.symm h none
  inv := by
    intro k' h'
    by_cases hkk : k' = k
    · subst hkk
      by_cases hhh : h' = h
      · subst hhh
        simp
      -- the key was held by `h'` alone
      · have hne : f.symm h' ≠ some k' := fun hm => by
          rw [holds_iff.mpr hm] at hkh
          exact hhh (Option.some.inj hkh)
        simp [hhh, hne]
    · by_cases hhh : h' = h
      · subst hhh
        have hne : f k' ≠ some h' := fun hm => by
          have hsymm := holds_iff.mp hkh
          rw [holds_iff.mp hm] at hsymm
          exact hkk (Option.some.inj hsymm)
        simp [hkk, hne]
      · simp only [Function.update_of_ne hkk, Function.update_of_ne hhh]
        exact holds_iff.symm

/-- A release takes the one entry out. -/
@[simp] theorem release_apply (f : PEquiv K H) (k : K) (h : H) (hkh : f k = some h) (k' : K) :
    release f k h hkh k' = Function.update f k none k' := rfl

/-- The former holder holds nothing, and every other what it held. -/
@[simp] theorem release_symm_apply (f : PEquiv K H) (k : K) (h : H) (hkh : f k = some h)
    (h' : H) : (release f k h hkh).symm h' = Function.update f.symm h none h' := rfl

/-- One change of the table, or none. -/
inductive Move (f : PEquiv K H) : PEquiv K H → Prop
  | stay : Move f f
  | grant (k : K) (h : H) (hk : f k = none) (hh : f.symm h = none) : Move f (grant f k h hk hh)
  | release (k : K) (h : H) (hkh : f k = some h) : Move f (release f k h hkh)

end MqttScion.Lib.Lease
