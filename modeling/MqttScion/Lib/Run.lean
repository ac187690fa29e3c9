import Mathlib.Data.List.Basic

/-!
# Runs of an input-driven machine

Every active part of a networked program is modelled the same way: a partial
step function takes the current state and one input (a datagram, a timer, the
outcome of an awaited call) and returns the next state with the outputs
observable at that step. An input that the state is not waiting for is not
enabled, and the step function answers `none`.

`run` folds such a machine over a list of inputs and collects the outputs, so
a property of "every run" is a quantifier over lists. Two induction rules
carry the work:

> `run_induct`: what holds initially and survives every step holds after
> every run.

> `run_iff`: when a step keeps a property *exactly* under a condition on the
> state before it, the property holds after a run iff every step of the run
> met the condition.

The second one is what an "exactly when" statement over runs needs: the
property must be sticky (once lost it stays lost), which is the step
hypothesis read from right to left.
-/

namespace MqttScion.Lib

variable {S I O : Type}

/-- A machine: the successor and the outputs of an enabled input. -/
abbrev Machine (S I O : Type) := S → I → Option (S × List O)

/-- Feed the inputs in order, collecting the outputs. -/
def run (m : Machine S I O) : S → List I → Option (S × List O)
  | s, [] => some (s, [])
  | s, i :: is =>
    match m s i with
    | none => none
    | some (s₁, o₁) =>
      match run m s₁ is with
      | none => none
      | some (s₂, o₂) => some (s₂, o₁ ++ o₂)

@[simp] theorem run_nil (m : Machine S I O) (s : S) : run m s [] = some (s, []) := rfl

theorem run_cons (m : Machine S I O) (s : S) (i : I) (is : List I) :
    run m s (i :: is) =
      match m s i with
      | none => none
      | some (s₁, o₁) =>
        match run m s₁ is with
        | none => none
        | some (s₂, o₂) => some (s₂, o₁ ++ o₂) := rfl

/-- A nonempty run is a first step followed by the rest of the run. -/
theorem run_cons_eq_some {m : Machine S I O} {s s' : S} {i : I} {is : List I} {os : List O} :
    run m s (i :: is) = some (s', os) ↔
      ∃ s₁ o₁ o₂, m s i = some (s₁, o₁) ∧ run m s₁ is = some (s', o₂) ∧ os = o₁ ++ o₂ := by
  rw [run_cons]
  constructor
  · intro h
    cases hm : m s i with
    | none =>
      rw [hm] at h
      cases h
    | some p =>
      obtain ⟨s₁, o₁⟩ := p
      rw [hm] at h
      cases hr : run m s₁ is with
      | none =>
        simp only [hr] at h
        cases h
      | some q =>
        obtain ⟨s₂, o₂⟩ := q
        simp only [hr] at h
        obtain ⟨rfl, rfl⟩ := Prod.mk.inj (Option.some.inj h)
        exact ⟨s₁, o₁, o₂, rfl, hr, rfl⟩
  · rintro ⟨s₁, o₁, o₂, hm, hr, rfl⟩
    rw [hm]
    simp only [hr]

/-- A run over two lists of inputs is two runs, one after the other. -/
theorem run_append_eq_some {m : Machine S I O} {js : List I} {s' : S} :
    ∀ {is : List I} {s : S} {os : List O}, run m s (is ++ js) = some (s', os) ↔
      ∃ s₁ o₁ o₂, run m s is = some (s₁, o₁) ∧ run m s₁ js = some (s', o₂) ∧ os = o₁ ++ o₂ := by
  intro is
  induction is with
  | nil =>
    intro s os
    refine ⟨fun h => ⟨s, [], os, rfl, h, rfl⟩, fun ⟨s₁, o₁, o₂, hr, hr', hos⟩ => ?_⟩
    simp only [run_nil, Option.some.injEq, Prod.mk.injEq] at hr
    obtain ⟨rfl, rfl⟩ := hr
    rw [hos, List.nil_append]
    exact hr'
  | cons i is ih =>
    intro s os
    rw [List.cons_append, run_cons_eq_some]
    constructor
    · rintro ⟨s₁, o₁, o₂, hm, hr, rfl⟩
      obtain ⟨s₂, o₃, o₄, hr₁, hr₂, rfl⟩ := ih.mp hr
      exact ⟨s₂, o₁ ++ o₃, o₄, run_cons_eq_some.mpr ⟨s₁, o₁, o₃, hm, hr₁, rfl⟩, hr₂,
        (List.append_assoc o₁ o₃ o₄).symm⟩
    · rintro ⟨s₂, o, o₄, hr, hr₂, rfl⟩
      obtain ⟨s₁, o₁, o₃, hm, hr₁, rfl⟩ := run_cons_eq_some.mp hr
      exact ⟨s₁, o₁, o₃ ++ o₄, hm, ih.mpr ⟨s₂, o₃, o₄, hr₁, hr₂, rfl⟩, List.append_assoc o₁ o₃ o₄⟩

/-- What holds of the result a step computed holds of the step. -/
theorem of_result {P : S → List O → Prop} {r : S × List O} {s' : S} {o : List O}
    (h : some r = some (s', o)) (hP : P r.1 r.2) : P s' o := by
  rw [Option.some.inj h] at hP
  exact hP

/-- The same for what is said of the state alone. -/
theorem of_result_state {P : S → Prop} {r : S × List O} {s' : S} {o : List O}
    (h : some r = some (s', o)) (hP : P r.1) : P s' := by
  rw [Option.some.inj h] at hP
  exact hP

/-! ## Conditions on the steps of a run -/

/-- Every step of the run from `s` (with `os` already produced) meets `C`,
a condition on the outputs so far, the state before the step and the input. -/
def AllSteps (m : Machine S I O) (C : List O → S → I → Prop) : List O → S → List I → Prop
  | _, _, [] => True
  | os, s, i :: is => C os s i ∧ ∀ s' o, m s i = some (s', o) → AllSteps m C (os ++ o) s' is

@[simp] theorem allSteps_nil (m : Machine S I O) (C : List O → S → I → Prop) (os : List O) (s : S) :
    AllSteps m C os s [] := trivial

theorem allSteps_cons {m : Machine S I O} {C : List O → S → I → Prop} {os : List O} {s : S} {i : I}
    {is : List I} : AllSteps m C os s (i :: is) ↔
      C os s i ∧ ∀ s' o, m s i = some (s', o) → AllSteps m C (os ++ o) s' is := Iff.rfl

/-- Every state of the run from `s`, the first and the last included, meets `P`. -/
def AllStates (m : Machine S I O) (P : List O → S → Prop) : List O → S → List I → Prop
  | os, s, [] => P os s
  | os, s, i :: is => P os s ∧ ∀ s' o, m s i = some (s', o) → AllStates m P (os ++ o) s' is

/-- On a concrete run a decidable condition can be checked by evaluation. -/
instance {m : Machine S I O} {C : List O → S → I → Prop} [∀ os s i, Decidable (C os s i)] :
    ∀ (os : List O) (s : S) (is : List I), Decidable (AllSteps m C os s is)
  | _, _, [] => .isTrue trivial
  | os, s, i :: is =>
    match hm : m s i with
    | none => decidable_of_iff (C os s i) (by simp [allSteps_cons, hm])
    | some (s₁, o₁) =>
      have : Decidable (AllSteps m C (os ++ o₁) s₁ is) := instDecidableAllSteps (os ++ o₁) s₁ is
      decidable_of_iff (C os s i ∧ AllSteps m C (os ++ o₁) s₁ is) (by simp [allSteps_cons, hm])

/-- The trivial condition is met by every run. -/
theorem allSteps_true {m : Machine S I O} :
    ∀ (is : List I) (os : List O) (s : S), AllSteps m (fun _ _ _ => True) os s is := by
  intro is
  induction is with
  | nil => exact fun _ _ => trivial
  | cons i is ih => exact fun os s => ⟨trivial, fun s' o _ => ih (os ++ o) s'⟩

/-- A condition on the inputs alone is met by every step exactly when it is met
by every input. -/
theorem allSteps_input_iff {m : Machine S I O} {D : I → Prop} :
    ∀ {is : List I} {os ps : List O} {s s' : S}, run m s is = some (s', ps) →
      (AllSteps m (fun _ _ i => D i) os s is ↔ ∀ i ∈ is, D i) := by
  intro is
  induction is with
  | nil =>
    intro os ps s s' _
    simp
  | cons i is ih =>
    intro os ps s s' hr
    obtain ⟨s₁, o₁, o₂, hm, hr', rfl⟩ := run_cons_eq_some.mp hr
    have hrest : AllSteps m (fun _ _ i => D i) (os ++ o₁) s₁ is ↔ ∀ i ∈ is, D i := ih hr'
    rw [List.forall_mem_cons, ← hrest]
    refine ⟨fun h => ⟨h.1, h.2 s₁ o₁ hm⟩, fun h => ⟨h.1, fun s₁' o₁' hm' => ?_⟩⟩
    rw [hm] at hm'
    obtain ⟨rfl, rfl⟩ := Prod.mk.inj (Option.some.inj hm')
    exact h.2

/-- A condition may be weakened, whatever has been produced before the run. -/
theorem AllSteps.imp {m : Machine S I O} {C D : List O → S → I → Prop}
    (h : ∀ os os' s i, C os s i → D os' s i) :
    ∀ {is : List I} {os os' : List O} {s : S}, AllSteps m C os s is → AllSteps m D os' s is := by
  intro is
  induction is with
  | nil => exact fun _ => trivial
  | cons i is ih => exact fun hC => ⟨h _ _ _ _ hC.1, fun s' o hm => ih (hC.2 s' o hm)⟩

/-- Two conditions met by every step are met together. -/
theorem AllSteps.and {m : Machine S I O} {C D : List O → S → I → Prop} :
    ∀ {is : List I} {os : List O} {s : S}, AllSteps m C os s is → AllSteps m D os s is →
      AllSteps m (fun os s i => C os s i ∧ D os s i) os s is := by
  intro is
  induction is with
  | nil => exact fun _ _ => trivial
  | cons i is ih =>
    exact fun hC hD => ⟨⟨hC.1, hD.1⟩, fun s' o hm => ih (hC.2 s' o hm) (hD.2 s' o hm)⟩

/-- The first state of a run is one of its states. -/
theorem AllStates.head {m : Machine S I O} {P : List O → S → Prop} {is : List I} {os : List O}
    {s : S} (h : AllStates m P os s is) : P os s := by
  cases is with
  | nil => exact h
  | cons _ _ => exact h.1

/-! ## Logs -/

/-- Every output of the log meets `P` together with the outputs before it. -/
def LogAll (P : List O → O → Prop) (os : List O) : Prop :=
  ∀ pre x post, os = pre ++ x :: post → P pre x

theorem logAll_nil (P : List O → O → Prop) : LogAll P [] := by
  intro pre x post h
  simp at h

/-- A log grows by outputs that meet `P` on top of what was there. -/
theorem logAll_append_singleton {P : List O → O → Prop} {os : List O} {x : O} :
    LogAll P (os ++ [x]) ↔ LogAll P os ∧ P os x := by
  refine ⟨fun h => ⟨fun pre y post hos => ?_, h os x [] rfl⟩, fun h pre y post hos => ?_⟩
  · exact h pre y (post ++ [x]) (by rw [hos, List.append_assoc, List.cons_append])
  -- either the last output is the one looked at, or it is not
  · rcases List.eq_nil_or_concat post with rfl | ⟨front, z, rfl⟩
    · obtain ⟨rfl, hx⟩ := List.append_inj' hos rfl
      rw [← List.singleton_inj.mp hx]
      exact h.2
    · rw [List.concat_eq_append, ← List.cons_append, ← List.append_assoc] at hos
      obtain ⟨hfront, -⟩ := List.append_inj' hos rfl
      exact h.1 pre y front hfront

/-- Outputs of which `P` holds anyway do not matter. -/
theorem logAll_append_of_trivial {P : List O → O → Prop} :
    ∀ {ps os : List O}, (∀ x ∈ ps, ∀ pre, P pre x) → (LogAll P (os ++ ps) ↔ LogAll P os) := by
  intro ps
  induction ps with
  | nil =>
    intro os _
    rw [List.append_nil]
  | cons x ps ih =>
    intro os hps
    rw [← List.singleton_append, ← List.append_assoc,
      ih fun y hy => hps y (List.mem_cons_of_mem x hy), logAll_append_singleton]
    exact and_iff_left (hps x List.mem_cons_self os)

/-! ## Induction rules -/

/-- The general rule, from any starting point: `P` survives every step that
meets `C`. -/
theorem run_induct_of_steps {m : Machine S I O} {C : List O → S → I → Prop}
    {P : List O → S → Prop}
    (hstep : ∀ os s i s' o, P os s → C os s i → m s i = some (s', o) → P (os ++ o) s') :
    ∀ {is : List I} {os ps : List O} {s s' : S}, P os s → AllSteps m C os s is →
      run m s is = some (s', ps) → P (os ++ ps) s' := by
  intro is
  induction is with
  | nil =>
    intro os ps s s' hP _ hr
    simp only [run_nil, Option.some.injEq, Prod.mk.injEq] at hr
    obtain ⟨rfl, rfl⟩ := hr
    rw [List.append_nil]
    exact hP
  | cons i is ih =>
    intro os ps s s' hP hC hr
    obtain ⟨s₁, o₁, o₂, hm, hr', rfl⟩ := run_cons_eq_some.mp hr
    rw [← List.append_assoc]
    exact ih (hstep os s i s₁ o₁ hP hC.1 hm) (hC.2 s₁ o₁ hm) hr'

/-- **The run rule**: what holds initially and survives every step holds
after every run. -/
theorem run_induct {m : Machine S I O} {P : List O → S → Prop} {is : List I} {os : List O}
    {s s' : S} (h0 : P [] s)
    (hstep : ∀ os s i s' o, P os s → m s i = some (s', o) → P (os ++ o) s')
    (hr : run m s is = some (s', os)) : P os s' := by
  have hfin := run_induct_of_steps (fun os s i s' o hP _ hm => hstep os s i s' o hP hm) h0
    (allSteps_true is [] s) hr
  rwa [List.nil_append] at hfin

/-- The exact rule, from any starting point. `H` is assumed of every step, `J`
is an invariant of such runs; under both, a step keeps `P` exactly when it
meets `C`. -/
theorem run_iff_of_steps {m : Machine S I O} {H C : List O → S → I → Prop}
    {J P : List O → S → Prop}
    (hJ : ∀ os s i s' o, J os s → H os s i → m s i = some (s', o) → J (os ++ o) s')
    (hstep : ∀ os s i s' o, J os s → H os s i → m s i = some (s', o) →
      (P (os ++ o) s' ↔ P os s ∧ C os s i)) :
    ∀ {is : List I} {os ps : List O} {s s' : S}, J os s → AllSteps m H os s is →
      run m s is = some (s', ps) → (P (os ++ ps) s' ↔ P os s ∧ AllSteps m C os s is) := by
  intro is
  induction is with
  | nil =>
    intro os ps s s' _ _ hr
    simp only [run_nil, Option.some.injEq, Prod.mk.injEq] at hr
    obtain ⟨rfl, rfl⟩ := hr
    simp
  | cons i is ih =>
    intro os ps s s' hj hH hr
    obtain ⟨s₁, o₁, o₂, hm, hr', rfl⟩ := run_cons_eq_some.mp hr
    -- `P` at the end is `P` after the first step and `C` from there on, and
    -- `P` after the first step is `P` before it and `C` at it
    rw [← List.append_assoc, ih (hJ os s i s₁ o₁ hj hH.1 hm) (hH.2 s₁ o₁ hm) hr',
      hstep os s i s₁ o₁ hj hH.1 hm]
    refine ⟨fun h => ⟨h.1.1, h.1.2, fun s₁' o₁' hm' => ?_⟩,
      fun h => ⟨⟨h.1, h.2.1⟩, h.2.2 s₁ o₁ hm⟩⟩
    rw [hm] at hm'
    simp only [Option.some.injEq, Prod.mk.injEq] at hm'
    obtain ⟨rfl, rfl⟩ := hm'
    exact h.2

/-- The exact rule for runs whose steps are assumed to meet `H`. -/
theorem run_iff_assuming {m : Machine S I O} {H C : List O → S → I → Prop}
    {J P : List O → S → Prop} {is : List I} {os : List O} {s s' : S} (hJ0 : J [] s)
    (hP0 : P [] s)
    (hJ : ∀ os s i s' o, J os s → H os s i → m s i = some (s', o) → J (os ++ o) s')
    (hstep : ∀ os s i s' o, J os s → H os s i → m s i = some (s', o) →
      (P (os ++ o) s' ↔ P os s ∧ C os s i))
    (hH : AllSteps m H [] s is) (hr : run m s is = some (s', os)) :
    P os s' ↔ AllSteps m C [] s is := by
  have h := run_iff_of_steps hJ hstep hJ0 hH hr
  rw [List.nil_append] at h
  rw [h]
  exact and_iff_right hP0

/-- **The exact rule**: a property that holds initially, and that a step keeps
exactly when it meets `C`, holds after a run exactly when every step of the
run met `C`. -/
theorem run_iff {m : Machine S I O} {C : List O → S → I → Prop} {J P : List O → S → Prop}
    {is : List I} {os : List O} {s s' : S} (hJ0 : J [] s) (hP0 : P [] s)
    (hJ : ∀ os s i s' o, J os s → m s i = some (s', o) → J (os ++ o) s')
    (hstep : ∀ os s i s' o, J os s → m s i = some (s', o) →
      (P (os ++ o) s' ↔ P os s ∧ C os s i))
    (hr : run m s is = some (s', os)) :
    P os s' ↔ AllSteps m C [] s is :=
  run_iff_assuming hJ0 hP0 (fun os s i s' o hj _ hm => hJ os s i s' o hj hm)
    (fun os s i s' o hj _ hm => hstep os s i s' o hj hm) (allSteps_true is [] s) hr

/-- The exact rule for a property that later steps may repair: it holds in
*every* state of a run exactly when every step met the condition. The steps are
assumed to meet `H`, and `J` is kept while `P` and `C` hold. -/
theorem allStates_iff {m : Machine S I O} {H C : List O → S → I → Prop}
    {J P : List O → S → Prop}
    (hJ : ∀ os s i s' o, J os s → P os s → H os s i → C os s i → m s i = some (s', o) →
      J (os ++ o) s')
    (hstep : ∀ os s i s' o, J os s → P os s → H os s i → m s i = some (s', o) →
      (P (os ++ o) s' ↔ C os s i)) :
    ∀ {is : List I} {os ps : List O} {s s' : S}, J os s → P os s → AllSteps m H os s is →
      run m s is = some (s', ps) → (AllStates m P os s is ↔ AllSteps m C os s is) := by
  intro is
  induction is with
  | nil =>
    intro os ps s s' _ hP _ _
    exact iff_of_true hP trivial
  | cons i is ih =>
    intro os ps s s' hj hP hH hr
    obtain ⟨s₁, o₁, o₂, hm, hr', rfl⟩ := run_cons_eq_some.mp hr
    have hone : ∀ s₁' o₁', m s i = some (s₁', o₁') → s₁' = s₁ ∧ o₁' = o₁ := by
      intro s₁' o₁' hm'
      rw [hm] at hm'
      simp only [Option.some.injEq, Prod.mk.injEq] at hm'
      exact ⟨hm'.1.symm, hm'.2.symm⟩
    have hC := hstep os s i s₁ o₁ hj hP hH.1 hm
    -- `J` reaches the next state only through `C`, which `P` there gives back
    have hrest : P (os ++ o₁) s₁ → C os s i →
        (AllStates m P (os ++ o₁) s₁ is ↔ AllSteps m C (os ++ o₁) s₁ is) :=
      fun hP₁ hC₁ => ih (hJ os s i s₁ o₁ hj hP hH.1 hC₁ hm) hP₁ (hH.2 s₁ o₁ hm) hr'
    refine ⟨fun h => ?_, fun h => ⟨hP, fun s₁' o₁' hm' => ?_⟩⟩
    · have hP₁ : P (os ++ o₁) s₁ := (h.2 s₁ o₁ hm).head
      refine ⟨hC.mp hP₁, fun s₁' o₁' hm' => ?_⟩
      obtain ⟨rfl, rfl⟩ := hone s₁' o₁' hm'
      exact (hrest hP₁ (hC.mp hP₁)).mp (h.2 s₁' o₁' hm)
    · obtain ⟨rfl, rfl⟩ := hone s₁' o₁' hm'
      exact (hrest (hC.mpr h.1) h.1).mpr (h.2 s₁' o₁' hm)

end MqttScion.Lib
