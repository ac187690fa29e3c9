import Mathlib.Data.List.Induction
import MqttScion.Lib.Run

/-!
# Watching a machine

The outputs of a machine are what its environment sees of it. A property of
its runs may be about more: which input was taken, and in which state. So
`observe m f` is `m` with another log: what `f` makes of the state before a
step, its input and its outputs.

Watching changes nothing:

> `observe_eq_some`: a watched step is a step of the machine to the same state,
> so an invariant of its steps is one of the watched runs.

> `run_logAll`: the rule for a log. When an invariant of state and log makes
> every new entry acceptable on top of what was logged, every entry of the log
> of a run is.
-/

namespace MqttScion.Lib

variable {S I O E : Type}

/-- `m` with the log that `f` keeps. -/
def observe (m : Machine S I O) (f : S → I → List O → List E) : Machine S I E :=
  fun s i => (m s i).map fun r => (r.1, f s i r.2)

/-- A watched step is a step with its log entries. -/
theorem observe_eq_some {m : Machine S I O} {f : S → I → List O → List E} {s s' : S} {i : I}
    {es : List E} :
    observe m f s i = some (s', es) ↔ ∃ o, m s i = some (s', o) ∧ es = f s i o := by
  unfold observe
  rw [Option.map_eq_some_iff]
  constructor
  · rintro ⟨⟨s₁, o⟩, hm, heq⟩
    obtain ⟨rfl, rfl⟩ := Prod.mk.inj heq
    exact ⟨o, hm, rfl⟩
  · rintro ⟨o, hm, rfl⟩
    exact ⟨(s', o), hm, rfl⟩

/-- A watched run is a run. -/
theorem run_of_observe {m : Machine S I O} {f : S → I → List O → List E} {is : List I} :
    ∀ {s s' : S} {es : List E}, run (observe m f) s is = some (s', es) →
      ∃ os, run m s is = some (s', os) := by
  induction is with
  | nil =>
    intro s s' es hr
    obtain ⟨rfl, -⟩ := Prod.mk.inj (Option.some.inj hr)
    exact ⟨[], rfl⟩
  | cons i is ih =>
    intro s s' es hr
    obtain ⟨s₁, es₁, es₂, hm, hrest, -⟩ := run_cons_eq_some.mp hr
    obtain ⟨o, hstep, -⟩ := observe_eq_some.mp hm
    obtain ⟨os, hos⟩ := ih hrest
    exact ⟨o ++ os, run_cons_eq_some.mpr ⟨s₁, o, os, hstep, hos, rfl⟩⟩

/-- **Two logs of one run**: what agrees at every step agrees after the run. -/
theorem observe_agree {E' B : Type} {m : Machine S I O} {f : S → I → List O → List E}
    {g : S → I → List O → List E'} {a : E → List B} {b : E' → List B}
    (h : ∀ s i s' o, m s i = some (s', o) → (f s i o).flatMap a = (g s i o).flatMap b)
    {is : List I} : ∀ {s s₁ s₂ : S} {es : List E} {es' : List E'},
      run (observe m f) s is = some (s₁, es) → run (observe m g) s is = some (s₂, es') →
        es.flatMap a = es'.flatMap b := by
  induction is with
  | nil =>
    intro s s₁ s₂ es es' hf hg
    obtain ⟨-, rfl⟩ := Prod.mk.inj (Option.some.inj hf)
    obtain ⟨-, rfl⟩ := Prod.mk.inj (Option.some.inj hg)
    rfl
  | cons i is ih =>
    intro s s₁ s₂ es es' hf hg
    obtain ⟨t, o₁, o₂, hm, hrest, rfl⟩ := run_cons_eq_some.mp hf
    obtain ⟨t', o₁', o₂', hm', hrest', rfl⟩ := run_cons_eq_some.mp hg
    obtain ⟨o, hstep, rfl⟩ := observe_eq_some.mp hm
    obtain ⟨o', hstep', rfl⟩ := observe_eq_some.mp hm'
    rw [hstep] at hstep'
    obtain ⟨rfl, rfl⟩ := Prod.mk.inj (Option.some.inj hstep')
    rw [List.flatMap_append, List.flatMap_append, h s i t o hstep, ih hrest hrest']

/-- A run and one more step. -/
theorem run_snoc {m : Machine S I O} {i : I} {s s₁ s₂ : S} {is : List I} {os o : List O}
    (hm : m s₁ i = some (s₂, o)) (hr : run m s is = some (s₁, os)) :
    run m s (is ++ [i]) = some (s₂, os ++ o) := by
  have hone : run m s₁ [i] = some (s₂, o) :=
    run_cons_eq_some.mpr ⟨s₂, o, [], hm, rfl, (List.append_nil o).symm⟩
  exact run_append_eq_some.mpr ⟨s₁, os, o, hr, hone, rfl⟩

/-- A run over one more input is a run and one more step. -/
theorem run_snoc_eq_some {m : Machine S I O} {i : I} {s s' : S} {is : List I} {os : List O}
    (hr : run m s (is ++ [i]) = some (s', os)) :
    ∃ s₁ o₁ o₂, run m s is = some (s₁, o₁) ∧ m s₁ i = some (s', o₂) ∧ os = o₁ ++ o₂ := by
  obtain ⟨s₁, o₁, o₂, hr₁, hr₂, rfl⟩ := run_append_eq_some.mp hr
  obtain ⟨s₂, o, o', hm, hnil, rfl⟩ := run_cons_eq_some.mp hr₂
  obtain ⟨rfl, rfl⟩ := Prod.mk.inj (Option.some.inj hnil)
  exact ⟨s₁, o₁, o, hr₁, hm, by rw [List.append_nil]⟩

/-! ## Logs -/

/-- A log is acceptable when its first part is, and the rest on top of that. -/
theorem logAll_append {P : List E → E → Prop} {os ps : List E} :
    LogAll P (os ++ ps) ↔ LogAll P os ∧ LogAll (fun pre x => P (os ++ pre) x) ps := by
  induction ps using List.reverseRecOn with
  | nil => simp [logAll_nil]
  | append_singleton ps x ih =>
    rw [← List.append_assoc, logAll_append_singleton, logAll_append_singleton, ih, and_assoc]

theorem logAll_singleton {P : List E → E → Prop} {x : E} : LogAll P [x] ↔ P [] x := by
  rw [← List.nil_append [x], logAll_append_singleton]
  exact and_iff_right (logAll_nil P)

/-- **The rule for a log**: `J` is an invariant of the log and the state, and
makes the entries of every step acceptable. -/
theorem run_logAll {m : Machine S I E} {J : List E → S → Prop} {P : List E → E → Prop}
    {is : List I} {os : List E} {s s' : S} (hJ0 : J [] s)
    (hJ : ∀ os s i s' o, J os s → m s i = some (s', o) → J (os ++ o) s')
    (hP : ∀ os s i s' o, J os s → m s i = some (s', o) → LogAll (fun pre x => P (os ++ pre) x) o)
    (hr : run m s is = some (s', os)) : LogAll P os := by
  have hboth : J os s' ∧ LogAll P os := by
    refine @run_induct _ _ _ m (fun os s => J os s ∧ LogAll P os) is os s s'
      ⟨hJ0, logAll_nil P⟩ ?_ hr
    intro os s i s' o h hm
    exact ⟨hJ os s i s' o h.1 hm, logAll_append.mpr ⟨h.2, hP os s i s' o h.1 hm⟩⟩
  exact hboth.2

/-- **A reading of the inputs**: where every step logs what its input says, so
does a run. -/
theorem run_reading {B : Type} {m : Machine S I E} {g : E → List B} {f : I → List B}
    (h : ∀ s i s' es, m s i = some (s', es) → es.flatMap g = f i) {is : List I} :
    ∀ {s s' : S} {es : List E}, run m s is = some (s', es) → es.flatMap g = is.flatMap f := by
  induction is with
  | nil =>
    intro s s' es hr
    obtain ⟨-, rfl⟩ := Prod.mk.inj (Option.some.inj hr)
    rfl
  | cons i is ih =>
    intro s s' es hr
    obtain ⟨s₁, es₁, es₂, hm, hrest, rfl⟩ := run_cons_eq_some.mp hr
    rw [List.flatMap_append, List.flatMap_cons, h s i s₁ es₁ hm, ih hrest]

end MqttScion.Lib
