import MqttScion.Lib.Observe

/-!
# Machines that accept logs

The abstract side of a refinement is a machine without outputs that takes the
log of the concrete one as its input: it either follows an event or rejects it.
`follow` feeds it a log.

> `follow_of_run`: when every step of a machine logs events that the abstract
> one can follow, to a state the relation ties to the next one, the log of every
> run can be followed to its end.

So what holds of every log the abstract machine follows holds of every log of
the concrete one.
-/

namespace MqttScion.Lib

variable {S I E W : Type}

/-- An abstract machine over the events of a log. -/
abbrev Acceptor (W E : Type) := W → E → Option W

/-- Where a log leads the acceptor. -/
def follow (a : Acceptor W E) (w : W) (es : List E) : Option W := es.foldlM a w

@[simp] theorem follow_nil (a : Acceptor W E) (w : W) : follow a w [] = some w := rfl

theorem follow_append_eq_some {a : Acceptor W E} {w w' : W} {es fs : List E} :
    follow a w (es ++ fs) = some w' ↔ ∃ v, follow a w es = some v ∧ follow a v fs = some w' := by
  unfold follow
  rw [List.foldlM_append]
  exact Option.bind_eq_some_iff

theorem follow_singleton (a : Acceptor W E) (w : W) (e : E) : follow a w [e] = a w e := by
  unfold follow
  rw [List.foldlM_cons]
  exact Option.bind_fun_some (a w e)

/-- **Induction over a log that can be followed.** -/
theorem follow_induct {a : Acceptor W E} {P : List E → W → Prop} {w : W} (h0 : P [] w)
    (hstep : ∀ es v e v', P es v → a v e = some v' → P (es ++ [e]) v') {es : List E} :
    ∀ {w' : W}, follow a w es = some w' → P es w' := by
  induction es using List.reverseRecOn with
  | nil =>
    intro w' h
    obtain rfl := Option.some.inj h
    exact h0
  | append_singleton es e ih =>
    intro w' h
    obtain ⟨v, hv, he⟩ := follow_append_eq_some.mp h
    rw [follow_singleton] at he
    exact hstep es v e w' (ih hv) he

/-- **The refinement rule**, with an invariant of the concrete machine. -/
theorem follow_of_run {m : Machine S I E} {a : Acceptor W E} {Inv : S → Prop} {R : S → W → Prop}
    (hinv : ∀ s i s' es, Inv s → m s i = some (s', es) → Inv s')
    (hstep : ∀ s i s' es w, Inv s → R s w → m s i = some (s', es) →
      ∃ w', follow a w es = some w' ∧ R s' w')
    {is : List I} {s s' : S} {es : List E} {w : W} (hs : Inv s) (hw : R s w)
    (hr : run m s is = some (s', es)) :
    ∃ w', follow a w es = some w' ∧ R s' w' := by
  have hboth : Inv s' ∧ ∃ w', follow a w es = some w' ∧ R s' w' := by
    refine @run_induct _ _ _ m (fun es s => Inv s ∧ ∃ w', follow a w es = some w' ∧ R s w') is es
      s s' ⟨hs, w, rfl, hw⟩ ?_ hr
    rintro es s i s' fs ⟨hs, v, hv, hR⟩ hm
    obtain ⟨v', hv', hR'⟩ := hstep s i s' fs v hs hR hm
    exact ⟨hinv s i s' fs hs hm, v', follow_append_eq_some.mpr ⟨v, hv, hv'⟩, hR'⟩
  exact hboth.2

end MqttScion.Lib
