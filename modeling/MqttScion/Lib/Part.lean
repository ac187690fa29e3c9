import MqttScion.Lib.Observe

/-!
# Parts of a machine

A system of many processes is one machine whose state holds theirs. A part of
it is read off by `get`, `none` while it does not exist, and moves by a machine
of its own. `watch` says of a step of the whole whether it is one of the part,
with what input and what outputs.

`IsPart` is checked step by step. The gain is about runs:

> `IsPart.run`: whenever the part exists, it is where a run of its own machine
> ends, from a state the part may start in and over just the inputs that were
> for it.

So what holds of every run of the part's machine holds of the part in every
run of the whole, whatever the other parts do in between.
-/

namespace MqttScion.Lib

variable {S I O T J P : Type}

/-- What a step of the whole is to the part. -/
abbrev Watch (S I O J P : Type) := S → I → List O → Option (J × List P)

/-- In states that meet `Inv`, the part moves by `mc` when watched and only then;
the step that brings it into being starts it as `Starts` says. -/
structure IsPart (m : Machine S I O) (get : S → Option T) (watch : Watch S I O J P)
    (mc : Machine T J P) (Inv : S → Prop) (Starts : I → T → Prop) : Prop where
  inv : ∀ {s i s' o}, Inv s → m s i = some (s', o) → Inv s'
  own : ∀ {s i s' o j q}, Inv s → m s i = some (s', o) → watch s i o = some (j, q) →
    ∃ t t', get s = some t ∧ mc t j = some (t', q) ∧ get s' = some t'
  other : ∀ {s i s' o}, Inv s → m s i = some (s', o) → watch s i o = none →
    get s' = get s ∨ get s = none ∧ ∃ t, get s' = some t ∧ Starts i t

/-- The moves of the part in a run of the whole. -/
abbrev watched (m : Machine S I O) (watch : Watch S I O J P) : Machine S I (J × List P) :=
  observe m fun s i o => (watch s i o).toList

/-- A run can be watched. -/
theorem run_watched {m : Machine S I O} (watch : Watch S I O J P) {is : List I} :
    ∀ {s s' : S} {os : List O}, run m s is = some (s', os) →
      ∃ log, run (watched m watch) s is = some (s', log) := by
  induction is with
  | nil =>
    intro s s' os hr
    obtain ⟨rfl, -⟩ := Prod.mk.inj (Option.some.inj hr)
    exact ⟨[], rfl⟩
  | cons i is ih =>
    intro s s' os hr
    obtain ⟨s₁, o₁, o₂, hm, hrest, -⟩ := run_cons_eq_some.mp hr
    obtain ⟨log, hlog⟩ := ih hrest
    exact ⟨_, run_cons_eq_some.mpr ⟨s₁, _, log, observe_eq_some.mpr ⟨o₁, hm, rfl⟩, hlog, rfl⟩⟩

/-- Where the input alone says whether a step is one of the part, so do the
inputs of a run. -/
theorem watched_inputs {m : Machine S I O} {watch : Watch S I O J P} {mine : I → Option J}
    (hmine : ∀ s i s' o, m s i = some (s', o) → (watch s i o).map Prod.fst = mine i)
    {is : List I} : ∀ {s s' : S} {log : List (J × List P)},
      run (watched m watch) s is = some (s', log) → log.map Prod.fst = is.filterMap mine := by
  induction is with
  | nil =>
    intro s s' log hr
    obtain ⟨-, rfl⟩ := Prod.mk.inj (Option.some.inj hr)
    rfl
  | cons i is ih =>
    intro s s' log hr
    obtain ⟨s₁, log₁, log₂, hm, hrest, rfl⟩ := run_cons_eq_some.mp hr
    obtain ⟨o, hstep, rfl⟩ := observe_eq_some.mp hm
    rw [List.map_append, ih hrest, List.filterMap_cons, ← hmine s i s₁ o hstep]
    cases watch s i o with
    | none => rfl
    | some move => rfl

/-- The part is where its own moves lead from where it started. -/
def RanAlone (mc : Machine T J P) (Starts : T → Prop) (log : List (J × List P)) (t : T) : Prop :=
  ∃ t₀, Starts t₀ ∧ run mc t₀ (log.map Prod.fst) = some (t, log.flatMap Prod.snd)

theorem RanAlone.mono {mc : Machine T J P} {Starts Starts' : T → Prop} {log : List (J × List P)}
    {t : T} (hstarts : ∀ t, Starts t → Starts' t) (h : RanAlone mc Starts log t) :
    RanAlone mc Starts' log t := by
  obtain ⟨t₀, hstart, hrun⟩ := h
  exact ⟨t₀, hstarts t₀ hstart, hrun⟩

/-- **The run of a part.** Until the part exists nothing is watched of it; some
input of the run started it. -/
theorem IsPart.run {m : Machine S I O} {get : S → Option T} {watch : Watch S I O J P}
    {mc : Machine T J P} {Inv : S → Prop} {Starts : I → T → Prop}
    (h : IsPart m get watch mc Inv Starts) {s₀ : S} (hinv : Inv s₀) (hnone : get s₀ = none)
    {is : List I} : ∀ {s : S} {log : List (J × List P)},
      run (watched m watch) s₀ is = some (s, log) →
        Inv s ∧ (get s = none → log = []) ∧
          ∀ t, get s = some t → RanAlone mc (fun t => ∃ i ∈ is, Starts i t) log t := by
  induction is using List.reverseRecOn with
  | nil =>
    intro s log hr
    obtain ⟨rfl, rfl⟩ := Prod.mk.inj (Option.some.inj hr)
    refine ⟨hinv, fun _ => rfl, fun t ht => ?_⟩
    rw [hnone] at ht
    cases ht
  | append_singleton is i ih =>
    intro s' log' hr
    obtain ⟨s, log, es, hfront, hstep, rfl⟩ := run_snoc_eq_some hr
    obtain ⟨hinv, hfresh, halone⟩ := ih hfront
    obtain ⟨o, hm, rfl⟩ := observe_eq_some.mp hstep
    have hmore : ∀ t, (∃ i ∈ is, Starts i t) → ∃ i' ∈ is ++ [i], Starts i' t :=
      fun t ⟨i', hi', hstart⟩ => ⟨i', List.mem_append_left _ hi', hstart⟩
    refine ⟨h.inv hinv hm, ?_⟩
    cases hw : watch s i o with
    | some move =>
      obtain ⟨j, q⟩ := move
      obtain ⟨t, t', ht, hmc, ht'⟩ := h.own hinv hm hw
      refine ⟨fun hn => ?_, fun t'' ht'' => ?_⟩
      · rw [ht'] at hn
        cases hn
      rw [ht'] at ht''
      obtain rfl := Option.some.inj ht''
      obtain ⟨t₀, hstart, hrun⟩ := (halone t ht).mono hmore
      refine ⟨t₀, hstart, ?_⟩
      simpa using run_snoc hmc hrun
    | none =>
      simp only [Option.toList_none, List.append_nil]
      rcases h.other hinv hm hw with hsame | ⟨hn, t, ht, hstart⟩
      · rw [hsame]
        exact ⟨hfresh, fun t ht => (halone t ht).mono hmore⟩
      · -- the part starts here, with nothing watched so far
        refine ⟨fun hn' => hfresh hn, fun t' ht' => ?_⟩
        rw [ht] at ht'
        obtain rfl := Option.some.inj ht'
        rw [hfresh hn]
        exact ⟨t, ⟨i, List.mem_append_right _ (List.mem_singleton.mpr rfl), hstart⟩, rfl⟩

/-! ## One machine inside another -/

section Embed

variable {S' I' O' : Type}

/-- In the states `f` makes of those of `m`, the machine `m'` does what `m` does,
under other names. -/
def Embeds (m : Machine S I O) (m' : Machine S' I' O') (f : S → S') (g : I → I') (k : O → O') :
    Prop :=
  ∀ s j s' q, m' (f s) j = some (s', q) →
    ∃ i t o, j = g i ∧ m s i = some (t, o) ∧ s' = f t ∧ q = o.map k

/-- A run that starts in the image of `m` is the image of a run of `m`. -/
theorem Embeds.run {m : Machine S I O} {m' : Machine S' I' O'} {f : S → S'} {g : I → I'}
    {k : O → O'} (h : Embeds m m' f g k) : ∀ {js : List I'} {s : S} {s' : S'} {qs : List O'},
      run m' (f s) js = some (s', qs) →
        ∃ is t os, js = is.map g ∧ run m s is = some (t, os) ∧ s' = f t ∧ qs = os.map k := by
  intro js
  induction js with
  | nil =>
    intro s s' qs hr
    obtain ⟨rfl, rfl⟩ := Prod.mk.inj (Option.some.inj hr)
    exact ⟨[], s, [], rfl, rfl, rfl, rfl⟩
  | cons j js ih =>
    intro s s' qs hr
    obtain ⟨s₁, q₁, q₂, hm, hrest, rfl⟩ := run_cons_eq_some.mp hr
    obtain ⟨i, t, o, rfl, hi, rfl, rfl⟩ := h _ _ _ _ hm
    obtain ⟨is, t', os, rfl, his, rfl, rfl⟩ := ih hrest
    exact ⟨i :: is, t', o ++ os, rfl, run_cons_eq_some.mpr ⟨t, o, os, hi, his, rfl⟩, rfl,
      List.map_append.symm⟩

end Embed

end MqttScion.Lib
