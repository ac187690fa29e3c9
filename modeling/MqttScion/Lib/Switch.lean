import Mathlib.Data.List.Flatten
import Mathlib.Logic.Function.Basic
import MqttScion.Lib.Accept
import MqttScion.Lib.Relay

/-!
# A switch

A switch takes in one datum after the other and settles each before it takes
the next: the datum is discarded, or it opens a session under a key that
accepts it, or it joins the inbox of the newest session under such a key. The
sessions take from their inboxes in order. One that leaves loses what is in its
inbox.

`Switch.next` is that and nothing else; how a key is looked up, when an inbox is
full and when sessions come and go is left to the program that refines it.
What the logs of a switch have in common is in `Switched`:

> `switched_of_follow`: every arrival but the one in hand is settled, once and
> in order; a session takes a prefix of what was delivered to it; and whatever
> is delivered goes to the newest session of a key that accepts it.

So of the sessions under one key no older one is served once a newer one is
open, and no datum is served twice.
-/

namespace MqttScion.Lib

variable {K D : Type}

inductive SwitchEvent (K D : Type)
  | arrives (d : D)
  | discards (d : D)
  | opens (n : Nat) (k : K) (d : D)
  | delivers (n : Nat) (d : D)
  | takes (n : Nat) (d : D)
  | leaves (n : Nat)
  deriving DecidableEq

structure Switch (K D : Type) where
  hand : Option D
  /-- The key each session was opened under. -/
  key : Nat → Option K
  /-- The session opened last under each key. -/
  newest : K → Option Nat
  inbox : Nat → List D
  gone : Nat → Bool

namespace Switch

def new : Switch K D where
  hand := none
  key _ := none
  newest _ := none
  inbox _ := []
  gone _ := false

variable [DecidableEq K] [DecidableEq D]

/-- What the switch does. -/
def next (accepts : K → D → Bool) : Acceptor (Switch K D) (SwitchEvent K D) := fun w e =>
  match e with
  | .arrives d => if w.hand = none then some { w with hand := some d } else none
  | .discards d => if w.hand = some d then some { w with hand := none } else none
  | .opens n k d =>
    if w.hand = some d ∧ accepts k d = true ∧ w.key n = none then
      some { w with
        hand := none
        key := Function.update w.key n (some k)
        newest := Function.update w.newest k (some n) }
    else none
  | .delivers n d =>
    match w.key n with
    | none => none
    | some k =>
      if w.hand = some d ∧ accepts k d = true ∧ w.newest k = some n ∧ w.gone n = false then
        some { w with hand := none, inbox := Function.update w.inbox n (w.inbox n ++ [d]) }
      else none
  | .takes n d =>
    match w.inbox n with
    | [] => none
    | front :: rest =>
      if front = d then some { w with inbox := Function.update w.inbox n rest } else none
  | .leaves n =>
    some { w with
      inbox := Function.update w.inbox n []
      gone := Function.update w.gone n true }

end Switch

/-! ## Readings of a log -/

@[simp] def SwitchEvent.arrived : SwitchEvent K D → List D
  | .arrives d => [d]
  | _ => []

/-- The datum whose fate is decided. -/
@[simp] def SwitchEvent.settled : SwitchEvent K D → List D
  | .discards d | .opens _ _ d | .delivers _ d => [d]
  | _ => []

@[simp] def SwitchEvent.deliveredTo (n : Nat) : SwitchEvent K D → List D
  | .delivers n' d => if n' = n then [d] else []
  | _ => []

@[simp] def SwitchEvent.takenBy (n : Nat) : SwitchEvent K D → List D
  | .takes n' d => if n' = n then [d] else []
  | _ => []

def arrivals (es : List (SwitchEvent K D)) : List D := es.flatMap SwitchEvent.arrived

def settled (es : List (SwitchEvent K D)) : List D := es.flatMap SwitchEvent.settled

def deliveries (n : Nat) (es : List (SwitchEvent K D)) : List D :=
  es.flatMap (SwitchEvent.deliveredTo n)

def takings (n : Nat) (es : List (SwitchEvent K D)) : List D := es.flatMap (SwitchEvent.takenBy n)

/-- All that was delivered, to whatever session. -/
def allDeliveries (es : List (SwitchEvent K D)) : List D :=
  es.flatMap fun e => match e with
    | .delivers _ d => [d]
    | _ => []

@[simp] theorem arrivals_append (es fs : List (SwitchEvent K D)) :
    arrivals (es ++ fs) = arrivals es ++ arrivals fs := List.flatMap_append

@[simp] theorem settled_append (es fs : List (SwitchEvent K D)) :
    settled (es ++ fs) = settled es ++ settled fs := List.flatMap_append

@[simp] theorem deliveries_append (n : Nat) (es fs : List (SwitchEvent K D)) :
    deliveries n (es ++ fs) = deliveries n es ++ deliveries n fs := List.flatMap_append

@[simp] theorem takings_append (n : Nat) (es fs : List (SwitchEvent K D)) :
    takings n (es ++ fs) = takings n es ++ takings n fs := List.flatMap_append

@[simp] theorem arrivals_singleton (e : SwitchEvent K D) : arrivals [e] = e.arrived :=
  List.flatMap_singleton _ _

@[simp] theorem settled_singleton (e : SwitchEvent K D) : settled [e] = e.settled :=
  List.flatMap_singleton _ _

@[simp] theorem deliveries_singleton (n : Nat) (e : SwitchEvent K D) :
    deliveries n [e] = e.deliveredTo n := List.flatMap_singleton _ _

@[simp] theorem takings_singleton (n : Nat) (e : SwitchEvent K D) :
    takings n [e] = e.takenBy n := List.flatMap_singleton _ _

section Newest

variable [DecidableEq K]

/-- The session last opened under a key, as the log has it. -/
def newestIn (k : K) : List (SwitchEvent K D) → Option Nat :=
  List.foldl (fun last e => match e with
    | .opens n k' _ => if k' = k then some n else last
    | _ => last) none

/-- Only an opening makes a session the newest of its key. -/
theorem newestIn_append_singleton (k : K) (es : List (SwitchEvent K D)) (e : SwitchEvent K D) :
    newestIn k (es ++ [e]) = match e with
      | .opens n k' _ => if k' = k then some n else newestIn k es
      | _ => newestIn k es := by
  rw [newestIn, List.foldl_append]
  cases e <;> rfl

/-- A datum is delivered to the newest session of a key that accepts it, and a
session is opened under such a key, for the first time. -/
def Served (accepts : K → D → Bool) (pre : List (SwitchEvent K D)) : SwitchEvent K D → Prop
  | .delivers n d => ∃ k, newestIn k pre = some n ∧ accepts k d = true
  | .opens n k d => accepts k d = true ∧ ∀ k' d', .opens n k' d' ∉ pre
  | _ => True

/-- What every log of a switch is like; `w` is where it ends. -/
structure Switched (accepts : K → D → Bool) (es : List (SwitchEvent K D)) (w : Switch K D) :
    Prop where
  settled : settled es ++ w.hand.toList = arrivals es
  inbox : ∀ n, Relay (deliveries n es) (w.inbox n) (takings n es) (w.gone n)
  served : LogAll (Served accepts) es
  newest : ∀ k, newestIn k es = w.newest k
  key : ∀ n k d, .opens n k d ∈ es → w.key n = some k

variable {accepts : K → D → Bool} {es : List (SwitchEvent K D)} {w w' : Switch K D}

/-- The empty log is that of a new switch. -/
theorem switched_new : Switched accepts [] (Switch.new : Switch K D) where
  settled := rfl
  inbox _ := .empty false
  served := logAll_nil _
  newest _ := rfl
  key _ _ _ hmem := absurd hmem List.not_mem_nil

/-- An event that opens nothing leaves the sessions there are and their order. -/
theorem Switched.quiet (h : Switched accepts es w) {e : SwitchEvent K D}
    (hopens : ∀ n k d, e ≠ .opens n k d)
    (hsettled : Lib.settled (es ++ [e]) ++ w'.hand.toList = arrivals (es ++ [e]))
    (hinbox : ∀ n, Relay (deliveries n (es ++ [e])) (w'.inbox n) (takings n (es ++ [e]))
      (w'.gone n))
    (hserved : Served accepts es e) (hnewest : w'.newest = w.newest) (hkey : w'.key = w.key) :
    Switched accepts (es ++ [e]) w' where
  settled := hsettled
  inbox := hinbox
  served := logAll_append_singleton.mpr ⟨h.served, hserved⟩
  newest k := by
    rw [newestIn_append_singleton, hnewest, ← h.newest k]
    cases e with
    | opens n k d => exact absurd rfl (hopens n k d)
    | _ => rfl
  key n k d hmem := by
    rw [hkey]
    rcases List.mem_append.mp hmem with hmem | hmem
    · exact h.key n k d hmem
    · exact absurd (List.mem_singleton.mp hmem).symm (hopens n k d)

/-- An inbox the event does not touch. -/
theorem Switched.inbox_quiet (h : Switched accepts es w) {e : SwitchEvent K D} (n : Nat)
    (hinbox : w'.inbox n = w.inbox n) (hgone : w'.gone n = w.gone n)
    (hdelivered : e.deliveredTo n = []) (htaken : e.takenBy n = []) :
    Relay (deliveries n (es ++ [e])) (w'.inbox n) (takings n (es ++ [e])) (w'.gone n) := by
  rw [deliveries_append, takings_append, deliveries_singleton, takings_singleton, hdelivered,
    htaken, List.append_nil, List.append_nil, hinbox, hgone]
  exact h.inbox n

/-- A datum that arrives is taken in hand. -/
theorem Switched.arrives (h : Switched accepts es w) {d : D} (hhand : w.hand = none) :
    Switched accepts (es ++ [.arrives d]) { w with hand := some d } := by
  refine h.quiet (by simp) ?_ (fun n => h.inbox_quiet n rfl rfl rfl rfl) trivial rfl rfl
  simpa [hhand] using h.settled

/-- The datum in hand is settled by discarding it. -/
theorem Switched.discards (h : Switched accepts es w) {d : D} (hhand : w.hand = some d) :
    Switched accepts (es ++ [.discards d]) { w with hand := none } := by
  refine h.quiet (by simp) ?_ (fun n => h.inbox_quiet n rfl rfl rfl rfl) trivial rfl rfl
  simpa [hhand] using h.settled

/-- The datum in hand goes behind what the newest session of its key has in its
inbox. -/
theorem Switched.delivers (h : Switched accepts es w) {d : D} {n : Nat} {k : K}
    (hhand : w.hand = some d) (haccepts : accepts k d = true) (hnewest : w.newest k = some n)
    (hgone : w.gone n = false) :
    Switched accepts (es ++ [.delivers n d])
      { w with hand := none, inbox := Function.update w.inbox n (w.inbox n ++ [d]) } := by
  refine h.quiet (by simp) ?_ (fun n' => ?_) ⟨k, by rw [h.newest]; exact hnewest, haccepts⟩ rfl rfl
  · simpa [hhand] using h.settled
  · by_cases hn : n' = n
    · subst hn
      have hold := h.inbox n'
      rw [hgone] at hold
      simpa using hold.push [d] (w.gone n')
    · exact h.inbox_quiet n' (Function.update_of_ne hn _ _) rfl
        (if_neg (fun heq => hn heq.symm)) rfl

/-- A session takes the datum that has been in its inbox longest. -/
theorem Switched.takes (h : Switched accepts es w) {d : D} {n : Nat} {rest : List D}
    (hinbox : w.inbox n = d :: rest) :
    Switched accepts (es ++ [.takes n d])
      { w with inbox := Function.update w.inbox n rest } := by
  refine h.quiet (by simp) ?_ (fun n' => ?_) trivial rfl rfl
  · simpa using h.settled
  · by_cases hn : n' = n
    · subst hn
      have hold := h.inbox n'
      rw [hinbox] at hold
      simpa using hold.pop
    · exact h.inbox_quiet n' (Function.update_of_ne hn _ _) rfl rfl
        (if_neg (fun heq => hn heq.symm))

/-- What is in the inbox of a session that leaves is lost. -/
theorem Switched.leaves (h : Switched accepts es w) (n : Nat) :
    Switched accepts (es ++ [.leaves n])
      { w with
        inbox := Function.update w.inbox n []
        gone := Function.update w.gone n true } := by
  refine h.quiet (by simp) ?_ (fun n' => ?_) trivial rfl rfl
  · simpa using h.settled
  · by_cases hn : n' = n
    · subst hn
      simpa using (h.inbox n').close
    · exact h.inbox_quiet n' (Function.update_of_ne hn _ _) (Function.update_of_ne hn _ _) rfl rfl

/-- A session that is opened is the newest of its key, and settles the datum it was
opened for. -/
theorem Switched.opens (h : Switched accepts es w) {d : D} {n : Nat} {k : K}
    (hhand : w.hand = some d) (haccepts : accepts k d = true) (hkey : w.key n = none) :
    Switched accepts (es ++ [.opens n k d])
      { w with
        hand := none
        key := Function.update w.key n (some k)
        newest := Function.update w.newest k (some n) } where
  settled := by
    simpa [hhand] using h.settled
  inbox n' := h.inbox_quiet n' rfl rfl rfl rfl
  served := by
    refine logAll_append_singleton.mpr ⟨h.served, haccepts, fun k' d' hmem => ?_⟩
    rw [h.key n k' d' hmem] at hkey
    cases hkey
  newest k' := by
    rw [newestIn_append_singleton]
    by_cases hk : k = k'
    · subst hk
      simp
    · simp only [if_neg hk]
      rw [h.newest k', Function.update_of_ne (Ne.symm hk)]
  key n' k' d' hmem := by
    rcases List.mem_append.mp hmem with hmem | hmem
    · have hold := h.key n' k' d' hmem
      have hn : n' ≠ n := by
        rintro rfl
        rw [hkey] at hold
        cases hold
      exact (Function.update_of_ne hn _ _).trans hold
    · obtain ⟨rfl, rfl, -⟩ := SwitchEvent.opens.inj (List.mem_singleton.mp hmem)
      exact Function.update_self _ _ _

/-- Every move of a switch keeps its log in order. -/
theorem Switched.next [DecidableEq D] (h : Switched accepts es w) {e : SwitchEvent K D}
    (hnext : Switch.next accepts w e = some w') : Switched accepts (es ++ [e]) w' := by
  cases e with
  | arrives d =>
    simp only [Switch.next] at hnext
    split at hnext
    · next hhand =>
      obtain rfl := Option.some.inj hnext
      exact h.arrives hhand
    · cases hnext
  | discards d =>
    simp only [Switch.next] at hnext
    split at hnext
    · next hhand =>
      obtain rfl := Option.some.inj hnext
      exact h.discards hhand
    · cases hnext
  | opens n k d =>
    simp only [Switch.next] at hnext
    split at hnext
    · next hall =>
      obtain ⟨hhand, haccepts, hkey⟩ := hall
      obtain rfl := Option.some.inj hnext
      exact h.opens hhand haccepts hkey
    · cases hnext
  | delivers n d =>
    simp only [Switch.next] at hnext
    split at hnext
    · cases hnext
    · next k hkey =>
      split at hnext
      · next hall =>
        obtain ⟨hhand, haccepts, hnewest, hgone⟩ := hall
        obtain rfl := Option.some.inj hnext
        exact h.delivers hhand haccepts hnewest hgone
      · cases hnext
  | takes n d =>
    simp only [Switch.next] at hnext
    split at hnext
    · cases hnext
    · next front rest hinbox =>
      split at hnext
      · next hfront =>
        subst hfront
        obtain rfl := Option.some.inj hnext
        exact h.takes hinbox
      · cases hnext
  | leaves n =>
    obtain rfl := Option.some.inj hnext
    exact h.leaves n

/-- **What the logs of a switch have in common.** -/
theorem switched_of_follow [DecidableEq D]
    (hfollow : follow (Switch.next accepts) Switch.new es = some w) :
    Switched accepts es w :=
  follow_induct switched_new (fun _ _ _ _ h hnext => h.next hnext) hfollow

/-- The newest session of a key was opened under it. -/
theorem exists_opens_of_newestIn {k : K} {n : Nat} {es : List (SwitchEvent K D)}
    (h : newestIn k es = some n) : ∃ d, .opens n k d ∈ es := by
  induction es using List.reverseRecOn with
  | nil => cases h
  | append_singleton es e ih =>
    rw [newestIn_append_singleton] at h
    have hlater : newestIn k es = some n → ∃ d, .opens n k d ∈ es ++ [e] := fun hn =>
      (ih hn).imp fun _ hmem => List.mem_append_left _ hmem
    split at h
    · split at h
      · next n' k' d hk =>
        obtain rfl := Option.some.inj h
        subst hk
        exact ⟨d, List.mem_append_right _ (List.mem_singleton.mpr rfl)⟩
      · exact hlater h
    · exact hlater h

/-- A session is served what its own key accepts. -/
theorem Switched.accepts_of_delivered (h : Switched accepts es w) {n : Nat} {d : D}
    (hd : d ∈ deliveries n es) : ∃ k, w.key n = some k ∧ accepts k d = true := by
  obtain ⟨e, he, hde⟩ := List.mem_flatMap.mp hd
  obtain ⟨pre, post, rfl⟩ := List.append_of_mem he
  have hserved := h.served pre e post rfl
  cases e with
  | delivers n' d' =>
    simp only [SwitchEvent.deliveredTo] at hde
    split at hde
    · next hn =>
      subst hn
      obtain rfl := List.mem_singleton.mp hde
      obtain ⟨k, hnewest, haccepts⟩ := hserved
      obtain ⟨d₀, hopened⟩ := exists_opens_of_newestIn hnewest
      exact ⟨k, h.key n' k d₀ (List.mem_append_left _ hopened), haccepts⟩
    · cases hde
  | _ => cases hde

end Newest

/-! ## No datum is served twice -/

/-- Whatever was delivered has been settled, in that order. -/
theorem allDeliveries_sublist_settled (es : List (SwitchEvent K D)) :
    List.Sublist (allDeliveries es) (settled es) := by
  refine List.Sublist.flatMap_right _ fun e _ => ?_
  cases e with
  | delivers n d => exact List.Sublist.refl _
  | _ => exact List.nil_sublist _

/-- The deliveries, to all sessions together, are among the arrivals, each at
most once and in their order. -/
theorem Switched.deliveries_sublist [DecidableEq K] {accepts : K → D → Bool}
    {es : List (SwitchEvent K D)} {w : Switch K D} (h : Switched accepts es w) :
    List.Sublist (allDeliveries es) (arrivals es) := by
  rw [← h.settled]
  exact (allDeliveries_sublist_settled es).trans (List.sublist_append_left _ _)

end MqttScion.Lib
