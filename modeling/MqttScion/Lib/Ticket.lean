import Mathlib.Data.List.Induction

/-!
# Requests that wait for an answer

A request is named by a ticket. It is queued at a place, sent from there under
a key, stored while its answer is awaited, and answered. `Phase` says how far
it has come and `Phase.next` what an event does to it. An event means something
in one phase only, so a log of events determines the phase of every ticket
(`ticketPhase`), and no request is at two places.

A key is what an answer is recognised by. As long as no request is sent under
a key that another one at the same place still awaits, the keys awaited at a
place are distinct, and an answer that carries one is for one request.

> `pending_mem`: a request awaits its answer under the key it was sent with.

> `ticketPhase_answered`: an answered request stays so, with its first answer.

> `Distinct.next`: fresh keys keep the keys distinct.
-/

namespace MqttScion.Lib

/-- How far a request has come. -/
inductive Phase (P R K A : Type)
  | fresh
  | queued (place : P)
  | sent (place : P) (request : R) (key : K)
  | stored (place : P) (request : R) (key : K)
  | answered (answer : A)
  deriving DecidableEq

/-- What happens to requests at a place. An answer is for whoever awaits it. -/
inductive TicketEvent (P T R K A : Type)
  | queue (place : P) (ticket : T)
  | send (place : P) (request : R) (key : K) (ticket : T)
  | store (place : P) (ticket : T)
  | answer (place : P) (answer : A)

variable {P T R K A : Type}

/-- The request that was sent and has not been answered. -/
def Phase.pending : Phase P R K A → Option (P × R × K)
  | .sent place request key => some (place, request, key)
  | .stored place request key => some (place, request, key)
  | _ => none

/-- An answer with this key is awaited at this place. -/
def Phase.Awaits (phase : Phase P R K A) (place : P) (key : K) : Prop :=
  match phase.pending with
  | some (p, _, k) => p = place ∧ k = key
  | none => False

/-- Where the request is. -/
def Phase.place : Phase P R K A → Option P
  | .queued place => some place
  | .sent place _ _ => some place
  | .stored place _ _ => some place
  | _ => none

def TicketEvent.place : TicketEvent P T R K A → P
  | .queue place _ => place
  | .send place _ _ _ => place
  | .store place _ => place
  | .answer place _ => place

instance [DecidableEq P] [DecidableEq K] (phase : Phase P R K A) (place : P) (key : K) :
    Decidable (phase.Awaits place key) :=
  match h : phase.pending with
  | some (p, _, k) => decidable_of_iff (p = place ∧ k = key) (by simp [Phase.Awaits, h])
  | none => .isFalse (by simp [Phase.Awaits, h])

theorem Phase.awaits_iff {phase : Phase P R K A} {place : P} {key : K} :
    phase.Awaits place key ↔ ∃ request, phase.pending = some (place, request, key) := by
  unfold Phase.Awaits
  split
  · next p request k h =>
    rw [h]
    constructor
    · rintro ⟨rfl, rfl⟩
      exact ⟨request, rfl⟩
    · rintro ⟨_, heq⟩
      cases heq
      exact ⟨rfl, rfl⟩
  · next h => simp [h]

variable [DecidableEq P] [DecidableEq T] (acks : A → R → K → Prop)
  [∀ answer request key, Decidable (acks answer request key)]

/-- What an event does to the request of the ticket. -/
def Phase.next (ticket : T) (phase : Phase P R K A) (event : TicketEvent P T R K A) :
    Phase P R K A :=
  match phase, event with
  | .fresh, .queue place t => if t = ticket then .queued place else .fresh
  | .queued place, .send p request key t =>
    if p = place ∧ t = ticket then .sent place request key else .queued place
  | .sent place request key, .store p t =>
    if p = place ∧ t = ticket then .stored place request key else .sent place request key
  | .stored place request key, .answer p answer =>
    if p = place ∧ acks answer request key then .answered answer else .stored place request key
  | phase, _ => phase

/-- The phase of a ticket after a log. -/
def ticketPhase (ticket : T) (es : List (TicketEvent P T R K A)) : Phase P R K A :=
  es.foldl (Phase.next acks ticket) .fresh

variable {acks}

theorem ticketPhase_append (ticket : T) (es es' : List (TicketEvent P T R K A)) :
    ticketPhase acks ticket (es ++ es') =
      es'.foldl (Phase.next acks ticket) (ticketPhase acks ticket es) :=
  List.foldl_append

/-- Only sending a request makes it pending. -/
theorem Phase.pending_next {ticket : T} {phase : Phase P R K A} {event : TicketEvent P T R K A}
    {place : P} {request : R} {key : K}
    (h : (phase.next acks ticket event).pending = some (place, request, key)) :
    phase.pending = some (place, request, key) ∨ event = .send place request key ticket := by
  unfold Phase.next at h
  split at h
  · split at h
    · cases h
    · cases h
  · next p p' request' key' t =>
    split at h
    · next heq =>
      obtain ⟨rfl, rfl⟩ := heq
      cases h
      exact .inr rfl
    · cases h
  · split at h
    · exact .inl h
    · exact .inl h
  · split at h
    · cases h
    · exact .inl h
  · exact .inl h

/-- **A request awaits its answer under the key it was sent with.** -/
theorem pending_mem {ticket : T} {place : P} {request : R} {key : K} :
    ∀ {es : List (TicketEvent P T R K A)},
      (ticketPhase acks ticket es).pending = some (place, request, key) →
        .send place request key ticket ∈ es := by
  intro es
  induction es using List.reverseRecOn with
  | nil =>
    intro h
    cases h
  | append_singleton es event ih =>
    intro h
    rw [ticketPhase_append] at h
    rcases Phase.pending_next h with hbefore | rfl
    · exact List.mem_append_left _ (ih hbefore)
    · exact List.mem_append_right _ List.mem_cons_self

/-- **An answered request stays answered**, with the first answer. -/
theorem foldl_answered (ticket : T) (answer : A) (es : List (TicketEvent P T R K A)) :
    es.foldl (Phase.next acks ticket) (.answered answer : Phase P R K A) = .answered answer := by
  induction es with
  | nil => rfl
  | cons event es ih =>
    rw [List.foldl_cons]
    have hnext : Phase.next acks ticket (.answered answer : Phase P R K A) event =
        .answered answer := by
      cases event <;> rfl
    rw [hnext]
    exact ih

theorem ticketPhase_answered {ticket : T} {answer : A} {es : List (TicketEvent P T R K A)}
    (es' : List (TicketEvent P T R K A)) (h : ticketPhase acks ticket es = .answered answer) :
    ticketPhase acks ticket (es ++ es') = .answered answer := by
  rw [ticketPhase_append, h]
  exact foldl_answered ticket answer es'

/-- What happens elsewhere does not concern a request. -/
theorem Phase.next_elsewhere {ticket : T} {phase : Phase P R K A} {event : TicketEvent P T R K A}
    {place : P} (hplace : phase.place = some place) (h : event.place ≠ place) :
    phase.next acks ticket event = phase := by
  unfold Phase.next
  split
  · cases hplace
  · cases hplace
    exact if_neg fun hat => h hat.1
  · cases hplace
    exact if_neg fun hat => h hat.1
  · cases hplace
    exact if_neg fun hat => h hat.1
  · rfl

theorem ticketPhase_elsewhere {ticket : T} {es : List (TicketEvent P T R K A)} {place : P}
    (hplace : (ticketPhase acks ticket es).place = some place) :
    ∀ {es' : List (TicketEvent P T R K A)}, (∀ event ∈ es', event.place ≠ place) →
      ticketPhase acks ticket (es ++ es') = ticketPhase acks ticket es := by
  intro es'
  induction es' using List.reverseRecOn with
  | nil =>
    intro _
    rw [List.append_nil]
  | append_singleton es' event ih =>
    intro h
    have hbefore := ih fun event' hmem => h event' (List.mem_append_left _ hmem)
    rw [← List.append_assoc, ticketPhase_append, hbefore]
    exact Phase.next_elsewhere hplace (h event (List.mem_append_right _ List.mem_cons_self))

/-! ## Keys -/

/-- At each place a key is awaited for one request. -/
def Distinct (ledger : T → Phase P R K A) : Prop :=
  ∀ t u place key, (ledger t).Awaits place key → (ledger u).Awaits place key → t = u

/-- **Fresh keys keep the keys distinct.** -/
theorem Distinct.next {ledger : T → Phase P R K A} {event : TicketEvent P T R K A}
    (h : Distinct ledger)
    (hfresh : ∀ place request key ticket, event = .send place request key ticket →
      ∀ u, ¬ (ledger u).Awaits place key) :
    Distinct fun ticket => (ledger ticket).next acks ticket event := by
  have hcases : ∀ ticket place key, ((ledger ticket).next acks ticket event).Awaits place key →
      (ledger ticket).Awaits place key ∨ ∃ request, event = .send place request key ticket := by
    intro ticket place key hawaits
    obtain ⟨request, hpending⟩ := Phase.awaits_iff.mp hawaits
    rcases Phase.pending_next hpending with hbefore | hsend
    · exact .inl (Phase.awaits_iff.mpr ⟨request, hbefore⟩)
    · exact .inr ⟨request, hsend⟩
  intro t u place key ht hu
  rcases hcases t place key ht with hold | ⟨request, hsend⟩
  · rcases hcases u place key hu with hold' | ⟨request, hsend⟩
    · exact h t u place key hold hold'
    · exact absurd hold (hfresh place request key u hsend t)
  · rcases hcases u place key hu with hold' | ⟨request', hsend'⟩
    · exact absurd hold' (hfresh place request key t hsend u)
    · -- one event sends one request
      rw [hsend] at hsend'
      cases hsend'
      rfl

/-- Where nothing is sent, the keys stay distinct. -/
theorem Distinct.foldl : ∀ {es : List (TicketEvent P T R K A)} {ledger : T → Phase P R K A},
    Distinct ledger → (∀ place request key ticket, .send place request key ticket ∉ es) →
      Distinct fun ticket => es.foldl (Phase.next acks ticket) (ledger ticket) := by
  intro es
  induction es with
  | nil => exact fun h _ => h
  | cons event es ih =>
    intro ledger h hsend
    refine ih (h.next fun place request key ticket heq => ?_)
      fun place request key ticket hmem => ?_
    · exact absurd (heq ▸ List.mem_cons_self) (hsend place request key ticket)
    · exact hsend place request key ticket (List.mem_cons_of_mem event hmem)

end MqttScion.Lib
