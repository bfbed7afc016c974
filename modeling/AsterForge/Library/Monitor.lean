import AsterForge.Library.Checks

/-!
# Monitors

A program that checks a sequence of events refuses it for many reasons at once, and its state holds what
each of them needs.  A monitor is one such reason: what it allows depends on a state of its own, and how
that state changes does not depend on what the others allow.  A checker is then taken apart into monitors,
and two checkers are compared monitor by monitor.

* **`Realizes.of_ok`**, **`Realizes.to_ok`** — a checker that realizes a monitor accepts the same runs.
-/

namespace AsterForge.Library

universe w

/-- A reason to refuse a sequence of events. -/
structure Monitor (σ α : Type*) where
  allows : σ → α → Prop
  next : σ → α → σ

namespace Monitor

section

variable {σ τ α : Type*} (monitor : Monitor σ α) (other : Monitor τ α)

def after (state : σ) (events : List α) : σ := events.foldl monitor.next state

/-- Each event is allowed when it comes. -/
def Accepts : σ → List α → Prop
  | _, [] => True
  | state, event :: events => monitor.allows state event ∧ Accepts (monitor.next state event) events

variable (stt : σ)

@[simp] lemma after_nil : monitor.after stt [] = stt := rfl

@[simp] lemma after_cons (e : α) (events : List α) :
    monitor.after stt (e :: events) = monitor.after (monitor.next stt e) events := rfl

@[simp] lemma accepts_nil : monitor.Accepts stt [] := trivial

variable {state : σ}

@[simp] lemma accepts_cons {e : α} {events : List α} : monitor.Accepts state (e :: events) ↔
      monitor.allows state e ∧ monitor.Accepts (monitor.next state e) events := Iff.rfl

lemma after_append (first l : List α) :
    monitor.after stt (first ++ l) = monitor.after (monitor.after stt first) l :=
  List.foldl_append

lemma accepts_append {first l : List α} : monitor.Accepts state (first ++ l) ↔
    monitor.Accepts state first ∧ monitor.Accepts (monitor.after state first) l := by
  induction first generalizing state with
  | nil => simp
  | cons e first ih => rw [List.cons_append, accepts_cons, accepts_cons, ih, and_assoc, after_cons]

/-- Two reasons at once. -/
def both : Monitor (σ × τ) α where
  allows := fun state event => monitor.allows state.1 event ∧ other.allows state.2 event
  next := fun state event => (monitor.next state.1 event, other.next state.2 event)

/-- What two monitors accept together is what each of them accepts. -/
theorem both_accepts {s' : τ} {events : List α} : (monitor.both other).Accepts (state, s') events ↔
    monitor.Accepts state events ∧ other.Accepts s' events := by
  induction events generalizing state s' with
  | nil => simp
  | cons e events ih =>
    constructor
    · rintro ⟨⟨h, h'⟩, hr⟩
      obtain ⟨hf, hs⟩ := ih.mp hr
      exact ⟨⟨h, hf⟩, h', hs⟩
    · rintro ⟨⟨h, hf⟩, h', hs⟩
      exact ⟨⟨h, h'⟩, ih.mpr ⟨hf, hs⟩⟩

@[simp] lemma both_after (s' : τ) (events : List α) : (monitor.both other).after (stt, s') events =
    (monitor.after stt events, other.after s' events) := by
  induction events generalizing stt s' with
  | nil => rfl
  | cons e events ih => exact ih _ _

end

section

variable {σ τ : Type w} {α ε : Type*}

structure Realizes (step : τ → α → Except ε τ) (monitor : Monitor σ α) (related : τ → σ → Prop) : Prop where
  sound : ∀ {program : τ} {state : σ} {event : α} {program' : τ}, related program state →
    step program event = .ok program' →
    monitor.allows state event ∧ related program' (monitor.next state event)
  complete : ∀ {program : τ} {state : σ} {event : α}, related program state →
    monitor.allows state event → ∃ program', step program event = .ok program'

variable {s : τ → α → Except ε τ} {mn : Monitor σ α} {r : τ → σ → Prop}

lemma realizes_of_iff (a : τ → α → τ) (hs : ∀ {program state e p'}, r program state →
      (s program e = .ok p' ↔ mn.allows state e ∧ p' = a program e))
    (hr : ∀ {program state e}, r program state → mn.allows state e → r (a program e) (mn.next state e)) :
    Realizes s mn r where
  sound := by
    intro program state e p' h hrn
    obtain ⟨ha, rfl⟩ := (hs h).mp hrn
    exact ⟨ha, hr h ha⟩
  complete := by
    intro program state e h ha
    exact ⟨a program e, (hs h).mpr ⟨ha, rfl⟩⟩

variable {pr : τ} {st : σ} {ev : List α}

lemma Realizes.of_ok (h : Realizes s mn r) {p' : τ} (hrl : r pr st) (hr : ev.foldlM s pr = .ok p') :
    mn.Accepts st ev ∧ r p' (mn.after st ev) := by
  induction ev generalizing pr st with
  | nil =>
    cases hr
    exact ⟨trivial, hrl⟩
  | cons e ev ih =>
    rw [List.foldlM_cons, bind_eq_ok] at hr
    obtain ⟨m, hs, hr⟩ := hr
    obtain ⟨ha, hm⟩ := h.sound hrl hs
    obtain ⟨hac, haf⟩ := ih hm hr
    exact ⟨⟨ha, hac⟩, haf⟩

lemma Realizes.to_ok (h : Realizes s mn r) (hr : r pr st) (ha : mn.Accepts st ev) :
    ∃ p', ev.foldlM s pr = .ok p' := by
  induction ev generalizing pr st with
  | nil => exact ⟨pr, rfl⟩
  | cons e ev ih =>
    obtain ⟨m, hs⟩ := h.complete hr ha.1
    obtain ⟨p', hrn⟩ := ih (h.sound hr hs).2 ha.2
    refine ⟨p', ?_⟩
    rw [List.foldlM_cons, hs, ok_bind, hrn]

end

end Monitor

end AsterForge.Library
