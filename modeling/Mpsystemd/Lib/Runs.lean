import Mathlib.Data.List.Induction
import Mathlib.Data.List.Infix

/-! Runs of a state machine: the states a list of events goes through from a
start, and what holds in all of them. -/

namespace Runs

variable {σ α : Type*} {step : σ → α → σ} {start : σ}

theorem after_concat (step : σ → α → σ) (start : σ) (past : List α) (event : α) :
    (past ++ [event]).foldl step start = step (past.foldl step start) event := List.foldl_concat ..

theorem invariant (Inv : σ → Prop) (hstart : Inv start)
    (hstep : ∀ s event, Inv s → Inv (step s event)) (events : List α) : Inv (events.foldl step start) := by
  induction events generalizing start with
  | nil => exact hstart
  | cons event events ih => exact ih (hstep start event hstart)

/-- A property that some events keep holds throughout a run when they are the
only ones in it, and at no other time. -/
theorem throughout_iff {Holds : σ → Prop} {Keeps : σ → α → Prop} {events : List α} (hstart : Holds start)
    (hstep : ∀ past event, past ++ [event] <+: events → Holds (past.foldl step start) →
      (Holds (step (past.foldl step start) event) ↔ Keeps (past.foldl step start) event)) :
    (∀ past, past <+: events → Holds (past.foldl step start)) ↔
      ∀ past event, past ++ [event] <+: events → Keeps (past.foldl step start) event := by
  constructor
  · intro hall past event hpast
    have hbefore := hall past ((List.prefix_append past [event]).trans hpast)
    apply (hstep past event hpast hbefore).mp
    rw [← after_concat step]
    exact hall _ hpast
  · intro hkeeps past
    induction past using List.reverseRecOn with
    | nil => exact fun _ => hstart
    | append_singleton past event ih =>
      intro hpast
      have hbefore := ih ((List.prefix_append past [event]).trans hpast)
      rw [after_concat]
      exact (hstep past event hpast hbefore).mpr (hkeeps past event hpast)

/-- Every event of a run is as `P` asks in the state it meets. -/
def Each (step : σ → α → σ) (P : σ → α → Prop) : σ → List α → Prop
  | _, [] => True
  | s, event :: later => P s event ∧ Each step P (step s event) later

theorem each_append {P : σ → α → Prop} {events later : List α} :
    Each step P start (events ++ later) ↔
      Each step P start events ∧ Each step P (events.foldl step start) later := by
  induction events generalizing start with
  | nil => simp [Each]
  | cons first events ih =>
    rw [List.cons_append, Each, Each, ih, and_assoc]
    rfl

theorem each_iff {P : σ → α → Prop} {events : List α} :
    Each step P start events ↔
      ∀ past event, past ++ [event] <+: events → P (past.foldl step start) event := by
  induction events generalizing start with
  | nil => simp [Each]
  | cons first later ih =>
    rw [Each, ih]
    constructor
    · rintro ⟨hfirst, hlater⟩ past event hpast
      cases past with
      | nil =>
        obtain ⟨rfl, -⟩ := List.cons_prefix_cons.mp hpast
        exact hfirst
      | cons _ past =>
        obtain ⟨rfl, hrest⟩ := List.cons_prefix_cons.mp hpast
        exact hlater past event hrest
    · intro hall
      refine ⟨hall [] first ⟨later, rfl⟩, fun past event hpast => ?_⟩
      exact hall (first :: past) event (List.cons_prefix_cons.mpr ⟨rfl, hpast⟩)

/-- What every event keeps that is as `P` asks holds throughout a run of such events. -/
theorem throughout_of_each (Holds : σ → Prop) {P : σ → α → Prop} {events : List α} (hstart : Holds start)
    (hstep : ∀ s event, P s event → Holds s → Holds (step s event)) (h : Each step P start events) :
    ∀ past, past <+: events → Holds (past.foldl step start) := by
  induction events generalizing start with
  | nil =>
    intro past hpast
    rw [List.prefix_nil.mp hpast]
    exact hstart
  | cons first later ih =>
    intro past hpast
    cases past with
    | nil => exact hstart
    | cons event past =>
      obtain ⟨rfl, hrest⟩ := List.cons_prefix_cons.mp hpast
      exact ih (hstep start event h.1 hstart) h.2 past hrest

/-- Two steps that do the same with the events that are as `P` asks, wherever an
invariant holds, do the same in a run of such events. -/
theorem foldl_eq_of_each {step' : σ → α → σ} (Inv : σ → Prop) {P : σ → α → Prop} {events : List α}
    (hstart : Inv start) (hinv : ∀ s event, Inv s → Inv (step s event))
    (hsame : ∀ s event, Inv s → P s event → step s event = step' s event) (h : Each step P start events) :
    events.foldl step start = events.foldl step' start := by
  induction events generalizing start with
  | nil => rfl
  | cons event later ih =>
    obtain ⟨hevent, hlater⟩ := h
    rw [List.foldl_cons, List.foldl_cons, ← hsame start event hstart hevent]
    exact ih (hinv start event hstart) hlater

end Runs
