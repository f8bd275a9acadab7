import Mpsystemd.SignalRules
import Mpsystemd.Lib.Runs

/-! Tasks that wait on one open source of the event loop. Other tasks and the
callbacks of signals run only where a task awaits. -/

namespace Mpsystemd

namespace CPython

/-- Where a task is: outside `wait()`, before the next turn of its `while`,
suspended in `event.wait()`, or about to raise `CancelledError` there. -/
inductive WaitState where
  | outside
  | runnable
  | suspended
  | cancelled
  deriving DecidableEq, Repr

def WaitState.woken : WaitState → WaitState
  | suspended => runnable
  | state => state

/-- The call of `_deliver` for a signal, a call of `pending()`, a task that enters
`wait()`, that has its turn, or that is cancelled. -/
inductive QueueEvent where
  | delivers (signo : Int)
  | pending
  | waits (i : Nat)
  | turn (i : Nat)
  | cancels (i : Nat)
  deriving DecidableEq, Repr

/-- `delivered` and `returned` list the signals so far, in order. -/
structure Waiting where
  source : SignalSource
  world : World
  task : Nat → WaitState
  delivered : List Int
  returned : List Int

namespace Waiting

def start (source : SignalSource) (world : World) : Waiting :=
  ⟨source, world, fun _ => .outside, [], []⟩

def setTask (t : Waiting) (i : Nat) (state : WaitState) : Waiting :=
  { t with task := Function.update t.task i state }

def called (t : Waiting) (outcome : (Except PyErr (Option Int) × SignalSource) × World) : Waiting :=
  { t with
    source := outcome.1.2
    world := outcome.2
    returned := t.returned ++ match outcome.1.1 with
      | .ok (some signo) => [signo]
      | _ => [] }

def step (t : Waiting) : QueueEvent → Waiting
  | .delivers signo =>
    { t with
      source := t.source.deliver signo
      task := fun i => (t.task i).woken
      delivered := t.delivered ++ [signo] }
  | .pending => t.called (SignalSource.pending.run t.source t.world)
  | .waits i => if t.task i = .outside then t.setTask i .runnable else t
  | .turn i =>
    match t.task i with
    | .runnable =>
      let outcome := SignalSource.waitTurn.run t.source t.world
      (t.called outcome).setTask i <| match outcome.1.1 with
        -- `await event.wait()` returns at once when the flag is set
        | .ok none => if outcome.1.2.event = some true then .runnable else .suspended
        | _ => .outside
    | .cancelled => t.setTask i .outside
    | _ => t
  | .cancels i => if t.task i = .outside then t else t.setTask i .cancelled

def after (events : List QueueEvent) (t : Waiting) : Waiting := events.foldl step t

end Waiting

namespace SignalSource

/-- As the constructor or a `close()` leaves it. -/
inductive Shut : SignalSource → Prop
  | new (id : Nat) (signals : List Int) : Shut (.new id signals)
  | closed {self self' : SignalSource} {w w' : World}
      (h : close.run self w = ((.ok (), self'), w')) : Shut self'

theorem Shut.queue_eq_nil {self : SignalSource} (h : Shut self) : self.queue = [] := by
  cases h with
  | new id signals => rfl
  | @closed before _ w _ h =>
    rw [close, Py.run, Method.run_bind, Method.run_attributes] at h
    simp only [Method.run_bind, Method.run_update] at h
    split at h
    · cases h
      rfl
    · cases h

/-- The flag of an open source is set whenever a signal is queued. -/
structure Flagged (source : SignalSource) : Prop where
  opened : source.loop = true
  flag : source.event = some true ∨ source.event = some false ∧ source.queue = []

theorem flagged_of_open {self source : SignalSource} {w w' : World} (hempty : self.queue = [])
    (hopen : openSource.run self w = ((.ok (), source), w')) : source.Flagged ∧ source.queue = [] := by
  obtain ⟨result, source', choices, hrun, -, -, hqueue, -, hopened, -⟩ := run_openSource self w
  rw [hopen] at hrun
  cases hrun
  have hnil : source.queue = [] := hqueue.trans hempty
  exact ⟨⟨(hopened rfl).1, .inr ⟨(hopened rfl).2, hnil⟩⟩, hnil⟩

variable {self : SignalSource}

theorem Flagged.deliver (h : self.Flagged) (signo : Int) :
    (self.deliver signo).Flagged ∧ (self.deliver signo).event = some true := by
  have hevent : (self.deliver signo).event = some true := by
    rcases h.flag with hset | ⟨hunset, -⟩
    · rw [SignalSource.deliver, hset, Option.map_some]
    · rw [SignalSource.deliver, hunset, Option.map_some]
  exact ⟨⟨h.opened, .inl hevent⟩, hevent⟩

theorem Flagged.run_pending (h : self.Flagged) (w : World) :
    (self.queue = [] ∧ pending.run self w = ((.ok none, self), w)) ∨
      ∃ signo self', self.queue = signo :: self'.queue ∧ self'.Flagged ∧
        pending.run self w = ((.ok (some signo), self'), w) := by
  rw [pending, Py.run, Method.run_bind_ok Method.run_attributes, if_pos h.opened]
  cases hqueue : self.queue with
  | nil => exact .inl ⟨rfl, rfl⟩
  | cons signo rest =>
    have hset : self.event = some true := by
      rcases h.flag with hset | ⟨-, hnil⟩
      · exact hset
      · rw [hqueue] at hnil
        cases hnil
    by_cases hlast : rest = []
    · refine .inr ⟨signo, clear { self with queue := rest }, rfl, ⟨h.opened, .inr ⟨?_, hlast⟩⟩, ?_⟩
      · show self.event.map _ = _
        rw [hset, Option.map_some]
      · simp only [hlast]
        rfl
    · refine .inr ⟨signo, { self with queue := rest }, rfl, ⟨h.opened, .inl hset⟩, ?_⟩
      simp only [Method.run_bind, Method.run_update, if_neg hlast]
      rfl

theorem Flagged.run_waitTurn (h : self.Flagged) (w : World) :
    (self.queue = [] ∧ ∃ self', self'.queue = [] ∧ self'.Flagged ∧ self'.event = some false ∧
        waitTurn.run self w = ((.ok none, self'), w)) ∨
      ∃ signo self', self.queue = signo :: self'.queue ∧ self'.Flagged ∧
        waitTurn.run self w = ((.ok (some signo), self'), w) := by
  rcases h.run_pending w with ⟨hempty, hrun⟩ | ⟨signo, self', hqueue, hflagged, hrun⟩
  · have hevent : (clear self).event = some false := by
      rcases h.flag with hset | ⟨hunset, -⟩
      · rw [clear, hset, Option.map_some]
      · rw [clear, hunset, Option.map_some]
    refine .inl ⟨hempty, clear self, hempty, ⟨h.opened, .inr ⟨hevent, hempty⟩⟩, hevent, ?_⟩
    rw [waitTurn, Py.run, Method.run_bind_ok hrun]
    rfl
  · refine .inr ⟨signo, self', hqueue, hflagged, ?_⟩
    rw [waitTurn, Py.run, Method.run_bind_ok hrun]
    rfl

end SignalSource

namespace Waiting

/-- A task sleeps only while the flag is clear, and every signal delivered was
returned or is queued. -/
structure Inv (t : Waiting) : Prop where
  flagged : t.source.Flagged
  asleep : ∀ i, t.task i = .suspended → t.source.event = some false
  accounted : t.delivered = t.returned ++ t.source.queue

variable {t : Waiting}

theorem Inv.queue_eq_nil (h : t.Inv) {i : Nat} (hi : t.task i = .suspended) : t.source.queue = [] := by
  rcases h.flagged.flag with hset | ⟨-, hempty⟩
  · rw [h.asleep i hi] at hset
    cases hset
  · exact hempty

theorem Inv.setTask (h : t.Inv) (i : Nat) {state : WaitState}
    (hstate : state = .suspended → t.source.event = some false) : (t.setTask i state).Inv := by
  refine ⟨h.flagged, fun j hj => ?_, h.accounted⟩
  have htask : Function.update t.task i state j = .suspended := hj
  by_cases hji : j = i
  · rw [hji, Function.update_self] at htask
    exact hstate htask
  · rw [Function.update_of_ne hji] at htask
    exact h.asleep j htask

theorem Inv.called_some (h : t.Inv) {signo : Int} {self : SignalSource} {w : World}
    (hqueue : t.source.queue = signo :: self.queue) (hflagged : self.Flagged) :
    (t.called ((.ok (some signo), self), w)).Inv := by
  refine ⟨hflagged, fun i hi => ?_, ?_⟩
  · have hempty := h.queue_eq_nil (show t.task i = .suspended from hi)
    rw [hqueue] at hempty
    cases hempty
  · show t.delivered = t.returned ++ [signo] ++ self.queue
    rw [h.accounted, hqueue, List.append_assoc, List.singleton_append]

theorem Inv.called_none (h : t.Inv) {self : SignalSource} {w : World} (hempty : t.source.queue = [])
    (hempty' : self.queue = []) (hflagged : self.Flagged)
    (hevent : ∀ i, t.task i = .suspended → self.event = some false) :
    (t.called ((.ok none, self), w)).Inv := by
  refine ⟨hflagged, hevent, ?_⟩
  show t.delivered = t.returned ++ [] ++ self.queue
  rw [h.accounted, hempty, hempty', List.append_nil, List.append_nil]

theorem Inv.step (h : t.Inv) (event : QueueEvent) : (t.step event).Inv := by
  cases event with
  | delivers signo =>
    have hawake : ∀ i, (t.task i).woken ≠ .suspended := by
      intro i
      cases t.task i with
      | _ => simp [WaitState.woken]
    refine ⟨(h.flagged.deliver signo).1, fun i hi => absurd hi (hawake i), ?_⟩
    show t.delivered ++ [signo] = t.returned ++ (t.source.queue ++ [signo])
    rw [h.accounted, List.append_assoc]
  | pending =>
    rw [Waiting.step]
    rcases h.flagged.run_pending t.world with ⟨hempty, hrun⟩ | ⟨signo, self, hqueue, hflagged, hrun⟩
    · rw [hrun]
      exact h.called_none hempty hempty h.flagged h.asleep
    · rw [hrun]
      exact h.called_some hqueue hflagged
  | waits i =>
    rw [Waiting.step]
    split
    · exact h.setTask i (by simp)
    · exact h
  | turn i =>
    rw [Waiting.step]
    split
    · rcases h.flagged.run_waitTurn t.world with
        ⟨hempty, self, hempty', hflagged, hevent, hrun⟩ | ⟨signo, self, hqueue, hflagged, hrun⟩
      · rw [hrun]
        exact (h.called_none hempty hempty' hflagged fun _ _ => hevent).setTask i fun _ => hevent
      · rw [hrun]
        exact (h.called_some hqueue hflagged).setTask i (by simp)
    · exact h.setTask i (by simp)
    · exact h
  | cancels i =>
    rw [Waiting.step]
    split
    · exact h
    · exact h.setTask i (by simp)

theorem Inv.after (h : t.Inv) (events : List QueueEvent) : (t.after events).Inv :=
  Runs.invariant Waiting.Inv h (fun _ event hinv => hinv.step event) events

end Waiting

/-- Every signal delivered since `open()` was returned, in order, or is queued,
and none is queued while a task sleeps. -/
theorem no_signal_lost {self source : SignalSource} {w w' : World} (hshut : self.Shut)
    (hopen : SignalSource.openSource.run self w = ((.ok (), source), w')) (events : List QueueEvent) :
    let t := (Waiting.start source w').after events
    t.delivered = t.returned ++ t.source.queue ∧
      ∀ i, t.task i = .suspended → t.source.queue = [] := by
  obtain ⟨hflagged, hempty⟩ := SignalSource.flagged_of_open hshut.queue_eq_nil hopen
  have hstart : (Waiting.start source w').Inv := by
    refine ⟨hflagged, fun i hi => ?_, hempty.symm⟩
    cases hi
  exact ⟨(hstart.after events).accounted, fun i => (hstart.after events).queue_eq_nil⟩

/-- `SIGTERM` comes while two tasks sleep, and one of them is cancelled. -/
theorem no_signal_lost_cancelled :
    let granted : Nat → Choice := fun _ => ⟨none, 0, 0, 0, 0⟩
    let source : SignalSource := ⟨0, [15], [], some false, [15], true⟩
    let world : World :=
      ⟨{ Kernel.bare with loop := true, handlers := Function.update Kernel.bare.handlers 15 (some 0) }, granted⟩
    let t := (Waiting.start source world).after [.waits 0, .turn 0, .waits 1, .turn 1, .delivers 15,
      .cancels 0, .turn 0, .turn 1]
    (t.delivered = t.returned ++ t.source.queue ∧
      ∀ i, t.task i = .suspended → t.source.queue = []) ∧ t.returned = [15] := by
  intro granted source world t
  have hopen : (SignalSource.openSource).run (.new 0 [15]) ⟨{ Kernel.bare with loop := true }, granted⟩ =
      ((.ok (), source), world) := rfl
  exact ⟨no_signal_lost (.new 0 [15]) hopen _, rfl⟩

end CPython

end Mpsystemd
