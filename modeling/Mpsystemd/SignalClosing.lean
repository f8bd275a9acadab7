import Mpsystemd.SignalQueue

/-! Tasks inside `wait()` of a watcher that another task closes. A task that
polls looks again after its sleep; one that awaits the event is woken by a
delivery only. -/

namespace Mpsystemd

def notOpen : PyErr := .systemdError "signal source is not open" []

/-- What a close owes the tasks inside `wait()`: the next turn of each is its
last, it returns a signal or raises, and none is suspended for ever. `turn` is
the outcome of the turn of a task that can have one. -/
structure Releases {σ α : Type} (step : σ → α → σ) (turn : σ → Nat → Option (Except PyErr (Option Int)))
    (suspended : σ → Nat → Prop) (closed : σ) : Prop where
  ends : ∀ (events : List α) i result, turn (events.foldl step closed) i = some result →
    (∃ signo, result = .ok (some signo)) ∨ result = .error notOpen
  wakes : ∀ (events : List α) i, suspended (events.foldl step closed) i →
    ∃ later : List α, ¬ suspended (later.foldl step (events.foldl step closed)) i

theorem SignalWatcher.isOpen_of_run_openWatcher {Source : Type} {backend : Backend Source}
    {self watcher : SignalWatcher Source} {w w' : World}
    (h : (openWatcher backend).run self w = ((.ok (), watcher), w')) : watcher.isOpen = true := by
  rcases hsource : backend.openSource.run self.source w with ⟨⟨result, source⟩, w₁⟩
  cases result with
  | ok _ =>
    rw [run_openWatcher_ok hsource] at h
    cases h
    rfl
  | error e =>
    rw [run_openWatcher_error hsource] at h
    cases h

namespace MicroPython

/-- Where a task is: outside `wait()`, before the next turn of its `while`, or
in `sleep_ms`. -/
inductive PollState where
  | outside
  | runnable
  | sleeping
  deriving DecidableEq, Repr

/-- A signal of the process arrives, a task enters `wait()`, has its turn, or has
slept. -/
inductive PollEvent where
  | arrives (signo : Int)
  | waits (i : Nat)
  | turn (i : Nat)
  | sleeps (i : Nat)
  deriving DecidableEq, Repr

structure Polling where
  watcher : SignalWatcher SignalSource
  world : World
  task : Nat → PollState

namespace Polling

def start (watcher : SignalWatcher SignalSource) (world : World) : Polling := ⟨watcher, world, fun _ => .outside⟩

def setTask (t : Polling) (i : Nat) (state : PollState) : Polling :=
  { t with task := Function.update t.task i state }

def arrive (t : Polling) (signo : Int) : Polling :=
  { t with world.kernel := t.world.kernel.arrive signo }

def pending (t : Polling) : (Except PyErr (Option Int) × SignalWatcher SignalSource) × World :=
  (SignalWatcher.pending backend).run t.watcher t.world

def turn (t : Polling) (i : Nat) : Option (Except PyErr (Option Int)) :=
  if t.task i = .runnable then some t.pending.1.1 else none

def step (t : Polling) : PollEvent → Polling
  | .arrives signo => t.arrive signo
  | .waits i => if t.task i = .outside then t.setTask i .runnable else t
  | .turn i =>
    if t.task i = .runnable then
      ⟨t.pending.1.2, t.pending.2,
        Function.update t.task i (if t.pending.1.1 = .ok none then .sleeping else .outside)⟩
    else t
  | .sleeps i => if t.task i = .sleeping then t.setTask i .runnable else t

def after (events : List PollEvent) (t : Polling) : Polling := events.foldl step t

def close (t : Polling) : Polling :=
  let outcome := (SignalWatcher.close backend).run t.watcher t.world
  ⟨outcome.1.2, outcome.2, t.task⟩

variable {t : Polling}

theorem pending_closed (h : t.watcher.source.fd < 0) :
    t.pending = ((.error notOpen, t.watcher), t.world) := by
  have hpending : SignalSource.pending.run t.watcher.source t.world =
      ((.error notOpen, t.watcher.source), t.world) := by
    rw [SignalSource.pending, Py.run, Method.run_bind_ok Method.run_attributes, if_pos h]
    rfl
  exact Method.run_zoom_eq hpending

theorem pending_isOpen : t.pending.1.2.isOpen = t.watcher.isOpen := by
  rw [pending, SignalWatcher.pending, Py.run, Method.run_zoom]
  rfl

theorem step_isOpen (event : PollEvent) : (t.step event).watcher.isOpen = t.watcher.isOpen := by
  cases event with
  | arrives signo => rfl
  | turn i =>
    rw [step]
    split
    · exact pending_isOpen
    · rfl
  | waits i | sleeps i =>
    rw [step]
    split
    · rfl
    · rfl

theorem step_closed (h : t.watcher.source.fd < 0) (event : PollEvent) :
    (t.step event).watcher.source.fd < 0 := by
  cases event with
  | arrives signo => exact h
  | turn i =>
    rw [step, pending_closed h]
    split
    · exact h
    · exact h
  | waits i | sleeps i =>
    rw [step]
    split
    · exact h
    · exact h

theorem closed_of_close (hopen : t.watcher.isOpen = true) : t.close.watcher.source.fd < 0 := by
  have hends : Py.Ends (SignalWatcher.close backend) (fun _ self _ => self.source.fd < 0)
      (fun _ self _ => self.source.fd < 0) t.watcher t.world.kernel :=
    Watchers.ends_closeWatcher hopen (SignalSource.ends_close fun fd _ hfd _ => hfd)
  exact (Method.outcome_iff fun _ (self : SignalWatcher SignalSource) _ => self.source.fd < 0).mp hends.run

def Released (t : Polling) : Prop := Releases step turn (fun t i => t.task i = .sleeping) t

theorem released_close (hopen : t.watcher.isOpen = true) : t.close.Released := by
  have hclosed : ∀ events : List PollEvent, (events.foldl step t.close).watcher.source.fd < 0 :=
    Runs.invariant (fun t : Polling => t.watcher.source.fd < 0) (closed_of_close hopen)
      fun _ event h => step_closed h event
  constructor
  · intro events i result hturn
    rw [turn, pending_closed (hclosed events)] at hturn
    split at hturn
    · cases hturn
      exact .inr rfl
    · cases hturn
  · intro events i hsleeping
    have hwoken : ((events.foldl step t.close).step (.sleeps i)).task i = .runnable := by
      rw [step, if_pos hsleeping]
      exact Function.update_self ..
    refine ⟨[.sleeps i], ?_⟩
    rw [List.foldl_cons, List.foldl_nil, hwoken]
    simp

end Polling

end MicroPython

namespace CPython

theorem SignalSource.ends_removeAll (signals : List Int) {self : SignalSource}
    (hinstalled : self.installed = signals.reverse) (k : Kernel) :
    Py.Ends (removeAll signals) (fun _ self' _ => self'.installed = []) (fun _ _ _ => True) self k := by
  induction signals generalizing self k with
  | nil => exact hinstalled
  | cons signo rest ih =>
    have hrest : ∀ k', Py.Ends (removeAll rest) (fun _ self' _ => self'.installed = []) (fun _ _ _ => True)
        { self with installed := rest.reverse } k' := fun k' => ih rfl k'
    refine Method.obeys_bind.mpr (Method.obeys_update.mpr (Method.obeys_bind.mpr
      (Method.obeys_handling.mpr (Method.obeys_bind.mpr (Method.obeys_call.mpr ⟨trivial, ?_⟩)))))
    intro reply k' _
    cases reply with
    | ok _ => exact hrest k'
    | error e =>
      refine Method.obeys_lift_error.mpr ?_
      split
      · exact hrest k'
      · exact trivial

theorem SignalSource.Shut.installed_eq_nil {self : SignalSource} (h : self.Shut) : self.installed = [] := by
  cases h with
  | new id signals => rfl
  | @closed before _ w _ h =>
    have hends : Py.Ends close (fun _ self' _ => self'.installed = []) (fun _ _ _ => True) before w.kernel :=
      Method.obeys_bind.mpr (Method.obeys_attributes.mpr (Method.obeys_bind.mpr
        (ends_removeAll before.installed.reverse (List.reverse_reverse _).symm w.kernel)))
    have hpost := hends.run
    rw [h] at hpost
    exact hpost

/-- The loop notices a signal of the process, it calls the first callback that is
scheduled, a task enters `wait()`, or has its turn. -/
inductive LoopEvent where
  | arrives (signo : Int)
  | calls
  | waits (i : Nat)
  | turn (i : Nat)
  deriving DecidableEq, Repr

/-- `ready` are the calls of the source's `_deliver` that are scheduled: a handler
that is removed no longer schedules any, those that are scheduled are made. -/
structure Looping where
  watcher : SignalWatcher SignalSource
  world : World
  task : Nat → WaitState
  ready : List Int

namespace Looping

def start (watcher : SignalWatcher SignalSource) (world : World) : Looping :=
  ⟨watcher, world, fun _ => .outside, []⟩

def setTask (t : Looping) (i : Nat) (state : WaitState) : Looping :=
  { t with task := Function.update t.task i state }

def waitTurn (t : Looping) : (Except PyErr (Option Int) × SignalWatcher SignalSource) × World :=
  (Method.zoom SignalWatcher.source SignalWatcher.setSource SignalSource.waitTurn).run World.perform
    t.watcher t.world

def turn (t : Looping) (i : Nat) : Option (Except PyErr (Option Int)) :=
  if t.task i = .runnable then some t.waitTurn.1.1 else none

/-- Where a turn leaves its task: `await event.wait()` returns at once when the
flag is set. -/
def turned (t : Looping) : WaitState :=
  if t.waitTurn.1.1 = .ok none then
    if t.waitTurn.1.2.source.event = some true then .runnable else .suspended
  else .outside

def step (t : Looping) : LoopEvent → Looping
  | .arrives signo =>
    if t.world.kernel.handlers signo = some t.watcher.source.id then { t with ready := t.ready ++ [signo] }
    else t
  | .calls =>
    match t.ready with
    | [] => t
    | signo :: ready =>
      { t with
        watcher := t.watcher.setSource (t.watcher.source.deliver signo)
        task := fun i => (t.task i).woken
        ready := ready }
  | .waits i => if t.task i = .outside then t.setTask i .runnable else t
  | .turn i =>
    if t.task i = .runnable then
      ⟨t.waitTurn.1.2, t.waitTurn.2, Function.update t.task i t.turned, t.ready⟩
    else t

def after (events : List LoopEvent) (t : Looping) : Looping := events.foldl step t

def close (t : Looping) : Looping :=
  let outcome := (SignalWatcher.close backend).run t.watcher t.world
  ⟨outcome.1.2, outcome.2, t.task, t.ready⟩

variable {t : Looping}

structure Open (t : Looping) : Prop where
  isOpen : t.watcher.isOpen = true
  routed : ∀ signo, t.world.kernel.handlers signo = some t.watcher.source.id →
    signo ∈ t.watcher.source.installed
  valid : ∀ signo ∈ t.watcher.source.installed, Kernel.handlerError signo = none

/-- A closed watcher has no loop, and the loop no handlers for it. -/
structure Closed (t : Looping) : Prop where
  loop : t.watcher.source.loop = false
  unrouted : ∀ signo, t.world.kernel.handlers signo ≠ some t.watcher.source.id

theorem waitTurn_closed (h : t.watcher.source.loop = false) :
    t.waitTurn = ((.error notOpen, t.watcher), t.world) := by
  have hpending : SignalSource.pending.run t.watcher.source t.world =
      ((.error notOpen, t.watcher.source), t.world) := by
    rw [SignalSource.pending, Py.run, Method.run_bind_ok Method.run_attributes, if_neg (by simp [h])]
    rfl
  have hturn : SignalSource.waitTurn.run t.watcher.source t.world =
      ((.error notOpen, t.watcher.source), t.world) := by
    rw [SignalSource.waitTurn, Py.run, Method.run_bind_error hpending]
  exact Method.run_zoom_eq hturn

theorem run_waitTurn_keeps (self : SignalSource) (w : World) : ∃ result queue event,
    SignalSource.waitTurn.run self w = ((result, { self with queue := queue, event := event }), w) := by
  obtain ⟨id, signals, queue, event, installed, loop⟩ := self
  cases loop with
  | false => exact ⟨_, _, _, rfl⟩
  | true =>
    cases queue with
    | nil => exact ⟨_, _, _, rfl⟩
    | cons signo rest =>
      cases rest with
      | nil => exact ⟨_, _, _, rfl⟩
      | cons _ _ => exact ⟨_, _, _, rfl⟩

theorem waitTurn_keeps (t : Looping) : ∃ result queue event, t.waitTurn =
    ((result, t.watcher.setSource { t.watcher.source with queue := queue, event := event }), t.world) := by
  obtain ⟨result, queue, event, hrun⟩ := run_waitTurn_keeps t.watcher.source t.world
  exact ⟨result, queue, event, Method.run_zoom_eq hrun⟩

theorem Open.step (h : t.Open) (event : LoopEvent) : (t.step event).Open := by
  cases event with
  | arrives signo =>
    rw [Looping.step]
    split
    · exact ⟨h.isOpen, h.routed, h.valid⟩
    · exact h
  | calls =>
    rw [Looping.step]
    split
    · exact h
    · exact ⟨h.isOpen, h.routed, h.valid⟩
  | turn i =>
    obtain ⟨result, queue, event, hturn⟩ := t.waitTurn_keeps
    rw [Looping.step, hturn]
    split
    · exact ⟨h.isOpen, h.routed, h.valid⟩
    · exact h
  | waits i =>
    rw [Looping.step]
    split
    · exact ⟨h.isOpen, h.routed, h.valid⟩
    · exact h

theorem Closed.step (h : t.Closed) (event : LoopEvent) : (t.step event).Closed := by
  cases event with
  | arrives signo =>
    rw [Looping.step, if_neg (h.unrouted signo)]
    exact h
  | calls =>
    rw [Looping.step]
    split
    · exact h
    · exact ⟨h.loop, h.unrouted⟩
  | turn i =>
    rw [Looping.step, waitTurn_closed h.loop]
    split
    · exact ⟨h.loop, h.unrouted⟩
    · exact h
  | waits i =>
    rw [Looping.step]
    split
    · exact ⟨h.loop, h.unrouted⟩
    · exact h

theorem Open.close (h : t.Open) : t.close.Closed ∧ t.close.task = t.task ∧ t.close.ready = t.ready := by
  obtain ⟨choices, hclose⟩ := SignalSource.run_close t.watcher.source t.world h.valid
  have hrun := @SignalWatcher.run_closeWatcher _ backend _ _ _ _ h.isOpen hclose
  refine ⟨?_, rfl, rfl⟩
  rw [Looping.close, hrun]
  refine ⟨rfl, fun signo hrouted => ?_⟩
  have hhandler : (if signo ∈ t.watcher.source.installed then none else t.world.kernel.handlers signo) =
      some t.watcher.source.id := hrouted
  split at hhandler
  · cases hhandler
  · next hinstalled => exact hinstalled (h.routed signo hhandler)

/-- No task is suspended, or a delivery that wakes all of them is to come. -/
def Wakeable (t : Looping) : Prop := (∀ i, t.task i ≠ .suspended) ∨ t.ready ≠ []

theorem Closed.wakeable_step (h : t.Closed) (hwakeable : t.Wakeable) (event : LoopEvent) :
    (t.step event).Wakeable := by
  have hset : ∀ (i : Nat) (state : WaitState) {ready : List Int}, state ≠ .suspended →
      ((∀ j, t.task j ≠ .suspended) ∨ ready ≠ []) →
      (∀ j, Function.update t.task i state j ≠ .suspended) ∨ ready ≠ [] := by
    intro i state ready hstate hbefore
    exact hbefore.imp_left fun hnone =>
      (Function.forall_update_iff t.task fun _ task => task ≠ .suspended).mpr ⟨hstate, fun j _ => hnone j⟩
  -- Every turn of a closed source raises, so no task suspends anew, and a delivery
  -- wakes all of them.
  cases event with
  | arrives signo =>
    rw [Looping.step, if_neg (h.unrouted signo)]
    exact hwakeable
  | calls =>
    rw [Looping.step]
    split
    · exact hwakeable
    · refine .inl fun i => ?_
      show (t.task i).woken ≠ .suspended
      cases t.task i with
      | _ => simp [WaitState.woken]
  | turn i =>
    have hturned : t.turned ≠ .suspended := by
      rw [turned, waitTurn_closed h.loop]
      simp
    rw [Looping.step]
    split
    · exact hset i t.turned hturned hwakeable
    · exact hwakeable
  | waits i =>
    rw [Looping.step]
    split
    · exact hset i .runnable (by simp) hwakeable
    · exact hwakeable

/-- A task that is suspended at a close stays so when no delivery is scheduled. -/
structure Stranded (t : Looping) (i : Nat) : Prop where
  closed : t.Closed
  idle : t.ready = []
  suspended : t.task i = .suspended

theorem Stranded.step {i : Nat} (h : t.Stranded i) (event : LoopEvent) : (t.step event).Stranded i := by
  have hset : ∀ (j : Nat) (state : WaitState), t.task j ≠ .suspended →
      Function.update t.task j state i = .suspended := by
    intro j state hj
    have hne : i ≠ j := fun heq => hj (heq ▸ h.suspended)
    rw [Function.update_of_ne hne, h.suspended]
  -- No handler and no delivery is left to set the event.
  have hkept : (t.step event).ready = [] ∧ (t.step event).task i = .suspended := by
    cases event with
    | arrives signo =>
      rw [Looping.step, if_neg (h.closed.unrouted signo)]
      exact ⟨h.idle, h.suspended⟩
    | calls =>
      have hstep : t.step .calls = t := by simp only [Looping.step, h.idle]
      rw [hstep]
      exact ⟨h.idle, h.suspended⟩
    | turn j =>
      rw [Looping.step]
      split
      · next hj => exact ⟨h.idle, hset j t.turned (by simp [hj])⟩
      · exact ⟨h.idle, h.suspended⟩
    | waits j =>
      rw [Looping.step]
      split
      · next hj => exact ⟨h.idle, hset j .runnable (by simp [hj])⟩
      · exact ⟨h.idle, h.suspended⟩
  exact ⟨h.closed.step event, hkept.1, hkept.2⟩

theorem Stranded.after {i : Nat} (h : t.Stranded i) (events : List LoopEvent) :
    (t.after events).Stranded i :=
  Runs.invariant (fun t : Looping => t.Stranded i) h (fun _ event hstranded => hstranded.step event) events

theorem Wakeable.wakes (h : t.Wakeable) (i : Nat) : ∃ later, (t.after later).task i ≠ .suspended := by
  rcases h with hnone | hready
  · exact ⟨[], hnone i⟩
  · obtain ⟨signo, ready, hcons⟩ := List.exists_cons_of_ne_nil hready
    have hwoken : (t.step .calls).task i = (t.task i).woken := by simp only [Looping.step, hcons]
    refine ⟨[.calls], ?_⟩
    show (t.step .calls).task i ≠ .suspended
    rw [hwoken]
    cases t.task i with
    | _ => simp [WaitState.woken]

def Released (t : Looping) : Prop := Releases Looping.step turn (fun t i => t.task i = .suspended) t

theorem Open.released_close_iff (h : t.Open) : t.close.Released ↔ t.Wakeable := by
  obtain ⟨hclosed, htask, hready⟩ := h.close
  constructor
  · intro hreleases
    by_contra hstuck
    obtain ⟨hsome, hidle⟩ := not_or.mp hstuck
    obtain ⟨i, hi⟩ := not_forall.mp hsome
    have hstranded : t.close.Stranded i :=
      ⟨hclosed, hready.trans (not_not.mp hidle), (congrFun htask i).trans (not_not.mp hi)⟩
    obtain ⟨later, hwoken⟩ := hreleases.wakes [] i hstranded.suspended
    exact hwoken (hstranded.after later).suspended
  · intro hwakeable
    have hstart : t.close.Closed ∧ t.close.Wakeable := by
      refine ⟨hclosed, ?_⟩
      rw [Wakeable, htask, hready]
      exact hwakeable
    -- The invariant of the runs after the close.
    have hafter : ∀ events, (t.close.after events).Closed ∧ (t.close.after events).Wakeable :=
      Runs.invariant (fun t : Looping => t.Closed ∧ t.Wakeable) hstart
        fun _ event hboth => ⟨hboth.1.step event, hboth.1.wakeable_step hboth.2 event⟩
    constructor
    · intro events i result hturn
      have hclosed' : (events.foldl Looping.step t.close).Closed := (hafter events).1
      rw [turn, waitTurn_closed hclosed'.loop] at hturn
      split at hturn
      · cases hturn
        exact .inr rfl
      · cases hturn
    · intro events i _
      exact (hafter events).2.wakes i

theorem open_start {self watcher : SignalWatcher SignalSource} {w w' : World} (hshut : self.source.Shut)
    (hunused : ∀ signo, w.kernel.handlers signo ≠ some self.source.id)
    (hopen : (SignalWatcher.openWatcher backend).run self w = ((.ok (), watcher), w')) :
    (start watcher w').Open := by
  obtain ⟨result, source, isOpen, choices, hrun, hid, -, -, hinstalled, hresult⟩ :=
    SignalSource.run_openWatcher self w
  rw [hopen] at hrun
  cases hrun
  obtain ⟨-, hisOpen, -⟩ | ⟨⟨e, he⟩, -⟩ := hresult
  · rw [hshut.installed_eq_nil, List.nil_append] at hinstalled
    refine ⟨hisOpen, fun signo hrouted => ?_, fun signo hsigno => ?_⟩
    · have hhandler : (if signo ∈ SignalSource.armed w self.source.signals then some self.source.id
          else w.kernel.handlers signo) = some source.id := hrouted
      show signo ∈ source.installed
      rw [hinstalled]
      split at hhandler
      · next harmed => exact harmed
      · exact absurd (hid ▸ hhandler) (hunused signo)
    · have harmed : signo ∈ SignalSource.armed w self.source.signals := hinstalled ▸ hsigno
      exact (SignalSource.mem_of_armed harmed).2
  · cases he

end Looping

end CPython

/-- A close of a MicroPython watcher releases the tasks in every run. One of a
CPython watcher does in a run exactly when no task is suspended at the close, or
a delivery is scheduled. -/
theorem close_releases_iff {polled polling : SignalWatcher MicroPython.SignalSource} {v v' : World}
    (hpoll : (SignalWatcher.openWatcher MicroPython.backend).run polled v = ((.ok (), polling), v'))
    (polls : List MicroPython.PollEvent) {looped looping : SignalWatcher CPython.SignalSource} {w w' : World}
    (hshut : looped.source.Shut) (hunused : ∀ signo, w.kernel.handlers signo ≠ some looped.source.id)
    (hloop : (SignalWatcher.openWatcher CPython.backend).run looped w = ((.ok (), looping), w'))
    (events : List CPython.LoopEvent) :
    ((MicroPython.Polling.start polling v').after polls).close.Released ∧
      let t := (CPython.Looping.start looping w').after events
      t.close.Released ↔ (∀ i, t.task i ≠ .suspended) ∨ t.ready ≠ [] := by
  constructor
  · have ht : ((MicroPython.Polling.start polling v').after polls).watcher.isOpen = true :=
      Runs.invariant (fun t : MicroPython.Polling => t.watcher.isOpen = true)
        (SignalWatcher.isOpen_of_run_openWatcher hpoll) (fun t event h => (t.step_isOpen event).trans h) polls
    exact MicroPython.Polling.released_close ht
  · have ht : ((CPython.Looping.start looping w').after events).Open :=
      Runs.invariant CPython.Looping.Open (CPython.Looping.open_start hshut hunused hloop)
        (fun _ event h => h.step event) events
    exact ht.released_close_iff

def granted : Nat → Choice := fun _ => ⟨none, 5, 0, 0, 0⟩

def loopWatcher : SignalWatcher CPython.SignalSource := ⟨[15], 200, .new 0 [15], false⟩

def loopWorld : World := ⟨{ Kernel.bare with loop := true }, granted⟩

def loopOpened : (Except PyErr Unit × SignalWatcher CPython.SignalSource) × World :=
  (SignalWatcher.openWatcher CPython.backend).run loopWatcher loopWorld

def pollWatcher : SignalWatcher MicroPython.SignalSource := ⟨[15], 200, .new [15], false⟩

def pollOpened : (Except PyErr Unit × SignalWatcher MicroPython.SignalSource) × World :=
  (SignalWatcher.openWatcher MicroPython.backend).run pollWatcher ⟨Kernel.bare, granted⟩

theorem run_loopWatcher : (SignalWatcher.openWatcher CPython.backend).run loopWatcher loopWorld =
    ((.ok (), loopOpened.1.2), loopOpened.2) := rfl

theorem unused_loopWatcher (signo : Int) : loopWorld.kernel.handlers signo ≠ some loopWatcher.source.id := by
  simp [loopWorld, Kernel.bare]

/-- A task sleeps at the close, and the delivery of a `SIGTERM` is scheduled. -/
theorem close_releases_iff_scheduled :
    ((MicroPython.Polling.start pollOpened.1.2 pollOpened.2).after [.waits 0, .turn 0]).close.Released ∧
      ((CPython.Looping.start loopOpened.1.2 loopOpened.2).after
        [.waits 0, .turn 0, .arrives 15]).close.Released := by
  have hpoll : (SignalWatcher.openWatcher MicroPython.backend).run pollWatcher ⟨Kernel.bare, granted⟩ =
      ((.ok (), pollOpened.1.2), pollOpened.2) := rfl
  obtain ⟨hpolling, hlooping⟩ := close_releases_iff hpoll [.waits 0, .turn 0] (.new 0 [15]) unused_loopWatcher
    run_loopWatcher [.waits 0, .turn 0, .arrives 15]
  exact ⟨hpolling, hlooping.mpr (.inr (by decide))⟩

/-- A task sleeps at the close, and nothing wakes it. -/
theorem close_strands_waiter :
    loopOpened.1.1 = .ok () ∧
      let t := (CPython.Looping.start loopOpened.1.2 loopOpened.2).after [.waits 0, .turn 0]
      t.task 0 = .suspended ∧ (∀ events, (t.close.after events).task 0 = .suspended) ∧ ¬ t.close.Released := by
  refine ⟨rfl, ?_⟩
  intro t
  have hopen : t.Open := Runs.invariant CPython.Looping.Open
    (CPython.Looping.open_start (.new 0 [15]) unused_loopWatcher run_loopWatcher)
    (fun _ event h => h.step event) [.waits 0, .turn 0]
  have hstranded : t.close.Stranded 0 := ⟨hopen.close.1, rfl, rfl⟩
  refine ⟨rfl, fun events => (hstranded.after events).suspended, fun hreleased => ?_⟩
  obtain ⟨later, hwoken⟩ := hreleased.wakes [] 0 hstranded.suspended
  exact hwoken (hstranded.after later).suspended

end Mpsystemd
