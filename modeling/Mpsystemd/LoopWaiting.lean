import Mpsystemd.SignalClosing
import Mpsystemd.SignalWaiting

/-! `wait_for_signals` in CPython's event loop, as a task among other activity of the
process: what it reports, and the handlers it leaves. -/

namespace Mpsystemd

namespace CPython

/-- A `wait_for_signals` that has been called, is inside `wait()`, or has ended. -/
inductive WaitPhase where
  | called
  | waits (state : WaitState) (watcher : SignalWatcher SignalSource)
  | ended (ending : Ending Int)

/-- The task has its turn or is cancelled; the loop notices a signal, or calls the
first `_deliver` of the task's source that is scheduled; the rest of the process
does something. -/
inductive WaitEvent where
  | turn
  | cancels
  | arrives (signo : Int)
  | calls
  | others (kernel : Kernel)

/-- `ready` are the calls of `_deliver` that are scheduled, `rest` the loop's handlers
but for what the task has changed. `noticed` are the signals that the loop had the
task's handler for, in order. -/
structure SignalWait where
  phase : WaitPhase
  world : World
  ready : List Int
  rest : Int → Option Nat
  noticed : List Int

namespace SignalWait

def start (world : World) : SignalWait := ⟨.called, world, [], world.kernel.handlers, []⟩

/-- One turn of the `while` of `SignalSource.wait`, with the watcher around it. -/
def lookOnce : Py (SignalWatcher SignalSource) (Option Int) :=
  SignalWatcher.lookOnce backend (Method.zoom SignalWatcher.source SignalWatcher.setSource SignalSource.waitTurn)

def look (t : SignalWait) (watcher : SignalWatcher SignalSource) (w : World) : SignalWait :=
  let outcome := lookOnce.run watcher w
  match outcome.1.1 with
  | .ok none =>
    -- `await event.wait()` returns at once when the flag is set
    let state := if outcome.1.2.source.event = some true then .runnable else .suspended
    { t with phase := .waits state outcome.1.2, world := outcome.2 }
  | .ok (some signo) => { t with phase := .ended (.returned signo), world := outcome.2 }
  | .error e => { t with phase := .ended (.raised e), world := outcome.2 }

def turn (id : Nat) (signals : SignalsArg) (pollMs : Int) (t : SignalWait) : SignalWait :=
  match t.phase with
  | .called =>
    let outcome := (SignalWatcher.enterWait (SignalSource.new id) backend signals pollMs).run () t.world
    match outcome.1.1 with
    | .ok watcher => t.look watcher outcome.2
    | .error e => { t with phase := .ended (.raised e), world := outcome.2 }
  | .waits .runnable watcher => t.look watcher t.world
  | .waits .cancelled watcher =>
    let outcome := (SignalWatcher.close backend).run watcher t.world
    match outcome.1.1 with
    | .ok _ => { t with phase := .ended .cancelled, world := outcome.2 }
    | .error e => { t with phase := .ended (.raised e), world := outcome.2 }
  | _ => t

def step (id : Nat) (signals : SignalsArg) (pollMs : Int) (t : SignalWait) : WaitEvent → SignalWait
  | .turn => t.turn id signals pollMs
  | .cancels =>
    match t.phase with
    | .called => { t with phase := .ended .cancelled }
    | .waits _ watcher => { t with phase := .waits .cancelled watcher }
    | .ended _ => t
  | .arrives signo =>
    if t.world.kernel.handlers signo = some id then
      { t with ready := t.ready ++ [signo], noticed := t.noticed ++ [signo] }
    else t
  | .calls =>
    match t.ready with
    | [] => t
    | signo :: ready =>
      match t.phase with
      | .waits state watcher =>
        { t with
          phase := .waits state.woken (watcher.setSource (watcher.source.deliver signo))
          ready := ready }
      -- a closed source is no longer read
      | _ => { t with ready := ready }
  | .others kernel =>
    { t with
      world.kernel := kernel
      rest := fun signo => if kernel.handlers signo = some id then t.rest signo else kernel.handlers signo }

/-- The rest of the process leaves the task's handlers and sets none in its name, and
has none for the named signals when the task begins. -/
def Spares (id : Nat) (signals : SignalsArg) (t : SignalWait) : WaitEvent → Prop
  | .turn => (match t.phase with | .called => True | _ => False) →
      ∀ signo ∈ signals.toList, t.world.kernel.handlers signo = none
  | .others kernel => ∀ signo, kernel.handlers signo = some id ↔ t.world.kernel.handlers signo = some id
  | _ => True

end SignalWait

/-! Opening the watcher, looking once and closing it. -/

/-- An open watcher that has the handlers of its signals, in a loop that has the
others besides. -/
structure Attends (id : Nat) (signals : List Int) (rest : Int → Option Nat) (watcher : SignalWatcher SignalSource)
    (k : Kernel) : Prop where
  opened : watcher.isOpen = true
  owner : watcher.source.id = id
  flagged : watcher.source.Flagged
  installed : watcher.source.installed = signals
  valid : ∀ signo ∈ signals, Kernel.handlerError signo = none
  handlers : ∀ signo, k.handlers signo = if signo ∈ signals then some id else rest signo
  free : ∀ signo ∈ signals, rest signo = none

namespace Attends

variable {id : Nat} {signals : List Int} {rest : Int → Option Nat} {watcher : SignalWatcher SignalSource}
  {k : Kernel}

theorem run_close {w : World} (h : Attends id signals rest watcher w.kernel) : ∃ watcher' choices,
    (SignalWatcher.close backend).run watcher w =
      ((.ok (), watcher'), ⟨{ w.kernel with handlers := rest }, choices⟩) := by
  obtain ⟨choices, hclose⟩ := SignalSource.run_close watcher.source w (h.installed ▸ h.valid)
  have hrest : SignalSource.unrouted w.kernel watcher.source.installed = { w.kernel with handlers := rest } := by
    have hhandlers : (fun signo => if signo ∈ signals then none else w.kernel.handlers signo) = rest := by
      funext signo
      rw [h.handlers]
      by_cases hsigno : signo ∈ signals
      · rw [if_pos hsigno, h.free signo hsigno]
      · rw [if_neg hsigno, if_neg hsigno]
    rw [SignalSource.unrouted, h.installed, hhandlers]
  rw [hrest] at hclose
  exact ⟨_, choices, SignalWatcher.run_closeWatcher h.opened hclose⟩

/-- With no signal queued the look suspends the task, otherwise it ends the wait with
the first one. -/
theorem run_lookOnce {w : World} (h : Attends id signals rest watcher w.kernel) :
    (watcher.source.queue = [] ∧ ∃ watcher', watcher'.source.queue = [] ∧ watcher'.source.event = some false ∧
        Attends id signals rest watcher' w.kernel ∧ SignalWait.lookOnce.run watcher w = ((.ok none, watcher'), w)) ∨
      ∃ signo queue watcher' choices, watcher.source.queue = signo :: queue ∧
        SignalWait.lookOnce.run watcher w =
          ((.ok (some signo), watcher'), ⟨{ w.kernel with handlers := rest }, choices⟩) := by
  have hzoom : ∀ {result : Except PyErr (Option Int)} {source : SignalSource},
      SignalSource.waitTurn.run watcher.source w = ((result, source), w) →
        Method.run World.perform (Method.zoom SignalWatcher.source SignalWatcher.setSource SignalSource.waitTurn)
          watcher w = ((result, watcher.setSource source), w) := fun hrun => Method.run_zoom_eq hrun
  have hattends : ∀ {result : Except PyErr (Option Int)} {source : SignalSource}, source.Flagged →
      SignalSource.waitTurn.run watcher.source w = ((result, source), w) →
        Attends id signals rest (watcher.setSource source) w.kernel := by
    intro result source hflagged hrun
    obtain ⟨_, queue, event, hkeeps⟩ := Looping.run_waitTurn_keeps watcher.source w
    rw [hrun] at hkeeps
    cases hkeeps
    exact ⟨h.opened, h.owner, hflagged, h.installed, h.valid, h.handlers, h.free⟩
  rcases h.flagged.run_waitTurn w with
    ⟨hempty, source, hempty', hflagged, hevent, hrun⟩ | ⟨signo, source, hqueue, hflagged, hrun⟩
  · refine .inl ⟨hempty, watcher.setSource source, hempty', hevent, hattends hflagged hrun, ?_⟩
    rw [SignalWait.lookOnce, SignalWatcher.lookOnce, Py.run, Method.run_bind, Method.run_handling, hzoom hrun]
    rfl
  · obtain ⟨watcher', choices, hclose⟩ := (hattends hflagged hrun).run_close
    refine .inr ⟨signo, source.queue, watcher', choices, hqueue, ?_⟩
    rw [SignalWait.lookOnce, SignalWatcher.lookOnce, Py.run, Method.run_bind, Method.run_handling, hzoom hrun]
    exact Method.run_bind_ok hclose

end Attends

/-- An open that raises leaves what handlers it got. -/
theorem run_openWatcher (id : Nat) {signals : List Int} (pollMs : Int) {w : World}
    (hfree : ∀ signo ∈ signals, w.kernel.handlers signo = none) :
    (∃ e watcher w', (SignalWatcher.openWatcher backend).run ⟨signals, pollMs, .new id signals, false⟩ w =
        ((.error e, watcher), w') ∧ ∀ signo, w'.kernel.handlers signo = w.kernel.handlers signo ∨
          signo ∈ signals ∧ w'.kernel.handlers signo = some id) ∨
      ∃ watcher w', (SignalWatcher.openWatcher backend).run ⟨signals, pollMs, .new id signals, false⟩ w =
        ((.ok (), watcher), w') ∧ watcher.source.queue = [] ∧
          Attends id signals w.kernel.handlers watcher w'.kernel := by
  obtain ⟨result, source, choices, hrun, howner, -, hqueue, hinstalled, -, harmed⟩ :=
    SignalSource.run_openSource (.new id signals) w
  have hsignals : (SignalSource.new id signals).signals = signals := rfl
  rw [hsignals] at hrun hinstalled harmed
  have hhandlers : ∀ signo, (w.kernel.routed (SignalSource.armed w signals) id).handlers signo =
      if signo ∈ SignalSource.armed w signals then some id else w.kernel.handlers signo := fun _ => rfl
  cases result with
  | error e =>
    refine .inl ⟨e, _, _, SignalWatcher.run_openWatcher_error hrun, fun signo => ?_⟩
    by_cases hsigno : signo ∈ SignalSource.armed w signals
    · exact .inr ⟨(SignalSource.mem_of_armed hsigno).1, (hhandlers signo).trans (if_pos hsigno)⟩
    · exact .inl ((hhandlers signo).trans (if_neg hsigno))
  | ok _ =>
    have hall : SignalSource.armed w signals = signals := (harmed.mp rfl).2
    have hflagged := (SignalSource.flagged_of_open (w := w) rfl hrun).1
    rw [hall] at hrun hinstalled hhandlers
    refine .inr
      ⟨_, _, SignalWatcher.run_openWatcher_ok hrun, hqueue, rfl, howner, hflagged, hinstalled, ?_, hhandlers,
      hfree⟩
    exact fun signo hsigno => (SignalSource.mem_of_armed (hall ▸ hsigno)).2

theorem run_enterWait {id : Nat} {signals : SignalsArg} {pollMs : Int} {w : World}
    (hfree : ∀ signo ∈ signals.toList, w.kernel.handlers signo = none) :
    (∃ e w', (SignalWatcher.enterWait (SignalSource.new id) backend signals pollMs).run () w =
      ((.error e, ()), w') ∧
        ∀ signo, w'.kernel.handlers signo = w.kernel.handlers signo ∨
          signo ∈ signals.toList ∧ w'.kernel.handlers signo = some id) ∨
      ∃ watcher w', (SignalWatcher.enterWait (SignalSource.new id) backend signals pollMs).run () w =
        ((.ok watcher, ()), w') ∧ watcher.source.queue = [] ∧
          Attends id signals.toList w.kernel.handlers watcher w'.kernel := by
  rw [SignalWatcher.enterWait, Py.run, Method.run_bind, Method.run_lift]
  cases hnew : SignalWatcher.new (SignalSource.new id) signals pollMs with
  | error e => exact .inl ⟨e, w, rfl, fun _ => .inl rfl⟩
  | ok watcher =>
    obtain rfl := SignalWatcher.new_eq_ok hnew
    dsimp only
    rw [Method.run_zoom]
    rcases run_openWatcher id pollMs hfree with
      ⟨e, watcher, w', hopen, hhandlers⟩ | ⟨watcher, w', hopen, hqueue, hattends⟩
    · rw [SignalWatcher.aenter, Method.run_bind_error hopen]
      exact .inl ⟨e, w', rfl, hhandlers⟩
    · rw [SignalWatcher.aenter, Method.run_bind_ok hopen]
      exact .inr ⟨watcher, w', rfl, hqueue, hattends⟩

/-! Runs. -/

namespace SignalWait

/-- What handlers the task has: those of its signals while it waits, none before and
after, unless the open raised. -/
def Handles (id : Nat) (signals : List Int) (rest : Int → Option Nat) (k : Kernel) : WaitPhase → Prop
  | .waits _ watcher => Attends id signals rest watcher k
  | .ended (.raised _) => ∀ signo, k.handlers signo = rest signo ∨ signo ∈ signals ∧ k.handlers signo = some id
  | _ => k.handlers = rest

/-- What the task makes of the signals noticed: they are queued, or about to be, until
it returns the first one. -/
def Reports (noticed ready : List Int) : WaitPhase → Prop
  | .called => noticed = [] ∧ ready = []
  | .waits state watcher => noticed = watcher.source.queue ++ ready ∧ state ≠ .outside ∧
      (state = .suspended → watcher.source.queue = [])
  | .ended (.returned signo) => ∃ dropped, noticed = signo :: dropped
  | .ended _ => True

structure Inv (id : Nat) (signals : SignalsArg) (t : SignalWait) : Prop where
  handles : Handles id signals.toList t.rest t.world.kernel t.phase
  reports : Reports t.noticed t.ready t.phase
  others : ∀ signo, t.rest signo ≠ some id
  named : ∀ signo ∈ t.noticed, signo ∈ signals.toList

variable {id : Nat} {signals : SignalsArg} {pollMs : Int} {t : SignalWait}

theorem Inv.mem_of_handler (h : t.Inv id signals) {signo : Int}
    (hhandler : t.world.kernel.handlers signo = some id) :
    signo ∈ signals.toList := by
  have hhandles := h.handles
  cases hphase : t.phase with
  | called =>
    rw [hphase] at hhandles
    have hrest : t.world.kernel.handlers = t.rest := hhandles
    exact absurd (hrest ▸ hhandler) (h.others signo)
  | waits state watcher =>
    rw [hphase] at hhandles
    have hattends : Attends id signals.toList t.rest watcher t.world.kernel := hhandles
    by_contra hsigno
    rw [hattends.handlers, if_neg hsigno] at hhandler
    exact h.others signo hhandler
  | ended ending =>
    rw [hphase] at hhandles
    cases ending with
    | raised e =>
      rcases hhandles signo with hrest | ⟨hsigno, -⟩
      · exact absurd (hrest.symm.trans hhandler) (h.others signo)
      · exact hsigno
    | returned _ | cancelled =>
      have hrest : t.world.kernel.handlers = t.rest := hhandles
      exact absurd (hrest ▸ hhandler) (h.others signo)

theorem inv_look {watcher : SignalWatcher SignalSource} {w : World}
    (hattends : Attends id signals.toList t.rest watcher w.kernel)
    (hnoticed : t.noticed = watcher.source.queue ++ t.ready) (hothers : ∀ signo, t.rest signo ≠ some id)
    (hnamed : ∀ signo ∈ t.noticed, signo ∈ signals.toList) :
    (t.look watcher w).Inv id signals := by
  rw [look]
  rcases hattends.run_lookOnce with
    ⟨hempty, watcher', hempty', hevent, hattends', hrun⟩ | ⟨signo, queue, watcher', choices, hqueue, hrun⟩
  · rw [hempty] at hnoticed
    simp only [hrun, hevent]
    refine ⟨hattends', ⟨?_, by simp, fun _ => hempty'⟩, hothers, hnamed⟩
    rw [hempty']
    exact hnoticed
  · rw [hqueue] at hnoticed
    simp only [hrun]
    exact ⟨rfl, ⟨queue ++ t.ready, hnoticed⟩, hothers, hnamed⟩

theorem Inv.turn (h : t.Inv id signals) (hspares : t.Spares id signals .turn) :
    (t.turn id signals pollMs).Inv id signals := by
  obtain ⟨hhandles, hreports, hothers, hnamed⟩ := h
  rw [SignalWait.turn]
  cases hphase : t.phase with
  | called =>
    rw [hphase] at hhandles hreports
    have hrest : t.world.kernel.handlers = t.rest := hhandles
    obtain ⟨hnoticed, hready⟩ := hreports
    have hfree := hspares (by rw [hphase]; trivial)
    dsimp only
    rcases @run_enterWait id signals pollMs t.world hfree with
      ⟨e, w', hrun, hhandlers⟩ | ⟨watcher, w', hrun, hqueue, hattends⟩
    · rw [hrun]
      exact ⟨hrest ▸ hhandlers, trivial, hothers, hnamed⟩
    · rw [hrun]
      rw [hrest] at hattends
      exact inv_look hattends (by rw [hnoticed, hqueue, hready, List.nil_append]) hothers hnamed
  | waits state watcher =>
    rw [hphase] at hhandles hreports
    have hattends : Attends id signals.toList t.rest watcher t.world.kernel := hhandles
    cases state with
    | runnable => exact inv_look hattends hreports.1 hothers hnamed
    | cancelled =>
      obtain ⟨watcher', choices, hrun⟩ := hattends.run_close
      simp only [hrun]
      exact ⟨rfl, trivial, hothers, hnamed⟩
    | outside | suspended =>
      dsimp only
      exact ⟨hphase ▸ hhandles, hphase ▸ hreports, hothers, hnamed⟩
  | ended ending => exact ⟨hhandles, hreports, hothers, hnamed⟩

theorem Inv.cancels (h : t.Inv id signals) : (t.step id signals pollMs .cancels).Inv id signals := by
  obtain ⟨hhandles, hreports, hothers, hnamed⟩ := h
  rw [step]
  cases hphase : t.phase with
  | called =>
    rw [hphase] at hhandles
    exact ⟨hhandles, trivial, hothers, hnamed⟩
  | waits state watcher =>
    rw [hphase] at hhandles hreports
    exact ⟨hhandles, ⟨hreports.1, by simp, by simp⟩, hothers, hnamed⟩
  | ended ending => exact ⟨hhandles, hreports, hothers, hnamed⟩

theorem Inv.arrives (h : t.Inv id signals) (signo : Int) :
    (t.step id signals pollMs (.arrives signo)).Inv id signals := by
  rw [step]
  split
  · next hhandler =>
    have hsigno := h.mem_of_handler hhandler
    obtain ⟨hhandles, hreports, hothers, hnamed⟩ := h
    refine ⟨hhandles, ?_, hothers, List.forall_mem_append.mpr ⟨hnamed, List.forall_mem_singleton.mpr hsigno⟩⟩
    show Reports (t.noticed ++ [signo]) (t.ready ++ [signo]) t.phase
    cases hphase : t.phase with
    | called =>
      rw [hphase] at hhandles
      have hrest : t.world.kernel.handlers = t.rest := hhandles
      exact absurd (hrest ▸ hhandler) (hothers signo)
    | waits state watcher =>
      rw [hphase] at hreports
      obtain ⟨hnoticed, hstate⟩ := hreports
      exact ⟨by rw [hnoticed, List.append_assoc], hstate⟩
    | ended ending =>
      rw [hphase] at hreports
      cases ending with
      | returned first =>
        obtain ⟨dropped, hnoticed⟩ := hreports
        exact ⟨dropped ++ [signo], by rw [hnoticed, List.cons_append]⟩
      | raised e => exact trivial
      | cancelled => exact trivial
  · exact h

theorem Inv.calls (h : t.Inv id signals) : (t.step id signals pollMs .calls).Inv id signals := by
  obtain ⟨hhandles, hreports, hothers, hnamed⟩ := h
  rw [step]
  cases hready : t.ready with
  | nil => exact ⟨hhandles, hreports, hothers, hnamed⟩
  | cons signo ready =>
    cases hphase : t.phase with
    | called =>
      rw [hphase] at hreports
      cases hreports.2.symm.trans hready
    | waits state watcher =>
      rw [hphase] at hhandles hreports
      obtain ⟨hopened, howner, hflagged, hinstalled, hvalid, hhandlers, hfree⟩ := hhandles
      obtain ⟨hnoticed, hstate, -⟩ := hreports
      have hwoken : state.woken ≠ .outside ∧ state.woken ≠ .suspended := by
        cases state with
        | outside => exact absurd rfl hstate
        | runnable | suspended | cancelled => simp [WaitState.woken]
      refine ⟨⟨hopened, howner, (hflagged.deliver signo).1, hinstalled, hvalid, hhandlers, hfree⟩,
        ⟨?_, hwoken.1, fun hsuspended => absurd hsuspended hwoken.2⟩, hothers, hnamed⟩
      show t.noticed = watcher.source.queue ++ [signo] ++ ready
      rw [hnoticed, hready, List.append_assoc, List.singleton_append]
    | ended ending =>
      rw [hphase] at hhandles hreports
      refine ⟨hhandles, ?_, hothers, hnamed⟩
      cases ending with
      | returned first => exact hreports
      | raised e => exact trivial
      | cancelled => exact trivial

theorem Inv.rest (h : t.Inv id signals) {kernel : Kernel} (hspares : t.Spares id signals (.others kernel)) :
    (t.step id signals pollMs (.others kernel)).Inv id signals := by
  obtain ⟨hhandles, hreports, hothers, hnamed⟩ := h
  have hkept : ∀ signo, t.world.kernel.handlers signo = t.rest signo → kernel.handlers signo ≠ some id := by
    intro signo hrest hhandler
    exact hothers signo (hrest ▸ (hspares signo).mp hhandler)
  refine ⟨?_, hreports, fun signo => ?_, hnamed⟩
  · show Handles id signals.toList _ kernel t.phase
    have hrest : t.world.kernel.handlers = t.rest → kernel.handlers = fun signo =>
        if kernel.handlers signo = some id then t.rest signo else kernel.handlers signo := by
      intro hrest
      funext signo
      rw [if_neg (hkept signo (congrFun hrest signo))]
    cases hphase : t.phase with
    | called =>
      rw [hphase] at hhandles
      exact hrest hhandles
    | waits state watcher =>
      rw [hphase] at hhandles
      obtain ⟨hopened, howner, hflagged, hinstalled, hvalid, hhandlers, hfree⟩ := hhandles
      have htaken : ∀ signo ∈ signals.toList, kernel.handlers signo = some id := by
        intro signo hsigno
        exact (hspares signo).mpr ((hhandlers signo).trans (if_pos hsigno))
      refine ⟨hopened, howner, hflagged, hinstalled, hvalid, fun signo => ?_, fun signo hsigno => ?_⟩
      · by_cases hsigno : signo ∈ signals.toList
        · rw [if_pos hsigno, htaken signo hsigno]
        · have hrest := hkept signo ((hhandlers signo).trans (if_neg hsigno))
          rw [if_neg hsigno]
          exact (if_neg hrest).symm
      · show (if kernel.handlers signo = some id then t.rest signo else kernel.handlers signo) = none
        rw [if_pos (htaken signo hsigno)]
        exact hfree signo hsigno
    | ended ending =>
      rw [hphase] at hhandles
      cases ending with
      | raised e =>
        intro signo
        by_cases hhandler : kernel.handlers signo = some id
        · rcases hhandles signo with hrest | ⟨hsigno, -⟩
          · exact absurd hhandler (hkept signo hrest)
          · exact .inr ⟨hsigno, hhandler⟩
        · exact .inl (if_neg hhandler).symm
      | returned first => exact hrest hhandles
      | cancelled => exact hrest hhandles
  · show (if kernel.handlers signo = some id then t.rest signo else kernel.handlers signo) ≠ some id
    split
    · exact hothers signo
    · assumption

theorem Inv.step (t : SignalWait) (event : WaitEvent) (hspares : t.Spares id signals event) (h : t.Inv id signals) :
    (t.step id signals pollMs event).Inv id signals := by
  cases event with
  | turn => exact h.turn hspares
  | cancels => exact h.cancels
  | arrives signo => exact h.arrives signo
  | calls => exact h.calls
  | others kernel => exact h.rest hspares

/-! What a task inside `wait()` goes on to do. -/

/-- The loop makes the calls that are scheduled. -/
theorem after_calls {ready : List Int} {state : WaitState} {watcher : SignalWatcher SignalSource}
    (hready : t.ready = ready) (hphase : t.phase = .waits state watcher) (hstate : state ≠ .cancelled) :
    let t' := (List.replicate ready.length WaitEvent.calls).foldl (SignalWait.step id signals pollMs) t
    t'.ready = [] ∧ t'.noticed = t.noticed ∧
      ∃ state' watcher', t'.phase = .waits state' watcher' ∧ state' ≠ .cancelled := by
  induction ready generalizing t state watcher with
  | nil => exact ⟨hready, rfl, state, watcher, hphase, hstate⟩
  | cons signo ready ih =>
    have hstep : t.step id signals pollMs .calls =
        { t with
          phase := .waits state.woken (watcher.setSource (watcher.source.deliver signo))
          ready := ready } := by
      simp only [SignalWait.step, hready, hphase]
    have hwoken : state.woken ≠ .cancelled := by
      cases state with
      | cancelled => exact absurd rfl hstate
      | outside | runnable | suspended => simp [WaitState.woken]
    simp only [List.length_cons, List.replicate_succ, List.foldl_cons, hstep]
    exact ih rfl rfl hwoken

theorem inv_calls (h : t.Inv id signals) (n : Nat) :
    ((List.replicate n WaitEvent.calls).foldl (SignalWait.step id signals pollMs) t).Inv id signals := by
  induction n generalizing t with
  | zero => exact h
  | succ n ih => exact ih h.calls

/-- After them the next turn returns the first signal that was noticed. -/
theorem returns_first (h : t.Inv id signals) {state : WaitState} {watcher : SignalWatcher SignalSource}
    (hphase : t.phase = .waits state watcher) (hstate : state ≠ .cancelled) {signo : Int} {later : List Int}
    (hnoticed : t.noticed = signo :: later) :
    ((List.replicate t.ready.length WaitEvent.calls ++ [WaitEvent.turn]).foldl
      (SignalWait.step id signals pollMs) t).phase = .ended (.returned signo) := by
  rw [List.foldl_append, List.foldl_cons, List.foldl_nil]
  obtain ⟨hready, hkept, state', watcher', hphase', hstate'⟩ :=
    @after_calls id signals pollMs t t.ready state watcher rfl hphase hstate
  have hinv := @inv_calls id signals pollMs t h t.ready.length
  generalize (List.replicate t.ready.length WaitEvent.calls).foldl (SignalWait.step id signals pollMs) t = t' at *
  have hattends := hinv.handles
  have hreports := hinv.reports
  rw [hphase'] at hattends hreports
  obtain ⟨hqueue, hinside, hasleep⟩ := hreports
  rw [hkept, hnoticed, hready, List.append_nil] at hqueue
  have hrunnable : state' = .runnable := by
    cases state' with
    | runnable => rfl
    | outside => exact absurd rfl hinside
    | cancelled => exact absurd rfl hstate'
    | suspended => cases hqueue.trans (hasleep rfl)
  have hattends : Attends id signals.toList t'.rest watcher' t'.world.kernel := hattends
  rcases hattends.run_lookOnce with ⟨hempty, -⟩ | ⟨found, queue, watcher₁, choices, hfound, hrun⟩
  · cases hqueue.trans hempty
  · cases hqueue.trans hfound
    simp only [SignalWait.step, SignalWait.turn, hphase', hrunnable, look, hrun]

theorem turn_ne_raised (h : t.Inv id signals) {state : WaitState} {watcher : SignalWatcher SignalSource}
    (hphase : t.phase = .waits state watcher) (e : PyErr) :
    (t.turn id signals pollMs).phase ≠ .ended (.raised e) := by
  have hattends := h.handles
  rw [hphase] at hattends
  have hattends : Attends id signals.toList t.rest watcher t.world.kernel := hattends
  rw [SignalWait.turn, hphase]
  cases state with
  | runnable =>
    dsimp only
    rw [look]
    rcases hattends.run_lookOnce with ⟨-, watcher', -, -, -, hrun⟩ | ⟨signo, queue, watcher', choices, -, hrun⟩
    · simp [hrun]
    · simp [hrun]
  | cancelled =>
    obtain ⟨watcher', choices, hrun⟩ := hattends.run_close
    simp [hrun]
  | outside | suspended => simp [hphase]

end SignalWait

/-- Whatever fails, where the loop has no handlers for the named signals when the task
begins, and the rest of the process leaves those of the task alone and sets none in
its name: a wait for signals that has opened its watcher has the handlers of its
signals until it ends, which it does only by a signal or by cancellation, and then the
loop's handlers are as they were. It returns the first of the signals noticed, at its
next turn once the scheduled calls are made. -/
theorem signal_wait_returns_first (id : Nat) (signals : SignalsArg) (pollMs : Int) (w : World)
    (hnew : ∀ signo, w.kernel.handlers signo ≠ some id) (events : List WaitEvent)
    (hothers : Runs.Each (SignalWait.step id signals pollMs) (SignalWait.Spares id signals) (.start w) events) :
    let t := events.foldl (SignalWait.step id signals pollMs) (.start w)
    (∀ state watcher, t.phase = .waits state watcher →
        (∀ signo ∈ signals.toList,
          (t.step id signals pollMs (.arrives signo)).noticed = t.noticed ++ [signo]) ∧
        (state = .cancelled → (t.step id signals pollMs .turn).phase = .ended .cancelled) ∧
        (∀ e, (t.step id signals pollMs .turn).phase ≠ .ended (.raised e)) ∧
        ∀ signo later, state ≠ .cancelled → t.noticed = signo :: later →
          ((List.replicate t.ready.length WaitEvent.calls ++ [WaitEvent.turn]).foldl
            (SignalWait.step id signals pollMs) t).phase = .ended (.returned signo)) ∧
      (∀ signo, t.phase = .ended (.returned signo) → (∃ dropped, t.noticed = signo :: dropped) ∧
        signo ∈ signals.toList ∧ t.world.kernel.handlers = t.rest) ∧
      (t.phase = .called ∨ t.phase = .ended .cancelled → t.world.kernel.handlers = t.rest) ∧
      ∀ e, t.phase = .ended (.raised e) → ∀ signo, t.world.kernel.handlers signo = t.rest signo ∨
        signo ∈ signals.toList ∧ t.world.kernel.handlers signo = some id := by
  intro t
  have hstart : (SignalWait.start w).Inv id signals := ⟨rfl, ⟨rfl, rfl⟩, hnew, List.forall_mem_nil _⟩
  have hinv : t.Inv id signals :=
    Runs.throughout_of_each (SignalWait.Inv id signals) hstart SignalWait.Inv.step hothers events List.prefix_rfl
  have hhandles := hinv.handles
  have hreports := hinv.reports
  refine ⟨fun state watcher hphase => ⟨fun signo hsigno => ?_, fun hcancelled => ?_, fun e => ?_, ?_⟩, ?_, ?_, ?_⟩
  · rw [hphase] at hhandles
    have hattends : Attends id signals.toList t.rest watcher t.world.kernel := hhandles
    rw [SignalWait.step, if_pos ((hattends.handlers signo).trans (if_pos hsigno))]
  · rw [hphase] at hhandles
    have hattends : Attends id signals.toList t.rest watcher t.world.kernel := hhandles
    obtain ⟨watcher', choices, hrun⟩ := hattends.run_close
    simp only [SignalWait.step, SignalWait.turn, hphase, hcancelled, hrun]
  · exact SignalWait.turn_ne_raised hinv hphase e
  · exact fun signo later hstate hnoticed => SignalWait.returns_first hinv hphase hstate hnoticed
  · intro signo hphase
    rw [hphase] at hhandles hreports
    obtain ⟨dropped, hnoticed⟩ := hreports
    exact ⟨⟨dropped, hnoticed⟩, hinv.named signo (hnoticed ▸ List.mem_cons_self), hhandles⟩
  · intro hphase
    rcases hphase with hphase | hphase
    · rw [hphase] at hhandles
      exact hhandles
    · rw [hphase] at hhandles
      exact hhandles
  · intro e hphase
    rw [hphase] at hhandles
    exact hhandles

def stoppedTwice : List WaitEvent :=
  [.turn, .others { Kernel.bare with loop := true, handlers := fun signo =>
      if signo = sigTerm ∨ signo = sigInt then some 0 else if signo = 17 then some 1 else none },
    .arrives sigTerm, .arrives 17, .arrives sigInt, .calls, .turn]

/-- Another watcher gets a handler, then the service is asked to stop and interrupted
before the task has its turn: the interrupt is dropped. -/
theorem signal_wait_returns_first_stopped :
    let t := stoppedTwice.foldl (SignalWait.step 0 shutdownSignals defaultPollMs) (.start loopWorld)
    t.phase = .ended (.returned sigTerm) ∧ t.noticed = [sigTerm, sigInt] ∧ t.world.kernel.handlers = t.rest ∧
      t.rest 17 = some 1 := by
  intro t
  have hnew : ∀ signo, loopWorld.kernel.handlers signo ≠ some 0 := fun signo => by simp [loopWorld, Kernel.bare]
  have hothers : Runs.Each (SignalWait.step 0 shutdownSignals defaultPollMs) (SignalWait.Spares 0 shutdownSignals)
      (.start loopWorld) stoppedTwice := by
    refine ⟨fun _ _ _ => rfl, fun signo => ?_, trivial, trivial, trivial, trivial, fun hcalled => ?_, trivial⟩
    · show (if signo = sigTerm ∨ signo = sigInt then some 0 else if signo = 17 then some 1 else none) = some 0 ↔
        Function.update (Function.update (fun _ => none) sigTerm (some 0)) sigInt (some 0) signo = some 0
      simp only [Function.update_apply]
      by_cases hterm : signo = sigTerm
      · simp [hterm]
      · by_cases hint : signo = sigInt
        · simp [hint]
        · simp [hterm, hint]
    · exact hcalled.elim
  have hphase : t.phase = .ended (.returned sigTerm) := rfl
  obtain ⟨-, hreturned, -⟩ :=
    signal_wait_returns_first 0 shutdownSignals defaultPollMs loopWorld hnew stoppedTwice hothers
  exact ⟨hphase, rfl, (hreturned sigTerm hphase).2.2, rfl⟩

end CPython

end Mpsystemd
