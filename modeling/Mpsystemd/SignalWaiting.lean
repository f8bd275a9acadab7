import Mpsystemd.SignalRules
import Mpsystemd.Lib.Runs

/-! `wait_for_signals` on the unix port, as a task among other activity of the
process: the mask and the descriptors it leaves, and what becomes of the signals. -/

namespace Mpsystemd

def sigInt : Int := 2

def sigTerm : Int := 15

def shutdownSignals : SignalsArg := .many [sigTerm, sigInt]

def defaultPollMs : Int := 200

namespace SignalWatcher

variable {Source : Type}

/-- The `async with` up to the first `await`: the watcher is made and opened. -/
def enterWait (makeSource : List Int → Source) (backend : Backend Source) (signals : SignalsArg) (pollMs : Int)
    {σ : Type} : Py σ (SignalWatcher Source) := do
  let watcher ← Method.lift (new makeSource signals pollMs)
  Method.zoom (fun _ => watcher) (fun self _ => self) do
    aenter backend
    Method.attributes

/-- One turn of the `while` of `wait()`. A signal or an exception ends the `async
with`, which closes the watcher. -/
def lookOnce (backend : Backend Source) (look : Py (SignalWatcher Source) (Option Int)) :
    Py (SignalWatcher Source) (Option Int) := do
  let found ← Method.handling look fun e => do
    close backend
    Method.raise e
  if found.isSome then close backend
  return found

end SignalWatcher

namespace MicroPython

/-- A `wait_for_signals` that has been called, sleeps between two looks, or has ended. -/
inductive WaitPhase where
  | called
  | asleep (watcher : SignalWatcher SignalSource)
  | ended (ending : Ending Int)

/-- The task has its first turn, wakes up, or is cancelled; a signal arrives; the
rest of the process does something. -/
inductive WaitEvent where
  | begins
  | wakes
  | cancels
  | arrives (signo : Int)
  | others (kernel : Kernel)

/-- `rest` and `mask` are the descriptors and the signal mask of the process but for
what the task has changed. `arrivals` are the signals that have arrived, `acted`
those that have taken their course: no mask blocked them. -/
structure SignalWait where
  phase : WaitPhase
  world : World
  rest : Fd → Option Descriptor
  mask : SigMask
  arrivals : List Int
  acted : List Int

namespace SignalWait

def start (world : World) : SignalWait :=
  ⟨.called, world, world.kernel.table, world.kernel.mask, world.kernel.arrived, []⟩

def held (t : SignalWait) : Option Fd :=
  match t.phase with
  | .asleep watcher => some watcher.source.fd
  | _ => none

def reported (t : SignalWait) : List Int :=
  match t.phase with
  | .ended (.returned signo) => [signo]
  | _ => []

/-- The signals that the mask does not block take their course. -/
def settle (t : SignalWait) : SignalWait :=
  { t with
    world.kernel.arrived := t.world.kernel.arrived.filter fun signo => t.world.kernel.Blocks signo
    acted := t.acted ++ t.world.kernel.arrived.filter fun signo => ¬ t.world.kernel.Blocks signo }

def turn (t : SignalWait) (watcher : SignalWatcher SignalSource) (w : World) : SignalWait :=
  let outcome := (SignalWatcher.lookOnce backend (SignalWatcher.pending backend)).run watcher w
  match outcome.1.1 with
  | .ok none => { t with phase := .asleep outcome.1.2, world := outcome.2 }
  | .ok (some signo) => { t with phase := .ended (.returned signo), world := outcome.2 }
  | .error e => { t with phase := .ended (.raised e), world := outcome.2 }

def step (signals : SignalsArg) (pollMs : Int) (t : SignalWait) : WaitEvent → SignalWait
  | .begins =>
    match t.phase with
    | .called =>
      let outcome := (SignalWatcher.enterWait SignalSource.new backend signals pollMs).run () t.world
      match outcome.1.1 with
      | .ok watcher => (t.turn watcher outcome.2).settle
      | .error e => { t with phase := .ended (.raised e), world := outcome.2 }
    | _ => t
  | .wakes =>
    match t.phase with
    | .asleep watcher => (t.turn watcher t.world).settle
    | _ => t
  | .cancels =>
    match t.phase with
    | .called => { t with phase := .ended .cancelled }
    | .asleep watcher =>
      let outcome := (SignalWatcher.close backend).run watcher t.world
      match outcome.1.1 with
      | .ok _ => { t with phase := .ended .cancelled, world := outcome.2 }.settle
      | .error e => { t with phase := .ended (.raised e), world := outcome.2 }.settle
    | .ended _ => t
  | .arrives signo =>
    if t.world.kernel.Merges signo then t
    else { t with
      world.kernel := t.world.kernel.arrive signo
      arrivals := t.arrivals ++ [signo]
      acted := if t.world.kernel.Blocks signo then t.acted else t.acted ++ [signo] }
  | .others kernel =>
    { t with
      world.kernel := kernel
      rest := kernel.besides t.held
      mask := if t.held = none then kernel.mask else t.mask }.settle

/-- The rest of the process leaves the named signals, and while the task waits its
descriptor and the mask. -/
def Spares (signals : SignalsArg) (t : SignalWait) : WaitEvent → Prop
  | .others kernel =>
    (∀ fd, t.held = some fd → kernel.table fd = t.world.kernel.table fd ∧ kernel.mask = t.world.kernel.mask) ∧
      ∀ signo ∈ signals.toList, kernel.arrived.count signo = t.world.kernel.arrived.count signo
  | _ => True

end SignalWait

/-! Opening the watcher, looking once and closing it. -/

section Calls

variable {k : Kernel} {rest : Fd → Option Descriptor} {mask : SigMask} {signals : List Int}
  {watcher : SignalWatcher SignalSource}

theorem SignalSource.ends_pending {source : SignalSource} {set : SigSet}
    {ok : Option Int → SignalSource → Kernel → Prop}
    {err : PyErr → SignalSource → Kernel → Prop} (h0 : 0 ≤ source.fd)
    (hfd : k.fileAt source.fd = some (.signalfd set)) (hnone : ok none source k)
    (hsome : ∀ signo ∈ set, signo ∈ k.arrived → ok (some signo) source { k with arrived := k.arrived.erase signo })
    (herr : ∀ e, err (.osError e) source k) : Py.Ends SignalSource.pending ok err source k := by
  refine Method.obeys_bind.mpr (Method.obeys_attributes.mpr ?_)
  rw [if_neg (not_lt.mpr h0)]
  refine Method.obeys_bind.mpr (Method.obeys_call.mpr ⟨trivial, ?_⟩)
  rintro reply k' ⟨c, hc⟩
  have hfailed : ∀ e : Errno, (if e = Errno.again ∨ e = Errno.intr then pure none else Method.raise (.osError e) :
      Py SignalSource (Option Int)).Obeys Kernel.contract ok err source k := by
    intro e
    split
    · exact Method.obeys_pure.mpr hnone
    · exact Method.obeys_raise.mpr (herr e)
  rcases c.attempt_cases id k (k.readSignal source.fd) with ⟨e, hr⟩ | ⟨found, k₁, _, hread, hr⟩
  · rw [show k.perform c (.readSiginfo source.fd) = _ from hr] at hc
    cases hc
    exact hfailed e
  · rw [show k.perform c (.readSiginfo source.fd) = _ from hr] at hc
    cases hc
    rw [Kernel.readSignal, hfd] at hread
    dsimp only at hread
    split at hread
    · next signo hnext =>
      cases hread
      obtain ⟨hset, harrived⟩ := Kernel.mem_of_nextSignal hnext
      exact Method.obeys_pure.mpr (hsome signo hset harrived)
    · cases hread

/-- An open watcher of the signals, in a process that had the descriptors and the
mask before. -/
structure Waits (rest : Fd → Option Descriptor) (mask : SigMask) (signals : List Int)
    (watcher : SignalWatcher SignalSource) (k : Kernel) : Prop where
  opened : watcher.isOpen = true
  saved : watcher.source.saved = some mask
  has : k.Has rest (.signalfd signals.toFinset) (some watcher.source.fd)
  blocks : k.mask = mask ∪ SignalSource.blocked signals

theorem Waits.ends_close (h : Waits rest mask signals watcher k)
    {ok : Unit → SignalWatcher SignalSource → Kernel → Prop}
    {err : PyErr → SignalWatcher SignalSource → Kernel → Prop}
    (hok : ∀ watcher' k', k'.table = rest → k'.mask = mask → k'.arrived = k.arrived → ok () watcher' k') :
    Py.Ends (SignalWatcher.close backend) ok err watcher k := by
  refine Watchers.ends_closeWatcher h.opened (Py.ends_iff_run.mpr fun choices => ?_)
  obtain ⟨choices', hrun⟩ := SignalSource.run_close watcher.source ⟨k, choices⟩ h.has.1 h.has.fileAt_eq h.saved
  rw [show backend.close.run watcher.source ⟨k, choices⟩ = _ from hrun]
  exact hok _ _ h.has.shut rfl rfl

theorem Waits.ends_lookOnce (h : Waits rest mask signals watcher k) :
    Py.Ends (SignalWatcher.lookOnce backend (SignalWatcher.pending backend))
      (fun found watcher' k' => match found with
        | none => watcher' = watcher ∧ k' = k
        | some signo => signo ∈ signals ∧ signo ∈ k.arrived ∧ k'.arrived = k.arrived.erase signo ∧
            k'.table = rest ∧ k'.mask = mask)
      (fun _ _ k' => k'.arrived = k.arrived ∧ k'.table = rest ∧ k'.mask = mask) watcher k := by
  refine Method.obeys_bind.mpr (Method.obeys_handling.mpr (Method.obeys_zoom.mpr ?_))
  apply SignalSource.ends_pending h.has.1 h.has.fileAt_eq
  · exact Method.obeys_pure.mpr ⟨rfl, rfl⟩
  · intro signo hset harrived
    have hwaits : Waits rest mask signals watcher { k with arrived := k.arrived.erase signo } :=
      ⟨h.opened, h.saved, h.has, h.blocks⟩
    refine Method.obeys_bind.mpr ?_
    apply hwaits.ends_close
    intro watcher' k' htable hmask hkept
    exact ⟨List.mem_toFinset.mp hset, harrived, hkept, htable, hmask⟩
  · intro e
    refine Method.obeys_bind.mpr ?_
    apply h.ends_close
    intro watcher' k' htable hmask hkept
    exact ⟨hkept, htable, hmask⟩

/-- With a named signal pending, a look that does not fail ends the wait. -/
theorem Waits.run_lookOnce {w : World} (h : Waits rest mask signals watcher w.kernel) {signo : Int}
    (hsigno : signo ∈ signals) (harrived : signo ∈ w.kernel.arrived) (herror : (w.choices 0).error = none) :
    ∃ found watcher' w', (SignalWatcher.lookOnce backend (SignalWatcher.pending backend)).run watcher w =
      ((.ok (some found), watcher'), w') := by
  obtain ⟨found, hfound⟩ := Kernel.nextSignal_of_mem (List.mem_toFinset.mpr hsigno) harrived
  let w₁ : World := ⟨{ w.kernel with arrived := w.kernel.arrived.erase found }, fun n => w.choices (n + 1)⟩
  have hread : World.perform (.readSiginfo watcher.source.fd) w = (.ok (some found), w₁) := by
    simp only [World.perform, Kernel.perform, Kernel.readSignal, h.has.fileAt_eq, hfound, Choice.attempt_ok herror]
    rfl
  have hpending : SignalSource.pending.run watcher.source w = ((.ok (some found), watcher.source), w₁) := by
    rw [SignalSource.pending, Py.run, Method.run_bind_ok Method.run_attributes, if_neg (not_lt.mpr h.has.1), sys,
      Method.run_bind_ok Method.run_call, hread]
    rfl
  have hlook : Method.run World.perform (SignalWatcher.pending backend) watcher w =
      ((.ok (some found), watcher), w₁) :=
    Method.run_zoom_eq hpending
  obtain ⟨watcher', w', hclose⟩ : ∃ watcher' w', (SignalWatcher.close backend).run watcher w₁ =
      ((.ok (), watcher'), w') := by
    obtain ⟨choices, hclose⟩ := SignalSource.run_close watcher.source w₁ h.has.1 h.has.fileAt_eq h.saved
    exact ⟨_, _, SignalWatcher.run_closeWatcher h.opened hclose⟩
  refine ⟨found, watcher', w', ?_⟩
  rw [SignalWatcher.lookOnce, Py.run, Method.run_bind, Method.run_handling, hlook]
  exact Method.run_bind_ok hclose

theorem ends_enterWait {σ : Type} {s : σ} (signals : SignalsArg) (pollMs : Int) :
    Py.Ends (SignalWatcher.enterWait SignalSource.new backend signals pollMs)
      (fun watcher _ k' => Waits k.table k.mask signals.toList watcher k' ∧ k'.arrived = k.arrived)
      (fun _ _ k' => k' = k) s k := by
  refine Py.ends_iff_run.mpr fun choices => ?_
  rw [SignalWatcher.enterWait, Py.run, Method.run_bind, Method.run_lift]
  cases hnew : SignalWatcher.new SignalSource.new signals pollMs with
  | error e => exact rfl
  | ok watcher =>
    obtain rfl := SignalWatcher.new_eq_ok hnew
    dsimp only
    rw [Method.run_zoom]
    rcases SignalSource.run_openSource (.new signals.toList) ⟨k, choices⟩ with
      ⟨e, saved, choices', -, -, hopen⟩ | ⟨-, fd, choices', hfree, hopen⟩
    · have hrun :=
        @SignalWatcher.run_openWatcher_error _ backend ⟨signals.toList, pollMs, .new signals.toList, false⟩
        _ _ _ _ hopen
      rw [SignalWatcher.aenter, Method.run_bind_error hrun]
      rfl
    · have hrun := @SignalWatcher.run_openWatcher_ok _ backend ⟨signals.toList, pollMs, .new signals.toList, false⟩
        _ _ _ hopen
      rw [SignalWatcher.aenter, Method.run_bind_ok hrun]
      have hhas : k.Has k.table (.signalfd signals.toList.toFinset) none := rfl
      exact ⟨⟨rfl, rfl, hhas.install hfree, rfl⟩, rfl⟩

end Calls

/-! Runs. -/

namespace SignalWait

def accounted (t : SignalWait) : List Int := t.reported ++ t.acted ++ t.world.kernel.arrived

/-- While the task sleeps its watcher is open, otherwise nothing is left of it. Each
of the named signals that has arrived is the one reported, has taken its course, or
is still pending. -/
structure Inv (signals : SignalsArg) (t : SignalWait) : Prop where
  asleep : ∀ watcher, t.phase = .asleep watcher → Waits t.rest t.mask signals.toList watcher t.world.kernel
  awake : t.held = none → t.world.kernel.table = t.rest ∧ t.world.kernel.mask = t.mask
  found : ∀ signo ∈ t.reported, signo ∈ signals.toList
  count : ∀ signo ∈ signals.toList, t.accounted.count signo = t.arrivals.count signo

variable {signals : SignalsArg} {pollMs : Int} {t : SignalWait}

theorem count_settle (t : SignalWait) (signo : Int) : t.settle.accounted.count signo = t.accounted.count signo := by
  have hsplit := (List.filter_append_perm (fun signo => decide (t.world.kernel.Blocks signo))
    t.world.kernel.arrived).count_eq signo
  rw [List.count_append] at hsplit
  simp only [accounted, settle, reported, List.count_append, decide_not]
  omega

theorem Inv.settle (h : t.Inv signals) : t.settle.Inv signals := by
  refine ⟨fun watcher hphase => ?_, h.awake, h.found, fun signo hsigno => ?_⟩
  · obtain ⟨hopened, hsaved, hhas, hblocks⟩ := h.asleep watcher hphase
    exact ⟨hopened, hsaved, hhas, hblocks⟩
  · rw [count_settle]
    exact h.count signo hsigno

theorem Inv.unreported (h : t.Inv signals) (hreported : t.reported = []) :
    ∀ signo ∈ signals.toList, (t.acted ++ t.world.kernel.arrived).count signo = t.arrivals.count signo := by
  have hcount := h.count
  simp only [accounted, hreported, List.nil_append] at hcount
  exact hcount

/-- The task ends with nothing left of it, and reports no signal. -/
theorem inv_ended (ending : Ending Int) {w : World} (hnone : ∀ signo, ending ≠ .returned signo)
    (htable : w.kernel.table = t.rest) (hmask : w.kernel.mask = t.mask)
    (hcount : ∀ signo ∈ signals.toList, (t.acted ++ w.kernel.arrived).count signo = t.arrivals.count signo) :
    Inv signals { t with phase := .ended ending, world := w } := by
  have hreported : reported { t with phase := .ended ending, world := w } = [] := by
    cases ending with
    | returned signo => exact absurd rfl (hnone signo)
    | raised e | cancelled => rfl
  refine ⟨nofun, fun _ => ⟨htable, hmask⟩, fun signo hsigno => ?_, fun signo hsigno => ?_⟩
  · rw [hreported] at hsigno
    cases hsigno
  · rw [accounted, hreported]
    exact hcount signo hsigno

/-- A turn of a task whose watcher is open. -/
theorem inv_turn {watcher : SignalWatcher SignalSource} {w : World}
    (h : Waits t.rest t.mask signals.toList watcher w.kernel)
    (hcount : ∀ signo ∈ signals.toList, (t.acted ++ w.kernel.arrived).count signo = t.arrivals.count signo) :
    (t.turn watcher w).Inv signals := by
  have hpost := h.ends_lookOnce.run
  rw [turn]
  rcases hrun : (SignalWatcher.lookOnce backend (SignalWatcher.pending backend)).run watcher w with
    ⟨⟨result, watcher'⟩, w'⟩
  rw [hrun] at hpost
  rcases result with e | _ | signo
  · obtain ⟨harrived, htable, hmask⟩ := hpost
    exact inv_ended (.raised e) (fun _ => nofun) htable hmask (by rwa [harrived])
  · obtain ⟨rfl, hkernel⟩ := hpost
    refine ⟨fun watcher' hphase => ?_, nofun, nofun, ?_⟩
    · cases hphase
      exact hkernel ▸ h
    · show ∀ signo ∈ signals.toList, (t.acted ++ w'.kernel.arrived).count signo = t.arrivals.count signo
      rwa [hkernel]
  · obtain ⟨hnamed, harrived, herase, htable, hmask⟩ := hpost
    refine ⟨nofun, fun _ => ⟨htable, hmask⟩, fun signo' hsigno' => ?_, fun signo' hsigno' => ?_⟩
    · rw [List.mem_singleton.mp hsigno']
      exact hnamed
    · have hperm : ([signo] ++ t.acted ++ w'.kernel.arrived).Perm (t.acted ++ w.kernel.arrived) := by
        rw [herase]
        exact List.perm_middle.symm.trans ((List.perm_cons_erase harrived).symm.append_left t.acted)
      exact (hperm.count_eq signo').trans (hcount signo' hsigno')

theorem Inv.begins (h : t.Inv signals) : (t.step signals pollMs .begins).Inv signals := by
  cases hphase : t.phase with
  | called =>
    obtain ⟨htable, hmask⟩ := h.awake (by rw [held, hphase])
    have hcount := h.unreported (by rw [reported, hphase])
    have hpost := (@ends_enterWait t.world.kernel Unit () signals pollMs).run
    simp only [step, hphase]
    rcases hrun : (SignalWatcher.enterWait SignalSource.new backend signals pollMs).run () t.world with
      ⟨⟨result, _⟩, w'⟩
    rw [hrun] at hpost
    cases result with
    | ok watcher =>
      obtain ⟨hwaits, harrived⟩ := hpost
      rw [htable, hmask] at hwaits
      exact (inv_turn hwaits (by rwa [harrived])).settle
    | error e =>
      have hkernel : w'.kernel = t.world.kernel := hpost
      exact inv_ended (.raised e) (fun _ => nofun) (by rw [hkernel, htable]) (by rw [hkernel, hmask])
        (by rwa [hkernel])
  | asleep watcher | ended ending =>
    simp only [step, hphase]
    exact h

theorem Inv.wakes (h : t.Inv signals) : (t.step signals pollMs .wakes).Inv signals := by
  cases hphase : t.phase with
  | asleep watcher =>
    simp only [step, hphase]
    exact (inv_turn (h.asleep watcher hphase) (h.unreported (by rw [reported, hphase]))).settle
  | called | ended ending =>
    simp only [step, hphase]
    exact h

theorem Inv.cancels (h : t.Inv signals) : (t.step signals pollMs .cancels).Inv signals := by
  cases hphase : t.phase with
  | called =>
    obtain ⟨htable, hmask⟩ := h.awake (by rw [held, hphase])
    simp only [step, hphase]
    exact inv_ended .cancelled (fun _ => nofun) htable hmask (h.unreported (by rw [reported, hphase]))
  | asleep watcher =>
    have hcount := h.unreported (by rw [reported, hphase])
    have hends : Py.Ends (SignalWatcher.close backend)
        (fun _ _ k' => k'.table = t.rest ∧ k'.mask = t.mask ∧ k'.arrived = t.world.kernel.arrived)
        (fun _ _ _ => False) watcher t.world.kernel :=
      (h.asleep watcher hphase).ends_close fun _ _ htable hmask harrived => ⟨htable, hmask, harrived⟩
    have hpost := hends.run
    simp only [step, hphase]
    rcases hrun : (SignalWatcher.close backend).run watcher t.world with ⟨⟨result, watcher'⟩, w'⟩
    rw [hrun] at hpost
    cases result with
    | ok _ =>
      obtain ⟨htable, hmask, harrived⟩ := hpost
      exact (inv_ended .cancelled (fun _ => nofun) htable hmask (by rwa [harrived])).settle
    | error e => exact hpost.elim
  | ended ending =>
    simp only [step, hphase]
    exact h

theorem Inv.arrives (h : t.Inv signals) (signo : Int) : (t.step signals pollMs (.arrives signo)).Inv signals := by
  rw [step]
  split
  · exact h
  · next hmerges =>
    rcases t.world.kernel.arrive_cases signo with ⟨hblocks, -, harrive⟩ | ⟨hacts, harrive⟩
    · rw [if_pos hblocks, harrive]
      refine ⟨fun watcher hphase => ?_, h.awake, h.found, fun signo' hsigno' => ?_⟩
      · obtain ⟨hopened, hsaved, hhas, hmask⟩ := h.asleep watcher hphase
        exact ⟨hopened, hsaved, hhas, hmask⟩
      · show (t.reported ++ t.acted ++ (t.world.kernel.arrived ++ [signo])).count signo' =
          (t.arrivals ++ [signo]).count signo'
        have hcount := h.count signo' hsigno'
        simp only [accounted, List.count_append] at hcount ⊢
        omega
    · rw [if_neg fun hblocks => hacts ⟨hblocks, hmerges⟩, harrive]
      refine ⟨h.asleep, h.awake, h.found, fun signo' hsigno' => ?_⟩
      show (t.reported ++ (t.acted ++ [signo]) ++ t.world.kernel.arrived).count signo' =
        (t.arrivals ++ [signo]).count signo'
      have hcount := h.count signo' hsigno'
      simp only [accounted, List.count_append] at hcount ⊢
      omega

theorem Inv.others (h : t.Inv signals) {kernel : Kernel} (hspares : t.Spares signals (.others kernel)) :
    (t.step signals pollMs (.others kernel)).Inv signals := by
  obtain ⟨hheld, hnamed⟩ := hspares
  refine Inv.settle ⟨fun watcher hphase => ?_, fun hnone => ?_, h.found, fun signo hsigno => ?_⟩
  · have hphase : t.phase = .asleep watcher := hphase
    have hsome : t.held = some watcher.source.fd := by rw [held, hphase]
    obtain ⟨hopened, hsaved, hhas, hblocks⟩ := h.asleep watcher hphase
    obtain ⟨hspared, hmask⟩ := hheld _ hsome
    refine ⟨hopened, ?_, ?_, ?_⟩
    · show watcher.source.saved = some (if t.held = none then kernel.mask else t.mask)
      rw [hsome, if_neg (by simp), hsaved]
    · show kernel.Has (kernel.besides t.held) _ _
      rw [hsome]
      exact hhas.others fun fd hfd => Option.some.inj hfd ▸ hspared
    · show kernel.mask = (if t.held = none then kernel.mask else t.mask) ∪ _
      rw [hsome, if_neg (by simp), hmask, hblocks]
  · have hnone : t.held = none := hnone
    refine ⟨?_, ?_⟩
    · show kernel.table = kernel.besides t.held
      rw [hnone]
      rfl
    · show kernel.mask = if t.held = none then kernel.mask else t.mask
      rw [if_pos hnone]
  · show (t.reported ++ t.acted ++ kernel.arrived).count signo = _
    rw [← h.count signo hsigno]
    simp only [accounted, List.count_append, hnamed signo hsigno]

theorem Inv.step (t : SignalWait) (event : WaitEvent) (hspares : t.Spares signals event) (h : t.Inv signals) :
    (t.step signals pollMs event).Inv signals := by
  cases event with
  | begins => exact h.begins
  | wakes => exact h.wakes
  | cancels => exact h.cancels
  | arrives signo => exact h.arrives signo
  | others kernel => exact h.others hspares

end SignalWait

/-- Whatever fails, and while the rest of the process leaves the task's descriptor and
the pending named signals alone, and the mask as long as the task waits: a wait for
signals leaves the mask and the descriptors of the process as they were, wherever it
ends. While it lasts its signals are blocked, none of them is lost, and one that is
pending ends it. -/
theorem signal_wait_restores (signals : SignalsArg) (pollMs : Int) (w : World) (events : List WaitEvent)
    (hothers : Runs.Each (SignalWait.step signals pollMs) (SignalWait.Spares signals) (.start w) events) :
    let t := events.foldl (SignalWait.step signals pollMs) (.start w)
    (∀ watcher, t.phase = .asleep watcher → Waits t.rest t.mask signals.toList watcher t.world.kernel ∧
        ∀ signo ∈ signals.toList, signo ∈ t.world.kernel.arrived → (t.world.choices 0).error = none →
          (t.step signals pollMs .wakes).reported ≠ []) ∧
      (t.held = none → t.world.kernel.table = t.rest ∧ t.world.kernel.mask = t.mask) ∧
      (∀ signo ∈ t.reported, signo ∈ signals.toList) ∧
      ∀ signo ∈ signals.toList, t.accounted.count signo = t.arrivals.count signo := by
  intro t
  have hstart : (SignalWait.start w).Inv signals := ⟨nofun, fun _ => ⟨rfl, rfl⟩, nofun, fun _ _ => rfl⟩
  have hinv : t.Inv signals :=
    Runs.throughout_of_each (SignalWait.Inv signals) hstart SignalWait.Inv.step hothers events List.prefix_rfl
  refine ⟨fun watcher hphase => ?_, hinv.awake, hinv.found, hinv.count⟩
  have hwaits := hinv.asleep watcher hphase
  refine ⟨hwaits, fun signo hsigno harrived herror => ?_⟩
  obtain ⟨found, watcher', w', hrun⟩ := hwaits.run_lookOnce hsigno harrived herror
  simp only [SignalWait.step, hphase, SignalWait.turn, hrun]
  exact List.cons_ne_nil _ _

def openingSeventh : World := ⟨Kernel.bare, fun _ => ⟨none, 7, 0, 0, 0⟩⟩

def asked : SignalWait := .step shutdownSignals defaultPollMs (.start openingSeventh) .begins

def stopping : List WaitEvent :=
  [.begins, .others (asked.world.kernel.install 3 ⟨.socket, true⟩), .arrives 17, .arrives sigTerm, .arrives sigTerm,
    .wakes]

/-- The rest of the process opens a descriptor, a child ends, and then the service
is asked to stop twice. -/
theorem signal_wait_restores_stopped :
    let t := stopping.foldl (SignalWait.step shutdownSignals defaultPollMs) (.start openingSeventh)
    t.world.kernel.table = t.rest ∧ t.reported = [sigTerm] ∧ t.acted = [17] ∧ t.world.kernel.arrived = [] := by
  intro t
  have hheld : asked.held = some 7 := by decide +kernel
  have hothers : Runs.Each (SignalWait.step shutdownSignals defaultPollMs) (SignalWait.Spares shutdownSignals)
      (.start openingSeventh) stopping := by
    refine ⟨trivial, ⟨fun fd hfd => ?_, fun _ _ => rfl⟩, trivial, trivial, trivial, trivial, trivial⟩
    cases hheld.symm.trans hfd
    have hne : (7 : Fd) ≠ 3 := by decide
    refine ⟨?_, rfl⟩
    rw [Kernel.install_table, Function.update_of_ne hne]
    rfl
  obtain ⟨-, hawake, -, -⟩ := signal_wait_restores shutdownSignals defaultPollMs openingSeventh stopping hothers
  have hended : t.held = none := by decide +kernel
  exact ⟨(hawake hended).1, by decide +kernel, by decide +kernel, by decide +kernel⟩

end MicroPython

end Mpsystemd
