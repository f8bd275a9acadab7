import Mpsystemd.Consumption
import Mpsystemd.Notifications
import Mpsystemd.NotifyEnvironment
import Mpsystemd.Watchdog

/-! A watchdog task with a notifier of its own: what it sends and what it has
open, from its creation to its end. -/

namespace Mpsystemd

variable {rt : Runtime}

/-- `start_watchdog`: the interval of the task it creates, none without a watchdog. -/
def startWatchdog {σ : Type} (rt : Runtime) (intervalUs : Option Int) : Py σ (Option Int) := do
  let intervalUs ← intervalUs.elim (Daemon.watchdogEnabled rt false) pure
  return if intervalUs = 0 then none else some intervalUs

/-- A `watchdog_loop` that has been called, sleeps in its `while`, or has ended. -/
inductive ServiceState where
  | called (intervalUs : Option Int)
  | asleep (loop : WatchdogLoop)
  | ended (ending : Ending Unit)

/-- The task has its first turn, wakes up, or is cancelled; the rest of the process
does something. -/
inductive ServiceEvent where
  | begins
  | wakes
  | cancels
  | others (kernel : Kernel)

/-- `rest` are the descriptors of the process but for the task's own; `pings` counts
the pings that succeeded, `handed` are the messages of the task. -/
structure WatchdogService where
  state : ServiceState
  world : World
  rest : Fd → Option Descriptor
  pings : Nat
  handed : List Message

namespace WatchdogService

def start (intervalUs : Option Int) (world : World) : WatchdogService :=
  ⟨.called intervalUs, world, world.kernel.table, 0, []⟩

/-- The task's own socket, once it is open. -/
def held (t : WatchdogService) : Option Fd :=
  match t.state with
  | .asleep loop => loop.notifier.sock.map UnixDatagram.fd
  | _ => none

/-- A ping, up to the `await` behind it. -/
def turn (rt : Runtime) (t : WatchdogService) (loop : WatchdogLoop) (w : World) : WatchdogService :=
  let outcome := (WatchdogLoop.turn rt).run loop w
  let handed := t.handed ++ outcome.2.kernel.sent.drop w.kernel.sent.length
  match outcome.1.1 with
  | .ok _ => { t with state := .asleep outcome.1.2, world := outcome.2, pings := t.pings + 1, handed := handed }
  | .error e => { t with state := .ended (.raised e), world := outcome.2, handed := handed }

def step (rt : Runtime) (divisor : Int) (t : WatchdogService) : ServiceEvent → WatchdogService
  | .begins =>
    match t.state with
    | .called intervalUs =>
      let outcome := (WatchdogLoop.enter rt intervalUs divisor none).run () t.world
      match outcome.1.1 with
      | .ok (some loop) => t.turn rt loop outcome.2
      | .ok none => { t with state := .ended (.returned ()), world := outcome.2 }
      | .error e => { t with state := .ended (.raised e), world := outcome.2 }
    | _ => t
  | .wakes =>
    match t.state with
    | .asleep loop => t.turn rt loop t.world
    | _ => t
  | .cancels =>
    match t.state with
    | .called _ => { t with state := .ended .cancelled }
    | .asleep loop =>
      let outcome := (WatchdogLoop.finish rt).run loop t.world
      match outcome.1.1 with
      | .ok _ => { t with state := .ended .cancelled, world := outcome.2 }
      | .error e => { t with state := .ended (.raised e), world := outcome.2 }
    | .ended _ => t
  | .others kernel =>
    { t with
      world.kernel := kernel
      rest := kernel.besides t.held }

/-- The rest of the process leaves the task's socket alone. -/
def Spares (t : WatchdogService) : ServiceEvent → Prop
  | .others kernel => ∀ fd, t.held = some fd → kernel.table fd = t.world.kernel.table fd
  | _ => True

/-- The loop of a task that `start_watchdog` has created does what a `watchdog_loop`
called with the same interval would do, and without a task it would return. -/
theorem run_enter_startWatchdog (rt : Runtime) (intervalUs : Option Int) (divisor : Int)
    (notifier : Option Notifier)
    (w : World) : (WatchdogLoop.enter rt intervalUs divisor notifier).run () w =
      match (startWatchdog rt intervalUs).run () w with
      | ((.ok none, _), w') => ((.ok none, ()), w')
      | ((.ok (some intervalUs), _), w') => (WatchdogLoop.enter rt (some intervalUs) divisor notifier).run () w'
      | ((.error e, _), w') => ((.error e, ()), w') := by
  rw [WatchdogLoop.enter, startWatchdog, Py.run, Py.run, Method.run_bind, Method.run_bind]
  rcases Method.run World.perform (intervalUs.elim (Daemon.watchdogEnabled rt false) pure : Py Unit Int) () w with
    ⟨⟨result, _⟩, w'⟩
  cases result with
  | error e => rfl
  | ok interval =>
    by_cases hzero : interval = 0
    · simp only [hzero, if_true]
      rfl
    · simp only [if_neg hzero, Method.run_pure]
      show _ = Method.run World.perform (WatchdogLoop.enter rt (some interval) divisor notifier) () w'
      rw [WatchdogLoop.enter, Option.elim, Method.run_bind_ok Method.run_pure, if_neg hzero]

/-! Before the first ping, one ping, and the end. -/

section Calls

variable {k : Kernel} {path : Bytes}

/-- The task has no socket yet, and a place to send to. -/
theorem ends_enter {σ : Type} {s : σ} (intervalUs : Option Int) (divisor : Int) :
    Py.Ends (WatchdogLoop.enter rt intervalUs divisor none)
      (fun result _ k' => k' = k ∧ ∀ loop, result = some loop →
        loop.owned = true ∧ loop.notifier.sock = none ∧ ∃ path, loop.notifier.Reaches path)
      (fun _ _ k' => k' = k) s k := by
  have hinterval : ∃ interval,
      Py.Does (intervalUs.elim (Daemon.watchdogEnabled rt false) pure) (.ok interval) k s k := by
    cases intervalUs with
    | none => exact ⟨_, Daemon.does_watchdogEnabled rt false s k⟩
    | some interval => exact ⟨interval, Py.does_pure⟩
  obtain ⟨interval, hinterval⟩ := hinterval
  rw [WatchdogLoop.enter]
  refine Method.obeys_bind.mpr (hinterval.mono ?_ ?_)
  · rintro _ s' k' ⟨hsame, rfl, rfl⟩
    cases hsame
    split
    · refine ⟨rfl, fun loop hloop => ?_⟩
      cases hloop
    · refine Method.obeys_bind.mpr ?_
      cases watchdogPeriodMs interval divisor with
      | error e => exact rfl
      | ok periodMs =>
        refine Method.obeys_lift_ok.mpr (Method.obeys_bind.mpr ((does_newNotifier rfl).mono ?_ ?_))
        · rintro n s'' k' ⟨hn, rfl, rfl⟩
          have hsock := Notifier.sock_ofAddress hn
          split
          · next havailable =>
            obtain ⟨path, hpath⟩ := Option.isSome_iff_exists.mp havailable
            refine ⟨rfl, fun loop hloop => ?_⟩
            cases hloop
            exact ⟨rfl, hsock, path, Notifier.reaches_ofAddress hn hpath⟩
          · refine Method.obeys_bind.mpr (Method.obeys_zoom.mpr (Method.obeys_bind.mpr
              (Method.obeys_attributes.mpr (Method.obeys_zoom.mpr ?_))))
            apply Notifier.ends_close
            · intro _
              refine ⟨rfl, fun loop hloop => ?_⟩
              cases hloop
            · intro sock hsome
              cases hsock.symm.trans hsome
        · rintro e s'' k' ⟨-, -, rfl⟩
          rfl
  · rintro e s' k' ⟨hsame, -⟩
    cases hsame

def pingMessage (path : Bytes) : Message := ⟨path, bytes "WATCHDOG=1\n", []⟩

/-- The loop owns its notifier, which sends to the path. -/
structure Serves (rest : Fd → Option Descriptor) (path : Bytes) (loop : WatchdogLoop) (k : Kernel) : Prop where
  owned : loop.owned = true
  reaches : loop.notifier.Reaches path
  has : k.Has rest .socket (loop.notifier.sock.map UnixDatagram.fd)

variable {rest : Fd → Option Descriptor} {loop : WatchdogLoop}

theorem has_connects {n n' : Notifier} {k' : Kernel} (h : k.Has rest .socket (n.sock.map UnixDatagram.fd))
    (hconnects : Notifier.Connects path n n' k k') : k'.Has rest .socket (n'.sock.map UnixDatagram.fd) := by
  rcases hconnects with ⟨rfl, rfl⟩ | ⟨hsock, fd, hfree, rfl, rfl⟩
  · exact h
  · rw [hsock] at h
    exact h.install hfree

theorem Serves.ends_finish (h : Serves rest path loop k) {ok : Unit → WatchdogLoop → Kernel → Prop}
    {err : PyErr → WatchdogLoop → Kernel → Prop}
    (hok : ∀ loop' k', k'.table = rest → k'.sent = k.sent → ok () loop' k') :
    Py.Ends (WatchdogLoop.finish rt) ok err loop k := by
  refine Method.obeys_bind.mpr (Method.obeys_attributes.mpr ?_)
  rw [if_pos h.owned]
  refine Method.obeys_zoom.mpr ?_
  have hhas := h.has
  apply Notifier.ends_close
  · intro hnone
    rw [hnone] at hhas
    exact hok _ _ hhas rfl
  · intro sock hsock
    rw [hsock] at hhas
    exact ⟨hhas.1, .socket, hhas.fileAt_eq, hok _ _ hhas.shut rfl⟩

theorem Serves.ends_turn (h : Serves rest path loop k) :
    Py.Ends (WatchdogLoop.turn rt)
      (fun _ loop' k' => Serves rest path loop' k' ∧ k'.sent = k.sent ++ [pingMessage path])
      (fun _ _ k' => k'.table = rest ∧ k'.sent = k.sent) loop k := by
  refine Method.obeys_handling.mpr (Method.obeys_bind.mpr (Method.obeys_zoom.mpr ?_))
  apply @Notification.ends_method rt path loop.notifier k .watchdogPing h.reaches
  · rintro n' k' ⟨peer, data, files⟩ hconnects htold
    have hmessage : (⟨peer, data, files⟩ : Message) = pingMessage path := by
      have hpeer : peer = path := htold.carries.peer
      have hdata : Except.ok data = .ok (bytes "WATCHDOG=1\n") := htold.body.symm.trans (buildPayload_watchdog rt)
      obtain ⟨rights, hrights, hfiles⟩ := htold.carries.files
      cases hrights
      have hnone : some [] = some files := hfiles
      rw [hpeer, Except.ok.inj hdata, ← Option.some.inj hnone]
      rfl
    have hhas := has_connects h.has hconnects
    refine ⟨⟨h.owned, hconnects.reaches h.reaches, hhas⟩, ?_⟩
    rw [Kernel.post, Telling.sent_of_connects hconnects, hmessage]
  · intro e n' k' hconnects
    have hserves : Serves rest path (loop.setNotifier n') k' :=
      ⟨h.owned, hconnects.reaches h.reaches, has_connects h.has hconnects⟩
    refine Method.obeys_bind.mpr ?_
    apply hserves.ends_finish
    intro loop' k'' htable hsent
    exact ⟨htable, hsent.trans (Telling.sent_of_connects hconnects)⟩

end Calls

/-! Runs. -/

/-- The messages are as many as the pings, all to the address of the notifier. -/
structure Inv (t : WatchdogService) : Prop where
  has : t.world.kernel.Has t.rest .socket t.held
  sent : ∃ path, t.handed = List.replicate t.pings (pingMessage path) ∧
    ∀ loop, t.state = .asleep loop → loop.owned = true ∧ loop.notifier.Reaches path
  unbegun : ((∃ intervalUs, t.state = .called intervalUs) ∨ t.state = .ended (.returned ())) → t.pings = 0

theorem Inv.serves {t : WatchdogService} {loop : WatchdogLoop} (h : t.Inv) (hstate : t.state = .asleep loop) :
    ∃ path, Serves t.rest path loop t.world.kernel ∧ t.handed = List.replicate t.pings (pingMessage path) := by
  obtain ⟨path, hhanded, hloop⟩ := h.sent
  obtain ⟨howned, hreaches⟩ := hloop loop hstate
  have hhas := h.has
  rw [held, hstate] at hhas
  exact ⟨path, ⟨howned, hreaches, hhas⟩, hhanded⟩

/-- A turn of a loop that the service has. -/
theorem inv_turn {t : WatchdogService} {loop : WatchdogLoop} {w : World} {path : Bytes}
    (h : Serves t.rest path loop w.kernel) (hhanded : t.handed = List.replicate t.pings (pingMessage path)) :
    (t.turn rt loop w).Inv := by
  have hpost := (@Serves.ends_turn rt _ _ _ _ h).run
  rw [turn]
  rcases hrun : (WatchdogLoop.turn rt).run loop w with ⟨⟨result, loop'⟩, w'⟩
  rw [hrun] at hpost
  cases result with
  | ok _ =>
    obtain ⟨hserves, hsent⟩ := hpost
    refine ⟨hserves.has, ⟨path, ?_, ?_⟩, ?_⟩
    · show t.handed ++ w'.kernel.sent.drop _ = _
      rw [hsent, List.drop_left, hhanded, ← List.replicate_succ']
    · intro loop'' hstate
      cases hstate
      exact ⟨hserves.owned, hserves.reaches⟩
    · rintro (⟨_, hstate⟩ | hstate)
      all_goals cases hstate
  | error e =>
    obtain ⟨htable, hsent⟩ := hpost
    refine ⟨htable, ⟨path, ?_, ?_⟩, ?_⟩
    · show t.handed ++ w'.kernel.sent.drop _ = _
      rw [hsent, List.drop_length, List.append_nil, hhanded]
    · intro loop'' hstate
      cases hstate
    · rintro (⟨_, hstate⟩ | hstate)
      all_goals cases hstate

theorem Inv.begins {t : WatchdogService} (h : t.Inv) (divisor : Int) : (t.step rt divisor .begins).Inv := by
  cases hstate : t.state with
  | called intervalUs =>
    have hpings := h.unbegun (.inl ⟨intervalUs, hstate⟩)
    have hhas := h.has
    rw [held, hstate] at hhas
    have htable : t.world.kernel.table = t.rest := hhas
    obtain ⟨path, hhanded, -⟩ := h.sent
    rw [hpings] at hhanded
    have hpost := (@ends_enter rt t.world.kernel Unit () intervalUs divisor).run
    simp only [step, hstate]
    rcases hrun : (WatchdogLoop.enter rt intervalUs divisor none).run () t.world with ⟨⟨result, _⟩, w'⟩
    rw [hrun] at hpost
    rcases result with e | _ | loop
    · have hkernel : w'.kernel = t.world.kernel := hpost
      have hrest : w'.kernel.table = t.rest := by rw [hkernel, htable]
      exact ⟨hrest, ⟨path, hpings ▸ hhanded, nofun⟩, fun _ => hpings⟩
    · have hrest : w'.kernel.table = t.rest := by rw [hpost.1, htable]
      exact ⟨hrest, ⟨path, hpings ▸ hhanded, nofun⟩, fun _ => hpings⟩
    · obtain ⟨hkernel, hloop⟩ := hpost
      obtain ⟨howned, hsock, path, hreaches⟩ := hloop loop rfl
      have hrest : w'.kernel.Has t.rest .socket (loop.notifier.sock.map UnixDatagram.fd) := by
        rw [hsock, hkernel]
        exact htable
      refine inv_turn ⟨howned, hreaches, hrest⟩ ?_
      rw [hpings, hhanded]
      rfl
  | asleep loop | ended ending =>
    rw [step, hstate]
    exact h

theorem Inv.wakes {t : WatchdogService} (h : t.Inv) (divisor : Int) : (t.step rt divisor .wakes).Inv := by
  cases hstate : t.state with
  | asleep loop =>
    obtain ⟨path, hserves, hhanded⟩ := h.serves hstate
    simp only [step, hstate]
    exact inv_turn hserves hhanded
  | called intervalUs | ended ending =>
    rw [step, hstate]
    exact h

theorem Inv.cancels {t : WatchdogService} (h : t.Inv) (divisor : Int) : (t.step rt divisor .cancels).Inv := by
  cases hstate : t.state with
  | called intervalUs =>
    have hhas := h.has
    rw [held, hstate] at hhas
    obtain ⟨path, hhanded, -⟩ := h.sent
    simp only [step, hstate]
    exact ⟨hhas, ⟨path, hhanded, nofun⟩, fun _ => h.unbegun (.inl ⟨intervalUs, hstate⟩)⟩
  | asleep loop =>
    obtain ⟨path, hserves, hhanded⟩ := h.serves hstate
    have hends : Py.Ends (WatchdogLoop.finish rt) (fun _ _ k' => k'.table = t.rest) (fun _ _ _ => False) loop
        t.world.kernel := hserves.ends_finish fun _ _ htable _ => htable
    have hpost := hends.run
    simp only [step, hstate]
    rcases hrun : (WatchdogLoop.finish rt).run loop t.world with ⟨⟨result, loop'⟩, w'⟩
    rw [hrun] at hpost
    cases result with
    | ok _ =>
      refine ⟨hpost, ⟨path, hhanded, nofun⟩, ?_⟩
      rintro (⟨_, hended⟩ | hended)
      all_goals cases hended
    | error e => exact hpost.elim
  | ended ending =>
    rw [step, hstate]
    exact h

theorem Inv.others {t : WatchdogService} (h : t.Inv) (divisor : Int) {kernel : Kernel}
    (hspares : t.Spares (.others kernel)) : (t.step rt divisor (.others kernel)).Inv :=
  ⟨h.has.others hspares, h.sent, h.unbegun⟩

theorem Inv.step {divisor : Int} (t : WatchdogService) (event : ServiceEvent) (hspares : t.Spares event)
    (h : t.Inv) :
    (t.step rt divisor event).Inv := by
  cases event with
  | begins => exact h.begins divisor
  | wakes => exact h.wakes divisor
  | cancels => exact h.cancels divisor
  | others kernel => exact h.others divisor hspares

end WatchdogService

/-- Whatever fails, and while the rest of the process leaves its socket alone: a task
that makes its own notifier hands over one `WATCHDOG=1` for each ping that succeeded,
all to one address, has no descriptor open but its socket, and none when it has ended,
which after a ping it does only by an error or when it is cancelled. -/
theorem watchdog_leaves_nothing (rt : Runtime) (intervalUs : Option Int) (divisor : Int) (w : World)
    (events : List ServiceEvent)
    (hothers : Runs.Each (WatchdogService.step rt divisor) WatchdogService.Spares (.start intervalUs w) events) :
    let t := events.foldl (WatchdogService.step rt divisor) (.start intervalUs w)
    (∃ path, t.handed = List.replicate t.pings (WatchdogService.pingMessage path)) ∧
      t.world.kernel.Has t.rest .socket t.held ∧
      ∀ ending, t.state = .ended ending → t.world.kernel.table = t.rest ∧
        (ending = .returned () → t.pings = 0) := by
  intro t
  have hstart : (WatchdogService.start intervalUs w).Inv := ⟨rfl, ⟨[], rfl, nofun⟩, fun _ => rfl⟩
  have hinv : t.Inv :=
    Runs.throughout_of_each WatchdogService.Inv hstart WatchdogService.Inv.step hothers events List.prefix_rfl
  obtain ⟨path, hhanded, -⟩ := hinv.sent
  refine ⟨⟨path, hhanded⟩, hinv.has, fun ending hended => ⟨?_, ?_⟩⟩
  · have hhas := hinv.has
    rw [WatchdogService.held, hended] at hhas
    exact hhas
  · rintro rfl
    exact hinv.unbegun (.inr hended)

namespace WatchdogService

def supervised : World where
  kernel := { Kernel.bare with env := fun name => if name = notifySocketEnv then some (str "/n") else none }
  choices n := ⟨none, 3 + n, 0, 0, 0⟩

/-- The rest of the process opens a descriptor between the pings, and the task is
cancelled after the second. -/
theorem watchdog_leaves_nothing_cancelled :
    let opened :=
      ((start (some 2000000) supervised).step .unixPort 2 .begins).world.kernel.install 9 ⟨.socket, true⟩
    let t := [ServiceEvent.begins, .others opened, .wakes, .cancels].foldl (step .unixPort 2)
      (start (some 2000000) supervised)
    (∃ path, t.handed = List.replicate t.pings (pingMessage path)) ∧ t.pings = 2 ∧
      t.world.kernel.table = t.rest := by
  intro opened t
  have hheld : ((start (some 2000000) supervised).step .unixPort 2 .begins).held = some 4 := by decide +kernel
  have hothers : Runs.Each (step .unixPort 2) Spares (start (some 2000000) supervised)
      [.begins, .others opened, .wakes, .cancels] := by
    refine ⟨trivial, fun fd hfd => ?_, trivial, trivial, trivial⟩
    cases hheld.symm.trans hfd
    have hne : (4 : Fd) ≠ 9 := by decide
    simp only [opened, Kernel.install_table]
    rw [Function.update_of_ne hne]
  obtain ⟨hhanded, -, hended⟩ := watchdog_leaves_nothing .unixPort (some 2000000) 2 supervised _ hothers
  exact ⟨hhanded, by decide +kernel, (hended .cancelled rfl).1⟩

end WatchdogService

end Mpsystemd
