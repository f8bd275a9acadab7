import Mpsystemd.Notifier

/-! The task that services the watchdog, from one of its `await`s to the next. -/

namespace Mpsystemd

def usecPerMs : Int := 1000

def minPeriodMs : Int := 1

def watchdogPeriodMs (intervalUs divisor : Int) : Except PyErr Int :=
  if divisor < 1 then .error (.valueError "divisor must be at least 1" [])
  else
    let period := (intervalUs.fdiv divisor).fdiv usecPerMs
    .ok (if period < minPeriodMs then minPeriodMs else period)

/-- The locals of a `watchdog_loop` that has entered its `try`. -/
structure WatchdogLoop where
  notifier : Notifier
  owned : Bool
  periodMs : Int

namespace WatchdogLoop

def setNotifier (self : WatchdogLoop) (n : Notifier) : WatchdogLoop := { self with notifier := n }

/-- The `finally`: the loop closes a notifier of its own. -/
def finish (rt : Runtime) : Py WatchdogLoop Unit := do
  let self ← Method.attributes
  if self.owned then Method.zoom notifier setNotifier (Notifier.close rt)

/-- Everything before the first ping, none when the loop returns instead. -/
def enter {σ : Type} (rt : Runtime) (intervalUs : Option Int) (divisor : Int)
    (notifier : Option Notifier) : Py σ (Option WatchdogLoop) := do
  let intervalUs ← intervalUs.elim (Daemon.watchdogEnabled rt false) pure
  if intervalUs = 0 then return none
  else
    let periodMs ← Method.lift (watchdogPeriodMs intervalUs divisor)
    let owned := notifier.isNone
    let notifier ← notifier.elim (Notifier.new none) pure
    let loop : WatchdogLoop := ⟨notifier, owned, periodMs⟩
    if notifier.available then return some loop
    else
      Method.zoom (fun _ => loop) (fun self _ => self) (finish rt)
      return none

/-- One turn of the `while`, up to its `await`. -/
def turn (rt : Runtime) : Py WatchdogLoop Unit :=
  Method.handling
    (do let _ ← Method.zoom notifier setNotifier (Notifier.watchdogPing rt))
    fun e => do
      finish rt
      Method.raise e

end WatchdogLoop

/-- A task that runs `watchdog_loop`: it sleeps, or it has ended. `pings` counts
the pings it has attempted. -/
inductive WatchdogTask where
  | asleep (loop : WatchdogLoop) (pings : Nat)
  | ended (result : Except PyErr Unit) (pings : Nat)

namespace WatchdogTask

def pings : WatchdogTask → Nat
  | asleep _ n => n
  | ended _ n => n

def ping (rt : Runtime) (loop : WatchdogLoop) (n : Nat) (found : Notifier × World) : WatchdogTask :=
  match ((WatchdogLoop.turn rt).run (loop.setNotifier found.1) found.2).1 with
  | (.ok (), loop') => asleep loop' (n + 1)
  | (.error e, _) => ended (.error e) (n + 1)

def start (rt : Runtime) (intervalUs : Option Int) (divisor : Int) (notifier : Option Notifier)
    (w : World) : WatchdogTask :=
  match (WatchdogLoop.enter rt intervalUs divisor notifier).run () w with
  | ((.ok (some loop), _), w') => ping rt loop 0 (loop.notifier, w')
  | ((.ok none, _), _) => ended (.ok ()) 0
  | ((.error e, _), _) => ended (.error e) 0

def wake (rt : Runtime) (found : Notifier × World) : WatchdogTask → WatchdogTask
  | asleep loop n => ping rt loop n found
  | ended result n => ended result n

/-- The task after `n` periods. What it finds at the end of each, the other tasks
have left there. -/
def after (rt : Runtime) (task : WatchdogTask) (found : Nat → Notifier × World) : Nat → WatchdogTask
  | 0 => task
  | n + 1 => wake rt (found n) (after rt task found n)

end WatchdogTask

/-- A ping of the notifier in the world ends as `outcome` says: it raises
`OSError`, or it succeeds. -/
def PingEnds (rt : Runtime) (outcome : Option Errno) (found : Notifier × World) : Prop :=
  ((Notifier.watchdogPing rt).run found.1 found.2).1.1 =
    match outcome with
    | none => .ok true
    | some e => .error (.osError e)

theorem buildPayload_watchdog (rt : Runtime) :
    buildPayload rt [] (keywords [("WATCHDOG", .int 1)]) = .ok (bytes "WATCHDOG=1\n") := by
  have hupper : rt.upper (str "WATCHDOG") = str "WATCHDOG" := by
    simp [Runtime.upper, str, rt.upperChar_ascii]
  have hname : checkName rt (str "WATCHDOG") = .ok (str "WATCHDOG") := by
    rw [checkName, hupper]
    rfl
  have hline : assignment rt (str "WATCHDOG", .int 1) = .ok (str "WATCHDOG=1") := by
    rw [assignment, hname]
    rfl
  have hsorted : (keywords [("WATCHDOG", .int 1)]).sorted = [(str "WATCHDOG", .int 1)] := rfl
  rw [buildPayload, payloadLines, hsorted]
  simp only [List.mapM_cons, List.mapM_nil, hline]
  rfl

theorem pingEnds_of_connected {rt : Runtime} {address : Option StrOrBytes} {path : Bytes} {fd : Fd}
    {w : World} (hfd : w.kernel.fileAt fd = some .socket) :
    PingEnds rt (w.choices 0).error (⟨address, some path, some ⟨fd, some path⟩⟩, w) := by
  unfold PingEnds
  rw [Notifier.watchdogPing, Notifier.notify, buildPayload_watchdog]
  have hdeliver : w.kernel.deliver fd path (bytes "WATCHDOG=1\n") (some []) = .ok (11,
      { w.kernel with sent := w.kernel.sent ++ [⟨path, bytes "WATCHDOG=1\n", []⟩] }) := by
    simp only [Kernel.deliver, hfd]
    rfl
  have hreply : (World.perform (.sendto fd path (bytes "WATCHDOG=1\n")) w).1 =
      (w.choices 0).error.elim (.ok 11) .error := by
    simp only [World.perform, Kernel.perform, hdeliver, Choice.attempt]
    cases (w.choices 0).error with
    | none => rfl
    | some e => rfl
  show (Method.run World.perform (sys (.sendto fd path (bytes "WATCHDOG=1\n")) >>= fun reply =>
    Method.lift (check reply) >>= fun _ => pure true) _ w).1.1 = _
  rw [Method.run_bind]
  show (Method.run World.perform
      (Method.lift (check (World.perform (.sendto fd path (bytes "WATCHDOG=1\n")) w).1) >>= fun _ => pure true)
    _ _).1.1 = _
  rw [hreply]
  cases (w.choices 0).error with
  | none => rfl
  | some e => rfl

def answering (outcome : Nat → Option Errno) (i : Nat) : Notifier × World :=
  (⟨none, some [47, 110], some ⟨3, some [47, 110]⟩⟩,
    ⟨Kernel.bare.install 3 ⟨.socket, true⟩, fun _ => ⟨outcome i, 0, 0, 0, 0⟩⟩)

theorem pingEnds_answering (rt : Runtime) (outcome : Nat → Option Errno) (i : Nat) :
    PingEnds rt (outcome i) (answering outcome i) :=
  pingEnds_of_connected rfl

namespace WatchdogTask

variable {rt : Runtime} {loop : WatchdogLoop} {found : Notifier × World} {e : Errno} {n : Nat}

theorem pings_ping : (ping rt loop n found).pings = n + 1 := by
  rw [ping]
  split
  · rfl
  · rfl

theorem ping_of_success (h : PingEnds rt none found) :
    ∃ loop', ping rt loop n found = asleep loop' (n + 1) ∧ loop'.periodMs = loop.periodMs := by
  rcases hrun : (Notifier.watchdogPing rt).run found.1 found.2 with ⟨⟨result, notifier'⟩, w'⟩
  have hresult : result = .ok true := by rwa [PingEnds, hrun] at h
  rw [hresult] at hrun
  refine ⟨(loop.setNotifier found.1).setNotifier notifier', ?_, rfl⟩
  have hturn : (WatchdogLoop.turn rt).run (loop.setNotifier found.1) found.2 =
      ((.ok (), (loop.setNotifier found.1).setNotifier notifier'), w') := by
    have hping : (Notifier.watchdogPing rt).run (loop.setNotifier found.1).notifier found.2 = _ := hrun
    rw [WatchdogLoop.turn, Py.run, Method.run_handling, Method.run_bind_ok (Method.run_zoom_eq hping)]
    rfl
  simp only [ping, hturn]

theorem ping_of_failure (h : PingEnds rt (some e) found) :
    ∃ result, ping rt loop n found = ended result (n + 1) := by
  rcases hrun : (Notifier.watchdogPing rt).run found.1 found.2 with ⟨⟨result, notifier'⟩, w'⟩
  have hresult : result = .error (.osError e) := by rwa [PingEnds, hrun] at h
  rw [hresult] at hrun
  have hturn : ∃ e', ((WatchdogLoop.turn rt).run (loop.setNotifier found.1) found.2).1.1 =
      .error e' := by
    have hping : (Notifier.watchdogPing rt).run (loop.setNotifier found.1).notifier found.2 = _ := hrun
    rw [WatchdogLoop.turn, Py.run, Method.run_handling, Method.run_bind_error (Method.run_zoom_eq hping)]
    simp only [Method.run_bind]
    split
    · next hfinish => exact ⟨.osError e, rfl⟩
    · next e' _ _ hfinish => exact ⟨e', rfl⟩
  obtain ⟨e', he'⟩ := hturn
  refine ⟨.error e', ?_⟩
  rw [ping]
  split
  · next hok =>
    rw [hok] at he'
    cases he'
  · next herror =>
    rw [herror] at he'
    cases he'
    rfl

section Pattern

variable {task : WatchdogTask} {found : Nat → Notifier × World} {outcome : Nat → Option Errno}
  {periodMs : Int}

theorem after_successes (hstart : ∃ loop, task = asleep loop 1 ∧ loop.periodMs = periodMs)
    (hends : ∀ i, PingEnds rt (outcome (i + 1)) (found i)) (n : Nat)
    (hsuccess : ∀ i < n, outcome (i + 1) = none) :
    ∃ loop, after rt task found n = asleep loop (n + 1) ∧ loop.periodMs = periodMs := by
  induction n with
  | zero => exact hstart
  | succ n ih =>
    obtain ⟨loop, hn, hperiod⟩ := ih fun i hi => hsuccess i (by omega)
    have hping := hends n
    rw [hsuccess n (by omega)] at hping
    rw [after, hn, ← hperiod]
    exact ping_of_success hping

theorem after_ended {result : Except PyErr Unit} {k m : Nat} (hk : after rt task found k = ended result m)
    (n : Nat) (hkn : k ≤ n) : after rt task found n = ended result m := by
  induction n, hkn using Nat.le_induction with
  | base => exact hk
  | succ n _ ih => rw [after, ih, wake]

theorem after_failure (hstart : ∃ loop, task = asleep loop 1 ∧ loop.periodMs = periodMs)
    (hends : ∀ i, PingEnds rt (outcome (i + 1)) (found i)) {k n : Nat} {e : Errno}
    (hsuccess : ∀ i < k, outcome (i + 1) = none) (hfailure : outcome (k + 1) = some e) (hkn : k < n) :
    ∃ result, after rt task found n = ended result (k + 2) := by
  obtain ⟨loop, hk, -⟩ := after_successes hstart hends k hsuccess
  have hping := hends k
  rw [hfailure] at hping
  obtain ⟨result, hended⟩ := @ping_of_failure rt loop (found k) e (k + 1) hping
  have hwake : after rt task found (k + 1) = ended result (k + 2) := by rw [after, hk, wake, hended]
  exact ⟨result, after_ended hwake n hkn⟩

end Pattern

/-- The notifier a loop uses: the one it was given, or one of its own. -/
def Uses (notifier : Option Notifier) (w : World) (found : Notifier × World) : Prop :=
  (notifier.elim (Notifier.new none) pure : Py Unit Notifier).run () w = ((.ok found.1, ()), found.2)

/-- The interval a loop has: the one it was given, or the one of the environment. -/
def HasInterval (rt : Runtime) (interval : Option Int) (w : World) (intervalUs : Int) (w' : World) : Prop :=
  (interval.elim (Daemon.watchdogEnabled rt false) pure : Py Unit Int).run () w = ((.ok intervalUs, ()), w')

theorem start_eq_ping {interval : Option Int} {intervalUs divisor : Int} {notifier : Option Notifier}
    {w w' : World} {found : Notifier × World} (hgiven : HasInterval rt interval w intervalUs w')
    (hinterval : 0 < intervalUs) (hdivisor : 1 ≤ divisor)
    (huses : Uses notifier w' found) (havailable : found.1.available = true) :
    ∃ loop, start rt interval divisor notifier w = ping rt loop 0 found ∧
      watchdogPeriodMs intervalUs divisor = .ok loop.periodMs := by
  obtain ⟨periodMs, hperiod⟩ : ∃ periodMs, watchdogPeriodMs intervalUs divisor = .ok periodMs := by
    rw [watchdogPeriodMs, if_neg (by omega)]
    exact ⟨_, rfl⟩
  have henter : (WatchdogLoop.enter rt interval divisor notifier : Py Unit _).run () w =
      ((.ok (some ⟨found.1, notifier.isNone, periodMs⟩), ()), found.2) := by
    rw [WatchdogLoop.enter, Py.run, Method.run_bind_ok hgiven, if_neg (by omega), hperiod]
    show Method.run World.perform ((notifier.elim (Notifier.new none) pure : Py Unit Notifier) >>= _)
      () w' = _
    rw [Method.run_bind_ok huses, if_pos havailable]
    rfl
  exact ⟨_, by rw [start, henter], hperiod⟩

/-- What `watchdog_loop` promises of every pattern of outcomes is true of those
whose pings all succeed, but for the last one. -/
theorem pings_after_iff (rt : Runtime) (intervalUs divisor : Int) (hinterval : 0 < intervalUs)
    (hdivisor : 1 ≤ divisor) (notifier : Option Notifier) (w : World) (found : Nat → Notifier × World)
    (huses : Uses notifier w (found 0)) (havailable : (found 0).1.available = true)
    (outcome : Nat → Option Errno) (hends : ∀ i, PingEnds rt (outcome i) (found i)) (n : Nat) :
    (after rt (start rt (some intervalUs) divisor notifier w) (fun i => found (i + 1)) n).pings = n + 1 ↔
      ∀ i < n, outcome i = none := by
  have hgiven : HasInterval rt (some intervalUs) w intervalUs w := rfl
  obtain ⟨loop, hping, -⟩ := start_eq_ping hgiven hinterval hdivisor huses havailable
  rw [hping]
  have hfirst := hends 0
  have hlater : ∀ i, PingEnds rt (outcome (i + 1)) (found (i + 1)) := fun i => hends (i + 1)
  constructor
  · intro hpings
    by_contra hnot
    have hfails : ∃ i, i < n ∧ outcome i ≠ none := by simpa using hnot
    obtain ⟨hkn, hk⟩ := Nat.find_spec hfails
    have hbefore : ∀ i < Nat.find hfails, outcome i = none := by
      intro i hi
      by_contra hne
      exact Nat.find_min hfails hi ⟨by omega, hne⟩
    generalize Nat.find hfails = k at hkn hk hbefore
    obtain ⟨e, he⟩ := Option.ne_none_iff_exists'.mp hk
    cases k with
    | zero =>
      rw [he] at hfirst
      obtain ⟨result, hended⟩ := @ping_of_failure rt loop (found 0) e 0 hfirst
      rw [hended, after_ended (after.eq_1 ..) n (Nat.zero_le n)] at hpings
      simp only [pings] at hpings
      omega
    | succ k =>
      rw [hbefore 0 (by omega)] at hfirst
      obtain ⟨result, hended⟩ :=
        after_failure (ping_of_success hfirst) hlater (fun i hi => hbefore (i + 1) (by omega))
        he (show k < n by omega)
      rw [hended] at hpings
      simp only [pings] at hpings
      omega
  · intro hsuccess
    cases n with
    | zero => exact pings_ping
    | succ n =>
      rw [hsuccess 0 (by omega)] at hfirst
      obtain ⟨loop', hn, -⟩ :=
        after_successes (ping_of_success hfirst) hlater n fun i hi => hsuccess (i + 1) (by omega)
      rw [after, hn]
      exact pings_ping

theorem pings_after_iff_unixPort :
    let outcome : Nat → Option Errno := fun i => if i = 2 then some Errno.nobufs else none
    let found := answering outcome
    (after .unixPort (start .unixPort (some 30000000) 2 (some (found 0).1) (found 0).2)
        (fun i => found (i + 1)) 3).pings = 3 + 1 ↔ ∀ i < 3, outcome i = none := by
  intro outcome found
  exact pings_after_iff .unixPort 30000000 2 (by decide) (by decide) (some (found 0).1) (found 0).2
    found rfl rfl outcome (pingEnds_answering .unixPort outcome) 3

/-- The socket buffer is full at the first ping, and never again. -/
theorem first_failure_ends_loop :
    let outcome : Nat → Option Errno := fun i => if i = 0 then some Errno.nobufs else none
    let found := answering outcome
    (∀ i, PingEnds .unixPort (outcome i) (found i)) ∧ (found 0).1.available = true ∧
      (after .unixPort (start .unixPort (some 30000000) 2 (some (found 0).1) (found 0).2)
        (fun i => found (i + 1)) 4).pings ≠ 4 + 1 := by
  intro outcome found
  have hends : ∀ i, PingEnds .unixPort (outcome i) (found i) := pingEnds_answering .unixPort outcome
  have hgiven : HasInterval .unixPort (some 30000000) (found 0).2 30000000 (found 0).2 := rfl
  have huses : Uses (some (found 0).1) (found 0).2 (found 0) := rfl
  have hdivisor : (1 : Int) ≤ 2 := by decide
  obtain ⟨loop, hstart, -⟩ := start_eq_ping hgiven (by decide) hdivisor huses rfl
  obtain ⟨result, hended⟩ := @ping_of_failure .unixPort loop (found 0) Errno.nobufs 0 (hends 0)
  refine ⟨hends, rfl, ?_⟩
  rw [hstart, hended, after_ended (after.eq_1 ..) 4 (Nat.zero_le 4)]
  simp [pings]

end WatchdogTask

end Mpsystemd
