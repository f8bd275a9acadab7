import Mpsystemd.Platform

/-! Waiting for signals: a signalfd on the MicroPython unix port, the running
event loop on CPython, and the watcher over either of them. -/

namespace Mpsystemd

namespace MicroPython

/-- `fd` is -1 and `saved` none unless the source is open. -/
structure SignalSource where
  signals : List Int
  fd : Fd
  saved : Option SigMask

namespace SignalSource

def new (signals : List Int) : SignalSource := ⟨signals, -1, none⟩

def fillSet {σ : Type} : List Int → SigSet → Py σ SigSet
  | [], set => return set
  | signo :: rest, set => do
    Method.lift (check (← sys (.sigaddset signo)))
    fillSet rest (insert signo set)

def restore (saved : SigMask) : Py SignalSource Unit := do
  sys (.sigSetmask saved)
  Method.update ({ · with saved := none })

def openSource : Py SignalSource Unit := do
  let self ← Method.attributes
  Method.lift (check (← sys .sigemptyset))
  let mask ← fillSet self.signals ∅
  let saved ← Method.lift (check (← sys (.sigBlock mask)))
  Method.update ({ · with saved := some saved })
  Method.handling
    (do
      let fd ← Method.lift (check (← sys (.signalfd mask)))
      Method.update ({ · with fd := fd }))
    fun e => do
      if e.IsOSError then restore saved
      Method.raise e

def pending : Py SignalSource (Option Int) := do
  let self ← Method.attributes
  if self.fd < 0 then Method.raise (.systemdError "signal source is not open" [])
  else
    match ← sys (.readSiginfo self.fd) with
    | .ok signo => return signo
    | .error e => if e = Errno.again ∨ e = Errno.intr then return none else Method.raise (.osError e)

def close : Py SignalSource Unit := do
  let self ← Method.attributes
  if self.fd ≥ 0 then
    let _ ← sys (.close self.fd)
    Method.update ({ · with fd := -1 })
  self.saved.elim (return ()) restore

end SignalSource

end MicroPython

namespace CPython

/-- `id` tells the object apart from the others, as its bound `_deliver` does in
the loop's table. `event` is the flag of its event, none before it has one;
`loop` is set while it has a loop. -/
structure SignalSource where
  id : Nat
  signals : List Int
  queue : List Int
  event : Option Bool
  installed : List Int
  loop : Bool
  deriving DecidableEq, Repr

namespace SignalSource

def new (id : Nat) (signals : List Int) : SignalSource := ⟨id, signals, [], none, [], false⟩

def installAll : List Int → Py SignalSource Unit
  | [] => return ()
  | signo :: rest => do
    let self ← Method.attributes
    Method.lift (← sys (.addSignalHandler signo self.id))
    Method.update fun self => { self with installed := self.installed ++ [signo] }
    installAll rest

def openSource : Py SignalSource Unit := do
  if ← sys .getRunningLoop then
    Method.update ({ · with loop := true, event := some false })
    let self ← Method.attributes
    installAll self.signals
  else
    Method.raise (.unsupportedError "signal watching needs a running event loop on CPython")

def deliver (self : SignalSource) (signo : Int) : SignalSource :=
  { self with queue := self.queue ++ [signo], event := self.event.map fun _ => true }

def clear (self : SignalSource) : SignalSource :=
  { self with event := self.event.map fun _ => false }

def pending : Py SignalSource (Option Int) := do
  let self ← Method.attributes
  if self.loop then
    match self.queue with
    | [] => return none
    | signo :: queue =>
      Method.update ({ · with queue := queue })
      if queue = [] then Method.update clear
      return some signo
  else Method.raise (.systemdError "signal source is not open" [])

/-- One turn of the `while` of `wait`: a signal to return, or none when it goes
on to await the event. -/
def waitTurn : Py SignalSource (Option Int) := do
  match ← pending with
  | some signo => return some signo
  | none =>
    Method.update clear
    return none

/-- Removes the handlers from the last one on, and ignores the loop's refusals. -/
def removeAll : List Int → Py SignalSource Unit
  | [] => return ()
  | signo :: rest => do
    Method.update ({ · with installed := rest.reverse })
    Method.handling (do Method.lift (← sys (.removeSignalHandler signo))) fun e =>
      if e = .runtimeError ∨ e.IsValueError then return () else Method.raise e
    removeAll rest

def close : Py SignalSource Unit := do
  let self ← Method.attributes
  removeAll self.installed.reverse
  Method.update ({ · with loop := false, queue := [] })

end SignalSource

end CPython

structure Backend (Source : Type) where
  openSource : Py Source Unit
  pending : Py Source (Option Int)
  close : Py Source Unit

def MicroPython.backend : Backend MicroPython.SignalSource :=
  ⟨MicroPython.SignalSource.openSource, MicroPython.SignalSource.pending, MicroPython.SignalSource.close⟩

def CPython.backend : Backend CPython.SignalSource :=
  ⟨CPython.SignalSource.openSource, CPython.SignalSource.pending, CPython.SignalSource.close⟩

inductive SignalsArg where
  | one (signo : Int)
  | many (signals : List Int)
  deriving DecidableEq, Repr

def SignalsArg.toList : SignalsArg → List Int
  | one signo => [signo]
  | many signals => signals

structure SignalWatcher (Source : Type) where
  signals : List Int
  pollMs : Int
  source : Source
  isOpen : Bool

namespace SignalWatcher

variable {Source : Type}

def new (makeSource : List Int → Source) (signals : SignalsArg) (pollMs : Int) :
    Except PyErr (SignalWatcher Source) := do
  if signals.toList = [] then throw (.valueError "no signals given" [])
  if pollMs < 1 then throw (.valueError "poll_ms must be at least 1" [])
  return ⟨signals.toList, pollMs, makeSource signals.toList, false⟩

def Fresh (makeSource : List Int → Source) (self : SignalWatcher Source) : Prop :=
  ∃ signals pollMs, new makeSource signals pollMs = .ok self

theorem new_eq_ok {makeSource : List Int → Source} {signals : SignalsArg} {pollMs : Int}
    {self : SignalWatcher Source} (h : new makeSource signals pollMs = .ok self) :
    self = ⟨signals.toList, pollMs, makeSource signals.toList, false⟩ := by
  rw [new] at h
  by_cases hnone : signals.toList = []
  · rw [if_pos hnone] at h
    cases h
  · by_cases hpoll : pollMs < 1
    · rw [if_neg hnone, if_pos hpoll] at h
      cases h
    · rw [if_neg hnone, if_neg hpoll] at h
      exact (Except.ok.inj h).symm

def setSource (self : SignalWatcher Source) (source : Source) : SignalWatcher Source :=
  { self with source := source }

def openWatcher (backend : Backend Source) : Py (SignalWatcher Source) Unit := do
  Method.zoom source setSource backend.openSource
  Method.update ({ · with isOpen := true })

def close (backend : Backend Source) : Py (SignalWatcher Source) Unit := do
  let self ← Method.attributes
  if self.isOpen then
    Method.zoom source setSource backend.close
    Method.update ({ · with isOpen := false })

def pending (backend : Backend Source) : Py (SignalWatcher Source) (Option Int) :=
  Method.zoom source setSource backend.pending

/-- `async with`: the watcher is open, or the exception leaves. -/
def aenter (backend : Backend Source) : Py (SignalWatcher Source) Unit := openWatcher backend

end SignalWatcher

/-! Several watchers in one process. -/

inductive WatcherCall where
  | opens (i : Nat)
  | closes (i : Nat)
  deriving DecidableEq, Repr

def WatcherCall.watcher : WatcherCall → Nat
  | opens i => i
  | closes i => i

structure Watchers (Source : Type) where
  watcher : Nat → SignalWatcher Source
  kernel : Kernel

namespace Watchers

variable {Source : Type}

/-- The watchers after a call of a method of one of them, whether or not it raised. -/
def call (t : Watchers Source) (choices : Nat → Choice) (i : Nat)
    (method : Py (SignalWatcher Source) Unit) : Watchers Source :=
  let ((_, self), w) := method.run (t.watcher i) ⟨t.kernel, choices⟩
  ⟨Function.update t.watcher i self, w.kernel⟩

def step (backend : Backend Source) (t : Watchers Source) :
    WatcherCall × (Nat → Choice) → Watchers Source
  | (.opens i, choices) => t.call choices i (SignalWatcher.openWatcher backend)
  | (.closes i, choices) => t.call choices i (SignalWatcher.close backend)

def after (backend : Backend Source) (run : List (WatcherCall × (Nat → Choice)))
    (t : Watchers Source) : Watchers Source := run.foldl (step backend) t

theorem after_append {backend : Backend Source} (run run' : List (WatcherCall × (Nat → Choice)))
    (t : Watchers Source) : t.after backend (run ++ run') = (t.after backend run).after backend run' :=
  List.foldl_append

theorem after_nil {backend : Backend Source} (t : Watchers Source) : t.after backend [] = t := rfl

theorem after_cons {backend : Backend Source} (call : WatcherCall × (Nat → Choice))
    (run : List (WatcherCall × (Nat → Choice))) (t : Watchers Source) :
    t.after backend (call :: run) = (t.step backend call).after backend run := rfl

end Watchers

end Mpsystemd
