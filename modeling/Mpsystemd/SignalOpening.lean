import Mpsystemd.SignalRules

/-! An `open()` that raises: the MicroPython backend undoes what it did, the
CPython backend leaves the handlers it added. -/

namespace Mpsystemd

def Kernel.Undisturbed (k k' : Kernel) : Prop :=
  k'.mask = k.mask ∧ k'.handlers = k.handlers ∧ k'.table = k.table

namespace SignalWatcher

def AtomicCall {Source : Type} (method : Py (SignalWatcher Source) Unit) (self : SignalWatcher Source)
    (w : World) : Prop :=
  ∀ e self' w', method.run self w = ((.error e, self'), w') → w.kernel.Undisturbed w'.kernel

theorem atomic_micropython (self : SignalWatcher MicroPython.SignalSource) (w : World) :
    AtomicCall (openWatcher MicroPython.backend) self w := by
  intro e self' w' hrun
  rcases MicroPython.SignalSource.run_openSource self.source w with
    ⟨e', _, _, -, -, hopen⟩ | ⟨-, _, _, -, hopen⟩
  · have hraised : (openWatcher MicroPython.backend).run self w = _ := run_openWatcher_error hopen
    rw [hraised] at hrun
    cases hrun
    exact ⟨rfl, rfl, rfl⟩
  · have hopened : (openWatcher MicroPython.backend).run self w = _ := run_openWatcher_ok hopen
    rw [hopened] at hrun
    cases hrun

theorem routed_handlers {k : Kernel} {signals : List Int} {owner : Nat} :
    (k.routed signals owner).handlers = k.handlers ↔
      ∀ signo ∈ signals, k.handlers signo = some owner := by
  constructor
  · intro heq signo hsigno
    rw [← heq]
    exact if_pos hsigno
  · intro howned
    funext signo
    show (if signo ∈ signals then some owner else k.handlers signo) = _
    split
    · next hsigno => exact (howned signo hsigno).symm
    · rfl

theorem atomic_cpython_iff (self : SignalWatcher CPython.SignalSource) (w : World) :
    AtomicCall (openWatcher CPython.backend) self w ↔
      (w.kernel.loop = true ∧
          CPython.SignalSource.armed w self.source.signals = self.source.signals) ∨
        ∀ signo ∈ CPython.SignalSource.armed w self.source.signals,
          w.kernel.handlers signo = some self.source.id := by
  obtain ⟨result, source, isOpen, choices, hrun, -, -, -, -, hresult⟩ :=
    CPython.SignalSource.run_openWatcher self w
  constructor
  · intro hatomic
    rcases hresult with ⟨-, -, harmed⟩ | ⟨⟨e, rfl⟩, -, -⟩
    · exact .inl harmed
    · exact .inr (routed_handlers.mp (hatomic _ _ _ hrun).2.1)
  · intro hcondition e self' w' herror
    rw [hrun] at herror
    rcases hresult with ⟨rfl, -, -⟩ | ⟨-, -, hfailed⟩
    · cases herror
    · have howned := hcondition.resolve_left hfailed
      cases herror
      exact ⟨rfl, routed_handlers.mpr howned, rfl⟩

/-- An `open()` or `async with` that raises leaves the process as it was: always
on the MicroPython backend, and on the CPython backend exactly when it does not
raise, or every signal it got a handler for before was this watcher's already. -/
theorem opening_atomic_iff (unixWatcher : SignalWatcher MicroPython.SignalSource)
    (loopWatcher : SignalWatcher CPython.SignalSource) (w : World) :
    (∀ method ∈ [openWatcher MicroPython.backend, aenter MicroPython.backend],
        AtomicCall method unixWatcher w) ∧
      ∀ method ∈ [openWatcher CPython.backend, aenter CPython.backend],
        AtomicCall method loopWatcher w ↔
          (w.kernel.loop = true ∧
              CPython.SignalSource.armed w loopWatcher.source.signals = loopWatcher.source.signals) ∨
            ∀ signo ∈ CPython.SignalSource.armed w loopWatcher.source.signals,
              w.kernel.handlers signo = some loopWatcher.source.id := by
  constructor
  · intro method hmethod
    have hopen : method = openWatcher MicroPython.backend := by simpa [aenter] using hmethod
    rw [hopen]
    exact atomic_micropython unixWatcher w
  · intro method hmethod
    have hopen : method = openWatcher CPython.backend := by simpa [aenter] using hmethod
    rw [hopen]
    exact atomic_cpython_iff loopWatcher w

/-- `SIGTERM` stays with a watcher that could not have `SIGKILL`. -/
theorem opening_diverts :
    let self : SignalWatcher CPython.SignalSource := ⟨[15, 9], 200, .new 0 [15, 9], false⟩
    let w : World := ⟨{ Kernel.bare with loop := true }, fun _ => ⟨none, 0, 0, 0, 0⟩⟩
    let ended := (openWatcher CPython.backend).run self w
    Fresh (CPython.SignalSource.new 0) self ∧ ended.1.1 = .error .runtimeError ∧
      ended.1.2.isOpen = false ∧ w.kernel.handlers 15 = none ∧ ended.2.kernel.handlers 15 = some 0 ∧
      ¬ AtomicCall (openWatcher CPython.backend) self w := by
  intro self w ended
  have hended : (openWatcher CPython.backend).run self w = ((.error .runtimeError, ended.1.2), ended.2) := rfl
  refine ⟨⟨.many [15, 9], 200, rfl⟩, rfl, rfl, rfl, rfl, ?_⟩
  intro hatomic
  have hhandlers := congrFun (hatomic _ _ _ hended).2.1 15
  cases hhandlers

end SignalWatcher

end Mpsystemd
