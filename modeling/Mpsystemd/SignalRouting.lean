import Mpsystemd.SignalRules
import Mpsystemd.Lib.Runs

/-! Where a signal goes under several watchers of the CPython backend, which all
share the event loop's table of handlers. -/

namespace Mpsystemd

namespace CPython

/-- What happens to the process: a call on one of the watchers, with the
environment's choices for it, or the arrival of a signal. -/
inductive SignalEvent where
  | call (call : WatcherCall) (choices : Nat → Choice)
  | arrives (signo : Int)

/-- `defaulted` lists the signals that took their default disposition. -/
structure Process where
  watchers : Watchers SignalSource
  defaulted : List Int

namespace Process

def watcher (t : Process) : Nat → SignalWatcher SignalSource := t.watchers.watcher

def handlers (t : Process) : Int → Option Nat := t.watchers.kernel.handlers

def arrive (t : Process) (signo : Int) : Process :=
  match t.handlers signo with
  | none => { t with defaulted := t.defaulted ++ [signo] }
  | some i =>
    let self := (t.watcher i).setSource ((t.watcher i).source.deliver signo)
    { t with watchers := ⟨Function.update t.watcher i self, t.watchers.kernel⟩ }

def step (t : Process) : SignalEvent → Process
  | .call call choices => { t with watchers := t.watchers.step backend (call, choices) }
  | .arrives signo => t.arrive signo

def after (events : List SignalEvent) (t : Process) : Process := events.foldl step t

def Names (t : Process) (i : Nat) (signo : Int) : Prop :=
  (t.watcher i).isOpen = true ∧ signo ∈ (t.watcher i).signals

/-- The signal, if it arrives now and an open watcher names it, is queued in one. -/
def Served (t : Process) (signo : Int) : Prop :=
  (∃ i, t.Names i signo) → ∃ i, t.Names i signo ∧
    ((t.arrive signo).watcher i).source.queue = (t.watcher i).source.queue ++ [signo] ∧
      (t.arrive signo).defaulted = t.defaulted

/-- The loop's handler for a named signal belongs to an open watcher that names it. -/
def Routed (t : Process) : Prop :=
  ∀ signo, (∃ i, t.Names i signo) → ∃ i, t.Names i signo ∧ t.handlers signo = some i

/-- A `close()` takes no signal from another open watcher, and neither does an
`open()` that fails. -/
def Harmless (t : Process) : SignalEvent → Prop
  | .call (.opens i) choices =>
    let armed := SignalSource.armed ⟨t.watchers.kernel, choices⟩ (t.watcher i).signals
    (t.watchers.kernel.loop = true ∧ armed = (t.watcher i).signals) ∨ (t.watcher i).isOpen = true ∨
      ∀ signo ∈ armed, ∀ j, ¬ t.Names j signo
  | .call (.closes i) _ =>
    (t.watcher i).isOpen = true → ∀ signo ∈ (t.watcher i).signals, ∀ j, j ≠ i → ¬ t.Names j signo
  | .arrives _ => True

theorem served_iff {t : Process} : (∀ signo, t.Served signo) ↔ t.Routed := by
  constructor
  · intro hserved signo hnamed
    obtain ⟨i, hi, hqueue, -⟩ := hserved signo hnamed
    refine ⟨i, hi, ?_⟩
    cases hhandler : t.handlers signo with
    | none =>
      simp [arrive, hhandler, watcher] at hqueue
    | some j =>
      by_cases hij : i = j
      · rw [hij]
      · simp [arrive, hhandler, watcher, Function.update_of_ne hij] at hqueue
  · intro hrouted signo hnamed
    obtain ⟨i, hi, hhandler⟩ := hrouted signo hnamed
    refine ⟨i, hi, ?_⟩
    simp [arrive, hhandler, watcher, SignalWatcher.setSource, SignalSource.deliver]

structure Sound (i : Nat) (w : SignalWatcher SignalSource) : Prop where
  id : w.source.id = i
  named : w.source.signals = w.signals
  installed : ∀ signo ∈ w.source.installed, signo ∈ w.signals ∧ Kernel.handlerError signo = none
  complete : w.isOpen = true → ∀ signo ∈ w.signals, signo ∈ w.source.installed

theorem sound_of_fresh {i : Nat} {w : SignalWatcher SignalSource}
    (hfresh : SignalWatcher.Fresh (SignalSource.new i) w) : Sound i w ∧ w.isOpen = false := by
  obtain ⟨signals, pollMs, hnew⟩ := hfresh
  rw [SignalWatcher.new_eq_ok hnew]
  refine ⟨⟨rfl, rfl, ?_, ?_⟩, rfl⟩
  · intro signo hsigno
    cases hsigno
  · intro hopen
    cases hopen

variable {t : Process} {i : Nat} {choices : Nat → Choice}

theorem opens_cases (hsound : Sound i (t.watcher i)) :
    ∃ self, t.step (.call (.opens i) choices) =
        { t with watchers := ⟨Function.update t.watcher i self, t.watchers.kernel.routed
          (SignalSource.armed ⟨t.watchers.kernel, choices⟩ (t.watcher i).signals) i⟩ } ∧
      Sound i self ∧ self.signals = (t.watcher i).signals ∧
      ((self.isOpen = true ∧ t.watchers.kernel.loop = true ∧
          SignalSource.armed ⟨t.watchers.kernel, choices⟩ (t.watcher i).signals =
            (t.watcher i).signals) ∨
        self.isOpen = (t.watcher i).isOpen ∧ ¬ (t.watchers.kernel.loop = true ∧
          SignalSource.armed ⟨t.watchers.kernel, choices⟩ (t.watcher i).signals =
            (t.watcher i).signals)) := by
  obtain ⟨result, source, isOpen, choices', hrun, hid, hsignals, -, hinstalled, hresult⟩ :=
    SignalSource.run_openWatcher (t.watcher i) ⟨t.watchers.kernel, choices⟩
  rw [hsound.named, hsound.id] at hrun
  rw [hsound.named] at hsignals hinstalled hresult
  refine ⟨{ t.watcher i with source := source, isOpen := isOpen }, ?_, ?_, rfl, ?_⟩
  · rw [step, Watchers.step, Watchers.call_of_run hrun]
    rfl
  · refine ⟨hid.trans hsound.id, hsignals, ?_, ?_⟩
    · intro signo hsigno
      rw [hinstalled] at hsigno
      rcases List.mem_append.mp hsigno with hbefore | harmed
      · exact hsound.installed signo hbefore
      · exact SignalSource.mem_of_armed harmed
    · intro hopen signo hsigno
      show signo ∈ source.installed
      rw [hinstalled]
      rcases hresult with ⟨-, -, -, hall⟩ | ⟨-, hsame, -⟩
      · rw [hall]
        exact List.mem_append_right _ hsigno
      · exact List.mem_append_left _ (hsound.complete (hsame ▸ hopen) signo hsigno)
  · rcases hresult with ⟨-, hopen, hall⟩ | ⟨-, hsame, hfailed⟩
    · exact .inl ⟨hopen, hall⟩
    · exact .inr ⟨hsame, hfailed⟩

theorem closes_of_open (hsound : Sound i (t.watcher i)) (hopen : (t.watcher i).isOpen = true) :
    ∃ self k', t.step (.call (.closes i) choices) =
        { t with watchers := ⟨Function.update t.watcher i self, k'⟩ } ∧
      Sound i self ∧ self.signals = (t.watcher i).signals ∧ self.isOpen = false ∧
      ∀ signo, k'.handlers signo = if signo ∈ (t.watcher i).signals then none else t.handlers signo := by
  obtain ⟨choices', hclose⟩ := SignalSource.run_close (t.watcher i).source ⟨t.watchers.kernel, choices⟩
    fun signo hsigno => (hsound.installed signo hsigno).2
  have hrun : (SignalWatcher.close backend).run (t.watcher i) ⟨t.watchers.kernel, choices⟩ = _ :=
    SignalWatcher.run_closeWatcher hopen hclose
  refine ⟨{ t.watcher i with
    source := { (t.watcher i).source with installed := [], loop := false, queue := [] }
    isOpen := false }, SignalSource.unrouted t.watchers.kernel (t.watcher i).source.installed,
    ?_, ?_, rfl, rfl, ?_⟩
  · rw [step, Watchers.step, Watchers.call_of_run hrun]
    rfl
  · refine ⟨hsound.id, hsound.named, ?_, ?_⟩
    · intro signo hsigno
      cases hsigno
    · intro hfalse
      cases hfalse
  · intro signo
    have hmem : signo ∈ (t.watcher i).source.installed ↔ signo ∈ (t.watcher i).signals :=
      ⟨fun h => (hsound.installed signo h).1, hsound.complete hopen signo⟩
    show (if signo ∈ (t.watcher i).source.installed then none else _) = _
    simp only [hmem]
    rfl

theorem names_update {self : SignalWatcher SignalSource} {k' : Kernel} {defaulted : List Int} {j : Nat}
    {signo : Int} : Names ⟨⟨Function.update t.watcher i self, k'⟩, defaulted⟩ j signo ↔
      if j = i then self.isOpen = true ∧ signo ∈ self.signals else t.Names j signo := by
  by_cases hji : j = i
  · simp [Names, watcher, hji]
  · simp [Names, watcher, hji]

theorem names_opens (hsound : Sound i (t.watcher i)) (hloop : t.watchers.kernel.loop = true)
    (harmed : SignalSource.armed ⟨t.watchers.kernel, choices⟩ (t.watcher i).signals =
      (t.watcher i).signals) (j : Nat) (signo : Int) :
    (t.step (.call (.opens i) choices)).Names j signo ↔
      if j = i then signo ∈ (t.watcher i).signals else t.Names j signo := by
  obtain ⟨self, hstep, -, hsignals, hcases⟩ := @opens_cases t i choices hsound
  rcases hcases with ⟨hopen, -⟩ | ⟨-, hfailed⟩
  · rw [hstep, names_update, hopen, hsignals, and_iff_right rfl]
  · exact absurd ⟨hloop, harmed⟩ hfailed

theorem defaulted_of_closes {j : Nat} {signo : Int} (hsound : Sound i (t.watcher i)) (hne : j ≠ i)
    (hi : t.Names i signo) (hj : t.Names j signo) :
    (t.step (.call (.closes i) choices)).Names j signo ∧
      ((t.step (.call (.closes i) choices)).arrive signo).defaulted = t.defaulted ++ [signo] ∧
      ¬ (t.step (.call (.closes i) choices)).Served signo := by
  obtain ⟨self, k', hstep, -, -, -, hhandlers⟩ := @closes_of_open t i choices hsound hi.1
  have hnamed : Names ⟨⟨Function.update t.watcher i self, k'⟩, t.defaulted⟩ j signo := by
    rw [names_update, if_neg hne]
    exact hj
  have hnone : handlers ⟨⟨Function.update t.watcher i self, k'⟩, t.defaulted⟩ signo = none := by
    show k'.handlers signo = none
    rw [hhandlers, if_pos hi.2]
  have harrive : (arrive ⟨⟨Function.update t.watcher i self, k'⟩, t.defaulted⟩ signo).defaulted =
      t.defaulted ++ [signo] := by rw [arrive, hnone]
  rw [hstep]
  refine ⟨hnamed, harrive, ?_⟩
  intro hserved
  obtain ⟨_, -, -, hkept⟩ := hserved ⟨j, hnamed⟩
  rw [harrive] at hkept
  exact absurd hkept (by simp)

theorem routed_opens (hsound : Sound i (t.watcher i)) (hrouted : t.Routed) :
    (t.step (.call (.opens i) choices)).Routed ↔ t.Harmless (.call (.opens i) choices) := by
  obtain ⟨self, hstep, -, hsignals, hcases⟩ := @opens_cases t i choices hsound
  have hafter : ∀ signo, (t.step (.call (.opens i) choices)).handlers signo =
      if signo ∈ SignalSource.armed ⟨t.watchers.kernel, choices⟩ (t.watcher i).signals then some i
      else t.handlers signo := by
    intro signo
    rw [hstep]
    rfl
  have harmed : ∀ signo ∈ SignalSource.armed ⟨t.watchers.kernel, choices⟩ (t.watcher i).signals,
      signo ∈ (t.watcher i).signals := fun signo h => (SignalSource.mem_of_armed h).1
  have hnames : ∀ j signo, (t.step (.call (.opens i) choices)).Names j signo ↔
      if j = i then self.isOpen = true ∧ signo ∈ (t.watcher i).signals else t.Names j signo := by
    intro j signo
    rw [hstep, names_update, hsignals]
  constructor
  · intro hrouted'
    rcases hcases with ⟨-, hall⟩ | ⟨hsame, -⟩
    · exact .inl hall
    · refine .inr (or_iff_not_imp_left.mpr fun hclosed signo hsigno j hj => ?_)
      have hne : j ≠ i := fun h => hclosed (h ▸ hj.1)
      obtain ⟨owner, hopen, howner⟩ := hrouted' signo ⟨j, (hnames j signo).mpr (by rwa [if_neg hne])⟩
      rw [hafter, if_pos hsigno, Option.some.injEq] at howner
      rw [hnames, if_pos howner.symm, hsame] at hopen
      exact hclosed hopen.1
  · rintro hharmless signo ⟨j, hj⟩
    rw [hnames] at hj
    by_cases hsigno : signo ∈ SignalSource.armed ⟨t.watchers.kernel, choices⟩ (t.watcher i).signals
    · have hopen : self.isOpen = true := by
        rcases hcases with ⟨hopen, -⟩ | ⟨hsame, hfailed⟩
        · exact hopen
        · rcases hharmless.resolve_left hfailed with hbefore | hnone
          · rw [hsame, hbefore]
          · split at hj
            · exact hj.1
            · exact absurd hj (hnone signo hsigno j)
      refine ⟨i, (hnames i signo).mpr ?_, ?_⟩
      · rw [if_pos rfl]
        exact ⟨hopen, harmed signo hsigno⟩
      · rw [hafter, if_pos hsigno]
    · have hnamed : ∃ j, t.Names j signo := by
        split at hj
        · rcases hcases with ⟨-, -, hall⟩ | ⟨hsame, -⟩
          · rw [hall] at hsigno
            exact absurd hj.2 hsigno
          · exact ⟨i, hsame ▸ hj.1, hj.2⟩
        · exact ⟨j, hj⟩
      obtain ⟨owner, howner, hhandler⟩ := hrouted signo hnamed
      refine ⟨owner, (hnames owner signo).mpr ?_, ?_⟩
      · split
        · next heq =>
          rw [heq] at howner
          rcases hcases with ⟨hopen, -⟩ | ⟨hsame, -⟩
          · exact ⟨hopen, howner.2⟩
          · exact ⟨hsame.trans howner.1, howner.2⟩
        · exact howner
      · rw [hafter, if_neg hsigno, hhandler]

theorem routed_closes (hsound : Sound i (t.watcher i)) (hrouted : t.Routed) :
    (t.step (.call (.closes i) choices)).Routed ↔ t.Harmless (.call (.closes i) choices) := by
  by_cases hopen : (t.watcher i).isOpen = true
  · obtain ⟨self, k', hstep, -, hsignals, hclosed, hhandlers⟩ := @closes_of_open t i choices hsound hopen
    rw [hstep]
    constructor
    · intro hrouted' _ signo hsigno j hne hj
      obtain ⟨_, _, howner⟩ := hrouted' signo ⟨j, names_update.mpr (by rwa [if_neg hne])⟩
      have hnone : k'.handlers signo = none := by rw [hhandlers, if_pos hsigno]
      rw [show k'.handlers signo = some _ from howner] at hnone
      cases hnone
    · rintro hharmless signo ⟨j, hj⟩
      have hjt := names_update.mp hj
      split at hjt
      · rw [hclosed] at hjt
        exact absurd hjt.1 (by simp)
      · next hne =>
        have hkept : signo ∉ (t.watcher i).signals := fun hsigno => hharmless hopen signo hsigno j hne hjt
        obtain ⟨owner, howner, hhandler⟩ := hrouted signo ⟨j, hjt⟩
        have hother : owner ≠ i := fun h => hkept (h ▸ howner.2)
        refine ⟨owner, names_update.mpr (by rwa [if_neg hother]), ?_⟩
        show k'.handlers signo = _
        rw [hhandlers, if_neg hkept, hhandler]
  · have hclosed : (t.watchers.watcher i).isOpen = false := eq_false_of_ne_true hopen
    have hstep : t.step (.call (.closes i) choices) = t := by
      rw [step, Watchers.closes_of_closed hclosed]
    rw [hstep]
    exact ⟨fun _ h => absurd h hopen, fun _ => hrouted⟩

theorem arrive_watcher (t : Process) (signo : Int) (j : Nat) :
    ∃ queue event, (t.arrive signo).watcher j = (t.watcher j).setSource
      { (t.watcher j).source with queue := queue, event := event } := by
  cases hhandler : t.handlers signo with
  | none =>
    refine ⟨(t.watcher j).source.queue, (t.watcher j).source.event, ?_⟩
    simp [arrive, hhandler, watcher, SignalWatcher.setSource]
  | some i =>
    by_cases hji : j = i
    · refine ⟨(t.watcher j).source.queue ++ [signo], (t.watcher j).source.event.map fun _ => true, ?_⟩
      simp [arrive, hhandler, watcher, hji, SignalSource.deliver]
    · refine ⟨(t.watcher j).source.queue, (t.watcher j).source.event, ?_⟩
      simp [arrive, hhandler, watcher, hji, SignalWatcher.setSource]

theorem arrive_handlers (t : Process) (signo : Int) : (t.arrive signo).handlers = t.handlers := by
  rw [arrive]
  split
  · rfl
  · rfl

theorem routed_arrives {signo : Int} (hrouted : t.Routed) : (t.arrive signo).Routed := by
  have hnames : ∀ j s, (t.arrive signo).Names j s ↔ t.Names j s := by
    intro j s
    obtain ⟨queue, event, hj⟩ := arrive_watcher t signo j
    rw [Names, hj]
    rfl
  intro s hnamed
  simp only [hnames] at hnamed ⊢
  rw [arrive_handlers]
  exact hrouted s hnamed

theorem sound_update {self : SignalWatcher SignalSource} {k' : Kernel} {defaulted : List Int}
    (hsound : ∀ j, Sound j (t.watcher j)) (hself : Sound i self) (j : Nat) :
    Sound j (watcher ⟨⟨Function.update t.watcher i self, k'⟩, defaulted⟩ j) :=
  (Function.forall_update_iff t.watcher Sound).mpr ⟨hself, fun j _ => hsound j⟩ j

theorem sound_step (hsound : ∀ j, Sound j (t.watcher j)) (event : SignalEvent) (j : Nat) :
    Sound j ((t.step event).watcher j) := by
  cases event with
  | arrives signo =>
    obtain ⟨queue, event, hj⟩ := arrive_watcher t signo j
    show Sound j ((t.arrive signo).watcher j)
    rw [hj]
    exact ⟨(hsound j).id, (hsound j).named, (hsound j).installed, (hsound j).complete⟩
  | call call choices =>
    cases call with
    | opens i =>
      obtain ⟨self, hstep, hself, -⟩ := @opens_cases t i choices (hsound i)
      rw [hstep]
      exact sound_update hsound hself j
    | closes i =>
      by_cases hopen : (t.watcher i).isOpen = true
      · obtain ⟨self, k', hstep, hself, -⟩ := @closes_of_open t i choices (hsound i) hopen
        rw [hstep]
        exact sound_update hsound hself j
      · have hclosed : (t.watchers.watcher i).isOpen = false := eq_false_of_ne_true hopen
        rw [step, Watchers.closes_of_closed hclosed]
        exact hsound j

theorem routed_step (hsound : ∀ j, Sound j (t.watcher j)) (hrouted : t.Routed) (event : SignalEvent) :
    (t.step event).Routed ↔ t.Harmless event := by
  cases event with
  | arrives signo => exact ⟨fun _ => trivial, fun _ => routed_arrives hrouted⟩
  | call call choices =>
    cases call with
    | opens i => exact routed_opens (hsound i) hrouted
    | closes i => exact routed_closes (hsound i) hrouted

theorem sound_after (hsound : ∀ j, Sound j (t.watcher j)) (events : List SignalEvent) (j : Nat) :
    Sound j ((t.after events).watcher j) :=
  Runs.invariant (fun t : Process => ∀ j, Sound j (t.watcher j)) hsound
    (fun _ event hbefore => sound_step hbefore event) events j

theorem routed_after_iff (hsound : ∀ j, Sound j (t.watcher j)) (hrouted : t.Routed)
    (events : List SignalEvent) :
    (∀ past, past <+: events → (t.after past).Routed) ↔
      ∀ past event, past ++ [event] <+: events → (t.after past).Harmless event :=
  Runs.throughout_iff hrouted fun past event _ hbefore =>
    routed_step (sound_after hsound past) hbefore event

end Process

/-- Signals named by open watchers are queued in them for as long as no `close()`
takes the handler of a signal that another open watcher names, and no `open()`
takes one and then fails; and no longer. -/
theorem signals_served_iff (watcher : Nat → SignalWatcher SignalSource)
    (hfresh : ∀ i, SignalWatcher.Fresh (SignalSource.new i) (watcher i)) (k : Kernel)
    (events : List SignalEvent) :
    let start : Process := ⟨⟨watcher, k⟩, []⟩
    (∀ past, past <+: events → ∀ signo, (start.after past).Served signo) ↔
      ∀ past event, past ++ [event] <+: events → (start.after past).Harmless event := by
  intro start
  have hsound : ∀ i, Process.Sound i (start.watcher i) := fun i => (Process.sound_of_fresh (hfresh i)).1
  have hrouted : start.Routed := by
    rintro signo ⟨i, hopen, -⟩
    rw [show (start.watcher i).isOpen = false from (Process.sound_of_fresh (hfresh i)).2] at hopen
    cases hopen
  simp only [Process.served_iff]
  exact Process.routed_after_iff hsound hrouted events

/-- For two watchers of `SIGTERM`, of which one opens and closes before the other. -/
theorem signals_served_iff_sequential :
    let granted : Nat → Choice := fun _ => ⟨none, 0, 0, 0, 0⟩
    let start : Process := ⟨⟨fun i => ⟨[15], 200, .new i [15], false⟩, { Kernel.bare with loop := true }⟩, []⟩
    let events := [.call (.opens 0) granted, .call (.closes 0) granted, .call (.opens 1) granted, .arrives 15]
    (∀ i, SignalWatcher.Fresh (SignalSource.new i) (start.watcher i)) ∧
      ((∀ past, past <+: events → ∀ signo, (start.after past).Served signo) ↔
        ∀ past event, past ++ [event] <+: events → (start.after past).Harmless event) :=
  ⟨fun _ => ⟨.one 15, 200, rfl⟩,
    signals_served_iff (fun i => ⟨[15], 200, .new i [15], false⟩) (fun _ => ⟨.one 15, 200, rfl⟩)
      { Kernel.bare with loop := true } _⟩

/-- A watcher that closes takes `SIGTERM` from another one that is still open. -/
theorem close_disarms_other :
    ∃ (start : Process) (granted : Nat → Choice),
      let t := start.after [.call (.opens 0) granted, .call (.opens 1) granted, .call (.closes 1) granted]
      (∀ i, SignalWatcher.Fresh (SignalSource.new i) (start.watcher i)) ∧ t.Names 0 15 ∧
        (t.arrive 15).defaulted = [15] ∧ ¬ t.Served 15 := by
  let granted : Nat → Choice := fun _ => ⟨none, 0, 0, 0, 0⟩
  let start : Process := ⟨⟨fun i => ⟨[15], 200, .new i [15], false⟩, { Kernel.bare with loop := true }⟩, []⟩
  let first := start.step (.call (.opens 0) granted)
  let second := first.step (.call (.opens 1) granted)
  have hfresh : ∀ i, SignalWatcher.Fresh (SignalSource.new i) (start.watcher i) :=
    fun i => ⟨.one 15, 200, rfl⟩
  have hsound : ∀ i, Process.Sound i (start.watcher i) := fun i => (Process.sound_of_fresh (hfresh i)).1
  have hsound₁ : ∀ i, Process.Sound i (first.watcher i) := Process.sound_step hsound _
  have hsound₂ : ∀ i, Process.Sound i (second.watcher i) := Process.sound_step hsound₁ _
  have hfirst : first.Names 0 15 :=
    (Process.names_opens (hsound 0) rfl rfl 0 15).mpr (by rw [if_pos rfl]; exact List.mem_cons_self)
  have hsecond : ∀ j signo, second.Names j signo ↔
      if j = 1 then signo ∈ (first.watcher 1).signals else first.Names j signo :=
    Process.names_opens (hsound₁ 1) rfl rfl
  have hzero : second.Names 0 15 := (hsecond 0 15).mpr (by rwa [if_neg (by decide)])
  have hone : second.Names 1 15 :=
    (hsecond 1 15).mpr (by rw [if_pos rfl]; exact List.mem_cons_self)
  obtain ⟨hnamed, hdefaulted, hserved⟩ :=
    @Process.defaulted_of_closes second 1 granted 0 15 (hsound₂ 1) (by decide) hone hzero
  exact ⟨start, granted, hfresh, hnamed, hdefaulted, hserved⟩

end CPython

end Mpsystemd
