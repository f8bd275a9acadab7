import Mpsystemd.KernelRules
import Mpsystemd.Signals

/-! What opening and closing a signal source does to the process. -/

namespace Mpsystemd

namespace SignalWatcher

variable {Source : Type} {backend : Backend Source} {self : SignalWatcher Source} {source : Source}
  {w w' : World}

theorem run_openWatcher_ok (h : backend.openSource.run self.source w = ((.ok (), source), w')) :
    (openWatcher backend).run self w = ((.ok (), { self with source := source, isOpen := true }), w') := by
  rw [openWatcher, Py.run, Method.run_bind_ok (Method.run_zoom_eq h)]
  rfl

theorem run_openWatcher_error {e : PyErr}
    (h : backend.openSource.run self.source w = ((.error e, source), w')) :
    (openWatcher backend).run self w = ((.error e, self.setSource source), w') :=
  Method.run_bind_error (Method.run_zoom_eq h)

theorem run_closeWatcher (hopen : self.isOpen = true)
    (h : backend.close.run self.source w = ((.ok (), source), w')) :
    (close backend).run self w = ((.ok (), { self with source := source, isOpen := false }), w') := by
  rw [close, Py.run, Method.run_bind_ok Method.run_attributes, if_pos hopen,
    Method.run_bind_ok (Method.run_zoom_eq h)]
  rfl

end SignalWatcher

/-! The signalfd source, whatever the environment chooses. -/

namespace MicroPython.SignalSource

def blocked (signals : List Int) : SigMask := SigMask.ofSet signals.toFinset

def Fillable (signals : List Int) (choices : Nat → Choice) : Prop :=
  (∀ signo ∈ signals, ValidSignal signo) ∧ ∀ n < signals.length, (choices n).error = none

theorem fillable_cons {signo : Int} {rest : List Int} {choices : Nat → Choice} :
    Fillable (signo :: rest) choices ↔ ((choices 0).error = none ∧ ValidSignal signo) ∧
      Fillable rest fun n => choices (n + 1) := by
  simp only [Fillable, List.forall_mem_cons, List.length_cons, Nat.forall_lt_succ_left]
  tauto

/-- The environment lets a source for the signals open: no call fails, and
`signalfd` gets a free number. -/
structure Granted (signals : List Int) (w : World) : Prop where
  emptied : (w.choices 0).error = none
  filled : Fillable signals fun n => w.choices (n + 1)
  blocked : (w.choices (signals.length + 1)).error = none
  signalfd : (w.choices (signals.length + 2)).error = none
  free : w.kernel.Free (w.choices (signals.length + 2)).fd

theorem run_fillSet {σ : Type} (signals : List Int) (set : SigSet) (s : σ) (w : World) :
    (∃ e choices, ¬ Fillable signals w.choices ∧
      (fillSet signals set).run s w = ((.error (.osError e), s), ⟨w.kernel, choices⟩)) ∨
    Fillable signals w.choices ∧ (fillSet signals set).run s w =
      ((.ok (set ∪ signals.toFinset), s), ⟨w.kernel, fun n => w.choices (n + signals.length)⟩) := by
  induction signals generalizing set w with
  | nil => exact .inr ⟨⟨by simp, by simp⟩, by simp [fillSet, Py.run]⟩
  | cons signo rest ih =>
    rw [fillable_cons, fillSet, Py.run, Method.run_assoc]
    rcases run_attempt (.sigaddset signo) (fun added => added)
      (if ValidSignal signo then .ok ((), w.kernel) else .error Errno.inval) s w ⟨rfl, rfl⟩ with
      ⟨e, hrefused, hadd⟩ | ⟨_, k', herror, hadded, hadd⟩
    · rw [Method.run_bind_error hadd]
      refine .inl ⟨e, fun n => w.choices (n + 1), ?_, rfl⟩
      intro htaken
      exact hrefused ⟨htaken.1.1, ((), w.kernel), if_pos htaken.1.2⟩
    · split at hadded
      · next hsigno =>
        cases hadded
        rw [Method.run_bind_ok hadd]
        rcases ih (insert signo set) ⟨w.kernel, fun n => w.choices (n + 1)⟩ with
          ⟨e, choices, hrefused, hfill⟩ | ⟨hfillable, hfill⟩
        · exact .inl ⟨e, choices, fun h => hrefused h.2, hfill⟩
        · refine .inr ⟨⟨⟨herror, hsigno⟩, hfillable⟩, hfill.trans ?_⟩
          rw [List.toFinset_cons, Finset.union_insert, ← Finset.insert_union]
          rfl
      · cases hadded

theorem run_openSource (self : SignalSource) (w : World) :
    (∃ e saved choices, ¬ Granted self.signals w ∧ (saved = self.saved ∨ saved = none) ∧
      openSource.run self w = ((.error e, { self with saved := saved }), ⟨w.kernel, choices⟩)) ∨
    Granted self.signals w ∧ ∃ (fd : Nat) (choices : Nat → Choice), w.kernel.Free fd ∧ openSource.run self w =
      ((.ok (), { self with fd := fd, saved := some w.kernel.mask }),
        ⟨Kernel.install { w.kernel with mask := w.kernel.mask ∪ blocked self.signals } fd
          ⟨.signalfd self.signals.toFinset, true⟩, choices⟩) := by
  rw [openSource, Py.run, Method.run_bind_ok Method.run_attributes, Method.run_assoc]
  rcases run_attempt .sigemptyset (fun emptied => emptied) (.ok ((), w.kernel)) self w ⟨rfl, rfl⟩ with
    ⟨e, hrefused, hempty⟩ | ⟨_, k₀, hemptied, heq, hempty⟩
  · rw [Method.run_bind_error hempty]
    exact .inl ⟨_, self.saved, _, fun h => hrefused ⟨h.emptied, _, rfl⟩, .inl rfl, rfl⟩
  cases heq
  rw [Method.run_bind_ok hempty]
  rcases run_fillSet self.signals ∅ self ⟨w.kernel, fun n => w.choices (n + 1)⟩ with
    ⟨e, choices, hrefused, hfill⟩ | ⟨hfilled, hfill⟩
  · rw [Method.run_bind_error hfill]
    exact .inl ⟨_, self.saved, _, fun h => hrefused h.filled, .inl rfl, rfl⟩
  rw [Method.run_bind_ok hfill, Finset.empty_union, Method.run_assoc]
  let w₁ : World := ⟨w.kernel, fun n => w.choices (n + self.signals.length + 1)⟩
  let k₂ : Kernel := { w.kernel with mask := w.kernel.mask ∪ blocked self.signals }
  have hchoice₁ : w₁.choices 0 = w.choices (self.signals.length + 1) :=
    congrArg w.choices (by omega)
  rcases run_attempt (.sigBlock self.signals.toFinset) (fun saved => saved) (.ok (w.kernel.mask, k₂)) self
    w₁ ⟨rfl, rfl⟩ with ⟨e, hrefused, hblock⟩ | ⟨saved, _, hblocked, heq, hblock⟩
  · rw [Method.run_bind_error hblock]
    exact .inl ⟨_, self.saved, _, fun h => hrefused ⟨hchoice₁ ▸ h.blocked, _, rfl⟩, .inl rfl, rfl⟩
  cases heq
  rw [Method.run_bind_ok hblock, Method.run_bind_ok Method.run_update, Method.run_handling, Method.run_assoc]
  let w₂ : World := ⟨k₂, fun n => w₁.choices (n + 1)⟩
  let self₂ : SignalSource := { self with saved := some w.kernel.mask }
  have hchoice₂ : w₂.choices 0 = w.choices (self.signals.length + 2) :=
    congrArg w.choices (by omega)
  rcases run_attempt (.signalfd self.signals.toFinset) (fun fd => fd)
    (k₂.openFile (w₂.choices 0).fd (.signalfd self.signals.toFinset)) self₂ w₂ ⟨rfl, rfl⟩ with
    ⟨e, hrefused, hopen⟩ | ⟨fd, k₃, herror, hopened, hopen⟩
  · rw [Method.run_bind_error hopen]
    refine .inl ⟨.osError e, none, fun n => w₂.choices (n + 2), ?_, .inr rfl, rfl⟩
    intro hgranted
    have hfree : k₂.Free (w₂.choices 0).fd := hchoice₂ ▸ hgranted.free
    exact hrefused ⟨hchoice₂ ▸ hgranted.signalfd, _, if_pos hfree⟩
  · obtain ⟨hfree, rfl, rfl⟩ := Kernel.openFile_eq_ok hopened
    rw [Method.run_bind_ok hopen]
    refine .inr ⟨⟨hemptied, hfilled, hchoice₁ ▸ hblocked, hchoice₂ ▸ herror, ?_⟩, (w₂.choices 0).fd, _, hfree, rfl⟩
    exact hchoice₂ ▸ hfree

variable {self : SignalSource} {k : Kernel} {ok : Unit → SignalSource → Kernel → Prop}
  {err : PyErr → SignalSource → Kernel → Prop}

theorem ends_restore {saved : SigMask}
    (hok : ok () { self with saved := none } { k with mask := saved }) :
    Py.Ends (restore saved) ok err self k := by
  refine Method.obeys_bind.mpr (Method.obeys_call.mpr ⟨trivial, ?_⟩)
  rintro reply k' ⟨c, hc⟩
  cases hc
  exact hok

theorem ends_close
    (hok : ∀ (fd : Fd) (k' : Kernel), fd < 0 → k'.mask = self.saved.getD k.mask →
      ok () { self with fd := fd, saved := none } k') : Py.Ends close ok err self k := by
  have hrestore : ∀ (fd : Fd) (k₁ : Kernel), fd < 0 → k₁.mask = k.mask →
      Py.Ends (self.saved.elim (pure ()) restore) ok err { self with fd := fd } k₁ := by
    intro fd k₁ hfd hmask
    cases hsaved : self.saved with
    | none =>
      have hend := hok fd k₁ hfd (by rw [hsaved]; exact hmask)
      exact hend
    | some saved =>
      exact ends_restore (hok fd _ hfd (by rw [hsaved]; rfl))
  refine Method.obeys_bind.mpr (Method.obeys_attributes.mpr ?_)
  by_cases hopen : self.fd ≥ 0
  · rw [if_pos hopen]
    refine Method.obeys_bind.mpr (Method.obeys_call.mpr ⟨trivial, ?_⟩)
    rintro reply k₁ ⟨c, hc⟩
    have hmask : k₁.mask = k.mask := by
      simp only [Kernel.perform] at hc
      split at hc
      · cases hc
        rfl
      · cases hc
        rfl
    exact hrestore (-1) k₁ (by decide) hmask
  · rw [if_neg hopen]
    exact hrestore self.fd k (not_le.mp hopen) rfl

theorem run_close (self : SignalSource) (w : World) {file : File} {saved : SigMask} (h0 : 0 ≤ self.fd)
    (hfd : w.kernel.fileAt self.fd = some file) (hsaved : self.saved = some saved) :
    ∃ choices, close.run self w = ((.ok (), { self with fd := -1, saved := none }),
      ⟨{ w.kernel.shut self.fd file with mask := saved }, choices⟩) := by
  refine ⟨fun n => w.choices (n + 2), ?_⟩
  rw [close, Py.run, Method.run_bind_ok Method.run_attributes, if_pos h0, Method.run_bind_ok (run_sysClose hfd),
    hsaved]
  rfl

end MicroPython.SignalSource

/-! The event loop's source, as the environment chooses. -/

def Kernel.routed (k : Kernel) (signals : List Int) (owner : Nat) : Kernel :=
  { k with handlers := fun signo => if signo ∈ signals then some owner else k.handlers signo }

@[simp] theorem Kernel.routed_nil (k : Kernel) (owner : Nat) : k.routed [] owner = k := by
  simp [Kernel.routed]

theorem Kernel.routed_cons (k : Kernel) (signo : Int) (signals : List Int) (owner : Nat) :
    Kernel.routed { k with handlers := Function.update k.handlers signo (some owner) } signals owner =
      k.routed (signo :: signals) owner := by
  have hhandlers : ∀ s, (if s ∈ signals then some owner
      else Function.update k.handlers signo (some owner) s) =
      if s ∈ signo :: signals then some owner else k.handlers s := by
    intro s
    by_cases hs : s = signo
    · simp [hs]
    · simp [hs]
  simp only [Kernel.routed, hhandlers]

namespace CPython.SignalSource

/-- The signals the loop takes a handler for before it refuses one. -/
def accepted (choices : Nat → Choice) : List Int → List Int
  | [] => []
  | signo :: rest =>
    if (choices 0).error = none ∧ Kernel.handlerError signo = none then
      signo :: accepted (fun n => choices (n + 1)) rest
    else []

theorem mem_of_accepted {choices : Nat → Choice} {signals : List Int} {signo : Int}
    (h : signo ∈ accepted choices signals) : signo ∈ signals := by
  induction signals generalizing choices with
  | nil => exact h
  | cons first rest ih =>
    rw [accepted] at h
    split at h
    · rcases List.mem_cons.mp h with rfl | h
      · exact List.mem_cons_self
      · exact List.mem_cons_of_mem _ (ih h)
    · simp at h

theorem handlerError_of_accepted {choices : Nat → Choice} {signals : List Int} {signo : Int}
    (h : signo ∈ accepted choices signals) : Kernel.handlerError signo = none := by
  induction signals generalizing choices with
  | nil => cases h
  | cons first rest ih =>
    rw [accepted] at h
    split at h
    · next htaken =>
      rcases List.mem_cons.mp h with rfl | h
      · exact htaken.2
      · exact ih h
    · simp at h

theorem perform_addSignalHandler (signo : Int) (owner : Nat) (w : World) :
    (∃ e, ¬ ((w.choices 0).error = none ∧ Kernel.handlerError signo = none) ∧
      World.perform (.addSignalHandler signo owner) w =
        (.error e, ⟨w.kernel, fun n => w.choices (n + 1)⟩)) ∨
    ((w.choices 0).error = none ∧ Kernel.handlerError signo = none) ∧
      World.perform (.addSignalHandler signo owner) w = (.ok (),
        ⟨{ w.kernel with handlers := Function.update w.kernel.handlers signo (some owner) },
          fun n => w.choices (n + 1)⟩) := by
  simp only [World.perform, Kernel.perform, Choice.attempt]
  cases (w.choices 0).error with
  | some e => exact .inl ⟨.osError e, by simp, rfl⟩
  | none =>
    cases Kernel.handlerError signo with
    | some e => exact .inl ⟨e, by simp, rfl⟩
    | none => exact .inr ⟨⟨rfl, rfl⟩, rfl⟩

theorem run_installAll (signals : List Int) (self : SignalSource) (w : World) :
    ∃ result choices, (installAll signals).run self w =
        ((result, { self with installed := self.installed ++ accepted w.choices signals }),
          ⟨w.kernel.routed (accepted w.choices signals) self.id, choices⟩) ∧
      (result = .ok () ↔ accepted w.choices signals = signals) := by
  induction signals generalizing self w with
  | nil =>
    refine ⟨.ok (), w.choices, ?_, by simp [accepted]⟩
    simp [installAll, accepted, Py.run]
  | cons signo rest ih =>
    have hcall : ∀ reply w', World.perform (.addSignalHandler signo self.id) w = (reply, w') →
        (installAll (signo :: rest)).run self w = Py.run (Method.lift reply >>= fun _ =>
          Method.update (fun self => { self with installed := self.installed ++ [signo] }) >>= fun _ =>
            installAll rest) self w' := by
      intro reply w' hw
      rw [installAll, Py.run, Method.run_bind_ok Method.run_attributes, sys, Method.run_bind_ok Method.run_call, hw]
      rfl
    rcases perform_addSignalHandler signo self.id w with ⟨e, hrefused, hw⟩ | ⟨htaken, hw⟩
    · rw [hcall _ _ hw, accepted, if_neg hrefused]
      exact ⟨.error e, fun n => w.choices (n + 1), by simp [Py.run], by simp⟩
    · obtain ⟨result, choices, hrest, hresult⟩ := ih { self with installed := self.installed ++ [signo] }
        ⟨{ w.kernel with handlers := Function.update w.kernel.handlers signo (some self.id) },
          fun n => w.choices (n + 1)⟩
      rw [hcall _ _ hw, accepted, if_pos htaken]
      refine ⟨result, choices, ?_, ?_⟩
      · show (installAll rest).run _ _ = _
        rw [hrest, Kernel.routed_cons, List.append_assoc, List.singleton_append]
      · rw [hresult, List.cons.injEq, and_iff_right rfl]

/-- The signals an `open()` gets handlers for: all of them when it returns. -/
def armed (w : World) (signals : List Int) : List Int :=
  if w.kernel.loop then accepted (fun n => w.choices (n + 1)) signals else []

theorem mem_of_armed {w : World} {signals : List Int} {signo : Int} (h : signo ∈ armed w signals) :
    signo ∈ signals ∧ Kernel.handlerError signo = none := by
  rw [armed] at h
  split at h
  · exact ⟨mem_of_accepted h, handlerError_of_accepted h⟩
  · cases h

theorem run_openSource (self : SignalSource) (w : World) :
    ∃ result source choices, openSource.run self w =
        ((result, source), ⟨w.kernel.routed (armed w self.signals) self.id, choices⟩) ∧
      source.id = self.id ∧ source.signals = self.signals ∧ source.queue = self.queue ∧
      source.installed = self.installed ++ armed w self.signals ∧
      (result = .ok () → source.loop = true ∧ source.event = some false) ∧
      (result = .ok () ↔ w.kernel.loop = true ∧ armed w self.signals = self.signals) := by
  have hrun : openSource.run self w =
      if w.kernel.loop then (installAll self.signals).run { self with loop := true, event := some false }
        ⟨w.kernel, fun n => w.choices (n + 1)⟩
      else ((.error (.unsupportedError "signal watching needs a running event loop on CPython"), self),
        ⟨w.kernel, fun n => w.choices (n + 1)⟩) := by
    show Py.run (if w.kernel.loop = true then _ else _) self ⟨w.kernel, fun n => w.choices (n + 1)⟩ = _
    split
    · rfl
    · rfl
  rw [hrun, armed]
  cases hloop : w.kernel.loop with
  | true =>
    obtain ⟨result, choices, hinstall, hresult⟩ := run_installAll self.signals
      { self with loop := true, event := some false } ⟨w.kernel, fun n => w.choices (n + 1)⟩
    rw [if_pos rfl, if_pos rfl, hinstall]
    exact ⟨result, _, choices, rfl, rfl, rfl, rfl, rfl, fun _ => ⟨rfl, rfl⟩,
      by rw [hresult, and_iff_right rfl]⟩
  | false =>
    rw [if_neg (by simp), if_neg (by simp), Kernel.routed_nil, List.append_nil]
    exact ⟨_, self, _, rfl, rfl, rfl, rfl, rfl, by simp, by simp⟩

theorem run_openWatcher (self : SignalWatcher SignalSource) (w : World) :
    ∃ result source isOpen choices, (SignalWatcher.openWatcher backend).run self w =
        ((result, { self with source := source, isOpen := isOpen }),
          ⟨w.kernel.routed (armed w self.source.signals) self.source.id, choices⟩) ∧
      source.id = self.source.id ∧ source.signals = self.source.signals ∧
      source.queue = self.source.queue ∧
      source.installed = self.source.installed ++ armed w self.source.signals ∧
      ((result = .ok () ∧ isOpen = true ∧ w.kernel.loop = true ∧
          armed w self.source.signals = self.source.signals) ∨
        (∃ e, result = .error e) ∧ isOpen = self.isOpen ∧
          ¬ (w.kernel.loop = true ∧ armed w self.source.signals = self.source.signals)) := by
  obtain ⟨result, source, choices, hopen, hid, hsignals, hqueue, hinstalled, -, hresult⟩ :=
    run_openSource self.source w
  cases result with
  | ok _ =>
    exact ⟨.ok (), source, true, choices, SignalWatcher.run_openWatcher_ok hopen, hid, hsignals, hqueue,
      hinstalled, .inl ⟨rfl, rfl, hresult.mp rfl⟩⟩
  | error e =>
    refine ⟨.error e, source, self.isOpen, choices, SignalWatcher.run_openWatcher_error hopen, hid,
      hsignals, hqueue, hinstalled, .inr ⟨⟨e, rfl⟩, rfl, ?_⟩⟩
    intro harmed
    have hok := hresult.mpr harmed
    cases hok

def unrouted (k : Kernel) (signals : List Int) : Kernel :=
  { k with handlers := fun signo => if signo ∈ signals then none else k.handlers signo }

theorem run_removeAll (signals : List Int) (hsignals : ∀ signo ∈ signals, Kernel.handlerError signo = none)
    (self : SignalSource) (hinstalled : self.installed = signals.reverse) (w : World) :
    ∃ choices, (removeAll signals).run self w =
      ((.ok (), { self with installed := [] }), ⟨unrouted w.kernel signals, choices⟩) := by
  induction signals generalizing self w with
  | nil =>
    have hself : { self with installed := [] } = self := by
      rw [List.reverse_nil] at hinstalled
      rw [← hinstalled]
    exact ⟨w.choices, by simp [removeAll, Py.run, unrouted, hself]⟩
  | cons signo rest ih =>
    obtain ⟨hsigno, hrest⟩ := List.forall_mem_cons.mp hsignals
    have hrun : (removeAll (signo :: rest)).run self w =
        (removeAll rest).run { self with installed := rest.reverse }
          ⟨{ w.kernel with handlers := Function.update w.kernel.handlers signo none },
            fun n => w.choices (n + 1)⟩ := by
      have hperform : World.perform (.removeSignalHandler signo) w = (.ok (),
          ⟨{ w.kernel with handlers := Function.update w.kernel.handlers signo none },
            fun n => w.choices (n + 1)⟩) := by
        simp only [World.perform, Kernel.perform, if_pos (Kernel.validSignal_of_handlerError hsigno)]
      rw [removeAll, Py.run, Method.run_bind, Method.run_update]
      simp only [sys, Method.run_bind, Method.run_handling, Method.run_call, Method.run_lift, hperform]
      rfl
    obtain ⟨choices, hremove⟩ := ih hrest { self with installed := rest.reverse } rfl
      ⟨{ w.kernel with handlers := Function.update w.kernel.handlers signo none },
        fun n => w.choices (n + 1)⟩
    refine ⟨choices, ?_⟩
    rw [hrun, hremove]
    have hhandlers : ∀ s, (if s ∈ rest then none else Function.update w.kernel.handlers signo none s) =
        if s ∈ signo :: rest then none else w.kernel.handlers s := by
      intro s
      by_cases hs : s = signo
      · simp [hs]
      · simp [hs]
    simp only [unrouted, hhandlers]

theorem run_close (self : SignalSource) (w : World)
    (hinstalled : ∀ signo ∈ self.installed, Kernel.handlerError signo = none) :
    ∃ choices, close.run self w =
      ((.ok (), { self with installed := [], loop := false, queue := [] }),
        ⟨unrouted w.kernel self.installed, choices⟩) := by
  obtain ⟨choices, hremove⟩ := run_removeAll self.installed.reverse (by simpa using hinstalled) self
    (List.reverse_reverse _).symm w
  refine ⟨choices, ?_⟩
  have hunrouted : unrouted w.kernel self.installed.reverse = unrouted w.kernel self.installed := by
    simp [unrouted]
  rw [close, Py.run, Method.run_bind_ok Method.run_attributes, Method.run_bind_ok hremove, hunrouted]
  rfl

end CPython.SignalSource

/-! Calls on the watchers. -/

namespace Watchers

variable {Source : Type} {t : Watchers Source} {choices : Nat → Choice} {i : Nat}

theorem call_of_run {method : Py (SignalWatcher Source) Unit} {result : Except PyErr Unit}
    {self : SignalWatcher Source} {w : World}
    (h : method.run (t.watcher i) ⟨t.kernel, choices⟩ = ((result, self), w)) :
    t.call choices i method = ⟨Function.update t.watcher i self, w.kernel⟩ := by
  rw [call, h]

theorem call_self_of_run {method : Py (SignalWatcher Source) Unit} {result : Except PyErr Unit}
    {self : SignalWatcher Source} {w : World}
    (h : method.run (t.watcher i) ⟨t.kernel, choices⟩ = ((result, self), w)) :
    (t.call choices i method).watcher i = self ∧ (t.call choices i method).kernel = w.kernel := by
  rw [call_of_run h]
  exact ⟨Function.update_self .., rfl⟩

theorem call_of_ends {method : Py (SignalWatcher Source) Unit}
    {post : SignalWatcher Source → Kernel → Prop}
    (h : Py.Ends method (fun _ => post) (fun _ => post) (t.watcher i) t.kernel) :
    ∃ self k', t.call choices i method = ⟨Function.update t.watcher i self, k'⟩ ∧ post self k' := by
  have hends : Py.Ends method (fun _ => post) (fun _ => post) (t.watcher i)
      (World.mk t.kernel choices).kernel := h
  exact ⟨_, _, rfl, (Method.outcome_iff fun _ => post).mp hends.run⟩

theorem ends_closeWatcher {backend : Backend Source} {self : SignalWatcher Source} {k : Kernel}
    {ok : Unit → SignalWatcher Source → Kernel → Prop}
    {err : PyErr → SignalWatcher Source → Kernel → Prop}
    (hopen : self.isOpen = true)
    (h : Py.Ends backend.close (fun _ source => ok () { self with source := source, isOpen := false })
      (fun e source => err e (self.setSource source)) self.source k) :
    Py.Ends (SignalWatcher.close backend) ok err self k := by
  refine Method.obeys_bind.mpr (Method.obeys_attributes.mpr ?_)
  rw [if_pos hopen]
  exact Method.obeys_bind.mpr (Method.obeys_zoom.mpr h)

theorem closes_of_closed {backend : Backend Source} (hclosed : (t.watcher i).isOpen = false) :
    t.step backend (.closes i, choices) = t := by
  have hclose : (SignalWatcher.close backend).run (t.watcher i) ⟨t.kernel, choices⟩ =
      ((.ok (), t.watcher i), ⟨t.kernel, choices⟩) := by
    show Py.run (if (t.watcher i).isOpen = true then _ else _) _ _ = _
    rw [if_neg (by simp [hclosed])]
    rfl
  rw [step, call_of_run hclose, Function.update_eq_self]

end Watchers

end Mpsystemd
