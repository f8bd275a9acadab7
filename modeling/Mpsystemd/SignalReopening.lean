import Mpsystemd.SignalMask

/-! One watcher of the MicroPython backend, opened and closed in any order. -/

namespace Mpsystemd

namespace MicroPython

open SignalSource (Granted)

def Unfailing (t : Watchers SignalSource) : WatcherCall × (Nat → Choice) → Prop
  | (.opens i, choices) => Granted (t.watcher i).source.signals ⟨t.kernel, choices⟩
  | (.closes _, _) => True

/-- The process is as the kernel `k` has it, as far as a watcher can change it,
and the watcher is closed for good. -/
structure Restored (k : Kernel) (i : Nat) (t : Watchers SignalSource) : Prop where
  mask : t.kernel.mask = k.mask
  table : t.kernel.table = k.table
  pending : ∀ choices, ((SignalWatcher.pending backend).run (t.watcher i) ⟨t.kernel, choices⟩).1.1 =
    .error (.systemdError "signal source is not open" [])
  closes : ∀ choices, t.step backend (.closes i, choices) = t

/-! Where the watcher can be. -/

structure Idle (k : Kernel) (i : Nat) (t : Watchers SignalSource) : Prop where
  closed : (t.watcher i).isOpen = false
  noFd : (t.watcher i).source.fd = -1
  mask : t.kernel.mask = k.mask
  table : t.kernel.table = k.table

/-- Open, with a signalfd to close and a mask to put back. -/
structure Holds (i : Nat) (fd : Nat) (saved : SigMask) (t : Watchers SignalSource) : Prop where
  opened : (t.watcher i).isOpen = true
  hasFd : (t.watcher i).source.fd = fd
  saved : (t.watcher i).source.saved = some saved
  held : t.kernel.table fd ≠ none

structure OpenedOnce (k : Kernel) (i : Nat) (fd : Nat) (t : Watchers SignalSource) : Prop where
  holds : Holds i fd k.mask t
  new : k.table fd = none
  table : Function.update t.kernel.table fd none = k.table

/-- A descriptor is open that was not in `k`, and that the watcher does not know. -/
structure Leaked (k : Kernel) (i : Nat) (fd : Nat) (t : Watchers SignalSource) : Prop where
  held : t.kernel.table fd ≠ none
  new : k.table fd = none
  forgotten : (t.watcher i).source.fd ≠ fd
  closable : (t.watcher i).isOpen = true → ∃ fd saved, Holds i fd saved t

section Calls

variable {k : Kernel} {t : Watchers SignalSource} {i fd : Nat} {saved : SigMask} {choices : Nat → Choice}

theorem opens_granted (hgranted : Unfailing t (.opens i, choices)) :
    ∃ fd, t.kernel.Free fd ∧ Holds i fd t.kernel.mask (t.step backend (.opens i, choices)) ∧
      ∃ d, (t.step backend (.opens i, choices)).kernel.table = Function.update t.kernel.table fd (some d) := by
  rcases SignalSource.run_openSource (t.watcher i).source ⟨t.kernel, choices⟩ with
    ⟨_, _, _, hrefused, -, -⟩ | ⟨-, fd, choices', hfree, hopen⟩
  · exact absurd hgranted hrefused
  · have hopened : (SignalWatcher.openWatcher backend).run (t.watcher i) ⟨t.kernel, choices⟩ = _ :=
      SignalWatcher.run_openWatcher_ok hopen
    obtain ⟨hself, hkernel⟩ := Watchers.call_self_of_run hopened
    refine ⟨fd, hfree, ⟨congrArg (·.isOpen) hself, congrArg (·.source.fd) hself,
      congrArg (·.source.saved) hself, ?_⟩, _, congrArg (·.table) hkernel⟩
    rw [Watchers.step, hkernel, Kernel.install_table, Function.update_self]
    exact Option.some_ne_none _

theorem Holds.closes (h : Holds i fd saved t) :
    let t' := t.step backend (.closes i, choices)
    (t'.watcher i).isOpen = false ∧ (t'.watcher i).source.fd = -1 ∧ t'.kernel.mask = saved ∧
      t'.kernel.table = Function.update t.kernel.table fd none := by
  obtain ⟨d, hd⟩ := Option.ne_none_iff_exists'.mp h.held
  have h0 : 0 ≤ (t.watcher i).source.fd := by
    rw [h.hasFd]
    exact Int.natCast_nonneg fd
  have hfile : (World.mk t.kernel choices).kernel.fileAt (t.watcher i).source.fd = some d.file := by
    rw [h.hasFd, Kernel.fileAt, hd, Option.map_some]
  obtain ⟨choices', hclose⟩ := SignalSource.run_close (t.watcher i).source ⟨t.kernel, choices⟩ h0 hfile h.saved
  have hclosed : (SignalWatcher.close backend).run (t.watcher i) ⟨t.kernel, choices⟩ = _ :=
    SignalWatcher.run_closeWatcher h.opened hclose
  obtain ⟨hself, hkernel⟩ := Watchers.call_self_of_run hclosed
  refine ⟨congrArg (·.isOpen) hself, congrArg (·.source.fd) hself, congrArg (·.mask) hkernel, ?_⟩
  rw [← h.hasFd]
  exact congrArg (·.table) hkernel

theorem Idle.restored (h : Idle k i t) : Restored k i t where
  mask := h.mask
  table := h.table
  pending choices := by
    have hpending : SignalSource.pending.run (t.watcher i).source ⟨t.kernel, choices⟩ =
        ((.error (.systemdError "signal source is not open" []), (t.watcher i).source), ⟨t.kernel, choices⟩) := by
      rw [SignalSource.pending, Py.run, Method.run_bind_ok Method.run_attributes, if_pos (by rw [h.noFd]; decide)]
      rfl
    have hrun : (SignalWatcher.pending backend).run (t.watcher i) ⟨t.kernel, choices⟩ = _ :=
      Method.run_zoom_eq hpending
    rw [hrun]
  closes choices := Watchers.closes_of_closed h.closed

theorem Idle.opens (h : Idle k i t) (hgranted : Unfailing t (.opens i, choices)) :
    ∃ fd, OpenedOnce k i fd (t.step backend (.opens i, choices)) := by
  obtain ⟨fd, hfree, hholds, d, htable⟩ := opens_granted hgranted
  rw [h.mask] at hholds
  refine ⟨fd, hholds, ?_, ?_⟩
  · rw [← h.table]
    exact hfree.2
  · rw [htable, Function.update_idem, ← hfree.2, Function.update_eq_self, h.table]

theorem OpenedOnce.closes (h : OpenedOnce k i fd t) : Idle k i (t.step backend (.closes i, choices)) := by
  obtain ⟨hclosed, hnoFd, hmask, htable⟩ := @Holds.closes t i fd k.mask choices h.holds
  exact ⟨hclosed, hnoFd, hmask, htable.trans h.table⟩

/-- A descriptor that is open when the watcher opens is not closed by it any more. -/
theorem leaked_opens (hheld : t.kernel.table fd ≠ none) (hnew : k.table fd = none)
    (hgranted : Unfailing t (.opens i, choices)) : Leaked k i fd (t.step backend (.opens i, choices)) := by
  obtain ⟨fd', hfree, hholds, d, htable⟩ := opens_granted hgranted
  have hne : (fd : Fd) ≠ fd' := by
    intro heq
    exact hheld (heq ▸ hfree.2)
  refine ⟨?_, hnew, ?_, fun _ => ⟨fd', _, hholds⟩⟩
  · rw [htable, Function.update_of_ne hne]
    exact hheld
  · rw [hholds.hasFd]
    exact hne.symm

theorem Leaked.closes (h : Leaked k i fd t) : Leaked k i fd (t.step backend (.closes i, choices)) := by
  -- Only the descriptor that the watcher knows is closed.
  by_cases hopen : (t.watcher i).isOpen = true
  · obtain ⟨fd', saved, hholds⟩ := h.closable hopen
    obtain ⟨hclosed, hnoFd, -, htable⟩ := @Holds.closes t i fd' saved choices hholds
    have hne : (fd : Fd) ≠ fd' := by
      rw [← hholds.hasFd]
      exact h.forgotten.symm
    refine ⟨?_, h.new, ?_, fun hopen => ?_⟩
    · rw [htable, Function.update_of_ne hne]
      exact h.held
    · rw [hnoFd]
      exact fun heq => absurd (Int.natCast_nonneg fd) (heq ▸ by decide)
    · rw [hclosed] at hopen
      cases hopen
  · rw [Watchers.closes_of_closed (eq_false_of_ne_true hopen)]
    exact h

end Calls

/-! A whole run. -/

def Reopened (i : Nat) (calls : List WatcherCall) : Prop := [.opens i, .opens i] <:+: calls

theorem reopened_concat {i : Nat} {calls : List WatcherCall} {call : WatcherCall} :
    Reopened i (calls ++ [call]) ↔ Reopened i calls ∨ call = .opens i ∧ [.opens i] <:+ calls := by
  rw [Reopened, List.infix_concat_iff, or_comm, Reopened]
  refine or_congr_right ?_
  have hpair : [WatcherCall.opens i, .opens i] = [.opens i] ++ [.opens i] := rfl
  constructor
  · rintro ⟨before, hbefore⟩
    rw [hpair, ← List.append_assoc] at hbefore
    obtain ⟨hcalls, hcall⟩ := List.append_inj' hbefore rfl
    exact ⟨(List.singleton_inj.mp hcall).symm, before, hcalls⟩
  · rintro ⟨rfl, before, rfl⟩
    exact ⟨before, by simp⟩

inductive Followed (k : Kernel) (i : Nat) (calls : List WatcherCall) (t : Watchers SignalSource) : Prop where
  | idle (h : Idle k i t) (hlast : ¬ [.opens i] <:+ calls) (hcalls : ¬ Reopened i calls)
  | once (fd : Nat) (h : OpenedOnce k i fd t) (hlast : [.opens i] <:+ calls) (hcalls : ¬ Reopened i calls)
  | leaked (fd : Nat) (h : Leaked k i fd t) (hcalls : Reopened i calls)

section Run

variable {k : Kernel} {t : Watchers SignalSource} {i : Nat} {calls : List WatcherCall}

theorem opens_suffix (calls : List WatcherCall) : [.opens i] <:+ calls ++ [.opens i] := List.suffix_append ..

theorem closes_not_suffix : ¬ [.opens i] <:+ calls ++ [.closes i] := by
  rw [List.singleton_suffix_append_singleton_iff]
  exact WatcherCall.noConfusion

theorem Followed.step (h : Followed k i calls t) (call : WatcherCall × (Nat → Choice))
    (hcall : call.1.watcher = i) (hunfailing : Unfailing t call) :
    Followed k i (calls ++ [call.1]) (t.step backend call) := by
  obtain ⟨call, choices⟩ := call
  cases call with
  | opens j =>
    obtain rfl : j = i := hcall
    cases h with
    | idle h hlast hcalls =>
      obtain ⟨fd, honce⟩ := h.opens hunfailing
      exact .once fd honce (opens_suffix calls) fun h => (reopened_concat.mp h).elim hcalls fun h => hlast h.2
    | once fd h hlast hcalls =>
      exact .leaked fd (leaked_opens h.holds.held h.new hunfailing) (reopened_concat.mpr (.inr ⟨rfl, hlast⟩))
    | leaked fd h hcalls =>
      exact .leaked fd (leaked_opens h.held h.new hunfailing) (reopened_concat.mpr (.inl hcalls))
  | closes j =>
    obtain rfl : j = i := hcall
    have hkept : ¬ Reopened j calls → ¬ Reopened j (calls ++ [.closes j]) := by
      intro hcalls h
      exact (reopened_concat.mp h).elim hcalls fun h => WatcherCall.noConfusion h.1
    cases h with
    | idle h hlast hcalls =>
      rw [Watchers.closes_of_closed h.closed]
      exact .idle h closes_not_suffix (hkept hcalls)
    | once fd h hlast hcalls => exact .idle h.closes closes_not_suffix (hkept hcalls)
    | leaked fd h hcalls => exact .leaked fd h.closes (reopened_concat.mpr (.inl hcalls))

theorem followed_after (hfresh : SignalWatcher.Fresh SignalSource.new (t.watcher i))
    (run : List (WatcherCall × (Nat → Choice))) (halone : ∀ call ∈ run, call.1.watcher = i)
    (hunfailing : ∀ past call, past ++ [call] <+: run → Unfailing (t.after backend past) call) :
    Followed t.kernel i (run.map Prod.fst) (t.after backend run) := by
  -- On the last call: where the watcher is follows from where it was before.
  induction run using List.reverseRecOn with
  | nil =>
    obtain ⟨signals, pollMs, hnew⟩ := hfresh
    have hself := SignalWatcher.new_eq_ok hnew
    exact .idle ⟨congrArg (·.isOpen) hself, congrArg (·.source.fd) hself, rfl, rfl⟩ (by simp) (by simp [Reopened])
  | append_singleton past call ih =>
    have hpast := ih (fun c hc => halone c (List.mem_append_left _ hc)) fun before c hbefore =>
      hunfailing before c (hbefore.trans (List.prefix_append _ _))
    rw [List.map_append, List.map_singleton, Watchers.after, Runs.after_concat]
    exact hpast.step call (halone call (by simp)) (hunfailing past call List.prefix_rfl)

/-- A close restores the process in the runs in which no `close()` comes after two
calls of `open()` in a row, and in no other. -/
theorem reopening_restores_iff (hfresh : SignalWatcher.Fresh SignalSource.new (t.watcher i))
    (run : List (WatcherCall × (Nat → Choice))) (halone : ∀ call ∈ run, call.1.watcher = i)
    (hunfailing : ∀ past call, past ++ [call] <+: run → Unfailing (t.after backend past) call) :
    (∀ past choices, past ++ [(.closes i, choices)] <+: run → .opens i ∈ past.map Prod.fst →
        Restored t.kernel i (t.after backend (past ++ [(.closes i, choices)]))) ↔
      ∀ before later, run.map Prod.fst = before ++ .opens i :: .opens i :: later → .closes i ∉ later := by
  have hfollowed : ∀ past, past <+: run → Followed t.kernel i (past.map Prod.fst) (t.after backend past) := by
    rintro past ⟨rest, rfl⟩
    exact followed_after hfresh past (fun call hcall => halone call (List.mem_append_left _ hcall))
      fun before call hbefore => hunfailing before call (hbefore.trans (List.prefix_append _ _))
  constructor
  · intro hrestored before later hcalls hclose
    obtain ⟨middle, rest, rfl⟩ := List.append_of_mem hclose
    have hsplit : run.map Prod.fst = (before ++ .opens i :: .opens i :: middle) ++ .closes i :: rest := by
      rw [hcalls]
      simp
    obtain ⟨past, tail, rfl, hpast, htail⟩ := List.map_eq_append_iff.mp hsplit
    obtain ⟨⟨_, choices⟩, later, rfl, rfl, -⟩ := List.map_eq_cons_iff.mp htail
    have hprefix : past ++ [(.closes i, choices)] <+: past ++ (.closes i, choices) :: later :=
      ⟨later, by simp⟩
    have hdone := hrestored past choices hprefix (by rw [hpast]; simp)
    cases hfollowed _ hprefix with
    | idle _ _ hkept => exact hkept ⟨before, middle ++ [.closes i], by simp [hpast]⟩
    | once _ _ _ hkept => exact hkept ⟨before, middle ++ [.closes i], by simp [hpast]⟩
    | leaked fd hleaked _ => exact hleaked.held (by rw [hdone.table, hleaked.new])
  · rintro hcondition past choices hprefix -
    obtain ⟨rest, hrun⟩ := hprefix
    have hprefix : past ++ [(.closes i, choices)] <+: run := ⟨rest, hrun⟩
    have hkept : ¬ Reopened i (past.map Prod.fst) := by
      rintro ⟨before, middle, hpast⟩
      apply hcondition before (middle ++ .closes i :: rest.map Prod.fst)
      · rw [← hrun, List.map_append, List.map_append, ← hpast]
        simp
      · simp
    cases hfollowed _ hprefix with
    | idle hidle _ _ => exact hidle.restored
    | once _ _ hlast _ =>
      rw [List.map_append] at hlast
      exact absurd hlast closes_not_suffix
    | leaked _ _ hcalls =>
      rw [List.map_append, List.map_singleton] at hcalls
      exact absurd hcalls fun h => (reopened_concat.mp h).elim hkept fun h => WatcherCall.noConfusion h.1

end Run

theorem unfailing_granting {t : Watchers SignalSource} {i fd : Nat}
    (hvalid : ∀ signo ∈ (t.watcher i).source.signals, ValidSignal signo) (hfree : t.kernel.Free fd) :
    Unfailing t (.opens i, granting fd) :=
  ⟨rfl, ⟨hvalid, fun _ _ => rfl⟩, rfl, rfl, hfree⟩

theorem unfailing_of_each {t : Watchers SignalSource} {run : List (WatcherCall × (Nat → Choice))}
    (h : Runs.Each (Watchers.step backend) Unfailing t run) (past : List (WatcherCall × (Nat → Choice)))
    (call : WatcherCall × (Nat → Choice)) (hpast : past ++ [call] <+: run) :
    Unfailing (t.after backend past) call := Runs.each_iff.mp h past call hpast

/-- Opened and closed twice over. -/
theorem reopening_restores_iff_again :
    let t : Watchers SignalSource := ⟨fun _ => naming 15, .bare⟩
    let run := [(.opens 0, granting 3), (.closes 0, granting 0), (.opens 0, granting 3), (.closes 0, granting 0)]
    (∀ past choices, past ++ [(.closes 0, choices)] <+: run → .opens 0 ∈ past.map Prod.fst →
        Restored t.kernel 0 (t.after backend (past ++ [(.closes 0, choices)]))) ↔
      ∀ before later, run.map Prod.fst = before ++ .opens 0 :: .opens 0 :: later → .closes 0 ∉ later := by
  intro t run
  apply reopening_restores_iff (naming_fresh 15) run (by simp [run, WatcherCall.watcher])
  apply unfailing_of_each
  exact ⟨unfailing_granting (by decide) ⟨by decide, rfl⟩, trivial,
    unfailing_granting (by decide) ⟨by decide, rfl⟩, trivial, trivial⟩

/-- After two calls of `open()`, `close()` leaves `SIGTERM` blocked and the first
signalfd open. -/
theorem reopening_blocks :
    let t : Watchers SignalSource := ⟨fun _ => naming 15, .bare⟩
    let run := [(.opens 0, granting 3), (.opens 0, granting 4), (.closes 0, granting 0)]
    SignalWatcher.Fresh SignalSource.new (t.watcher 0) ∧
      (∀ past call, past ++ [call] <+: run → Unfailing (t.after backend past) call) ∧
      (t.after backend run).kernel.mask ≠ t.kernel.mask ∧
      (t.after backend run).kernel.table 3 ≠ t.kernel.table 3 := by
  intro t run
  refine ⟨naming_fresh 15, unfailing_of_each ⟨unfailing_granting (by decide) ⟨by decide, rfl⟩,
    unfailing_granting (by decide) ⟨by decide, rfl⟩, trivial, trivial⟩, ?_, ?_⟩
  · decide
  · decide

end MicroPython

end Mpsystemd
