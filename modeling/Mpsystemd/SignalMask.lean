import Mpsystemd.SignalRules
import Mpsystemd.Lib.Runs

/-! The signal mask under several watchers of the MicroPython backend. -/

namespace Mpsystemd

namespace MicroPython

def Catchable (self : SignalWatcher SignalSource) : Prop :=
  ∀ signo ∈ self.signals, signo ≠ sigKill ∧ signo ≠ sigStop

def Blocks (mask : SigMask) (self : SignalWatcher SignalSource) : Prop :=
  ∀ signo ∈ self.signals, ∃ h : Blockable signo, ⟨signo, h⟩ ∈ mask

theorem Blocks.catchable {mask : SigMask} {self : SignalWatcher SignalSource} (h : Blocks mask self) :
    Catchable self := by
  intro signo hsigno
  obtain ⟨hblockable, _⟩ := h signo hsigno
  exact hblockable.2.2

theorem Blocks.mono {mask mask' : SigMask} {self : SignalWatcher SignalSource} (h : Blocks mask self)
    (hsub : mask ⊆ mask') : Blocks mask' self := by
  intro signo hsigno
  obtain ⟨hblockable, hmem⟩ := h signo hsigno
  exact ⟨hblockable, hsub hmem⟩

def NamedBlocked (t : Watchers SignalSource) : Prop :=
  ∀ i, (t.watcher i).isOpen = true → Blocks t.kernel.mask (t.watcher i)

/-- What the documentation promises, for the mask from before the first call. -/
def Disciplined (mask : SigMask) (t : Watchers SignalSource) : Prop :=
  NamedBlocked t ∧ ((∀ i, (t.watcher i).isOpen = false) → t.kernel.mask = mask)

/-- Each watcher is opened once and closed once at most, in this order. -/
structure OnceEach (calls : List WatcherCall) : Prop where
  once : calls.Nodup
  ordered : ∀ before i later, calls = before ++ .closes i :: later → .opens i ∈ before

theorem OnceEach.not_mem {calls : List WatcherCall} (h : OnceEach calls) {before later : List WatcherCall}
    {call : WatcherCall} (hcalls : calls = before ++ call :: later) : call ∉ before ++ later := by
  have honce := h.once
  rw [hcalls, List.nodup_middle] at honce
  exact (List.nodup_cons.mp honce).1

/-- A watcher is closed only after those that were opened later. -/
def LastInFirstOut (calls : List WatcherCall) : Prop :=
  ∀ before j between later, calls = before ++ .opens j :: between ++ .closes j :: later →
    ∀ i, .opens i ∈ between → .closes i ∈ between

/-! One call. -/

open SignalSource (blocked Granted)

structure Sound (w : SignalWatcher SignalSource) : Prop where
  named : w.source.signals = w.signals
  idle : w.isOpen = false → w.source.saved = none
  valid : w.isOpen = true → ∀ signo ∈ w.signals, ValidSignal signo
  saved : w.isOpen = true → ∃ mask, w.source.saved = some mask

theorem sound_of_fresh {w : SignalWatcher SignalSource} (h : SignalWatcher.Fresh SignalSource.new w) :
    Sound w ∧ w.isOpen = false := by
  obtain ⟨signals, pollMs, hnew⟩ := h
  rw [SignalWatcher.new_eq_ok hnew]
  exact ⟨⟨rfl, fun _ => rfl, nofun, nofun⟩, rfl⟩

theorem Sound.blocks {w : SignalWatcher SignalSource} (h : Sound w) (hopen : w.isOpen = true)
    (hcatchable : Catchable w) : Blocks (blocked w.signals) w := by
  intro signo hsigno
  obtain ⟨hlow, hhigh, -⟩ := h.valid hopen signo hsigno
  obtain ⟨hkill, hstop⟩ := hcatchable signo hsigno
  have hblockable : Blockable signo := ⟨hlow, hhigh, hkill, hstop⟩
  exact ⟨hblockable, by simpa [blocked, SigMask.ofSet] using hsigno⟩

section Calls

variable {mask : SigMask} {t : Watchers SignalSource} {i : Nat} {choices : Nat → Choice}

theorem opens_cases (hsound : Sound (t.watcher i)) (hclosed : (t.watcher i).isOpen = false) :
    ∃ self k', t.step backend (.opens i, choices) = ⟨Function.update t.watcher i self, k'⟩ ∧ Sound self ∧
      self.signals = (t.watcher i).signals ∧
      ((Granted (t.watcher i).signals ⟨t.kernel, choices⟩ ∧ self.isOpen = true ∧
          self.source.saved = some t.kernel.mask ∧ k'.mask = t.kernel.mask ∪ blocked self.signals) ∨
        ¬ Granted (t.watcher i).signals ⟨t.kernel, choices⟩ ∧ self.isOpen = false ∧ k' = t.kernel) := by
  rcases SignalSource.run_openSource (t.watcher i).source ⟨t.kernel, choices⟩ with
    ⟨e, saved, choices', hrefused, hsaved, hopen⟩ | ⟨hgranted, fd, choices', -, hopen⟩
  · have hraised : (SignalWatcher.openWatcher backend).run (t.watcher i) ⟨t.kernel, choices⟩ = _ :=
      SignalWatcher.run_openWatcher_error hopen
    have hnone : saved = none := by
      rcases hsaved with h | h
      · rw [h, hsound.idle hclosed]
      · exact h
    rw [hsound.named] at hrefused
    refine ⟨_, _, Watchers.call_of_run hraised, ⟨hsound.named, fun _ => hnone, hsound.valid, ?_⟩, rfl,
      .inr ⟨hrefused, hclosed, rfl⟩⟩
    intro hopen
    rw [show (t.watcher i).isOpen = true from hopen] at hclosed
    cases hclosed
  · have hopened : (SignalWatcher.openWatcher backend).run (t.watcher i) ⟨t.kernel, choices⟩ = _ :=
      SignalWatcher.run_openWatcher_ok hopen
    rw [hsound.named] at hgranted
    refine ⟨_, _, Watchers.call_of_run hopened, ⟨hsound.named, nofun, fun _ => hgranted.filled.1,
      fun _ => ⟨_, rfl⟩⟩, rfl, .inl ⟨hgranted, rfl, rfl, ?_⟩⟩
    show _ ∪ blocked (t.watcher i).source.signals = _
    rw [hsound.named]

theorem closes_of_open (hsound : Sound (t.watcher i)) (hopen : (t.watcher i).isOpen = true) :
    ∃ self k', t.step backend (.closes i, choices) = ⟨Function.update t.watcher i self, k'⟩ ∧ Sound self ∧
      self.signals = (t.watcher i).signals ∧ self.isOpen = false ∧
      (t.watcher i).source.saved = some k'.mask := by
  apply Watchers.call_of_ends
  apply Watchers.ends_closeWatcher hopen
  apply SignalSource.ends_close
  intro fd k' _ hmask
  obtain ⟨saved, hsaved⟩ := hsound.saved hopen
  rw [hsaved, Option.getD_some] at hmask
  exact ⟨⟨hsound.named, fun _ => rfl, nofun, nofun⟩, rfl, rfl, hmask ▸ hsaved⟩

theorem sound_update {self : SignalWatcher SignalSource} (hsound : ∀ j, Sound (t.watcher j))
    (hself : Sound self) (j : Nat) : Sound (Function.update t.watcher i self j) :=
  (Function.forall_update_iff t.watcher fun _ => Sound).mpr ⟨hself, fun j _ => hsound j⟩ j

/-- The mask stays in order: a watcher that opens names nothing that cannot be
blocked, and the mask that one saved which closes blocks the signals of those
that stay open, or was there at the start when none does. -/
def Harmless (mask : SigMask) (t : Watchers SignalSource) : WatcherCall × (Nat → Choice) → Prop
  | (.opens i, choices) => Granted (t.watcher i).signals ⟨t.kernel, choices⟩ → Catchable (t.watcher i)
  | (.closes i, _) => (t.watcher i).isOpen = true → ∀ saved, (t.watcher i).source.saved = some saved →
      (∀ j, j ≠ i → (t.watcher j).isOpen = true → Blocks saved (t.watcher j)) ∧
        ((∀ j, j ≠ i → (t.watcher j).isOpen = false) → saved = mask)

theorem disciplined_update {self : SignalWatcher SignalSource} {k' : Kernel} :
    Disciplined mask ⟨Function.update t.watcher i self, k'⟩ ↔
      ((self.isOpen = true → Blocks k'.mask self) ∧
        ∀ j, j ≠ i → (t.watcher j).isOpen = true → Blocks k'.mask (t.watcher j)) ∧
      (self.isOpen = false → (∀ j, j ≠ i → (t.watcher j).isOpen = false) → k'.mask = mask) := by
  refine and_congr ?_ ?_
  · exact Function.forall_update_iff t.watcher fun _ w => w.isOpen = true → Blocks k'.mask w
  · rw [← and_imp]
    exact imp_congr_left (Function.forall_update_iff t.watcher fun _ w => w.isOpen = false)

theorem disciplined_opens (hsound : Sound (t.watcher i)) (hclosed : (t.watcher i).isOpen = false)
    (hbefore : Disciplined mask t) :
    Disciplined mask (t.step backend (.opens i, choices)) ↔ Harmless mask t (.opens i, choices) := by
  obtain ⟨self, k', hstep, hself, hsignals, hcases⟩ := @opens_cases t i choices hsound hclosed
  have hcatchable : Catchable self ↔ Catchable (t.watcher i) := by rw [Catchable, hsignals]; rfl
  rw [hstep, disciplined_update]
  rcases hcases with ⟨hgranted, hopen, -, hmask⟩ | ⟨hrefused, hself, rfl⟩
  · constructor
    · intro hafter _
      exact hcatchable.mp (hafter.1.1 hopen).catchable
    · intro hharmless
      refine ⟨⟨fun _ => ?_, fun j _ hj => ?_⟩, fun hfalse => ?_⟩
      · rw [hmask]
        exact (hself.blocks hopen (hcatchable.mpr (hharmless hgranted))).mono Finset.subset_union_right
      · rw [hmask]
        exact (hbefore.1 j hj).mono Finset.subset_union_left
      · rw [hopen] at hfalse
        cases hfalse
  · refine iff_of_true ⟨⟨fun hopen => ?_, fun j _ => hbefore.1 j⟩, fun _ hothers => ?_⟩ fun hgranted => ?_
    · rw [hself] at hopen
      cases hopen
    · apply hbefore.2
      intro j
      by_cases hji : j = i
      · rw [hji, hclosed]
      · exact hothers j hji
    · exact absurd hgranted hrefused

theorem disciplined_closes (hsound : Sound (t.watcher i)) (hbefore : Disciplined mask t) :
    Disciplined mask (t.step backend (.closes i, choices)) ↔ Harmless mask t (.closes i, choices) := by
  by_cases hopen : (t.watcher i).isOpen = true
  · obtain ⟨self, k', hstep, -, -, hself, hsaved⟩ := @closes_of_open t i choices hsound hopen
    rw [hstep, disciplined_update]
    constructor
    · intro hafter _ saved hsaved'
      have hmask : k'.mask = saved := Option.some.inj (hsaved.symm.trans hsaved')
      rw [← hmask]
      exact ⟨hafter.1.2, hafter.2 hself⟩
    · intro hharmless
      obtain ⟨hblocks, hlast⟩ := hharmless hopen _ hsaved
      refine ⟨⟨fun hfalse => ?_, hblocks⟩, fun _ => hlast⟩
      rw [hself] at hfalse
      cases hfalse
  · rw [Watchers.closes_of_closed (eq_false_of_ne_true hopen)]
    exact iff_of_true hbefore fun h => absurd h hopen

end Calls

/-! A whole run. -/

structure Kept (past : List WatcherCall) (t : Watchers SignalSource) : Prop where
  sound : ∀ i, Sound (t.watcher i)
  closed : ∀ i, .opens i ∉ past → (t.watcher i).isOpen = false

section Run

variable {t : Watchers SignalSource} {mask : SigMask} {past : List WatcherCall}

theorem kept_of_fresh {watcher : Nat → SignalWatcher SignalSource} (k : Kernel)
    (hfresh : ∀ i, SignalWatcher.Fresh SignalSource.new (watcher i)) : Kept [] ⟨watcher, k⟩ :=
  ⟨fun i => (sound_of_fresh (hfresh i)).1, fun i _ => (sound_of_fresh (hfresh i)).2⟩

theorem Kept.step (h : Kept past t) (call : WatcherCall × (Nat → Choice)) (hnew : call.1 ∉ past) :
    Kept (past ++ [call.1]) (t.step backend call) := by
  obtain ⟨call, choices⟩ := call
  have hbefore : ∀ j, .opens j ∉ past ++ [call] → (t.watcher j).isOpen = false :=
    fun j hj => h.closed j fun hmem => hj (List.mem_append_left _ hmem)
  cases call with
  | opens i =>
    obtain ⟨self, k', hstep, hself, -⟩ := @opens_cases t i choices (h.sound i) (h.closed i hnew)
    rw [hstep]
    refine ⟨sound_update h.sound hself, fun j hj => ?_⟩
    have hne : j ≠ i := by
      rintro rfl
      exact hj (List.mem_append_right _ (List.mem_singleton_self _))
    show (Function.update t.watcher i self j).isOpen = false
    rw [Function.update_of_ne hne]
    exact hbefore j hj
  | closes i =>
    by_cases hopen : (t.watcher i).isOpen = true
    · obtain ⟨self, k', hstep, hself, -, hclosed, -⟩ := @closes_of_open t i choices (h.sound i) hopen
      rw [hstep]
      refine ⟨sound_update h.sound hself, ?_⟩
      exact (Function.forall_update_iff t.watcher fun j w => .opens j ∉ past ++ [.closes i] → w.isOpen = false).mpr
        ⟨fun _ => hclosed, fun j _ => hbefore j⟩
    · rw [Watchers.closes_of_closed (eq_false_of_ne_true hopen)]
      exact ⟨h.sound, hbefore⟩

theorem Kept.after (h : Kept [] t) (run : List (WatcherCall × (Nat → Choice)))
    (honce : (run.map Prod.fst).Nodup) : Kept (run.map Prod.fst) (t.after backend run) := by
  induction run using List.reverseRecOn with
  | nil => exact h
  | append_singleton past call ih =>
    rw [List.map_append, List.map_singleton] at honce ⊢
    obtain ⟨hpast, -, hdisjoint⟩ := List.nodup_append.mp honce
    have hnew : call.1 ∉ past.map Prod.fst := fun hmem => hdisjoint _ hmem _ (List.mem_singleton_self _) rfl
    rw [Watchers.after, Runs.after_concat]
    exact (ih hpast).step call hnew

theorem Kept.disciplined_step (h : Kept past t) (hbefore : Disciplined mask t)
    (call : WatcherCall × (Nat → Choice)) (hnew : call.1 ∉ past) :
    Disciplined mask (t.step backend call) ↔ Harmless mask t call := by
  obtain ⟨call, choices⟩ := call
  cases call with
  | opens i => exact disciplined_opens (h.sound i) (h.closed i hnew) hbefore
  | closes i => exact disciplined_closes (h.sound i) hbefore

theorem disciplined_after_iff {watcher : Nat → SignalWatcher SignalSource} {k : Kernel}
    (hfresh : ∀ i, SignalWatcher.Fresh SignalSource.new (watcher i))
    (run : List (WatcherCall × (Nat → Choice))) (honce : (run.map Prod.fst).Nodup) :
    (∀ past, past <+: run → Disciplined k.mask (Watchers.after backend past ⟨watcher, k⟩)) ↔
      ∀ past call, past ++ [call] <+: run → Harmless k.mask (Watchers.after backend past ⟨watcher, k⟩) call := by
  have hkept := kept_of_fresh k hfresh
  apply Runs.throughout_iff
  · refine ⟨fun i hopen => ?_, fun _ => rfl⟩
    rw [hkept.closed i (List.not_mem_nil)] at hopen
    cases hopen
  · intro past call hpast hbefore
    obtain ⟨later, hrun⟩ := hpast
    rw [← hrun, List.append_assoc, List.map_append, List.nodup_append] at honce
    have hnew : call.1 ∉ past.map Prod.fst :=
      fun hmem => honce.2.2 _ hmem _ (by simp) rfl
    exact (hkept.after past honce.1).disciplined_step hbefore call hnew

end Run

/-! The open watchers as a stack. -/

/-- The watchers that were opened and not closed, the last one first. -/
inductive Stacked : List WatcherCall → List Nat → Prop where
  | nil : Stacked [] []
  | opens {past : List WatcherCall} {stack : List Nat} {i : Nat} (h : Stacked past stack)
      (hnew : i ∉ stack) : Stacked (past ++ [.opens i]) (i :: stack)
  | closes {past : List WatcherCall} {stack : List Nat} {i : Nat} (h : Stacked past (i :: stack)) :
      Stacked (past ++ [.closes i]) stack

namespace Stacked

variable {past : List WatcherCall} {stack : List Nat} {i j : Nat}

theorem opens_mem (h : Stacked past stack) (hi : i ∈ stack) : .opens i ∈ past := by
  induction h with
  | nil => simp at hi
  | opens _ _ ih =>
    rcases List.mem_cons.mp hi with rfl | hi
    · simp
    · exact List.mem_append_left _ (ih hi)
  | closes _ ih => exact List.mem_append_left _ (ih (List.mem_cons_of_mem _ hi))

theorem opens_of_closes (h : Stacked past stack) (hi : .closes i ∈ past) : .opens i ∈ past := by
  induction h with
  | nil => simp at hi
  | opens _ _ ih =>
    have hpast := List.mem_append.mp hi
    simp only [List.mem_singleton, reduceCtorEq, or_false] at hpast
    exact List.mem_append_left _ (ih hpast)
  | closes hs ih =>
    rcases List.mem_append.mp hi with hpast | hlast
    · exact List.mem_append_left _ (ih hpast)
    · cases List.mem_singleton.mp hlast
      exact List.mem_append_left _ (hs.opens_mem (by simp))

theorem mem_of_opens (h : Stacked past stack) (hopen : .opens i ∈ past) (hclose : .closes i ∉ past) :
    i ∈ stack := by
  induction h with
  | nil => simp at hopen
  | opens _ _ ih =>
    simp only [List.mem_append, List.mem_singleton, WatcherCall.opens.injEq, reduceCtorEq,
      or_false] at hopen hclose
    rcases hopen with hpast | rfl
    · exact List.mem_cons_of_mem _ (ih hpast hclose)
    · simp
  | closes _ ih =>
    simp only [List.mem_append, List.mem_singleton, WatcherCall.closes.injEq, reduceCtorEq,
      or_false, not_or] at hopen hclose
    exact (List.mem_cons.mp (ih hopen hclose.1)).resolve_left hclose.2

theorem nodup (h : Stacked past stack) : stack.Nodup := by
  induction h with
  | nil => exact List.nodup_nil
  | opens _ hnew ih => exact List.nodup_cons.mpr ⟨hnew, ih⟩
  | closes _ ih => exact (List.nodup_cons.mp ih).2

theorem closes_not_mem (h : Stacked past stack) (honce : past.Nodup) (hi : i ∈ stack) :
    .closes i ∉ past := by
  induction h with
  | nil => simp at hi
  | opens hs hnew ih =>
    obtain ⟨hpast, _, hdisjoint⟩ := List.nodup_append.mp honce
    simp only [List.mem_append, List.mem_singleton, reduceCtorEq, or_false]
    rcases List.mem_cons.mp hi with rfl | hi
    · intro hclose
      exact hdisjoint _ (hs.opens_of_closes hclose) _ (List.mem_singleton_self _) rfl
    · exact ih hpast hi
  | closes hs ih =>
    have hpast := (List.nodup_append.mp honce).1
    have hne := (List.nodup_cons.mp hs.nodup).1
    simp only [List.mem_append, List.mem_singleton, WatcherCall.closes.injEq, not_or]
    exact ⟨ih hpast (List.mem_cons_of_mem _ hi), fun heq => hne (heq ▸ hi)⟩

theorem opens_between (h : Stacked past stack) {upper lower : List Nat}
    (hstack : stack = upper ++ i :: lower) (hj : j ∈ lower) :
    ∃ before between, past = before ++ .opens j :: between ∧ .opens i ∈ between := by
  induction h generalizing upper with
  | nil => simp at hstack
  | @opens past stack i' hs _ ih =>
    cases upper with
    | nil =>
      obtain ⟨rfl, rfl⟩ := List.cons.inj hstack
      obtain ⟨before, between, rfl⟩ := List.append_of_mem (hs.opens_mem hj)
      exact ⟨before, between ++ [.opens i'], by simp, by simp⟩
    | cons _ upper =>
      obtain ⟨before, between, rfl, hmem⟩ := ih (List.cons.inj hstack).2
      exact ⟨before, between ++ [.opens i'], by simp, List.mem_append_left _ hmem⟩
  | @closes past stack i' _ ih =>
    have hpopped : i' :: stack = (i' :: upper) ++ i :: lower := by rw [hstack, List.cons_append]
    obtain ⟨before, between, rfl, hmem⟩ := ih hpopped
    exact ⟨before, between ++ [.closes i'], by simp, List.mem_append_left _ hmem⟩

end Stacked

theorem stacked_of_lastInFirstOut {calls : List WatcherCall} (honce : OnceEach calls)
    (hlast : LastInFirstOut calls) {past : List WatcherCall} (hpast : past <+: calls) :
    ∃ stack, Stacked past stack := by
  induction past using List.reverseRecOn with
  | nil => exact ⟨[], .nil⟩
  | append_singleton past call ih =>
    obtain ⟨later, hcalls⟩ := hpast
    rw [List.append_assoc, List.singleton_append] at hcalls
    obtain ⟨stack, hs⟩ := ih ⟨_, hcalls⟩
    have hnodup : (past ++ call :: later).Nodup := hcalls ▸ honce.once
    obtain ⟨hpast, _, hdisjoint⟩ := List.nodup_append.mp hnodup
    have hnew : call ∉ past := fun hmem => hdisjoint _ hmem _ (by simp) rfl
    cases call with
    | opens i => exact ⟨i :: stack, .opens hs fun hi => hnew (hs.opens_mem hi)⟩
    | closes j =>
      have hj : j ∈ stack := hs.mem_of_opens (honce.ordered _ _ _ hcalls.symm) hnew
      cases stack with
      | nil => simp at hj
      | cons i lower =>
        rcases List.mem_cons.mp hj with rfl | hlower
        · exact ⟨lower, .closes hs⟩
        · obtain ⟨before, between, hsplit, hopens⟩ :=
            hs.opens_between (show i :: lower = [] ++ i :: lower from rfl) hlower
          have hclose := hlast before j between later (by rw [← hcalls, hsplit]) i hopens
          have hmem : .closes i ∈ past := by
            rw [hsplit]
            exact List.mem_append_right _ (List.mem_cons_of_mem _ hclose)
          exact absurd hmem (hs.closes_not_mem hpast (by simp))

/-! The masks the watchers on the stack saved. -/

/-- The mask above the stack, with what each open watcher on it saved. A watcher
whose opening failed adds nothing. -/
inductive Layers (watcher : Nat → SignalWatcher SignalSource) (mask : SigMask) :
    List Nat → SigMask → Prop where
  | bottom : Layers watcher mask [] mask
  | opened {i : Nat} {stack : List Nat} {below : SigMask} (hopen : (watcher i).isOpen = true)
      (hsaved : (watcher i).source.saved = some below) (h : Layers watcher mask stack below) :
      Layers watcher mask (i :: stack) (below ∪ blocked (watcher i).signals)
  | failed {i : Nat} {stack : List Nat} {m : SigMask} (hclosed : (watcher i).isOpen = false)
      (h : Layers watcher mask stack m) : Layers watcher mask (i :: stack) m

namespace Layers

variable {watcher watcher' : Nat → SignalWatcher SignalSource} {mask m : SigMask} {stack : List Nat}

theorem congr (h : Layers watcher mask stack m) (heq : ∀ i ∈ stack, watcher' i = watcher i) :
    Layers watcher' mask stack m := by
  induction h with
  | bottom => exact .bottom
  | @opened i stack below hopen hsaved _ ih =>
    obtain ⟨hi, hstack⟩ := List.forall_mem_cons.mp heq
    rw [← hi] at hopen hsaved ⊢
    exact .opened hopen hsaved (ih hstack)
  | failed hclosed _ ih =>
    obtain ⟨hi, hstack⟩ := List.forall_mem_cons.mp heq
    rw [← hi] at hclosed
    exact .failed hclosed (ih hstack)

theorem update (h : Layers watcher mask stack m) {i : Nat} (hi : i ∉ stack)
    (self : SignalWatcher SignalSource) : Layers (Function.update watcher i self) mask stack m := by
  apply h.congr
  intro j hj
  rw [Function.update_of_ne]
  rintro rfl
  exact hi hj

theorem blocked_subset (h : Layers watcher mask stack m) {i : Nat} (hi : i ∈ stack)
    (hopen : (watcher i).isOpen = true) : blocked (watcher i).signals ⊆ m := by
  induction h with
  | bottom => simp at hi
  | opened _ _ _ ih =>
    rcases List.mem_cons.mp hi with rfl | hi
    · exact Finset.subset_union_right
    · exact (ih hi).trans Finset.subset_union_left
  | failed hclosed _ ih =>
    rcases List.mem_cons.mp hi with rfl | hi
    · rw [hopen] at hclosed
      cases hclosed
    · exact ih hi

theorem eq_of_closed (h : Layers watcher mask stack m) (hclosed : ∀ i, (watcher i).isOpen = false) :
    m = mask := by
  induction h with
  | bottom => rfl
  | opened hopen _ _ _ =>
    rw [hclosed] at hopen
    cases hopen
  | failed _ _ ih => exact ih

end Layers

/-- What every run in the order of a stack keeps. -/
structure Nested (mask : SigMask) (stack : List Nat) (t : Watchers SignalSource) : Prop where
  nodup : stack.Nodup
  layers : Layers t.watcher mask stack t.kernel.mask
  closed : ∀ i ∉ stack, (t.watcher i).isOpen = false
  sound : ∀ i, Sound (t.watcher i)
  catchable : ∀ i, Catchable (t.watcher i)

namespace Nested

variable {mask : SigMask} {stack : List Nat} {t : Watchers SignalSource} {i : Nat}

theorem disciplined (h : Nested mask stack t) : Disciplined mask t := by
  refine ⟨?_, h.layers.eq_of_closed⟩
  intro i hopen
  have hi : i ∈ stack := by
    by_contra hi
    rw [h.closed i hi] at hopen
    cases hopen
  exact ((h.sound i).blocks hopen (h.catchable i)).mono (h.layers.blocked_subset hi hopen)

theorem catchable_update {self : SignalWatcher SignalSource} (h : ∀ j, Catchable (t.watcher j))
    (hsignals : self.signals = (t.watcher i).signals) (j : Nat) :
    Catchable (Function.update t.watcher i self j) := by
  have hself : Catchable self := by
    rw [Catchable, hsignals]
    exact h i
  exact (Function.forall_update_iff t.watcher fun _ => Catchable).mpr ⟨hself, fun j _ => h j⟩ j

theorem opens (h : Nested mask stack t) (hi : i ∉ stack) (choices : Nat → Choice) :
    Nested mask (i :: stack) (t.step backend (.opens i, choices)) := by
  obtain ⟨self, k', hstep, hsound, hsignals, hcases⟩ :=
    @opens_cases t i choices (h.sound i) (h.closed i hi)
  have hself : (Function.update t.watcher i self) i = self := Function.update_self ..
  have hbelow : Layers (Function.update t.watcher i self) mask stack t.kernel.mask :=
    h.layers.update hi self
  rw [hstep]
  constructor
  case nodup => exact List.nodup_cons.mpr ⟨hi, h.nodup⟩
  case layers =>
    rcases hcases with ⟨-, hopen, hsaved, hmask⟩ | ⟨-, hclosed, rfl⟩
    · rw [← hself] at hopen hsaved hmask
      rw [hmask]
      exact .opened hopen hsaved hbelow
    · rw [← hself] at hclosed
      exact .failed hclosed hbelow
  case closed =>
    intro j hj
    obtain ⟨hne, hstack⟩ := not_or.mp (List.mem_cons.not.mp hj)
    show (Function.update t.watcher i self j).isOpen = false
    rw [Function.update_of_ne hne]
    exact h.closed j hstack
  case sound => exact sound_update h.sound hsound
  case catchable => exact catchable_update h.catchable hsignals

theorem closes (h : Nested mask (i :: stack) t) (choices : Nat → Choice) :
    Nested mask stack (t.step backend (.closes i, choices)) := by
  obtain ⟨hi, hnodup⟩ := List.nodup_cons.mp h.nodup
  have hclosed : ∀ j ∉ stack, j ≠ i → (t.watcher j).isOpen = false :=
    fun j hj hne => h.closed j (List.mem_cons.not.mpr (not_or.mpr ⟨hne, hj⟩))
  have hlayers := h.layers
  generalize hm : t.kernel.mask = m at hlayers
  cases hlayers with
  | failed hfailed hbelow =>
    rw [Watchers.closes_of_closed hfailed]
    refine ⟨hnodup, hm ▸ hbelow, ?_, h.sound, h.catchable⟩
    intro j hj
    by_cases hne : j = i
    · rw [hne, hfailed]
    · exact hclosed j hj hne
  | opened hopen hsaved hbelow =>
    obtain ⟨self, k', hstep, hsound, hsignals, hself, hmask⟩ :=
      @closes_of_open t i choices (h.sound i) hopen
    rw [hstep]
    constructor
    case nodup => exact hnodup
    case layers =>
      rw [hsaved, Option.some.injEq] at hmask
      exact hmask ▸ hbelow.update hi self
    case closed =>
      exact fun j => (Function.forall_update_iff t.watcher fun j w => j ∉ stack → w.isOpen = false).mpr
        ⟨fun _ => hself, fun j hne hj => hclosed j hj hne⟩ j
    case sound => exact sound_update h.sound hsound
    case catchable => exact catchable_update h.catchable hsignals

end Nested

section Order

variable {mask : SigMask} {t : Watchers SignalSource} {calls : List WatcherCall}

theorem nested_after (h : Nested mask [] t) {past : List WatcherCall} {stack : List Nat}
    (hs : Stacked past stack) (run : List (WatcherCall × (Nat → Choice)))
    (hrun : run.map Prod.fst = past) : Nested mask stack (t.after backend run) := by
  induction hs generalizing run with
  | nil =>
    rw [List.map_eq_nil_iff.mp hrun]
    exact h
  | opens _ hnew ih =>
    obtain ⟨run, last, rfl, hpast, hlast⟩ := List.map_eq_append_iff.mp hrun
    obtain ⟨⟨_, choices⟩, rfl, rfl⟩ := List.map_eq_singleton_iff.mp hlast
    rw [Watchers.after, List.foldl_append]
    exact (ih run hpast).opens hnew choices
  | closes _ ih =>
    obtain ⟨run, last, rfl, hpast, hlast⟩ := List.map_eq_append_iff.mp hrun
    obtain ⟨⟨_, choices⟩, rfl, rfl⟩ := List.map_eq_singleton_iff.mp hlast
    rw [Watchers.after, List.foldl_append]
    exact (ih run hpast).closes choices

theorem nested_of_fresh {watcher : Nat → SignalWatcher SignalSource} (k : Kernel)
    (hfresh : ∀ i, SignalWatcher.Fresh SignalSource.new (watcher i)) (hcatchable : ∀ i, Catchable (watcher i)) :
    Nested k.mask [] ⟨watcher, k⟩ where
  nodup := List.nodup_nil
  layers := .bottom
  closed i _ := (sound_of_fresh (hfresh i)).2
  sound i := (sound_of_fresh (hfresh i)).1
  catchable := hcatchable

end Order

/-! Two watchers that close in the order they were opened. -/

def naming (signo : Int) : SignalWatcher SignalSource := ⟨[signo], 200, .new [signo], false⟩

def holding (signo fd : Int) (saved : SigMask) : SignalWatcher SignalSource :=
  ⟨[signo], 200, ⟨[signo], fd, some saved⟩, true⟩

def granting (fd : Nat) : Nat → Choice := fun _ => ⟨none, fd, 0, 0, 0⟩

def watching (k : Kernel) (signo fd : Int) : Kernel :=
  Kernel.install { k with mask := k.mask ∪ blocked [signo] } fd ⟨.signalfd {signo}, true⟩

theorem naming_fresh (signo : Int) : SignalWatcher.Fresh SignalSource.new (naming signo) :=
  ⟨.one signo, 200, rfl⟩

section Crossing

variable {t : Watchers SignalSource} {i : Nat}

theorem opens_refused (fd : Nat) (hi : t.watcher i = naming 65) :
    t.step backend (.opens i, granting fd) = t := by
  have hrun : (SignalWatcher.openWatcher backend).run (t.watcher i) ⟨t.kernel, granting fd⟩ =
      ((.error (.osError Errno.inval), t.watcher i), ⟨t.kernel, granting fd⟩) := by
    rw [hi]
    rfl
  rw [Watchers.step, Watchers.call_of_run hrun, Function.update_eq_self]

theorem opens_first (hi : t.watcher i = naming 10) (hk : t.kernel = .bare) :
    t.step backend (.opens i, granting 3) =
      ⟨Function.update t.watcher i (holding 10 3 ∅), watching .bare 10 3⟩ := by
  have hrun : (SignalWatcher.openWatcher backend).run (naming 10) ⟨.bare, granting 3⟩ =
      ((.ok (), holding 10 3 ∅), ⟨watching .bare 10 3, granting 3⟩) := rfl
  rw [Watchers.step, Watchers.call, hi, hk, hrun]

theorem opens_second (hi : t.watcher i = naming 15) (hk : t.kernel = watching .bare 10 3) :
    t.step backend (.opens i, granting 4) =
      ⟨Function.update t.watcher i (holding 15 4 (blocked [10])), watching (watching .bare 10 3) 15 4⟩ := by
  have hrun : (SignalWatcher.openWatcher backend).run (naming 15) ⟨watching .bare 10 3, granting 4⟩ =
      ((.ok (), holding 15 4 (blocked [10])), ⟨watching (watching .bare 10 3) 15 4, granting 4⟩) := rfl
  rw [Watchers.step, Watchers.call, hi, hk, hrun]

def crossing (i j n : Nat) : SignalWatcher SignalSource :=
  if n = j then naming 10 else if n = i then naming 15 else naming 65

def answered (i : Nat) (call : WatcherCall) : WatcherCall × (Nat → Choice) :=
  (call, granting (if call.watcher = i then 4 else 3))

theorem crossing_fresh {i j : Nat} (n : Nat) :
    SignalWatcher.Fresh SignalSource.new (crossing i j n) := by
  rw [crossing]
  split
  · exact naming_fresh 10
  · split
    · exact naming_fresh 15
    · exact naming_fresh 65

theorem crossing_catchable {i j : Nat} (n : Nat) : Catchable (crossing i j n) := by
  rw [crossing]
  rw [Catchable]
  split
  · decide
  · split
    · decide
    · decide

theorem not_about {i j : Nat} {calls : List WatcherCall} (hi : .opens i ∉ calls) (hic : .closes i ∉ calls)
    (hj : .opens j ∉ calls) (hjc : .closes j ∉ calls) :
    ∀ call ∈ calls, call.watcher ≠ i ∧ call.watcher ≠ j := by
  intro call hcall
  cases call with
  | opens n => exact ⟨fun h => hi (h ▸ hcall), fun h => hj (h ▸ hcall)⟩
  | closes n => exact ⟨fun h => hic (h ▸ hcall), fun h => hjc (h ▸ hcall)⟩

theorem after_others {i j : Nat} {calls : List WatcherCall}
    (hcalls : ∀ call ∈ calls, call.watcher ≠ i ∧ call.watcher ≠ j)
    (ht : ∀ n, n ≠ i → n ≠ j → t.watcher n = naming 65) :
    t.after backend (calls.map (answered i)) = t := by
  induction calls with
  | nil => rfl
  | cons call calls ih =>
    obtain ⟨hcall, hrest⟩ := List.forall_mem_cons.mp hcalls
    have hnaming := ht _ hcall.1 hcall.2
    have hstep : t.step backend (answered i call) = t := by
      cases call with
      | opens n => exact opens_refused _ hnaming
      | closes n =>
        apply Watchers.closes_of_closed
        rw [show t.watcher n = naming 65 from hnaming]
        rfl
    rw [List.map_cons, Watchers.after_cons, hstep]
    exact ih hrest

def Crossed (i j : Nat) (t : Watchers SignalSource) : Prop :=
  t.watcher i = holding 15 4 (blocked [10]) ∧ (t.watcher j).isOpen = false ∧ t.kernel.mask = ∅

theorem holding_sound {signo fd : Int} {saved : SigMask} (hsigno : ValidSignal signo) :
    Sound (holding signo fd saved) := by
  refine ⟨rfl, nofun, ?_, fun _ => ⟨saved, rfl⟩⟩
  intro _ signo' hmem
  rw [List.mem_singleton.mp hmem]
  exact hsigno

theorem after_crossing {i j : Nat} (hne : i ≠ j) {before middle later : List WatcherCall}
    (hbefore : ∀ call ∈ before, call.watcher ≠ i ∧ call.watcher ≠ j)
    (hmiddle : ∀ call ∈ middle, call.watcher ≠ i ∧ call.watcher ≠ j)
    (hlater : ∀ call ∈ later, call.watcher ≠ i ∧ call.watcher ≠ j) (calls : List WatcherCall)
    (hcalls : calls = before ++ .opens j :: (middle ++ .opens i :: (later ++ [.closes j]))) :
    Crossed i j (Watchers.after backend (calls.map (answered i)) ⟨crossing i j, .bare⟩) := by
  let w₁ := Function.update (crossing i j) j (holding 10 3 ∅)
  let w₂ := Function.update w₁ i (holding 15 4 (blocked [10]))
  have hothers : ∀ n, n ≠ i → n ≠ j → crossing i j n = naming 65 := by
    intro n hi hj
    rw [crossing, if_neg hj, if_neg hi]
  have hothers₁ : ∀ n, n ≠ i → n ≠ j → w₁ n = naming 65 := by
    intro n hi hj
    rw [show w₁ n = _ from Function.update_of_ne hj .., hothers n hi hj]
  have hothers₂ : ∀ n, n ≠ i → n ≠ j → w₂ n = naming 65 := by
    intro n hi hj
    rw [show w₂ n = _ from Function.update_of_ne hi .., hothers₁ n hi hj]
  have hopens₁ : Watchers.step backend ⟨crossing i j, .bare⟩ (answered i (.opens j)) =
      ⟨w₁, watching .bare 10 3⟩ := by
    have hanswer : answered i (.opens j) = (.opens j, granting 3) := by
      rw [answered, if_neg (show ¬ (WatcherCall.opens j).watcher = i from hne.symm)]
    rw [hanswer]
    exact opens_first (if_pos rfl) rfl
  have hopens₂ : Watchers.step backend ⟨w₁, watching .bare 10 3⟩ (answered i (.opens i)) =
      ⟨w₂, watching (watching .bare 10 3) 15 4⟩ := by
    have hanswer : answered i (.opens i) = (.opens i, granting 4) := by
      rw [answered, if_pos (show (WatcherCall.opens i).watcher = i from rfl)]
    have hi : w₁ i = naming 15 := by
      rw [show w₁ i = _ from Function.update_of_ne hne .., crossing, if_neg hne, if_pos rfl]
    rw [hanswer]
    exact opens_second hi rfl
  let t₂ : Watchers SignalSource := ⟨w₂, watching (watching .bare 10 3) 15 4⟩
  have hj : t₂.watcher j = holding 10 3 ∅ := by
    rw [show t₂.watcher j = _ from Function.update_of_ne hne.symm ..]
    exact Function.update_self ..
  have hsound : Sound (t₂.watcher j) := hj ▸ holding_sound (by decide)
  obtain ⟨self, k', hcloses, -, -, hclosed, hmask⟩ :=
    @closes_of_open t₂ j (answered i (.closes j)).2 hsound (by rw [hj]; rfl)
  have hafter : Watchers.after backend (calls.map (answered i)) ⟨crossing i j, .bare⟩ =
      ⟨Function.update w₂ j self, k'⟩ := by
    rw [hcalls]
    simp only [List.map_append, List.map_cons, List.map_nil, Watchers.after_append, Watchers.after_cons]
    rw [after_others hbefore hothers, hopens₁, after_others hmiddle hothers₁, hopens₂,
      after_others hlater hothers₂]
    exact hcloses
  rw [hafter]
  refine ⟨?_, ?_, ?_⟩
  · show Function.update w₂ j self i = _
    rw [Function.update_of_ne hne]
    exact Function.update_self ..
  · show (Function.update w₂ j self j).isOpen = false
    rw [Function.update_self]
    exact hclosed
  · rw [hj] at hmask
    exact (Option.some.inj hmask).symm

theorem Crossed.unblocks {i j : Nat} (h : Crossed i j t) : ¬ NamedBlocked t := by
  obtain ⟨hi, _, hmask⟩ := h
  intro hblocked
  obtain ⟨_, hmem⟩ := hblocked i (by rw [hi]; rfl) 15 (by rw [hi]; exact List.mem_singleton_self _)
  rw [hmask] at hmem
  exact absurd hmem (Finset.notMem_empty _)

theorem Crossed.closes {i j : Nat} (hne : i ≠ j) (h : Crossed i j t) (choices : Nat → Choice) :
    let t' := t.step backend (.closes i, choices)
    (t'.watcher i).isOpen = false ∧ (t'.watcher j).isOpen = false ∧ t'.kernel.mask = blocked [10] := by
  obtain ⟨hi, hj, _⟩ := h
  have hsound : Sound (t.watcher i) := hi ▸ holding_sound (by decide)
  obtain ⟨self, k', hcloses, -, -, hclosed, hmask⟩ :=
    @closes_of_open t i choices hsound (by rw [hi]; rfl)
  rw [hcloses]
  refine ⟨?_, ?_, ?_⟩
  · show (Function.update t.watcher i self i).isOpen = false
    rw [Function.update_self]
    exact hclosed
  · show (Function.update t.watcher i self j).isOpen = false
    rw [Function.update_of_ne hne.symm]
    exact hj
  · rw [hi] at hmask
    exact (Option.some.inj hmask).symm

end Crossing

theorem onceEach_nested : OnceEach [.opens 0, .opens 1, .closes 1, .closes 0] := by
  refine ⟨by decide, ?_⟩
  intro before i later h
  rcases before with _ | ⟨_, _ | ⟨_, _ | ⟨_, _ | ⟨_, before⟩⟩⟩⟩
  all_goals aesop

/-- The orders of the calls in which the mask is kept, whatever the watchers name
and whatever else fails. -/
theorem lastInFirstOut_iff {calls : List WatcherCall} (honce : OnceEach calls) :
    LastInFirstOut calls ↔
      ∀ (watcher : Nat → SignalWatcher SignalSource) (k : Kernel),
        (∀ i, SignalWatcher.Fresh SignalSource.new (watcher i)) → (∀ i, Catchable (watcher i)) →
        ∀ run : List (WatcherCall × (Nat → Choice)), run.map Prod.fst <+: calls →
          Disciplined k.mask (Watchers.after backend run ⟨watcher, k⟩) := by
  constructor
  · intro hlast watcher k hfresh hcatchable run hrun
    obtain ⟨stack, hs⟩ := stacked_of_lastInFirstOut honce hlast hrun
    exact (nested_after (nested_of_fresh k hfresh hcatchable) hs run rfl).disciplined
  · intro hdisciplined before j between later hcalls i hopens
    by_contra hclose
    obtain ⟨middle, rest, rfl⟩ := List.append_of_mem hopens
    -- None of the other calls up to the crossing is about the two watchers.
    have hj : WatcherCall.opens j ∉ before ++ (middle ++ .opens i :: rest ++ .closes j :: later) :=
      honce.not_mem (by simp [hcalls])
    have hi : WatcherCall.opens i ∉ (before ++ .opens j :: middle) ++ (rest ++ .closes j :: later) :=
      honce.not_mem (by simp [hcalls])
    have hjc : WatcherCall.closes j ∉ (before ++ .opens j :: middle ++ .opens i :: rest) ++ later :=
      honce.not_mem (by simp [hcalls])
    simp only [List.mem_append, List.mem_cons, WatcherCall.opens.injEq, reduceCtorEq, not_or,
      false_or] at hj hi hjc hclose
    have hic : WatcherCall.closes i ∉ before := by
      intro hmem
      obtain ⟨past, between, rfl⟩ := List.append_of_mem hmem
      exact hi.1.1 (List.mem_append_left _ (honce.ordered past i _ (by rw [hcalls]; simp; rfl)))
    have hne : i ≠ j := hi.1.2.1
    have hpre : before ++ .opens j :: (middle ++ .opens i :: (rest ++ [.closes j])) <+: calls :=
      ⟨later, by simp [hcalls]⟩
    have hcrossed := after_crossing hne (not_about hi.1.1 hic hj.1 hjc.1.1.1)
      (not_about hi.1.2.2 hclose.1 hj.2.1.1 hjc.1.1.2) (not_about hi.2.1 hclose.2 hj.2.1.2.2 hjc.1.2)
      _ rfl
    apply hcrossed.unblocks
    apply And.left (hdisciplined (crossing i j) .bare crossing_fresh crossing_catchable _ _)
    have hfst : Prod.fst ∘ answered i = id := rfl
    rw [List.map_map, hfst, List.map_id]
    exact hpre

/-- Every signal named by an open watcher is blocked, and the mask is back in the
end, in the runs whose calls are all harmless and in no other. The orders of calls
in which this is so for all watchers, masks and failures are those that close
each watcher only after the ones opened after it. -/
theorem mask_disciplined_iff {calls : List WatcherCall} (honce : OnceEach calls) :
    (∀ (watcher : Nat → SignalWatcher SignalSource) (k : Kernel),
      (∀ i, SignalWatcher.Fresh SignalSource.new (watcher i)) →
      ∀ run : List (WatcherCall × (Nat → Choice)), run.map Prod.fst = calls →
        ((∀ past, past <+: run → Disciplined k.mask (Watchers.after backend past ⟨watcher, k⟩)) ↔
          ∀ past call, past ++ [call] <+: run →
            Harmless k.mask (Watchers.after backend past ⟨watcher, k⟩) call)) ∧
    (LastInFirstOut calls ↔
      ∀ (watcher : Nat → SignalWatcher SignalSource) (k : Kernel),
        (∀ i, SignalWatcher.Fresh SignalSource.new (watcher i)) → (∀ i, Catchable (watcher i)) →
        ∀ run : List (WatcherCall × (Nat → Choice)), run.map Prod.fst <+: calls →
          Disciplined k.mask (Watchers.after backend run ⟨watcher, k⟩)) := by
  refine ⟨?_, lastInFirstOut_iff honce⟩
  rintro watcher k hfresh run rfl
  exact disciplined_after_iff hfresh run honce.once

/-- For a watcher that is opened and closed within the time of another. -/
theorem mask_disciplined_iff_nested :
    LastInFirstOut [.opens 0, .opens 1, .closes 1, .closes 0] ↔
      ∀ (watcher : Nat → SignalWatcher SignalSource) (k : Kernel),
        (∀ i, SignalWatcher.Fresh SignalSource.new (watcher i)) → (∀ i, Catchable (watcher i)) →
        ∀ run : List (WatcherCall × (Nat → Choice)),
          run.map Prod.fst <+: [.opens 0, .opens 1, .closes 1, .closes 0] →
            Disciplined k.mask (Watchers.after backend run ⟨watcher, k⟩) :=
  (mask_disciplined_iff onceEach_nested).2

/-- Two watchers close in the order they were opened: the first close unblocks
the signal of the second watcher, and the last one leaves that of the first
watcher blocked. -/
theorem mask_undisciplined :
    ∃ (start : Watchers SignalSource) (run : List (WatcherCall × (Nat → Choice)))
        (last : WatcherCall × (Nat → Choice)),
      (run ++ [last]).map Prod.fst = [.opens 0, .opens 1, .closes 0, .closes 1] ∧
      (∀ i, SignalWatcher.Fresh SignalSource.new (start.watcher i)) ∧
      (∀ i, Catchable (start.watcher i)) ∧ ¬ NamedBlocked (start.after backend run) ∧
      ((start.after backend (run ++ [last])).watcher 0).isOpen = false ∧
      ((start.after backend (run ++ [last])).watcher 1).isOpen = false ∧
      (start.after backend (run ++ [last])).kernel.mask ≠ start.kernel.mask := by
  have hcrossed := @after_crossing 1 0 (by decide) [] [] [] (by simp) (by simp) (by simp)
    [.opens 0, .opens 1, .closes 0] rfl
  obtain ⟨hsecond, hfirst, hmask⟩ := hcrossed.closes (by decide) (granting 3)
  refine ⟨⟨crossing 1 0, .bare⟩, [.opens 0, .opens 1, .closes 0].map (answered 1),
    (.closes 1, granting 3), rfl, crossing_fresh, crossing_catchable, hcrossed.unblocks, ?_⟩
  rw [Watchers.after_append, Watchers.after_cons, Watchers.after_nil]
  refine ⟨hfirst, hsecond, ?_⟩
  rw [hmask]
  decide

end MicroPython

end Mpsystemd
