import Mpsystemd.Activation
import Mpsystemd.Recording

/-! Presenting descriptors as those of socket activation: a simultaneous
assignment through scratch copies above the target range. -/

namespace Mpsystemd

variable {σ α : Type}

/-- `[dup_above(fd, minfd) for fd in fds]`. -/
def dupAllAbove (rt : Runtime) (minfd : Fd) : List Fd → Py σ (List Fd)
  | [] => return []
  | fd :: fds => do
    let copy ← dupAbove rt fd minfd
    let copies ← dupAllAbove rt minfd fds
    return copy :: copies

/-- Duplicates the scratch descriptors onto `target` and those that follow it. -/
def place (target : Fd) : List Fd → Py σ Unit
  | [] => pure ()
  | fd :: scratch => do
    dup2 fd target
    clearCloexec target
    place (target + 1) scratch

def closeAll : List Fd → Py σ Unit
  | [] => pure ()
  | fd :: scratch => do
    closeFd fd
    closeAll scratch

/-- Sets the `LISTEN_*` variables for that many descriptors. -/
def publish (rt : Runtime) (count : Nat) (names : Option (List Str)) : Py σ Unit := do
  let pid ← getpid
  setenv rt listenPidEnv (str (toString pid))
  setenv rt listenFdsEnv (str (toString (count : Int)))
  match names with
  | none => unsetenv listenFdnamesEnv
  | some names => setenv rt listenFdnamesEnv ([fdnamesSeparator].intercalate names)

def installListenFds (rt : Runtime) (fds : List Fd) (names : Option (List Str)) (start : Fd) :
    Py σ (List Fd) :=
  if names.any (·.length ≠ fds.length) then
    Method.raise (.valueError "names must line up with fds" [])
  else do
    let scratch ← dupAllAbove rt (start + fds.length) fds
    Method.ensuring (place start scratch) (closeAll scratch)
    publish rt fds.length names
    return range start (start + fds.length)

section Rules

variable {s : σ} {k : Kernel} {calls : List SysCall} {err : PyErr → σ → Kernel × List SysCall → Prop}

/-- `copies` are new descriptors, from `minfd` on, for the files of `fds`. -/
structure Copies (minfd : Int) (fds copies : List Int) (k k' : Kernel) : Prop where
  env : k'.env = k.env
  pid : k'.pid = k.pid
  files : List.Forall₂ (fun fd copy => k.fileAt fd ≠ none → k'.fileAt copy = k.fileAt fd) fds copies
  nodup : copies.Nodup
  above : ∀ copy ∈ copies, minfd ≤ copy
  fresh : ∀ copy ∈ copies, k.table copy = none
  opened : ∀ copy ∈ copies, k'.fileAt copy ≠ none
  others : ∀ fd, fd ∉ copies → k'.table fd = k.table fd

theorem Copies.nil (minfd : Fd) (k : Kernel) : Copies minfd [] [] k k :=
  ⟨rfl, rfl, .nil, List.nodup_nil, nofun, nofun, nofun, fun _ _ => rfl⟩

theorem Copies.cons {minfd fd copy : Fd} {fds copies : List Fd} {file : File} {k' : Kernel}
    (hfile : k.fileAt fd = some file) (hmin : minfd ≤ copy) (hfree : k.table copy = none)
    (h : Copies minfd fds copies (k.install copy ⟨file, false⟩) k') :
    Copies minfd (fd :: fds) (copy :: copies) k k' := by
  have hnotMem : copy ∉ copies := fun hmem => by simpa using h.fresh copy hmem
  have hcopy : k'.fileAt copy = some file := by
    rw [Kernel.fileAt, h.others copy hnotMem]
    simp
  have hother : ∀ fd', k.fileAt fd' ≠ none →
      (k.install copy ⟨file, false⟩).fileAt fd' = k.fileAt fd' := by
    intro fd' hfd'
    have hne : fd' ≠ copy := fun heq => hfd' (by rw [heq, Kernel.fileAt, hfree]; rfl)
    rw [Kernel.fileAt_install, if_neg hne]
  refine ⟨h.env, h.pid, .cons ?_ ?_, List.nodup_cons.mpr ⟨hnotMem, h.nodup⟩, ?_, ?_, ?_, ?_⟩
  · exact fun _ => hcopy.trans hfile.symm
  · refine h.files.imp fun fd' copy' hfiles hfd' => ?_
    rw [← hother fd' hfd']
    exact hfiles (by rwa [hother fd' hfd'])
  · exact List.forall_mem_cons.mpr ⟨hmin, h.above⟩
  · refine List.forall_mem_cons.mpr ⟨hfree, fun copy' hmem => ?_⟩
    have hne : copy' ≠ copy := fun heq => hnotMem (heq ▸ hmem)
    simpa [Function.update_of_ne hne] using h.fresh copy' hmem
  · exact List.forall_mem_cons.mpr ⟨by rw [hcopy]; exact Option.some_ne_none _, h.opened⟩
  · intro fd' hfd'
    obtain ⟨hne, hmem⟩ := not_or.mp (mt List.mem_cons.mpr hfd')
    rw [h.others fd' hmem]
    simp [Function.update_of_ne hne]

def SysCall.IsCopy (call : SysCall) : Prop := ∃ fd minfd copy, call = ⟨.dupAbove fd minfd, .ok copy⟩

theorem records_dupAllAbove (rt : Runtime) (minfd : Fd) (fds : List Fd) (s : σ) (k : Kernel)
    (calls : List SysCall) :
    Py.Records (dupAllAbove rt minfd fds)
      (fun copies s' r => s' = s ∧ Copies minfd fds copies k r.1 ∧
        ∃ new, r.2 = calls ++ new ∧ new.filterMap SysCall.copy? = copies ∧ ∀ call ∈ new, call.IsCopy)
      (fun e s' r => s' = s ∧ (∃ done copies, Copies minfd done copies k r.1) ∧
        ∃ new, r.2 = calls ++ new ∧ (∀ call ∈ new, ¬ call.IsDup2) ∧
          ((∃ fd ∈ fds, fd < 0) ∧ (∀ call ∈ new, call.MoveSucceeds) ∨
            (∃ errno, e = .osError errno) ∧ ∃ call ∈ new, ¬ call.MoveSucceeds)) s k calls := by
  -- Each copy is made in the kernel that the copies before it left.
  induction fds generalizing k calls with
  | nil => exact ⟨rfl, .nil minfd k, [], (List.append_nil _).symm, rfl, nofun⟩
  | cons fd fds ih =>
    refine Method.obeys_bind.mpr (records_dupAbove ?_ ?_ ?_)
    · intro copy file hfile hmin hfree
      have hcalls : ∀ new, calls ++ [⟨.dupAbove fd minfd, .ok (copy : Fd)⟩] ++ new =
          calls ++ ⟨.dupAbove fd minfd, .ok (copy : Fd)⟩ :: new := fun new => List.append_assoc ..
      refine Method.obeys_bind.mpr ((ih _ _).mono ?_ ?_)
      · rintro copies s' r ⟨rfl, hcopies, new, hnew, hmap, hall⟩
        refine ⟨rfl, hcopies.cons hfile hmin hfree, _, hnew.trans (hcalls new), ?_, ?_⟩
        · rw [List.filterMap_cons, hmap]
          rfl
        · exact List.forall_mem_cons.mpr ⟨⟨_, _, _, rfl⟩, hall⟩
      · rintro e s' r ⟨rfl, ⟨done, copies, hcopies⟩, new, hnew, hdup, hcause⟩
        refine ⟨rfl, ⟨_, _, hcopies.cons hfile hmin hfree⟩, _, hnew.trans (hcalls new), ?_, ?_⟩
        · exact List.forall_mem_cons.mpr ⟨id, hdup⟩
        · rcases hcause with ⟨⟨fd', hfd', hneg⟩, hall⟩ | ⟨herrno, call, hcall, hfails⟩
          · exact .inl ⟨⟨fd', List.mem_cons_of_mem _ hfd', hneg⟩, List.forall_mem_cons.mpr ⟨trivial, hall⟩⟩
          · exact .inr ⟨herrno, call, List.mem_cons_of_mem _ hcall, hfails⟩
    · intro e
      refine ⟨rfl, ⟨_, _, .nil minfd k⟩, [⟨.dupAbove fd minfd, .error e⟩], rfl, ?_, ?_⟩
      · exact List.forall_mem_singleton.mpr id
      · exact .inr ⟨⟨e, rfl⟩, _, List.mem_singleton_self _, id⟩
    · intro e hneg
      exact ⟨rfl, ⟨_, _, .nil minfd k⟩, [], (List.append_nil _).symm, nofun,
        .inl ⟨⟨fd, List.mem_cons_self, hneg⟩, nofun⟩⟩

structure Rewrites (target : Int) (n : Nat) (k k' : Kernel) : Prop where
  env : k'.env = k.env
  pid : k'.pid = k.pid
  outside : ∀ fd : Int, ¬ (target ≤ fd ∧ fd < target + n) → k'.table fd = k.table fd

structure Placed (target : Int) (scratch : List Int) (k k' : Kernel) : Prop
    extends Rewrites target scratch.length k k' where
  inside : ∀ i (hi : i < scratch.length),
    k'.table (target + i) = (k.fileAt (scratch[i])).map fun file => ⟨file, false⟩

theorem Rewrites.refl (target : Int) (n : Nat) (k : Kernel) : Rewrites target n k k :=
  ⟨rfl, rfl, fun _ _ => rfl⟩

theorem Rewrites.step {target : Int} {n : Nat} {d : Descriptor} {k' : Kernel}
    (h : Rewrites (target + 1) n (k.install target d) k') : Rewrites target (n + 1) k k' where
  env := h.env
  pid := h.pid
  outside fd hfd := by
    have hne : fd ≠ target := by
      rintro rfl
      omega
    rw [h.outside fd (by omega)]
    simp [Function.update_of_ne hne]

theorem Placed.step {target fd : Int} {scratch : List Int} {file : File} {k' : Kernel}
    (hfile : k.fileAt fd = some file) (hfar : ∀ fd ∈ scratch, fd ≠ target)
    (h : Placed (target + 1) scratch (k.install target ⟨file, false⟩) k') :
    Placed target (fd :: scratch) k k' where
  toRewrites := h.toRewrites.step
  inside i hi := by
    -- The first descriptor stays as the `dup2` left it, the others are the tail's.
    cases i with
    | zero =>
      have houtside := h.outside target (by omega)
      simp only [Nat.cast_zero, add_zero, List.getElem_cons_zero, hfile, houtside]
      simp
    | succ i =>
      have hinside := h.inside i (Nat.lt_of_succ_lt_succ hi)
      rw [Kernel.fileAt_install, if_neg (hfar _ (List.getElem_mem _))] at hinside
      have hindex : target + ((i + 1 : Nat) : Int) = target + 1 + i := by omega
      rw [List.getElem_cons_succ, ← hinside, hindex]

theorem records_place (scratch : List Int) (target : Int) (s : σ) (k : Kernel) (calls : List SysCall)
    (hopen : ∀ fd ∈ scratch, k.fileAt fd ≠ none) (hfar : ∀ fd ∈ scratch, target + scratch.length ≤ fd) :
    Py.Records (place target scratch)
      (fun _ s' r => s' = s ∧ Placed target scratch k r.1 ∧
        Adds calls r.2 SysCall.Quiet)
      (fun e s' r => s' = s ∧ Rewrites target scratch.length k r.1 ∧ (∃ errno, e = .osError errno) ∧
        Adds calls r.2 (fun call => call.copy? = none) ∧
        ∃ call ∈ r.2, call.IsDup2 ∧ ¬ call.MoveSucceeds) s k calls := by
  -- The scratch copies lie above the range, so no `dup2` closes one that is still
  -- to be placed.
  induction scratch generalizing target k calls with
  | nil => exact ⟨rfl, ⟨.refl target 0 k, nofun⟩, .refl calls _⟩
  | cons fd scratch ih =>
    obtain ⟨hfd, hopen⟩ := List.forall_mem_cons.mp hopen
    obtain ⟨hfdfar, hfar⟩ := List.forall_mem_cons.mp hfar
    simp only [List.length_cons, Nat.cast_succ] at hfdfar hfar
    have hne : target ≠ fd := by omega
    have hne' : ∀ fd' ∈ scratch, fd' ≠ target := by
      intro fd' hfd'
      have hle := hfar fd' hfd'
      omega
    refine Method.obeys_bind.mpr (records_dup2 hne ?_ ?_)
    · intro file hfile
      have hagain : (k.install target ⟨file, false⟩).install target ⟨file, false⟩ =
          k.install target ⟨file, false⟩ := by
        simp [Kernel.install]
      have htarget : (k.install target ⟨file, false⟩).fileAt target = some file := by
        rw [Kernel.fileAt_install, if_pos rfl]
      refine Method.obeys_bind.mpr (records_clearCloexec htarget ?_)
      rw [hagain]
      have hopen' : ∀ fd' ∈ scratch, (k.install target ⟨file, false⟩).fileAt fd' ≠ none := by
        intro fd' hfd'
        rw [Kernel.fileAt_install, if_neg (hne' fd' hfd')]
        exact hopen fd' hfd'
      have hfar' : ∀ fd' ∈ scratch, target + 1 + scratch.length ≤ fd' := by
        intro fd' hfd'
        have hle := hfar fd' hfd'
        omega
      have hnew : ∀ P : SysCall → Prop, P ⟨.dup2 fd target, .ok target⟩ →
          P ⟨.setCloexec target false, .ok ()⟩ → Adds calls (calls ++ [⟨.dup2 fd target, .ok target⟩] ++
            [⟨.setCloexec target false, .ok ()⟩]) P :=
        fun P hdup hclear => (Adds.one hdup).trans (.one hclear)
      refine (ih _ _ _ hopen' hfar').mono ?_ ?_
      · rintro _ s' r ⟨rfl, hplaced, hadds⟩
        exact ⟨rfl, hplaced.step hfile hne', (hnew SysCall.Quiet ⟨trivial, rfl⟩ ⟨trivial, rfl⟩).trans hadds⟩
      · rintro e s' r ⟨rfl, hrewrites, herrno, hadds, hdup⟩
        exact ⟨rfl, hrewrites.step, herrno, (hnew (fun call => call.copy? = none) rfl rfl).trans hadds, hdup⟩
    · intro e
      exact ⟨rfl, .refl target _ k, ⟨e, rfl⟩, .one rfl, _, List.mem_append_right _ (List.mem_singleton_self _),
        trivial, id⟩

structure Closes (scratch : List Int) (k k' : Kernel) : Prop where
  env : k'.env = k.env
  pid : k'.pid = k.pid
  closed : ∀ fd ∈ scratch, k'.table fd = none
  others : ∀ fd, fd ∉ scratch → k'.table fd = k.table fd

theorem records_closeAll (scratch : List Int) (s : σ) (k : Kernel) (calls : List SysCall)
    (hnodup : scratch.Nodup) (hopen : ∀ fd ∈ scratch, k.fileAt fd ≠ none) :
    Py.Records (closeAll scratch)
      (fun _ s' r => s' = s ∧ Closes scratch k r.1 ∧
        Adds calls r.2 SysCall.Quiet)
      (fun _ _ _ => False) s k calls := by
  induction scratch generalizing k calls with
  | nil => exact ⟨rfl, ⟨rfl, rfl, nofun, fun _ _ => rfl⟩, .refl calls _⟩
  | cons fd scratch ih =>
    obtain ⟨hnotMem, hnodup⟩ := List.nodup_cons.mp hnodup
    obtain ⟨hfd, hopen⟩ := List.forall_mem_cons.mp hopen
    obtain ⟨file, hfile⟩ := Option.ne_none_iff_exists'.mp hfd
    have hopen' : ∀ fd' ∈ scratch, (k.shut fd file).fileAt fd' ≠ none := by
      intro fd' hfd'
      have hne : fd' ≠ fd := fun heq => hnotMem (heq ▸ hfd')
      have hsame : (k.shut fd file).fileAt fd' = (k.remove fd).fileAt fd' := rfl
      rw [hsame, Kernel.fileAt_remove, if_neg hne]
      exact hopen fd' hfd'
    refine Method.obeys_bind.mpr (records_closeFd hfile ?_)
    refine (ih _ _ hnodup hopen').mono ?_ fun _ _ _ h => h
    rintro _ s' r ⟨rfl, hcloses, hadds⟩
    refine ⟨rfl, ⟨hcloses.env, hcloses.pid, ?_, ?_⟩, (Adds.one ⟨trivial, rfl⟩).trans hadds⟩
    · refine List.forall_mem_cons.mpr ⟨?_, hcloses.closed⟩
      rw [hcloses.others fd hnotMem]
      simp [Kernel.shut]
    · intro fd' hfd'
      obtain ⟨hne, hmem⟩ := not_or.mp (mt List.mem_cons.mpr hfd')
      rw [hcloses.others fd' hmem]
      simp [Kernel.shut, Function.update_of_ne hne]

structure Publishes (k k' : Kernel) : Prop where
  table : k'.table = k.table
  pid : k'.pid = k.pid
  env : ∀ name, name ∉ Activation.listenEnv → k'.env name = k.env name

structure Published (rt : Runtime) (count : Nat) (names : Option (List Str)) (k k' : Kernel) : Prop
    extends Publishes k k' where
  pidText : k'.env listenPidEnv = some (str (toString k.pid))
  countText : k'.env listenFdsEnv = some (str (toString (count : Int)))
  unnamed : names = none → k'.env listenFdnamesEnv = none
  named : ∀ ns ∈ names, ∃ text, environText rt ([fdnamesSeparator].intercalate ns) = .ok text ∧
    k'.env listenFdnamesEnv = some text

theorem Publishes.update (k : Kernel) (name : Str) (text : Option Str) (hname : name ∈ Activation.listenEnv) :
    Publishes k { k with env := Function.update k.env name text } where
  table := rfl
  pid := rfl
  env name' hname' := by
    have hne : name' ≠ name := fun heq => hname' (heq ▸ hname)
    exact Function.update_of_ne hne ..

theorem Publishes.trans {k k' k'' : Kernel} (h : Publishes k k') (h' : Publishes k' k'') : Publishes k k'' :=
  ⟨h'.table.trans h.table, h'.pid.trans h.pid, fun name hname => (h'.env name hname).trans (h.env name hname)⟩

theorem Publishes.records_setenv {rt : Runtime} {name value : Str} {k₀ : Kernel} {calls₀ : List SysCall}
    {ok : Unit → σ → Kernel × List SysCall → Prop} {err : PyErr → σ → Kernel × List SysCall → Prop}
    (h : Publishes k k₀) (hadds : Adds calls calls₀ SysCall.Quiet) (hname : name ∈ Activation.listenEnv)
    (hok : ∀ text calls', environText rt value = .ok text →
      Publishes k { k₀ with env := Function.update k₀.env name (some text) } →
      Adds calls calls' SysCall.Quiet →
      ok () s ({ k₀ with env := Function.update k₀.env name (some text) }, calls'))
    (herr : ∀ e, environText rt value = .error e → err e s (k₀, calls₀))
    (hfail : ∀ e calls', Adds calls calls' SysCall.Quiet → (∃ call ∈ calls', ¬ call.SetenvSucceeds) →
      err (.osError e) s (k₀, calls')) :
    Py.Records (setenv rt name value) ok err s k₀ calls₀ := by
  apply Mpsystemd.records_setenv
  · intro text htext
    exact hok text _ htext (h.trans (.update k₀ name (some text) hname)) (hadds.trans (.one ⟨trivial, rfl⟩))
  · exact herr
  · intro e text
    exact hfail e _ (hadds.trans (.one ⟨trivial, rfl⟩))
      ⟨_, List.mem_append_right _ (List.mem_singleton_self _), id⟩

theorem records_publish (rt : Runtime) (count : Nat) (names : Option (List Str)) (s : σ) (k : Kernel)
    (calls : List SysCall) :
    Py.Records (publish rt count names)
      (fun _ s' r => s' = s ∧ Published rt count names k r.1 ∧
        Adds calls r.2 SysCall.Quiet)
      (fun _ s' r => s' = s ∧ Publishes k r.1 ∧
        Adds calls r.2 SysCall.Quiet ∧
        ((∃ call ∈ r.2, ¬ call.SetenvSucceeds) ∨
          ∃ ns ∈ names, ∃ e, environText rt ([fdnamesSeparator].intercalate ns) = .error e)) s k calls := by
  have herror : ∀ i e, environText rt (str (toString (i : Int))) ≠ .error e := by
    intro i e
    rw [environText_decimal]
    exact nofun
  have hpub₀ : Publishes k k := ⟨rfl, rfl, fun _ _ => rfl⟩
  refine Method.obeys_bind.mpr (records_sys .getpid k.pid k (fun _ => rfl) ?_)
  have hadds₀ : Adds calls (calls ++ [⟨.getpid, k.pid⟩]) SysCall.Quiet := .one ⟨trivial, rfl⟩
  refine Method.obeys_bind.mpr (hpub₀.records_setenv hadds₀ (by decide) ?_
    (fun e he => absurd he (herror _ e)) fun e _ hadds hcall => ⟨rfl, hpub₀, hadds, .inl hcall⟩)
  intro pidText calls₁ hpidText hpub₁ hadds₁
  refine Method.obeys_bind.mpr (hpub₁.records_setenv hadds₁ (by decide) ?_
    (fun e he => absurd he (herror _ e)) fun e _ hadds hcall => ⟨rfl, hpub₁, hadds, .inl hcall⟩)
  intro countText calls₂ hcountText hpub₂ hadds₂
  rw [environText_decimal, Except.ok.injEq] at hpidText hcountText
  subst hpidText hcountText
  cases names with
  | none =>
    refine records_sys (.unsetenv listenFdnamesEnv) () _ (fun _ => rfl) ?_
    refine ⟨rfl, ⟨hpub₂.trans (.update _ listenFdnamesEnv none (by decide)), ?_, ?_, ?_, nofun⟩,
      hadds₂.trans (.one ⟨trivial, rfl⟩)⟩
    · simp +decide
    · simp +decide
    · simp +decide
  | some ns =>
    refine hpub₂.records_setenv hadds₂ (by decide) ?_ ?_ ?_
    · intro text calls₃ htext hpub₃ hadds₃
      refine ⟨rfl, ⟨hpub₃, ?_, ?_, nofun, ?_⟩, hadds₃⟩
      · simp +decide
      · simp +decide
      · intro ns' hns'
        cases hns'
        exact ⟨text, htext, by simp⟩
    · intro e he
      exact ⟨rfl, hpub₂, hadds₂, .inr ⟨ns, rfl, e, he⟩⟩
    · intro e calls₃ hadds₃ hcall
      exact ⟨rfl, hpub₂, hadds₃, .inl hcall⟩

/-- The `fds` have been assigned to the descriptors from `start` on, and no other
descriptor has changed. -/
structure Assigned (start : Int) (fds : List Int) (k k' : Kernel) : Prop
    extends Rewrites start fds.length k k' where
  inside : ∀ i (hi : i < fds.length), k.fileAt (fds[i]) ≠ none →
    k'.table (start + i) = (k.fileAt (fds[i])).map fun file => ⟨file, false⟩
  opened : ∀ fd : Int, start ≤ fd → fd < start + fds.length → k'.fileAt fd ≠ none

section Assignment

variable {start : Int} {fds copies : List Int} {k k₁ k₂ k₃ : Kernel}

theorem Copies.outside (h : Copies (start + fds.length) fds copies k k₁) {copy : Int} (hcopy : copy ∈ copies)
    (n : Nat) (hn : n = copies.length) : ¬ (start ≤ copy ∧ copy < start + n) := by
  have habove := h.above copy hcopy
  have hlength := h.files.length_eq
  omega

theorem Copies.opened_of_rewrites (h : Copies (start + fds.length) fds copies k k₁)
    (hrewrites : Rewrites start copies.length k₁ k₂) : ∀ copy ∈ copies, k₂.fileAt copy ≠ none := by
  intro copy hcopy
  have hsame := hrewrites.outside copy (h.outside hcopy _ rfl)
  rw [Kernel.fileAt, hsame]
  exact h.opened copy hcopy

theorem Copies.rewrites (h : Copies (start + fds.length) fds copies k k₁)
    (hrewrites : Rewrites start copies.length k₁ k₂) (hcloses : Closes copies k₂ k₃) :
    Rewrites start fds.length k k₃ where
  env := hcloses.env.trans (hrewrites.env.trans h.env)
  pid := hcloses.pid.trans (hrewrites.pid.trans h.pid)
  outside fd hfd := by
    have hlength := h.files.length_eq
    by_cases hmem : fd ∈ copies
    · rw [hcloses.closed fd hmem, h.fresh fd hmem]
    · rw [hcloses.others fd hmem, hrewrites.outside fd (by omega), h.others fd hmem]

theorem Copies.assigned (h : Copies (start + fds.length) fds copies k k₁) (hplaced : Placed start copies k₁ k₂)
    (hcloses : Closes copies k₂ k₃) : Assigned start fds k k₃ where
  toRewrites := h.rewrites hplaced.toRewrites hcloses
  inside i hi hopen := by
    have hlength := h.files.length_eq
    have hcopy : i < copies.length := hlength ▸ hi
    have hnotMem : start + (i : Int) ∉ copies := by
      intro hmem
      exact h.outside hmem _ rfl ⟨by omega, by omega⟩
    have hfile := (List.forall₂_iff_get.mp h.files).2 i hi hcopy hopen
    rw [hcloses.others _ hnotMem, hplaced.inside i hcopy]
    exact congrArg (Option.map fun file => (⟨file, false⟩ : Descriptor)) hfile
  opened fd hlo hhi := by
    have hlength := h.files.length_eq
    have hnotMem : fd ∉ copies := fun hmem => h.outside hmem _ rfl ⟨hlo, by omega⟩
    obtain ⟨i, rfl⟩ : ∃ i : Nat, fd = start + i := ⟨(fd - start).toNat, by omega⟩
    have hi : i < copies.length := by omega
    have hcopy := h.opened (copies[i]) (List.getElem_mem hi)
    rw [Kernel.fileAt, hcloses.others _ hnotMem, hplaced.inside i hi, Option.map_map]
    simpa using hcopy

end Assignment

/-- What `install_listen_fds` does once the scratch copies are made. -/
def assignCopies (rt : Runtime) (fds copies : List Fd) (names : Option (List Str)) (start : Fd) :
    Py σ (List Fd) := do
  Method.ensuring (place start copies) (closeAll copies)
  publish rt fds.length names
  return range start (start + fds.length)

theorem records_assignCopies (rt : Runtime) (names : Option (List Str)) {start : Int} {fds copies : List Int}
    {k k₁ : Kernel} (s : σ) (calls : List SysCall) (hcopies : Copies (start + fds.length) fds copies k k₁) :
    Py.Records (assignCopies rt fds copies names start)
      (fun r s' after => r = range start (start + fds.length) ∧ s' = s ∧
        (∃ k₂, Assigned start fds k k₂ ∧ Published rt fds.length names k₂ after.1) ∧
        Adds calls after.2 SysCall.Quiet)
      (fun e s' after => s' = s ∧
        ((∃ errno, e = .osError errno) ∧ Rewrites start fds.length k after.1 ∧
            (∀ copy ∈ copies, after.1.table copy = none) ∧
            Adds calls after.2 (fun call => call.copy? = none) ∧
            (∃ call ∈ after.2, call.IsDup2 ∧ ¬ call.MoveSucceeds) ∨
          (∃ k₂, Assigned start fds k k₂ ∧ Publishes k₂ after.1) ∧ Adds calls after.2 SysCall.Quiet ∧
            ((∃ call ∈ after.2, ¬ call.SetenvSucceeds) ∨
              ∃ ns ∈ names, ∃ e, environText rt ([fdnamesSeparator].intercalate ns) = .error e))) s k₁ calls := by
  have hfar : ∀ copy ∈ copies, start + copies.length ≤ copy := by
    intro copy hcopy
    have habove := hcopies.above copy hcopy
    have hlength := hcopies.files.length_eq
    omega
  refine Method.obeys_bind.mpr (Method.obeys_ensuring.mpr ?_)
  refine (records_place copies start s k₁ calls hcopies.opened hfar).mono ?_ ?_
  · rintro _ s' ⟨k₂, calls₂⟩ ⟨rfl, hplaced, hadds⟩
    have hopen := hcopies.opened_of_rewrites hplaced.toRewrites
    refine (records_closeAll copies s' k₂ calls₂ hcopies.nodup hopen).mono ?_ fun _ _ _ h => h.elim
    rintro _ s' ⟨k₃, calls₃⟩ ⟨rfl, hcloses, hadds'⟩
    have hassigned := hcopies.assigned hplaced hcloses
    refine Method.obeys_bind.mpr ((records_publish rt fds.length names s' k₃ calls₃).mono ?_ ?_)
    · rintro _ s' ⟨k₄, calls₄⟩ ⟨rfl, hpublished, hadds''⟩
      exact ⟨rfl, rfl, ⟨k₃, hassigned, hpublished⟩, (hadds.trans hadds').trans hadds''⟩
    · rintro e s' ⟨k₄, calls₄⟩ ⟨rfl, hpublishes, hadds'', hcause⟩
      exact ⟨rfl, .inr ⟨⟨k₃, hassigned, hpublishes⟩, (hadds.trans hadds').trans hadds'', hcause⟩⟩
  · rintro e s' ⟨k₂, calls₂⟩ ⟨rfl, hrewrites, herrno, hadds, call, hcall, hdup⟩
    have hopen := hcopies.opened_of_rewrites hrewrites
    refine (records_closeAll copies s' k₂ calls₂ hcopies.nodup hopen).mono ?_ fun _ _ _ h => h.elim
    rintro _ s' ⟨k₃, calls₃⟩ ⟨rfl, hcloses, hadds'⟩
    refine ⟨rfl, .inl ⟨herrno, hcopies.rewrites hrewrites hcloses, hcloses.closed,
      hadds.trans (hadds'.mono fun _ h => h.2), call, ?_, hdup⟩⟩
    obtain ⟨new, hnew, _⟩ := hadds'
    rw [hnew]
    exact List.mem_append_left _ hcall

end Rules

def Kernel.Open (k : Kernel) (fd : Fd) : Prop := 0 ≤ fd ∧ k.fileAt fd ≠ none

theorem installListenFds_eq (rt : Runtime) (fds : List Fd) {names : Option (List Str)} (start : Fd)
    (hnames : ∀ ns ∈ names, ns.length = fds.length) :
    (installListenFds rt fds names start : Py σ (List Fd)) =
      dupAllAbove rt (start + fds.length) fds >>= fun copies => assignCopies rt fds copies names start := by
  have hlineUp : ¬ names.any (·.length ≠ fds.length) = true := by
    cases names with
    | none => simp
    | some ns => simp [hnames ns rfl]
  rw [installListenFds, if_neg hlineUp]
  rfl

theorem SysCall.IsCopy.moveSucceeds {call : SysCall} (h : call.IsCopy) : call.MoveSucceeds := by
  obtain ⟨fd, minfd, copy, rfl⟩ := h
  trivial

theorem records_installListenFds (rt : Runtime) {fds : List Int} {names : Option (List Str)} (start : Int)
    (s : σ) (k : Kernel) (hnames : ∀ ns ∈ names, ns.length = fds.length) :
    Py.Records (installListenFds rt fds names start)
      (fun r s' after => r = range start (start + fds.length) ∧ s' = s ∧
        ∃ k₂, Assigned start fds k k₂ ∧ Published rt fds.length names k₂ after.1)
      (fun _ _ after => (∃ call ∈ after.2, ¬ call.MoveSucceeds) ∨ (∃ fd ∈ fds, fd < 0) ∨
        (∃ k₂, Assigned start fds k k₂ ∧ Publishes k₂ after.1) ∧
          ((∃ call ∈ after.2, ¬ call.SetenvSucceeds) ∨
            ∃ ns ∈ names, ∃ e, environText rt ([fdnamesSeparator].intercalate ns) = .error e)) s k [] := by
  rw [installListenFds_eq rt fds start hnames]
  refine Method.obeys_bind.mpr ((records_dupAllAbove rt (start + fds.length) fds s k []).mono ?_ ?_)
  · rintro copies s' ⟨k₁, calls⟩ ⟨rfl, hcopies, _⟩
    refine (records_assignCopies rt names s' calls hcopies).mono ?_ ?_
    · rintro r s' after ⟨hr, hs', hk₂, _⟩
      exact ⟨hr, hs', hk₂⟩
    · rintro e s' after ⟨_, ⟨_, _, _, _, call, hcall, _, hfails⟩ | ⟨hk₂, _, hcause⟩⟩
      · exact .inl ⟨call, hcall, hfails⟩
      · exact .inr (.inr ⟨hk₂, hcause⟩)
  · rintro e s' after ⟨_, _, new, hnew, _, ⟨hneg, _⟩ | ⟨_, call, hcall, hfails⟩⟩
    · exact .inr (.inl hneg)
    · exact .inl ⟨call, by rw [hnew]; exact hcall, hfails⟩

/-- When its calls succeed, `install_listen_fds` assigns the open descriptors it
is given to the target range, all at once: it returns the range, unless the
environment refuses a text, and changes no other descriptor. -/
theorem install_assigns (rt : Runtime) (fds : List Fd) (names : Option (List Str)) (start : Fd) (s : σ)
    (w : World) (hopen : ∀ fd ∈ fds, w.kernel.Open fd) (hnames : ∀ ns ∈ names, ns.length = fds.length)
    (hcalls : ∀ call ∈ (installListenFds rt fds names start).trace s w, call.MoveSucceeds) :
    let after := (installListenFds rt fds names start).run s w
    (∀ i (hi : i < fds.length), ∃ file, w.kernel.fileAt (fds[i]) = some file ∧
      after.2.kernel.table (start + i) = some ⟨file, false⟩) ∧
    (∀ fd, ¬ (start ≤ fd ∧ fd < start + fds.length) → after.2.kernel.table fd = w.kernel.table fd) ∧
    (∀ r, after.1.1 = .ok r → r = range start (start + fds.length)) ∧
    ((∀ call ∈ (installListenFds rt fds names start).trace s w, call.SetenvSucceeds) →
      (∀ ns ∈ names, ∃ text, environText rt ([fdnamesSeparator].intercalate ns) = .ok text) →
      after.1.1 = .ok (range start (start + fds.length))) := by
  intro after
  have hpost := (records_installListenFds rt start s w.kernel hnames).run
  rw [List.nil_append] at hpost
  change Method.outcome _ _ after.1 (after.2.kernel, _) at hpost
  clear_value after
  obtain ⟨⟨result, s'⟩, w'⟩ := after
  have hassigned : ∀ k₂, Assigned start fds w.kernel k₂ → w'.kernel.table = k₂.table →
      (∀ i (hi : i < fds.length), ∃ file, w.kernel.fileAt (fds[i]) = some file ∧
        w'.kernel.table (start + i) = some ⟨file, false⟩) ∧
      ∀ fd, ¬ (start ≤ fd ∧ fd < start + fds.length) → w'.kernel.table fd = w.kernel.table fd := by
    intro k₂ hassigned htable
    refine ⟨fun i hi => ?_, fun fd hfd => ?_⟩
    · have hfd := (hopen _ (List.getElem_mem hi)).2
      obtain ⟨file, hfile⟩ := Option.ne_none_iff_exists'.mp hfd
      refine ⟨file, hfile, ?_⟩
      rw [htable, hassigned.inside i hi hfd, hfile]
      rfl
    · rw [htable]
      exact hassigned.outside fd hfd
  cases result with
  | ok r =>
    obtain ⟨rfl, _, k₂, hk₂, hpublished⟩ := hpost
    obtain ⟨hinside, houtside⟩ := hassigned k₂ hk₂ hpublished.table
    exact ⟨hinside, houtside, fun r hr => (Except.ok.inj hr).symm, fun _ _ => rfl⟩
  | error e =>
    rcases hpost with ⟨call, hcall, hfails⟩ | ⟨fd, hfd, hneg⟩ | ⟨⟨k₂, hk₂, hpublishes⟩, hcause⟩
    · exact absurd (hcalls call hcall) hfails
    · exact absurd (hopen fd hfd).1 (not_le.mpr hneg)
    · obtain ⟨hinside, houtside⟩ := hassigned k₂ hk₂ hpublishes.table
      refine ⟨hinside, houtside, fun r hr => (nomatch hr), fun hsetenv htexts => ?_⟩
      rcases hcause with ⟨call, hcall, hfails⟩ | ⟨ns, hns, e', he'⟩
      · exact absurd (hsetenv call hcall) hfails
      · obtain ⟨text, htext⟩ := htexts ns hns
        rw [htext] at he'
        cases he'

def twoOpen : World where
  kernel := (Kernel.bare.install 3 ⟨.other 0, true⟩).install 4 ⟨.other 1, true⟩
  choices _ := ⟨none, 0, 0, 0, 0⟩

theorem install_assigns_swap :
    let after := ((installListenFds .unixPort [4, 3] none 3).run () twoOpen).2.kernel
    after.table 3 = some ⟨.other 1, false⟩ ∧ after.table 4 = some ⟨.other 0, false⟩ := by
  have hopen : ∀ fd ∈ ([4, 3] : List Fd), twoOpen.kernel.Open fd := by
    simp only [List.forall_mem_cons]
    exact ⟨⟨by decide, by decide⟩, ⟨by decide, by decide⟩, nofun⟩
  have hcalls : ∀ call ∈ (installListenFds .unixPort [4, 3] none 3).trace () twoOpen, call.MoveSucceeds := by
    decide
  obtain ⟨hinside, _, _, _⟩ := install_assigns .unixPort [4, 3] none 3 () twoOpen hopen nofun hcalls
  obtain ⟨file, hfile, htable⟩ := hinside 0 (by decide)
  obtain ⟨file', hfile', htable'⟩ := hinside 1 (by decide)
  cases hfile
  cases hfile'
  exact ⟨htable, htable'⟩

end Mpsystemd
