import Mpsystemd.Install

/-! What a call of `install_listen_fds` that fails leaves behind. -/

namespace Mpsystemd

variable {σ : Type}

/-- Nothing is left of a failed call but what its `dup2`s wrote to the target range. -/
structure CleanFailure (start : Int) (n : Nat) (calls : List SysCall) (k k' : Kernel) : Prop where
  closed : ∀ call ∈ calls, ∀ copy ∈ call.copy?, k'.table copy = none
  outside : ∀ fd : Int, ¬ (start ≤ fd ∧ fd < start + n) → k'.table fd = k.table fd
  untouched : (∀ call ∈ calls, ¬ call.IsDup2) → k'.table = k.table
  listen : ∀ name ∈ Activation.listenEnv, k'.env name = k.env name

theorem SysCall.DupFails.not_moveSucceeds {call : SysCall} (h : call.DupFails) : ¬ call.MoveSucceeds := by
  obtain ⟨op, reply⟩ := call
  cases op with
  | dupAbove fd minfd =>
    cases reply with
    | ok copy => exact h.elim
    | error e => exact id
  | dup2 oldfd newfd =>
    cases reply with
    | ok fd => exact h.elim
    | error e => exact id
  | _ => exact h.elim

section Failure

variable {rt : Runtime} {fds : List Int} {names : Option (List Str)} {start : Int} {s : σ} {w : World}

theorem Adds.mem {calls calls' : List SysCall} {P : SysCall → Prop} (h : Adds calls calls' P) {call : SysCall}
    (hcall : call ∈ calls') : call ∈ calls ∨ P call := by
  obtain ⟨new, rfl, hnew⟩ := h
  exact (List.mem_append.mp hcall).imp_right (hnew call)

theorem clean_of_copies {copies : List Int} {s₁ : σ} {w₁ : World} (hnames : ∀ ns ∈ names, ns.length = fds.length)
    (hfail : ∃ call ∈ (installListenFds rt fds names start).trace s w, call.DupFails)
    (hcopies : (dupAllAbove rt (start + fds.length) fds).run s w = ((.ok copies, s₁), w₁)) :
    (∃ errno, ((installListenFds rt fds names start).run s w).1.1 = .error (.osError errno)) ∧
      CleanFailure start fds.length ((installListenFds rt fds names start).trace s w) w.kernel
        ((installListenFds rt fds names start).run s w).2.kernel := by
  have hrun : (installListenFds rt fds names start).run s w =
      (assignCopies rt fds copies names start).run s₁ w₁ := by
    rw [installListenFds_eq rt fds start hnames]
    exact Method.run_bind_ok hcopies
  have htrace : (installListenFds rt fds names start).trace s w =
      (dupAllAbove rt (start + fds.length) fds).trace s w ++
        (assignCopies rt fds copies names start).trace s₁ w₁ := by
    rw [installListenFds_eq rt fds start hnames]
    exact Method.trace_bind_ok hcopies
  have hmade := (records_dupAllAbove rt (start + fds.length) fds s w.kernel []).run
  rw [hcopies] at hmade
  obtain ⟨rfl, hcopied, new, hnew, hmap, hall⟩ := hmade
  replace hnew : (dupAllAbove rt (start + fds.length) fds).trace s₁ w = new := hnew
  have hpost := (records_assignCopies rt names s₁ new hcopied).run
  rw [hnew] at htrace
  rw [← htrace, ← hrun] at hpost
  clear hrun htrace
  generalize (installListenFds rt fds names start).trace s₁ w = calls at hfail hpost ⊢
  -- The copies succeeded, so what failed is a `dup2`.
  have hloud : ¬ Adds new calls SysCall.Quiet := by
    intro hadds
    obtain ⟨call, hcall, hfails⟩ := hfail
    rcases hadds.mem hcall with hmem | hquiet
    · exact hfails.not_moveSucceeds (hall call hmem).moveSucceeds
    · exact hfails.not_moveSucceeds hquiet.1
  generalize (installListenFds rt fds names start).run s₁ w = after at hpost ⊢
  obtain ⟨⟨result, s'⟩, w'⟩ := after
  cases result with
  | ok r => exact absurd hpost.2.2.2 hloud
  | error e =>
    rcases hpost with ⟨_, ⟨⟨errno, rfl⟩, hrewrites, hclosed, hadds, call, hcall, hdup, _⟩ | ⟨_, hadds, _⟩⟩
    · refine ⟨⟨errno, rfl⟩, ⟨?_, hrewrites.outside, fun hnone => absurd hdup (hnone call hcall), ?_⟩⟩
      · intro call hcall copy hcopy
        rcases hadds.mem hcall with hmem | hnone
        · exact hclosed copy (hmap ▸ List.mem_filterMap.mpr ⟨call, hmem, hcopy⟩)
        · rw [hnone] at hcopy
          cases hcopy
      · exact fun name _ => congrFun hrewrites.env name
    · exact absurd hadds hloud

theorem installListenFds_refused {e : PyErr} {s₁ : σ} {w₁ : World} (hnames : ∀ ns ∈ names, ns.length = fds.length)
    (hcopies : (dupAllAbove rt (start + fds.length) fds).run s w = ((.error e, s₁), w₁)) :
    (installListenFds rt fds names start).run s w = ((.error e, s₁), w₁) ∧
      (installListenFds rt fds names start).trace s w = (dupAllAbove rt (start + fds.length) fds).trace s w := by
  rw [installListenFds_eq rt fds start hnames]
  exact ⟨Method.run_bind_error hcopies, Method.trace_bind_error hcopies⟩

theorem dupAllAbove_failed {minfd : Int} {e : PyErr} {s₁ : σ} {w₁ : World}
    (hfail : ∃ call ∈ (dupAllAbove rt minfd fds).trace s w, call.DupFails)
    (hcopies : (dupAllAbove rt minfd fds).run s w = ((.error e, s₁), w₁)) : ∃ errno, e = .osError errno := by
  have hmade := (records_dupAllAbove rt minfd fds s w.kernel []).run
  rw [hcopies, List.nil_append] at hmade
  obtain ⟨_, _, new, hnew, _, ⟨_, hall⟩ | ⟨herrno, _⟩⟩ := hmade
  · obtain ⟨call, hcall, hfails⟩ := hfail
    replace hnew : (dupAllAbove rt minfd fds).trace s w = new := hnew
    rw [hnew] at hcall
    exact absurd (hall call hcall) hfails.not_moveSucceeds
  · exact herrno

theorem dupAbove_failed {fd minfd : Fd} {e : PyErr} {s₁ : σ} {w₁ : World}
    (h : (dupAbove rt fd minfd).run s w = ((.error e, s₁), w₁)) :
    w₁.kernel = w.kernel ∧ ((dupAbove rt fd minfd).trace s w = [] ∨
      ∃ errno, e = .osError errno ∧
        (dupAbove rt fd minfd).trace s w = [⟨.dupAbove fd minfd, .error errno⟩]) := by
  have hrecords : Py.Records (dupAbove rt fd minfd) (fun _ _ _ => True)
      (fun e _ r => r.1 = w.kernel ∧ (r.2 = [] ∨
        ∃ errno, e = .osError errno ∧ r.2 = [⟨.dupAbove fd minfd, .error errno⟩])) s w.kernel [] := by
    apply records_dupAbove
    · exact fun _ _ _ _ _ => trivial
    · exact fun errno => ⟨rfl, .inr ⟨errno, rfl, rfl⟩⟩
    · exact fun _ _ => ⟨rfl, .inl rfl⟩
  have hpost := hrecords.run
  rw [h, List.nil_append] at hpost
  exact hpost

theorem clean_of_first {fd : Int} {rest : List Int} {e : PyErr} {s₁ : σ} {w₁ : World}
    (hnames : ∀ ns ∈ names, ns.length = fds.length)
    (hfail : ∃ call ∈ (installListenFds rt fds names start).trace s w, call.DupFails)
    (hfds : fds = fd :: rest)
    (hfirst : (dupAbove rt fd (start + fds.length)).run s w = ((.error e, s₁), w₁)) :
    (∃ errno, ((installListenFds rt fds names start).run s w).1.1 = .error (.osError errno)) ∧
      CleanFailure start fds.length ((installListenFds rt fds names start).trace s w) w.kernel
        ((installListenFds rt fds names start).run s w).2.kernel := by
  have hcopies : (dupAllAbove rt (start + fds.length) fds).run s w = ((.error e, s₁), w₁) := by
    generalize start + (fds.length : Int) = minfd at hfirst
    rw [hfds]
    exact Method.run_bind_error hfirst
  have hcopiesTrace : (dupAllAbove rt (start + fds.length) fds).trace s w =
      (dupAbove rt fd (start + fds.length)).trace s w := by
    generalize start + (fds.length : Int) = minfd at hfirst
    rw [hfds]
    exact Method.trace_bind_error hfirst
  obtain ⟨hrun, htrace⟩ := installListenFds_refused hnames hcopies
  rw [hcopiesTrace] at htrace
  obtain ⟨hkernel, hcalls⟩ := dupAbove_failed hfirst
  rw [htrace, hrun]
  obtain ⟨call, hcall, hfails⟩ := hfail
  rw [htrace] at hcall
  rcases hcalls with hnone | ⟨errno, rfl, hone⟩
  · rw [hnone] at hcall
    cases hcall
  · rw [hone]
    refine ⟨⟨errno, rfl⟩, ⟨?_, fun _ _ => by rw [hkernel], fun _ => by rw [hkernel], fun _ _ => by rw [hkernel]⟩⟩
    exact List.forall_mem_singleton.mpr nofun

theorem dupAbove_made {fd minfd copy : Int} {s₁ : σ} {w₁ : World}
    (h : (dupAbove rt fd minfd).run s w = ((.ok copy, s₁), w₁)) :
    minfd ≤ copy ∧ w.kernel.table copy = none ∧ w₁.kernel.table copy ≠ none := by
  have hrecords : Py.Records (dupAbove rt fd minfd)
      (fun (copy : Int) _ r => minfd ≤ copy ∧ w.kernel.table copy = none ∧ r.1.table copy ≠ none)
      (fun _ _ _ => True) s w.kernel [] := by
    apply records_dupAbove
    · exact fun copy file _ hmin hfree => ⟨hmin, hfree, by simp⟩
    · exact fun _ => trivial
    · exact fun _ _ => trivial
  have hpost := hrecords.run
  rw [h] at hpost
  exact hpost

/-- A failure closes none of the copies that were made before. -/
theorem kept_of_later {fd minfd copy : Int} {rest : List Int} {e : PyErr} {s₁ s₂ : σ} {w₁ w₂ : World}
    (hfirst : (dupAbove rt fd minfd).run s w = ((.ok copy, s₁), w₁))
    (hcopies : (dupAllAbove rt minfd (fd :: rest)).run s w = ((.error e, s₂), w₂))
    (hopen : w₁.kernel.table copy ≠ none) : w₂.kernel.table copy ≠ none := by
  have hrest : Py.Records (dupAllAbove rt minfd rest >>= fun copies => pure (copy :: copies))
      (fun _ _ _ => True) (fun _ _ r => r.1.table copy ≠ none) s₁ w₁.kernel [] := by
    refine Method.obeys_bind.mpr ((records_dupAllAbove rt minfd rest s₁ w₁.kernel []).mono ?_ ?_)
    · exact fun _ _ _ _ => trivial
    · rintro _ _ r ⟨_, ⟨done, copies, hdone⟩, _⟩
      have hnotMem : copy ∉ copies := fun hmem => hopen (hdone.fresh copy hmem)
      rwa [hdone.others copy hnotMem]
  have hpost := hrest.run
  have hlater : (dupAllAbove rt minfd rest >>= fun copies => pure (copy :: copies)).run s₁ w₁ =
      ((.error e, s₂), w₂) := by
    rw [← hcopies]
    exact (Method.run_bind_ok (f := fun copy =>
      dupAllAbove rt minfd rest >>= fun copies => pure (copy :: copies)) hfirst).symm
  rw [hlater] at hpost
  exact hpost

theorem leak_of_later {fd copy : Int} {rest : List Int} {e : PyErr} {s₁ s₂ : σ} {w₁ w₂ : World}
    (hnames : ∀ ns ∈ names, ns.length = fds.length)
    (hfail : ∃ call ∈ (installListenFds rt fds names start).trace s w, call.DupFails)
    (hfds : fds = fd :: rest)
    (hfirst : (dupAbove rt fd (start + fds.length)).run s w = ((.ok copy, s₁), w₁))
    (hcopies : (dupAllAbove rt (start + fds.length) fds).run s w = ((.error e, s₂), w₂)) :
    (∃ errno, ((installListenFds rt fds names start).run s w).1.1 = .error (.osError errno)) ∧
      ¬ CleanFailure start fds.length ((installListenFds rt fds names start).trace s w) w.kernel
        ((installListenFds rt fds names start).run s w).2.kernel := by
  obtain ⟨hrun, htrace⟩ := installListenFds_refused hnames hcopies
  rw [htrace] at hfail
  rw [hrun]
  constructor
  · obtain ⟨errno, rfl⟩ := dupAllAbove_failed hfail hcopies
    exact ⟨errno, rfl⟩
  · intro hclean
    obtain ⟨hmin, hfree, hopen⟩ := dupAbove_made hfirst
    rw [hfds] at hcopies hfirst
    have hkept := kept_of_later hfirst hcopies hopen
    -- The copy is above the target range, where nothing may have changed.
    have hsame := hclean.outside copy (by omega)
    exact hkept (hsame.trans hfree)

end Failure

/-- When a `dup_above` or a `dup2` fails, `install_listen_fds` raises. It leaves
nothing behind exactly when it could make all the scratch copies, or not even
the first one. -/
theorem failed_install_clean_iff (rt : Runtime) (fds : List Fd) (names : Option (List Str)) (start : Fd)
    (s : σ) (w : World)
    (hfail : ∃ call ∈ (installListenFds rt fds names start).trace s w, call.DupFails) :
    (∃ errno, ((installListenFds rt fds names start).run s w).1.1 = .error (.osError errno)) ∧
      (CleanFailure start fds.length ((installListenFds rt fds names start).trace s w) w.kernel
          ((installListenFds rt fds names start).run s w).2.kernel ↔
        (∃ copies, ((dupAllAbove rt (start + fds.length) fds).run s w).1.1 = .ok copies) ∨
          ∃ fd ∈ fds.head?, ∃ e, ((dupAbove rt fd (start + fds.length)).run s w).1.1 = .error e) := by
  -- Names that do not line up raise before the first call.
  have hnames : ∀ ns ∈ names, ns.length = fds.length := by
    by_contra hnames
    have hraise : (installListenFds rt fds names start : Py σ (List Fd)) =
        Method.raise (.valueError "names must line up with fds" []) := by
      cases names with
      | none => simp at hnames
      | some ns =>
        have hne : ns.length ≠ fds.length := by simpa using hnames
        rw [installListenFds, if_pos (by simpa using hne)]
    obtain ⟨call, hcall, _⟩ := hfail
    rw [hraise] at hcall
    cases hcall
  rcases hcopies : (dupAllAbove rt (start + fds.length) fds).run s w with ⟨⟨result, s₂⟩, w₂⟩
  cases result with
  | ok copies =>
    obtain ⟨hraises, hclean⟩ := clean_of_copies hnames hfail hcopies
    exact ⟨hraises, iff_of_true hclean (.inl ⟨copies, rfl⟩)⟩
  | error e =>
    cases hfds : fds with
    | nil =>
      rw [hfds] at hcopies
      cases hcopies
    | cons fd rest =>
      rw [← hfds]
      rcases hfirst : (dupAbove rt fd (start + fds.length)).run s w with ⟨⟨result', s₁⟩, w₁⟩
      cases result' with
      | ok copy =>
        obtain ⟨hraises, hleak⟩ := leak_of_later hnames hfail hfds hfirst hcopies
        refine ⟨hraises, iff_of_false hleak ?_⟩
        rintro (⟨copies, hok⟩ | ⟨fd', hfd', e', he'⟩)
        · cases hok
        · rw [hfds] at hfd'
          cases hfd'
          rw [hfirst] at he'
          cases he'
      | error e' =>
        obtain ⟨hraises, hclean⟩ := clean_of_first hnames hfail hfds hfirst
        refine ⟨hraises, iff_of_true hclean (.inr ⟨fd, by simp [hfds], e', ?_⟩)⟩
        rw [hfirst]

/-- The copy of descriptor 4 stays open when descriptor 7 turns out to be closed. -/
theorem failed_install_leaks :
    (∃ call ∈ (installListenFds .unixPort [4, 7] none 3).trace () twoOpen, call.DupFails) ∧
      ¬ CleanFailure 3 2 ((installListenFds .unixPort [4, 7] none 3).trace () twoOpen) twoOpen.kernel
        ((installListenFds .unixPort [4, 7] none 3).run () twoOpen).2.kernel := by
  refine ⟨by decide, fun hclean => ?_⟩
  have hsame := hclean.outside 5 (by decide)
  exact absurd hsame (by decide)

theorem failed_install_clean_iff_first :
    CleanFailure 3 2 ((installListenFds .unixPort [7, 4] none 3).trace () twoOpen) twoOpen.kernel
      ((installListenFds .unixPort [7, 4] none 3).run () twoOpen).2.kernel := by
  have hiff := failed_install_clean_iff .unixPort [7, 4] none 3 () twoOpen (by decide)
  exact hiff.2.mpr (.inr ⟨7, rfl, .osError Errno.badf, rfl⟩)

end Mpsystemd
