import Mpsystemd.Environment
import Mpsystemd.KernelRules

/-! The calls of a run, and the rules of the platform with the calls recorded. -/

namespace Mpsystemd

variable {σ : Type}

abbrev SysCall : Type := Prog.Call Sys Sys.Reply

namespace SysCall

def DupFails : SysCall → Prop
  | ⟨.dupAbove _ _, .error _⟩ => True
  | ⟨.dup2 _ _, .error _⟩ => True
  | _ => False

instance : DecidablePred DupFails := fun call => by
  unfold DupFails
  split <;> infer_instance

def IsDup2 : SysCall → Prop
  | ⟨.dup2 _ _, _⟩ => True
  | _ => False

/-- Not a `dup_above`, `dup2`, `clear_cloexec` or `close` that fails. -/
def MoveSucceeds : SysCall → Prop
  | ⟨.dupAbove _ _, .error _⟩ => False
  | ⟨.dup2 _ _, .error _⟩ => False
  | ⟨.setCloexec _ _, .error _⟩ => False
  | ⟨.close _, .error _⟩ => False
  | _ => True

instance : DecidablePred MoveSucceeds := fun call => by
  unfold MoveSucceeds
  split <;> infer_instance

def SetenvSucceeds : SysCall → Prop
  | ⟨.setenv _ _, .error _⟩ => False
  | _ => True

def copy? : SysCall → Option Fd
  | ⟨.dupAbove _ _, .ok fd⟩ => some fd
  | _ => none

/-- A call that moves no descriptor in vain and makes no copy. -/
def Quiet (call : SysCall) : Prop := call.MoveSucceeds ∧ call.copy? = none

end SysCall

def Py.trace {α : Type} (m : Py σ α) (s : σ) (w : World) : List SysCall := Method.trace World.perform m s w

/-- `Py.Ends` with the calls made so far. -/
abbrev Py.Records (m : Py σ α) (ok : α → σ → Kernel × List SysCall → Prop)
    (err : PyErr → σ → Kernel × List SysCall → Prop) (s : σ) (k : Kernel) (calls : List SysCall) : Prop :=
  m.Obeys Kernel.contract.recorded ok err s (k, calls)

theorem Py.Records.run {m : Py σ α} {ok : α → σ → Kernel × List SysCall → Prop}
    {err : PyErr → σ → Kernel × List SysCall → Prop} {s : σ} {w : World} {calls : List SysCall}
    (h : Py.Records m ok err s w.kernel calls) :
    Method.outcome ok err (m.run s w).1 ((m.run s w).2.kernel, calls ++ m.trace s w) := by
  obtain ⟨k', hpost, hk⟩ := Method.Obeys.run_recorded Kernel.honouredBy_world h rfl
  rw [← hk] at hpost
  exact hpost

/-- A world answers each call in one way. -/
def World.contract : Prog.Contract Sys Sys.Reply World :=
  ⟨fun _ _ => True, fun w op reply w' => w.perform op = (reply, w')⟩

/-- The world with the kernel `k`, after `n` calls. -/
def World.after (w : World) (n : Nat) (k : Kernel) : World := ⟨k, fun i => w.choices (i + n)⟩

/-- The method ends in `ok` or `err` in the world `w`, with the calls made so far. -/
abbrev Py.Follows {α : Type} (m : Py σ α) (ok : α → σ → World × List SysCall → Prop)
    (err : PyErr → σ → World × List SysCall → Prop) (s : σ) (w : World) (calls : List SysCall) : Prop :=
  m.Obeys World.contract.recorded ok err s (w, calls)

theorem World.honouredBy_self : World.contract.HonouredBy World.perform Eq :=
  fun _ _ _ hw _ => ⟨_, congrArg _ hw, rfl⟩

theorem Py.Follows.run {α : Type} {m : Py σ α} {ok : α → σ → World × List SysCall → Prop}
    {err : PyErr → σ → World × List SysCall → Prop} {s : σ} {w : World} {calls : List SysCall}
    (h : Py.Follows m ok err s w calls) :
    Method.outcome ok err (m.run s w).1 ((m.run s w).2, calls ++ m.trace s w) := by
  obtain ⟨w', hpost, hw⟩ := Method.Obeys.run_recorded World.honouredBy_self h rfl
  rw [hw] at hpost
  exact hpost

theorem Py.ends_of_follows {α : Type} {m : Py σ α} {ok : α → σ → Kernel → Prop} {err : PyErr → σ → Kernel → Prop}
    {s : σ} {k : Kernel} (h : ∀ choices, Py.Follows m (fun a s' final => ok a s' final.1.kernel)
      (fun e s' final => err e s' final.1.kernel) s ⟨k, choices⟩ []) : Py.Ends m ok err s k := by
  refine Py.ends_iff_run.mpr fun choices => ?_
  have hpost := (h choices).run
  generalize (m.run s ⟨k, choices⟩).1 = final at hpost ⊢
  obtain ⟨result, s'⟩ := final
  cases result with
  | ok a => exact hpost
  | error e => exact hpost

theorem follows_sys {s : σ} {w : World} {calls : List SysCall} {op : Sys} {reply : op.Reply} {k' : Kernel}
    {ok : op.Reply → σ → World × List SysCall → Prop} {err : PyErr → σ → World × List SysCall → Prop}
    (h : w.kernel.perform (w.choices 0) op = (reply, k'))
    (hok : ok reply s (w.after 1 k', calls ++ [⟨op, reply⟩])) : Py.Follows (sys op) ok err s w calls := by
  refine Method.obeys_call.mpr ⟨trivial, ?_⟩
  rintro reply' ⟨w', _⟩ ⟨hw, rfl⟩
  have hw : w.perform op = (reply', w') := hw
  rw [World.perform, h] at hw
  cases hw
  exact hok

theorem follows_attempt {α : Type} {s : σ} {w : World} {calls : List SysCall} (op : Sys)
    (x : op.Reply → Except Errno α) (act : Except Errno (α × Kernel)) {ok : α → σ → World × List SysCall → Prop}
    {err : PyErr → σ → World × List SysCall → Prop}
    (hperform : x (w.kernel.perform (w.choices 0) op).1 = ((w.choices 0).attempt id w.kernel act).1 ∧
      (w.kernel.perform (w.choices 0) op).2 = ((w.choices 0).attempt id w.kernel act).2)
    (hok : ∀ a k' reply, (w.choices 0).error = none → act = .ok (a, k') → x reply = .ok a →
      ok a s (w.after 1 k', calls ++ [⟨op, reply⟩]))
    (herr : ∀ e reply, (w.choices 0).error = some e ∨ act = .error e → x reply = .error e →
      err (.osError e) s (w.after 1 w.kernel, calls ++ [⟨op, reply⟩])) :
    Py.Follows (sys op >>= fun reply => Method.lift (check (x reply))) ok err s w calls := by
  refine Method.obeys_bind.mpr ⟨trivial, ?_⟩
  rintro reply ⟨w', _⟩ ⟨hw, rfl⟩
  obtain ⟨hreply, hkernel⟩ := hperform
  obtain ⟨rfl, rfl⟩ : (w.kernel.perform (w.choices 0) op).1 = reply ∧
      w.after 1 (w.kernel.perform (w.choices 0) op).2 = w' := Prod.mk.injEq .. ▸ hw
  show (Method.lift (check (x _))).Obeys World.contract.recorded ok err s _
  rw [hkernel, hreply]
  cases herror : (w.choices 0).error with
  | some e =>
    rw [Choice.attempt_refused herror] at hreply ⊢
    exact herr e _ (.inl herror) hreply
  | none =>
    cases act with
    | error e =>
      rw [Choice.attempt_error herror] at hreply ⊢
      exact herr e _ (.inr rfl) hreply
    | ok result =>
      rw [Choice.attempt_ok herror] at hreply ⊢
      exact hok result.1 result.2 _ herror rfl hreply

section Rules

variable {s : σ} {k : Kernel} {calls : List SysCall} {err : PyErr → σ → Kernel × List SysCall → Prop}

theorem records_attempt {β : Type} (op : Sys) (x : op.Reply → Except Errno β)
    (act : Choice → Except Errno (β × Kernel)) {ok : β → σ → Kernel × List SysCall → Prop}
    (hperform : ∀ c : Choice, x (k.perform c op).1 = (c.attempt id k (act c)).1 ∧
      (k.perform c op).2 = (c.attempt id k (act c)).2)
    (hok : ∀ c b k' reply, act c = .ok (b, k') → x reply = .ok b → ok b s (k', calls ++ [⟨op, reply⟩]))
    (herr : ∀ e reply, x reply = .error e → err (.osError e) s (k, calls ++ [⟨op, reply⟩])) :
    Py.Records (sys op >>= fun reply => Method.lift (check (x reply))) ok err s k calls := by
  refine Method.obeys_bind.mpr ⟨trivial, ?_⟩
  rintro reply ⟨k', _⟩ ⟨⟨c, hc⟩, rfl⟩
  obtain ⟨hreply, hkernel⟩ := hperform c
  rw [hc] at hreply hkernel
  have hkernel' : k' = (c.attempt id k (act c)).2 := hkernel
  show (Method.lift (check (x reply))).Obeys Kernel.contract.recorded ok err s _
  rcases c.attempt_cases id k (act c) with ⟨e, hr⟩ | ⟨b, k'', _, hact, hr⟩
  · rw [hr] at hreply hkernel'
    have hx : x reply = .error e := hreply
    rw [hx, hkernel']
    exact herr e reply hx
  · rw [hr] at hreply hkernel'
    have hx : x reply = .ok b := hreply
    rw [hx, hkernel']
    exact hok c b k'' reply hact hx

theorem records_dupAbove {rt : Runtime} {fd minfd : Fd} {ok : Fd → σ → Kernel × List SysCall → Prop}
    (hok : ∀ (copy : Nat) file, k.fileAt fd = some file → minfd ≤ copy → k.table copy = none →
      ok copy s (k.install copy ⟨file, false⟩, calls ++ [⟨.dupAbove fd minfd, .ok copy⟩]))
    (herr : ∀ e, err (.osError e) s (k, calls ++ [⟨.dupAbove fd minfd, .error e⟩]))
    (hneg : ∀ e, fd < 0 → err e s (k, calls)) : Py.Records (dupAbove rt fd minfd) ok err s k calls := by
  rw [dupAbove]
  split
  · next hfd => exact hneg _ hfd.1
  · apply records_attempt (.dupAbove fd minfd) id (fun _ => k.dupAbove fd minfd) (fun c => ⟨rfl, rfl⟩)
    · intro c copy k' reply hact hreply
      cases hreply
      rw [Kernel.dupAbove] at hact
      split at hact
      · cases hact
      · next file hfile =>
        split at hact
        · cases hact
        · next hrange =>
          split at hact
          · cases hact
          · next copy hcopy =>
            cases hact
            obtain ⟨hmin, _, hfree⟩ := Kernel.lowestFree_eq_some hcopy
            have hle : minfd ≤ copy := (Int.self_le_toNat minfd).trans (by exact_mod_cast hmin)
            exact hok copy file hfile hle hfree
    · intro e reply hreply
      cases hreply
      exact herr e

theorem records_dup2 {oldfd newfd : Fd} {ok : Unit → σ → Kernel × List SysCall → Prop}
    (hne : newfd ≠ oldfd)
    (hok : ∀ file, k.fileAt oldfd = some file →
      ok () s (k.install newfd ⟨file, false⟩, calls ++ [⟨.dup2 oldfd newfd, .ok newfd⟩]))
    (herr : ∀ e, err (.osError e) s (k, calls ++ [⟨.dup2 oldfd newfd, .error e⟩])) :
    Py.Records (dup2 oldfd newfd) ok err s k calls := by
  refine Method.obeys_assoc.mpr ?_
  apply records_attempt (.dup2 oldfd newfd) id (fun _ => k.dup2 oldfd newfd) (fun c => ⟨rfl, rfl⟩)
  · intro c fd k' reply hact hreply
    cases hreply
    rw [Kernel.dup2] at hact
    split at hact
    · cases hact
    · next file hfile =>
      split at hact
      · cases hact
      · cases hact
        exact hok file hfile
  · intro e reply hreply
    cases hreply
    exact herr e

theorem records_sys (op : Sys) (reply : op.Reply) (k' : Kernel) {ok : op.Reply → σ → Kernel × List SysCall → Prop}
    (h : ∀ c, k.perform c op = (reply, k')) (hok : ok reply s (k', calls ++ [⟨op, reply⟩])) :
    Py.Records (sys op) ok err s k calls := by
  refine Method.obeys_call.mpr ⟨trivial, ?_⟩
  rintro reply' ⟨k₁, _⟩ ⟨⟨c, hc⟩, rfl⟩
  rw [h c] at hc
  cases hc
  exact hok

theorem records_clearCloexec {fd : Fd} {file : File} {ok : Unit → σ → Kernel × List SysCall → Prop}
    (hfd : k.fileAt fd = some file)
    (hok : ok () s (k.install fd ⟨file, false⟩, calls ++ [⟨.setCloexec fd false, .ok ()⟩])) :
    Py.Records (clearCloexec fd) ok err s k calls := by
  refine Method.obeys_bind.mpr (records_sys (.setCloexec fd false) (.ok ()) _ (fun c => ?_) hok)
  simp only [Kernel.perform, Kernel.setCloexec, hfd]

theorem records_closeFd {fd : Fd} {file : File} {ok : Unit → σ → Kernel × List SysCall → Prop}
    (hfd : k.fileAt fd = some file)
    (hok : ok () s (k.shut fd file, calls ++ [⟨.close fd, .ok ()⟩])) :
    Py.Records (closeFd fd) ok err s k calls :=
  Method.obeys_bind.mpr (records_sys (.close fd) (.ok ()) _ (fun _ => Kernel.perform_close hfd) hok)

theorem records_setenv {rt : Runtime} {name value : Str} {ok : Unit → σ → Kernel × List SysCall → Prop}
    (hok : ∀ text, environText rt value = .ok text →
      ok () s ({ k with env := Function.update k.env name (some text) },
        calls ++ [⟨.setenv name text, .ok ()⟩]))
    (herr : ∀ e, environText rt value = .error e → err e s (k, calls))
    (hfail : ∀ e text, err (.osError e) s (k, calls ++ [⟨.setenv name text, .error e⟩])) :
    Py.Records (setenv rt name value) ok err s k calls := by
  refine Method.obeys_bind.mpr ?_
  cases htext : environText rt value with
  | error e => exact herr e htext
  | ok text =>
    apply records_attempt (.setenv name text) id
      (fun _ => .ok ((), { k with env := Function.update k.env name (some text) })) (fun c => ⟨rfl, rfl⟩)
    · intro c u k' reply hact hreply
      cases hact
      cases hreply
      exact hok text htext
    · intro e reply hreply
      cases hreply
      exact hfail e text

def Adds (calls calls' : List SysCall) (P : SysCall → Prop) : Prop :=
  ∃ new, calls' = calls ++ new ∧ ∀ call ∈ new, P call

theorem Adds.refl (calls : List SysCall) (P : SysCall → Prop) : Adds calls calls P :=
  ⟨[], (List.append_nil _).symm, nofun⟩

theorem Adds.one {P : SysCall → Prop} {call : SysCall} (hcall : P call) : Adds calls (calls ++ [call]) P :=
  ⟨[call], rfl, List.forall_mem_singleton.mpr hcall⟩

theorem Adds.trans {calls' calls'' : List SysCall} {P : SysCall → Prop} (h : Adds calls calls' P)
    (h' : Adds calls' calls'' P) : Adds calls calls'' P := by
  obtain ⟨new, rfl, hnew⟩ := h
  obtain ⟨new', rfl, hnew'⟩ := h'
  exact ⟨new ++ new', List.append_assoc .., List.forall_mem_append.mpr ⟨hnew, hnew'⟩⟩

theorem Adds.mono {calls' : List SysCall} {P Q : SysCall → Prop} (hPQ : ∀ call, P call → Q call)
    (h : Adds calls calls' P) : Adds calls calls' Q := by
  obtain ⟨new, hnew, hall⟩ := h
  exact ⟨new, hnew, fun call hcall => hPQ call (hall call hcall)⟩

end Rules

end Mpsystemd
