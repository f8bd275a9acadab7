import Mpsystemd.Activation

/-! What reading the environment of a service does to its variables and to the
descriptors they name. -/

namespace Mpsystemd

variable {σ α : Type}

/-- A reader of the environment variables `own`, given whether to unset them and
whether to mark descriptors: it removes those and no others, whatever its
result, which unsetting does not change, and answers `empty` from then on. It
marks descriptors that `named` lists, all of them when it returns, and changes no
others. -/
structure Consumes (own : List Str) (named : Bool → Kernel → List Fd) (empty : α)
    (reader : Bool → Bool → Py σ α) : Prop where
  env : ∀ unset cloexec s w, ((reader unset cloexec).run s w).2.kernel.env =
    if unset then fun name => if name ∈ own then none else w.kernel.env name else w.kernel.env
  agree : ∀ cloexec s w, ((reader true cloexec).run s w).1 = ((reader false cloexec).run s w).1
  later : ∀ cloexec s w s' w', w'.kernel.env = ((reader true cloexec).run s w).2.kernel.env →
    ∀ unset' cloexec', ((reader unset' cloexec').run s' w').1 = (.ok empty, s')
  flags : ∀ unset cloexec s w fd,
    ((reader unset cloexec).run s w).2.kernel.table fd = w.kernel.table fd ∨
      fd ∈ named cloexec w.kernel ∧ ((reader unset cloexec).run s w).2.kernel.table fd =
        (w.kernel.table fd).map ({ · with cloexec := true })
  all : ∀ unset cloexec s w a, ((reader unset cloexec).run s w).1.1 = .ok a →
    ∀ fd ∈ named cloexec w.kernel, ∃ file, w.kernel.fileAt fd = some file ∧
      ((reader unset cloexec).run s w).2.kernel.table fd = some ⟨file, true⟩
  zero : ∀ unset cloexec s w, ((reader unset cloexec).run s w).1.1 = .ok empty →
    ((reader unset cloexec).run s w).2.kernel.table = w.kernel.table

theorem Consumes.of_does {own : List Str} {named : Bool → Kernel → List Fd} {empty : α}
    {reader : Bool → Bool → Py σ α} (answer : Bool → Kernel → Except PyErr α)
    (hdoes : ∀ unset cloexec s k, (reader unset cloexec).Does (answer cloexec k)
      ((k.taken own unset).marked (named cloexec k)) s k)
    (hempty : ∀ cloexec k, (∀ name ∈ own, k.env name = none) → answer cloexec k = .ok empty)
    (hall : ∀ cloexec k a, answer cloexec k = .ok a → ∀ fd ∈ named cloexec k, k.fileAt fd ≠ none)
    (hzero : ∀ cloexec k, answer cloexec k = .ok empty → named cloexec k = []) :
    Consumes own named empty reader where
  env unset cloexec s w := by
    rw [(hdoes unset cloexec s w.kernel).run.2, Kernel.marked_env]
    cases unset with
    | false => rfl
    | true => rfl
  agree cloexec s w := by
    rw [(hdoes true cloexec s w.kernel).run.1, (hdoes false cloexec s w.kernel).run.1]
  later cloexec s w s' w' hw' unset' cloexec' := by
    rw [(hdoes true cloexec s w.kernel).run.2, Kernel.marked_env] at hw'
    rw [(hdoes unset' cloexec' s' w'.kernel).run.1, hempty]
    intro name hname
    rw [hw']
    exact if_pos hname
  flags unset cloexec s w fd := by
    rw [(hdoes unset cloexec s w.kernel).run.2]
    simpa only [Kernel.taken_table] using Kernel.marked_table (w.kernel.taken own unset) _ fd
  all unset cloexec s w a ha fd hfd := by
    rw [(hdoes unset cloexec s w.kernel).run.1] at ha
    have hopen := hall cloexec w.kernel a ha
    obtain ⟨file, hfile⟩ := Option.ne_none_iff_exists'.mp (hopen fd hfd)
    obtain ⟨d, hd, rfl⟩ := Option.map_eq_some_iff.mp hfile
    refine ⟨d.file, hfile, ?_⟩
    have hopen' : ∀ fd ∈ named cloexec w.kernel, (w.kernel.taken own unset).fileAt fd ≠ none := by
      simpa only [Kernel.fileAt, Kernel.taken_table] using hopen
    rw [(hdoes unset cloexec s w.kernel).run.2, Kernel.marked_all hopen' hfd, Kernel.taken_table, hd]
    rfl
  zero unset cloexec s w hw := by
    rw [(hdoes unset cloexec s w.kernel).run.1] at hw
    rw [(hdoes unset cloexec s w.kernel).run.2, hzero cloexec w.kernel hw]
    exact Kernel.taken_table ..

namespace Activation

theorem consumes_listenFds (rt : Runtime) :
    Consumes listenEnv (named rt) 0 fun unset cloexec => (listenFds rt unset cloexec : Py σ Int) := by
  refine .of_does (fdsAnswer rt) (fun unset cloexec s k => does_listenFds rt unset cloexec s k) ?_ ?_ ?_
  · intro cloexec k hunset
    have hcount := listenCount_of_unset rt hunset
    rw [fdsAnswer, markResult_of_zero hcount, hcount]
    rfl
  · intro cloexec k a ha
    obtain ⟨_, hmark, _⟩ := Fallible.bind_eq_ok.mp ha
    exact open_of_markResult hmark
  · intro cloexec k hzero
    obtain ⟨_, _, hcount⟩ := Fallible.bind_eq_ok.mp hzero
    exact named_of_zero (Except.ok.inj hcount)

theorem namesAnswer_of_unset {rt : Runtime} {k : Kernel} (cloexec : Bool)
    (hunset : ∀ name ∈ listenEnv, k.env name = none) : namesAnswer rt cloexec k = .ok [] := by
  have hcount := listenCount_of_unset rt hunset
  rw [namesAnswer, markResult_of_zero hcount, if_pos hcount]
  rfl

theorem named_of_namesAnswer_nil {rt : Runtime} {cloexec : Bool} {k : Kernel}
    (hnil : namesAnswer rt cloexec k = .ok []) : named rt cloexec k = [] := by
  obtain ⟨_, _, hnames⟩ := Fallible.bind_eq_ok.mp hnil
  by_cases hcount : listenCount rt k = 0
  · exact named_of_zero hcount
  · rw [if_neg hcount] at hnames
    have hpos : 0 < listenCount rt k := lt_of_le_of_ne (countIn_nonneg ..) (Ne.symm hcount)
    exact absurd hnames (namesFor_ne_nil hpos)

theorem consumes_listenFdNames (rt : Runtime) :
    Consumes listenEnv (named rt) [] fun unset cloexec =>
      (listenFdNames rt unset cloexec : Py σ (List Str)) := by
  refine .of_does (namesAnswer rt)
    (fun unset cloexec s k => does_listenFdNames rt unset cloexec s k) ?_ ?_ ?_
  · exact fun cloexec k hunset => namesAnswer_of_unset cloexec hunset
  · intro cloexec k a ha
    obtain ⟨_, hmark, _⟩ := Fallible.bind_eq_ok.mp ha
    exact open_of_markResult hmark
  · exact fun cloexec k hnil => named_of_namesAnswer_nil hnil

theorem consumes_listenFdsWithNames (rt : Runtime) :
    Consumes listenEnv (named rt) .empty fun unset cloexec =>
      (listenFdsWithNames rt unset cloexec : Py σ (Dict Str (List Fd))) := by
  refine .of_does (withNamesAnswer rt)
    (fun unset cloexec s k => does_listenFdsWithNames rt unset cloexec s k) ?_ ?_ ?_
  · intro cloexec k hunset
    rw [withNamesAnswer, namesAnswer_of_unset cloexec hunset]
    rfl
  · intro cloexec k a ha
    obtain ⟨names, hnames, _⟩ := Fallible.bind_eq_ok.mp ha
    obtain ⟨_, hmark, _⟩ := Fallible.bind_eq_ok.mp hnames
    exact open_of_markResult hmark
  · intro cloexec k hempty
    obtain ⟨names, hnames, hcollect⟩ := Fallible.bind_eq_ok.mp hempty
    have hnil := collect_eq_empty (Except.ok.inj hcollect)
    exact named_of_namesAnswer_nil (hnil ▸ hnames)

end Activation

namespace Daemon

def watchdogEnv : List Str := [watchdogUsecEnv, watchdogPidEnv]

/-- What `watchdog_enabled` makes of the two variables in the process `pid`. -/
def watchdogIn (rt : Runtime) (pid : Int) (usecText pidText : Option Str) : Int :=
  match (usecText.filter (· ≠ [])).bind rt.parseInt with
  | none => 0
  | some usec =>
    if usec ≤ 0 then 0
    else
      match pidText.filter (· ≠ []) with
      | none => usec
      | some pidText =>
        match rt.parseInt pidText with
        | none => 0
        | some pid' => if pid' ≠ pid then 0 else usec

theorem does_unset_then {name name' : Str} {m : Py σ α} {result : Except PyErr α} {s : σ} {k : Kernel}
    (unsetEnvironment : Bool) (hm : ∀ k', k'.pid = k.pid → m.Does result k' s k') :
    Py.Does (if unsetEnvironment then do
        unsetenv name
        unsetenv name'
        m
      else m) result (k.taken [name, name'] unsetEnvironment) s k := by
  cases unsetEnvironment with
  | false => exact hm k rfl
  | true =>
    have htaken : k.taken [name, name'] true = k.without [name, name'] := rfl
    rw [htaken, ← Kernel.without_cons, ← Kernel.without_cons, Kernel.without_nil]
    exact Py.does_unsetenv.bind (Py.does_unsetenv.bind (hm _ rfl))

theorem does_watchdogEnabled (rt : Runtime) (unsetEnvironment : Bool) (s : σ) (k : Kernel) :
    Py.Does (watchdogEnabled rt unsetEnvironment)
      (.ok (watchdogIn rt k.pid (k.env watchdogUsecEnv) (k.env watchdogPidEnv)))
      (k.taken watchdogEnv unsetEnvironment) s k := by
  refine Py.does_getenv.bind (Py.does_getenv.bind ?_)
  refine does_unset_then unsetEnvironment ?_
  intro k' hk'
  rw [watchdogIn]
  cases (k.env watchdogUsecEnv).filter (· ≠ []) |>.bind rt.parseInt with
  | none => exact Py.does_pure
  | some usec =>
    by_cases husec : usec ≤ 0
    · simp only [if_pos husec]
      exact Py.does_pure
    · simp only [if_neg husec]
      cases (k.env watchdogPidEnv).filter (· ≠ []) with
      | none => exact Py.does_pure
      | some pidText =>
        dsimp only
        cases rt.parseInt pidText with
        | none => exact Py.does_pure
        | some pid =>
          refine Py.does_getpid.bind ?_
          rw [hk']
          exact Py.does_pure

theorem consumes_watchdogEnabled (rt : Runtime) :
    Consumes watchdogEnv (fun _ _ => []) 0 fun unset _ => (watchdogEnabled rt unset : Py σ Int) := by
  refine .of_does (fun _ k =>
      .ok (watchdogIn rt k.pid (k.env watchdogUsecEnv) (k.env watchdogPidEnv)))
    (fun unset _ s k => does_watchdogEnabled rt unset s k) ?_ ?_ ?_
  · intro _ k hunset
    have husec : k.env watchdogUsecEnv = none := hunset _ List.mem_cons_self
    simp only [husec]
    rfl
  · exact fun _ _ _ _ => nofun
  · exact fun _ _ _ => rfl

end Daemon

/-- Every reader of the environment a service is started with consumes its
variables, and no reader changes its answer for consuming them. -/
theorem environment_consumed (rt : Runtime) (σ : Type) :
    Consumes Activation.listenEnv (Activation.named rt) 0
        (fun unset cloexec => (Activation.listenFds rt unset cloexec : Py σ Int)) ∧
      Consumes Activation.listenEnv (Activation.named rt) []
        (fun unset cloexec => (Activation.listenFdNames rt unset cloexec : Py σ (List Str))) ∧
      Consumes Activation.listenEnv (Activation.named rt) .empty
        (fun unset cloexec =>
          (Activation.listenFdsWithNames rt unset cloexec : Py σ (Dict Str (List Fd)))) ∧
      Consumes Daemon.watchdogEnv (fun _ _ => []) 0
        (fun unset _ => (Daemon.watchdogEnabled rt unset : Py σ Int)) :=
  ⟨Activation.consumes_listenFds rt, Activation.consumes_listenFdNames rt,
    Activation.consumes_listenFdsWithNames rt, Daemon.consumes_watchdogEnabled rt⟩

end Mpsystemd
