import Mpsystemd.KernelRules
import Mpsystemd.Notifier

/-! Socket activation: the readers of the `LISTEN_*` variables. -/

namespace Mpsystemd

variable {σ α : Type}

def listenPidEnv : Str := str "LISTEN_PID"

def listenFdsEnv : Str := str "LISTEN_FDS"

def listenFdnamesEnv : Str := str "LISTEN_FDNAMES"

def listenFdsStart : Fd := 3

def unnamed : Str := str "unknown"

def fdnamesSeparator : CodePoint := .scalar ':'

/-- Python's `range`. -/
def range (start stop : Int) : List Int :=
  (List.range (stop - start).toNat).map fun (i : Nat) => start + (i : Int)

theorem mem_range {start stop i : Int} : i ∈ range start stop ↔ start ≤ i ∧ i < stop := by
  simp only [range, List.mem_map, List.mem_range]
  constructor
  · rintro ⟨n, hn, rfl⟩
    omega
  · intro hi
    exact ⟨(i - start).toNat, by omega, by omega⟩

theorem range_eq_nil {start stop : Int} : range start stop = [] ↔ stop ≤ start := by
  simp only [range, List.map_eq_nil_iff, List.range_eq_nil]
  omega

namespace Kernel

def without (k : Kernel) (names : List Str) : Kernel :=
  { k with env := fun name => if name ∈ names then none else k.env name }

theorem without_cons (k : Kernel) (name : Str) (names : List Str) :
    Kernel.without { k with env := Function.update k.env name none } names = k.without (name :: names) := by
  have henv : ∀ name', (if name' ∈ names then none else Function.update k.env name none name') =
      if name' ∈ name :: names then none else k.env name' := by
    intro name'
    by_cases hname : name' = name
    · simp [hname]
    · simp [hname]
  simp only [without, henv]

theorem without_nil (k : Kernel) : k.without [] = k := by simp [without]

def taken (k : Kernel) (own : List Str) (unsetEnvironment : Bool) : Kernel :=
  if unsetEnvironment then k.without own else k

@[simp] theorem taken_table (k : Kernel) (own : List Str) (unsetEnvironment : Bool) :
    (k.taken own unsetEnvironment).table = k.table := by
  cases unsetEnvironment with
  | false => rfl
  | true => rfl

@[simp] theorem taken_pid (k : Kernel) (own : List Str) (unsetEnvironment : Bool) :
    (k.taken own unsetEnvironment).pid = k.pid := by
  cases unsetEnvironment with
  | false => rfl
  | true => rfl

/-- The kernel with the descriptors marked close on exec, up to the first one
that is not open. -/
def marked (k : Kernel) : List Fd → Kernel
  | [] => k
  | fd :: fds =>
    match k.fileAt fd with
    | none => k
    | some file => (k.install fd ⟨file, true⟩).marked fds

theorem fileAt_mark {k : Kernel} {fd : Fd} {file : File} {cloexec : Bool} (hfd : k.fileAt fd = some file)
    (fd' : Fd) : (k.install fd ⟨file, cloexec⟩).fileAt fd' = k.fileAt fd' := by
  rw [fileAt_install]
  split
  · next heq => rw [heq, hfd]
  · rfl

theorem marked_env (k : Kernel) (fds : List Fd) : (k.marked fds).env = k.env := by
  induction fds generalizing k with
  | nil => rfl
  | cons fd fds ih =>
    rw [marked]
    split
    · rfl
    · rw [ih]
      rfl

theorem marked_table (k : Kernel) (fds : List Fd) (fd : Fd) :
    (k.marked fds).table fd = k.table fd ∨
      fd ∈ fds ∧ (k.marked fds).table fd = (k.table fd).map ({ · with cloexec := true }) := by
  induction fds generalizing k with
  | nil => exact .inl rfl
  | cons fd' fds ih =>
    rw [marked]
    split
    · exact .inl rfl
    · next file hfile =>
      obtain ⟨d, hd, rfl⟩ := Option.map_eq_some_iff.mp hfile
      have hmark : (k.install fd' ⟨d.file, true⟩).table fd = k.table fd ∨
          fd = fd' ∧ (k.install fd' ⟨d.file, true⟩).table fd =
            (k.table fd).map ({ · with cloexec := true }) := by
        by_cases heq : fd = fd'
        · exact .inr ⟨heq, by simp [heq, hd]⟩
        · exact .inl (by simp [Function.update_of_ne heq])
      rcases ih (k.install fd' ⟨d.file, true⟩) with hrest | ⟨hmem, hrest⟩
      · rcases hmark with hsame | ⟨heq, hnew⟩
        · exact .inl (hrest.trans hsame)
        · exact .inr ⟨by simp [heq], hrest.trans hnew⟩
      · refine .inr ⟨List.mem_cons_of_mem _ hmem, ?_⟩
        rcases hmark with hsame | ⟨_, hnew⟩
        · rw [hrest, hsame]
        · rw [hrest, hnew, Option.map_map]
          rfl

theorem marked_all {k : Kernel} {fds : List Fd} (hopen : ∀ fd ∈ fds, k.fileAt fd ≠ none) {fd : Fd}
    (hfd : fd ∈ fds) : (k.marked fds).table fd = (k.table fd).map ({ · with cloexec := true }) := by
  induction fds generalizing k with
  | nil => simp at hfd
  | cons fd' fds ih =>
    obtain ⟨file, hfile⟩ := Option.ne_none_iff_exists'.mp (hopen fd' List.mem_cons_self)
    obtain ⟨d, hd, rfl⟩ := Option.map_eq_some_iff.mp hfile
    have hopen' : ∀ fd ∈ fds, (k.install fd' ⟨d.file, true⟩).fileAt fd ≠ none := by
      intro fd hmem
      rw [fileAt_mark hfile]
      exact hopen fd (List.mem_cons_of_mem _ hmem)
    simp only [marked, hfile]
    by_cases hmem : fd ∈ fds
    · rw [ih hopen' hmem]
      by_cases heq : fd = fd'
      · simp [heq, hd]
      · simp [Function.update_of_ne heq]
    · have heq : fd = fd' := (List.mem_cons.mp hfd).resolve_right hmem
      rcases marked_table (k.install fd' ⟨d.file, true⟩) fds fd with hrest | ⟨h, _⟩
      · rw [hrest]
        simp [heq, hd]
      · exact absurd h hmem

def markResult (k : Kernel) (fds : List Fd) : Except PyErr Unit :=
  if ∀ fd ∈ fds, k.fileAt fd ≠ none then .ok () else .error (.osError Errno.badf)

end Kernel

theorem does_setCloexec {fd : Fd} {file : File} {s : σ} {k : Kernel} (hfd : k.fileAt fd = some file) :
    Py.Does (setCloexec fd) (.ok ()) (k.install fd ⟨file, true⟩) s k := by
  have hsys : Py.Does (sys (.setCloexec fd true)) (.ok (.ok ())) (k.install fd ⟨file, true⟩) s k :=
    Py.does_sys fun c => by simp only [Kernel.perform, Kernel.setCloexec, hfd]
  exact hsys.bind Py.does_pure

theorem does_setCloexec_closed {fd : Fd} {s : σ} {k : Kernel} (hfd : k.fileAt fd = none) :
    Py.Does (setCloexec fd) (.error (.osError Errno.badf)) k s k := by
  have hsys : Py.Does (sys (.setCloexec fd true)) (.ok (.error Errno.badf)) k s k :=
    Py.does_sys fun c => by simp only [Kernel.perform, Kernel.setCloexec, hfd]
  exact hsys.bind Py.does_raise

namespace Activation

def takeEnvironment (unsetEnvironment : Bool) : Py σ (Option Str × Option Str × Option Str) := do
  let pidText ← getenv listenPidEnv
  let countText ← getenv listenFdsEnv
  let namesText ← getenv listenFdnamesEnv
  if unsetEnvironment then
    unsetenv listenPidEnv
    unsetenv listenFdsEnv
    unsetenv listenFdnamesEnv
  return (pidText, countText, namesText)

def count (rt : Runtime) (pidText countText : Option Str) : Py σ Int :=
  match pidText.filter (· ≠ []), countText.filter (· ≠ []) with
  | some pidText, some countText =>
    match rt.parseInt pidText, rt.parseInt countText with
    | some pid, some count => do
      if pid ≠ (← getpid) then return 0
      else if count ≤ 0 then return 0
      else return count
    | _, _ => return 0
  | _, _ => return 0

def setCloexecAll : List Fd → Py σ Unit
  | [] => pure ()
  | fd :: fds => do
    setCloexec fd
    setCloexecAll fds

def listenFds (rt : Runtime) (unsetEnvironment cloexec : Bool) : Py σ Int := do
  let (pidText, countText, _) ← takeEnvironment unsetEnvironment
  let count ← count rt pidText countText
  (if count ≠ 0 ∧ cloexec then setCloexecAll (range listenFdsStart (listenFdsStart + count)) else pure ())
  return count

/-- One name for each of the descriptors, from `LISTEN_FDNAMES`. -/
def namesFor (count : Int) (namesText : Option Str) : Except PyErr (List Str) :=
  match namesText.filter (· ≠ []) with
  | none => .ok (List.replicate count.toNat unnamed)
  | some namesText =>
    let names := namesText.splitOn fdnamesSeparator
    if names.length ≠ count then
      .error (.systemdError "%s lists %d names for %d descriptors"
        [.text listenFdnamesEnv, .int names.length, .int count])
    else .ok (names.map fun name => if name = [] then unnamed else name)

def listenFdNames (rt : Runtime) (unsetEnvironment cloexec : Bool) : Py σ (List Str) := do
  let (pidText, countText, namesText) ← takeEnvironment unsetEnvironment
  let count ← count rt pidText countText
  if count = 0 then return []
  else
    (if cloexec then setCloexecAll (range listenFdsStart (listenFdsStart + count)) else pure ())
    Method.lift (namesFor count namesText)

/-- `mapping.setdefault(name, []).append(fd)`, for descriptors from `fd` on. -/
def collect (mapping : Dict Str (List Fd)) (fd : Fd) : List Str → Dict Str (List Fd)
  | [] => mapping
  | name :: names => collect (mapping.set name ((mapping.get? name).getD [] ++ [fd])) (fd + 1) names

def listenFdsWithNames (rt : Runtime) (unsetEnvironment cloexec : Bool) :
    Py σ (Dict Str (List Fd)) := do
  let names ← listenFdNames rt unsetEnvironment cloexec
  return collect .empty listenFdsStart names

/-! What the readers answer, and which descriptors they mark. -/

/-- What `_count` makes of the two variables in the process `pid`. -/
def countIn (rt : Runtime) (pid : Int) (pidText countText : Option Str) : Int :=
  match (pidText.filter (· ≠ [])).bind rt.parseInt, (countText.filter (· ≠ [])).bind rt.parseInt with
  | some pid', some count => if pid' = pid then max count 0 else 0
  | _, _ => 0

theorem countIn_nonneg (rt : Runtime) (pid : Int) (pidText countText : Option Str) :
    0 ≤ countIn rt pid pidText countText := by
  unfold countIn
  split
  · split
    · exact le_max_right _ _
    · exact le_refl _
  · exact le_refl _

theorem does_count (rt : Runtime) (pidText countText : Option Str) (s : σ) (k : Kernel) :
    Py.Does (count rt pidText countText) (.ok (countIn rt k.pid pidText countText)) k s k := by
  unfold count countIn
  cases pidText.filter (· ≠ []) with
  | none => exact Py.does_pure
  | some pidText =>
    cases countText.filter (· ≠ []) with
    | none =>
      simp only [Option.bind_some, Option.bind_none]
      cases rt.parseInt pidText with
      | none => exact Py.does_pure
      | some pid => exact Py.does_pure
    | some countText =>
      simp only [Option.bind_some]
      cases rt.parseInt pidText with
      | none => exact Py.does_pure
      | some pid =>
        cases rt.parseInt countText with
        | none => exact Py.does_pure
        | some count =>
          refine Py.does_getpid.bind ?_
          by_cases hpid : pid = k.pid
          · by_cases hcount : count ≤ 0
            · simp only [hpid, ne_eq, not_true_eq_false, if_false, hcount, if_true, max_eq_right]
              exact Py.does_pure
            · have hmax : max count 0 = count := max_eq_left (by omega)
              simp only [hpid, ne_eq, not_true_eq_false, if_false, hcount, if_true, hmax]
              exact Py.does_pure
          · simp only [ne_eq, hpid, not_false_eq_true, if_true, if_false]
            exact Py.does_pure

theorem does_setCloexecAll (fds : List Fd) (s : σ) (k : Kernel) :
    Py.Does (setCloexecAll fds) (k.markResult fds) (k.marked fds) s k := by
  induction fds generalizing k with
  | nil => exact Py.does_pure
  | cons fd fds ih =>
    cases hfd : k.fileAt fd with
    | none =>
      have hresult : k.markResult (fd :: fds) = .error (.osError Errno.badf) :=
        if_neg fun hall => hall fd List.mem_cons_self hfd
      have hmarked : k.marked (fd :: fds) = k := by simp only [Kernel.marked, hfd]
      rw [hresult, hmarked]
      exact (does_setCloexec_closed hfd).bind_error
    | some file =>
      have hresult : k.markResult (fd :: fds) = (k.install fd ⟨file, true⟩).markResult fds := by
        simp only [Kernel.markResult, Kernel.fileAt_mark hfd, List.forall_mem_cons, hfd, ne_eq,
          reduceCtorEq, not_false_eq_true, true_and]
      have hmarked : k.marked (fd :: fds) = (k.install fd ⟨file, true⟩).marked fds := by
        simp only [Kernel.marked, hfd]
      rw [hresult, hmarked]
      exact (does_setCloexec hfd).bind (ih _)

def listenEnv : List Str := [listenPidEnv, listenFdsEnv, listenFdnamesEnv]

theorem does_takeEnvironment (unsetEnvironment : Bool) (s : σ) (k : Kernel) :
    Py.Does (takeEnvironment unsetEnvironment)
      (.ok (k.env listenPidEnv, k.env listenFdsEnv, k.env listenFdnamesEnv))
      (k.taken listenEnv unsetEnvironment) s k := by
  refine Py.does_getenv.bind (Py.does_getenv.bind (Py.does_getenv.bind ?_))
  cases unsetEnvironment with
  | false => exact Py.does_pure
  | true =>
    have hall : k.taken listenEnv true = k.without listenEnv := rfl
    rw [hall, listenEnv, ← Kernel.without_cons, ← Kernel.without_cons, ← Kernel.without_cons,
      Kernel.without_nil]
    exact Py.does_unsetenv.bind (Py.does_unsetenv.bind (Py.does_unsetenv.bind Py.does_pure))

/-- How many descriptors the environment hands to the process. -/
def listenCount (rt : Runtime) (k : Kernel) : Int :=
  countIn rt k.pid (k.env listenPidEnv) (k.env listenFdsEnv)

def named (rt : Runtime) (cloexec : Bool) (k : Kernel) : List Fd :=
  if cloexec then range listenFdsStart (listenFdsStart + listenCount rt k) else []

theorem named_of_zero {rt : Runtime} {cloexec : Bool} {k : Kernel} (hcount : listenCount rt k = 0) :
    named rt cloexec k = [] := by
  cases cloexec with
  | false => rfl
  | true => exact range_eq_nil.mpr (by omega)

theorem does_mark (rt : Runtime) (cloexec : Bool) (k : Kernel) (own : List Str) (unsetEnvironment : Bool)
    (s : σ) :
    Py.Does (if listenCount rt k ≠ 0 ∧ cloexec then
        setCloexecAll (range listenFdsStart (listenFdsStart + listenCount rt k)) else pure ())
      (k.markResult (named rt cloexec k))
      ((k.taken own unsetEnvironment).marked (named rt cloexec k)) s (k.taken own unsetEnvironment) := by
  have hresult : ∀ fds, (k.taken own unsetEnvironment).markResult fds = k.markResult fds := by
    intro fds
    cases unsetEnvironment with
    | false => rfl
    | true => rfl
  split
  · next hmark =>
    simp only [named, hmark.2, if_true, ← hresult]
    exact does_setCloexecAll _ s _
  · next hmark =>
    have hnil : named rt cloexec k = [] := by
      by_cases hcount : listenCount rt k = 0
      · exact named_of_zero hcount
      · have hcloexec : cloexec = false := by simpa [hcount] using hmark
        rw [hcloexec]
        rfl
    rw [hnil]
    exact Py.does_pure

def fdsAnswer (rt : Runtime) (cloexec : Bool) (k : Kernel) : Except PyErr Int := do
  k.markResult (named rt cloexec k)
  return listenCount rt k

def namesAnswer (rt : Runtime) (cloexec : Bool) (k : Kernel) : Except PyErr (List Str) := do
  k.markResult (named rt cloexec k)
  if listenCount rt k = 0 then return []
  else namesFor (listenCount rt k) (k.env listenFdnamesEnv)

def withNamesAnswer (rt : Runtime) (cloexec : Bool) (k : Kernel) :
    Except PyErr (Dict Str (List Fd)) := do
  let names ← namesAnswer rt cloexec k
  return collect .empty listenFdsStart names

theorem markResult_of_zero {rt : Runtime} {cloexec : Bool} {k : Kernel} (hcount : listenCount rt k = 0) :
    k.markResult (named rt cloexec k) = .ok () := by
  rw [named_of_zero hcount]
  exact if_pos nofun

theorem does_listenFds (rt : Runtime) (unsetEnvironment cloexec : Bool) (s : σ) (k : Kernel) :
    Py.Does (listenFds rt unsetEnvironment cloexec) (fdsAnswer rt cloexec k)
      ((k.taken listenEnv unsetEnvironment).marked (named rt cloexec k)) s k := by
  refine (does_takeEnvironment unsetEnvironment s k).bind ((does_count rt _ _ s _).bind ?_)
  rw [Kernel.taken_pid]
  have hmark := does_mark rt cloexec k listenEnv unsetEnvironment s
  rw [fdsAnswer]
  cases hresult : k.markResult (named rt cloexec k) with
  | ok a =>
    rw [hresult] at hmark
    exact hmark.bind Py.does_pure
  | error e =>
    rw [hresult] at hmark
    exact hmark.bind_error

theorem does_listenFdNames (rt : Runtime) (unsetEnvironment cloexec : Bool) (s : σ) (k : Kernel) :
    Py.Does (listenFdNames rt unsetEnvironment cloexec) (namesAnswer rt cloexec k)
      ((k.taken listenEnv unsetEnvironment).marked (named rt cloexec k)) s k := by
  refine (does_takeEnvironment unsetEnvironment s k).bind ((does_count rt _ _ s _).bind ?_)
  rw [Kernel.taken_pid]
  show Py.Does (if listenCount rt k = 0 then _ else _) _ _ _ _
  rw [namesAnswer]
  by_cases hcount : listenCount rt k = 0
  · rw [if_pos hcount, if_pos hcount, markResult_of_zero hcount, named_of_zero hcount]
    exact Py.does_pure
  · rw [if_neg hcount, if_neg hcount]
    have hmark := does_mark rt cloexec k listenEnv unsetEnvironment s
    simp only [hcount, ne_eq, not_false_eq_true, true_and] at hmark
    cases hresult : k.markResult (named rt cloexec k) with
    | error e =>
      rw [hresult] at hmark
      exact hmark.bind_error
    | ok a =>
      rw [hresult] at hmark
      refine hmark.bind ?_
      exact Py.does_lift

theorem does_listenFdsWithNames (rt : Runtime) (unsetEnvironment cloexec : Bool) (s : σ) (k : Kernel) :
    Py.Does (listenFdsWithNames rt unsetEnvironment cloexec) (withNamesAnswer rt cloexec k)
      ((k.taken listenEnv unsetEnvironment).marked (named rt cloexec k)) s k := by
  have hnames := does_listenFdNames rt unsetEnvironment cloexec s k
  rw [withNamesAnswer]
  cases hanswer : namesAnswer rt cloexec k with
  | ok names =>
    rw [hanswer] at hnames
    exact hnames.bind Py.does_pure
  | error e =>
    rw [hanswer] at hnames
    exact hnames.bind_error

theorem listenCount_of_unset (rt : Runtime) {k : Kernel} (hunset : ∀ name ∈ listenEnv, k.env name = none) :
    listenCount rt k = 0 := by
  have hpid : k.env listenPidEnv = none := hunset _ List.mem_cons_self
  simp only [listenCount, countIn, hpid]
  rfl

theorem open_of_markResult {k : Kernel} {fds : List Fd} {u : Unit} (h : k.markResult fds = .ok u) :
    ∀ fd ∈ fds, k.fileAt fd ≠ none := by
  by_contra hclosed
  rw [Kernel.markResult, if_neg hclosed] at h
  cases h

theorem namesFor_ne_nil {count : Int} {namesText : Option Str} (hcount : 0 < count) :
    namesFor count namesText ≠ .ok [] := by
  unfold namesFor
  split
  · intro h
    have hzero : count.toNat = 0 := by simpa using h
    omega
  · next text _ =>
    dsimp only
    split
    · exact nofun
    · intro h
      have hnil := List.map_eq_nil_iff.mp (Except.ok.inj h)
      exact List.splitOn_ne_nil _ _ hnil

theorem get?_collect_of_mem (mapping : Dict Str (List Fd)) (fd : Fd) {names : List Str} {name : Str}
    (h : name ∈ names ∨ mapping.get? name ≠ none) : (collect mapping fd names).get? name ≠ none := by
  induction names generalizing mapping fd with
  | nil => exact h.resolve_left (List.not_mem_nil)
  | cons first names ih =>
    apply ih
    by_cases hname : name = first
    · exact .inr (by simp [hname])
    · refine h.imp (fun hmem => (List.mem_cons.mp hmem).resolve_left hname) fun hsome => ?_
      simpa [hname] using hsome

theorem collect_eq_empty {names : List Str} (h : collect .empty listenFdsStart names = .empty) :
    names = [] := by
  cases names with
  | nil => rfl
  | cons name names =>
    have hname := get?_collect_of_mem .empty listenFdsStart (.inl (List.mem_cons_self (a := name) (l := names)))
    rw [h] at hname
    exact absurd rfl hname

end Activation

end Mpsystemd
