import Mpsystemd.Lib.Runs
import Mpsystemd.Recording

/-! The sealed memfds of the two backends: they make the same calls, and end with
the whole of the data in a sealed file or without a descriptor. -/

namespace Mpsystemd

variable {σ α : Type} {s : σ} {k : Kernel}

/-! The file behind the descriptor. -/

def Kernel.setMemfd (k : Kernel) (i : Nat) (m : Memfd) : Kernel := { k with memfds := k.memfds.set i m }

structure Kernel.HasMemfd (k : Kernel) (fd : Fd) (i : Nat) (m : Memfd) : Prop where
  file : k.fileAt fd = some (.memfd i)
  memfd : k.memfds[i]? = some m

theorem Kernel.HasMemfd.set {fd : Fd} {i : Nat} {m : Memfd} (h : k.HasMemfd fd i m) (m' : Memfd) :
    (k.setMemfd i m').HasMemfd fd i m' where
  file := h.file
  memfd := by
    have hlt : i < k.memfds.length := (List.getElem?_eq_some_iff.mp h.memfd).1
    simp [Kernel.setMemfd, hlt]

theorem Kernel.HasMemfd.setMemfd_eq {fd : Fd} {i : Nat} {m : Memfd} (h : k.HasMemfd fd i m) :
    k.setMemfd i m = k := by
  have hlt := List.getElem?_eq_some_iff.mp h.memfd
  simp [Kernel.setMemfd, ← hlt.2]

theorem Kernel.setMemfd_setMemfd (i : Nat) (m m' : Memfd) :
    (k.setMemfd i m).setMemfd i m' = k.setMemfd i m' := by
  simp [Kernel.setMemfd]

theorem Kernel.HasMemfd.withMemfd {fd : Fd} {i : Nat} {m m' : Memfd} {a : α}
    {act : Memfd → Except Errno (α × Memfd)} (h : k.HasMemfd fd i m) (hact : act m = .ok (a, m')) :
    k.withMemfd fd act = .ok (a, k.setMemfd i m') := by
  simp only [Kernel.withMemfd, h.file, h.memfd, hact]
  rfl

def Kernel.made (k : Kernel) (fd : Fd) (m : Memfd) : Kernel :=
  Kernel.install { k with memfds := k.memfds ++ [m] } fd ⟨.memfd k.memfds.length, true⟩

def Kernel.dropped (k : Kernel) (m : Memfd) : Kernel :=
  { k with
    memfds := k.memfds ++ [m]
    closes := k.closes ++ [some (.memfd k.memfds.length)] }

theorem Kernel.hasMemfd_made (k : Kernel) (fd : Fd) (m : Memfd) :
    (k.made fd m).HasMemfd fd k.memfds.length m where
  file := by simp [Kernel.made, Kernel.fileAt]
  memfd := by simp [Kernel.made, Kernel.install]

theorem Kernel.setMemfd_made (k : Kernel) (fd : Fd) (m m' : Memfd) :
    (k.made fd m).setMemfd k.memfds.length m' = k.made fd m' := by
  simp [Kernel.made, Kernel.setMemfd, Kernel.install]

theorem Kernel.close_made {fd : Nat} (hfree : k.Free fd) (m : Memfd) :
    (k.made fd m).shut fd (.memfd k.memfds.length) = k.dropped m := by
  have htable : Function.update k.table fd none = k.table := by
    rw [Function.update_eq_self_iff, hfree.2]
  simp [Kernel.made, Kernel.dropped, Kernel.shut, Kernel.remove, Kernel.install, htable]

theorem Memfd.store_end (pre data : Bytes) :
    Memfd.store ⟨pre, pre.length, false⟩ data = ⟨pre ++ data, (pre ++ data).length, false⟩ := by
  simp [Memfd.store]

/-! The writes of the data. -/

namespace SysCall

def IsWrite : SysCall → Prop
  | ⟨.write _ _, _⟩ => True
  | _ => False

instance : DecidablePred IsWrite := fun call => by
  unfold IsWrite
  split <;> infer_instance

/-- The bytes that a write stored. -/
def piece : SysCall → Bytes
  | ⟨.write _ view, .ok stored⟩ => view.take stored
  | _ => []

def storing (stored : Bytes) (call : SysCall) : Bytes := stored ++ call.piece

/-- A write is of all that has not been stored, when there is some left, and the file is
sealed when there is none. -/
def Timely (data stored : Bytes) : SysCall → Prop
  | ⟨.write _ view, _⟩ => view ≠ [] ∧ stored ++ view = data
  | ⟨.addSeals _, _⟩ => stored = data
  | _ => True

/-- The error of a call about a memfd. -/
def memfdError : SysCall → Option Errno
  | ⟨.memfdCreate _, .error e⟩ => some e
  | ⟨.write _ _, .error e⟩ => some e
  | ⟨.addSeals _, .error e⟩ => some e
  | ⟨.lseek _ _, .error e⟩ => some e
  | _ => none

end SysCall

/-- Writes of `view` up to `rest`, each of all that is left. -/
inductive Writes (fd : Fd) : Bytes → List SysCall → Bytes → Prop where
  | nil (view : Bytes) : Writes fd view [] view
  | cons {view rest : Bytes} {calls : List SysCall} (stored : Stored view.length) (hview : view ≠ [])
      (h : Writes fd (view.drop stored) calls rest) : Writes fd view (⟨.write fd view, .ok stored⟩ :: calls) rest

variable {fd : Fd} {view rest data : Bytes} {writes calls : List SysCall}

theorem Writes.timely {stored : Bytes} (h : Writes fd view writes rest) (hdata : stored ++ view = data) :
    Runs.Each SysCall.storing (SysCall.Timely data) stored writes ∧
      writes.foldl SysCall.storing stored ++ rest = data := by
  induction h generalizing stored with
  | nil view => exact ⟨trivial, hdata⟩
  | @cons view rest calls n hview _ ih =>
    have hnext : SysCall.storing stored ⟨.write fd view, .ok n⟩ ++ view.drop n = data := by
      rw [SysCall.storing, SysCall.piece, List.append_assoc, List.take_append_drop, hdata]
    obtain ⟨hlater, hrest⟩ := ih hnext
    exact ⟨⟨⟨hview, hdata⟩, hlater⟩, hrest⟩

theorem Writes.timely_all (h : Writes fd data writes []) :
    Runs.Each SysCall.storing (SysCall.Timely data) [] writes ∧ writes.foldl SysCall.storing [] = data := by
  obtain ⟨heach, hstored⟩ := h.timely (List.nil_append data)
  rw [List.append_nil] at hstored
  exact ⟨heach, hstored⟩

theorem Writes.length_le (h : Writes fd view writes rest) : writes.length + rest.length ≤ view.length := by
  induction h with
  | nil view => simp
  | @cons view rest calls stored hview _ ih =>
    have hpos := stored.2.2 (List.length_pos_iff.mpr hview)
    rw [List.length_drop] at ih
    rw [List.length_cons]
    have hbound := stored.2.1
    omega

theorem Writes.memfdError_eq (h : Writes fd view writes rest) {call : SysCall} (hcall : call ∈ writes) :
    call.memfdError = none := by
  induction h with
  | nil view => cases hcall
  | cons stored _ _ ih =>
    rcases List.mem_cons.mp hcall with rfl | hcall
    · rfl
    · exact ih hcall

/-- The two loops write the same pieces. -/
theorem writeCounted_eq (fd : Fd) (data : Bytes) (written : Nat) (hle : written ≤ data.length) :
    (writeCounted fd data written : Py σ Unit) = writeView fd (data.drop written) := by
  induction hn : data.length - written using Nat.strong_induction_on generalizing written with
  | _ n ih =>
    have hview : (if written = 0 then data else data.drop written) = data.drop written := by
      split
      · next hzero => rw [hzero, List.drop_zero]
      · rfl
    rw [writeCounted, writeView]
    by_cases hlt : written < data.length
    · have hne : data.drop written ≠ [] := by simpa using hlt
      rw [if_pos hlt, if_pos hne]
      show (sys (.write fd (if written = 0 then data else data.drop written)) >>= fun reply =>
        Method.lift (check reply) >>= fun stored => writeCounted fd data (written + stored)) = _
      rw [hview]
      refine congrArg (sys (.write fd (data.drop written)) >>= ·) (funext fun reply => ?_)
      refine congrArg (Method.lift (check reply) >>= ·) (funext fun stored => ?_)
      have hpos : 0 < (data.drop written).length := List.length_pos_iff.mpr hne
      have hstored := stored.2.2 hpos
      have hbound := stored.2.1
      have hlength : (data.drop written).length = data.length - written := List.length_drop ..
      rw [ih (data.length - (written + stored)) (by omega) (written + stored) (by omega) rfl,
        List.drop_drop]
    · have hnil : data.drop written = [] := List.drop_eq_nil_of_le (by omega)
      rw [if_neg hlt, hnil, if_neg (by simp)]

/-! A run with its calls. -/

/-- The environment lets the first `n` calls succeed. -/
def World.Grants (w : World) (n : Nat) : Prop := ∀ i < n, (w.choices i).error = none

section Runs

variable {w : World} {err : PyErr → σ → World × List SysCall → Prop}

theorem World.Grants.zero : w.Grants 0 := fun _ h => absurd h (Nat.not_lt_zero _)

theorem World.grants_one : w.Grants 1 ↔ (w.choices 0).error = none :=
  ⟨fun h => h 0 Nat.one_pos, fun h _ hi => Nat.lt_one_iff.mp hi ▸ h⟩

theorem World.grants_succ {n : Nat} {k' : Kernel} :
    w.Grants (n + 1) ↔ (w.choices 0).error = none ∧ (w.after 1 k').Grants n := Nat.forall_lt_succ_left

theorem World.grants_add {n m : Nat} {k' : Kernel} :
    w.Grants (n + m) ↔ w.Grants n ∧ (w.after n k').Grants m := by
  constructor
  · intro h
    refine ⟨fun i hi => h i (Nat.lt_add_right m hi), fun i hi => h (i + n) ?_⟩
    omega
  · rintro ⟨hfirst, hrest⟩ i hi
    by_cases hlt : i < n
    · exact hfirst i hlt
    · have hlater : (w.choices (i - n + n)).error = none := hrest (i - n) (by omega)
      rwa [Nat.sub_add_cancel (not_lt.mp hlt)] at hlater

theorem World.not_grants {n : Nat} {e : Errno} (h : (w.choices 0).error = some e) : ¬ w.Grants (n + 1) := by
  intro hgrants
  rw [hgrants 0 (Nat.succ_pos n)] at h
  cases h

theorem follows_onMemfd (op : Sys) {i : Nat} {m m' : Memfd} {a : α} (x : op.Reply → Except Errno α)
    (act : Memfd → Except Errno (α × Memfd)) {ok : α → σ → World × List SysCall → Prop}
    (hfd : w.kernel.HasMemfd fd i m) (hact : act m = .ok (a, m'))
    (hperform : x (w.kernel.perform (w.choices 0) op).1 =
        ((w.choices 0).attempt id w.kernel (w.kernel.withMemfd fd act)).1 ∧
      (w.kernel.perform (w.choices 0) op).2 =
        ((w.choices 0).attempt id w.kernel (w.kernel.withMemfd fd act)).2)
    (hok : ∀ reply, (w.choices 0).error = none → x reply = .ok a →
      ok a s (w.after 1 (w.kernel.setMemfd i m'), calls ++ [⟨op, reply⟩]))
    (herr : ∀ e reply, (w.choices 0).error = some e → x reply = .error e →
      err (.osError e) s (w.after 1 w.kernel, calls ++ [⟨op, reply⟩])) :
    Py.Follows (sys op >>= fun reply => Method.lift (check (x reply))) ok err s w calls := by
  rw [hfd.withMemfd hact] at hperform
  apply follows_attempt op x _ hperform
  · intro b k' reply hgranted hmade hreply
    cases hmade
    exact hok reply hgranted hreply
  · rintro e reply (hrefused | hfailed) hreply
    · exact herr e reply hrefused hreply
    · cases hfailed

theorem follows_writeView {i : Nat} (pre view : Bytes) {ok : Unit → σ → World × List SysCall → Prop}
    (hfd : w.kernel.HasMemfd fd i ⟨pre, pre.length, false⟩)
    (hok : ∀ writes, Writes fd view writes [] → w.Grants writes.length →
      ok () s (w.after writes.length (w.kernel.setMemfd i ⟨pre ++ view, (pre ++ view).length, false⟩),
        calls ++ writes))
    (herr : ∀ writes rest e m w', Writes fd view writes rest → rest ≠ [] → ¬ w.Grants (writes.length + 1) →
      w'.kernel = w.kernel.setMemfd i m →
      err (.osError e) s (w', calls ++ (writes ++ [⟨.write fd rest, .error e⟩]))) :
    Py.Follows (writeView fd view) ok err s w calls := by
  induction view using writeView.induct generalizing pre w calls with
  | case1 view hne ih =>
    rw [writeView, if_pos hne]
    refine Method.obeys_assoc.mpr ?_
    let stored := (w.choices 0).storedOf view.length
    have hact :
        (fun m : Memfd => if m.sealed then .error Errno.perm else .ok (stored, m.store (view.take stored.1)))
        ⟨pre, pre.length, false⟩ =
          Except.ok (stored, ⟨pre ++ view.take stored.1, (pre ++ view.take stored.1).length, false⟩) := by
      rw [← Memfd.store_end]
      rfl
    apply follows_onMemfd (.write fd view) id _ hfd hact ⟨rfl, rfl⟩
    · intro reply hgranted hreply
      cases hreply
      have hwhole : pre ++ view.take stored.1 ++ view.drop stored.1 = pre ++ view := by
        rw [List.append_assoc, List.take_append_drop]
      apply ih stored _ (hfd.set _)
      · intro writes hwrites hgrants
        have hfirst := hok _ (.cons stored hne hwrites) (World.grants_succ.mpr ⟨hgranted, hgrants⟩)
        rw [hwhole, List.append_assoc]
        show ok () s (w.after (writes.length + 1) ((w.kernel.setMemfd i _).setMemfd i _), _)
        rw [Kernel.setMemfd_setMemfd]
        exact hfirst
      · intro writes rest e m w' hwrites hrest hrefused hkernel
        have hrefused : ¬ w.Grants (writes.length + 1 + 1) := fun h => hrefused (World.grants_succ.mp h).2
        have hkernel : w'.kernel = w.kernel.setMemfd i m := hkernel.trans (w.kernel.setMemfd_setMemfd i _ m)
        have hfailed := herr _ rest e m w' (.cons stored hne hwrites) hrest hrefused hkernel
        rw [List.append_assoc]
        exact hfailed
    · intro e reply hrefused hreply
      cases hreply
      exact herr [] view e _ _ (.nil view) hne (World.not_grants hrefused) hfd.setMemfd_eq.symm
  | case2 view hnil =>
    have hview : view = [] := not_not.mp hnil
    subst hview
    rw [writeView, if_neg hnil]
    have hdone := hok [] (.nil []) World.Grants.zero
    rw [List.append_nil, List.append_nil, hfd.setMemfd_eq] at hdone
    exact hdone

end Runs

/-! The parts of `memfd_sealed`. -/

def createMemfd (name : Str) : Py σ Fd := do Method.lift (check (← sys (.memfdCreate name)))

def sealMemfd (fd : Fd) : Py σ Unit := do
  Method.lift (check (← sys (.addSeals fd)))
  let _ ← Method.lift (check (← sys (.lseek fd 0)))

def storeSealed (fd : Fd) (data : Bytes) : Py σ Unit := do
  writeView fd data
  sealMemfd fd

def closeAndRaise (rt : Runtime) (fd : Fd) (e : PyErr) : Py σ Unit := do
  if rt.micropython then
    let _ ← sys (.close fd)
  else closeFd fd
  Method.raise e

theorem memfdSealed_eq {rt : Runtime} (hmemfd : rt.hasMemfd = true) (name : Str) (data : Bytes) :
    (memfdSealed rt name data : Py σ Fd) = (do
      let fd ← createMemfd name
      Method.handling (storeSealed fd data) (closeAndRaise rt fd)
      return fd) := by
  simp only [memfdSealed, hmemfd, Bool.not_true, Bool.false_eq_true, if_false, storeSealed, sealMemfd,
    createMemfd, Method.bind_assoc, writeCounted_eq _ data 0 (Nat.zero_le _), List.drop_zero, ite_self]
  rfl

/-- The calls that fill `fd` with the data and seal it, up to the first that fails. -/
inductive Fills (fd : Fd) (data : Bytes) : List SysCall → Option Errno → Prop where
  | write {writes : List SysCall} {rest : Bytes} (h : Writes fd data writes rest) (hrest : rest ≠ []) (e : Errno) :
      Fills fd data (writes ++ [⟨.write fd rest, .error e⟩]) (some e)
  | addSeals {writes : List SysCall} (h : Writes fd data writes []) (e : Errno) :
      Fills fd data (writes ++ [⟨.addSeals fd, .error e⟩]) (some e)
  | lseek {writes : List SysCall} (h : Writes fd data writes []) (e : Errno) :
      Fills fd data (writes ++ [⟨.addSeals fd, .ok ()⟩, ⟨.lseek fd 0, .error e⟩]) (some e)
  | done {writes : List SysCall} (h : Writes fd data writes []) :
      Fills fd data (writes ++ [⟨.addSeals fd, .ok ()⟩, ⟨.lseek fd 0, .ok 0⟩]) none

section Runs

variable {w : World}

theorem follows_sealMemfd (hkernel : w.kernel = k.made fd ⟨data, data.length, false⟩) :
    Py.Follows (sealMemfd fd)
      (fun _ s' final => s' = s ∧ final.1.kernel = k.made fd ⟨data, 0, true⟩ ∧ w.Grants 2 ∧
        final.2 = calls ++ [⟨.addSeals fd, .ok ()⟩, ⟨.lseek fd 0, .ok 0⟩])
      (fun e s' final => s' = s ∧ (∃ m, final.1.kernel = k.made fd m) ∧ ∃ errno, e = .osError errno ∧
        (¬ w.Grants 1 ∧ final.2 = calls ++ [⟨.addSeals fd, .error errno⟩] ∨
          ¬ w.Grants 2 ∧ final.2 = calls ++ [⟨.addSeals fd, .ok ()⟩, ⟨.lseek fd 0, .error errno⟩])) s w calls := by
  have hfd : w.kernel.HasMemfd fd k.memfds.length ⟨data, data.length, false⟩ := hkernel ▸ k.hasMemfd_made fd _
  refine Method.obeys_assoc.mpr ?_
  apply follows_onMemfd (.addSeals fd) id (fun m => .ok ((), { m with sealed := true })) hfd rfl ⟨rfl, rfl⟩
  · intro reply hseal hreply
    cases hreply
    refine Method.obeys_assoc.mpr (Method.obeys_bind.mpr ?_)
    apply follows_onMemfd (.lseek fd 0) id (fun m => .ok (0, { m with offset := 0 })) (hfd.set _) rfl ⟨rfl, rfl⟩
    · intro reply hseek hreply
      cases hreply
      refine ⟨rfl, ?_, ?_, List.append_assoc ..⟩
      · show (w.kernel.setMemfd _ _).setMemfd _ _ = _
        rw [Kernel.setMemfd_setMemfd, hkernel, Kernel.setMemfd_made]
      · exact World.grants_succ.mpr ⟨hseal, World.grants_one.mpr hseek⟩
    · intro e reply hrefused hreply
      cases hreply
      have hsealed : w.kernel.setMemfd k.memfds.length ⟨data, data.length, true⟩ =
          k.made fd ⟨data, data.length, true⟩ := by
        rw [hkernel, Kernel.setMemfd_made]
      refine ⟨rfl, ⟨_, hsealed⟩, e, rfl, .inr ⟨fun h => ?_, List.append_assoc ..⟩⟩
      exact World.not_grants hrefused (World.grants_succ.mp h).2
  · intro e reply hrefused hreply
    cases hreply
    exact ⟨rfl, ⟨_, hkernel⟩, e, rfl, .inl ⟨World.not_grants hrefused, rfl⟩⟩

theorem follows_storeSealed (hkernel : w.kernel = k.made fd .new) (data : Bytes) :
    Py.Follows (storeSealed fd data)
      (fun _ s' final => s' = s ∧ final.1.kernel = k.made fd ⟨data, 0, true⟩ ∧ ∃ fills, Fills fd data fills none ∧
        w.Grants fills.length ∧ final.2 = calls ++ fills)
      (fun e s' final => s' = s ∧ (∃ m, final.1.kernel = k.made fd m) ∧ ∃ errno fills, e = .osError errno ∧
        Fills fd data fills (some errno) ∧ ¬ w.Grants fills.length ∧ final.2 = calls ++ fills) s w calls := by
  have hnew := k.hasMemfd_made fd .new
  refine Method.obeys_bind.mpr ?_
  apply follows_writeView [] data (hkernel ▸ hnew)
  · intro writes hwrites hgrants
    have hwhole : w.kernel.setMemfd k.memfds.length ⟨[] ++ data, ([] ++ data).length, false⟩ =
        k.made fd ⟨data, data.length, false⟩ := by
      rw [hkernel, Kernel.setMemfd_made, List.nil_append]
    rw [hwhole]
    apply (follows_sealMemfd (w := w.after writes.length (k.made fd ⟨data, data.length, false⟩)) rfl).mono
    · rintro _ _ final ⟨rfl, hfinal, hsealed, hcalls⟩
      refine ⟨rfl, hfinal, _, .done hwrites, ?_, hcalls.trans (List.append_assoc ..)⟩
      rw [List.length_append]
      exact World.grants_add.mpr ⟨hgrants, hsealed⟩
    · rintro _ _ final ⟨rfl, hfinal, e, rfl, ⟨hrefused, hcalls⟩ | ⟨hrefused, hcalls⟩⟩
      · refine ⟨rfl, hfinal, e, _, rfl, .addSeals hwrites e, ?_, hcalls.trans (List.append_assoc ..)⟩
        rw [List.length_append]
        exact fun h => hrefused (World.grants_add.mp h).2
      · refine ⟨rfl, hfinal, e, _, rfl, .lseek hwrites e, ?_, hcalls.trans (List.append_assoc ..)⟩
        rw [List.length_append]
        exact fun h => hrefused (World.grants_add.mp h).2
  · intro writes rest e m w' hwrites hrest hrefused hw'
    rw [hkernel, Kernel.setMemfd_made] at hw'
    refine ⟨rfl, ⟨m, hw'⟩, e, _, rfl, .write hwrites hrest e, ?_, rfl⟩
    rwa [List.length_append]

/-- How `memfd_sealed` ends: without a descriptor, with its descriptor closed, or with
all of the data in it. -/
inductive Sealing (name : Str) (data : Bytes) (w : World) : Except PyErr Fd → Kernel → List SysCall → Prop where
  | refused {e : Errno} (h : ¬ (w.kernel.Free (w.choices 0).fd ∧ w.Grants 1)) :
      Sealing name data w (.error (.osError e)) w.kernel [⟨.memfdCreate name, .error e⟩]
  | stopped {fd : Nat} {e : Errno} {calls : List SysCall} {m : Memfd} (hfree : w.kernel.Free fd)
      (h : Fills fd data calls (some e)) (hrefused : ¬ w.Grants (calls.length + 1)) :
      Sealing name data w (.error (.osError e)) (w.kernel.dropped m)
        (⟨.memfdCreate name, .ok fd⟩ :: calls ++ [⟨.close fd, .ok ()⟩])
  | sealed {calls : List SysCall} (hfree : w.kernel.Free (w.choices 0).fd)
      (h : Fills (w.choices 0).fd data calls none) (hgrants : w.Grants (calls.length + 1)) :
      Sealing name data w (.ok (w.choices 0).fd) (w.kernel.made (w.choices 0).fd ⟨data, 0, true⟩)
        (⟨.memfdCreate name, .ok (w.choices 0).fd⟩ :: calls)

theorem follows_closeAndRaise {rt : Runtime} {fd : Nat} {m : Memfd} {e : PyErr} (hfree : k.Free fd)
    (hkernel : w.kernel = k.made fd m) : Py.Follows (closeAndRaise rt fd e) (fun _ _ _ => False)
      (fun e' s' final => e' = e ∧ s' = s ∧ final.1.kernel = k.dropped m ∧ final.2 = calls ++ [⟨.close fd, .ok ()⟩])
      s w calls := by
  have hfile : w.kernel.fileAt fd = some (.memfd k.memfds.length) := hkernel ▸ (k.hasMemfd_made fd m).file
  have hdropped : w.kernel.shut fd (.memfd k.memfds.length) = k.dropped m := hkernel ▸ Kernel.close_made hfree m
  rw [closeAndRaise]
  split
  · refine Method.obeys_bind.mpr (follows_sys (Kernel.perform_close hfile) ?_)
    exact ⟨rfl, rfl, hdropped, rfl⟩
  · refine Method.obeys_bind.mpr (Method.obeys_bind.mpr (follows_sys (Kernel.perform_close hfile) ?_))
    exact ⟨rfl, rfl, hdropped, rfl⟩

theorem follows_memfdSealed {rt : Runtime} (hmemfd : rt.hasMemfd = true) (name : Str) (data : Bytes) :
    Py.Follows (memfdSealed rt name data)
      (fun fd s' final => s' = s ∧ Sealing name data w (.ok fd) final.1.kernel final.2)
      (fun e s' final => s' = s ∧ Sealing name data w (.error e) final.1.kernel final.2) s w [] := by
  rw [memfdSealed_eq hmemfd]
  refine Method.obeys_bind.mpr ?_
  apply follows_attempt (.memfdCreate name) id (Kernel.openFile
    { w.kernel with memfds := w.kernel.memfds ++ [.new] } (w.choices 0).fd (.memfd w.kernel.memfds.length))
      ⟨rfl, rfl⟩
  · intro fd k' reply hgranted hopen hreply
    cases hreply
    obtain ⟨hfree, rfl, rfl⟩ := Kernel.openFile_eq_ok hopen
    have hfree : w.kernel.Free (w.choices 0).fd := hfree
    refine Method.obeys_bind.mpr (Method.obeys_handling.mpr ?_)
    apply (follows_storeSealed (w := w.after 1 (w.kernel.made (w.choices 0).fd .new)) rfl data).mono
    · rintro _ _ final ⟨rfl, hkernel, fills, hfills, hgrants, hcalls⟩
      refine ⟨rfl, ?_⟩
      rw [hkernel, hcalls]
      exact .sealed hfree hfills (World.grants_succ.mpr ⟨hgranted, hgrants⟩)
    · rintro _ _ ⟨w', calls⟩ ⟨rfl, ⟨m, hkernel⟩, e, fills, rfl, hfills, hrefused, rfl⟩
      apply (follows_closeAndRaise hfree hkernel).mono
      · exact fun _ _ _ => False.elim
      · rintro _ _ final ⟨rfl, rfl, hfinal, hcalls⟩
        refine ⟨rfl, ?_⟩
        rw [hfinal, hcalls]
        exact .stopped hfree hfills fun h => hrefused (World.grants_succ.mp h).2
  · intro e reply hfailed hreply
    cases hreply
    refine ⟨rfl, .refused ?_⟩
    rintro ⟨hfree, hgrants⟩
    rcases hfailed with hrefused | hopen
    · exact World.not_grants hrefused hgrants
    · rw [Kernel.openFile] at hopen
      cases (if_pos hfree).symm.trans hopen

theorem ends_memfdSealed {rt : Runtime} {name : Str} {data : Bytes} {ok : Fd → σ → Kernel → Prop}
    {err : PyErr → σ → Kernel → Prop} (hok : ∀ fd : Nat, k.Free fd → ok fd s (k.made fd ⟨data, 0, true⟩))
    (herr : ∀ e, err e s k) (hdropped : ∀ e m, err e s (k.dropped m)) :
    Py.Ends (memfdSealed rt name data) ok err s k := by
  cases hmemfd : rt.hasMemfd with
  | false =>
    rw [memfdSealed, hmemfd]
    exact herr _
  | true =>
    refine Py.ends_of_follows fun choices => (follows_memfdSealed hmemfd name data).mono ?_ ?_
    · rintro fd _ ⟨⟨k', _⟩, calls⟩ ⟨rfl, hsealing⟩
      cases hsealing with
      | sealed hfree => exact hok _ hfree
    · rintro e _ ⟨⟨k', _⟩, calls⟩ ⟨rfl, hsealing⟩
      cases hsealing with
      | refused => exact herr _
      | stopped => exact hdropped _ _

theorem agree_closeAndRaise {rt rt' : Runtime} {file : File} (hfile : k.fileAt fd = some file) (e : PyErr) :
    Method.Agree Kernel.contract (closeAndRaise rt fd e) (closeAndRaise rt' fd e) s k := by
  have hclose : ∀ {reply : (Sys.close fd).Reply} {k' : Kernel},
      Kernel.contract.answers k (.close fd) reply k' → reply = .ok () := by
    rintro reply k' ⟨c, hc⟩
    rw [Kernel.perform_close hfile] at hc
    cases hc
    rfl
  rw [closeAndRaise, closeAndRaise]
  split
  all_goals split
  all_goals
    refine .call trivial fun reply k' hreply => ?_
    cases hclose hreply
    exact .ret _ _

theorem agree_memfdSealed {rt rt' : Runtime} (hmemfd : rt.hasMemfd = true) (hmemfd' : rt'.hasMemfd = true)
    (name : Str) (data : Bytes) :
    Method.Agree Kernel.contract (memfdSealed rt name data) (memfdSealed rt' name data) s k := by
  rw [memfdSealed_eq hmemfd, memfdSealed_eq hmemfd']
  apply (Py.agree_self _ s k).bind
  apply ends_attempt (.memfdCreate name) id (fun c => Kernel.openFile
    { k with memfds := k.memfds ++ [.new] } c.fd (.memfd k.memfds.length)) (fun c => ⟨rfl, rfl⟩) _ fun e => trivial
  intro c fd k' hopen
  obtain ⟨hfree, rfl, rfl⟩ := Kernel.openFile_eq_ok hopen
  refine Method.Agree.bind (Method.Agree.handling (Py.agree_self _ _ _) ?_) ?_
  · refine Py.ends_of_follows fun choices => ?_
    apply (follows_storeSealed (w := ⟨k.made c.fd .new, choices⟩) rfl data).mono
    · exact fun _ _ _ _ => trivial
    · rintro e _ ⟨⟨_, _⟩, _⟩ ⟨rfl, ⟨m, rfl⟩, -⟩
      exact agree_closeAndRaise (k.hasMemfd_made c.fd m).file e
  · exact Py.ends_of_forall (fun a s k => Py.agree_self _ s k) (fun _ _ _ => trivial) _ _ _

end Runs

/-! The two backends. -/

/-- What a run of `memfd_sealed` in the world `w` comes to: when no call is refused, a
file that is sealed, holds the data and is at its start; otherwise the error of the call
that failed, and no descriptor. -/
structure Conveys (name : Str) (data : Bytes) (w : World) (result : Except PyErr Fd) (k' : Kernel)
    (calls : List SysCall) : Prop where
  timely : Runs.Each SysCall.storing (SysCall.Timely data) [] calls
  few : calls.countP (fun call => call.IsWrite) ≤ data.length
  whole : ∀ fd, result = .ok fd → ∃ n : Nat, fd = n ∧ w.kernel.Free n ∧ k' = w.kernel.made n ⟨data, 0, true⟩
  raises : ∀ call ∈ calls, ∀ e, call.memfdError = some e → result = .error (.osError e)
  closes : ∀ e, result = .error e → k'.table = w.kernel.table ∧
    ∀ fd, calls.head? = some ⟨.memfdCreate name, .ok fd⟩ → calls.getLast? = some ⟨.close fd, .ok ()⟩
  returns : (∃ fd, result = .ok fd) ↔ w.kernel.Free (w.choices 0).fd ∧ w.Grants calls.length

theorem Fills.timely {e : Option Errno} (h : Fills fd data calls e) :
    Runs.Each SysCall.storing (SysCall.Timely data) [] calls := by
  cases h with
  | write h hrest e =>
    obtain ⟨heach, hstored⟩ := h.timely (List.nil_append data)
    exact Runs.each_append.mpr ⟨heach, ⟨hrest, hstored⟩, trivial⟩
  | addSeals h e =>
    obtain ⟨heach, hstored⟩ := h.timely_all
    exact Runs.each_append.mpr ⟨heach, hstored, trivial⟩
  | lseek h e =>
    obtain ⟨heach, hstored⟩ := h.timely_all
    exact Runs.each_append.mpr ⟨heach, hstored, trivial, trivial⟩
  | done h =>
    obtain ⟨heach, hstored⟩ := h.timely_all
    exact Runs.each_append.mpr ⟨heach, hstored, trivial, trivial⟩

theorem Fills.few {e : Option Errno} (h : Fills fd data calls e) :
    calls.countP (fun call => call.IsWrite) ≤ data.length := by
  cases h with
  | @write writes rest h hrest e =>
    have hpos : 0 < rest.length := List.length_pos_iff.mpr hrest
    refine le_trans ?_ h.length_le
    rw [List.countP_append]
    exact Nat.add_le_add List.countP_le_length hpos
  | addSeals h e =>
    rw [List.countP_append]
    exact List.countP_le_length.trans h.length_le
  | lseek h e =>
    rw [List.countP_append]
    exact List.countP_le_length.trans h.length_le
  | done h =>
    rw [List.countP_append]
    exact List.countP_le_length.trans h.length_le

theorem Fills.error_eq {e : Option Errno} {errno : Errno} (h : Fills fd data calls e) {call : SysCall}
    (hcall : call ∈ calls) (herror : call.memfdError = some errno) : e = some errno := by
  have hlater : ∀ {writes rest later}, Writes fd data writes rest → call ∈ writes ++ later → call ∈ later := by
    intro writes rest later h hcall
    refine (List.mem_append.mp hcall).resolve_left fun hcall => ?_
    rw [h.memfdError_eq hcall] at herror
    cases herror
  cases h with
  | write h hrest e =>
    cases List.mem_singleton.mp (hlater h hcall)
    exact herror
  | addSeals h e =>
    cases List.mem_singleton.mp (hlater h hcall)
    exact herror
  | lseek h e =>
    rcases List.mem_pair.mp (hlater h hcall) with rfl | rfl
    · cases herror
    · exact herror
  | done h =>
    rcases List.mem_pair.mp (hlater h hcall) with rfl | rfl
    · cases herror
    · cases herror

theorem Sealing.conveys {name : Str} {w : World} {result : Except PyErr Fd} {k' : Kernel}
    (h : Sealing name data w result k' calls) : Conveys name data w result k' calls := by
  cases h with
  | @refused e h =>
    refine ⟨⟨trivial, trivial⟩, Nat.zero_le _, nofun, ?_, fun _ _ => ⟨rfl, nofun⟩, iff_of_false nofun h⟩
    rintro call hcall e' herror
    cases List.mem_singleton.mp hcall
    cases herror
    rfl
  | @stopped fd e fills m hfree h hrefused =>
    refine ⟨⟨trivial, ?_⟩, ?_, nofun, ?_, fun _ _ => ⟨rfl, ?_⟩, iff_of_false nofun ?_⟩
    · exact Runs.each_append.mpr ⟨h.timely, trivial, trivial⟩
    · rw [List.cons_append, List.countP_cons, List.countP_append]
      exact h.few
    · intro call hcall e' herror
      rcases List.mem_cons.mp hcall with rfl | hcall
      · cases herror
      · rcases List.mem_append.mp hcall with hcall | hcall
        · cases h.error_eq hcall herror
          rfl
        · cases List.mem_singleton.mp hcall
          cases herror
    · intro fd' hhead
      cases hhead
      exact List.getLast?_concat ..
    · rintro ⟨-, hgrants⟩
      refine hrefused fun i hi => hgrants i ?_
      rw [List.length_append]
      exact Nat.lt_succ_of_lt hi
  | @sealed fills hfree h hgrants =>
    refine ⟨⟨trivial, h.timely⟩, h.few, ?_, ?_, nofun, ?_⟩
    · rintro fd hfd
      cases hfd
      exact ⟨_, rfl, hfree, rfl⟩
    · intro call hcall e herror
      rcases List.mem_cons.mp hcall with rfl | hcall
      · cases herror
      · cases h.error_eq hcall herror
    · exact iff_of_true ⟨_, rfl⟩ ⟨hfree, hgrants⟩

/-- The backends of any two runtimes that have `memfd_create`, whatever the environment
makes of each call: they make the same calls and end alike, and store the data whole or
close what they opened. -/
theorem memfd_writers_agree {rt rt' : Runtime} (hmemfd : rt.hasMemfd = true) (hmemfd' : rt'.hasMemfd = true)
    (name : Str) (data : Bytes) (s : σ) (w : World) :
    Py.run (memfdSealed rt name data) s w = Py.run (memfdSealed rt' name data) s w ∧
      Py.trace (memfdSealed rt name data) s w = Py.trace (memfdSealed rt' name data) s w ∧
      Conveys name data w (Py.run (memfdSealed rt name data) s w).1.1
        (Py.run (memfdSealed rt name data) s w).2.kernel (Py.trace (memfdSealed rt name data) s w) := by
  obtain ⟨hrun, htrace⟩ := (agree_memfdSealed hmemfd hmemfd' name data).run Kernel.honouredBy_world rfl
  have hends := Py.Follows.run (follows_memfdSealed (s := s) (w := w) hmemfd name data)
  have hpost := (Method.outcome_iff fun result s' (final : World × List SysCall) =>
    s' = s ∧ Sealing name data w result final.1.kernel final.2).mp hends
  exact ⟨hrun, htrace, hpost.2.conveys⟩

/-- The second write stores the last of three bytes. -/
theorem memfd_writers_agree_short :
    let cpython : Runtime := { Runtime.unixPort with micropython := false }
    let w : World := ⟨.bare, fun _ => ⟨none, 3, 0, 2, 0⟩⟩
    Py.run (memfdSealed .unixPort (str "j") (bytes "abc")) () w =
        Py.run (memfdSealed cpython (str "j") (bytes "abc")) () w ∧
      Py.trace (memfdSealed .unixPort (str "j") (bytes "abc")) () w =
        Py.trace (memfdSealed cpython (str "j") (bytes "abc")) () w ∧
      Conveys (str "j") (bytes "abc") w (Py.run (memfdSealed .unixPort (str "j") (bytes "abc")) () w).1.1
        (Py.run (memfdSealed .unixPort (str "j") (bytes "abc")) () w).2.kernel
        (Py.trace (memfdSealed .unixPort (str "j") (bytes "abc")) () w) :=
  memfd_writers_agree rfl rfl (str "j") (bytes "abc") () _

end Mpsystemd
