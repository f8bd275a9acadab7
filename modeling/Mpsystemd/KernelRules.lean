import Mpsystemd.Platform

/-! What each platform primitive does to the kernel, whatever the environment
chooses, when nothing else runs in between. -/

namespace Mpsystemd

/-- Every call is permitted, and answered in any way the environment can choose. -/
def Kernel.contract : Prog.Contract Sys Sys.Reply Kernel :=
  ⟨fun _ _ => True, fun k op reply k' => ∃ c : Choice, k.perform c op = (reply, k')⟩

theorem Kernel.honouredBy_world :
    Kernel.contract.HonouredBy World.perform fun k w => w.kernel = k := by
  rintro k op w rfl _
  exact ⟨_, ⟨w.choices 0, rfl⟩, rfl⟩

/-- The method ends in `ok` or `err`, from the kernel `k`, whatever the choices. -/
abbrev Py.Ends {σ α : Type} (m : Py σ α) (ok : α → σ → Kernel → Prop) (err : PyErr → σ → Kernel → Prop)
    (s : σ) (k : Kernel) : Prop := m.Obeys Kernel.contract ok err s k

theorem Py.Ends.run {σ α : Type} {m : Py σ α} {ok : α → σ → Kernel → Prop}
    {err : PyErr → σ → Kernel → Prop} {s : σ} {w : World} (h : Py.Ends m ok err s w.kernel) :
    Method.outcome ok err (m.run s w).1 (m.run s w).2.kernel := by
  obtain ⟨k', hpost, hk⟩ := Method.Obeys.run Kernel.honouredBy_world h rfl
  rw [← hk] at hpost
  exact hpost

theorem Py.ends_of_forall {σ α : Type} {ok : α → σ → Kernel → Prop} {err : PyErr → σ → Kernel → Prop}
    (hok : ∀ a s k, ok a s k) (herr : ∀ e s k, err e s k) (m : Py σ α) (s : σ) (k : Kernel) :
    Py.Ends m ok err s k := by
  refine Prog.obeys_of_permits (fun _ _ => trivial) ?_ (m s) k
  rintro ⟨result, s'⟩ k'
  cases result with
  | ok a => exact hok a s' k'
  | error e => exact herr e s' k'

theorem Py.agree_self {σ α : Type} (m : Py σ α) (s : σ) (k : Kernel) : Method.Agree Kernel.contract m m s k :=
  (Py.ends_of_forall (fun _ _ _ => trivial) (fun _ _ _ => trivial) m s k).agree_self

theorem Kernel.obeys_of_run {α : Type} {post : α → Kernel → Prop} {p : Prog Sys Sys.Reply α} {k : Kernel}
    (h : ∀ choices, post (p.run World.perform ⟨k, choices⟩).1 (p.run World.perform ⟨k, choices⟩).2.kernel) :
    p.Obeys Kernel.contract post k := by
  induction p generalizing k with
  | ret value => exact h fun _ => ⟨none, 0, 0, 0, 0⟩
  | call op next ih =>
    refine ⟨trivial, fun reply k' ⟨c, hc⟩ => ih reply fun choices => ?_⟩
    have hperform : World.perform op ⟨k, fun n => n.casesOn c choices⟩ = (reply, ⟨k', choices⟩) := by
      rw [World.perform]
      show ((k.perform c op).1, World.mk (k.perform c op).2 choices) = _
      rw [hc]
    have hrun := h fun n => n.casesOn c choices
    rw [Prog.run, hperform] at hrun
    exact hrun

theorem Py.ends_iff_run {σ α : Type} {m : Py σ α} {ok : α → σ → Kernel → Prop}
    {err : PyErr → σ → Kernel → Prop} {s : σ} {k : Kernel} :
    Py.Ends m ok err s k ↔
      ∀ choices, Method.outcome ok err (m.run s ⟨k, choices⟩).1 (m.run s ⟨k, choices⟩).2.kernel :=
  ⟨fun h _ => h.run, Kernel.obeys_of_run⟩

/-- The method ends with the result and leaves its attributes as they were and
the kernel `k'`, whatever the choices. -/
def Py.Does {σ α : Type} (m : Py σ α) (result : Except PyErr α) (k' : Kernel) (s : σ) (k : Kernel) :
    Prop :=
  Py.Ends m (fun a s' k₁ => result = .ok a ∧ s' = s ∧ k₁ = k')
    (fun e s' k₁ => result = .error e ∧ s' = s ∧ k₁ = k') s k

namespace Py

variable {σ α β : Type} {m : Py σ α} {s : σ} {k k₁ k₂ : Kernel}

theorem Does.run {result : Except PyErr α} {w : World} (h : m.Does result k₁ s w.kernel) :
    (m.run s w).1 = (result, s) ∧ (m.run s w).2.kernel = k₁ := by
  have hpost := Ends.run h
  generalize m.run s w = r at hpost
  obtain ⟨⟨result', s'⟩, w'⟩ := r
  cases result' with
  | ok a =>
    obtain ⟨rfl, rfl, rfl⟩ := hpost
    exact ⟨rfl, rfl⟩
  | error e =>
    obtain ⟨rfl, rfl, rfl⟩ := hpost
    exact ⟨rfl, rfl⟩

theorem Does.bind {f : α → Py σ β} {a : α} {result : Except PyErr β} (h : m.Does (.ok a) k₁ s k)
    (hf : (f a).Does result k₂ s k₁) : (m >>= f).Does result k₂ s k := by
  refine Method.obeys_bind.mpr (h.mono ?_ ?_)
  · rintro b s' k' ⟨hb, rfl, rfl⟩
    cases hb
    exact hf
  · rintro e s' k' ⟨he, _⟩
    cases he

theorem Does.bind_error {f : α → Py σ β} {e : PyErr} (h : m.Does (.error e) k₁ s k) :
    (m >>= f).Does (.error e) k₁ s k := by
  refine Method.obeys_bind.mpr (h.mono ?_ ?_)
  · rintro b s' k' ⟨hb, _⟩
    cases hb
  · rintro e' s' k' ⟨he, rfl, rfl⟩
    cases he
    exact ⟨rfl, rfl, rfl⟩

theorem does_pure {a : α} : (pure a : Py σ α).Does (.ok a) k s k := ⟨rfl, rfl, rfl⟩

theorem does_raise {e : PyErr} : Does (Method.raise e : Py σ α) (.error e) k s k := ⟨rfl, rfl, rfl⟩

theorem does_lift {result : Except PyErr α} : Does (Method.lift result : Py σ α) result k s k := by
  cases result with
  | ok a => exact ⟨rfl, rfl, rfl⟩
  | error e => exact ⟨rfl, rfl, rfl⟩

theorem does_sys {op : Sys} {reply : op.Reply} (h : ∀ c, k.perform c op = (reply, k₁)) :
    (sys op : Py σ op.Reply).Does (.ok reply) k₁ s k := by
  refine Method.obeys_call.mpr ⟨trivial, ?_⟩
  rintro reply' k' ⟨c, hc⟩
  rw [h c] at hc
  cases hc
  exact ⟨rfl, rfl, rfl⟩

theorem does_getenv {name : Str} : (getenv name : Py σ _).Does (.ok (k.env name)) k s k :=
  does_sys fun _ => rfl

theorem does_unsetenv {name : Str} :
    (unsetenv name : Py σ _).Does (.ok ()) { k with env := Function.update k.env name none } s k :=
  does_sys fun _ => rfl

theorem does_getpid : (getpid : Py σ _).Does (.ok k.pid) k s k := does_sys fun _ => rfl

end Py

section Primitives

variable {σ α : Type} {s : σ} {k : Kernel} {err : PyErr → σ → Kernel → Prop}

def Kernel.post (k : Kernel) (message : Message) : Kernel := { k with sent := k.sent ++ [message] }

def Kernel.shut (k : Kernel) (fd : Fd) (file : File) : Kernel :=
  { k.remove fd with closes := k.closes ++ [some file] }

theorem ends_attempt (op : Sys) (x : op.Reply → Except Errno α)
    (act : Choice → Except Errno (α × Kernel)) {ok : α → σ → Kernel → Prop}
    (hperform : ∀ c : Choice, x (k.perform c op).1 = (c.attempt id k (act c)).1 ∧
      (k.perform c op).2 = (c.attempt id k (act c)).2)
    (hok : ∀ c a k', act c = .ok (a, k') → ok a s k') (herr : ∀ e, err (.osError e) s k) :
    Py.Ends (sys op >>= fun reply => Method.lift (check (x reply))) ok err s k := by
  refine Method.obeys_bind.mpr ⟨trivial, ?_⟩
  rintro reply k' ⟨c, hc⟩
  obtain ⟨hreply, hkernel⟩ := hperform c
  rw [hc] at hreply hkernel
  show (Method.lift (check (x reply))).Obeys Kernel.contract ok err s k'
  rw [hreply, show k' = _ from hkernel]
  rcases c.attempt_cases id k (act c) with ⟨e, hr⟩ | ⟨a, k'', _, hact, hr⟩
  · rw [hr]
    exact herr e
  · rw [hr]
    exact hok c a k'' hact

theorem ends_attempt_iff (op : Sys) (x : op.Reply → Except Errno α)
    (act : Choice → Except Errno (α × Kernel)) {ok : α → σ → Kernel → Prop}
    (hperform : ∀ c : Choice, x (k.perform c op).1 = (c.attempt id k (act c)).1 ∧
      (k.perform c op).2 = (c.attempt id k (act c)).2) :
    Py.Ends (sys op >>= fun reply => Method.lift (check (x reply))) ok (fun _ _ _ => True) s k ↔
      ∀ c a k', c.error = none → act c = .ok (a, k') → ok a s k' := by
  constructor
  · intro h c a k' herror hact
    have hattempt : c.attempt id k (act c) = (.ok a, k') := by rw [hact, Choice.attempt_ok herror]
    obtain ⟨hreply, hkernel⟩ := hperform c
    have hpost : (Method.lift (check (x (k.perform c op).1)) : Py σ α).Obeys Kernel.contract ok
        (fun _ _ _ => True) s (k.perform c op).2 :=
      (Method.obeys_call.mp (Method.obeys_bind.mp h)).2 (k.perform c op).1 (k.perform c op).2 ⟨c, rfl⟩
    rw [hreply, hkernel, hattempt] at hpost
    exact hpost
  · intro h
    refine Method.obeys_bind.mpr ⟨trivial, ?_⟩
    rintro reply k' ⟨c, hc⟩
    obtain ⟨hreply, hkernel⟩ := hperform c
    rw [hc] at hreply hkernel
    show (Method.lift (check (x reply))).Obeys Kernel.contract ok _ s k'
    rw [hreply, show k' = _ from hkernel]
    rcases c.attempt_cases id k (act c) with ⟨e, hr⟩ | ⟨a, k'', herror, hact, hr⟩
    · rw [hr]
      exact trivial
    · rw [hr]
      exact h c a k'' herror hact

theorem run_attempt (op : Sys) (x : op.Reply → Except Errno α) (act : Except Errno (α × Kernel)) (s : σ)
    (w : World)
    (hperform : x (w.kernel.perform (w.choices 0) op).1 = ((w.choices 0).attempt id w.kernel act).1 ∧
      (w.kernel.perform (w.choices 0) op).2 = ((w.choices 0).attempt id w.kernel act).2) :
    (∃ e, ¬ ((w.choices 0).error = none ∧ ∃ result, act = .ok result) ∧
      Py.run (sys op >>= fun reply => Method.lift (check (x reply))) s w =
        ((.error (.osError e), s), ⟨w.kernel, fun n => w.choices (n + 1)⟩)) ∨
    ∃ a k', (w.choices 0).error = none ∧ act = .ok (a, k') ∧
      Py.run (sys op >>= fun reply => Method.lift (check (x reply))) s w =
        ((.ok a, s), ⟨k', fun n => w.choices (n + 1)⟩) := by
  obtain ⟨hreply, hkernel⟩ := hperform
  have hrun : Py.run (sys op >>= fun reply => Method.lift (check (x reply))) s w =
      ((check (x (w.kernel.perform (w.choices 0) op).1), s),
        ⟨(w.kernel.perform (w.choices 0) op).2, fun n => w.choices (n + 1)⟩) := rfl
  rw [hrun, hreply, hkernel]
  cases herror : (w.choices 0).error with
  | some e =>
    rw [Choice.attempt_refused herror]
    exact .inl ⟨e, by simp, rfl⟩
  | none =>
    cases act with
    | error e =>
      rw [Choice.attempt_error herror]
      exact .inl ⟨e, by simp, rfl⟩
    | ok result =>
      rw [Choice.attempt_ok herror]
      exact .inr ⟨result.1, result.2, rfl, rfl, rfl⟩

theorem Kernel.openFile_eq_ok {fd : Nat} {file : File} {fd' : Fd} {k' : Kernel}
    (h : k.openFile fd file = .ok (fd', k')) :
    k.Free fd ∧ fd' = fd ∧ k' = k.install fd ⟨file, true⟩ := by
  rw [Kernel.openFile] at h
  split at h
  · next hfree =>
    cases h
    exact ⟨hfree, rfl, rfl⟩
  · cases h

theorem Kernel.lowestFree_eq_some {minfd fd : Nat} (h : k.lowestFree minfd = some fd) :
    minfd ≤ fd ∧ k.Free fd := by
  have hmem := List.mem_of_find?_eq_some h
  have hfree := List.find?_some h
  simp only [List.mem_range'_1] at hmem
  refine ⟨hmem.1, by omega, by simpa using hfree⟩

theorem ends_newDatagram {peer : Option Bytes} {ok : UnixDatagram → σ → Kernel → Prop}
    (hok : ∀ fd : Nat, k.Free fd → ok ⟨fd, peer⟩ s (k.install fd ⟨.socket, true⟩))
    (herr : ∀ e, err (.osError e) s k) : Py.Ends (UnixDatagram.new peer) ok err s k := by
  refine Method.obeys_assoc.mpr ?_
  apply ends_attempt .socket id (fun c => k.openFile c.fd .socket) (fun c => ⟨rfl, rfl⟩) _ herr
  intro c fd k' hopen
  obtain ⟨hfree, rfl, rfl⟩ := Kernel.openFile_eq_ok hopen
  exact hok c.fd hfree

theorem ends_send {sock : UnixDatagram} {peer data : Bytes} {ok : Nat → σ → Kernel → Prop}
    (hpeer : sock.peer = some peer)
    (hok : ∀ n, ok n s (k.post ⟨peer, data, []⟩))
    (herr : ∀ e, err (.osError e) s k) : Py.Ends (sock.send data) ok err s k := by
  simp only [UnixDatagram.send, hpeer]
  apply ends_attempt (.sendto sock.fd peer data) id (fun _ => k.deliver sock.fd peer data (some []))
    (fun c => ⟨rfl, rfl⟩) _ herr
  intro c n k' hdeliver
  obtain ⟨fs, hfs, rfl⟩ := Kernel.deliver_eq_ok hdeliver
  cases hfs
  exact hok n

theorem ends_sendWithFd {rt : Runtime} {sock : UnixDatagram} {peer data : Bytes} {fd : Fd} {file : File}
    {ok : Nat → σ → Kernel → Prop} (hpeer : sock.peer = some peer) (h0 : 0 ≤ fd) (hmax : fd < 2 ^ 31)
    (hfd : k.fileAt fd = some file)
    (hok : ∀ n, ok n s (k.post ⟨peer, data, [file]⟩))
    (herr : ∀ e, err (.osError e) s k) : Py.Ends (sock.sendWithFds rt data [fd]) ok err s k := by
  have hpack : [fd].mapM (UnixDatagram.packFd rt) = .ok [fd] := by
    simp [UnixDatagram.packFd_of_range h0 hmax]
  have hfew : ¬ [fd].length > maxFdsPerMessage := by simp [maxFdsPerMessage]
  simp only [UnixDatagram.sendWithFds, hpeer, List.cons_ne_nil, if_false, if_neg hfew, hpack]
  refine Method.obeys_bind.mpr ?_
  apply ends_attempt (.sendmsg sock.fd peer data [fd]) id
    (fun _ => k.deliver sock.fd peer data ([fd].mapM k.fileAt)) (fun c => ⟨rfl, rfl⟩) _ herr
  intro c n k' hdeliver
  obtain ⟨fs, hfs, rfl⟩ := Kernel.deliver_eq_ok hdeliver
  have hfiles : [file] = fs := by simpa [hfd] using hfs
  exact hfiles ▸ hok n

theorem Kernel.perform_close {c : Choice} {fd : Fd} {file : File} (hfd : k.fileAt fd = some file) :
    k.perform c (.close fd) = (.ok (), k.shut fd file) := by
  simp only [Kernel.perform, hfd, Kernel.shut]

theorem run_sysClose {fd : Fd} {file : File} {w : World} (hfd : w.kernel.fileAt fd = some file) :
    Py.run (sys (.close fd)) s w = ((.ok (.ok ()), s), ⟨w.kernel.shut fd file, fun n => w.choices (n + 1)⟩) := by
  show ((Except.ok (World.perform (.close fd) w).1, s), (World.perform (.close fd) w).2) = _
  rw [World.perform, Kernel.perform_close hfd]

theorem ends_sysClose {fd : Fd} {file : File} {ok : Except Errno Unit → σ → Kernel → Prop}
    (hfd : k.fileAt fd = some file)
    (hok : ok (.ok ()) s (k.shut fd file)) :
    Py.Ends (sys (.close fd)) ok err s k := by
  refine Method.obeys_call.mpr ⟨trivial, ?_⟩
  rintro reply k' ⟨c, hc⟩
  rw [Kernel.perform_close hfd] at hc
  cases hc
  exact hok

/-- The descriptors of the process but for one that is held. -/
def Kernel.besides (k : Kernel) : Option Fd → Fd → Option Descriptor
  | none => k.table
  | some fd => Function.update k.table fd none

/-- The process has its other descriptors and, at a number that is held, the file. -/
def Kernel.Has (k : Kernel) (rest : Fd → Option Descriptor) (file : File) : Option Fd → Prop
  | none => k.table = rest
  | some fd => 0 ≤ fd ∧ rest fd = none ∧ k.table = Function.update rest fd (some ⟨file, true⟩)

namespace Kernel.Has

variable {rest : Fd → Option Descriptor} {file : File}

theorem install (h : k.Has rest file none) {fd : Nat} (hfree : k.Free fd) :
    (k.install fd ⟨file, true⟩).Has rest file (some (fd : Fd)) := by
  have htable : k.table = rest := h
  refine ⟨Int.natCast_nonneg fd, htable ▸ hfree.2, ?_⟩
  rw [Kernel.install_table, htable]

theorem table_eq {fd : Fd} (h : k.Has rest file (some fd)) : k.table fd = some ⟨file, true⟩ := by
  rw [h.2.2, Function.update_self]

theorem fileAt_eq {fd : Fd} (h : k.Has rest file (some fd)) : k.fileAt fd = some file := by
  rw [Kernel.fileAt, h.table_eq]
  rfl

theorem shut {fd : Fd} (h : k.Has rest file (some fd)) : (k.shut fd file).table = rest := by
  show Function.update k.table fd none = rest
  rw [h.2.2, Function.update_idem, Function.update_eq_self_iff, h.2.1]

/-- The rest of the process may do what it likes with its own descriptors. -/
theorem others {k' : Kernel} {held : Option Fd} (h : k.Has rest file held)
    (hspares : ∀ fd, held = some fd → k'.table fd = k.table fd) : k'.Has (k'.besides held) file held := by
  cases held with
  | none => rfl
  | some fd =>
    have hopen : k'.table fd = some ⟨file, true⟩ := (hspares fd rfl).trans h.table_eq
    refine ⟨h.1, Function.update_self .., ?_⟩
    rw [besides, Function.update_idem, ← hopen, Function.update_eq_self]

end Kernel.Has

theorem ends_closeFd {fd : Fd} {file : File} {ok : Unit → σ → Kernel → Prop}
    (hfd : k.fileAt fd = some file)
    (hok : ok () s (k.shut fd file)) :
    Py.Ends (closeFd fd) ok err s k :=
  Method.obeys_bind.mpr (ends_sysClose hfd hok)

theorem ends_closeDatagram {rt : Runtime} {sock : UnixDatagram} {file : File}
    {ok : Unit → UnixDatagram → Kernel → Prop} {err : PyErr → UnixDatagram → Kernel → Prop}
    (h0 : 0 ≤ sock.fd) (hfd : k.fileAt sock.fd = some file)
    (hok : ok () { sock with fd := -1 } (k.shut sock.fd file)) :
    Py.Ends (UnixDatagram.close rt) ok err sock k := by
  simp only [UnixDatagram.close, Method.obeys_bind, Method.obeys_attributes, ge_iff_le, if_pos h0]
  split
  · exact Method.obeys_bind.mpr (ends_sysClose hfd hok)
  · exact Method.obeys_bind.mpr (ends_closeFd hfd hok)

end Primitives

end Mpsystemd
