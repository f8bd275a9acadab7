import Mathlib.Data.List.Count
import Mpsystemd.Holding
import Mpsystemd.Lib.Runs

/-! Descriptor accounting over whole runs of one notifier: the process's
descriptors are those it had before, the notifier's socket and the read ends
its caller still holds, whatever fails. -/

namespace Mpsystemd

/-- The process has the held descriptors beside those of `base`, and `missed`
closes so far found nothing to close. -/
structure Tracks (base : Fd → Option Descriptor) (missed : Nat) (h : Holding) (k : Kernel) :
    Prop where
  table : ∀ fd, k.table fd = ((h.own fd).map (⟨·, true⟩)).or (base fd)
  apart : ∀ fd, h.own fd ≠ none → base fd = none
  missed : k.closes.count none = missed
  pipes : ∀ fd pipe, h.own fd = some (.pipeWrite pipe) → pipe < k.pipes
  unposted : ∀ pipe, k.pipes ≤ pipe → h.posted pipe = none

namespace Tracks

variable {base : Fd → Option Descriptor} {missed : Nat} {h : Holding} {k : Kernel}

theorem fileAt_of_own {fd : Fd} {file : File} (ht : Tracks base missed h k)
    (hfd : h.own fd = some file) : k.fileAt fd = some file := by
  simp [Kernel.fileAt, ht.table, hfd]

theorem idle (ht : Tracks base missed h k) : Tracks base missed (.idle h.own) k :=
  ⟨ht.table, ht.apart, ht.missed, ht.pipes, fun _ _ => rfl⟩

theorem own_of_free {fd : Fd} (ht : Tracks base missed h k) (hfd : k.table fd = none) :
    h.own fd = none ∧ base fd = none := by
  have htable := ht.table fd
  rw [hfd] at htable
  cases hown : h.own fd with
  | none => exact ⟨rfl, by simpa [hown] using htable.symm⟩
  | some file => simp [hown] at htable

theorem fresh_of_free {fd : Nat} (ht : Tracks base missed h k) (hfd : k.Free fd) : h.Fresh fd :=
  ⟨Int.natCast_nonneg fd, by exact_mod_cast hfd.1, (ht.own_of_free hfd.2).1⟩

theorem acquire {fd : Fd} {file : File} (ht : Tracks base missed h k) (hfd : k.table fd = none)
    (hfile : ∀ pipe, file = .pipeWrite pipe → pipe < k.pipes) :
    Tracks base missed (h.acquire fd file) (k.install fd ⟨file, true⟩) where
  table fd' := by
    by_cases heq : fd' = fd
    · subst heq
      simp
    · simp [Function.update_of_ne heq, ht.table]
  apart fd' := by
    by_cases heq : fd' = fd
    · exact fun _ => heq ▸ (ht.own_of_free hfd).2
    · simpa [Function.update_of_ne heq] using ht.apart fd'
  missed := ht.missed
  pipes fd' pipe := by
    by_cases heq : fd' = fd
    · subst heq
      simpa using hfile pipe
    · simpa [Function.update_of_ne heq] using ht.pipes fd' pipe
  unposted := ht.unposted

theorem release {fd : Fd} {file : File} (ht : Tracks base missed h k) (hfd : h.own fd = some file) :
    Tracks base missed (h.release fd)
      { k.remove fd with closes := k.closes ++ [some file] } where
  table fd' := by
    by_cases heq : fd' = fd
    · subst heq
      simp [ht.apart fd' (by simp [hfd])]
    · simp [Function.update_of_ne heq, ht.table]
  apart fd' := by
    by_cases heq : fd' = fd
    · subst heq
      simp
    · simpa [Function.update_of_ne heq] using ht.apart fd'
  missed := by simp [ht.missed]
  pipes fd' pipe := by
    by_cases heq : fd' = fd
    · subst heq
      simp
    · simpa [Function.update_of_ne heq] using ht.pipes fd' pipe
  unposted := ht.unposted

theorem newPipe (ht : Tracks base missed h k) :
    Tracks base missed h { k with pipes := k.pipes + 1 } where
  table := ht.table
  apart := ht.apart
  missed := ht.missed
  pipes fd pipe hfd := Nat.lt_succ_of_lt (ht.pipes fd pipe hfd)
  unposted pipe hle := ht.unposted pipe (Nat.le_of_succ_le hle)

theorem post {fds : List Fd} {index : Nat} {k' : Kernel} (ht : Tracks base missed h k)
    (htable : k'.table = k.table) (hcloses : k'.closes = k.closes) (hpipes : k'.pipes = k.pipes) :
    Tracks base missed (h.post fds index) k' where
  table fd := by rw [htable]; exact ht.table fd
  apart := ht.apart
  missed := by rw [hcloses, ht.missed]
  pipes fd pipe hfd := by rw [hpipes]; exact ht.pipes fd pipe hfd
  unposted pipe hle := by
    rw [hpipes] at hle
    have hnone : ¬ ∃ fd ∈ fds, h.own fd = some (.pipeWrite pipe) := by
      rintro ⟨fd, _, hfd⟩
      exact absurd (ht.pipes fd pipe hfd) (by omega)
    exact (if_neg hnone).trans (ht.unposted pipe hle)

theorem answers_perform (ht : Tracks base missed h k) (c : Choice) {op : Sys}
    (hop : h.permits True op) :
    ∃ h', h.answers op (k.perform c op).1 h' ∧ Tracks base missed h' (k.perform c op).2 := by
  cases op with
  | getenv name => exact ⟨h, rfl, ht⟩
  | getpid => exact ⟨h, rfl, ht⟩
  | monotonicUs =>
    rcases k.perform_monotonicUs c with ⟨e, hr⟩ | hr
    · rw [hr]
      exact ⟨h, rfl, ht⟩
    · rw [hr]
      exact ⟨h, rfl, ht⟩
  | socket =>
    rcases k.perform_socket c with ⟨e, hr⟩ | ⟨hfree, hr⟩
    · rw [hr]
      exact ⟨h, rfl, ht⟩
    · rw [hr]
      exact ⟨_, ⟨ht.fresh_of_free hfree, rfl⟩, ht.acquire hfree.2 nofun⟩
  | pipe =>
    rcases k.perform_pipe c with ⟨e, hr⟩ | ⟨⟨hread, hwrite, hdistinct⟩, hr⟩
    · rw [hr]
      exact ⟨h, rfl, ht⟩
    · rw [hr]
      have hne : (c.fd' : Fd) ≠ c.fd := by exact_mod_cast hdistinct.symm
      refine ⟨_, ⟨ht.fresh_of_free hread, ht.fresh_of_free hwrite, hne.symm, k.pipes,
        ht.unposted _ le_rfl, rfl⟩, ?_⟩
      refine (ht.newPipe.acquire hread.2 ?_).acquire ?_ ?_
      · exact nofun
      · simpa [Function.update_of_ne hne] using hwrite.2
      · intro pipe hpipe
        cases hpipe
        exact Nat.lt_succ_self _
  | close fd =>
    obtain ⟨file, hfile⟩ := Option.ne_none_iff_exists'.mp (show h.own fd ≠ none from hop)
    simp only [Kernel.perform, ht.fileAt_of_own hfile]
    exact ⟨_, ⟨rfl, rfl⟩, ht.release hfile⟩
  | poll fd mask timeoutMs =>
    rcases k.perform_poll c fd mask timeoutMs with ⟨e, hr⟩ | hr
    · rw [hr]
      exact ⟨h, rfl, ht⟩
    · rw [hr]
      exact ⟨_, rfl, { ht with }⟩
  | sendto fd peer data =>
    rcases k.perform_sendto c fd peer data with ⟨e, hr⟩ | ⟨n, hr⟩
    · rw [hr]
      exact ⟨h, rfl, ht⟩
    · rw [hr]
      exact ⟨_, ⟨0, rfl⟩, ht.post rfl rfl rfl⟩
  | sendmsg fd peer data fds =>
    rcases k.perform_sendmsg c fd peer data fds with ⟨e, hr⟩ | ⟨n, files, -, hr⟩
    · rw [hr]
      exact ⟨h, rfl, ht⟩
    · rw [hr]
      exact ⟨_, ⟨0, rfl⟩, ht.post rfl rfl rfl⟩
  | _ => exact hop.elim

end Tracks

theorem honouredBy_world (base : Fd → Option Descriptor) (missed : Nat) :
    (Holding.contract True).HonouredBy World.perform fun h w => Tracks base missed h w.kernel :=
  fun _ _ w ht hop => ht.answers_perform (w.choices 0) hop

/-! Runs of one notifier. -/

namespace Notifier

def Returned (F : Fd → Option File) : Result → Notifier → Holding → Prop
  | .readFd (some fd), n, h =>
    F fd = none ∧ ∃ pipe, Settled (Function.update F fd (some (.pipeRead pipe))) n h
  | _, n, h => Settled F n h

theorem obeys_method (rt : Runtime) {F : Fd → Option File} {n : Notifier} {h : Holding} (c : Call)
    (hs : Settled F n h) (hF : ∀ fd pipe, F fd ≠ some (.pipeWrite pipe))
    (hposted : ∀ pipe, h.posted pipe = h.mark) (hevents : h.events = none) :
    (c.method rt).Obeys (Holding.contract True) (Returned F) (fun _ n' h' => Settled F n' h') n h := by
  cases c with
  | sendRaw payload fds => exact Method.obeys_map.mpr (settles_sendRaw (.inr trivial) F n h hs)
  | notify states fields => exact Method.obeys_map.mpr (settles_notify F n h hs)
  | fdstore fds name poll => exact Method.obeys_map.mpr (settles_fdstore trivial F n h hs)
  | fdstoreRemove name => exact Method.obeys_map.mpr (settles_fdstoreRemove F n h hs)
  | barrierBegin =>
    refine Method.obeys_map.mpr ((obeys_barrierBegin hs).mono ?_ fun _ _ _ herr => herr)
    rintro (_ | readFd) n' h' hok
    · obtain ⟨rfl, rfl⟩ := hok
      exact hs
    · obtain ⟨hfree, pipe, hs', _⟩ := hok
      exact ⟨hfree, pipe, hs'⟩
  | barrierFinish readFd timeoutMs =>
    have hpoll : h.MayPoll True readFd := by
      refine ⟨.inl trivial, fun pipe _ => ⟨hposted pipe, fun fd hfd => ?_⟩⟩
      rcases hs.of_own_eq hfd with hsocket | hFd
      · cases hsocket
      · exact hF fd pipe hFd
    refine Method.obeys_map.mpr ((obeys_barrierFinish hpoll).mono ?_ ?_)
    · rintro _ n' h' ⟨rfl, events, _, rfl⟩
      exact hs.of_own rfl
    · rintro _ n' h' ⟨rfl, rfl⟩
      exact hs
  | barrier timeoutMs =>
    exact Method.obeys_map.mpr
      ((obeys_barrier hs hF hevents).mono (fun _ _ _ hok => hok.1) fun _ _ _ herr => herr)
  | close =>
    refine Method.obeys_map.mpr ((obeys_close hs).mono ?_ fun _ _ _ => False.elim)
    rintro _ n' h' ⟨hsock, hown⟩
    simp [Returned, Settled, hsock, hown]

/-- A notifier in its process, with the read ends `barrier_begin` returned and
the caller has not closed. -/
structure Session where
  notifier : Notifier
  world : World
  reads : List Fd

inductive Action where
  | call (c : Call)
  | closeRead (fd : Fd)

namespace Session

def handedOut : Except PyErr Result → List Fd
  | .ok (.readFd (some fd)) => [fd]
  | _ => []

def step (rt : Runtime) (s : Session) : Action → Session
  | .call c =>
    match (c.method rt).run s.notifier s.world with
    | ((result, n), w) => ⟨n, w, handedOut result ++ s.reads⟩
  | .closeRead fd =>
    if fd ∈ s.reads then
      { s with world := (World.perform (.close fd) s.world).2, reads := s.reads.erase fd }
    else s

def run (rt : Runtime) (s : Session) (actions : List Action) : Session := actions.foldl (step rt) s

/-- The process has the descriptors of `base`, the notifier's socket if there
is one, and the read ends the caller holds. No close missed. -/
structure Accounted (base : Kernel) (s : Session) : Prop where
  socket : ∀ sock, s.notifier.sock = some sock →
    s.world.kernel.table sock.fd = some ⟨.socket, true⟩ ∧ base.table sock.fd = none ∧ sock.fd ∉ s.reads
  reads : ∀ fd ∈ s.reads,
    (∃ pipe, s.world.kernel.table fd = some ⟨.pipeRead pipe, true⟩) ∧ base.table fd = none
  nodup : s.reads.Nodup
  others : ∀ fd, fd ∉ s.reads → (∀ sock, s.notifier.sock = some sock → sock.fd ≠ fd) →
    s.world.kernel.table fd = base.table fd
  missed : s.world.kernel.closes.count none = base.closes.count none

structure Holds (base : Kernel) (F : Fd → Option File) (h : Holding) (s : Session) : Prop where
  settled : Settled F s.notifier h
  tracks : Tracks base.table (base.closes.count none) h s.world.kernel
  frame : ∀ fd, F fd = none ↔ fd ∉ s.reads
  ends : ∀ fd file, F fd = some file → ∃ pipe, file = .pipeRead pipe
  nodup : s.reads.Nodup

variable {rt : Runtime} {base : Kernel} {F : Fd → Option File} {h : Holding} {s : Session}

theorem Holds.accounted (hs : Holds base F h s) : Accounted base s where
  socket sock hsock := by
    have hset := hs.settled
    simp only [Settled, hsock] at hset
    have hown : h.own sock.fd = some .socket := by rw [hset.2.2, Function.update_self]
    refine ⟨?_, hs.tracks.apart _ (by simp [hown]), (hs.frame _).mp hset.2.1⟩
    simp [hs.tracks.table, hown]
  reads fd hfd := by
    obtain ⟨file, hF⟩ := Option.ne_none_iff_exists'.mp (mt (hs.frame fd).mp (not_not_intro hfd))
    obtain ⟨pipe, rfl⟩ := hs.ends fd file hF
    have hown := hs.settled.own_of hF
    exact ⟨⟨pipe, by simp [hs.tracks.table, hown]⟩, hs.tracks.apart _ (by simp [hown])⟩
  nodup := hs.nodup
  others fd hfd hsock := by
    have hown : h.own fd = none := by
      have hset := hs.settled
      rw [Settled] at hset
      split at hset
      · rw [hset, hs.frame]
        exact hfd
      · next sock heq =>
        rw [hset.2.2, Function.update_of_ne (hsock sock heq).symm, hs.frame]
        exact hfd
    simp [hs.tracks.table, hown]
  missed := hs.tracks.missed

theorem Holds.keep {h' : Holding} {n' : Notifier} {w' : World} (hs : Holds base F h s)
    (hset : Settled F n' h') (ht : Tracks base.table (base.closes.count none) h' w'.kernel) :
    Holds base F h' ⟨n', w', s.reads⟩ :=
  ⟨hset, ht, hs.frame, hs.ends, hs.nodup⟩

theorem Holds.handOut {h' : Holding} {n' : Notifier} {w' : World} {fd : Fd} {pipe : Nat}
    (hs : Holds base F h s) (hF : F fd = none)
    (hset : Settled (Function.update F fd (some (.pipeRead pipe))) n' h')
    (ht : Tracks base.table (base.closes.count none) h' w'.kernel) :
    Holds base (Function.update F fd (some (.pipeRead pipe))) h' ⟨n', w', fd :: s.reads⟩ where
  settled := hset
  tracks := ht
  frame fd' := by
    by_cases heq : fd' = fd
    · simp [heq]
    · simp [heq, hs.frame]
  ends fd' file hfile := by
    by_cases heq : fd' = fd
    · subst heq
      exact ⟨pipe, by simpa [eq_comm] using hfile⟩
    · exact hs.ends fd' file (by simpa [Function.update_of_ne heq] using hfile)
  nodup := List.nodup_cons.mpr ⟨(hs.frame fd).mp hF, hs.nodup⟩

theorem Holds.call (hs : Holds base F h s) (c : Call) :
    ∃ F' h', Holds base F' h' (s.step rt (.call c)) := by
  -- What earlier calls sent and polled no longer matters.
  have hset : Settled F s.notifier (.idle h.own) := hs.settled.of_own rfl
  have hF : ∀ fd pipe, F fd ≠ some (.pipeWrite pipe) := by
    intro fd pipe hfd
    obtain ⟨_, hend⟩ := hs.ends fd _ hfd
    cases hend
  obtain ⟨h', hpost, ht⟩ := (obeys_method rt c hset hF (fun _ => rfl) rfl).run
    (honouredBy_world base.table (base.closes.count none)) hs.tracks.idle
  simp only [step, Py.run]
  generalize Method.run World.perform (c.method rt) s.notifier s.world = r at hpost ht
  obtain ⟨⟨result, n⟩, w⟩ := r
  cases result with
  | error e => exact ⟨F, h', hs.keep hpost ht⟩
  | ok result =>
    cases result with
    | bool b => exact ⟨F, h', hs.keep hpost ht⟩
    | unit => exact ⟨F, h', hs.keep hpost ht⟩
    | readFd fd =>
      cases fd with
      | none => exact ⟨F, h', hs.keep hpost ht⟩
      | some fd =>
        obtain ⟨hF, pipe, hset⟩ := hpost
        exact ⟨_, h', hs.handOut hF hset ht⟩

theorem Holds.closeRead (hs : Holds base F h s) (fd : Fd) :
    ∃ F' h', Holds base F' h' (s.step rt (.closeRead fd)) := by
  by_cases hfd : fd ∈ s.reads
  · simp only [step, if_pos hfd]
    obtain ⟨file, hF⟩ := Option.ne_none_iff_exists'.mp (mt (hs.frame fd).mp (not_not_intro hfd))
    have hown := hs.settled.own_of hF
    refine ⟨_, _, ⟨hs.settled.release hF, ?_, ?_, ?_, hs.nodup.erase fd⟩⟩
    · simpa only [World.perform, Kernel.perform, hs.tracks.fileAt_of_own hown] using
        hs.tracks.release hown
    · intro fd'
      by_cases heq : fd' = fd
      · simp [heq, hs.nodup.not_mem_erase]
      · simp [heq, hs.frame, List.mem_erase_of_ne heq]
    · intro fd' file' hfile
      by_cases heq : fd' = fd
      · simp [heq] at hfile
      · exact hs.ends fd' file' (by simpa [Function.update_of_ne heq] using hfile)
  · simp only [step, if_neg hfd]
    exact ⟨F, h, hs⟩

theorem Holds.run (hs : Holds base F h s) (actions : List Action) :
    ∃ F' h', Holds base F' h' (s.run rt actions) := by
  apply Runs.invariant (fun s => ∃ F h, Holds base F h s) ⟨F, h, hs⟩
  rintro s action ⟨F, h, hs⟩
  cases action with
  | call c => exact hs.call c
  | closeRead fd => exact hs.closeRead fd

theorem Holds.start (address : Option StrOrBytes) (sunPath : Option Bytes) (w : World) :
    Holds w.kernel (fun _ => none) (.idle fun _ => none)
      ⟨⟨address, sunPath, none⟩, w, []⟩ where
  settled := rfl
  tracks := ⟨fun _ => by simp [Holding.idle], fun _ h => absurd rfl h, rfl, nofun, fun _ _ => rfl⟩
  frame := by simp
  ends := nofun
  nodup := List.nodup_nil

theorem Holds.close_sock (hs : Holds base F h s) :
    (s.step rt (.call .close)).notifier.sock = none := by
  have hclose : ((Call.close).method rt).Obeys (Holding.contract True)
      (fun _ n' _ => n'.sock = none) (fun _ _ _ => False) s.notifier h :=
    Method.obeys_map.mpr ((obeys_close hs.settled).mono (fun _ _ _ hok => hok.1) fun _ _ _ => id)
  obtain ⟨h', hpost, _⟩ := hclose.run (honouredBy_world base.table (base.closes.count none)) hs.tracks
  simp only [step, Py.run]
  generalize Method.run World.perform (Call.close.method rt) s.notifier s.world = r at hpost
  obtain ⟨⟨result, n⟩, w⟩ := r
  cases result with
  | error e => exact hpost.elim
  | ok result => exact hpost

end Session

end Notifier

theorem Daemon.obeys_function {σ : Type} {rt : Runtime} (c : Daemon.Call) (s : σ) :
    (c.function rt : Py σ Bool).Obeys (Holding.contract True) (fun _ _ h' => h'.own = fun _ => none)
      (fun _ _ h' => h'.own = fun _ => none) s (.idle fun _ => none) := by
  cases c with
  | reloading text => exact obeys_withNotifier fun n => Notifier.settles_reloading _ n _
  | mainPid pid => exact obeys_withNotifier fun n => Notifier.settles_mainPid _ n _
  | fdstore fds name poll => exact obeys_withNotifier fun n => Notifier.settles_fdstore trivial _ n _
  | fdstoreRemove name => exact obeys_withNotifier fun n => Notifier.settles_fdstoreRemove _ n _
  | barrier timeoutMs =>
    refine obeys_withNotifier fun n hs => ?_
    exact (Notifier.obeys_barrier hs nofun rfl).mono (fun _ _ _ hok => hok.1) fun _ _ _ herr => herr
  | _ => exact obeys_withNotifier fun n => Notifier.settles_notify _ n _

/-- In every run of a notifier the process has the descriptors it had before,
one socket exactly when the notifier has one, and the read ends its caller
holds; no descriptor is closed twice, and `close` leaves no socket. A module
level function leaves the descriptors as it found them. -/
theorem descriptors_accounted (rt : Runtime) (address : Option StrOrBytes) (sunPath : Option Bytes)
    (w : World) :
    (∀ actions : List Notifier.Action,
      let s := Notifier.Session.run rt ⟨⟨address, sunPath, none⟩, w, []⟩ actions
      s.Accounted w.kernel ∧ (s.step rt (.call .close)).notifier.sock = none) ∧
    ∀ (σ : Type) (s : σ) (c : Daemon.Call),
      let after := ((c.function rt).run s w).2.kernel
      after.table = w.kernel.table ∧ after.closes.count none = w.kernel.closes.count none := by
  have hstart := Notifier.Session.Holds.start address sunPath w
  refine ⟨fun actions => ?_, fun σ s c => ?_⟩
  · obtain ⟨F, h, hs⟩ := hstart.run actions
    exact ⟨hs.accounted, hs.close_sock⟩
  · obtain ⟨h', hown, ht⟩ := (Daemon.obeys_function c s).run
      (honouredBy_world w.kernel.table (w.kernel.closes.count none)) hstart.tracks
    have hnone : h'.own = fun _ => none := by
      generalize Method.run World.perform (c.function rt) s w = r at hown
      obtain ⟨⟨result, s'⟩, w'⟩ := r
      cases result with
      | ok b => exact hown
      | error e => exact hown
    refine ⟨funext fun fd => ?_, ht.missed⟩
    exact (ht.table fd).trans (by simp [hnone])

end Mpsystemd
