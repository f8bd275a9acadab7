import Mpsystemd.Notifier
import Mpsystemd.Recording

/-! What `send_raw` hands to the socket, with the calls it makes, and when it does
in a world that refuses nothing. -/

namespace Mpsystemd

namespace SysCall

/-- Not a call of a notification that fails. -/
def Succeeds : SysCall → Prop
  | ⟨.monotonicUs, .error _⟩ => False
  | ⟨.socket, .error _⟩ => False
  | ⟨.sendto _ _ _, .error _⟩ => False
  | ⟨.sendmsg _ _ _ _, .error _⟩ => False
  | _ => True

instance : DecidablePred Succeeds := fun call => by
  unfold Succeeds
  split <;> infer_instance

end SysCall

def SomeFails (calls : List SysCall) : Prop := ∃ call ∈ calls, ¬ call.Succeeds

theorem SomeFails.last (calls : List SysCall) {call : SysCall} (h : ¬ call.Succeeds) :
    SomeFails (calls ++ [call]) :=
  ⟨call, List.mem_append_right _ (List.mem_singleton_self call), h⟩

/-- The descriptors as `send_with_fds` puts them into the control message. -/
def UnixDatagram.rights (rt : Runtime) (fds : List Fd) : Except PyErr (List Fd) :=
  if fds.length > maxFdsPerMessage then
    .error (.valueError "at most %d descriptors fit in one message" [.int maxFdsPerMessage])
  else fds.mapM (packFd rt)

theorem UnixDatagram.sendWithFds_eq {σ : Type} {rt : Runtime} {sock : UnixDatagram} {peer data : Bytes}
    {fds : List Fd} (hpeer : sock.peer = some peer) (hfds : fds ≠ []) :
    (sock.sendWithFds rt data fds : Py σ Nat) = (do
      let rights ← Method.lift (rights rt fds)
      Method.lift (check (← sys (.sendmsg sock.fd peer data rights)))) := by
  simp only [sendWithFds, hpeer, if_neg hfds, rights]
  split
  · rfl
  · rfl

section Rules

variable {σ : Type} {s : σ} {k : Kernel} {calls : List SysCall} {err : PyErr → σ → Kernel × List SysCall → Prop}
  {peer data : Bytes} {sock : UnixDatagram}

theorem records_newDatagram {ok : UnixDatagram → σ → Kernel × List SysCall → Prop}
    (hok : ∀ (fd : Nat) reply, ok ⟨fd, some peer⟩ s (k.install fd ⟨.socket, true⟩, calls ++ [⟨.socket, reply⟩]))
    (herr : ∀ e, err (.osError e) s (k, calls ++ [⟨.socket, .error e⟩])) :
    Py.Records (UnixDatagram.new (some peer)) ok err s k calls := by
  refine Method.obeys_assoc.mpr ?_
  apply records_attempt .socket id (fun c => k.openFile c.fd .socket) (fun c => ⟨rfl, rfl⟩)
  · intro c fd k' reply hopen _
    obtain ⟨-, rfl, rfl⟩ := Kernel.openFile_eq_ok hopen
    exact hok c.fd reply
  · intro e reply hreply
    cases hreply
    exact herr e

theorem records_send {ok : Nat → σ → Kernel × List SysCall → Prop} (hpeer : sock.peer = some peer)
    (hok : ∀ n reply, ok n s (k.post ⟨peer, data, []⟩, calls ++ [⟨.sendto sock.fd peer data, reply⟩]))
    (herr : ∀ e, err (.osError e) s (k, calls ++ [⟨.sendto sock.fd peer data, .error e⟩])) :
    Py.Records (sock.send data) ok err s k calls := by
  simp only [UnixDatagram.send, hpeer]
  apply records_attempt (.sendto sock.fd peer data) id (fun _ => k.deliver sock.fd peer data (some []))
    (fun c => ⟨rfl, rfl⟩)
  · intro c n k' reply hdeliver _
    obtain ⟨files, hfiles, rfl⟩ := Kernel.deliver_eq_ok hdeliver
    cases hfiles
    exact hok n reply
  · intro e reply hreply
    cases hreply
    exact herr e

theorem records_sendmsg {rights : List Fd} {ok : Nat → σ → Kernel × List SysCall → Prop}
    (hok : ∀ n files reply, rights.mapM k.fileAt = some files →
      ok n s (k.post ⟨peer, data, files⟩, calls ++ [⟨.sendmsg sock.fd peer data rights, reply⟩]))
    (herr : ∀ e, err (.osError e) s (k, calls ++ [⟨.sendmsg sock.fd peer data rights, .error e⟩])) :
    Py.Records (do Method.lift (check (← sys (.sendmsg sock.fd peer data rights)))) ok err s k calls := by
  apply records_attempt (.sendmsg sock.fd peer data rights) id
    (fun _ => k.deliver sock.fd peer data (rights.mapM k.fileAt)) (fun c => ⟨rfl, rfl⟩)
  · intro c n k' reply hdeliver _
    obtain ⟨files, hfiles, rfl⟩ := Kernel.deliver_eq_ok hdeliver
    exact hok n files reply hfiles
  · intro e reply hreply
    cases hreply
    exact herr e

end Rules

namespace Notifier

/-- The notifier has the address, and so has its socket once that is open. -/
structure Reaches (n : Notifier) (path : Bytes) : Prop where
  sunPath : n.sunPath = some path
  sock : ∀ sock, n.sock = some sock → sock.peer = some path

theorem reaches_ofAddress {address : Option StrOrBytes} {n : Notifier} {path : Bytes}
    (h : ofAddress address = .ok n) (hpath : n.sunPath = some path) : n.Reaches path := by
  refine ⟨hpath, ?_⟩
  rw [ofAddress] at h
  split at h
  · cases h
    cases hpath
  · obtain ⟨sunPath, -, hn⟩ := Fallible.bind_eq_ok.mp h
    cases hn
    exact fun _ hsock => by cases hsock

variable {rt : Runtime} {n : Notifier} {path data : Bytes} {fds : List Fd} {k : Kernel} {calls : List SysCall}

/-- A message with the data and the files of the descriptors. -/
structure Carries (rt : Runtime) (path data : Bytes) (fds : List Fd) (k : Kernel) (message : Message) : Prop where
  peer : message.peer = path
  data : message.data = data
  files : ∃ rights, UnixDatagram.rights rt fds = .ok rights ∧ rights.mapM k.fileAt = some message.files

theorem Carries.length_eq {message : Message} (h : Carries rt path data fds k message) :
    message.files.length = fds.length ∧ message.files.length ≤ maxFdsPerMessage := by
  obtain ⟨rights, hrights, hfiles⟩ := h.files
  rw [UnixDatagram.rights] at hrights
  split at hrights
  · cases hrights
  · have hpacked := (Fallible.mapM_eq_ok.mp hrights).length_eq
    have hopen := Fallible.length_of_mapM_eq_some hfiles
    omega

/-- One message more was handed over. -/
structure HandsOver (rt : Runtime) (path data : Bytes) (fds : List Fd) (k k' : Kernel) (message : Message) : Prop
    extends Carries rt path data fds k' message where
  sent : k'.sent = k.sent ++ [message]

/-- Nothing was handed over, for the number or the values of the descriptors or
because a call failed. -/
structure HandsNothing (rt : Runtime) (fds : List Fd) (e : PyErr) (k : Kernel) (r : Kernel × List SysCall) :
    Prop where
  sent : r.1.sent = k.sent
  cause : UnixDatagram.rights rt fds = .error e ∨ SomeFails r.2

theorem records_sendOn {sock : UnixDatagram} {k₁ : Kernel} (hn : n.Reaches path) (hpeer : sock.peer = some path)
    (hsent : k₁.sent = k.sent) :
    Py.Records (do
        let _ ← if fds ≠ [] then sock.sendWithFds rt data fds else sock.send data
        return true)
      (fun b n' r => b = true ∧ n'.Reaches path ∧ ∃ message, HandsOver rt path data fds k r.1 message)
      (fun e n' r => n'.Reaches path ∧ HandsNothing rt fds e k r) n k₁ calls := by
  have hposted : ∀ files, (k₁.post ⟨path, data, files⟩).sent = k.sent ++ [⟨path, data, files⟩] := fun files => by
    rw [← hsent]
    rfl
  split
  · next hfds =>
    rw [UnixDatagram.sendWithFds_eq hpeer hfds]
    refine Method.obeys_bind.mpr (Method.obeys_bind.mpr ?_)
    cases hrights : UnixDatagram.rights rt fds with
    | error e => exact ⟨hn, hsent, .inl hrights⟩
    | ok rights =>
      refine Method.obeys_lift_ok.mpr ?_
      apply records_sendmsg
      · intro _ files _ hfiles
        exact ⟨rfl, hn, ⟨path, data, files⟩, ⟨rfl, rfl, rights, hrights, hfiles⟩, hposted files⟩
      · exact fun e => ⟨hn, hsent, .inr (SomeFails.last calls id)⟩
  · next hnil =>
    have hrights : UnixDatagram.rights rt fds = .ok [] := by
      rw [not_not.mp hnil]
      rfl
    refine Method.obeys_bind.mpr ?_
    apply records_send hpeer
    · intro _ _
      exact ⟨rfl, hn, ⟨path, data, []⟩, ⟨rfl, rfl, [], hrights, rfl⟩, hposted []⟩
    · exact fun e => ⟨hn, hsent, .inr (SomeFails.last calls id)⟩

theorem records_sendRaw (hn : n.Reaches path) :
    Py.Records (sendRaw rt (.bytes data) fds)
      (fun b n' r => b = true ∧ n'.Reaches path ∧ ∃ message, HandsOver rt path data fds k r.1 message)
      (fun e n' r => n'.Reaches path ∧ HandsNothing rt fds e k r) n k calls := by
  rw [sendRaw]
  refine Method.obeys_bind.mpr (Method.obeys_attributes.mpr ?_)
  simp only [hn.sunPath]
  refine Method.obeys_bind.mpr (Method.obeys_lift_ok.mpr (Method.obeys_bind.mpr ?_))
  rw [openSock]
  refine Method.obeys_bind.mpr (Method.obeys_attributes.mpr ?_)
  cases hopen : n.sock with
  | some sock => exact records_sendOn hn (hn.sock sock hopen) rfl
  | none =>
    refine Method.obeys_bind.mpr ?_
    apply records_newDatagram
    · intro fd _
      refine Method.obeys_bind.mpr (Method.obeys_update.mpr ?_)
      refine records_sendOn ⟨hn.sunPath, fun sock hsock => ?_⟩ rfl rfl
      cases hsock
      rfl
    · exact fun e => ⟨hn, rfl, .inr (SomeFails.last calls id)⟩

end Notifier

/-! Sending in a world that refuses nothing. -/

/-- After a call that changes nothing. -/
def World.skip (w : World) : World := ⟨w.kernel, fun n => w.choices (n + 1)⟩

def World.Permits (w : World) : Prop := ∀ i, (w.choices i).error = none

theorem World.Permits.skip {w : World} (h : w.Permits) : w.skip.Permits := fun i => h (i + 1)

theorem run_permitted {σ α : Type} (op : Sys) (x : op.Reply → Except Errno α) {act : Except Errno (α × Kernel)}
    {s : σ}
    {w : World} (hpermits : w.Permits)
    (hperform : x (w.kernel.perform (w.choices 0) op).1 = ((w.choices 0).attempt id w.kernel act).1 ∧
      (w.kernel.perform (w.choices 0) op).2 = ((w.choices 0).attempt id w.kernel act).2) {a : α} {k' : Kernel}
    (hact : act = .ok (a, k')) :
    Py.run (sys op >>= fun reply => Method.lift (check (x reply))) s w =
      ((.ok a, s), ⟨k', fun n => w.choices (n + 1)⟩) := by
  rcases run_attempt op x act s w hperform with ⟨e, hrefused, -⟩ | ⟨a', k'', -, hact', hrun⟩
  · exact absurd ⟨hpermits 0, _, hact⟩ hrefused
  · rw [hact] at hact'
    cases hact'
    exact hrun

theorem run_permitted_error {σ α : Type} (op : Sys) (x : op.Reply → Except Errno α)
    {act : Except Errno (α × Kernel)} {s : σ} {w : World} (hpermits : w.Permits)
    (hperform : x (w.kernel.perform (w.choices 0) op).1 = ((w.choices 0).attempt id w.kernel act).1 ∧
      (w.kernel.perform (w.choices 0) op).2 = ((w.choices 0).attempt id w.kernel act).2) {e : Errno}
    (hact : act = .error e) :
    ∃ w', Py.run (sys op >>= fun reply => Method.lift (check (x reply))) s w = ((.error (.osError e), s), w') := by
  obtain ⟨hreply, -⟩ := hperform
  rw [hact, Choice.attempt_error (hpermits 0)] at hreply
  have hrun : Py.run (sys op >>= fun reply => Method.lift (check (x reply))) s w =
      ((check (x (w.kernel.perform (w.choices 0) op).1), s),
        ⟨(w.kernel.perform (w.choices 0) op).2, fun n => w.choices (n + 1)⟩) := rfl
  rw [hrun, hreply]
  exact ⟨_, rfl⟩

/-- The notifier has the address, and the world lets it have a socket and send on it. -/
structure Accepts (n : Notifier) (w : World) (path : Bytes) : Prop where
  reaches : n.Reaches path
  permits : w.Permits
  sock : ∀ sock, n.sock = some sock → w.kernel.fileAt sock.fd = some .socket
  numbers : ∀ i, w.kernel.Free (w.choices i).fd

/-- A descriptor that is open when the notifier sends: it was before, or it is the
number that the notifier's socket gets. -/
def OpenFor (n : Notifier) (w : World) (fd : Fd) : Prop :=
  (w.kernel.fileAt fd).isSome ∨ n.sock = none ∧ fd = (w.choices 0).fd

/-- Descriptors that go with a message: not too many, each a C int once packed,
and open. -/
def Attachable (rt : Runtime) (n : Notifier) (w : World) (fds : List Fd) : Prop :=
  fds.length ≤ maxFdsPerMessage ∧ ∀ fd ∈ fds, ∃ right, UnixDatagram.packFd rt fd = .ok right ∧ OpenFor n w right

/-- What is raised for descriptors that cannot go with a message: they are too many
or cannot be packed, or the kernel finds one that is not open. -/
def NotSent (rt : Runtime) (fds : List Fd) (e : PyErr) : Prop :=
  UnixDatagram.rights rt fds = .error e ∨
    (∃ rights, UnixDatagram.rights rt fds = .ok rights) ∧ e = .osError Errno.badf

section Runs

variable {rt : Runtime} {n : Notifier} {w : World} {path data : Bytes} {fds : List Fd}

theorem Accepts.skip (h : Accepts n w path) : Accepts n w.skip path :=
  ⟨h.reaches, h.permits.skip, h.sock, fun i => h.numbers (i + 1)⟩

theorem run_openSock (h : Accepts n w path) : ∃ sock n' w',
    (Notifier.openSock path).run n w = ((.ok sock, n'), w') ∧ sock.peer = some path ∧ w'.Permits ∧
      w'.kernel.fileAt sock.fd = some .socket ∧ w'.kernel.sent = w.kernel.sent ∧
      ∀ fd, (w'.kernel.fileAt fd).isSome ↔ OpenFor n w fd := by
  rw [Notifier.openSock, Py.run, Method.run_bind_ok Method.run_attributes]
  cases hsock : n.sock with
  | some sock =>
    refine ⟨sock, n, w, rfl, h.reaches.sock sock hsock, h.permits, h.sock sock hsock, rfl, fun fd => ?_⟩
    rw [OpenFor, hsock]
    simp
  | none =>
    have hopen : w.kernel.openFile (w.choices 0).fd .socket =
        .ok ((w.choices 0).fd, w.kernel.install (w.choices 0).fd ⟨.socket, true⟩) := if_pos (h.numbers 0)
    have hcall := run_permitted (s := n) .socket (fun fd => fd) h.permits ⟨rfl, rfl⟩ hopen
    have hnew : Py.run (UnixDatagram.new (some path)) n w = ((.ok ⟨(w.choices 0).fd, some path⟩, n),
        ⟨w.kernel.install (w.choices 0).fd ⟨.socket, true⟩, fun i => w.choices (i + 1)⟩) := by
      rw [UnixDatagram.new, Py.run, Method.run_assoc, Method.run_bind_ok hcall]
      rfl
    rw [Method.run_bind_ok hnew, Method.run_bind_ok Method.run_update]
    refine ⟨_, _, _, rfl, rfl, fun i => h.permits (i + 1), ?_, rfl, fun fd => ?_⟩
    · rw [Kernel.fileAt_install, if_pos rfl]
    · rw [Kernel.fileAt_install, OpenFor, hsock]
      by_cases hfd : fd = (w.choices 0).fd
      · simp [hfd]
      · simp [hfd]

theorem mapM_fileAt_isSome_iff {k : Kernel} {rights : List Fd} :
    (rights.mapM k.fileAt).isSome ↔ ∀ right ∈ rights, (k.fileAt right).isSome := by
  induction rights with
  | nil => simp
  | cons right rights ih =>
    rw [List.mapM_cons, List.forall_mem_cons, ← ih]
    cases k.fileAt right with
    | none => simp
    | some file =>
      cases rights.mapM k.fileAt with
      | none => simp
      | some files => simp

theorem attachable_nil : Attachable rt n w [] := ⟨Nat.zero_le _, List.forall_mem_nil _⟩

theorem attachable_iff : Attachable rt n w fds ↔
    ∃ rights, UnixDatagram.rights rt fds = .ok rights ∧ ∀ right ∈ rights, OpenFor n w right := by
  rw [Attachable, UnixDatagram.rights]
  by_cases hmany : fds.length > maxFdsPerMessage
  · rw [if_pos hmany]
    refine iff_of_false (fun h => absurd h.1 (not_le.mpr hmany)) ?_
    rintro ⟨rights, hrights, -⟩
    cases hrights
  · rw [if_neg hmany, and_iff_right (not_lt.mp hmany)]
    clear hmany
    induction fds with
    | nil => simp
    | cons fd fds ih =>
      rw [List.forall_mem_cons, ih]
      constructor
      · rintro ⟨⟨right, hright, hopen⟩, rights, hrights, hall⟩
        refine ⟨right :: rights, ?_, List.forall_mem_cons.mpr ⟨hopen, hall⟩⟩
        rw [List.mapM_cons, hright, hrights]
        rfl
      · rintro ⟨packed, hpacked, hall⟩
        rw [List.mapM_cons] at hpacked
        obtain ⟨right, hright, hrest⟩ := Fallible.bind_eq_ok.mp hpacked
        obtain ⟨rights, hrights, heq⟩ := Fallible.bind_eq_ok.mp hrest
        cases heq
        obtain ⟨hopen, hall⟩ := List.forall_mem_cons.mp hall
        exact ⟨⟨right, hright, hopen⟩, rights, hrights, hall⟩

theorem deliver_socket {k : Kernel} {fd : Fd} {files : List File} (hsocket : k.fileAt fd = some .socket) :
    k.deliver fd path data (some files) = .ok (data.length, k.post ⟨path, data, files⟩) := by
  simp only [Kernel.deliver, hsocket]
  rfl

theorem run_send {sock : UnixDatagram} (hpermits : w.Permits) (hpeer : sock.peer = some path)
    (hsocket : w.kernel.fileAt sock.fd = some .socket) :
    Py.run (sock.send data) n w =
      ((.ok data.length, n), ⟨w.kernel.post ⟨path, data, []⟩, fun i => w.choices (i + 1)⟩) := by
  simp only [UnixDatagram.send, hpeer]
  exact run_permitted (.sendto sock.fd path data) (fun sent => sent) hpermits ⟨rfl, rfl⟩ (deliver_socket hsocket)

/-- The message goes out exactly when the descriptors can be packed and are open:
with one that is not open `sendmsg` fails. -/
theorem run_sendWithFds {sock : UnixDatagram} (hpermits : w.Permits) (hpeer : sock.peer = some path)
    (hsocket : w.kernel.fileAt sock.fd = some .socket) (hfds : fds ≠ []) :
    (∃ rights files, UnixDatagram.rights rt fds = .ok rights ∧ (∀ right ∈ rights, (w.kernel.fileAt right).isSome) ∧
      Py.run (sock.sendWithFds rt data fds) n w =
        ((.ok data.length, n), ⟨w.kernel.post ⟨path, data, files⟩, fun i => w.choices (i + 1)⟩)) ∨
    (∀ rights, UnixDatagram.rights rt fds = .ok rights → ¬ ∀ right ∈ rights, (w.kernel.fileAt right).isSome) ∧
      ∃ e w', NotSent rt fds e ∧ Py.run (sock.sendWithFds rt data fds) n w = ((.error e, n), w') := by
  rw [UnixDatagram.sendWithFds_eq hpeer hfds]
  rcases Fallible.isOk_or_isError (UnixDatagram.rights rt fds) with ⟨rights, hrights⟩ | ⟨e, hrights⟩
  · have hlift : Py.run (Method.lift (UnixDatagram.rights rt fds)) n w = ((.ok rights, n), w) := by
      rw [hrights]
      rfl
    rw [Py.run, Method.run_bind_ok hlift]
    cases hfiles : rights.mapM w.kernel.fileAt with
    | some files =>
      have hdeliver : w.kernel.deliver sock.fd path data (rights.mapM w.kernel.fileAt) =
          .ok (data.length, w.kernel.post ⟨path, data, files⟩) := by
        rw [hfiles, deliver_socket hsocket]
      refine .inl ⟨rights, files, hrights, mapM_fileAt_isSome_iff.mp (by rw [hfiles]; rfl), ?_⟩
      exact run_permitted (.sendmsg sock.fd path data rights) (fun sent => sent) hpermits ⟨rfl, rfl⟩ hdeliver
    | none =>
      refine .inr ⟨fun rights' hrights' hall => ?_, .osError Errno.badf, ?_⟩
      · rw [hrights, Except.ok.injEq] at hrights'
        rw [← mapM_fileAt_isSome_iff, ← hrights', hfiles] at hall
        cases hall
      · have hdeliver : w.kernel.deliver sock.fd path data (rights.mapM w.kernel.fileAt) = .error Errno.badf := by
          simp only [Kernel.deliver, hsocket, hfiles]
        obtain ⟨w', hrun⟩ := run_permitted_error (s := n) (.sendmsg sock.fd path data rights) (fun sent => sent)
          hpermits ⟨rfl, rfl⟩ hdeliver
        exact ⟨w', .inr ⟨⟨rights, hrights⟩, rfl⟩, hrun⟩
  · have hlift : Py.run (Method.lift (UnixDatagram.rights rt fds)) n w = ((.error e, n), w) := by
      rw [hrights]
      rfl
    refine .inr ⟨fun rights hok => ?_, e, w, .inl hrights, Method.run_bind_error hlift⟩
    rw [hrights] at hok
    cases hok

theorem run_sendRaw (h : Accepts n w path) (data : Bytes) (fds : List Fd) :
    (Attachable rt n w fds ∧ ((Notifier.sendRaw rt (.bytes data) fds).run n w).1.1 = .ok true ∧
      ∃ message, ((Notifier.sendRaw rt (.bytes data) fds).run n w).2.kernel.sent = w.kernel.sent ++ [message]) ∨
    (¬ Attachable rt n w fds ∧ ∃ e, NotSent rt fds e ∧
      ((Notifier.sendRaw rt (.bytes data) fds).run n w).1.1 = .error e) := by
  obtain ⟨sock, n', w', hopen, hpeer, hpermits, hsocket, hsent, hopenFor⟩ := run_openSock h
  have hencode : Py.run (Method.lift (StrOrBytes.bytes data).encode) n w = ((.ok data, n), w) := rfl
  have hrun : Py.run (Notifier.sendRaw rt (.bytes data) fds) n w = Py.run
      ((if fds ≠ [] then sock.sendWithFds rt data fds else sock.send data) >>= fun _ => pure true) n' w' := by
    rw [Notifier.sendRaw, Py.run, Method.run_bind_ok Method.run_attributes]
    simp only [h.reaches.sunPath]
    rw [Method.run_bind_ok hencode, Method.run_bind_ok hopen]
    split
    · rfl
    · rfl
  rw [hrun, attachable_iff]
  split
  · next hfds =>
    rcases run_sendWithFds hpermits hpeer hsocket hfds with
      ⟨rights, files, hrights, hall, hsend⟩ | ⟨hnone, e, w'', hnot, hsend⟩
    · rw [Py.run, Method.run_bind_ok hsend]
      refine .inl ⟨⟨rights, hrights, fun right hright => (hopenFor right).mp (hall right hright)⟩, rfl,
        ⟨path, data, files⟩, ?_⟩
      rw [← hsent]
      rfl
    · rw [Py.run, Method.run_bind_error hsend]
      refine .inr ⟨?_, e, hnot, rfl⟩
      rintro ⟨rights, hrights, hall⟩
      exact hnone rights hrights fun right hright => (hopenFor right).mpr (hall right hright)
  · next hnil =>
    have hrights : UnixDatagram.rights rt fds = .ok [] := by
      rw [not_not.mp hnil]
      rfl
    rw [Py.run, Method.run_bind_ok (run_send hpermits hpeer hsocket)]
    refine .inl ⟨⟨[], hrights, by simp⟩, rfl, ⟨path, data, []⟩, ?_⟩
    rw [← hsent]
    rfl

theorem run_sendRaw_unset (h : n.sunPath = none) (data : Bytes) (fds : List Fd) :
    (Notifier.sendRaw rt (.bytes data) fds).run n w = ((.ok false, n), w) := by
  rw [Notifier.sendRaw, Py.run, Method.run_bind_ok Method.run_attributes]
  simp only [h]
  rfl

end Runs

end Mpsystemd
