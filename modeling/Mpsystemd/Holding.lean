import Mpsystemd.Notifier

/-! Which descriptors a notifier's method holds at each of its calls. The
contract says what a method may do to descriptors whatever else runs in the
process; every method is brought through it once. -/

namespace Mpsystemd

/-- What a method holds: its own descriptors and those its caller lets it read,
the datagram each pipe's write end left in, the datagram it sent last, the pipes
it saw without a write end, and what it last polled. -/
structure Holding where
  own : Fd → Option File
  sees : Fd → Option File
  posted : Nat → Option Nat
  mark : Option Nat
  drained : Nat → Prop
  events : Option Nat

namespace Holding

def idle (own : Fd → Option File) : Holding :=
  ⟨own, fun _ => none, fun _ => none, none, fun _ => False, none⟩

def acquire (h : Holding) (fd : Fd) (file : File) : Holding :=
  { h with own := Function.update h.own fd (some file) }

def release (h : Holding) (fd : Fd) : Holding := { h with own := Function.update h.own fd none }

@[simp] theorem acquire_own {h : Holding} {fd : Fd} {file : File} :
    (h.acquire fd file).own = Function.update h.own fd (some file) := rfl

@[simp] theorem release_own {h : Holding} {fd : Fd} :
    (h.release fd).own = Function.update h.own fd none := rfl

def post (h : Holding) (fds : List Fd) (index : Nat) : Holding :=
  { h with
    mark := some index
    posted := fun pipe => if ∃ fd ∈ fds, h.own fd = some (.pipeWrite pipe) then some index
      else h.posted pipe }

def observe (h : Holding) (fd : Fd) (events : Nat) : Holding :=
  { h with
    events := some events
    drained := fun pipe => h.drained pipe ∨
      events ≠ 0 ∧ (h.own fd = some (.pipeRead pipe) ∨ h.sees fd = some (.pipeRead pipe)) }

def Fresh (h : Holding) (fd : Fd) : Prop := 0 ≤ fd ∧ fd < 2 ^ 31 ∧ h.own fd = none

/-- The descriptors a datagram may carry: none, the write end of a pipe that has
not left yet, or the caller's own when `lent` says so. -/
def MayAttach (lent : Prop) (own : Fd → Option File) (posted : Nat → Option Nat)
    (fds : List Fd) : Prop :=
  fds = [] ∨ lent ∨ ∃ fd pipe, fds = [fd] ∧ 0 ≤ fd ∧ fd < 2 ^ 31 ∧
    own fd = some (.pipeWrite pipe) ∧ posted pipe = none

/-- An own pipe is polled once its write end has left in the last datagram and
no copy of it is kept. -/
def MayPoll (lent : Prop) (h : Holding) (fd : Fd) : Prop :=
  (lent ∨ ∃ pipe, h.own fd = some (.pipeRead pipe) ∨ h.sees fd = some (.pipeRead pipe)) ∧
    ∀ pipe, h.own fd = some (.pipeRead pipe) →
      h.posted pipe = h.mark ∧ ∀ fd', h.own fd' ≠ some (.pipeWrite pipe)

/-- Descriptors are used and closed by their holder only. -/
def permits (lent : Prop) (h : Holding) : Sys → Prop
  | .getenv _ | .getpid | .monotonicUs | .socket | .pipe => True
  | .poll fd _ _ => h.MayPoll lent fd
  | .close fd => h.own fd ≠ none
  | .sendto fd _ _ => h.own fd = some .socket
  | .sendmsg fd _ _ fds => h.own fd = some .socket ∧ MayAttach lent h.own h.posted fds
  | _ => False

/-- A close of a held descriptor succeeds, every other call may fail; a failed
call changes nothing. -/
def answers (h : Holding) : (op : Sys) → op.Reply → Holding → Prop
  | .socket, .ok fd, h' => h.Fresh fd ∧ h' = h.acquire fd .socket
  | .pipe, .ok (r, w), h' =>
    h.Fresh r ∧ h.Fresh w ∧ r ≠ w ∧
      ∃ pipe, h.posted pipe = none ∧ h' = (h.acquire r (.pipeRead pipe)).acquire w (.pipeWrite pipe)
  | .close fd, reply, h' => reply = .ok () ∧ h' = h.release fd
  | .poll fd _ _, .ok events, h' => h' = h.observe fd events
  | .sendto _ _ _, .ok _, h' => ∃ index, h' = h.post [] index
  | .sendmsg _ _ _ fds, .ok _, h' => ∃ index, h' = h.post fds index
  | _, _, h' => h' = h

def contract (lent : Prop) : Prog.Contract Sys Sys.Reply Holding := ⟨permits lent, answers⟩

end Holding

/-! The platform primitives. -/

section Platform

variable {σ α : Type} {lent : Prop} {s : σ} {h : Holding} {err : PyErr → σ → Holding → Prop}

open Holding UnixDatagram

theorem obeys_checked (op : Sys) (x : op.Reply → Except Errno α) {ok : α → σ → Holding → Prop}
    (hpermits : h.permits lent op)
    (hreply : ∀ reply h', h.answers op reply h' →
      match x reply with
      | .ok a => ok a s h'
      | .error e => err (.osError e) s h') :
    Method.Obeys (sys op >>= fun reply => Method.lift (check (x reply)) : Py σ α)
      (contract lent) ok err s h := by
  refine Method.obeys_bind.mpr ⟨hpermits, fun reply h' ha => ?_⟩
  have hcase := hreply reply h' ha
  show (Method.lift (check (x reply))).Obeys (contract lent) ok err s h'
  cases hx : x reply with
  | ok a =>
    rw [hx] at hcase
    exact hcase
  | error e =>
    rw [hx] at hcase
    exact hcase

theorem obeys_getenv {name : Str} {ok : Option Str → σ → Holding → Prop}
    (hok : ∀ value, ok value s h) : (getenv name : Py σ _).Obeys (contract lent) ok err s h := by
  refine Method.obeys_call.mpr ⟨trivial, fun reply h' ha => ?_⟩
  cases (ha : h' = h)
  exact hok reply

theorem obeys_getpid {ok : Int → σ → Holding → Prop} (hok : ∀ pid, ok pid s h) :
    (getpid : Py σ _).Obeys (contract lent) ok err s h := by
  refine Method.obeys_call.mpr ⟨trivial, fun reply h' ha => ?_⟩
  cases (ha : h' = h)
  exact hok reply

theorem obeys_monotonicUs {ok : Nat → σ → Holding → Prop} (hok : ∀ now, ok now s h)
    (herr : ∀ e, err e s h) : (monotonicUs : Py σ _).Obeys (contract lent) ok err s h := by
  refine obeys_checked .monotonicUs id trivial fun reply h' ha => ?_
  cases (ha : h' = h)
  cases reply with
  | ok now => exact hok now
  | error e => exact herr _

theorem obeys_pipe {ok : Fd × Fd → σ → Holding → Prop}
    (hok : ∀ r w pipe, h.Fresh r → h.Fresh w → r ≠ w → h.posted pipe = none →
      ok (r, w) s ((h.acquire r (.pipeRead pipe)).acquire w (.pipeWrite pipe)))
    (herr : ∀ e, err e s h) : (pipe : Py σ _).Obeys (contract lent) ok err s h := by
  refine obeys_checked .pipe id trivial fun reply h' ha => ?_
  cases reply with
  | ok ends =>
    obtain ⟨r, w⟩ := ends
    obtain ⟨hr, hw, hrw, pipe, hp, rfl⟩ := ha
    exact hok r w pipe hr hw hrw hp
  | error e =>
    cases (ha : h' = h)
    exact herr _

theorem obeys_closeFd {fd : Fd} {ok : Unit → σ → Holding → Prop} (hfd : h.own fd ≠ none)
    (hok : ok () s (h.release fd)) : (closeFd fd : Py σ _).Obeys (contract lent) ok err s h := by
  refine obeys_checked (.close fd) id hfd fun reply h' ha => ?_
  obtain ⟨rfl, rfl⟩ := ha
  exact hok

theorem obeys_pollFd {rt : Runtime} {fd : Fd} {mask : Nat} {timeoutMs : Int}
    {ok : Nat → σ → Holding → Prop} (hpoll : h.MayPoll lent fd)
    (hok : ∀ events, ok events s (h.observe fd events)) (herr : ∀ e, err e s h) :
    (pollFd rt fd mask timeoutMs : Py σ _).Obeys (contract lent) ok err s h := by
  rw [pollFd]
  split
  · exact herr _
  · refine obeys_checked (.poll fd mask timeoutMs) id hpoll fun reply h' ha => ?_
    cases reply with
    | ok events =>
      cases (ha : h' = _)
      exact hok events
    | error e =>
      cases (ha : h' = h)
      exact herr _

theorem obeys_newDatagram {peer : Option Bytes} {ok : UnixDatagram → σ → Holding → Prop}
    (hok : ∀ fd, h.Fresh fd → ok ⟨fd, peer⟩ s (h.acquire fd .socket)) (herr : ∀ e, err e s h) :
    (UnixDatagram.new peer : Py σ _).Obeys (contract lent) ok err s h := by
  have hsocket : Method.Obeys (sys .socket >>= fun reply => Method.lift (check reply) : Py σ Fd)
      (contract lent) (fun fd s' h' => ok ⟨fd, peer⟩ s' h') err s h := by
    refine obeys_checked .socket id trivial fun reply h' ha => ?_
    cases reply with
    | ok fd =>
      obtain ⟨hfd, rfl⟩ := ha
      exact hok fd hfd
    | error e =>
      cases (ha : h' = h)
      exact herr _
  simpa [UnixDatagram.new] using hsocket

theorem obeys_send {sock : UnixDatagram} {data : Bytes} {ok : Nat → σ → Holding → Prop}
    (hsock : h.own sock.fd = some .socket) (hok : ∀ n index, ok n s (h.post [] index))
    (herr : ∀ e, err e s h) : (sock.send data : Py σ _).Obeys (contract lent) ok err s h := by
  rw [UnixDatagram.send]
  split
  · exact herr _
  · refine obeys_checked (.sendto sock.fd _ data) id hsock fun reply h' ha => ?_
    cases reply with
    | ok n =>
      obtain ⟨index, rfl⟩ := ha
      exact hok n index
    | error e =>
      cases (ha : h' = h)
      exact herr _

theorem mayAttach_packed {rt : Runtime} {own : Fd → Option File} {posted : Nat → Option Nat}
    {fds rights : List Fd} (hfds : MayAttach lent own posted fds)
    (hpack : fds.mapM (UnixDatagram.packFd rt) = .ok rights) : MayAttach lent own posted rights := by
  rcases hfds with rfl | hlent | ⟨fd, pipe, rfl, h0, hmax, hfd, hp⟩
  · cases hpack
    exact .inl rfl
  · exact .inr (.inl hlent)
  · have hrights : rights = [fd] := by
      simpa [packFd_of_range h0 hmax, eq_comm] using hpack
    exact .inr (.inr ⟨fd, pipe, hrights, h0, hmax, hfd, hp⟩)

theorem obeys_sendWithFds {rt : Runtime} {sock : UnixDatagram} {data : Bytes} {fds : List Fd}
    {ok : Nat → σ → Holding → Prop} (hsock : h.own sock.fd = some .socket)
    (hfds : MayAttach lent h.own h.posted fds)
    (hok : ∀ n rights index, fds.mapM (packFd rt) = .ok rights → ok n s (h.post rights index))
    (herr : ∀ e, err e s h) :
    (sock.sendWithFds rt data fds : Py σ _).Obeys (contract lent) ok err s h := by
  rw [UnixDatagram.sendWithFds]
  split
  · exact herr _
  · split
    · next hnil => exact obeys_send hsock (fun n index => hok n [] index (by rw [hnil]; rfl)) herr
    · split
      · exact herr _
      · cases hpack : fds.mapM (UnixDatagram.packFd rt) with
        | error e => exact herr _
        | ok rights =>
          have hrights := mayAttach_packed hfds hpack
          refine obeys_checked (.sendmsg sock.fd _ data rights) id ⟨hsock, hrights⟩ fun reply h' ha => ?_
          cases reply with
          | ok n =>
            obtain ⟨index, rfl⟩ := ha
            exact hok n rights index hpack
          | error e =>
            cases (ha : h' = h)
            exact herr _

theorem obeys_closeDatagram {rt : Runtime} {sock : UnixDatagram}
    {ok : Unit → UnixDatagram → Holding → Prop} {err : PyErr → UnixDatagram → Holding → Prop}
    (h0 : 0 ≤ sock.fd) (hsock : h.own sock.fd ≠ none)
    (hok : ok () { sock with fd := -1 } (h.release sock.fd)) :
    (UnixDatagram.close rt).Obeys (contract lent) ok err sock h := by
  simp only [UnixDatagram.close, Method.obeys_bind, Method.obeys_attributes, ge_iff_le, if_pos h0]
  split
  · refine Method.obeys_bind.mpr (Method.obeys_call.mpr ⟨hsock, fun reply h' ha => ?_⟩)
    obtain ⟨rfl, rfl⟩ := ha
    exact hok
  · exact Method.obeys_bind.mpr (obeys_closeFd hsock hok)

end Platform

/-! The notifier's methods. -/

namespace Notifier

/-- The holding is `F` with the notifier's socket, if it has one. -/
def Settled (F : Fd → Option File) (n : Notifier) (h : Holding) : Prop :=
  match n.sock with
  | none => h.own = F
  | some sock =>
    0 ≤ sock.fd ∧ F sock.fd = none ∧ h.own = Function.update F sock.fd (some .socket)

namespace Settled

variable {F : Fd → Option File} {n : Notifier} {h : Holding}

theorem own_of {fd : Fd} {file : File} (hs : Settled F n h) (hfd : F fd = some file) :
    h.own fd = some file := by
  rw [Settled] at hs
  split at hs
  · rw [hs, hfd]
  · obtain ⟨_, hF, hown⟩ := hs
    have hne : fd ≠ _ := fun heq => by rw [heq, hF] at hfd; cases hfd
    rw [hown, Function.update_of_ne hne, hfd]

theorem of_own_eq {fd : Fd} {file : File} (hs : Settled F n h) (hfd : h.own fd = some file) :
    file = .socket ∨ F fd = some file := by
  rw [Settled] at hs
  split at hs
  · exact .inr (hs ▸ hfd)
  · next sock _ =>
    obtain ⟨_, _, hown⟩ := hs
    by_cases heq : fd = sock.fd
    · left
      simpa [hown, heq, eq_comm] using hfd
    · right
      simpa [hown, Function.update_of_ne heq] using hfd

theorem free_of {fd : Fd} (hs : Settled F n h) (hfd : h.own fd = none) : F fd = none := by
  cases hF : F fd with
  | none => rfl
  | some file =>
    rw [hs.own_of hF] at hfd
    cases hfd

theorem acquire {fd : Fd} (hs : Settled F n h) (hfd : h.own fd = none) (file : File) :
    Settled (Function.update F fd (some file)) n (h.acquire fd file) := by
  unfold Settled at hs ⊢
  split at hs
  · simp only [Holding.acquire, hs]
  · obtain ⟨h0, hF, hown⟩ := hs
    have hne : _ ≠ fd := fun heq => by
      rw [hown, ← heq, Function.update_self] at hfd
      cases hfd
    refine ⟨h0, by rw [Function.update_of_ne hne, hF], ?_⟩
    rw [Holding.acquire, hown, Function.update_comm hne]

theorem release {fd : Fd} {file : File} (hs : Settled F n h) (hfd : F fd = some file) :
    Settled (Function.update F fd none) n (h.release fd) := by
  unfold Settled at hs ⊢
  split at hs
  · simp only [Holding.release, hs]
  · obtain ⟨h0, hF, hown⟩ := hs
    have hne : _ ≠ fd := fun heq => by
      rw [← heq, hF] at hfd
      cases hfd
    refine ⟨h0, by rw [Function.update_of_ne hne, hF], ?_⟩
    rw [Holding.release, hown, Function.update_comm hne]

theorem of_own {h' : Holding} (hs : Settled F n h) (hown : h'.own = h.own) : Settled F n h' := by
  unfold Settled at hs ⊢
  rwa [hown]

end Settled

variable {rt : Runtime} {lent : Prop} {F : Fd → Option File} {n : Notifier} {h : Holding}

open Holding

theorem obeys_openSock {sunPath : Bytes} {ok : UnixDatagram → Notifier → Holding → Prop}
    {err : PyErr → Notifier → Holding → Prop} (hs : Settled F n h)
    (hok : ∀ sock n' h', Settled F n' h' → h'.own sock.fd = some .socket → h'.posted = h.posted →
      ok sock n' h')
    (herr : ∀ e, err e n h) : (openSock sunPath).Obeys (contract lent) ok err n h := by
  simp only [openSock, Method.obeys_bind, Method.obeys_attributes]
  split
  · next sock hsock =>
    refine hok sock n h hs ?_ rfl
    simp only [Settled, hsock] at hs
    rw [hs.2.2, Function.update_self]
  · next hsock =>
    refine Method.obeys_bind.mpr (obeys_newDatagram (fun fd hfd => ?_) herr)
    refine hok _ _ _ ?_ (Function.update_self ..) rfl
    simp only [Settled, hsock] at hs
    refine ⟨hfd.1, by rw [← hs, hfd.2.2], ?_⟩
    rw [Holding.acquire, hs]

theorem obeys_sendRaw {payload : StrOrBytes} {fds : List Fd} (hs : Settled F n h)
    (hfds : MayAttach lent F h.posted fds) :
    (sendRaw rt payload fds).Obeys (contract lent)
      (fun _ n' h' => Settled F n' h' ∧ ∀ fd pipe, fds = [fd] → 0 ≤ fd → fd < 2 ^ 31 →
        F fd = some (.pipeWrite pipe) → n.sunPath ≠ none →
        ∃ index, h'.mark = some index ∧ h'.posted pipe = some index)
      (fun _ n' h' => Settled F n' h') n h := by
  simp only [sendRaw, Method.obeys_bind, Method.obeys_attributes]
  split
  · next hpath => exact ⟨hs, fun _ _ _ _ _ _ hsome => absurd hpath hsome⟩
  · cases payload.encode with
    | error e => exact hs
    | ok payload =>
      refine Method.obeys_bind.mpr (Method.obeys_bind.mpr (obeys_openSock hs ?_ fun _ => hs))
      intro sock n' h' hs' hsock hposted
      have hattach : MayAttach lent h'.own h'.posted fds := by
        rcases hfds with hnil | hlent | ⟨fd, pipe, hfd, h0, hmax, hF, hp⟩
        · exact .inl hnil
        · exact .inr (.inl hlent)
        · exact .inr (.inr ⟨fd, pipe, hfd, h0, hmax, hs'.own_of hF, hposted ▸ hp⟩)
      split
      · refine Method.obeys_bind.mpr
          (obeys_sendWithFds hsock hattach (fun _ rights index hpack => ?_) fun _ => hs')
        refine ⟨hs'.of_own rfl, fun fd pipe hfd h0 hmax hF _ => ⟨index, rfl, ?_⟩⟩
        have hrights : rights = [fd] := by
          simpa [hfd, UnixDatagram.packFd_of_range h0 hmax, eq_comm] using hpack
        exact if_pos ⟨fd, by simp [hrights], hs'.own_of hF⟩
      · next hnil =>
        refine Method.obeys_bind.mpr
          (obeys_send hsock (fun _ index => ⟨hs'.of_own rfl, ?_⟩) fun _ => hs')
        intro fd pipe hfd
        simp [hfd] at hnil

def Settles {α : Type} (lent : Prop) (m : Py Notifier α) : Prop :=
  ∀ F n h, Settled F n h →
    m.Obeys (contract lent) (fun _ n' h' => Settled F n' h') (fun _ n' h' => Settled F n' h') n h

theorem settles_sendRaw {payload : StrOrBytes} {fds : List Fd} (hfds : fds = [] ∨ lent) :
    Settles lent (sendRaw rt payload fds) := by
  intro F n h hs
  refine (obeys_sendRaw hs ?_).mono (fun _ _ _ hok => hok.1) fun _ _ _ herr => herr
  rcases hfds with hnil | hlent
  · exact .inl hnil
  · exact .inr (.inl hlent)

theorem settles_lift {α β : Type} {x : Except PyErr α} {f : α → Py Notifier β}
    (hf : ∀ a, Settles lent (f a)) : Settles lent (Method.lift x >>= f) := by
  intro F n h hs
  refine Method.obeys_bind.mpr ?_
  cases x with
  | error e => exact hs
  | ok a => exact hf a F n h hs

theorem settles_notify {states : List StrOrBytes} {fields : Dict Str Value} :
    Settles lent (notify rt states fields) :=
  settles_lift fun _ => settles_sendRaw (.inl rfl)

theorem settles_reloading {status : Option Value} : Settles lent (reloading rt status) := by
  intro F n h hs
  refine Method.obeys_bind.mpr (obeys_monotonicUs (fun now => ?_) fun _ => hs)
  exact settles_notify F n h hs

theorem settles_mainPid {pid : Option Int} : Settles lent (mainPid rt pid) := by
  intro F n h hs
  refine Method.obeys_bind.mpr ?_
  cases pid with
  | none => exact obeys_getpid fun pid => settles_notify F n h hs
  | some pid => exact settles_notify F n h hs

theorem settles_fdstore {fds : FdsArg} {name : Option Str} {poll : Option Bool} (hlent : lent) :
    Settles lent (fdstore rt fds name poll) := by
  rw [fdstore]
  split
  · exact fun F n h hs => hs
  · exact settles_lift fun _ => settles_lift fun _ => settles_sendRaw (.inr hlent)

theorem settles_fdstoreRemove {name : Str} : Settles lent (fdstoreRemove rt name) :=
  settles_lift fun _ => settles_notify

/-- The write end is closed on every path. The read end is closed when the
barrier could not be sent, and is the caller's otherwise. -/
theorem obeys_barrierBegin (hs : Settled F n h) :
    (barrierBegin rt).Obeys (contract lent)
      (fun result n' h' =>
        match result with
        | none => n' = n ∧ h' = h
        | some readFd => F readFd = none ∧ ∃ pipe,
          Settled (Function.update F readFd (some (.pipeRead pipe))) n' h' ∧
            ∃ index, h'.mark = some index ∧ h'.posted pipe = some index)
      (fun _ n' h' => Settled F n' h') n h := by
  simp only [barrierBegin, Method.obeys_bind, Method.obeys_attributes]
  split
  · exact ⟨rfl, rfl⟩
  next hpath =>
  refine Method.obeys_bind.mpr (obeys_pipe (fun r w pipe hr hw hrw hp => ?_) fun _ => hs)
  have hsr := hs.acquire hr.2.2 (.pipeRead pipe)
  have hFr := hs.free_of hr.2.2
  have hFw := hs.free_of hw.2.2
  have hw' : (h.acquire r (.pipeRead pipe)).own w = none := by
    rw [acquire_own, Function.update_of_ne hrw.symm, hw.2.2]
  have hsw := hsr.acquire hw' (.pipeWrite pipe)
  have hrest : Function.update (Function.update (Function.update F r (some (.pipeRead pipe))) w
      (some (.pipeWrite pipe))) w none = Function.update F r (some (.pipeRead pipe)) := by
    rw [Function.update_idem, Function.update_eq_self_iff, Function.update_of_ne hrw.symm, hFw]
  have hattach : MayAttach lent (Function.update (Function.update F r (some (.pipeRead pipe))) w
      (some (.pipeWrite pipe))) h.posted [w] :=
    .inr (.inr ⟨w, pipe, rfl, hw.1, hw.2.1, Function.update_self .., hp⟩)
  refine Method.obeys_bind.mpr (Method.obeys_ensuring.mpr (Method.obeys_handling.mpr ?_))
  refine Method.obeys_bind.mpr ((obeys_sendRaw hsw hattach).mono ?_ ?_)
  · -- The barrier is on its way: only the write end is closed.
    rintro _ n' h' ⟨hs', hposted⟩
    have hWown := hs'.own_of (Function.update_self ..)
    refine obeys_closeFd (by simp [hWown]) ⟨hFr, pipe, ?_, ?_⟩
    · rw [← hrest]
      exact hs'.release (Function.update_self ..)
    · exact hposted w pipe rfl hw.1 hw.2.1 (Function.update_self ..) hpath
  · -- It is not: both ends are closed, the read end first.
    intro e n' h' hs'
    have hF2r : Function.update (Function.update F r (some (.pipeRead pipe))) w
        (some (.pipeWrite pipe)) r = some (.pipeRead pipe) := by
      rw [Function.update_of_ne hrw, Function.update_self]
    refine Method.obeys_bind.mpr (obeys_closeFd (by simp [hs'.own_of hF2r]) ?_)
    have hs'' := hs'.release hF2r
    have hFwr : none = Function.update F w (some (.pipeWrite pipe)) r := by
      rw [Function.update_of_ne hrw, hFr]
    rw [Function.update_comm hrw, Function.update_idem, Function.update_eq_self_iff.mpr hFwr] at hs''
    have hWown := hs''.own_of (Function.update_self ..)
    refine obeys_closeFd (by simp [hWown]) ?_
    have hs3 := hs''.release (Function.update_self ..)
    rwa [Function.update_idem, Function.update_eq_self_iff.mpr hFw.symm] at hs3

theorem obeys_barrierFinish {readFd : Fd} {timeoutMs : Int} (hpoll : h.MayPoll lent readFd) :
    (barrierFinish rt readFd timeoutMs).Obeys (contract lent)
      (fun done n' h' => n' = n ∧ ∃ events, done = decide (events ≠ 0) ∧ h' = h.observe readFd events)
      (fun _ n' h' => n' = n ∧ h' = h) n h :=
  Method.obeys_bind.mpr
    (obeys_pollFd hpoll (fun events => ⟨rfl, events, rfl, rfl⟩) fun _ => ⟨rfl, rfl⟩)

/-- A barrier settles the descriptors. When it is done the pipe it posted has
been seen without a write end, and an event it saw is not withheld. -/
theorem obeys_barrier {timeoutMs : Int} (hs : Settled F n h)
    (hF : ∀ fd pipe, F fd ≠ some (.pipeWrite pipe)) (hevents : h.events = none) :
    (barrier rt timeoutMs).Obeys (contract lent)
      (fun done n' h' => Settled F n' h' ∧
        (done = true → ∃ pipe index,
          h'.mark = some index ∧ h'.posted pipe = some index ∧ h'.drained pipe) ∧
        ∀ events, h'.events = some events → events ≠ 0 → done = true)
      (fun _ n' h' => Settled F n' h') n h := by
  refine Method.obeys_bind.mpr ((obeys_barrierBegin hs).mono ?_ fun _ _ _ herr => herr)
  rintro (_ | readFd) n' h' hbegin
  · obtain ⟨rfl, rfl⟩ := hbegin
    exact ⟨hs, nofun, fun events he => by simp [hevents] at he⟩
  · obtain ⟨hfree, pipe, hs', index, hmark, hposted⟩ := hbegin
    have hread := hs'.own_of (Function.update_self ..)
    have hback : Function.update (Function.update F readFd (some (.pipeRead pipe))) readFd none =
        F := by
      rw [Function.update_idem, Function.update_eq_self_iff, hfree]
    have hclose := hs'.release (Function.update_self ..)
    rw [hback] at hclose
    have hpoll : h'.MayPoll lent readFd := by
      refine ⟨.inr ⟨pipe, .inl hread⟩, fun pipe' hpipe' => ?_⟩
      rw [hread] at hpipe'
      cases hpipe'
      refine ⟨hposted.trans hmark.symm, fun fd hfd => ?_⟩
      rcases hs'.of_own_eq hfd with hsocket | hFd
      · cases hsocket
      · by_cases heq : fd = readFd
        · simp [heq] at hFd
        · exact hF fd pipe (by simpa [Function.update_of_ne heq] using hFd)
    refine Method.obeys_ensuring.mpr ((obeys_barrierFinish hpoll).mono ?_ ?_)
    · rintro done n'' h'' ⟨rfl, events, rfl, rfl⟩
      have hown : (h'.observe readFd events).own readFd ≠ none := by
        show h'.own readFd ≠ none
        simp [hread]
      apply obeys_closeFd hown
      refine ⟨hclose.of_own rfl, fun hdone => ⟨pipe, index, hmark, hposted, ?_⟩, ?_⟩
      · exact .inr ⟨of_decide_eq_true hdone, .inl hread⟩
      · intro events' he hne
        cases he
        exact decide_eq_true hne
    · rintro e n'' h'' ⟨rfl, rfl⟩
      exact obeys_closeFd (by simp [hread]) hclose

theorem obeys_close (hs : Settled F n h) :
    (close rt).Obeys (contract lent) (fun _ n' h' => n'.sock = none ∧ h'.own = F)
      (fun _ _ _ => False) n h := by
  simp only [close, Method.obeys_bind, Method.obeys_attributes]
  rw [Settled] at hs
  split
  · next hsock =>
    simp only [hsock] at hs
    exact ⟨hsock, hs⟩
  · next sock hsock =>
    simp only [hsock] at hs
    obtain ⟨h0, hF, hown⟩ := hs
    refine Method.obeys_bind.mpr (Method.obeys_zoom.mpr (obeys_closeDatagram h0 ?_ ⟨rfl, ?_⟩))
    · simp [hown]
    · rw [release_own, hown, Function.update_idem, Function.update_eq_self_iff, hF]

theorem sock_of_ofAddress {address : Option StrOrBytes} {n : Notifier}
    (hn : ofAddress address = .ok n) : n.sock = none := by
  rw [ofAddress] at hn
  split at hn
  · cases hn
    rfl
  · obtain ⟨sunPath, _, hn⟩ := Fallible.bind_eq_ok.mp hn
    cases hn
    rfl

theorem obeys_new {σ : Type} {address : Option StrOrBytes} {s : σ} :
    (new address : Py σ Notifier).Obeys (contract lent)
      (fun n s' h' => n.sock = none ∧ s' = s ∧ h' = h) (fun _ s' h' => s' = s ∧ h' = h) s h := by
  have hrest : ∀ address, (Method.lift (ofAddress address) : Py σ Notifier).Obeys (contract lent)
      (fun n s' h' => n.sock = none ∧ s' = s ∧ h' = h) (fun _ s' h' => s' = s ∧ h' = h) s h := by
    intro address
    cases hn : ofAddress address with
    | ok n => exact ⟨sock_of_ofAddress hn, rfl, rfl⟩
    | error e => exact ⟨rfl, rfl⟩
  refine Method.obeys_bind.mpr ?_
  cases address with
  | none => exact Method.obeys_bind.mpr (obeys_getenv fun value => hrest _)
  | some address => exact hrest _

end Notifier

theorem obeys_withNotifier {σ α : Type} {rt : Runtime} {lent : Prop} {body : Py Notifier α} {s : σ}
    {h : Holding} (hbody : ∀ n, Notifier.Settled h.own n h →
      body.Obeys (Holding.contract lent) (fun _ n' h' => Notifier.Settled h.own n' h')
        (fun _ n' h' => Notifier.Settled h.own n' h') n h) :
    (withNotifier rt body : Py σ α).Obeys (Holding.contract lent) (fun _ _ h' => h'.own = h.own)
      (fun _ _ h' => h'.own = h.own) s h := by
  refine Method.obeys_bind.mpr (Notifier.obeys_new.mono ?_ ?_)
  · rintro n s' h' ⟨hsock, rfl, rfl⟩
    refine Method.obeys_zoom.mpr (Method.obeys_ensuring.mpr ?_)
    have hs : Notifier.Settled h'.own n h' := by simp [Notifier.Settled, hsock]
    refine (hbody n hs).mono ?_ ?_
    · intro _ n' h'' hs'
      exact (Notifier.obeys_close hs').mono (fun _ _ _ hok => hok.2) fun _ _ _ => False.elim
    · intro _ n' h'' hs'
      exact (Notifier.obeys_close hs').mono (fun _ _ _ hok => hok.2) fun _ _ _ => False.elim
  · rintro _ _ _ ⟨_, rfl⟩
    rfl

end Mpsystemd
