import Mpsystemd.Datagram
import Mpsystemd.Notifier
import Mpsystemd.Receiving

/-! The fake listener of the testing module, and when what it receives is what
was sent. -/

namespace Mpsystemd

open Struct (Machine)

variable {σ : Type}

structure FakeNotifyListener where
  address : StrOrBytes
  maxFds : Int
  bufsize : Int
  sock : UnixDatagram
  deriving DecidableEq, Repr

namespace FakeNotifyListener

def hexDigits : Str := str "0123456789abcdef"

def hexlify (b : Bytes) : Str :=
  b.flatMap fun byte => hexDigits[byte.toNat / 16]?.toList ++ hexDigits[byte.toNat % 16]?.toList

/-- `urandom` is what `os.urandom` returns. When the bind fails the socket stays open,
as on the unix port; on CPython the socket object closes it when it is dropped. -/
def new (urandom : Bytes) (address : Option StrOrBytes) (maxFds bufsize : Int) :
    Py σ FakeNotifyListener := do
  let address := address.getD (.text (str "@mpsystemd-test-" ++ hexlify urandom))
  let sock ← UnixDatagram.new none
  sock.bind (← Method.lift (encodeUnixAddress address))
  return ⟨address, maxFds, bufsize, sock⟩

def receive (rt : Runtime) (m : Machine) (timeoutMs : Int) : Py FakeNotifyListener (Option Datagram) := do
  let self ← Method.attributes
  let events ← pollFd rt self.sock.fd pollin timeoutMs
  if events = 0 then return none
  else
    let received ← self.sock.recv rt m self.bufsize self.maxFds
    return some ⟨received.1, received.2⟩

end FakeNotifyListener

theorem Kernel.events_waiting {k : Kernel} {fd : Fd} (h0 : 0 ≤ fd) (hopen : k.table fd ≠ none)
    (hwaiting : k.waitingAt fd ≠ []) (events : Nat) : k.events pollin events fd ≠ 0 := by
  rw [Kernel.events, if_neg (not_lt.mpr h0), if_neg hopen, if_neg hwaiting]
  intro hzero
  have hpollin := (Nat.or_eq_zero_iff.mp hzero).1
  cases hpollin

namespace FakeNotifyListener

variable {rt : Runtime} {l : FakeNotifyListener} {k : Kernel} {message : Message} {rest : List Message}

/-- The datagram that was returned holds all of the data, and a descriptor for
each file in order. -/
def Whole (message : Message) (result : Option Datagram) (k : Kernel) : Prop :=
  ∃ fds, result = some ⟨message.data, fds⟩ ∧
    List.Forall₂ (fun fd file => k.fileAt fd = some file) fds message.files

theorem whole_none (k k' : Kernel) : Whole message (some ⟨[], []⟩) k ↔ Whole message (some ⟨[], []⟩) k' := by
  have himp : ∀ k k', Whole message (some ⟨[], []⟩) k → Whole message (some ⟨[], []⟩) k' := by
    rintro k k' ⟨fds, hresult, hfds⟩
    simp only [Option.some.injEq, Datagram.mk.injEq] at hresult
    obtain ⟨hdata, rfl⟩ := hresult
    rw [List.forall₂_nil_left_iff] at hfds
    exact ⟨[], by rw [hdata], by rw [hfds]; exact .nil⟩
  exact ⟨himp k k', himp k' k⟩

structure Fits (m : Machine) (l : FakeNotifyListener) (message : Message) (k : Kernel) : Prop where
  data : message.data.length ≤ l.bufsize
  fds : message.files.length ≤ capacity m l.maxFds
  room : k.HasRoom message.files

theorem whole_iff {taken : Kernel} {received : List Fd × Kernel} (htable : taken.table = k.table)
    (hreceived : taken.receiveFiles (message.files.take (capacity m l.maxFds)) = received)
    (hbuf : 0 ≤ l.bufsize) :
    Whole message (some ⟨message.data.take l.bufsize.toNat, received.1⟩) received.2 ↔ Fits m l message k := by
  have hlength := @Kernel.length_receiveFiles_take_iff k message.files (capacity m l.maxFds)
  rw [← Kernel.receiveFiles_congr htable, hreceived] at hlength
  constructor
  · rintro ⟨fds, hresult, hfds⟩
    simp only [Option.some.injEq, Datagram.mk.injEq] at hresult
    obtain ⟨hdata, rfl⟩ := hresult
    have hfits := List.take_eq_self_iff _ |>.mp hdata
    obtain ⟨hroom, hfree⟩ := hlength.mp hfds.length_eq
    exact ⟨by omega, hroom, hfree⟩
  · intro h
    have hdata := h.data
    have hwhole := taken.fileAt_receiveFiles (message.files.take (capacity m l.maxFds))
    rw [hreceived, hlength.mpr ⟨h.fds, h.room⟩, List.take_of_length_le h.fds, List.take_length] at hwhole
    have htake : message.data.take l.bufsize.toNat = message.data := List.take_of_length_le (by omega)
    rw [htake]
    exact ⟨received.1, rfl, hwhole⟩

theorem ends_receive_iff (timeoutMs : Int) (h0 : 0 ≤ l.sock.fd)
    (hcount : message.files.length ≤ maxFdsPerMessage)
    (hwaiting : k.waitingAt l.sock.fd = message :: rest) :
    Py.Ends (receive rt m timeoutMs) (fun result _ k' => Whole message result k') (fun _ _ _ => True) l k ↔
      Refuses rt m l.bufsize l.maxFds ∨ Fits m l message k := by
  obtain ⟨hopen, taken, htable, htakes⟩ := Kernel.takes_of_waiting hwaiting
  have hne : k.waitingAt l.sock.fd ≠ [] := by rw [hwaiting]; exact List.cons_ne_nil _ _
  have hnonneg : ¬ (l.sock.fd < 0 ∧ ¬ rt.micropython) := fun h => absurd h.1 (not_lt.mpr h0)
  obtain ⟨received, hreceived⟩ : ∃ received,
      taken.receiveFiles (message.files.take (capacity m l.maxFds)) = received := ⟨_, rfl⟩
  rw [receive]
  refine Method.obeys_bind.trans (Method.obeys_attributes.trans (Method.obeys_bind.trans ?_))
  rw [pollFd, if_neg hnonneg]
  refine Iff.trans (ends_attempt_iff (.poll l.sock.fd pollin timeoutMs) id
    (fun c => .ok (k.events pollin c.events l.sock.fd, k)) (fun c => ⟨rfl, rfl⟩)) ?_
  have hrecv : ∀ events, events ≠ 0 →
      (Py.Ends (do
        if events = 0 then return none
        else
          let received ← l.sock.recv rt m l.bufsize l.maxFds
          return some ⟨received.1, received.2⟩) (fun result _ k' => Whole message result k')
            (fun _ _ _ => True) l k ↔
        Refuses rt m l.bufsize l.maxFds ∨ Fits m l message k) := by
    intro events hevents
    rw [if_neg hevents]
    refine Method.obeys_bind.trans (Iff.trans (ends_recv_iff htakes hcount hreceived (whole_none k taken)) ?_)
    rw [← or_iff_not_imp_left]
    by_cases hbuf : 0 ≤ l.bufsize
    · exact or_congr_right (whole_iff htable hreceived hbuf)
    · have hrefuses : Refuses rt m l.bufsize l.maxFds := .inl (by omega)
      exact iff_of_true (.inl hrefuses) (.inl hrefuses)
  constructor
  · intro h
    exact (hrecv _ (Kernel.events_waiting h0 hopen hne 0)).mp (h ⟨none, 0, 0, 0, 0⟩ _ _ rfl rfl)
  · intro h c events k' _ hpolled
    cases hpolled
    exact (hrecv _ (Kernel.events_waiting h0 hopen hne c.events)).mpr h

/-! The listener's queue. -/

/-- The listener's socket is open and bound to the path, and has received no
more than what there was. -/
structure ListensAt (l : FakeNotifyListener) (path : Bytes) (i : Nat) (inbox : Inbox) (k : Kernel) : Prop where
  nonneg : 0 ≤ l.sock.fd
  file : k.fileAt l.sock.fd = some (.boundSocket i)
  found : k.inboxes[i]? = some inbox
  address : inbox.address = path
  since : inbox.since ≤ k.sent.length
  received : inbox.received ≤ ((k.sent.drop inbox.since).filter (·.peer = path)).length

def Listening (l : FakeNotifyListener) (path : Bytes) (k : Kernel) : Prop := ∃ i inbox, ListensAt l path i inbox k

variable {path : Bytes} {i : Nat} {inbox : Inbox}

theorem ListensAt.waitingAt (h : ListensAt l path i inbox k) :
    k.waitingAt l.sock.fd = ((k.sent.drop inbox.since).filter (·.peer = path)).drop inbox.received := by
  simp only [Kernel.waitingAt, h.file, h.found, Option.elim, Kernel.waiting, h.address]

theorem ListensAt.install (h : ListensAt l path i inbox k) {fd : Nat} (hfree : k.Free fd) (d : Descriptor) :
    ListensAt l path i inbox (k.install fd d) := by
  have hne : l.sock.fd ≠ fd := by
    intro heq
    have hfile := h.file
    rw [Kernel.fileAt, heq, hfree.2] at hfile
    cases hfile
  have hfile : (k.install fd d).fileAt l.sock.fd = some (.boundSocket i) := by
    rw [Kernel.fileAt_install, if_neg hne, h.file]
  exact { h with file := hfile }

theorem ListensAt.post (h : ListensAt l path i inbox k) (hpeer : message.peer = path) :
    ListensAt l path i inbox (k.post message) ∧
      (k.post message).waitingAt l.sock.fd = k.waitingAt l.sock.fd ++ [message] := by
  have hqueue : ((k.post message).sent.drop inbox.since).filter (·.peer = path) =
      (k.sent.drop inbox.since).filter (·.peer = path) ++ [message] := by
    rw [Kernel.post, List.drop_append_of_le_length h.since, List.filter_append]
    simp [hpeer]
  have hposted : ListensAt l path i inbox (k.post message) := {
    h with
    since := by
      have hsince := h.since
      simp only [Kernel.post, List.length_append]
      omega
    received := by
      have hreceived := h.received
      rw [hqueue, List.length_append]
      omega }
  refine ⟨hposted, ?_⟩
  rw [hposted.waitingAt, h.waitingAt, hqueue, List.drop_append_of_le_length h.received]

/-- The listener is bound to its address: a queue of its own has begun. -/
structure Opened (l : FakeNotifyListener) (path : Bytes) (k k' : Kernel) : Prop where
  address : encodeUnixAddress l.address = .ok path
  nonneg : 0 ≤ l.sock.fd
  free : k.table l.sock.fd = none
  table : k'.table = Function.update k.table l.sock.fd (some ⟨.boundSocket k.inboxes.length, true⟩)
  inboxes : k'.inboxes = k.inboxes ++ [⟨path, k.sent.length, 0⟩]
  sent : k'.sent = k.sent
  closes : k'.closes = k.closes

theorem ends_new (urandom : Bytes) (address : Option StrOrBytes) (maxFds bufsize : Int) {s : σ} :
    Py.Ends (new urandom address maxFds bufsize)
      (fun l _ k' => l.maxFds = maxFds ∧ l.bufsize = bufsize ∧ ∃ path, Opened l path k k')
      (fun _ _ _ => True) s k := by
  rw [new]
  refine Method.obeys_bind.mpr ?_
  apply ends_newDatagram
  · intro fd hfree
    cases hpath : encodeUnixAddress (address.getD (.text (str "@mpsystemd-test-" ++ hexlify urandom))) with
    | error e => exact trivial
    | ok path =>
      refine Method.obeys_bind.mpr (Method.obeys_lift_ok.mpr (Method.obeys_bind.mpr ?_))
      apply ends_attempt (.bind fd path) id (fun _ => (k.install fd ⟨.socket, true⟩).bind fd path)
        (fun c => ⟨rfl, rfl⟩)
      · intro c _ k' hbind
        have htable : (k.install fd ⟨.socket, true⟩).table fd = some ⟨.socket, true⟩ := by
          rw [Kernel.install_table, Function.update_self]
        rw [Kernel.bind, htable] at hbind
        cases hbind
        exact ⟨rfl, rfl, path, hpath, Int.natCast_nonneg fd, hfree.2, Function.update_idem .., rfl, rfl, rfl⟩
      · exact fun _ => trivial
  · exact fun _ => trivial

/-- A new listener waits for what is sent from then on. -/
theorem Opened.listens {k' : Kernel} (h : Opened l path k k') :
    Listening l path k' ∧ k'.waitingAt l.sock.fd = [] := by
  have hlistens : ListensAt l path k.inboxes.length ⟨path, k.sent.length, 0⟩ k' := {
    nonneg := h.nonneg
    file := by simp [Kernel.fileAt, h.table]
    found := by simp [h.inboxes]
    address := rfl
    since := h.sent ▸ le_refl _
    received := Nat.zero_le _ }
  refine ⟨⟨_, _, hlistens⟩, ?_⟩
  rw [hlistens.waitingAt, h.sent, List.drop_length]
  rfl

def SentFiles (rt : Runtime) (fds : List Fd) (k : Kernel) (files : List File) : Prop :=
  ∃ rights, fds.mapM (UnixDatagram.packFd rt) = .ok rights ∧ rights.mapM k.fileAt = some files

theorem SentFiles.length_eq {fds : List Fd} {files : List File} (h : SentFiles rt fds k files) :
    files.length = fds.length := by
  obtain ⟨rights, hrights, hfiles⟩ := h
  have hpacked := (Fallible.mapM_eq_ok.mp hrights).length_eq
  have hopen := Fallible.length_of_mapM_eq_some hfiles
  omega

theorem ends_sendWithFds {sock : UnixDatagram} {peer data : Bytes} {fds : List Fd} {s : σ}
    {ok : Nat → σ → Kernel → Prop} (hpeer : sock.peer = some peer) (hfds : fds ≠ [])
    (hok : ∀ n files, fds.length ≤ maxFdsPerMessage → SentFiles rt fds k files →
      ok n s (k.post ⟨peer, data, files⟩)) :
    Py.Ends (sock.sendWithFds rt data fds) ok (fun _ _ _ => True) s k := by
  simp only [UnixDatagram.sendWithFds, hpeer, if_neg hfds]
  split
  · exact trivial
  · next hfew =>
    refine Method.obeys_bind.mpr ?_
    cases hrights : fds.mapM (UnixDatagram.packFd rt) with
    | error e => exact trivial
    | ok rights =>
      apply ends_attempt (.sendmsg sock.fd peer data rights) id
        (fun _ => k.deliver sock.fd peer data (rights.mapM k.fileAt)) (fun c => ⟨rfl, rfl⟩)
      · intro c n k' hdeliver
        obtain ⟨files, hfiles, rfl⟩ := Kernel.deliver_eq_ok hdeliver
        exact hok n files (not_lt.mp hfew) ⟨rights, hrights, hfiles⟩
      · exact fun _ => trivial

/-- The message that was sent waits for the listener, behind those that did. -/
structure Queued (rt : Runtime) (l : FakeNotifyListener) (data : Bytes) (fds : List Fd) (k k' : Kernel)
    (message : Message) : Prop where
  data : message.data = data
  few : fds.length ≤ maxFdsPerMessage
  files : SentFiles rt fds k' message.files
  waiting : k'.waitingAt l.sock.fd = k.waitingAt l.sock.fd ++ [message]

theorem ends_sendOn {sock : UnixDatagram} {n : Notifier} {data : Bytes} {fds : List Fd} {k₁ : Kernel}
    (hl : ListensAt l path i inbox k₁) (hpeer : sock.peer = some path)
    (hqueue : k₁.waitingAt l.sock.fd = k.waitingAt l.sock.fd) :
    Py.Ends (do
        let _ ← if fds ≠ [] then sock.sendWithFds rt data fds else sock.send data
        return true)
      (fun _ _ k' => ListensAt l path i inbox k' ∧ ∃ message, Queued rt l data fds k k' message)
      (fun _ _ _ => True) n k₁ := by
  have hposted : ∀ files, ListensAt l path i inbox (k₁.post ⟨path, data, files⟩) ∧
      (k₁.post ⟨path, data, files⟩).waitingAt l.sock.fd =
        k.waitingAt l.sock.fd ++ [⟨path, data, files⟩] := by
    intro files
    rw [← hqueue]
    exact hl.post rfl
  split
  · next hfds =>
    refine Method.obeys_bind.mpr ?_
    apply ends_sendWithFds hpeer hfds
    intro _ files hfew hfiles
    obtain ⟨hlistens, hwaiting⟩ := hposted files
    exact ⟨hlistens, ⟨path, data, files⟩, rfl, hfew, hfiles, hwaiting⟩
  · next hnil =>
    have hfds : fds = [] := not_not.mp hnil
    have hfiles : SentFiles rt fds (k₁.post ⟨path, data, []⟩) [] := by
      rw [hfds]
      exact ⟨[], rfl, rfl⟩
    refine Method.obeys_bind.mpr ?_
    apply ends_send hpeer
    · intro _
      obtain ⟨hlistens, hwaiting⟩ := hposted []
      exact ⟨hlistens, ⟨path, data, []⟩, rfl, by simp [hfds], hfiles, hwaiting⟩
    · exact fun _ => trivial

theorem ends_sendRaw_encoded {n : Notifier} {payload : StrOrBytes} {data : Bytes} {fds : List Fd}
    (hl : ListensAt l path i inbox k) (hpath : n.sunPath = some path)
    (hsock : ∀ sock, n.sock = some sock → sock.peer = some path) (hdata : payload.encode = .ok data) :
    Py.Ends (Notifier.sendRaw rt payload fds)
      (fun _ _ k' => ListensAt l path i inbox k' ∧ ∃ message, Queued rt l data fds k k' message)
      (fun _ _ _ => True) n k := by
  rw [Notifier.sendRaw]
  refine Method.obeys_bind.mpr (Method.obeys_attributes.mpr ?_)
  simp only [hpath, hdata]
  refine Method.obeys_bind.mpr (Method.obeys_lift_ok.mpr (Method.obeys_bind.mpr ?_))
  rw [Notifier.openSock]
  refine Method.obeys_bind.mpr (Method.obeys_attributes.mpr ?_)
  cases hopen : n.sock with
  | some sock => exact ends_sendOn hl (hsock sock hopen) rfl
  | none =>
    refine Method.obeys_bind.mpr ?_
    apply ends_newDatagram
    · intro fd hfree
      have hqueue : (k.install fd ⟨.socket, true⟩).waitingAt l.sock.fd = k.waitingAt l.sock.fd := by
        rw [(hl.install hfree _).waitingAt, hl.waitingAt]
        rfl
      exact ends_sendOn (hl.install hfree _) rfl hqueue
    · exact fun _ => trivial

theorem ends_sendRaw {n : Notifier} {payload : StrOrBytes} {fds : List Fd} (hl : ListensAt l path i inbox k)
    (hpath : n.sunPath = some path) (hsock : ∀ sock, n.sock = some sock → sock.peer = some path) :
    Py.Ends (Notifier.sendRaw rt payload fds)
      (fun _ _ k' => ListensAt l path i inbox k' ∧
        ∃ data message, payload.encode = .ok data ∧ Queued rt l data fds k k' message)
      (fun _ _ _ => True) n k := by
  obtain ⟨data, hdata⟩ | ⟨e, he⟩ := Fallible.isOk_or_isError payload.encode
  · refine (ends_sendRaw_encoded hl hpath hsock hdata).mono ?_ fun _ _ _ h => h
    rintro _ _ k' ⟨hlistens, message, hqueued⟩
    exact ⟨hlistens, data, message, hdata, hqueued⟩
  · rw [Notifier.sendRaw]
    refine Method.obeys_bind.mpr (Method.obeys_attributes.mpr ?_)
    simp only [hpath, he]
    exact trivial

/-- The next receipt returns the message whole or raises, whatever the environment chooses. -/
def RecordsWhole (rt : Runtime) (m : Machine) (l : FakeNotifyListener) (timeoutMs : Int) (message : Message)
    (k : Kernel) : Prop :=
  ∀ choices, Method.outcome (fun result _ k' => Whole message result k') (fun _ _ _ => True)
    ((receive rt m timeoutMs).run l ⟨k, choices⟩).1 ((receive rt m timeoutMs).run l ⟨k, choices⟩).2.kernel

/-- When its turn comes, a message that a notifier sent is received whole, or its
receipt raises, exactly when `recv` refuses its sizes or the message fits them. -/
theorem receive_whole_iff (rt : Runtime) (m : Machine) {n n' : Notifier} {payload : StrOrBytes}
    {fds : List Fd} {w w' : World} (hl : Listening l path w.kernel) (hpath : n.sunPath = some path)
    (hsock : ∀ sock, n.sock = some sock → sock.peer = some path)
    (hsent : (Notifier.sendRaw rt payload fds).run n w = ((.ok true, n'), w')) :
    ∃ data message, payload.encode = .ok data ∧ Queued rt l data fds w.kernel w'.kernel message ∧
      ∀ k rest timeoutMs, k.waitingAt l.sock.fd = message :: rest →
        (RecordsWhole rt m l timeoutMs message k ↔
          Refuses rt m l.bufsize l.maxFds ∨ Fits m l message k) := by
  obtain ⟨i, inbox, hlistens⟩ := hl
  have hpost := (@ends_sendRaw rt l w.kernel path i inbox n payload fds hlistens hpath hsock).run
  rw [hsent] at hpost
  obtain ⟨_, data, message, hdata, hqueued⟩ := hpost
  refine ⟨data, message, hdata, hqueued, fun k rest timeoutMs hwaiting => ?_⟩
  have hcount : message.files.length ≤ maxFdsPerMessage := hqueued.files.length_eq ▸ hqueued.few
  exact Py.ends_iff_run.symm.trans (ends_receive_iff timeoutMs hlistens.nonneg hcount hwaiting)

/-! The listener as it is by default, on CPython. -/

def nineOpen : World where
  kernel := { Kernel.bare with
    table := fun fd => if 3 ≤ fd ∧ fd < 12 then some ⟨.other fd.toNat, false⟩ else none }
  choices n := ⟨none, 20 + n, 0, 0, 0⟩

def notifyAddress : StrOrBytes := .text (str "@notify")

def defaultListener : FakeNotifyListener := ⟨notifyAddress, 8, 65536, ⟨20, none⟩⟩

def cpython : Runtime := { Runtime.unixPort with micropython := false }

def wide : Machine := ⟨8, .inr rfl, false⟩

def listening : (Except PyErr FakeNotifyListener × Unit) × World :=
  (new [] (some notifyAddress) 8 65536).run () nineOpen

def storing (fds : List Fd) : (Except PyErr Bool × Notifier) × World :=
  (Notifier.sendRaw cpython (.bytes (bytes "FDSTORE=1\n")) fds).run
    ⟨some notifyAddress, some (0 :: bytes "notify"), none⟩ listening.2

def stored (fds : List Fd) : Message :=
  ⟨0 :: bytes "notify", bytes "FDSTORE=1\n", fds.map fun fd => .other fd.toNat⟩

theorem listening_default : Listening defaultListener (0 :: bytes "notify") listening.2.kernel :=
  ⟨0, ⟨0 :: bytes "notify", 0, 0⟩, by decide, rfl, rfl, rfl, le_refl _, le_refl _⟩

theorem receive_whole_iff_two :
    (storing [3, 4]).1.1 = .ok true ∧ RecordsWhole cpython wide defaultListener 1000 (stored [3, 4])
      (storing [3, 4]).2.kernel := by
  have hwaiting : (storing [3, 4]).2.kernel.waitingAt defaultListener.sock.fd = [stored [3, 4]] := rfl
  have hsent : (Notifier.sendRaw cpython (.bytes (bytes "FDSTORE=1\n")) [3, 4]).run
      ⟨some notifyAddress, some (0 :: bytes "notify"), none⟩ listening.2 =
      ((.ok true, (storing [3, 4]).1.2), (storing [3, 4]).2) := rfl
  obtain ⟨data, message, _, hqueued, hwhole⟩ := receive_whole_iff cpython wide listening_default rfl
    (fun sock hsock => by cases hsock) hsent
  have hmessage : message = stored [3, 4] := by
    have hqueue := hqueued.waiting.symm.trans hwaiting
    exact (List.cons.inj hqueue).1
  have hfits : Fits wide defaultListener (stored [3, 4]) (storing [3, 4]).2.kernel :=
    ⟨by decide, by decide, rfl⟩
  rw [hmessage] at hwhole
  exact ⟨rfl, (hwhole _ [] 1000 hwaiting).mpr (.inr hfits)⟩

def nine : List Fd := [3, 4, 5, 6, 7, 8, 9, 10, 11]

/-- Nine descriptors were sent, and eight are received without an error. -/
theorem receive_shortens :
    listening.1.1 = .ok defaultListener ∧ (storing nine).1.1 = .ok true ∧
      ((receive cpython wide 1000).run defaultListener (storing nine).2).1.1 =
        .ok (some ⟨bytes "FDSTORE=1\n", [0, 1, 2, 12, 13, 14, 15, 16]⟩) ∧
      ¬ RecordsWhole cpython wide defaultListener 1000 (stored nine) (storing nine).2.kernel := by
  refine ⟨rfl, rfl, rfl, fun h => ?_⟩
  have hreceived : ((receive cpython wide 1000).run defaultListener
      ⟨(storing nine).2.kernel, (storing nine).2.choices⟩).1 =
      (.ok (some ⟨bytes "FDSTORE=1\n", [0, 1, 2, 12, 13, 14, 15, 16]⟩), defaultListener) := rfl
  have hwhole := h (storing nine).2.choices
  rw [hreceived] at hwhole
  obtain ⟨fds, hresult, hfds⟩ := hwhole
  cases hresult
  cases hfds.length_eq

end FakeNotifyListener

end Mpsystemd
