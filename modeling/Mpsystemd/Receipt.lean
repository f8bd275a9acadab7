import Mpsystemd.Listener

/-! What a receipt does to the process, whatever the environment chooses, and the
listener's other methods. -/

namespace Mpsystemd

open Struct (Machine)

variable {σ : Type}

namespace Kernel

/-- The first datagram that waits at the socket has left its queue. -/
def dequeue (k : Kernel) (fd : Fd) : Kernel :=
  match k.fileAt fd with
  | some (.boundSocket i) =>
    match k.inboxes[i]? with
    | some inbox => { k with inboxes := k.inboxes.set i { inbox with received := inbox.received + 1 } }
    | none => k
  | _ => k

theorem dequeue_eq (k : Kernel) (fd : Fd) : ∃ inboxes, k.dequeue fd = { k with inboxes := inboxes } := by
  rw [dequeue]
  split
  · split
    · exact ⟨_, rfl⟩
    · exact ⟨k.inboxes, rfl⟩
  · exact ⟨k.inboxes, rfl⟩

/-- The descriptors of the datagram, and the kernel that has handed it out. -/
def handOut (k : Kernel) (fd : Fd) (room : Nat) (message : Message) : List Fd × Kernel :=
  (k.dequeue fd).receiveFiles (message.files.take room)

theorem receive_eq_ok {k k' : Kernel} {fd : Fd} {size room : Nat} {received : Received}
    (h : k.receive fd size room = .ok (received, k')) : ∃ message rest, k.waitingAt fd = message :: rest ∧
      received.data = message.data.take size ∧ received.fds = (k.handOut fd room message).1 ∧
      k' = (k.handOut fd room message).2 := by
  rw [receive] at h
  split at h
  · cases h
  · next i hfile =>
    cases hinbox : k.inboxes[i]? with
    | none =>
      rw [hinbox] at h
      cases h
    | some inbox =>
      simp only [hinbox] at h
      cases hwaiting : k.waiting inbox with
      | nil =>
        rw [hwaiting] at h
        cases h
      | cons message rest =>
        rw [hwaiting] at h
        have hdequeue : k.dequeue fd =
            { k with inboxes := k.inboxes.set i { inbox with received := inbox.received + 1 } } := by
          simp only [dequeue, hfile, hinbox]
        refine ⟨message, rest, ?_, ?_⟩
        · simp only [waitingAt, hfile, hinbox, Option.elim, hwaiting]
        · rw [handOut, hdequeue]
          cases h
          exact ⟨rfl, rfl, rfl⟩
  · cases h

end Kernel

section Recv

variable {rt : Runtime} {m : Machine} {sock : UnixDatagram} {s : σ} {k : Kernel} {bufsize maxFds : Int}
  {err : PyErr → σ → Kernel → Prop}

theorem ends_recvmsg {α : Type} {size room : Nat} {f : Received → Py σ α} {ok : α → σ → Kernel → Prop}
    (hok : ∀ message rest received, k.waitingAt sock.fd = message :: rest →
      received.data = message.data.take size → received.fds = (k.handOut sock.fd room message).1 →
      Py.Ends (f received) ok err s (k.handOut sock.fd room message).2)
    (herr : ∀ e, err (.osError e) s k) :
    Py.Ends (do let received ← Method.lift (check (← sys (.recvmsg sock.fd size room))); f received)
      ok err s k := by
  refine Method.obeys_assoc.mpr ?_
  apply ends_attempt (.recvmsg sock.fd size room) id (fun _ => k.receive sock.fd size room)
    (fun c => ⟨rfl, rfl⟩) _ herr
  intro c received k' hreceive
  obtain ⟨message, rest, hwaiting, hdata, hfds, rfl⟩ := Kernel.receive_eq_ok hreceive
  exact hok message rest received hwaiting hdata hfds

theorem length_handOut_le (message : Message) (room : Nat) :
    (k.handOut sock.fd room message).1.length ≤ min message.files.length room := length_received_le

/-- Both backends read the descriptors of a datagram back. -/
theorem rights_read_back {message : Message} (hfew : message.files.length ≤ maxFdsPerMessage) {received : Received}
    (hfds : received.fds = (k.handOut sock.fd (capacity m maxFds) message).1) :
    MicroPython.parseScmRights m
        (storeRights m
          (List.replicate (MicroPython.cmsgHdrSize m + MicroPython.cmsgAlign m (fdSize * maxFds)).toNat 0)
          received.fds).1
        (storeRights m
          (List.replicate (MicroPython.cmsgHdrSize m + MicroPython.cmsgAlign m (fdSize * maxFds)).toNat 0)
          received.fds).2 = .ok received.fds ∧
      CPython.extractFds m (CPython.ancillary m received.fds) = received.fds := by
  have hlength := @length_handOut_le sock k message (capacity m maxFds)
  have hints : ∀ fd ∈ received.fds, Machine.IsInt fd :=
    hfds ▸ (k.dequeue sock.fd).isInt_receiveFiles (message.files.take (capacity m maxFds))
  rw [← hfds] at hlength
  constructor
  · apply parseScmRights_storeRights hints (by omega)
    rw [List.length_replicate, controlRoom_eq]
    omega
  · exact extractFds_ancillary hints

theorem ends_lift {α β : Type} {x : Except PyErr α} {f : α → Py σ β} {ok : β → σ → Kernel → Prop}
    (hok : ∀ a, x = .ok a → Py.Ends (f a) ok err s k) (herr : ∀ e, err e s k) :
    Py.Ends (Method.lift x >>= f) ok err s k := by
  refine Method.obeys_bind.mpr ?_
  cases hx : x with
  | ok a => exact Method.obeys_lift_ok.mpr (hok a hx)
  | error e => exact herr e

theorem bufferSize_eq_ok {size : Nat} {negative : String} (h : CPython.bufferSize m bufsize negative = .ok size) :
    size = bufsize.toNat ∧ 0 ≤ bufsize := by
  by_cases haccepted : 0 ≤ bufsize ∧ bufsize < 2 ^ (8 * m.word - 1)
  · rw [bufferSize_ok haccepted] at h
    exact ⟨(Except.ok.inj h).symm, haccepted.1⟩
  · obtain ⟨e, he⟩ := @bufferSize_error m bufsize negative haccepted
    rw [he] at h
    cases h

theorem cmsgSpace_eq_ok {length : Int} {space : Nat} (h : CPython.cmsgSpace m length = .ok space) :
    space = (MicroPython.cmsgHdrSize m + MicroPython.cmsgAlign m length).toNat := by
  by_cases haccepted : 0 ≤ length ∧
      length ≤ 0x7FFFFFFF - (MicroPython.cmsgHdrSize m + MicroPython.cmsgAlign m 1)
  · rw [cmsgSpace_ok haccepted] at h
    exact (Except.ok.inj h).symm
  · obtain ⟨e, he⟩ := @cmsgSpace_error m length haccepted
    rw [he] at h
    cases h

/-- A `recv` returns the first datagram that waits, with as many of its
descriptors as there is room for, or leaves everything as it is. -/
theorem ends_recv {ok : Bytes × List Fd → σ → Kernel → Prop} (hsize : bufsize ≠ 0 ∨ maxFds ≠ 0)
    (hcount : ∀ message ∈ k.waitingAt sock.fd, message.files.length ≤ maxFdsPerMessage)
    (hok : ∀ message rest, k.waitingAt sock.fd = message :: rest →
      ok (message.data.take bufsize.toNat, (k.handOut sock.fd (capacity m maxFds) message).1) s
        (k.handOut sock.fd (capacity m maxFds) message).2)
    (herr : ∀ e, err e s k) : Py.Ends (sock.recv rt m bufsize maxFds) ok err s k := by
  have hplain : ∀ message rest (received : Received), maxFds = 0 → k.waitingAt sock.fd = message :: rest →
      received.data = message.data.take bufsize.toNat →
      ok (received.data, []) s (k.handOut sock.fd 0 message).2 := by
    intro message rest received hmax hwaiting hdata
    have hpost := hok message rest hwaiting
    rw [hmax, capacity_zero] at hpost
    rw [hdata]
    exact hpost
  rw [UnixDatagram.recv]
  split
  · rw [MicroPython.recv]
    split
    · next hmax =>
      refine ends_lift (fun buf hbuf => ?_) herr
      rw [MicroPython.bytearray_eq_ok hbuf, List.length_replicate]
      exact ends_recvmsg (fun message rest received hwaiting hdata _ =>
        hplain message rest received hmax hwaiting hdata) fun e => herr _
    · refine ends_lift (fun buf hbuf => ends_lift (fun control hcontrol => ?_) herr) herr
      rw [MicroPython.bytearray_eq_ok hbuf, MicroPython.bytearray_eq_ok hcontrol, List.length_replicate,
        List.length_replicate, controlRoom_eq]
      refine ends_recvmsg (fun message rest received hwaiting hdata hfds => ?_) fun e => herr _
      have hfew := hcount message (hwaiting ▸ List.mem_cons_self)
      have hparse := (rights_read_back hfew hfds).1
      refine Method.obeys_bind.mpr (show Py.Ends (Method.lift (MicroPython.parseScmRights m
        (storeRights m _ received.fds).1 (storeRights m _ received.fds).2)) _ _ _ _ from ?_)
      rw [hparse]
      refine Method.obeys_lift_ok.mpr ?_
      rw [hfds, hdata]
      exact hok message rest hwaiting
  · rw [CPython.recv]
    split
    · next hmax =>
      refine ends_lift (fun size hbuf => ?_) herr
      split
      · next hzero =>
        obtain ⟨hlength, hnonneg⟩ := bufferSize_eq_ok hbuf
        rcases hsize with hsize | hsize
        · omega
        · exact absurd hmax hsize
      · rw [(bufferSize_eq_ok hbuf).1]
        exact ends_recvmsg (fun message rest received hwaiting hdata _ =>
          hplain message rest received hmax hwaiting hdata) fun e => herr _
    · refine ends_lift (fun ancsize hspace => ends_lift (fun size hbuf => ?_) herr) herr
      rw [(bufferSize_eq_ok hbuf).1, cmsgSpace_eq_ok hspace, mul_comm, controlRoom_eq]
      refine ends_recvmsg (fun message rest received hwaiting hdata hfds => ?_) fun e => herr _
      have hfew := hcount message (hwaiting ▸ List.mem_cons_self)
      rw [(rights_read_back hfew hfds).2, hfds, hdata]
      exact hok message rest hwaiting

end Recv

namespace Kernel

/-- Files that arrive get numbers that were free, each another one, as long as
there are any. -/
theorem receiveFiles_spec (k : Kernel) (files : List File) :
    (k.receiveFiles files).1.Nodup ∧
      (∀ fd ∈ (k.receiveFiles files).1, 0 ≤ fd ∧ k.table fd = none) ∧
      (∀ fd, fd ∉ (k.receiveFiles files).1 → (k.receiveFiles files).2.table fd = k.table fd) ∧
      ((k.receiveFiles files).1.length = files.length ∨ (k.receiveFiles files).2.lowestFree 0 = none) := by
  induction files generalizing k with
  | nil => exact ⟨List.nodup_nil, nofun, fun _ _ => rfl, .inl rfl⟩
  | cons file files ih =>
    cases hlowest : k.lowestFree 0 with
    | none =>
      rw [receiveFiles_none hlowest]
      exact ⟨List.nodup_nil, nofun, fun _ _ => rfl, .inr hlowest⟩
    | some fd =>
      obtain ⟨hnodup, hfresh, hrest, hall⟩ := ih (k.install fd ⟨file, true⟩)
      have hfree := (lowestFree_eq_some hlowest).2.2
      have htable : ∀ fd', fd' ≠ (fd : Fd) → (k.install fd ⟨file, true⟩).table fd' = k.table fd' :=
        fun fd' hne => Function.update_of_ne hne ..
      have hnew : ∀ fd' ∈ ((k.install fd ⟨file, true⟩).receiveFiles files).1, fd' ≠ fd := by
        rintro fd' hfd' rfl
        have htaken := (hfresh _ hfd').2
        rw [install_table, Function.update_self] at htaken
        cases htaken
      rw [receiveFiles_some hlowest]
      refine ⟨List.nodup_cons.mpr ⟨fun hmem => hnew _ hmem rfl, hnodup⟩, ?_, fun fd' hfd' => ?_, ?_⟩
      · refine List.forall_mem_cons.mpr ⟨⟨Int.natCast_nonneg fd, hfree⟩, fun fd' hfd' => ?_⟩
        rw [← htable fd' (hnew fd' hfd')]
        exact hfresh fd' hfd'
      · rw [List.mem_cons, not_or] at hfd'
        exact (hrest fd' hfd'.2).trans (htable fd' hfd'.1)
      · exact hall.imp_left fun hlength => congrArg Nat.succ hlength

theorem receiveFiles_eq (k : Kernel) (files : List File) :
    ∃ table, (k.receiveFiles files).2 = { k with table := table } := by
  induction files generalizing k with
  | nil => exact ⟨k.table, rfl⟩
  | cons file files ih =>
    cases hlowest : k.lowestFree 0 with
    | none =>
      rw [receiveFiles_none hlowest]
      exact ⟨k.table, rfl⟩
    | some fd =>
      rw [receiveFiles_some hlowest]
      exact ih (k.install fd ⟨file, true⟩)

/-- Handing out a datagram changes its queue and the descriptor table only. -/
theorem handOut_eq (k : Kernel) (fd : Fd) (room : Nat) (message : Message) : ∃ table,
    (k.handOut fd room message).2 = { k with inboxes := (k.dequeue fd).inboxes, table := table } := by
  obtain ⟨inboxes, hdequeue⟩ := k.dequeue_eq fd
  obtain ⟨table, htable⟩ := (k.dequeue fd).receiveFiles_eq (message.files.take room)
  refine ⟨table, ?_⟩
  rw [handOut, htable, hdequeue]

theorem handOut_inboxes {k : Kernel} {fd : Fd} {index : Nat} {inbox : Inbox}
    (hfile : k.fileAt fd = some (.boundSocket index))
    (hinbox : k.inboxes[index]? = some inbox) (room : Nat) (message : Message) :
    (k.handOut fd room message).2.inboxes[index]? = some { inbox with received := inbox.received + 1 } := by
  obtain ⟨table, htable⟩ := k.handOut_eq fd room message
  obtain ⟨hlength, -⟩ := List.getElem?_eq_some_iff.mp hinbox
  simp only [htable, dequeue, hfile, hinbox]
  exact List.getElem?_set_self hlength

end Kernel

namespace Datagram

/-- Closes the descriptors from the last one on. -/
def closeAll : List Fd → Py Datagram Unit
  | [] => return ()
  | fd :: rest => do
    Method.update ({ · with fds := rest.reverse })
    closeFd fd
    closeAll rest

def closeFds : Py Datagram Unit := do
  let self ← Method.attributes
  closeAll self.fds.reverse

end Datagram

/-- The descriptors are closed, and nothing else has changed. -/
structure Kernel.Closed (k k' : Kernel) (fds : List Fd) : Prop where
  table : ∀ fd, k'.table fd = if fd ∈ fds then none else k.table fd
  frame : ∃ table closes, k' = { k with table := table, closes := closes }
  missed : k'.closes.count none = k.closes.count none

theorem Kernel.closed_shut {k : Kernel} {fd : Fd} {file : File} : k.Closed (k.shut fd file) [fd] where
  table fd' := by
    by_cases heq : fd' = fd
    · simp [shut, heq]
    · simp [shut, heq]
  frame := ⟨_, _, rfl⟩
  missed := by simp [shut, List.count_append]

theorem Kernel.Closed.cons {k k₁ k₂ : Kernel} {fd : Fd} {fds : List Fd} (h : k.Closed k₁ [fd])
    (h' : k₁.Closed k₂ fds) : k.Closed k₂ (fd :: fds) where
  table fd' := by
    rw [h'.table, h.table]
    by_cases hfds : fd' ∈ fds
    · simp [hfds]
    · simp [hfds]
  frame := by
    obtain ⟨table, closes, rfl⟩ := h.frame
    obtain ⟨table', closes', rfl⟩ := h'.frame
    exact ⟨table', closes', rfl⟩
  missed := h'.missed.trans h.missed

namespace Datagram

theorem ends_closeAll (fds : List Fd) {d : Datagram} {k : Kernel} (hd : d.fds = fds.reverse) (hnodup : fds.Nodup)
    (hopen : ∀ fd ∈ fds, k.table fd ≠ none) {ok : Unit → Datagram → Kernel → Prop}
    {err : PyErr → Datagram → Kernel → Prop} (hok : ∀ k', k.Closed k' fds → ok () { d with fds := [] } k') :
    Py.Ends (closeAll fds) ok err d k := by
  induction fds generalizing d k ok with
  | nil =>
    have hnone : { d with fds := [] } = d := by
      rw [List.reverse_nil] at hd
      rw [← hd]
    rw [hnone] at hok
    exact hok k ⟨fun _ => by simp, ⟨_, _, rfl⟩, rfl⟩
  | cons fd rest ih =>
    obtain ⟨hfd, hrest⟩ := List.nodup_cons.mp hnodup
    obtain ⟨hopenfd, hopenrest⟩ := List.forall_mem_cons.mp hopen
    obtain ⟨descriptor, hdescriptor⟩ := Option.ne_none_iff_exists'.mp hopenfd
    have hfile : k.fileAt fd = some descriptor.file := by rw [Kernel.fileAt, hdescriptor, Option.map_some]
    refine Method.obeys_bind.mpr (Method.obeys_update.mpr (Method.obeys_bind.mpr ?_))
    apply ends_closeFd hfile
    apply ih rfl hrest
    · intro fd' hfd'
      have hne : fd' ≠ fd := fun heq => hfd (heq ▸ hfd')
      simp only [Kernel.shut, Kernel.remove_table, Function.update_of_ne hne]
      exact hopenrest fd' hfd'
    · exact fun k' hclosed => hok k' (Kernel.closed_shut.cons hclosed)

theorem ends_closeFds {d : Datagram} {k : Kernel} (hnodup : d.fds.Nodup) (hopen : ∀ fd ∈ d.fds, k.table fd ≠ none)
    {ok : Unit → Datagram → Kernel → Prop} {err : PyErr → Datagram → Kernel → Prop}
    (hok : ∀ k', k.Closed k' d.fds → ok () { d with fds := [] } k') : Py.Ends closeFds ok err d k := by
  refine Method.obeys_bind.mpr (Method.obeys_attributes.mpr ?_)
  apply ends_closeAll d.fds.reverse (List.reverse_reverse _).symm (List.nodup_reverse.mpr hnodup)
  · exact fun fd hfd => hopen fd (List.mem_reverse.mp hfd)
  · intro k' hclosed
    refine hok k' ⟨fun fd => ?_, hclosed.frame, hclosed.missed⟩
    rw [hclosed.table]
    simp only [List.mem_reverse]

end Datagram

namespace FakeNotifyListener

def setSock (self : FakeNotifyListener) (sock : UnixDatagram) : FakeNotifyListener := { self with sock := sock }

def close (rt : Runtime) : Py FakeNotifyListener Unit := Method.zoom sock setSock (UnixDatagram.close rt)

variable {rt : Runtime} {m : Machine} {l : FakeNotifyListener} {k : Kernel} {timeoutMs : Int}

/-- A receipt returns nothing, returns the first datagram that waits, or raises;
only in the second case anything changes. -/
theorem ends_receive {ok : Option Datagram → FakeNotifyListener → Kernel → Prop}
    {err : PyErr → FakeNotifyListener → Kernel → Prop} (hsize : l.bufsize ≠ 0 ∨ l.maxFds ≠ 0)
    (hcount : 0 ≤ l.sock.fd → ∀ message ∈ k.waitingAt l.sock.fd, message.files.length ≤ maxFdsPerMessage)
    (hnone : (0 ≤ l.sock.fd → k.waitingAt l.sock.fd = []) → ok none l k)
    (hsome : 0 ≤ l.sock.fd → ∀ message rest, k.waitingAt l.sock.fd = message :: rest →
      ok (some ⟨message.data.take l.bufsize.toNat, (k.handOut l.sock.fd (capacity m l.maxFds) message).1⟩) l
        (k.handOut l.sock.fd (capacity m l.maxFds) message).2)
    (herr : ∀ e, err e l k) : Py.Ends (receive rt m timeoutMs) ok err l k := by
  rw [receive]
  refine Method.obeys_bind.mpr (Method.obeys_attributes.mpr (Method.obeys_bind.mpr ?_))
  rw [pollFd]
  split
  · exact herr _
  · apply ends_attempt (.poll l.sock.fd pollin timeoutMs) id
      (fun c => .ok (k.events pollin c.events l.sock.fd, k)) (fun c => ⟨rfl, rfl⟩)
    · intro c events k' hevents
      cases hevents
      split
      · next heq =>
        refine hnone fun h0 => ?_
        by_contra hwaiting
        have hopen : k.table l.sock.fd ≠ none := by
          intro hclosed
          apply hwaiting
          rw [Kernel.waitingAt, Kernel.fileAt, hclosed]
          rfl
        exact Kernel.events_waiting h0 hopen hwaiting c.events heq
      · next hne =>
        have hnonneg : 0 ≤ l.sock.fd := by
          by_contra hneg
          exact hne (if_pos (not_le.mp hneg))
        exact Method.obeys_bind.mpr (ends_recv hsize (hcount hnonneg) (hsome hnonneg) herr)
    · exact fun e => herr _

/-- The message as it was received: cut where the listener or the process had no
room. -/
structure Delivered (m : Machine) (l : FakeNotifyListener) (message : Message) (receipt : Datagram × Kernel) :
    Prop where
  data : receipt.1.data = message.data.take l.bufsize.toNat
  files : List.Forall₂ (fun fd file => receipt.2.fileAt fd = some file) receipt.1.fds
    (message.files.take receipt.1.fds.length)
  room : receipt.1.fds.length = min message.files.length (capacity m l.maxFds) ∨ receipt.2.lowestFree 0 = none

theorem delivered_handOut (m : Machine) (l : FakeNotifyListener) (k : Kernel) (message : Message) :
    Delivered m l message
      (⟨message.data.take l.bufsize.toNat, (k.handOut l.sock.fd (capacity m l.maxFds) message).1⟩,
        (k.handOut l.sock.fd (capacity m l.maxFds) message).2) := by
  have hfiles := (k.dequeue l.sock.fd).fileAt_receiveFiles (message.files.take (capacity m l.maxFds))
  have hlength := (k.dequeue l.sock.fd).length_receiveFiles (message.files.take (capacity m l.maxFds))
  obtain ⟨-, -, -, hroom⟩ := (k.dequeue l.sock.fd).receiveFiles_spec (message.files.take (capacity m l.maxFds))
  rw [List.length_take] at hlength hroom
  rw [List.take_take, min_eq_left (by omega)] at hfiles
  rw [min_comm] at hroom
  exact ⟨rfl, hfiles, hroom⟩

theorem ends_closeListener {file : File} (h0 : 0 ≤ l.sock.fd) (hfd : k.fileAt l.sock.fd = some file)
    {ok : Unit → FakeNotifyListener → Kernel → Prop} {err : PyErr → FakeNotifyListener → Kernel → Prop}
    (hok : ok () (l.setSock { l.sock with fd := -1 }) (k.shut l.sock.fd file)) :
    Py.Ends (close rt) ok err l k := by
  refine Method.obeys_zoom.mpr ?_
  apply ends_closeDatagram h0 hfd
  exact hok

theorem ends_closeListener_closed (hclosed : l.sock.fd < 0) {ok : Unit → FakeNotifyListener → Kernel → Prop}
    {err : PyErr → FakeNotifyListener → Kernel → Prop} (hok : ok () l k) : Py.Ends (close rt) ok err l k := by
  refine Method.obeys_zoom.mpr ?_
  simp only [UnixDatagram.close, Method.obeys_bind, Method.obeys_attributes, ge_iff_le, if_neg (not_le.mpr hclosed)]
  exact hok

end FakeNotifyListener

end Mpsystemd
