import Mpsystemd.KernelRules
import Mpsystemd.ScmRights

/-! Receiving a datagram with its descriptors on either backend. -/

namespace Mpsystemd

open Struct (Machine)
open MicroPython (cmsgAlign cmsgHdrSize cmsgHdrSize_eq)

variable {σ : Type}

/-- How many descriptors the kernel puts into a control buffer of that size. -/
def controlRoom (m : Machine) (size : Nat) : Nat := (size - cmsgHdrSize m) / fdSize

def rightsMessage (m : Machine) (fds : List Fd) : Bytes :=
  m.packUnsigned m.word (cmsgHdrSize m + fdSize * fds.length) ++
    (m.packInts [solSocket, scmRightsType] ++ m.packInts fds)

/-- The control buffer after a `recvmsg` that got the descriptors, and how much
of it is used. -/
def storeRights (m : Machine) (control : Bytes) (fds : List Fd) : Bytes × Nat :=
  if fds = [] then (control, 0)
  else
    (rightsMessage m fds ++ control.drop (rightsMessage m fds).length,
      min control.length (cmsgHdrSize m + (cmsgAlign m (fdSize * fds.length)).toNat))

namespace MicroPython

def recv (m : Machine) (sock : UnixDatagram) (bufsize maxFds : Int) : Py σ (Bytes × List Fd) :=
  if maxFds = 0 then do
    let buf ← Method.lift (bytearray bufsize)
    let received ← Method.lift (check (← sys (.recvmsg sock.fd buf.length 0)))
    return (received.data, [])
  else do
    let buf ← Method.lift (bytearray bufsize)
    let control ← Method.lift (bytearray (cmsgHdrSize m + cmsgAlign m (fdSize * maxFds)))
    let received ← Method.lift
      (check (← sys (.recvmsg sock.fd buf.length (controlRoom m control.length))))
    let used := storeRights m control received.fds
    return (received.data, ← Method.lift (parseScmRights m used.1 used.2))

end MicroPython

namespace CPython

def ssizeT (m : Machine) (i : Int) : Except PyErr Int :=
  if -2 ^ (8 * m.word - 1) ≤ i ∧ i < 2 ^ (8 * m.word - 1) then .ok i
  else .error (.overflowError "Python int too large to convert to C ssize_t")

/-- `socket.CMSG_SPACE`, which leaves room for one byte more within a C int. -/
def cmsgSpace (m : Machine) (length : Int) : Except PyErr Nat := do
  let length ← ssizeT m length
  if length < 0 ∨ 0x7FFFFFFF - (cmsgHdrSize m + cmsgAlign m 1) < length then
    throw (.overflowError "CMSG_SPACE() argument out of range")
  return cmsgHdrSize m + (cmsgAlign m length).toNat

def bufferSize (m : Machine) (size : Int) (negative : String) : Except PyErr Nat := do
  let size ← ssizeT m size
  if size < 0 then throw (.valueError negative [])
  return size.toNat

/-- What `recvmsg` makes of the control buffer. -/
def ancillary (m : Machine) (fds : List Fd) : List (Int × Int × Bytes) :=
  if fds = [] then [] else [(solSocket, scmRightsType, m.packInts fds)]

def recv (m : Machine) (sock : UnixDatagram) (bufsize maxFds : Int) : Py σ (Bytes × List Fd) :=
  if maxFds = 0 then do
    let size ← Method.lift (bufferSize m bufsize "negative buffersize in recv")
    -- a `recv` of no bytes makes no call
    if size = 0 then return ([], [])
    else
      let received ← Method.lift (check (← sys (.recvmsg sock.fd size 0)))
      return (received.data, [])
  else do
    let ancsize ← Method.lift (cmsgSpace m (maxFds * fdSize))
    let size ← Method.lift (bufferSize m bufsize "negative buffer size in recvmsg()")
    let received ← Method.lift (check (← sys (.recvmsg sock.fd size (controlRoom m ancsize))))
    return (received.data, extractFds m (ancillary m received.fds))

end CPython

/-- One datagram and the descriptors that came with it. Neither backend looks at
the flags for what was cut off. -/
def UnixDatagram.recv (rt : Runtime) (m : Machine) (sock : UnixDatagram) (bufsize maxFds : Int) :
    Py σ (Bytes × List Fd) :=
  if rt.micropython then MicroPython.recv m sock bufsize maxFds else CPython.recv m sock bufsize maxFds

/-! The descriptors of a message that arrives. -/

namespace Kernel

variable {k : Kernel}

theorem receiveFiles_none {file : File} {files : List File} (h : k.lowestFree 0 = none) :
    k.receiveFiles (file :: files) = ([], k) := by
  rw [receiveFiles, h]

theorem receiveFiles_some {fd : Nat} {file : File} {files : List File} (h : k.lowestFree 0 = some fd) :
    k.receiveFiles (file :: files) =
      (↑fd :: ((k.install fd ⟨file, true⟩).receiveFiles files).1,
        ((k.install fd ⟨file, true⟩).receiveFiles files).2) := by
  rw [receiveFiles, h]

theorem receiveFiles_congr {k' : Kernel} (htable : k'.table = k.table) (files : List File) :
    (k'.receiveFiles files).1 = (k.receiveFiles files).1 := by
  -- The lowest free number is read off the table, and every step changes the two
  -- alike.
  induction files generalizing k k' with
  | nil => rfl
  | cons file files ih =>
    have hlowest : k'.lowestFree 0 = k.lowestFree 0 := by rw [lowestFree, lowestFree, htable]
    cases hfd : k.lowestFree 0 with
    | none => rw [receiveFiles_none hfd, receiveFiles_none (hlowest.trans hfd)]
    | some fd =>
      have hinstalled : (k'.install fd ⟨file, true⟩).table = (k.install fd ⟨file, true⟩).table := by
        rw [install_table, install_table, htable]
      rw [receiveFiles_some hfd, receiveFiles_some (hlowest.trans hfd), ih hinstalled]

theorem length_receiveFiles (k : Kernel) (files : List File) :
    (k.receiveFiles files).1.length ≤ files.length := by
  induction files generalizing k with
  | nil => exact le_refl 0
  | cons file files ih =>
    cases hfd : k.lowestFree 0 with
    | none => simp [receiveFiles_none hfd]
    | some fd =>
      rw [receiveFiles_some hfd]
      exact Nat.succ_le_succ (ih _)

theorem isInt_receiveFiles (k : Kernel) (files : List File) :
    ∀ fd ∈ (k.receiveFiles files).1, Machine.IsInt fd := by
  induction files generalizing k with
  | nil => exact fun fd hfd => by cases hfd
  | cons file files ih =>
    cases hlowest : k.lowestFree 0 with
    | none => simp [receiveFiles_none hlowest]
    | some fd =>
      have hfree := (lowestFree_eq_some hlowest).2.1
      have hint : Machine.IsInt fd := ⟨by omega, by omega⟩
      rw [receiveFiles_some hlowest]
      exact List.forall_mem_cons.mpr ⟨hint, ih _⟩

theorem receiveFiles_keeps {fd : Fd} {d : Descriptor} (h : k.table fd = some d) (files : List File) :
    (k.receiveFiles files).2.table fd = some d := by
  induction files generalizing k with
  | nil => exact h
  | cons file files ih =>
    cases hlowest : k.lowestFree 0 with
    | none =>
      rw [receiveFiles_none hlowest]
      exact h
    | some new =>
      have hfree := (lowestFree_eq_some hlowest).2.2
      have hne : fd ≠ new := by
        intro heq
        rw [heq, hfree] at h
        cases h
      rw [receiveFiles_some hlowest]
      refine ih ?_
      rw [install_table, Function.update_of_ne hne, h]

theorem fileAt_receiveFiles (k : Kernel) (files : List File) :
    List.Forall₂ (fun fd file => (k.receiveFiles files).2.fileAt fd = some file) (k.receiveFiles files).1
      (files.take (k.receiveFiles files).1.length) := by
  induction files generalizing k with
  | nil => exact .nil
  | cons file files ih =>
    cases hlowest : k.lowestFree 0 with
    | none =>
      rw [receiveFiles_none hlowest]
      exact .nil
    | some fd =>
      have hinstalled : (k.install fd ⟨file, true⟩).table fd = some ⟨file, true⟩ := by
        rw [install_table, Function.update_self]
      -- The later files get other numbers, since this one is taken.
      have hkept := receiveFiles_keeps hinstalled files
      rw [receiveFiles_some hlowest]
      refine .cons ?_ (ih _)
      rw [fileAt, hkept]
      rfl

def HasRoom (k : Kernel) (files : List File) : Prop := (k.receiveFiles files).1.length = files.length

instance (k : Kernel) (files : List File) : Decidable (k.HasRoom files) :=
  inferInstanceAs (Decidable (_ = _))

theorem length_receiveFiles_take_iff {files : List File} {room : Nat} :
    (k.receiveFiles (files.take room)).1.length = files.length ↔ files.length ≤ room ∧ k.HasRoom files := by
  have hle := k.length_receiveFiles (files.take room)
  rw [List.length_take] at hle
  constructor
  · intro h
    have hroom : files.length ≤ room := by omega
    rw [List.take_of_length_le hroom] at h
    exact ⟨hroom, h⟩
  · intro h
    rw [List.take_of_length_le h.1]
    exact h.2

/-- A `recvmsg` of `fd` takes the message and leaves `taken`, before it hands out
the descriptors. -/
def Takes (k : Kernel) (fd : Fd) (message : Message) (taken : Kernel) : Prop :=
  ∀ size maxFds, k.receive fd size maxFds =
    .ok (⟨message.data.take size, (taken.receiveFiles (message.files.take maxFds)).1,
        size < message.data.length,
        (taken.receiveFiles (message.files.take maxFds)).1.length < message.files.length⟩,
      (taken.receiveFiles (message.files.take maxFds)).2)

theorem takes_of_waiting {fd : Fd} {message : Message} {rest : List Message}
    (h : k.waitingAt fd = message :: rest) :
    k.table fd ≠ none ∧ ∃ taken, taken.table = k.table ∧ k.Takes fd message taken := by
  rw [waitingAt] at h
  split at h
  · next i hfile =>
    have hopen : k.table fd ≠ none := by
      intro hnone
      rw [fileAt, hnone] at hfile
      cases hfile
    cases hinbox : k.inboxes[i]? with
    | none =>
      rw [hinbox] at h
      cases h
    | some inbox =>
      rw [hinbox] at h
      have hwaiting : k.waiting inbox = message :: rest := h
      refine ⟨hopen, { k with inboxes := k.inboxes.set i { inbox with received := inbox.received + 1 } }, rfl,
        fun size maxFds => ?_⟩
      simp only [receive, hfile, hinbox, hwaiting]
  · cases h

end Kernel

/-! What the backends make of it. -/

variable {m : Machine}

/-- The descriptors that fit in the control buffer either backend asks for. -/
def capacity (m : Machine) (maxFds : Int) : Nat := (cmsgAlign m (fdSize * maxFds) / fdSize).toNat

/-- The sizes `recv` raises for, before it receives anything. -/
def Refuses (rt : Runtime) (m : Machine) (bufsize maxFds : Int) : Prop :=
  bufsize < 0 ∨
    if rt.micropython then maxFds ≠ 0 ∧ cmsgHdrSize m + cmsgAlign m (fdSize * maxFds) < 0
    else 2 ^ (8 * m.word - 1) ≤ bufsize ∨ maxFds < 0 ∨
      0x7FFFFFFF - (cmsgHdrSize m + cmsgAlign m 1) < fdSize * maxFds

instance (rt : Runtime) (m : Machine) (bufsize maxFds : Int) : Decidable (Refuses rt m bufsize maxFds) :=
  inferInstanceAs (Decidable (_ ∨ ite _ _ _))

theorem rightsMessage_length (fds : List Fd) :
    (rightsMessage m fds).length = cmsgHdrSize m + fdSize * fds.length := by
  have hhdr := cmsgHdrSize_eq m
  simp only [rightsMessage, List.length_append, m.packUnsigned_length, m.packInts_length, List.length_cons,
    List.length_nil, fdSize]
  omega

theorem parseScmRights_storeRights {control : Bytes} {fds : List Fd}
    (hfds : ∀ fd ∈ fds, Machine.IsInt fd) (hcount : fds.length ≤ maxFdsPerMessage)
    (hroom : fds.length ≤ controlRoom m control.length) :
    MicroPython.parseScmRights m (storeRights m control fds).1 (storeRights m control fds).2 = .ok fds := by
  have hhdr := cmsgHdrSize_eq m
  rw [storeRights]
  split
  · next hnil => rw [MicroPython.parseScmRights, if_pos (by omega), hnil]
  · next hne =>
    have hpos : 0 < fds.length := List.length_pos_iff.mpr hne
    have halign := (MicroPython.cmsgAlign_ge m (fdSize * fds.length)).1
    have hlength := rightsMessage_length (m := m) fds
    rw [controlRoom] at hroom
    simp only [fdSize, Nat.cast_ofNat] at halign hlength hroom ⊢
    have hbuffer : rightsMessage m fds ++ control.drop (rightsMessage m fds).length =
        m.packUnsigned m.word (cmsgHdrSize m + 4 * fds.length) ++ (m.packInts [solSocket, scmRightsType] ++
          (m.packInts fds ++ control.drop (rightsMessage m fds).length)) := by
      rw [rightsMessage, fdSize, List.append_assoc, List.append_assoc]
    have hused : cmsgHdrSize m + 4 * fds.length ≤
        min control.length (cmsgHdrSize m + (cmsgAlign m (4 * fds.length)).toNat) := by omega
    rw [MicroPython.parseScmRights_message hcount hfds hbuffer]
    · rw [min_eq_left (by omega), List.take_length]
    · rw [List.length_append, List.length_drop, hlength]
      omega

theorem extractFds_ancillary {fds : List Fd} (hfds : ∀ fd ∈ fds, Machine.IsInt fd) :
    CPython.extractFds m (CPython.ancillary m fds) = fds := by
  rw [CPython.ancillary]
  split
  · next hnil =>
    rw [hnil]
    rfl
  · have hwhole := @MicroPython.extractFds_take m fds hfds (4 * fds.length)
    rw [List.take_of_length_le (by rw [m.packInts_length]), Nat.mul_div_cancel_left _ (by decide),
      min_self, List.take_length] at hwhole
    exact hwhole

section Recv

variable {rt : Runtime} {sock : UnixDatagram} {s : σ} {k taken : Kernel} {message : Message}
  {bufsize maxFds : Int}

theorem ends_recvmsg_iff {α : Type} {size room : Nat} {f : Received → Py σ α} {ok : α → σ → Kernel → Prop}
    (htakes : k.Takes sock.fd message taken) :
    Py.Ends (do let received ← Method.lift (check (← sys (.recvmsg sock.fd size room))); f received) ok
        (fun _ _ _ => True) s k ↔
      Py.Ends (f ⟨message.data.take size, (taken.receiveFiles (message.files.take room)).1,
          size < message.data.length,
          (taken.receiveFiles (message.files.take room)).1.length < message.files.length⟩) ok
        (fun _ _ _ => True) s (taken.receiveFiles (message.files.take room)).2 := by
  refine Method.obeys_assoc.trans (Iff.trans (ends_attempt_iff (.recvmsg sock.fd size room) id
    (fun _ => k.receive sock.fd size room) (fun c => ⟨rfl, rfl⟩)) ?_)
  constructor
  · intro h
    exact h ⟨none, 0, 0, 0, 0⟩ _ _ rfl (htakes size room)
  · intro h c received k' _ hreceive
    rw [htakes size room] at hreceive
    cases hreceive
    exact h

theorem controlRoom_eq (maxFds : Int) :
    controlRoom m (cmsgHdrSize m + cmsgAlign m (fdSize * maxFds)).toNat = capacity m maxFds := by
  rw [controlRoom, capacity]
  simp only [fdSize, Nat.cast_ofNat]
  omega

theorem capacity_zero (m : Machine) : capacity m 0 = 0 := by
  rw [capacity, cmsgAlign]
  rcases m.word_eq with h | h
  · rw [h]
    rfl
  · rw [h]
    rfl

theorem length_received_le {taken : Kernel} {files : List File} {room : Nat} :
    (taken.receiveFiles (files.take room)).1.length ≤ min files.length room := by
  have hle := taken.length_receiveFiles (files.take room)
  rw [List.length_take] at hle
  omega

theorem ends_lift_bind_iff {α β : Type} {x : Except PyErr α} {a : α} {accepts : Prop} {f : α → Py σ β}
    {ok : β → σ → Kernel → Prop} (hok : accepts → x = .ok a) (herr : ¬ accepts → ∃ e, x = .error e) :
    Py.Ends (Method.lift x >>= f) ok (fun _ _ _ => True) s k ↔
      (accepts → Py.Ends (f a) ok (fun _ _ _ => True) s k) := by
  by_cases h : accepts
  · rw [hok h]
    exact ⟨fun hf _ => hf, fun hf => hf h⟩
  · obtain ⟨e, he⟩ := herr h
    rw [he]
    exact iff_of_true trivial fun ha => absurd ha h

theorem ends_bytearray_iff {α : Type} {size : Int} {f : Bytes → Py σ α} {ok : α → σ → Kernel → Prop} :
    Py.Ends (Method.lift (MicroPython.bytearray size) >>= f) ok (fun _ _ _ => True) s k ↔
      (0 ≤ size → Py.Ends (f (List.replicate size.toNat 0)) ok (fun _ _ _ => True) s k) :=
  ends_lift_bind_iff (fun h => if_pos h) fun h => ⟨_, if_neg h⟩

theorem micropython_ends_recv_iff (hmp : rt.micropython = true) (htakes : k.Takes sock.fd message taken)
    (hcount : message.files.length ≤ maxFdsPerMessage) {received : List Fd × Kernel}
    (hreceived : taken.receiveFiles (message.files.take (capacity m maxFds)) = received)
    {ok : Bytes × List Fd → σ → Kernel → Prop} :
    Py.Ends (MicroPython.recv m sock bufsize maxFds) ok (fun _ _ _ => True) s k ↔
      (¬ Refuses rt m bufsize maxFds → ok (message.data.take bufsize.toNat, received.1) s received.2) := by
  rw [MicroPython.recv, Refuses, if_pos hmp]
  by_cases hmax : maxFds = 0
  · rw [hmax, capacity_zero] at hreceived
    rw [if_pos hmax, hmax]
    refine ends_bytearray_iff.trans ?_
    rw [ends_recvmsg_iff htakes, List.length_replicate, hreceived, ← hreceived]
    simp only [ne_eq, not_true_eq_false, false_and, or_false, not_lt]
    exact Iff.rfl
  · rw [if_neg hmax]
    refine ends_bytearray_iff.trans ?_
    rw [ends_bytearray_iff, ends_recvmsg_iff htakes, List.length_replicate, List.length_replicate,
      controlRoom_eq, hreceived]
    let control : Bytes := List.replicate (cmsgHdrSize m + cmsgAlign m (fdSize * maxFds)).toNat 0
    have hroom : controlRoom m control.length = capacity m maxFds := by
      rw [List.length_replicate, controlRoom_eq]
    have hlength := @length_received_le taken message.files (capacity m maxFds)
    have hfds := taken.isInt_receiveFiles (message.files.take (capacity m maxFds))
    rw [hreceived] at hlength hfds
    have hparse := @parseScmRights_storeRights m control received.1 hfds (by omega) (by omega)
    have hparsed : Py.Ends (do
          return (message.data.take bufsize.toNat, ← Method.lift (MicroPython.parseScmRights m
            (storeRights m control received.1).1 (storeRights m control received.1).2)))
          ok (fun _ _ _ => True) s received.2 ↔
        ok (message.data.take bufsize.toNat, received.1) s received.2 := by
      rw [hparse]
      exact Iff.rfl
    refine (imp_congr_right fun _ => imp_congr_right fun _ => hparsed).trans ?_
    simp only [ne_eq, hmax, not_false_eq_true, true_and, not_or, not_lt, and_imp]

theorem ssizeT_limit (m : Machine) : (0x80000000 : Int) ≤ 2 ^ (8 * m.word - 1) := by
  rcases m.word_eq with h | h
  · rw [h]
    decide
  · rw [h]
    decide

theorem cmsgAlign_one_le (m : Machine) : cmsgHdrSize m + cmsgAlign m 1 ≤ 0x7FFFFFFF := by
  have hhdr := cmsgHdrSize_eq m
  have halign := (MicroPython.cmsgAlign_ge m 1).2
  rcases m.word_eq with h | h
  · omega
  · omega

theorem ssizeT_error {i : Int} (h : ¬ (-2 ^ (8 * m.word - 1) ≤ i ∧ i < 2 ^ (8 * m.word - 1))) :
    ∃ e, CPython.ssizeT m i = .error e := ⟨_, if_neg h⟩

theorem cmsgSpace_ok {length : Int}
    (h : 0 ≤ length ∧ length ≤ 0x7FFFFFFF - (cmsgHdrSize m + cmsgAlign m 1)) :
    CPython.cmsgSpace m length = .ok (cmsgHdrSize m + cmsgAlign m length).toNat := by
  have hlimit := ssizeT_limit m
  have hone := (MicroPython.cmsgAlign_ge m 1).1
  have halign := (MicroPython.cmsgAlign_ge m length).1
  have hsize : CPython.ssizeT m length = .ok length := if_pos ⟨by omega, by omega⟩
  have hspace : (cmsgHdrSize m + cmsgAlign m length).toNat = cmsgHdrSize m + (cmsgAlign m length).toNat := by
    omega
  rw [CPython.cmsgSpace, hsize, Fallible.ok_bind, if_neg (by omega), hspace]
  rfl

theorem cmsgSpace_error {length : Int}
    (h : ¬ (0 ≤ length ∧ length ≤ 0x7FFFFFFF - (cmsgHdrSize m + cmsgAlign m 1))) :
    ∃ e, CPython.cmsgSpace m length = .error e := by
  rw [CPython.cmsgSpace]
  by_cases hsize : -2 ^ (8 * m.word - 1) ≤ length ∧ length < 2 ^ (8 * m.word - 1)
  · have hok : CPython.ssizeT m length = .ok length := if_pos hsize
    rw [hok, Fallible.ok_bind, if_pos (by omega)]
    exact ⟨_, rfl⟩
  · obtain ⟨e, he⟩ := ssizeT_error hsize
    rw [he]
    exact ⟨e, rfl⟩

theorem bufferSize_ok {negative : String} (h : 0 ≤ bufsize ∧ bufsize < 2 ^ (8 * m.word - 1)) :
    CPython.bufferSize m bufsize negative = .ok bufsize.toNat := by
  have hsize : CPython.ssizeT m bufsize = .ok bufsize := if_pos ⟨by have := ssizeT_limit m; omega, h.2⟩
  rw [CPython.bufferSize, hsize, Fallible.ok_bind, if_neg (by omega)]
  rfl

theorem bufferSize_error {negative : String} (h : ¬ (0 ≤ bufsize ∧ bufsize < 2 ^ (8 * m.word - 1))) :
    ∃ e, CPython.bufferSize m bufsize negative = .error e := by
  rw [CPython.bufferSize]
  by_cases hsize : -2 ^ (8 * m.word - 1) ≤ bufsize ∧ bufsize < 2 ^ (8 * m.word - 1)
  · have hok : CPython.ssizeT m bufsize = .ok bufsize := if_pos hsize
    rw [hok, Fallible.ok_bind, if_pos (by omega)]
    exact ⟨_, rfl⟩
  · obtain ⟨e, he⟩ := ssizeT_error hsize
    rw [he]
    exact ⟨e, rfl⟩

theorem cpython_ends_recv_iff (hmp : ¬ rt.micropython = true) (htakes : k.Takes sock.fd message taken)
    {received : List Fd × Kernel}
    (hreceived : taken.receiveFiles (message.files.take (capacity m maxFds)) = received)
    {ok : Bytes × List Fd → σ → Kernel → Prop} (hempty : ok ([], []) s k ↔ ok ([], []) s taken) :
    Py.Ends (CPython.recv m sock bufsize maxFds) ok (fun _ _ _ => True) s k ↔
      (¬ Refuses rt m bufsize maxFds → ok (message.data.take bufsize.toNat, received.1) s received.2) := by
  rw [CPython.recv, Refuses, if_neg hmp]
  by_cases hmax : maxFds = 0
  · rw [hmax, capacity_zero] at hreceived
    rw [if_pos hmax, hmax]
    refine (ends_lift_bind_iff bufferSize_ok bufferSize_error).trans ?_
    have hlimit := cmsgAlign_one_le m
    have haccepted : (¬ (bufsize < 0 ∨ 2 ^ (8 * m.word - 1) ≤ bufsize ∨ (0 : Int) < 0 ∨
        0x7FFFFFFF - (cmsgHdrSize m + cmsgAlign m 1) < fdSize * (0 : Int))) ↔
        0 ≤ bufsize ∧ bufsize < 2 ^ (8 * m.word - 1) := by omega
    rw [haccepted]
    refine forall_congr' fun _ => ?_
    -- A `recv` of no bytes leaves the message in the queue.
    by_cases hsize : bufsize.toNat = 0
    · have hnone : ([], taken) = received := hreceived
      rw [if_pos hsize, ← hnone, hsize]
      exact hempty
    · rw [if_neg hsize, ends_recvmsg_iff htakes, hreceived]
      have hnone : ([], taken) = received := hreceived
      rw [← hnone]
      exact Iff.rfl
  · rw [if_neg hmax]
    refine (ends_lift_bind_iff cmsgSpace_ok cmsgSpace_error).trans ?_
    rw [ends_lift_bind_iff bufferSize_ok bufferSize_error, ends_recvmsg_iff htakes, mul_comm, controlRoom_eq,
      hreceived]
    have hfds := taken.isInt_receiveFiles (message.files.take (capacity m maxFds))
    rw [hreceived] at hfds
    simp only [extractFds_ancillary hfds]
    have haccepted : (¬ (bufsize < 0 ∨ 2 ^ (8 * m.word - 1) ≤ bufsize ∨ maxFds < 0 ∨
        0x7FFFFFFF - (cmsgHdrSize m + cmsgAlign m 1) < fdSize * maxFds)) ↔
        (0 ≤ fdSize * maxFds ∧ fdSize * maxFds ≤ 0x7FFFFFFF - (cmsgHdrSize m + cmsgAlign m 1)) ∧
          0 ≤ bufsize ∧ bufsize < 2 ^ (8 * m.word - 1) := by
      simp only [fdSize]
      omega
    rw [haccepted]
    exact and_imp.symm

theorem ends_recv_iff (htakes : k.Takes sock.fd message taken)
    (hcount : message.files.length ≤ maxFdsPerMessage) {received : List Fd × Kernel}
    (hreceived : taken.receiveFiles (message.files.take (capacity m maxFds)) = received)
    {ok : Bytes × List Fd → σ → Kernel → Prop} (hempty : ok ([], []) s k ↔ ok ([], []) s taken) :
    Py.Ends (sock.recv rt m bufsize maxFds) ok (fun _ _ _ => True) s k ↔
      (¬ Refuses rt m bufsize maxFds → ok (message.data.take bufsize.toNat, received.1) s received.2) := by
  rw [UnixDatagram.recv]
  split
  · next hmp => exact micropython_ends_recv_iff hmp htakes hcount hreceived
  · next hmp => exact cpython_ends_recv_iff hmp htakes hreceived hempty

end Recv

end Mpsystemd
