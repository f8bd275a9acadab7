import Mpsystemd.Lib.Memory
import Mpsystemd.Listener
import Mpsystemd.SocketAddress

/-! The buffers the MicroPython backend gives to `sendmsg` and `recvmsg`, at their
addresses, and how the kernel reads them and stores a datagram in them. -/

namespace Mpsystemd

open Struct (Chunk Machine Memory)

namespace MicroPython

def offName : Nat := 0

def offNamelen (m : Machine) : Nat := m.word

def offIov (m : Machine) : Nat := 2 * m.word

def offIovlen (m : Machine) : Nat := 3 * m.word

def offControl (m : Machine) : Nat := 4 * m.word

def offControllen (m : Machine) : Nat := 5 * m.word

def offFlags (m : Machine) : Nat := 6 * m.word

def msghdrSize (m : Machine) : Nat := 7 * m.word

def iovec (m : Machine) (address length : Nat) : Except PyErr Bytes := do
  let iov ← bytearray (2 * m.word)
  let iov ← packInto iov 0 (m.packUnsigned m.word address)
  packInto iov m.word (m.packUnsigned m.word length)

/-- `name` and `control` are the address and the length of a buffer. -/
def msghdr (m : Machine) (name : Option (Nat × Nat)) (iov : Nat) (control : Option (Nat × Nat)) :
    Except PyErr Bytes := do
  let mh ← bytearray (msghdrSize m)
  let mh ← match name with
    | some (name, namelen) => do
      let mh ← packInto mh offName (m.packUnsigned m.word name)
      packInto mh (offNamelen m) (m.packUnsigned 4 namelen)
    | none => pure mh
  let mh ← packInto mh (offIov m) (m.packUnsigned m.word iov)
  let mh ← packInto mh (offIovlen m) (m.packUnsigned m.word 1)
  match control with
  | some (control, controllen) => do
    let mh ← packInto mh (offControl m) (m.packUnsigned m.word control)
    packInto mh (offControllen m) (m.packUnsigned m.word controllen)
  | none => pure mh

/-- Where the interpreter has put the buffers of a call. -/
structure Places where
  name : Nat
  payload : Nat
  iov : Nat
  control : Nat
  mh : Nat

/-- The buffers of a `send_with_fds`, when it calls `sendmsg`. -/
def sendBuffers (m : Machine) (places : Places) (peer data : Bytes) (fds : List Fd) :
    Except PyErr (List Chunk) := do
  let (name, namelen) := sockaddrUn m peer
  let iov ← iovec m places.payload data.length
  let control ← scmRights m fds
  let mh ← msghdr m (some (places.name, namelen)) places.iov (some (places.control, control.length))
  return [⟨places.name, name⟩, ⟨places.payload, data⟩, ⟨places.iov, iov⟩,
    ⟨places.control, control⟩, ⟨places.mh, mh⟩]

/-- The buffers of a `recv` with room for descriptors, when it calls `recvmsg`. -/
def recvBuffers (m : Machine) (places : Places) (bufsize maxFds : Int) : Except PyErr (List Chunk) := do
  let buf ← bytearray bufsize
  let control ← bytearray (cmsgHdrSize m + cmsgAlign m (fdSize * maxFds))
  let iov ← iovec m places.payload buf.length
  let mh ← msghdr m none places.iov (some (places.control, control.length))
  return [⟨places.payload, buf⟩, ⟨places.control, control⟩, ⟨places.iov, iov⟩, ⟨places.mh, mh⟩]

/-- What `recv` returns of the buffers when the call has received `got` bytes. -/
def received (m : Machine) (buf control mh : Bytes) (got : Nat) : Except PyErr (Bytes × List Fd) := do
  let controllen := m.unpackUnsigned (← unpackFrom mh (offControllen m) m.word)
  return (buf.take got, ← parseScmRights m control controllen)

end MicroPython

/-! The kernel's side. -/

namespace Msghdr

open MicroPython

def readUnsigned (m : Machine) (memory : Memory) (address width : Nat) : Option Nat :=
  (memory.read address width).map m.unpackUnsigned

def readIovecs (m : Machine) (memory : Memory) (address : Nat) : Nat → Option (List (Nat × Nat))
  | 0 => some []
  | count + 1 => do
    let base ← readUnsigned m memory address m.word
    let length ← readUnsigned m memory (address + m.word) m.word
    let rest ← readIovecs m memory (address + 2 * m.word) count
    return (base, length) :: rest

end Msghdr

/-- A `struct msghdr` with the buffers it names. -/
structure Msghdr where
  name : Nat
  namelen : Nat
  iovecs : List (Nat × Nat)
  control : Nat
  controllen : Nat
  deriving DecidableEq, Repr

namespace Msghdr

open MicroPython

def read (m : Machine) (memory : Memory) (mh : Nat) : Option Msghdr := do
  let name ← readUnsigned m memory (mh + offName) m.word
  let namelen ← readUnsigned m memory (mh + offNamelen m) 4
  let iov ← readUnsigned m memory (mh + offIov m) m.word
  let iovlen ← readUnsigned m memory (mh + offIovlen m) m.word
  let control ← readUnsigned m memory (mh + offControl m) m.word
  let controllen ← readUnsigned m memory (mh + offControllen m) m.word
  return ⟨name, namelen, ← readIovecs m memory iov iovlen, control, controllen⟩

/-- The messages of a control buffer, each with its level, its type and its data,
none when a header does not fit. -/
def controlMessages (m : Machine) (control : Bytes) : Option (List (Int × Int × Bytes)) :=
  if control.length < cmsgHdrSize m then some []
  else
    let length := m.unpackUnsigned (control.take m.word)
    if length < cmsgHdrSize m ∨ control.length < length then none
    else do
      let rest ← controlMessages m (control.drop (cmsgAlign m length).toNat)
      return (m.unpackInt ((control.drop m.word).take 4), m.unpackInt ((control.drop (m.word + 4)).take 4),
        (control.take length).drop (cmsgHdrSize m)) :: rest
termination_by control.length
decreasing_by
  have hhdr := cmsgHdrSize_eq m
  have hge := (cmsgAlign_ge m (m.unpackUnsigned (control.take m.word))).1
  simp only [List.length_drop]
  omega

def rights (m : Machine) (control : List (Int × Int × Bytes)) : List Fd :=
  control.flatMap fun (level, kind, data) =>
    if level = solSocket ∧ kind = scmRightsType then m.unpackInts (data.length / fdSize) data else []

/-- The datagram that a `sendmsg` of the header asks for. -/
def toSend (m : Machine) (memory : Memory) (fd : Fd) (mh : Nat) : Option Sys := do
  let header ← read m memory mh
  let name ← memory.read header.name header.namelen
  let pieces ← header.iovecs.mapM fun (base, length) => memory.read base length
  let control ← controlMessages m (← memory.read header.control header.controllen)
  guard (m.unpackUnsigned (name.take saFamilySize) = afUnix)
  return .sendmsg fd (name.drop saFamilySize) pieces.flatten (rights m control)

/-- What a `recvmsg` of the header has room for. -/
def toReceive (m : Machine) (memory : Memory) (fd : Fd) (mh : Nat) : Option Sys := do
  let header ← read m memory mh
  return .recvmsg fd (header.iovecs.map Prod.snd).sum (controlRoom m header.controllen)

def scatter (memory : Memory) : List (Nat × Nat) → Bytes → Option Memory
  | [], _ => some memory
  | (base, length) :: rest, data => do scatter (← memory.write base (data.take length)) rest (data.drop length)

/-- The `msg_flags` of a datagram that is cut off. -/
def flagsOf (received : Received) : Nat :=
  (if received.trunc then 0x20 else 0) + if received.ctrunc then 0x08 else 0

/-- What a `recvmsg` of a header that asks for no name stores. -/
def store (m : Machine) (memory : Memory) (mh : Nat) (received : Received) : Option Memory := do
  let header ← read m memory mh
  guard (header.name = 0)
  let memory ← scatter memory header.iovecs received.data
  let control ← memory.read header.control header.controllen
  let (stored, used) := storeRights m control received.fds
  let memory ← memory.write header.control stored
  let memory ← memory.write (mh + offControllen m) (m.packUnsigned m.word used)
  memory.write (mh + offFlags m) (m.packUnsigned 4 (flagsOf received))

end Msghdr

/-! The header that is built, field by field. -/

namespace MicroPython

variable {m : Machine}

theorem packInto_of_splice {buffer b data : Bytes} {offset : Nat} (h : Struct.splice buffer offset data = some b) :
    packInto buffer offset data = .ok b := by
  rw [packInto, h]

theorem bytearray_natCast (size : Nat) : bytearray size = .ok (List.replicate size 0) := by
  rw [bytearray, if_pos (Int.natCast_nonneg size), Int.toNat_natCast]

def iovecChunks (m : Machine) (address length : Nat) : List Chunk :=
  [⟨0, m.packUnsigned m.word address⟩, ⟨m.word, m.packUnsigned m.word length⟩]

def headerChunks (m : Machine) (name : Option (Nat × Nat)) (iov control controllen : Nat) : List Chunk :=
  name.elim [] (fun (name, namelen) =>
    [⟨offName, m.packUnsigned m.word name⟩, ⟨offNamelen m, m.packUnsigned 4 namelen⟩]) ++
    [⟨offIov m, m.packUnsigned m.word iov⟩, ⟨offIovlen m, m.packUnsigned m.word 1⟩,
      ⟨offControl m, m.packUnsigned m.word control⟩, ⟨offControllen m, m.packUnsigned m.word controllen⟩]

theorem iovec_eq {address length : Nat} {b : Bytes}
    (h : Struct.splices (List.replicate (2 * m.word) 0) (iovecChunks m address length) = some b) :
    iovec m address length = .ok b := by
  simp only [iovecChunks, Struct.splices_cons, Option.bind_eq_some_iff] at h
  obtain ⟨b₁, h₁, b₂, h₂, hb⟩ := h
  cases hb
  have hzero : bytearray (2 * m.word) = .ok (List.replicate (2 * m.word) 0) := bytearray_natCast (2 * m.word)
  rw [iovec, hzero]
  simp only [Fallible.ok_bind, packInto_of_splice h₁, packInto_of_splice h₂]

theorem msghdr_eq {name : Option (Nat × Nat)} {iov control controllen : Nat} {b : Bytes}
    (h : Struct.splices (List.replicate (msghdrSize m) 0) (headerChunks m name iov control controllen) = some b) :
    msghdr m name iov (some (control, controllen)) = .ok b := by
  rw [msghdr, bytearray_natCast]
  cases name with
  | none =>
    simp only [headerChunks, Option.elim, List.nil_append, Struct.splices_cons, Option.bind_eq_some_iff] at h
    obtain ⟨b₁, h₁, b₂, h₂, b₃, h₃, b₄, h₄, hb⟩ := h
    cases hb
    simp only [Fallible.ok_bind, pure_bind, packInto_of_splice h₁, packInto_of_splice h₂, packInto_of_splice h₃,
      packInto_of_splice h₄]
  | some name =>
    simp only [headerChunks, Option.elim, List.cons_append, List.nil_append, Struct.splices_cons,
      Option.bind_eq_some_iff] at h
    obtain ⟨b₁, h₁, b₂, h₂, b₃, h₃, b₄, h₄, b₅, h₅, b₆, h₆, hb⟩ := h
    cases hb
    simp only [Fallible.ok_bind, packInto_of_splice h₁, packInto_of_splice h₂, packInto_of_splice h₃,
      packInto_of_splice h₄, packInto_of_splice h₅, packInto_of_splice h₆]

theorem iovecChunks_fit (m : Machine) (address length : Nat) :
    ∀ c ∈ iovecChunks m address length, c.stop ≤ (List.replicate (2 * m.word) (0 : UInt8)).length := by
  simp only [iovecChunks, List.forall_mem_cons, List.not_mem_nil, false_implies, implies_true, and_true, Chunk.stop,
    m.packUnsigned_length, List.length_replicate]
  omega

theorem iovecChunks_apart (m : Machine) (address length : Nat) :
    (iovecChunks m address length).Pairwise Chunk.Apart := by
  simp only [iovecChunks, List.pairwise_cons, List.forall_mem_cons, List.not_mem_nil, false_implies, implies_true,
    and_true, List.Pairwise.nil, Chunk.Apart, Chunk.stop, m.packUnsigned_length]
  omega

theorem headerChunks_fit (m : Machine) (name : Option (Nat × Nat)) (iov control controllen : Nat) :
    ∀ c ∈ headerChunks m name iov control controllen,
      c.stop ≤ (List.replicate (msghdrSize m) (0 : UInt8)).length := by
  have hword := m.word_eq
  rw [List.length_replicate, msghdrSize]
  cases name with
  | none =>
    simp [headerChunks, Chunk.stop, offIov, offIovlen, offControl, offControllen]
    omega
  | some name =>
    simp [headerChunks, Chunk.stop, offName, offNamelen, offIov, offIovlen, offControl, offControllen]
    omega

theorem headerChunks_apart (m : Machine) (name : Option (Nat × Nat)) (iov control controllen : Nat) :
    (headerChunks m name iov control controllen).Pairwise Chunk.Apart := by
  have hword := m.word_eq
  cases name with
  | none =>
    simp [headerChunks, Chunk.Apart, Chunk.stop, offIov, offIovlen, offControl, offControllen]
    omega
  | some name =>
    simp [headerChunks, Chunk.Apart, Chunk.stop, offName, offNamelen, offIov, offIovlen, offControl, offControllen]
    omega

variable {name : Option (Nat × Nat)} {iov control controllen : Nat} {mh : Bytes}

theorem slice_header
    (h : Struct.splices (List.replicate (msghdrSize m) 0) (headerChunks m name iov control controllen) = some mh)
    {offset width n : Nat} (hc : ⟨offset, m.packUnsigned width n⟩ ∈ headerChunks m name iov control controllen) :
    Struct.slice mh offset width = some (m.packUnsigned width n) := by
  have hslice := Struct.slice_splices_self h (headerChunks_apart m name iov control controllen) hc
  rwa [m.packUnsigned_length] at hslice

/-- A header without a name has zeros there. -/
theorem slice_header_name
    (h : Struct.splices (List.replicate (msghdrSize m) 0) (headerChunks m name iov control controllen) = some mh) :
    Struct.slice mh offName m.word = some (m.packUnsigned m.word (name.getD (0, 0)).1) ∧
      Struct.slice mh (offNamelen m) 4 = some (m.packUnsigned 4 (name.getD (0, 0)).2) := by
  cases name with
  | some name =>
    exact ⟨slice_header h (by simp [headerChunks]), slice_header h (by simp [headerChunks])⟩
  | none =>
    have hword := m.word_eq
    have hbefore : ∀ c ∈ headerChunks m none iov control controllen, offIov m ≤ c.start := by
      simp [headerChunks, offIov, offIovlen, offControl, offControllen]
      omega
    have hzero : ∀ offset width, offset + width ≤ offIov m →
        Struct.slice mh offset width = some (m.packUnsigned width 0) := by
      intro offset width hwidth
      rw [Struct.slice_splices_apart h fun c hc => .inl (hwidth.trans (hbefore c hc)), m.packUnsigned_zero,
        Struct.slice_replicate]
      rw [offIov] at hwidth
      rw [msghdrSize]
      omega
    exact ⟨hzero offName m.word (by rw [offName, offIov]; omega),
      hzero (offNamelen m) 4 (by rw [offNamelen, offIov]; omega)⟩

end MicroPython

namespace Msghdr

open MicroPython

variable {m : Machine} {memory : Memory}

theorem readUnsigned_of_mem {c : Chunk} (hc : c ∈ memory.buffers) {offset width n : Nat}
    (hslice : Struct.slice c.bytes offset width = some (m.packUnsigned width n)) (hn : n < 256 ^ width) :
    readUnsigned m memory (c.start + offset) width = some n := by
  rw [readUnsigned, Memory.read_of_mem hc (Struct.slice_eq_some hslice), hslice, Option.map_some,
    m.unpackUnsigned_pack width n hn]

/-- The header as it was built, whatever else is in memory. -/
theorem read_eq {places : Places} {name : Option (Nat × Nat)} {control controllen base length : Nat}
    {mh iov : Bytes}
    (hmh : ⟨places.mh, mh⟩ ∈ memory.buffers) (hiov : ⟨places.iov, iov⟩ ∈ memory.buffers)
    (hheader : Struct.splices (List.replicate (msghdrSize m) 0)
      (headerChunks m name places.iov control controllen) = some mh)
    (hvector : Struct.splices (List.replicate (2 * m.word) 0) (iovecChunks m base length) = some iov)
    (hname : (name.getD (0, 0)).1 < 256 ^ m.word) (hnamelen : (name.getD (0, 0)).2 < 256 ^ 4)
    (hplace : places.iov < 256 ^ m.word) (hcontrol : control < 256 ^ m.word)
    (hcontrollen : controllen < 256 ^ m.word)
    (hbase : base < 256 ^ m.word) (hlength : length < 256 ^ m.word) :
    read m memory places.mh =
      some ⟨(name.getD (0, 0)).1, (name.getD (0, 0)).2, [(base, length)], control, controllen⟩ := by
  have hword : 1 < 256 ^ m.word := by
    rcases m.word_eq with h | h
    · rw [h]
      norm_num
    · rw [h]
      norm_num
  obtain ⟨hsliceName, hsliceNamelen⟩ := slice_header_name hheader
  have hfield : ∀ {offset n},
      ⟨offset, m.packUnsigned m.word n⟩ ∈ headerChunks m name places.iov control controllen →
      n < 256 ^ m.word → readUnsigned m memory (places.mh + offset) m.word = some n :=
    fun hc hn => readUnsigned_of_mem hmh (slice_header hheader hc) hn
  have hpiece : ∀ {offset n}, ⟨offset, m.packUnsigned m.word n⟩ ∈ iovecChunks m base length →
      n < 256 ^ m.word → readUnsigned m memory (places.iov + offset) m.word = some n := by
    intro offset n hc hn
    have hslice := Struct.slice_splices_self hvector (iovecChunks_apart m base length) hc
    rw [m.packUnsigned_length] at hslice
    exact readUnsigned_of_mem hiov hslice hn
  have hbaseRead := @hpiece 0 base (by simp [iovecChunks]) hbase
  rw [Nat.add_zero] at hbaseRead
  rw [read, readUnsigned_of_mem hmh hsliceName hname, readUnsigned_of_mem hmh hsliceNamelen hnamelen,
    hfield (by simp [headerChunks]) hplace, hfield (n := 1) (by simp [headerChunks]) hword,
    hfield (by simp [headerChunks]) hcontrol, hfield (by simp [headerChunks]) hcontrollen]
  simp only [Option.bind_eq_bind, Option.bind_some, readIovecs, hbaseRead,
    @hpiece m.word length (by simp [iovecChunks]) hlength]
  rfl

/-- The control buffer of some descriptors, as the code fills it. -/
theorem controlMessages_scmRights {fds : List Fd} {control : Bytes} (hcount : fds.length ≤ maxFdsPerMessage)
    (hcontrol : scmRights m fds = .ok control) :
    controlMessages m control = some [(solSocket, scmRightsType, m.packInts fds)] := by
  have hhdr := cmsgHdrSize_eq m
  have hge := (cmsgAlign_ge m (4 * fds.length)).1
  rw [scmRights_eq, Except.ok.injEq] at hcontrol
  generalize hpadding : (cmsgAlign m (4 * fds.length) - 4 * fds.length).toNat = padding at hcontrol
  have hkinds : m.packInts [solSocket, scmRightsType] = m.packInt solSocket ++ m.packInt scmRightsType := by
    simp [Machine.packInts]
  have hlength : control.length = cmsgHdrSize m + 4 * fds.length + padding := by
    rw [← hcontrol]
    simp only [List.length_append, m.packUnsigned_length, m.packInts_length, List.length_replicate,
      List.length_cons, List.length_nil]
    omega
  have hcmsgLen : m.unpackUnsigned (control.take m.word) = cmsgHdrSize m + 4 * fds.length := by
    rw [← hcontrol, List.take_left' (m.packUnsigned_length ..), m.unpackUnsigned_pack _ _ (cmsgLen_lt hcount)]
  have hrest : control.drop m.word = m.packInt solSocket ++ (m.packInt scmRightsType ++
      (m.packInts fds ++ List.replicate padding 0)) := by
    rw [← hcontrol, List.drop_left' (m.packUnsigned_length ..), hkinds, List.append_assoc]
  have hlevel : m.unpackInt ((control.drop m.word).take 4) = solSocket := by
    rw [hrest, List.take_left' (m.packInt_length _), m.unpackInt_pack (isInt_kind _ (by simp))]
  have hkind : m.unpackInt ((control.drop (m.word + 4)).take 4) = scmRightsType := by
    rw [← List.drop_drop, hrest, List.drop_left' (m.packInt_length _), List.take_left' (m.packInt_length _),
      m.unpackInt_pack (isInt_kind _ (by simp))]
  have hdata : (control.take (cmsgHdrSize m + 4 * fds.length)).drop (cmsgHdrSize m) = m.packInts fds := by
    have hafter : control.drop (cmsgHdrSize m) = m.packInts fds ++ List.replicate padding 0 := by
      rw [show cmsgHdrSize m = m.word + 4 + 4 by omega, ← List.drop_drop, ← List.drop_drop, hrest,
        List.drop_left' (m.packInt_length _), List.drop_left' (m.packInt_length _)]
    rw [List.drop_take, Nat.add_sub_cancel_left, hafter, List.take_left' (m.packInts_length fds)]
  -- The header's size is a multiple of the word, so the padding ends the buffer.
  have halign : (cmsgAlign m (cmsgHdrSize m + 4 * fds.length : Nat)).toNat = control.length := by
    have hsum : cmsgAlign m (cmsgHdrSize m + 4 * fds.length : Nat) =
        cmsgHdrSize m + cmsgAlign m (4 * fds.length) := by
      rw [cmsgAlign, cmsgAlign]
      rcases m.word_eq with hword | hword
      · rw [hhdr, hword]
        omega
      · rw [hhdr, hword]
        omega
    rw [hsum, hlength]
    omega
  have hend : controlMessages m [] = some [] := by
    rw [controlMessages, if_pos (by rw [hhdr, List.length_nil]; omega)]
  rw [controlMessages, if_neg (by omega), hcmsgLen, if_neg (by omega), hlevel, hkind, hdata, halign,
    List.drop_length, hend]
  rfl

theorem rights_packInts {fds : List Fd} (hfds : ∀ fd ∈ fds, Machine.IsInt fd) :
    rights m [(solSocket, scmRightsType, m.packInts fds)] = fds := by
  have hall := @Machine.unpackInts_append m fds hfds fds.length le_rfl []
  have hcount : (m.packInts fds).length / fdSize = fds.length := by
    rw [m.packInts_length, fdSize]
    omega
  rw [rights, List.flatMap_singleton]
  simp only [and_self, if_true, hcount]
  rwa [List.append_nil, List.take_length] at hall

end Msghdr

namespace MicroPython

/-- Buffers where the interpreter can have them: apart, and below the end of the
address space. -/
def Fit (m : Machine) (buffers : List Chunk) : Prop :=
  buffers.Pairwise Chunk.Apart ∧ ∀ c ∈ buffers, c.stop < 256 ^ m.word

instance (m : Machine) (buffers : List Chunk) : Decidable (Fit m buffers) := inferInstanceAs (Decidable (_ ∧ _))

structure Resident (m : Machine) (memory : Memory) (buffers : List Chunk) : Prop where
  fit : Fit m buffers
  mem : ∀ c ∈ buffers, c ∈ memory.buffers

theorem iovec_ok (m : Machine) (address length : Nat) : ∃ iov, iovec m address length = .ok iov ∧
    Struct.splices (List.replicate (2 * m.word) 0) (iovecChunks m address length) = some iov := by
  obtain ⟨iov, hiov⟩ := Struct.splices_of_fits (iovecChunks_fit m address length)
  exact ⟨iov, iovec_eq hiov, hiov⟩

theorem msghdr_ok (m : Machine) (name : Option (Nat × Nat)) (iov control controllen : Nat) :
    ∃ mh, msghdr m name iov (some (control, controllen)) = .ok mh ∧
      Struct.splices (List.replicate (msghdrSize m) 0) (headerChunks m name iov control controllen) = some mh := by
  obtain ⟨mh, hmh⟩ := Struct.splices_of_fits (headerChunks_fit m name iov control controllen)
  exact ⟨mh, msghdr_eq hmh, hmh⟩

theorem mapM_packFd {rt : Runtime} (hrt : rt.micropython = true) (fds : List Fd) :
    fds.mapM (UnixDatagram.packFd rt) = .ok (fds.map (·.bmod (2 ^ 32))) := by
  have hone : ∀ fd : Int, UnixDatagram.packFd rt fd = .ok (fd.bmod (2 ^ 32)) := by
    intro fd
    rw [UnixDatagram.packFd, if_pos hrt]
    by_cases hfd : -2 ^ 31 ≤ fd ∧ fd < 2 ^ 31
    · rw [if_pos hfd, Int.bmod_eq_of_le (by omega) (by omega)]
    · rw [if_neg hfd]
  induction fds with
  | nil => rfl
  | cons fd fds ih =>
    rw [List.mapM_cons, hone, ih]
    rfl

theorem isInt_bmod (fd : Fd) : Machine.IsInt (fd.bmod (2 ^ 32)) := by
  have hlow := @Int.le_bmod fd (2 ^ 32) (by decide)
  have hhigh := @Int.bmod_lt fd (2 ^ 32) (by decide)
  exact ⟨by omega, by omega⟩

theorem packInts_bmod (m : Machine) (fds : List Fd) : m.packInts (fds.map (·.bmod (2 ^ 32))) = m.packInts fds := by
  have hone : ∀ fd : Fd, m.packInt (fd.bmod (2 ^ 32)) = m.packInt fd := by
    intro fd
    rw [Machine.packInt, Machine.packInt]
    congr 2
    exact Int.bmod_emod
  rw [Machine.packInts, Machine.packInts, List.flatMap_map]
  exact List.flatMap_congr fun fd _ => hone fd

theorem length_storeRights {control : Bytes} {fds : List Fd} (hroom : fds.length ≤ controlRoom m control.length) :
    (storeRights m control fds).1.length = control.length ∧ (storeRights m control fds).2 ≤ control.length := by
  rw [storeRights]
  split
  · exact ⟨rfl, Nat.zero_le _⟩
  · next hfds =>
    have hlength := @rightsMessage_length m fds
    have hpos := List.length_pos_iff.mpr hfds
    rw [controlRoom, fdSize] at hroom
    rw [fdSize] at hlength
    refine ⟨?_, min_le_left ..⟩
    rw [List.length_append, List.length_drop]
    omega

/-- A `recvmsg` writes the three buffers that the header names, and no others. -/
theorem store_of_read {memory : Memory} {payload control mh : Chunk} {namelen : Nat}
    (hread : Msghdr.read m memory mh.start =
      some ⟨0, namelen, [(payload.start, payload.bytes.length)], control.start, control.bytes.length⟩)
    (hpayload : payload ∈ memory.buffers) (hcontrol : control ∈ memory.buffers) (hmh : mh ∈ memory.buffers)
    (hpc : payload.Apart control) (hpm : payload.Apart mh) (hcm : control.Apart mh)
    (hsize : mh.bytes.length = msghdrSize m) {got : Received} (hdata : got.data.length ≤ payload.bytes.length)
    (hroom : got.fds.length ≤ controlRoom m control.bytes.length) :
    ∃ memory' buf header, Msghdr.store m memory mh.start got = some memory' ∧
      buf.take got.data.length = got.data ∧
      Struct.slice header (offControllen m) m.word =
        some (m.packUnsigned m.word (storeRights m control.bytes got.fds).2) ∧
      [⟨payload.start, buf⟩, ⟨control.start, (storeRights m control.bytes got.fds).1⟩, ⟨mh.start, header⟩] ⊆
        memory'.buffers ∧
      ∀ c ∈ memory.buffers, c.Apart payload → c.Apart control → c.Apart mh → c ∈ memory'.buffers := by
  obtain ⟨hstored, -⟩ := length_storeRights hroom
  -- The payload, the control buffer and the two fields of the header, one by one.
  obtain ⟨memory₁, buf, hwrite₁, hbuf, hmem₁, hframe₁⟩ :=
    @Memory.write_of_mem memory payload got.data hpayload 0 (by omega)
  obtain ⟨memory₂, stored, hwrite₂, hsplice₂, hmem₂, hframe₂⟩ :=
    @Memory.write_of_mem memory₁ control (storeRights m control.bytes got.fds).1
      (hframe₁ control hcontrol hpc.symm) 0 (by omega)
  cases hsplice₂.symm.trans (Struct.splice_whole hstored)
  have hmh₂ := hframe₂ mh (hframe₁ mh hmh hpm.symm) hcm.symm
  obtain ⟨memory₃, header₁, hwrite₃, hsplice₃, hmem₃, hframe₃⟩ :=
    @Memory.write_of_mem memory₂ mh (m.packUnsigned m.word (storeRights m control.bytes got.fds).2) hmh₂
      (offControllen m) (by rw [m.packUnsigned_length, hsize, offControllen, msghdrSize]; omega)
  have hlength₁ := Struct.splice_length hsplice₃
  obtain ⟨memory₄, header₂, hwrite₄, hsplice₄, hmem₄, hframe₄⟩ :=
    @Memory.write_of_mem memory₃ ⟨mh.start, header₁⟩ (m.packUnsigned 4 (Msghdr.flagsOf got)) hmem₃ (offFlags m)
      (by
        have hword := m.word_eq
        rw [m.packUnsigned_length, hlength₁, hsize, offFlags, msghdrSize]
        omega)
  have hscatter : Msghdr.scatter memory [(payload.start, payload.bytes.length)] got.data = some memory₁ := by
    have hwrite : memory.write payload.start got.data = some memory₁ := hwrite₁
    rw [Msghdr.scatter, List.take_of_length_le hdata, hwrite]
    rfl
  have hcontrolRead : memory₁.read control.start control.bytes.length = some control.bytes := by
    rw [Memory.read_start (hframe₁ control hcontrol hpc.symm) le_rfl, List.take_length]
  have hstore : memory₁.write control.start (storeRights m control.bytes got.fds).1 = some memory₂ := hwrite₂
  have hheader : ∀ c : Chunk, c.Apart mh → c.Apart ⟨mh.start, header₁⟩ := fun c h => (h.symm.resize hlength₁).symm
  refine ⟨memory₄, buf, header₂, ?_, Struct.take_splice hbuf, ?_, ?_, ?_⟩
  · rw [Msghdr.store, hread]
    simp only [Option.bind_eq_bind, Option.bind_some, hscatter, hcontrolRead, hstore, hwrite₃, guard, if_true]
    exact hwrite₄
  · have hslice := Struct.slice_splice_self hsplice₃
    rw [m.packUnsigned_length] at hslice
    rw [Struct.slice_splice_apart hsplice₄ (.inl (by rw [offControllen, offFlags]; omega)), hslice]
  · have hpayloadAfter := hframe₂ _ hmem₁ (hpc.resize (Struct.splice_length hbuf))
    have hapart := hpm.resize (Struct.splice_length hbuf)
    have hcontrolAfter := hframe₃ _ hmem₂ (hcm.resize hstored)
    simp only [List.cons_subset, List.nil_subset, and_true]
    exact ⟨hframe₄ _ (hframe₃ _ hpayloadAfter hapart) (hheader _ hapart),
      hframe₄ _ hcontrolAfter (hheader _ (hcm.resize hstored)), hmem₄⟩
  · intro c hc hcp hcc hch
    exact hframe₄ c (hframe₃ c (hframe₂ c (hframe₁ c hc hcp) hcc) hch) (hheader c hch)

end MicroPython

open MicroPython
open FakeNotifyListener (wide)

/-- Wherever the interpreter puts the buffers of a `send_with_fds`: the kernel reads
in them the datagram that the call stands for. -/
theorem sendmsg_reads_back (m : Machine) {rt : Runtime} (hrt : rt.micropython = true) (places : Places)
    {peer : Bytes} (hpeer : saFamilySize + peer.length < 256 ^ 4) (data : Bytes) {fds : List Fd}
    (hcount : fds.length ≤ maxFdsPerMessage) :
    ∃ buffers rights, sendBuffers m places peer data fds = .ok buffers ∧
      fds.mapM (UnixDatagram.packFd rt) = .ok rights ∧
      ∀ (memory : Memory) (fd : Fd), Resident m memory buffers →
        Msghdr.toSend m memory fd places.mh = some (.sendmsg fd peer data rights) := by
  obtain ⟨iov, hiov, hvector⟩ := iovec_ok m places.payload data.length
  obtain ⟨control, hcontrol⟩ : ∃ control, scmRights m fds = .ok control := ⟨_, scmRights_eq m fds⟩
  obtain ⟨mh, hmh, hheader⟩ :=
    msghdr_ok m (some (places.name, saFamilySize + peer.length)) places.iov places.control
    control.length
  have hbuffers : sendBuffers m places peer data fds =
      .ok [⟨places.name, (sockaddrUn m peer).1⟩, ⟨places.payload, data⟩, ⟨places.iov, iov⟩,
        ⟨places.control, control⟩, ⟨places.mh, mh⟩] := by
    rw [sendBuffers, hiov, hcontrol]
    simp only [sockaddrUn, Fallible.ok_bind, hmh]
    rfl
  refine ⟨_, _, hbuffers, mapM_packFd hrt fds, fun memory fd hres => ?_⟩
  obtain ⟨hnameMem, hpayloadMem, hiovMem, hcontrolMem, hmhMem⟩ : _ ∧ _ ∧ _ ∧ _ ∧ _ := by
    simpa only [List.forall_mem_cons, List.not_mem_nil, false_implies, implies_true, and_true] using hres.mem
  obtain ⟨hname, hpayload, hiovBelow, hcontrolBelow, -⟩ : _ ∧ _ ∧ _ ∧ _ ∧ _ := by
    simpa only [List.forall_mem_cons, List.not_mem_nil, false_implies, implies_true, and_true, Chunk.stop]
      using hres.fit.2
  have hword : 256 ^ 4 ≤ 256 ^ m.word := Nat.pow_le_pow_right (by decide) (by have := m.word_eq; omega)
  have hread := @Msghdr.read_eq m memory places (some (places.name, saFamilySize + peer.length)) places.control
    control.length places.payload data.length mh iov hmhMem hiovMem hheader hvector (by simp; omega) hpeer
    (by omega) (by omega) (by omega) (by omega) (by omega)
  have hnameRead : memory.read places.name (saFamilySize + peer.length) =
      some (m.packUnsigned saFamilySize afUnix ++ peer) := by
    have hsize : saFamilySize + peer.length ≤ (sockaddrUn m peer).1.length := by simp [sockaddrUn]
    have hlength : (m.packUnsigned saFamilySize afUnix ++ peer).length = saFamilySize + peer.length := by
      rw [List.length_append, m.packUnsigned_length]
    rw [Memory.read_start hnameMem hsize]
    exact congrArg some (List.take_left' hlength)
  have hdata : memory.read places.payload data.length = some data := by
    rw [Memory.read_start hpayloadMem le_rfl, List.take_length]
  have hcontrolRead : memory.read places.control control.length = some control := by
    rw [Memory.read_start hcontrolMem le_rfl, List.take_length]
  have hmessages : Msghdr.controlMessages m control =
      some [(solSocket, scmRightsType, m.packInts (fds.map (·.bmod (2 ^ 32))))] := by
    rw [packInts_bmod]
    exact Msghdr.controlMessages_scmRights hcount hcontrol
  have hints : ∀ fd ∈ fds.map (·.bmod (2 ^ 32)), Machine.IsInt fd :=
    List.forall_mem_map.mpr fun fd _ => isInt_bmod fd
  have hrights := @Msghdr.rights_packInts m _ hints
  have hfamily : m.unpackUnsigned ((m.packUnsigned saFamilySize afUnix ++ peer).take saFamilySize) = afUnix := by
    rw [List.take_left' (m.packUnsigned_length ..), m.unpackUnsigned_pack _ _ (by decide)]
  have hpath : (m.packUnsigned saFamilySize afUnix ++ peer).drop saFamilySize = peer :=
    List.drop_left' (m.packUnsigned_length ..)
  have hpieces : [(places.payload, data.length)].mapM
      (fun (base, length) => memory.read base length) = some [data] := by
    simp only [List.mapM_cons, hdata]
    rfl
  rw [Msghdr.toSend, hread]
  simp only [Option.bind_eq_bind, Option.bind_some, Option.getD_some, hnameRead, hpieces, hcontrolRead,
    hmessages, hfamily, hpath, hrights]
  rw [List.flatten_singleton, guard, if_pos trivial]
  rfl

namespace MicroPython

def pages : Places := ⟨0x1000, 0x2000, 0x3000, 0x4000, 0x5000⟩

end MicroPython

theorem sendmsg_reads_back_stored : ∃ memory : Memory,
    Msghdr.toSend wide memory 7 pages.mh = some (.sendmsg 7 (bytes "/n") (bytes "FDSTORE=1\n") [3, 4]) := by
  have hpeer : saFamilySize + (bytes "/n").length < 256 ^ 4 := by decide
  have hcount : [(3 : Fd), 4].length ≤ maxFdsPerMessage := by decide
  obtain ⟨buffers, rights, hbuffers, hrights, hread⟩ :=
    @sendmsg_reads_back wide .unixPort rfl pages _ hpeer (bytes "FDSTORE=1\n") _ hcount
  obtain ⟨_, hmade, hapart, hbelow⟩ : ∃ buffers,
      sendBuffers wide pages (bytes "/n") (bytes "FDSTORE=1\n") [3, 4] = .ok buffers ∧ Fit wide buffers :=
    ⟨_, rfl, by decide +kernel⟩
  cases hbuffers.symm.trans hmade
  cases hrights
  exact ⟨⟨buffers, hapart⟩, hread ⟨buffers, hapart⟩ 7 ⟨⟨hapart, hbelow⟩, fun _ hc => hc⟩⟩

/-- Wherever the interpreter puts the buffers of a `recv`: `recvmsg` has room in them
for what the call asks for, it stores a datagram in them and nowhere else, and the
code reads the datagram back. -/
theorem recvmsg_reads_back (m : Machine) (places : Places) {bufsize maxFds : Int} {buffers : List Chunk}
    (hbuffers : recvBuffers m places bufsize maxFds = .ok buffers) {memory : Memory}
    (hres : Resident m memory buffers)
    (fd : Fd) :
    let room := controlRoom m (cmsgHdrSize m + cmsgAlign m (fdSize * maxFds)).toNat
    Msghdr.toReceive m memory fd places.mh = some (.recvmsg fd bufsize.toNat room) ∧
      ∀ got : Received, got.data.length ≤ bufsize.toNat → got.fds.length ≤ min room maxFdsPerMessage →
        (∀ fd ∈ got.fds, Machine.IsInt fd) →
        ∃ memory' buf control mh, Msghdr.store m memory places.mh got = some memory' ∧
          [⟨places.payload, buf⟩, ⟨places.control, control⟩, ⟨places.mh, mh⟩] ⊆ memory'.buffers ∧
          received m buf control mh got.data.length = .ok (got.data, got.fds) ∧
          ∀ c ∈ memory.buffers, c ∉ buffers → c ∈ memory'.buffers := by
  intro room
  simp only [recvBuffers, Fallible.bind_eq_ok] at hbuffers
  obtain ⟨buf, hbuf, control, hcontrol, hbuffers⟩ := hbuffers
  obtain rfl := bytearray_eq_ok hbuf
  obtain rfl := bytearray_eq_ok hcontrol
  obtain ⟨iov, hiov, hvector⟩ := iovec_ok m places.payload (List.replicate bufsize.toNat (0 : UInt8)).length
  obtain ⟨mh, hmh, hheader⟩ := msghdr_ok m none places.iov places.control
    (List.replicate (cmsgHdrSize m + cmsgAlign m (fdSize * maxFds)).toNat (0 : UInt8)).length
  obtain ⟨_, hiov', _, hmh', hbuffers⟩ := hbuffers
  cases hiov.symm.trans hiov'
  cases hmh.symm.trans hmh'
  cases hbuffers
  obtain ⟨hpayloadMem, hcontrolMem, hiovMem, hmhMem⟩ : _ ∧ _ ∧ _ ∧ _ := by
    simpa only [List.forall_mem_cons, List.not_mem_nil, false_implies, implies_true, and_true] using hres.mem
  obtain ⟨hpayload, hcontrolBelow, hiovBelow, -⟩ : _ ∧ _ ∧ _ ∧ _ := by
    simpa only [List.forall_mem_cons, List.not_mem_nil, false_implies, implies_true, and_true, Chunk.stop]
      using hres.fit.2
  have hread := @Msghdr.read_eq m memory places none places.control _ places.payload _ mh iov hmhMem hiovMem
    hheader hvector (by simp) (by simp) (by omega) (by omega) (by omega) (by omega) (by omega)
  simp only [List.length_replicate] at hread hvector hheader hpayload hcontrolBelow
  constructor
  · rw [Msghdr.toReceive, hread]
    simp only [Option.bind_eq_bind, Option.bind_some, List.map_cons, List.map_nil, List.sum_cons, List.sum_nil,
      Nat.add_zero]
    rfl
  intro got hdata hroom hints
  have hpairs := hres.fit.1
  simp only [List.pairwise_cons, List.forall_mem_cons] at hpairs
  obtain ⟨⟨hpc, -, hpm, -⟩, ⟨-, hcm, -⟩, -⟩ := hpairs
  have hheaderLength := Struct.splices_length hheader
  rw [List.length_replicate] at hheaderLength
  have hroomSize : room = controlRoom m (List.replicate (cmsgHdrSize m + cmsgAlign m (fdSize * maxFds)).toNat
      (0 : UInt8)).length := by rw [List.length_replicate]
  rw [hroomSize] at hroom
  obtain ⟨hroom, hcount⟩ := le_min_iff.mp hroom
  obtain ⟨memory', buf, header, hstore, hbuf, hused, hmem, hframe⟩ := @store_of_read m memory
    ⟨places.payload, List.replicate bufsize.toNat 0⟩ ⟨places.control, List.replicate _ 0⟩ ⟨places.mh, mh⟩ _
    (by rw [List.length_replicate, List.length_replicate]; exact hread) hpayloadMem hcontrolMem hmhMem hpc hpm hcm
    hheaderLength got
    (by rwa [List.length_replicate]) hroom
  refine ⟨memory', buf, _, header, hstore, hmem, ?_, fun c hc hother => ?_⟩
  · obtain ⟨-, hle⟩ := length_storeRights hroom
    rw [List.length_replicate] at hle
    have hused' := m.unpackUnsigned_pack m.word
      (storeRights m (List.replicate (cmsgHdrSize m + cmsgAlign m (fdSize * maxFds)).toNat 0) got.fds).2 (by omega)
    rw [received, unpackFrom, hused, Fallible.ok_bind, hused']
    dsimp only
    rw [parseScmRights_storeRights hints hcount hroom, hbuf]
    rfl
  · simp only [List.mem_cons, List.not_mem_nil, or_false, not_or] at hother
    obtain ⟨hnotPayload, hnotControl, -, hnotHeader⟩ := hother
    exact hframe c hc (memory.apart.forall hc hpayloadMem hnotPayload)
      (memory.apart.forall hc hcontrolMem hnotControl) (memory.apart.forall hc hmhMem hnotHeader)

theorem recvmsg_reads_back_two : ∃ memory : Memory,
    Msghdr.toReceive wide memory 7 pages.mh = some (.recvmsg 7 16 2) ∧
      (Msghdr.store wide memory pages.mh ⟨bytes "READY=1\n", [8, 9], false, false⟩).isSome := by
  obtain ⟨buffers, hbuffers, hapart, hbelow⟩ : ∃ buffers,
      recvBuffers wide pages 16 2 = .ok buffers ∧ Fit wide buffers := ⟨_, rfl, by decide +kernel⟩
  have hints : ∀ fd ∈ [(8 : Fd), 9], Machine.IsInt fd := by simp [Machine.IsInt]
  obtain ⟨hasked, hstored⟩ := recvmsg_reads_back wide pages hbuffers
    (⟨⟨hapart, hbelow⟩, fun _ hc => hc⟩ : Resident wide ⟨buffers, hapart⟩ buffers) 7
  obtain ⟨memory', _, _, _, hstore, -⟩ := hstored ⟨bytes "READY=1\n", [8, 9], false, false⟩ (by decide) (by decide)
    hints
  exact ⟨⟨buffers, hapart⟩, hasked, by rw [hstore]; rfl⟩

end Mpsystemd
