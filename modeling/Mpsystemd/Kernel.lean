import Mathlib.Algebra.Order.Ring.Int
import Mathlib.Data.Finset.Image
import Mathlib.Logic.Function.Basic
import Mpsystemd.Python
import Mpsystemd.Lib.Method

/-! The process as the kernel and the event loop keep it, and the calls the
package makes into them. What a call may do is chosen by its environment: which
error it fails with, which descriptor numbers it hands out, how much it writes. -/

namespace Mpsystemd

abbrev Fd := Int

abbrev Errno := Nat

namespace Errno

def perm : Errno := 1
def again : Errno := 11
def intr : Errno := 4
def badf : Errno := 9
def inval : Errno := 22
def mfile : Errno := 24
def notsock : Errno := 88
def msgsize : Errno := 90
def nobufs : Errno := 105

end Errno

def pollin : Nat := 0x001

def pollhup : Nat := 0x010

def pollnval : Nat := 0x020

/-! Signals. -/

def sigKill : Int := 9

def sigStop : Int := 19

/-- The first of the real-time signals, which wait once for each time they arrive. -/
def sigRtMin : Int := 32

/-- The numbers libc takes: it keeps the first two real-time signals to itself. -/
def ValidSignal (signo : Int) : Prop := 1 ≤ signo ∧ signo ≤ 64 ∧ signo ≠ 32 ∧ signo ≠ 33

instance : DecidablePred ValidSignal := fun signo => by unfold ValidSignal; infer_instance

def Blockable (signo : Int) : Prop := 1 ≤ signo ∧ signo ≤ 64 ∧ signo ≠ sigKill ∧ signo ≠ sigStop

instance : DecidablePred Blockable := fun signo => by unfold Blockable; infer_instance

abbrev SigSet := Finset Int

abbrev SigMask := Finset {signo : Int // Blockable signo}

/-- What blocking a set adds to the mask: the kernel leaves the signals that
cannot be blocked out of it. -/
def SigMask.ofSet (set : SigSet) : SigMask := set.subtype Blockable

/-! Descriptors. -/

/-- The open file a descriptor refers to; pipes, memfds and bound sockets are
numbered in the order they were made. -/
inductive File where
  | socket
  | boundSocket (index : Nat)
  | pipeRead (pipe : Nat)
  | pipeWrite (pipe : Nat)
  | memfd (index : Nat)
  | signalfd (set : SigSet)
  | other (id : Nat)
  deriving DecidableEq

structure Descriptor where
  file : File
  cloexec : Bool
  deriving DecidableEq

structure Memfd where
  contents : Bytes
  offset : Nat
  sealed : Bool
  deriving DecidableEq, Repr

def Memfd.new : Memfd := ⟨[], 0, false⟩

def Memfd.store (m : Memfd) (data : Bytes) : Memfd :=
  { m with
    contents := m.contents.take m.offset ++ data ++ m.contents.drop (m.offset + data.length)
    offset := m.offset + data.length }

/-- A datagram handed to the socket, with the files its descriptors refer to. -/
structure Message where
  peer : Bytes
  data : Bytes
  files : List File
  deriving DecidableEq

/-- A datagram as `recvmsg` hands it out, with the descriptors that came with it
and the flags that say what was cut off. -/
structure Received where
  data : Bytes
  fds : List Fd
  trunc : Bool
  ctrunc : Bool
  deriving DecidableEq, Repr

/-- What a bound socket receives: the datagrams to its address but the first
`since` of all and the first `received` of its own. -/
structure Inbox where
  address : Bytes
  since : Nat
  received : Nat
  deriving DecidableEq, Repr

/-- `sent` lists the datagrams in the order they were handed over, `closes`
every `close` with the file it closed, none when the descriptor was not open.
`handlers` is the event loop's table from signals to the objects they call. -/
structure Kernel where
  env : Str → Option Str
  pid : Int
  clock : Nat
  table : Fd → Option Descriptor
  pipes : Nat
  memfds : List Memfd
  inboxes : List Inbox
  sent : List Message
  closes : List (Option File)
  mask : SigMask
  arrived : List Int
  loop : Bool
  handlers : Int → Option Nat

namespace Kernel

def bare : Kernel where
  env _ := none
  pid := 1
  clock := 0
  table _ := none
  pipes := 0
  memfds := []
  inboxes := []
  sent := []
  closes := []
  mask := ∅
  arrived := []
  loop := false
  handlers _ := none

def install (k : Kernel) (fd : Fd) (d : Descriptor) : Kernel :=
  { k with table := Function.update k.table fd (some d) }

def remove (k : Kernel) (fd : Fd) : Kernel := { k with table := Function.update k.table fd none }

@[simp] theorem install_table (k : Kernel) (fd : Fd) (d : Descriptor) :
    (k.install fd d).table = Function.update k.table fd (some d) := rfl

@[simp] theorem install_pipes (k : Kernel) (fd : Fd) (d : Descriptor) :
    (k.install fd d).pipes = k.pipes := rfl

@[simp] theorem remove_table (k : Kernel) (fd : Fd) :
    (k.remove fd).table = Function.update k.table fd none := rfl

@[simp] theorem remove_pipes (k : Kernel) (fd : Fd) : (k.remove fd).pipes = k.pipes := rfl

def fileAt (k : Kernel) (fd : Fd) : Option File := (k.table fd).map Descriptor.file

theorem fileAt_install (k : Kernel) (fd fd' : Fd) (d : Descriptor) :
    (k.install fd d).fileAt fd' = if fd' = fd then some d.file else k.fileAt fd' := by
  by_cases heq : fd' = fd
  · simp [fileAt, heq]
  · simp [fileAt, heq]

theorem fileAt_remove (k : Kernel) (fd fd' : Fd) :
    (k.remove fd).fileAt fd' = if fd' = fd then none else k.fileAt fd' := by
  by_cases heq : fd' = fd
  · simp [fileAt, heq]
  · simp [fileAt, heq]

/-- A number a new descriptor may get: a C int that is not in use. -/
def Free (k : Kernel) (fd : Nat) : Prop := fd < 2 ^ 31 ∧ k.table fd = none

instance (k : Kernel) (fd : Nat) : Decidable (k.Free fd) := inferInstanceAs (Decidable (_ ∧ _))

def lowestFree (k : Kernel) (minfd : Nat) : Option Nat :=
  (List.range' minfd (2 ^ 31 - minfd)).find? fun fd => k.table fd = none

end Kernel

/-! Calls. -/

/-- The calls of the package into libc, the interpreter and the event loop. The
`fcntl` of `F_DUPFD` is `dupAbove`, that of `F_SETFD` `setCloexec`; a `recvmsg`
whose control buffer has room for `maxFds` descriptors is a `recv` when that is
none. The `sigprocmask` of `SIG_BLOCK` is `sigBlock`, that of `SIG_SETMASK`
`sigSetmask`. -/
inductive Sys where
  | getenv (name : Str)
  | setenv (name value : Str)
  | unsetenv (name : Str)
  | getpid
  | monotonicUs
  | socket
  | bind (fd : Fd) (address : Bytes)
  | pipe
  | close (fd : Fd)
  | dup2 (oldfd newfd : Fd)
  | dupAbove (fd minfd : Fd)
  | setCloexec (fd : Fd) (cloexec : Bool)
  | poll (fd : Fd) (mask : Nat) (timeoutMs : Int)
  | sendto (fd : Fd) (peer data : Bytes)
  | sendmsg (fd : Fd) (peer data : Bytes) (fds : List Fd)
  | recvmsg (fd : Fd) (size maxFds : Nat)
  | memfdCreate (name : Str)
  | write (fd : Fd) (data : Bytes)
  | addSeals (fd : Fd)
  | lseek (fd : Fd) (offset : Nat)
  | sigemptyset
  | sigaddset (signo : Int)
  | sigBlock (set : SigSet)
  | sigSetmask (mask : SigMask)
  | signalfd (set : SigSet)
  | readSiginfo (fd : Fd)
  | getRunningLoop
  | addSignalHandler (signo : Int) (owner : Nat)
  | removeSignalHandler (signo : Int)

/-- How many of `n` bytes a write stored: some, unless there were none. -/
abbrev Stored (n : Nat) := {stored : Nat // stored ≤ n ∧ (0 < n → 0 < stored)}

@[reducible] def Sys.Reply : Sys → Type
  | getenv _ => Option Str
  | setenv _ _ => Except Errno Unit
  | unsetenv _ => Unit
  | getpid => Int
  | monotonicUs => Except Errno Nat
  | socket => Except Errno Fd
  | bind _ _ => Except Errno Unit
  | pipe => Except Errno (Fd × Fd)
  | close _ => Except Errno Unit
  | dup2 _ _ => Except Errno Fd
  | dupAbove _ _ => Except Errno Fd
  | setCloexec _ _ => Except Errno Unit
  | poll _ _ _ => Except Errno Nat
  | sendto _ _ _ => Except Errno Nat
  | sendmsg _ _ _ _ => Except Errno Nat
  | recvmsg _ _ _ => Except Errno Received
  | memfdCreate _ => Except Errno Fd
  | write _ data => Except Errno (Stored data.length)
  | addSeals _ => Except Errno Unit
  | lseek _ _ => Except Errno Nat
  | sigemptyset => Except Errno Unit
  | sigaddset _ => Except Errno Unit
  | sigBlock _ => Except Errno SigMask
  | sigSetmask _ => Unit
  | signalfd _ => Except Errno Fd
  | readSiginfo _ => Except Errno (Option Int)
  | getRunningLoop => Bool
  | addSignalHandler _ _ => Except PyErr Unit
  | removeSignalHandler _ => Except PyErr Unit

/-- What the environment decides about one call: the error it fails with, if
any, the descriptor numbers it hands out, the bytes it stores, the events it
reports. -/
structure Choice where
  error : Option Errno
  fd : Nat
  fd' : Nat
  stored : Nat
  events : Nat

namespace Choice

/-- A call that may fail for the environment's reasons or its own. A call that
fails changes nothing. -/
def attempt {ε α : Type} (c : Choice) (fails : Errno → ε) (k : Kernel)
    (act : Except ε (α × Kernel)) : Except ε α × Kernel :=
  match c.error, act with
  | some e, _ => (.error (fails e), k)
  | none, .error e => (.error e, k)
  | none, .ok (a, k') => (.ok a, k')

theorem attempt_refused {ε α : Type} {c : Choice} {fails : Errno → ε} {k : Kernel}
    {act : Except ε (α × Kernel)} {e : Errno} (h : c.error = some e) :
    c.attempt fails k act = (.error (fails e), k) := by
  simp only [attempt, h]

theorem attempt_error {ε α : Type} {c : Choice} {fails : Errno → ε} {k : Kernel} {e : ε}
    (h : c.error = none) : c.attempt fails k (.error e : Except ε (α × Kernel)) = (.error e, k) := by
  simp only [attempt, h]

theorem attempt_ok {ε α : Type} {c : Choice} {fails : Errno → ε} {k k' : Kernel} {a : α}
    (h : c.error = none) : c.attempt fails k (.ok (a, k')) = (.ok a, k') := by
  simp only [attempt, h]

theorem attempt_cases {ε α : Type} (c : Choice) (fails : Errno → ε) (k : Kernel)
    (act : Except ε (α × Kernel)) :
    (∃ e, c.attempt fails k act = (.error e, k)) ∨
      ∃ a k', c.error = none ∧ act = .ok (a, k') ∧ c.attempt fails k act = (.ok a, k') := by
  cases h : c.error with
  | some e => exact .inl ⟨fails e, attempt_refused h⟩
  | none =>
    cases act with
    | error e => exact .inl ⟨e, attempt_error h⟩
    | ok result => exact .inr ⟨result.1, result.2, rfl, rfl, attempt_ok h⟩

def storedOf (c : Choice) (n : Nat) : Stored n := ⟨min n (max 1 c.stored), by omega⟩

end Choice

namespace Kernel

def openFile (k : Kernel) (fd : Nat) (file : File) : Except Errno (Fd × Kernel) :=
  if k.Free fd then .ok (fd, k.install fd ⟨file, true⟩) else .error Errno.mfile

def openPipe (k : Kernel) (r w : Nat) : Except Errno ((Fd × Fd) × Kernel) :=
  if k.Free r ∧ k.Free w ∧ r ≠ w then
    .ok ((r, w), { (k.install r ⟨.pipeRead k.pipes, true⟩).install w ⟨.pipeWrite k.pipes, true⟩ with
      pipes := k.pipes + 1 })
  else .error Errno.mfile

def bind (k : Kernel) (fd : Fd) (address : Bytes) : Except Errno (Unit × Kernel) :=
  match k.table fd with
  | none => .error Errno.badf
  | some ⟨.socket, cloexec⟩ => .ok ((), { k.install fd ⟨.boundSocket k.inboxes.length, cloexec⟩ with
      inboxes := k.inboxes ++ [⟨address, k.sent.length, 0⟩] })
  | some ⟨.boundSocket _, _⟩ => .error Errno.inval
  | some _ => .error Errno.notsock

/-- The descriptor that was at `newfd` is closed. -/
def dup2 (k : Kernel) (oldfd newfd : Fd) : Except Errno (Fd × Kernel) :=
  match k.fileAt oldfd with
  | none => .error Errno.badf
  | some file =>
    if newfd < 0 ∨ 2 ^ 31 ≤ newfd then .error Errno.badf
    else if newfd = oldfd then .ok (newfd, k)
    else .ok (newfd, k.install newfd ⟨file, false⟩)

def dupAbove (k : Kernel) (fd minfd : Fd) : Except Errno (Fd × Kernel) :=
  match k.fileAt fd with
  | none => .error Errno.badf
  | some file =>
    if minfd < 0 ∨ 2 ^ 31 ≤ minfd then .error Errno.inval
    else
      match k.lowestFree minfd.toNat with
      | none => .error Errno.mfile
      | some newfd => .ok (newfd, k.install newfd ⟨file, false⟩)

def setCloexec (k : Kernel) (fd : Fd) (cloexec : Bool) : Except Errno Unit × Kernel :=
  match k.fileAt fd with
  | none => (.error Errno.badf, k)
  | some file => (.ok (), k.install fd ⟨file, cloexec⟩)

def deliver (k : Kernel) (fd : Fd) (peer data : Bytes) (files : Option (List File)) :
    Except Errno (Nat × Kernel) :=
  match k.fileAt fd, files with
  | none, _ => .error Errno.badf
  | some .socket, some files => .ok (data.length, { k with sent := k.sent ++ [⟨peer, data, files⟩] })
  | some .socket, none => .error Errno.badf
  | some (.boundSocket _), some files =>
    .ok (data.length, { k with sent := k.sent ++ [⟨peer, data, files⟩] })
  | some (.boundSocket _), none => .error Errno.badf
  | some _, _ => .error Errno.notsock

theorem deliver_eq_ok {k k' : Kernel} {fd : Fd} {peer data : Bytes} {files : Option (List File)}
    {n : Nat} (h : k.deliver fd peer data files = .ok (n, k')) :
    ∃ fs, files = some fs ∧ k' = { k with sent := k.sent ++ [⟨peer, data, fs⟩] } := by
  unfold deliver at h
  split at h
  · cases h
  · cases h
    exact ⟨_, rfl, rfl⟩
  · cases h
  · cases h
    exact ⟨_, rfl, rfl⟩
  · cases h
  · cases h

/-- The descriptors that files get which arrive in a message: the lowest free
ones, until there are none. -/
def receiveFiles (k : Kernel) : List File → List Fd × Kernel
  | [] => ([], k)
  | file :: files =>
    match k.lowestFree 0 with
    | none => ([], k)
    | some fd =>
      let (fds, k') := (k.install fd ⟨file, true⟩).receiveFiles files
      ((fd : Fd) :: fds, k')

def waiting (k : Kernel) (inbox : Inbox) : List Message :=
  ((k.sent.drop inbox.since).filter (·.peer = inbox.address)).drop inbox.received

def waitingAt (k : Kernel) (fd : Fd) : List Message :=
  match k.fileAt fd with
  | some (.boundSocket i) => (k.inboxes[i]?).elim [] k.waiting
  | _ => []

/-- A datagram longer than the buffer is cut off, and so are the descriptors
that do not fit. One that has not arrived is waited for. -/
def receive (k : Kernel) (fd : Fd) (size maxFds : Nat) : Except Errno (Received × Kernel) :=
  match k.fileAt fd with
  | none => .error Errno.badf
  | some (.boundSocket i) =>
    match k.inboxes[i]? with
    | none => .error Errno.badf
    | some inbox =>
      match k.waiting inbox with
      | [] => .error Errno.again
      | message :: _ =>
        let inbox := { inbox with received := inbox.received + 1 }
        let (fds, k') := { k with inboxes := k.inboxes.set i inbox }.receiveFiles (message.files.take maxFds)
        .ok (⟨message.data.take size, fds, size < message.data.length,
          fds.length < message.files.length⟩, k')
  | some _ => .error Errno.notsock

/-- What `poll` reports of a descriptor: a datagram that waits can be read, the
rest the environment decides. -/
def events (k : Kernel) (mask events : Nat) (fd : Fd) : Nat :=
  if fd < 0 then 0
  else if k.table fd = none then pollnval
  else if k.waitingAt fd = [] then events
  else (mask &&& pollin) ||| events

def withMemfd {α : Type} (k : Kernel) (fd : Fd) (act : Memfd → Except Errno (α × Memfd)) :
    Except Errno (α × Kernel) :=
  match k.fileAt fd with
  | some (.memfd i) =>
    match k.memfds[i]? with
    | some m => (act m).map fun (a, m') => (a, { k with memfds := k.memfds.set i m' })
    | none => .error Errno.badf
  | _ => .error Errno.badf

def Blocks (k : Kernel) (signo : Int) : Prop := ∃ h : Blockable signo, ⟨signo, h⟩ ∈ k.mask

instance (k : Kernel) (signo : Int) : Decidable (k.Blocks signo) := by unfold Blocks; infer_instance

/-- A standard signal that waits already does not wait a second time. -/
def Merges (k : Kernel) (signo : Int) : Prop := k.Blocks signo ∧ signo < sigRtMin ∧ signo ∈ k.arrived

instance (k : Kernel) (signo : Int) : Decidable (k.Merges signo) := inferInstanceAs (Decidable (_ ∧ _ ∧ _))

/-- A signal of the process arrives: one that the mask does not block takes its
course, any other waits. -/
def arrive (k : Kernel) (signo : Int) : Kernel :=
  if k.Blocks signo ∧ ¬ k.Merges signo then { k with arrived := k.arrived ++ [signo] } else k

theorem arrive_cases (k : Kernel) (signo : Int) :
    (k.Blocks signo ∧ ¬ k.Merges signo ∧ k.arrive signo = { k with arrived := k.arrived ++ [signo] }) ∨
      ¬ (k.Blocks signo ∧ ¬ k.Merges signo) ∧ k.arrive signo = k := by
  rw [arrive]
  split
  · next hwaits => exact .inl ⟨hwaits.1, hwaits.2, rfl⟩
  · next hacts => exact .inr ⟨hacts, rfl⟩

/-- The signals of faults, which are handed out before the others. -/
def synchronous : List Int := [4, 5, 7, 8, 11, 31]

/-- The signal of the set that is handed out next: the lowest numbered one that waits. -/
def nextSignal (k : Kernel) (set : SigSet) : Option Int :=
  let waiting := k.arrived.filter (· ∈ set)
  let faults := waiting.filter (· ∈ synchronous)
  (if faults = [] then waiting else faults).min?

theorem mem_of_nextSignal {k : Kernel} {set : SigSet} {signo : Int} (h : k.nextSignal set = some signo) :
    signo ∈ set ∧ signo ∈ k.arrived := by
  have hwaiting : signo ∈ k.arrived.filter (· ∈ set) := by
    rw [nextSignal] at h
    split at h
    · exact List.min?_mem h
    · exact List.mem_of_mem_filter (List.min?_mem h)
  obtain ⟨harrived, hset⟩ := List.mem_filter.mp hwaiting
  exact ⟨of_decide_eq_true hset, harrived⟩

theorem nextSignal_of_mem {k : Kernel} {set : SigSet} {signo : Int} (hset : signo ∈ set)
    (harrived : signo ∈ k.arrived) : ∃ found, k.nextSignal set = some found := by
  refine Option.ne_none_iff_exists'.mp fun hnone => ?_
  rw [nextSignal, List.min?_eq_none_iff] at hnone
  have hwaiting : signo ∈ k.arrived.filter (· ∈ set) := List.mem_filter.mpr ⟨harrived, decide_eq_true hset⟩
  split at hnone
  · rw [hnone] at hwaiting
    cases hwaiting
  · next hfaults => exact hfaults hnone

def readSignal (k : Kernel) (fd : Fd) : Except Errno (Option Int × Kernel) :=
  match k.fileAt fd with
  | some (.signalfd set) =>
    match k.nextSignal set with
    | some signo => .ok (some signo, { k with arrived := k.arrived.erase signo })
    | none => .error Errno.again
  | _ => .error Errno.badf

def invalidSignal (signo : Int) : PyErr := .valueError "invalid signal number %s" [.int signo]

def handlerError (signo : Int) : Option PyErr :=
  if ¬ ValidSignal signo then some (invalidSignal signo)
  else if signo = sigKill ∨ signo = sigStop then some .runtimeError
  else none

theorem validSignal_of_handlerError {signo : Int} (h : handlerError signo = none) : ValidSignal signo := by
  by_contra hinvalid
  rw [handlerError, if_pos hinvalid] at h
  cases h

/-- One call. Closing an open descriptor, changing its flag and putting back a
signal mask the kernel handed out always succeed. -/
def perform (c : Choice) : (op : Sys) → Kernel → op.Reply × Kernel
  | .getenv name, k => (k.env name, k)
  | .setenv name value, k =>
    c.attempt id k (.ok ((), { k with env := Function.update k.env name (some value) }))
  | .unsetenv name, k => ((), { k with env := Function.update k.env name none })
  | .getpid, k => (k.pid, k)
  | .monotonicUs, k => c.attempt id k (.ok (k.clock, k))
  | .socket, k => c.attempt id k (k.openFile c.fd .socket)
  | .bind fd address, k => c.attempt id k (k.bind fd address)
  | .pipe, k => c.attempt id k (k.openPipe c.fd c.fd')
  | .close fd, k =>
    match k.fileAt fd with
    | some file => (.ok (), { k.remove fd with closes := k.closes ++ [some file] })
    | none => (.error Errno.badf, { k with closes := k.closes ++ [none] })
  | .dup2 oldfd newfd, k => c.attempt id k (k.dup2 oldfd newfd)
  | .dupAbove fd minfd, k => c.attempt id k (k.dupAbove fd minfd)
  | .setCloexec fd cloexec, k => k.setCloexec fd cloexec
  | .poll fd mask _, k => c.attempt id k (.ok (k.events mask c.events fd, k))
  | .sendto fd peer data, k => c.attempt id k (k.deliver fd peer data (some []))
  | .sendmsg fd peer data fds, k => c.attempt id k (k.deliver fd peer data (fds.mapM k.fileAt))
  | .recvmsg fd size maxFds, k => c.attempt id k (k.receive fd size maxFds)
  | .memfdCreate _, k =>
    c.attempt id k (openFile { k with memfds := k.memfds ++ [.new] } c.fd (.memfd k.memfds.length))
  | .write fd data, k =>
    c.attempt id k <| k.withMemfd fd fun m =>
      if m.sealed then .error Errno.perm
      else .ok (c.storedOf data.length, m.store (data.take (c.storedOf data.length).1))
  | .addSeals fd, k => c.attempt id k <| k.withMemfd fd fun m => .ok ((), { m with sealed := true })
  | .lseek fd offset, k =>
    c.attempt id k <| k.withMemfd fd fun m => .ok (offset, { m with offset := offset })
  | .sigemptyset, k => c.attempt id k (.ok ((), k))
  | .sigaddset signo, k =>
    c.attempt id k (if ValidSignal signo then .ok ((), k) else .error Errno.inval)
  | .sigBlock set, k => c.attempt id k (.ok (k.mask, { k with mask := k.mask ∪ SigMask.ofSet set }))
  | .sigSetmask mask, k => ((), { k with mask := mask })
  | .signalfd set, k => c.attempt id k (k.openFile c.fd (.signalfd set))
  | .readSiginfo fd, k => c.attempt id k (k.readSignal fd)
  | .getRunningLoop, k => (k.loop, k)
  | .addSignalHandler signo owner, k =>
    c.attempt PyErr.osError k <|
      match handlerError signo with
      | some e => .error e
      | none => .ok ((), { k with handlers := Function.update k.handlers signo (some owner) })
  | .removeSignalHandler signo, k =>
    if ValidSignal signo then (.ok (), { k with handlers := Function.update k.handlers signo none })
    else (.error (invalidSignal signo), k)

/-! What a call of a notifier does, when it does not fail. -/

theorem perform_monotonicUs (k : Kernel) (c : Choice) :
    (∃ e, k.perform c .monotonicUs = (.error e, k)) ∨ k.perform c .monotonicUs = (.ok k.clock, k) := by
  simp only [perform]
  rcases c.attempt_cases id k (.ok (k.clock, k)) with herror | ⟨_, _, _, hk, hr⟩
  · exact .inl herror
  · cases hk
    exact .inr hr

theorem perform_socket (k : Kernel) (c : Choice) :
    (∃ e, k.perform c .socket = (.error e, k)) ∨
      k.Free c.fd ∧ k.perform c .socket = (.ok (c.fd : Fd), k.install c.fd ⟨.socket, true⟩) := by
  simp only [perform]
  rcases c.attempt_cases id k (k.openFile c.fd .socket) with herror | ⟨fd, k', _, hk, hr⟩
  · exact .inl herror
  · rw [openFile] at hk
    split at hk
    · next hfree =>
      cases hk
      exact .inr ⟨hfree, hr⟩
    · cases hk

theorem perform_pipe (k : Kernel) (c : Choice) :
    (∃ e, k.perform c .pipe = (.error e, k)) ∨
      (k.Free c.fd ∧ k.Free c.fd' ∧ c.fd ≠ c.fd') ∧
        k.perform c .pipe = (.ok ((c.fd : Fd), (c.fd' : Fd)),
          { (k.install c.fd ⟨.pipeRead k.pipes, true⟩).install c.fd' ⟨.pipeWrite k.pipes, true⟩ with
            pipes := k.pipes + 1 }) := by
  simp only [perform]
  rcases c.attempt_cases id k (k.openPipe c.fd c.fd') with herror | ⟨ends, k', _, hk, hr⟩
  · exact .inl herror
  · rw [openPipe] at hk
    split at hk
    · next hfree =>
      cases hk
      exact .inr ⟨hfree, hr⟩
    · cases hk

theorem perform_poll (k : Kernel) (c : Choice) (fd : Fd) (mask : Nat) (timeoutMs : Int) :
    (∃ e, k.perform c (.poll fd mask timeoutMs) = (.error e, k)) ∨
      k.perform c (.poll fd mask timeoutMs) = (.ok (k.events mask c.events fd), k) := by
  simp only [perform]
  rcases c.attempt_cases id k (.ok (k.events mask c.events fd, k)) with herror | ⟨_, _, _, hk, hr⟩
  · exact .inl herror
  · cases hk
    exact .inr hr

theorem perform_sendto (k : Kernel) (c : Choice) (fd : Fd) (peer data : Bytes) :
    (∃ e, k.perform c (.sendto fd peer data) = (.error e, k)) ∨
      ∃ n, k.perform c (.sendto fd peer data) = (.ok n, { k with sent := k.sent ++ [⟨peer, data, []⟩] }) := by
  simp only [perform]
  rcases c.attempt_cases id k (k.deliver fd peer data (some [])) with herror | ⟨n, k', _, hk, hr⟩
  · exact .inl herror
  · obtain ⟨files, hfiles, rfl⟩ := deliver_eq_ok hk
    cases hfiles
    exact .inr ⟨n, hr⟩

theorem perform_sendmsg (k : Kernel) (c : Choice) (fd : Fd) (peer data : Bytes) (fds : List Fd) :
    (∃ e, k.perform c (.sendmsg fd peer data fds) = (.error e, k)) ∨
      ∃ n files, fds.mapM k.fileAt = some files ∧
        k.perform c (.sendmsg fd peer data fds) =
          (.ok n, { k with sent := k.sent ++ [⟨peer, data, files⟩] }) := by
  simp only [perform]
  rcases c.attempt_cases id k (k.deliver fd peer data (fds.mapM k.fileAt)) with herror | ⟨n, k', _, hk, hr⟩
  · exact .inl herror
  · obtain ⟨files, hfiles, rfl⟩ := deliver_eq_ok hk
    exact .inr ⟨n, files, hfiles, hr⟩

end Kernel

/-- The kernel with the environment's choices for the calls to come. -/
structure World where
  kernel : Kernel
  choices : Nat → Choice

def World.perform (op : Sys) (w : World) : op.Reply × World :=
  let (reply, kernel) := w.kernel.perform (w.choices 0) op
  (reply, ⟨kernel, fun n => w.choices (n + 1)⟩)

/-- A function or method of the package over an object with attributes `σ`. -/
abbrev Py (σ α : Type) := Method Sys Sys.Reply PyErr σ α

def Py.run {σ α : Type} (m : Py σ α) (s : σ) (w : World) : (Except PyErr α × σ) × World :=
  Method.run World.perform m s w

end Mpsystemd
