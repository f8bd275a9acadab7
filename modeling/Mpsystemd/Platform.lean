import Mpsystemd.Kernel

/-! The platform primitives of the two backends, libc through ffi on the
MicroPython unix port and the standard library on CPython. -/

namespace Mpsystemd

variable {σ : Type}

def maxFdsPerMessage : Nat := 253

def check {α : Type} : Except Errno α → Except PyErr α
  | .ok a => .ok a
  | .error e => .error (.osError e)

def sys (op : Sys) : Py σ op.Reply := Method.call op

def getenv (name : Str) : Py σ (Option Str) := sys (.getenv name)

def unsetenv (name : Str) : Py σ Unit := sys (.unsetenv name)

def getpid : Py σ Int := sys .getpid

def monotonicUs : Py σ Nat := do Method.lift (check (← sys .monotonicUs))

def pipe : Py σ (Fd × Fd) := do Method.lift (check (← sys .pipe))

def closeFd (fd : Fd) : Py σ Unit := do Method.lift (check (← sys (.close fd)))

/-- The event mask of one descriptor, 0 when it times out. CPython refuses a
negative descriptor when it is registered. -/
def pollFd (rt : Runtime) (fd : Fd) (mask : Nat) (timeoutMs : Int) : Py σ Nat :=
  if fd < 0 ∧ ¬ rt.micropython then
    Method.raise (.valueError "file descriptor cannot be a negative integer (%i)" [.int fd])
  else do Method.lift (check (← sys (.poll fd mask timeoutMs)))

def dup2 (oldfd newfd : Fd) : Py σ Unit := do
  let _ ← Method.lift (check (← sys (.dup2 oldfd newfd)))

def setCloexec (fd : Fd) : Py σ Unit := do Method.lift (check (← sys (.setCloexec fd true)))

def clearCloexec (fd : Fd) : Py σ Unit := do Method.lift (check (← sys (.setCloexec fd false)))

/-- CPython refuses a negative descriptor before it calls. -/
def dupAbove (rt : Runtime) (fd minfd : Fd) : Py σ Fd :=
  if fd < 0 ∧ ¬ rt.micropython then
    Method.raise (.valueError "file descriptor cannot be a negative integer (%i)" [.int fd])
  else do Method.lift (check (← sys (.dupAbove fd minfd)))

/-! Sealed memfds. -/

/-- The MicroPython loop: it counts the bytes written and slices the data. -/
def writeCounted (fd : Fd) (data : Bytes) (written : Nat) : Py σ Unit :=
  if written < data.length then do
    let view := if written = 0 then data else data.drop written
    let stored ← Method.lift (check (← sys (.write fd view)))
    writeCounted fd data (written + stored)
  else pure ()
termination_by data.length - written
decreasing_by
  have hview : 0 < view.length := by
    simp only [view]
    split
    · omega
    · simp only [List.length_drop]; omega
  have := stored.2.2 hview
  omega

/-- The CPython loop: it shrinks its view of the data. -/
def writeView (fd : Fd) (view : Bytes) : Py σ Unit :=
  if view ≠ [] then do
    let stored ← Method.lift (check (← sys (.write fd view)))
    writeView fd (view.drop stored)
  else pure ()
termination_by view.length
decreasing_by
  have hview : 0 < view.length := List.length_pos_iff.mpr ‹_›
  have := stored.2.2 hview
  simp only [List.length_drop]
  omega

def memfdSealed (rt : Runtime) (name : Str) (data : Bytes) : Py σ Fd :=
  if !rt.hasMemfd then
    Method.raise (.unsupportedError <|
      if rt.micropython then "memfd_create is not available in this libc"
      else "os.memfd_create is not available")
  else do
    let fd ← Method.lift (check (← sys (.memfdCreate name)))
    Method.handling
      (do
        if rt.micropython then writeCounted fd data 0 else writeView fd data
        Method.lift (check (← sys (.addSeals fd)))
        let _ ← Method.lift (check (← sys (.lseek fd 0))))
      fun e => do
        if rt.micropython then
          let _ ← sys (.close fd)
        else closeFd fd
        Method.raise e
    return fd

/-! Datagram sockets. -/

/-- `fd` is -1 once the socket is closed. -/
structure UnixDatagram where
  fd : Fd
  peer : Option Bytes
  deriving DecidableEq, Repr

namespace UnixDatagram

def new (peer : Option Bytes) : Py σ UnixDatagram := do
  let fd ← Method.lift (check (← sys .socket))
  return ⟨fd, peer⟩

def bind (sock : UnixDatagram) (sunPath : Bytes) : Py σ Unit := do
  Method.lift (check (← sys (.bind sock.fd sunPath)))

def send (sock : UnixDatagram) (data : Bytes) : Py σ Nat :=
  match sock.peer with
  | none => Method.raise (.systemdError "no peer address set on this socket" [])
  | some peer => do Method.lift (check (← sys (.sendto sock.fd peer data)))

/-- A descriptor as `struct.pack("i")` stores it: CPython refuses one that is
no C int, MicroPython keeps its low bits. -/
def packFd (rt : Runtime) (fd : Fd) : Except PyErr Fd :=
  if -2 ^ 31 ≤ fd ∧ fd < 2 ^ 31 then .ok fd
  else if rt.micropython then .ok (fd.bmod (2 ^ 32))
  else .error .structError

theorem packFd_of_range {rt : Runtime} {fd : Fd} (h0 : 0 ≤ fd) (hmax : fd < 2 ^ 31) :
    packFd rt fd = .ok fd := by
  rw [packFd, if_pos ⟨le_trans (by decide) h0, hmax⟩]

def sendWithFds (rt : Runtime) (sock : UnixDatagram) (data : Bytes) (fds : List Fd) : Py σ Nat :=
  match sock.peer with
  | none => Method.raise (.systemdError "no peer address set on this socket" [])
  | some peer =>
    if fds = [] then sock.send data
    else if fds.length > maxFdsPerMessage then
      Method.raise (.valueError "at most %d descriptors fit in one message" [.int maxFdsPerMessage])
    else do
      let rights ← Method.lift (fds.mapM (packFd rt))
      Method.lift (check (← sys (.sendmsg sock.fd peer data rights)))

/-- MicroPython ignores the outcome of the `close`, CPython raises it. -/
def close (rt : Runtime) : Py UnixDatagram Unit := do
  let self ← Method.attributes
  if self.fd ≥ 0 then
    if rt.micropython then
      let _ ← sys (.close self.fd)
      Method.update ({ · with fd := -1 })
    else
      Method.update ({ · with fd := -1 })
      closeFd self.fd

end UnixDatagram

end Mpsystemd
