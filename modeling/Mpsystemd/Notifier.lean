import Mpsystemd.Address
import Mpsystemd.Payload
import Mpsystemd.Platform

/-! The notifier: a notification socket held open across many messages, and the
module level functions that open and close one for each message. -/

namespace Mpsystemd

variable {σ : Type}

def notifySocketEnv : Str := str "NOTIFY_SOCKET"

def watchdogUsecEnv : Str := str "WATCHDOG_USEC"

def watchdogPidEnv : Str := str "WATCHDOG_PID"

def barrierPayload : Bytes := bytes "BARRIER=1\n"

def keywords (fields : List (String × Value)) : Dict Str Value :=
  Dict.empty.setAll (fields.map fun (name, value) => (str name, value))

def keyword? (name : String) (value : Option Value) : List (String × Value) :=
  (value.map fun v => (name, v)).toList

inductive FdsArg where
  | one (fd : Fd)
  | many (fds : List Fd)
  deriving DecidableEq, Repr

def FdsArg.toList : FdsArg → List Fd
  | one fd => [fd]
  | many fds => fds

structure Notifier where
  address : Option StrOrBytes
  sunPath : Option Bytes
  sock : Option UnixDatagram
  deriving DecidableEq, Repr

namespace Notifier

/-- A notifier for an address, where an empty one counts as none. -/
def ofAddress (address : Option StrOrBytes) : Except PyErr Notifier :=
  match address.filter fun a => a ≠ .text [] ∧ a ≠ .bytes [] with
  | none => return ⟨none, none, none⟩
  | some address => do
    let sunPath ← encodeUnixAddress address
    return ⟨some address, some sunPath, none⟩

def new (address : Option StrOrBytes) : Py σ Notifier := do
  let address ← address.elim ((·.map .text) <$> getenv notifySocketEnv) (pure ∘ some)
  Method.lift (ofAddress address)

def available (n : Notifier) : Bool := n.sunPath.isSome

def openSock (sunPath : Bytes) : Py Notifier UnixDatagram := do
  let self ← Method.attributes
  match self.sock with
  | some sock => return sock
  | none =>
    let sock ← UnixDatagram.new (some sunPath)
    Method.update ({ · with sock := some sock })
    return sock

def sendRaw (rt : Runtime) (payload : StrOrBytes) (fds : List Fd) : Py Notifier Bool := do
  let self ← Method.attributes
  match self.sunPath with
  | none => return false
  | some sunPath =>
    let payload ← Method.lift payload.encode
    let sock ← openSock sunPath
    let _ ← if fds ≠ [] then sock.sendWithFds rt payload fds else sock.send payload
    return true

def notify (rt : Runtime) (states : List StrOrBytes) (fields : Dict Str Value) :
    Py Notifier Bool := do
  let payload ← Method.lift (buildPayload rt states fields)
  sendRaw rt (.bytes payload) []

def ready (rt : Runtime) (status : Option Value) : Py Notifier Bool :=
  notify rt [] (keywords (("READY", .int 1) :: keyword? "STATUS" status))

def stopping (rt : Runtime) (status : Option Value) : Py Notifier Bool :=
  notify rt [] (keywords (("STOPPING", .int 1) :: keyword? "STATUS" status))

def reloading (rt : Runtime) (status : Option Value) : Py Notifier Bool := do
  let now ← monotonicUs
  notify rt [] (keywords
    (("RELOADING", .int 1) :: ("MONOTONIC_USEC", .int now) :: keyword? "STATUS" status))

def status (rt : Runtime) (text : Value) : Py Notifier Bool :=
  notify rt [] (keywords [("STATUS", text)])

def errno (rt : Runtime) (value : Int) : Py Notifier Bool :=
  notify rt [] (keywords [("ERRNO", .int value)])

def mainPid (rt : Runtime) (pid : Option Int) : Py Notifier Bool := do
  let pid ← pid.elim getpid pure
  notify rt [] (keywords [("MAINPID", .int pid)])

def extendTimeout (rt : Runtime) (usec : Int) : Py Notifier Bool :=
  notify rt [] (keywords [("EXTEND_TIMEOUT_USEC", .int usec)])

def watchdogPing (rt : Runtime) : Py Notifier Bool :=
  notify rt [] (keywords [("WATCHDOG", .int 1)])

def watchdogTrigger (rt : Runtime) : Py Notifier Bool :=
  notify rt [] (keywords [("WATCHDOG", .text (str "trigger"))])

def fdstore (rt : Runtime) (fds : FdsArg) (name : Option Str) (poll : Option Bool) :
    Py Notifier Bool :=
  if fds.toList = [] then Method.raise (.valueError "no descriptors given" [])
  else do
    let name ← Method.lift (name.mapM checkFdname)
    let payload ← Method.lift (buildPayload rt [] (keywords
      (("FDSTORE", .int 1) :: keyword? "FDNAME" (name.map .text) ++ keyword? "FDPOLL" (poll.map .bool))))
    sendRaw rt (.bytes payload) fds.toList

def fdstoreRemove (rt : Runtime) (name : Str) : Py Notifier Bool := do
  let name ← Method.lift (checkFdname name)
  notify rt [] (keywords [("FDSTOREREMOVE", .int 1), ("FDNAME", .text name)])

def barrierBegin (rt : Runtime) : Py Notifier (Option Fd) := do
  let self ← Method.attributes
  if self.sunPath = none then return none
  else
    let (readFd, writeFd) ← pipe
    Method.ensuring
      (Method.handling
        (do let _ ← sendRaw rt (.bytes barrierPayload) [writeFd])
        fun e => do
          closeFd readFd
          Method.raise e)
      (closeFd writeFd)
    return some readFd

def barrierFinish (rt : Runtime) (readFd : Fd) (timeoutMs : Int) : Py Notifier Bool := do
  let events ← pollFd rt readFd (pollin ||| pollhup) timeoutMs
  return events ≠ 0

def barrier (rt : Runtime) (timeoutMs : Int) : Py Notifier Bool := do
  match ← barrierBegin rt with
  | none => return false
  | some readFd => Method.ensuring (barrierFinish rt readFd timeoutMs) (closeFd readFd)

def close (rt : Runtime) : Py Notifier Unit := do
  let self ← Method.attributes
  match self.sock with
  | none => return ()
  | some sock =>
    Method.zoom (fun _ => sock) (fun self sock => { self with sock := some sock })
      (UnixDatagram.close rt)
    Method.update ({ · with sock := none })

inductive Call where
  | sendRaw (payload : StrOrBytes) (fds : List Fd)
  | notify (states : List StrOrBytes) (fields : Dict Str Value)
  | fdstore (fds : FdsArg) (name : Option Str) (poll : Option Bool)
  | fdstoreRemove (name : Str)
  | barrierBegin
  | barrierFinish (readFd : Fd) (timeoutMs : Int)
  | barrier (timeoutMs : Int)
  | close

inductive Result where
  | bool (b : Bool)
  | readFd (fd : Option Fd)
  | unit
  deriving DecidableEq, Repr

def Call.method (rt : Runtime) : Call → Py Notifier Result
  | sendRaw payload fds => .bool <$> Notifier.sendRaw rt payload fds
  | notify states fields => .bool <$> Notifier.notify rt states fields
  | fdstore fds name poll => .bool <$> Notifier.fdstore rt fds name poll
  | fdstoreRemove name => .bool <$> Notifier.fdstoreRemove rt name
  | barrierBegin => .readFd <$> Notifier.barrierBegin rt
  | barrierFinish readFd timeoutMs => .bool <$> Notifier.barrierFinish rt readFd timeoutMs
  | barrier timeoutMs => .bool <$> Notifier.barrier rt timeoutMs
  | close => (fun _ => .unit) <$> Notifier.close rt

end Notifier

/-- `with Notifier() as notifier: body`. -/
def withNotifier {α : Type} (rt : Runtime) (body : Py Notifier α) : Py σ α := do
  let notifier ← Notifier.new none
  Method.zoom (fun _ => notifier) (fun self _ => self) (Method.ensuring body (Notifier.close rt))

/-! The module level functions. -/

namespace Daemon

def notify (rt : Runtime) (states : List StrOrBytes) (fields : Dict Str Value) : Py σ Bool :=
  withNotifier rt (Notifier.notify rt states fields)

def ready (rt : Runtime) (status : Option Value) : Py σ Bool :=
  withNotifier rt (Notifier.ready rt status)

def stopping (rt : Runtime) (status : Option Value) : Py σ Bool :=
  withNotifier rt (Notifier.stopping rt status)

def reloading (rt : Runtime) (status : Option Value) : Py σ Bool :=
  withNotifier rt (Notifier.reloading rt status)

def status (rt : Runtime) (text : Value) : Py σ Bool := withNotifier rt (Notifier.status rt text)

def errno (rt : Runtime) (value : Int) : Py σ Bool := withNotifier rt (Notifier.errno rt value)

def mainPid (rt : Runtime) (pid : Option Int) : Py σ Bool :=
  withNotifier rt (Notifier.mainPid rt pid)

def extendTimeout (rt : Runtime) (usec : Int) : Py σ Bool :=
  withNotifier rt (Notifier.extendTimeout rt usec)

def watchdogPing (rt : Runtime) : Py σ Bool := withNotifier rt (Notifier.watchdogPing rt)

def watchdogTrigger (rt : Runtime) : Py σ Bool := withNotifier rt (Notifier.watchdogTrigger rt)

def fdstore (rt : Runtime) (fds : FdsArg) (name : Option Str) (poll : Option Bool) : Py σ Bool :=
  withNotifier rt (Notifier.fdstore rt fds name poll)

def fdstoreRemove (rt : Runtime) (name : Str) : Py σ Bool :=
  withNotifier rt (Notifier.fdstoreRemove rt name)

def barrier (rt : Runtime) (timeoutMs : Int) : Py σ Bool :=
  withNotifier rt (Notifier.barrier rt timeoutMs)

inductive Call where
  | notify (states : List StrOrBytes) (fields : Dict Str Value)
  | ready (status : Option Value)
  | stopping (status : Option Value)
  | reloading (status : Option Value)
  | status (text : Value)
  | errno (value : Int)
  | mainPid (pid : Option Int)
  | extendTimeout (usec : Int)
  | watchdogPing
  | watchdogTrigger
  | fdstore (fds : FdsArg) (name : Option Str) (poll : Option Bool)
  | fdstoreRemove (name : Str)
  | barrier (timeoutMs : Int)

def Call.function (rt : Runtime) : Call → Py σ Bool
  | .notify states fields => Daemon.notify rt states fields
  | .ready text => Daemon.ready rt text
  | .stopping text => Daemon.stopping rt text
  | .reloading text => Daemon.reloading rt text
  | .status text => Daemon.status rt text
  | .errno value => Daemon.errno rt value
  | .mainPid pid => Daemon.mainPid rt pid
  | .extendTimeout usec => Daemon.extendTimeout rt usec
  | .watchdogPing => Daemon.watchdogPing rt
  | .watchdogTrigger => Daemon.watchdogTrigger rt
  | .fdstore fds name poll => Daemon.fdstore rt fds name poll
  | .fdstoreRemove name => Daemon.fdstoreRemove rt name
  | .barrier timeoutMs => Daemon.barrier rt timeoutMs

def watchdogEnabled (rt : Runtime) (unsetEnvironment : Bool) : Py σ Int := do
  let usecText ← getenv watchdogUsecEnv
  let pidText ← getenv watchdogPidEnv
  if unsetEnvironment then
    unsetenv watchdogUsecEnv
    unsetenv watchdogPidEnv
  match (usecText.filter (· ≠ [])).bind rt.parseInt with
  | none => return 0
  | some usec =>
    if usec ≤ 0 then return 0
    else
      match pidText.filter (· ≠ []) with
      | none => return usec
      | some pidText =>
        match rt.parseInt pidText with
        | none => return 0
        | some pid => return if pid ≠ (← getpid) then 0 else usec

end Daemon

end Mpsystemd
