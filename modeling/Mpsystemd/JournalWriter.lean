import Mpsystemd.Address
import Mpsystemd.JournalFields
import Mpsystemd.Platform

/-! The journal's datagram socket, held open across many entries. -/

namespace Mpsystemd

structure JournalWriter where
  address : StrOrBytes
  sunPath : Bytes
  sock : Option UnixDatagram
  deriving DecidableEq, Repr

namespace JournalWriter

def new (address : StrOrBytes) : Except PyErr JournalWriter := do
  let sunPath ← encodeUnixAddress address
  return ⟨address, sunPath, none⟩

def openSock : Py JournalWriter UnixDatagram := do
  let self ← Method.attributes
  match self.sock with
  | some sock => return sock
  | none =>
    let sock ← UnixDatagram.new (some self.sunPath)
    Method.update ({ · with sock := some sock })
    return sock

/-- The errors after which the entry goes across as a memfd. -/
def tooLarge : PyErr → Bool
  | .osError errno => errno = Errno.msgsize ∨ errno = Errno.nobufs
  | _ => false

/-- The entry as a sealed memfd, attached to an empty datagram. -/
def sendMemfd (rt : Runtime) (sock : UnixDatagram) (body : Bytes) : Py JournalWriter Bool := do
  let fd ← memfdSealed rt (str "mpsystemd-journal") body
  Method.ensuring (do let _ ← sock.sendWithFds rt [] [fd]) (closeFd fd)
  return true

def sendRaw (rt : Runtime) (body : Bytes) : Py JournalWriter Bool := do
  let sock ← openSock
  Method.handling
    (do
      let _ ← sock.send body
      return true)
    fun e => if tooLarge e then sendMemfd rt sock body else Method.raise e

def sendFields (rt : Runtime) (fields : Journal.Fields) : Py JournalWriter Bool := do
  let body ← Method.lift (Journal.encodeFields rt fields)
  sendRaw rt body

def entry (message : Option Value) (priority : Option Int) (fields : Dict Str Value) : Dict Str Value :=
  let entry := Dict.empty.setAll fields.entries
  let entry := message.elim entry fun message => entry.set (str "MESSAGE") message
  priority.elim entry fun priority => entry.set (str "PRIORITY") (.int priority)

def send (rt : Runtime) (message : Option Value) (priority : Option Int) (fields : Dict Str Value) :
    Py JournalWriter Bool :=
  sendFields rt (.mapping (entry message priority fields))

/-- `send` with a priority that is not an integer yet: what `int` makes of it, which
may be an exception. -/
def sendConverting (rt : Runtime) (message : Option Value) (priority : Option (Except PyErr Int))
    (fields : Dict Str Value) : Py JournalWriter Bool := do
  send rt message (← Method.lift (priority.mapM id)) fields

def close (rt : Runtime) : Py JournalWriter Unit := do
  let self ← Method.attributes
  match self.sock with
  | none => return ()
  | some sock =>
    Method.zoom (fun _ => sock) (fun self sock => { self with sock := some sock })
      (UnixDatagram.close rt)
    Method.update ({ · with sock := none })

end JournalWriter

end Mpsystemd
