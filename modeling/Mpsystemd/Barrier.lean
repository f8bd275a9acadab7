import Mathlib.Logic.Relation
import Mpsystemd.Holding

/-! Barriers: any number of notifiers on one address, each making its calls one
by one, interleaved with a manager that takes their datagrams in order,
processes each, and then closes the descriptors that came with it. -/

namespace Mpsystemd.Barrier

open Notifier

/-- How far the manager is in the queue of datagrams, and the descriptors of the
last one it took that it has not closed. -/
structure Manager where
  taken : Nat
  processed : Nat
  copies : List File

def Manager.Finished (m : Manager) (index : Nat) : Prop :=
  index + 1 < m.taken ∨ index + 1 = m.taken ∧ m.processed = m.taken ∧ m.copies = []

instance (m : Manager) (index : Nat) : Decidable (m.Finished index) :=
  inferInstanceAs (Decidable (_ ∨ _))

def Carries (k : Kernel) (index : Nat) (file : File) : Prop :=
  ∃ message, k.sent[index]? = some message ∧ file ∈ message.files

/-- A write end is open in the process, in a datagram that was not taken yet,
or at the manager. -/
def WriteEndOpen (k : Kernel) (m : Manager) (pipe : Nat) : Prop :=
  (∃ fd, k.fileAt fd = some (.pipeWrite pipe)) ∨
    (∃ index, m.taken ≤ index ∧ Carries k index (.pipeWrite pipe)) ∨ .pipeWrite pipe ∈ m.copies

/-- A notifier and the call it is making. `target` is the read end the call
waits on with its barrier's datagram, `mark` the datagram the call sent last,
`late` whether it polled after the manager was finished with the barrier. -/
structure Thread where
  notifier : Notifier
  running : Option (Call × Prog Sys Sys.Reply (Except PyErr Result × Notifier))
  target : Option (Fd × Option Nat)
  mark : Option Nat
  late : Bool

def Thread.barrier (t : Thread) : Option Nat := t.target.elim t.mark Prod.snd

/-- The datagram of the barrier a read end belongs to: the target's, or the one
the call sent itself. -/
def Thread.polled (t : Thread) (fd : Fd) : Option Nat :=
  match t.target with
  | some (readFd, barrier) => if readFd = fd then barrier else t.mark
  | none => t.mark

structure Report where
  barrier : Option Nat
  done : Bool
  late : Bool

/-- One process with its notifiers, and the manager. The kernel's record of
datagrams is the queue of the address. `held` are the read ends `barrier_begin`
returned and their callers keep open, with their barriers' datagrams. -/
structure System (ι : Type) where
  kernel : Kernel
  manager : Manager
  threads : ι → Thread
  held : List (Fd × Option Nat)
  reports : List Report

/-- The caller's own descriptors go out with the call. -/
def Lends : Call → Prop
  | .sendRaw _ fds => fds ≠ []
  | .fdstore _ _ _ => True
  | _ => False

/-- `barrier_finish` is called on a read end `barrier_begin` returned. -/
def Targets (held : List (Fd × Option Nat)) : Call → Option (Fd × Option Nat) → Prop
  | .barrierFinish readFd _, target => ∃ barrier, (readFd, barrier) ∈ held ∧ target = some (readFd, barrier)
  | _, target => target = none

/-- A poll of a read end reports an event exactly when no write end is open. -/
def PollRule (k : Kernel) (m : Manager) : (op : Sys) → op.Reply → Prop
  | .poll fd _ _, .ok events => ∀ pipe, k.fileAt fd = some (.pipeRead pipe) →
    (events ≠ 0 ↔ ¬ WriteEndOpen k m pipe)
  | _, _ => True

def lateAfter (m : Manager) (t : Thread) : (op : Sys) → op.Reply → Bool
  | .poll fd _ _, .ok _ => (t.polled fd).any fun index => decide (m.Finished index)
  | _, _ => t.late

def handedOut (mark : Option Nat) : Except PyErr Result → List (Fd × Option Nat)
  | .ok (.readFd (some fd)) => [(fd, mark)]
  | _ => []

def reported (t : Thread) : Call → Except PyErr Result → List Report
  | .barrier _, .ok (.bool done) => [⟨t.barrier, done, t.late⟩]
  | .barrierFinish _ _, .ok (.bool done) => [⟨t.barrier, done, t.late⟩]
  | _, _ => []

section Steps

variable {ι : Type} [DecidableEq ι]

def System.setThread (s : System ι) (i : ι) (t : Thread) : System ι :=
  { s with threads := Function.update s.threads i t }

inductive Step (rt : Runtime) : System ι → System ι → Prop
  | start (s : System ι) (i : ι) (c : Call) (target : Option (Fd × Option Nat))
      (hidle : (s.threads i).running = none) (hlends : ¬ Lends c) (htarget : Targets s.held c target) :
      Step rt s (s.setThread i
        ⟨(s.threads i).notifier, some (c, c.method rt (s.threads i).notifier), target, none, false⟩)
  | call (s : System ι) (i : ι) (c : Call) (op : Sys)
      (next : op.Reply → Prog Sys Sys.Reply (Except PyErr Result × Notifier)) (choice : Choice)
      (hrun : (s.threads i).running = some (c, .call op next))
      (hpoll : PollRule s.kernel s.manager op (s.kernel.perform choice op).1) :
      Step rt s { s.setThread i
        { s.threads i with
          running := some (c, next (s.kernel.perform choice op).1)
          mark := if (s.kernel.perform choice op).2.sent.length = s.kernel.sent.length then
            (s.threads i).mark else some s.kernel.sent.length
          late := lateAfter s.manager (s.threads i) op (s.kernel.perform choice op).1 } with
        kernel := (s.kernel.perform choice op).2 }
  | finish (s : System ι) (i : ι) (c : Call) (result : Except PyErr Result) (n : Notifier)
      (hrun : (s.threads i).running = some (c, .ret (result, n))) :
      Step rt s { s.setThread i ⟨n, none, none, none, false⟩ with
        held := handedOut (s.threads i).mark result ++ s.held
        reports := reported (s.threads i) c result ++ s.reports }
  | release (s : System ι) (fd : Fd) (barrier : Option Nat) (hheld : (fd, barrier) ∈ s.held)
      (hfree : ∀ i, (s.threads i).target ≠ some (fd, barrier)) (choice : Choice) :
      Step rt s { s with
        kernel := (s.kernel.perform choice (.close fd)).2
        held := s.held.erase (fd, barrier) }
  /-- Another process sends to the address. -/
  | foreign (s : System ι) (message : Message) (hfiles : ∀ pipe, .pipeWrite pipe ∉ message.files) :
      Step rt s { s with kernel := { s.kernel with sent := s.kernel.sent ++ [message] } }
  | take (s : System ι) (message : Message) (hdone : s.manager.processed = s.manager.taken)
      (hcopies : s.manager.copies = []) (hnext : s.kernel.sent[s.manager.taken]? = some message) :
      Step rt s { s with
        manager := ⟨s.manager.taken + 1, s.manager.processed, message.files⟩ }
  | process (s : System ι) (htaken : s.manager.processed < s.manager.taken) :
      Step rt s { s with manager := { s.manager with processed := s.manager.processed + 1 } }
  | closeCopy (s : System ι) (file : File) (rest : List File)
      (hdone : s.manager.processed = s.manager.taken) (hcopies : s.manager.copies = file :: rest) :
      Step rt s { s with manager := { s.manager with copies := rest } }

/-- No call was made yet: nothing is queued, and the process has no pipe of a
notifier's making. -/
structure Initial (s : System ι) : Prop where
  sent : s.kernel.sent = []
  pipes : ∀ fd pipe, s.kernel.fileAt fd ≠ some (.pipeWrite pipe)
  manager : s.manager = ⟨0, 0, []⟩
  threads : ∀ i, ∃ n : Notifier, n.sock = none ∧ s.threads i = ⟨n, none, none, none, false⟩
  held : s.held = []
  reports : s.reports = []

end Steps

end Mpsystemd.Barrier
