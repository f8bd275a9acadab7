import Mpsystemd.Lib.Runs
import Mpsystemd.Receipt

/-! A `receive_all` of the listener, turn by turn, while datagrams arrive. -/

namespace Mpsystemd

open Struct (Machine)

inductive DrainEvent where
  | arrives (message : Message)
  | turns (choices : Nat → Choice)

namespace DrainEvent

def arrival : DrainEvent → Option Message
  | arrives message => some message
  | turns _ => none

def isTurn : DrainEvent → Bool
  | arrives _ => false
  | turns _ => true

end DrainEvent

/-- `received` has each datagram with the kernel that its receipt left; `result` is
there once the loop has ended, with the kernel that its last turn met. -/
structure Draining where
  kernel : Kernel
  listener : FakeNotifyListener
  received : List (Datagram × Kernel)
  result : Option (Except PyErr (List Datagram) × Kernel)

namespace Draining

def start (kernel : Kernel) (listener : FakeNotifyListener) : Draining := ⟨kernel, listener, [], none⟩

def afterReceipt (d : Draining) (listener : FakeNotifyListener) (kernel : Kernel) :
    Except PyErr (Option Datagram) → Draining
  | .ok none => ⟨kernel, listener, d.received, some (.ok (d.received.map Prod.fst), d.kernel)⟩
  | .ok (some datagram) => ⟨kernel, listener, d.received ++ [(datagram, kernel)], none⟩
  | .error e => ⟨kernel, listener, d.received, some (.error e, d.kernel)⟩

/-- One turn of the `while`: only the first receipt waits. -/
def turn (rt : Runtime) (m : Machine) (timeoutMs : Int) (d : Draining) (choices : Nat → Choice) : Draining :=
  let timeoutMs := if d.received.isEmpty then timeoutMs else 0
  let outcome := (FakeNotifyListener.receive rt m timeoutMs).run d.listener ⟨d.kernel, choices⟩
  d.afterReceipt outcome.1.2 outcome.2.kernel outcome.1.1

def step (rt : Runtime) (m : Machine) (timeoutMs : Int) (d : Draining) : DrainEvent → Draining
  | .arrives message => { d with kernel := d.kernel.post message }
  | .turns choices => if d.result.isSome then d else d.turn rt m timeoutMs choices

end Draining

/-! The queue of the listener, as messages arrive and are handed out. -/

namespace FakeNotifyListener

variable {l : FakeNotifyListener} {path : Bytes} {index : Nat} {inbox : Inbox} {k : Kernel} {message : Message}

theorem ListensAt.posted (h : ListensAt l path index inbox k) (message : Message) :
    ListensAt l path index inbox (k.post message) ∧
      (k.post message).waitingAt l.sock.fd =
        k.waitingAt l.sock.fd ++ [message].filter (·.peer = path) := by
  by_cases hpeer : message.peer = path
  · obtain ⟨hlistens, hwaiting⟩ := h.post hpeer
    exact ⟨hlistens, by simp [hwaiting, hpeer]⟩
  · have hqueue : ((k.post message).sent.drop inbox.since).filter (·.peer = path) =
        (k.sent.drop inbox.since).filter (·.peer = path) := by
      rw [Kernel.post, List.drop_append_of_le_length h.since, List.filter_append]
      simp [hpeer]
    have hposted : ListensAt l path index inbox (k.post message) := {
      h with
      since := by
        have hsince := h.since
        simp only [Kernel.post, List.length_append]
        omega
      received := hqueue ▸ h.received }
    refine ⟨hposted, ?_⟩
    rw [hposted.waitingAt, h.waitingAt, hqueue]
    simp [hpeer]

/-- The first message that waits is handed out, and the listener's socket stays. -/
theorem ListensAt.handOut (h : ListensAt l path index inbox k) {rest : List Message}
    (hwaiting : k.waitingAt l.sock.fd = message :: rest) (room : Nat) :
    ListensAt l path index { inbox with received := inbox.received + 1 } (k.handOut l.sock.fd room message).2 ∧
      (k.handOut l.sock.fd room message).2.waitingAt l.sock.fd = rest := by
  obtain ⟨table, htable⟩ := k.handOut_eq l.sock.fd room message
  obtain ⟨inboxes, hdequeue⟩ := k.dequeue_eq l.sock.fd
  rw [h.waitingAt] at hwaiting
  have hlength := congrArg List.length hwaiting
  rw [List.length_drop, List.length_cons] at hlength
  have hfile : (k.handOut l.sock.fd room message).2.fileAt l.sock.fd = some (.boundSocket index) := by
    obtain ⟨descriptor, hdescriptor, hsame⟩ := Option.map_eq_some_iff.mp h.file
    have hopen : (k.dequeue l.sock.fd).table l.sock.fd = some descriptor := by rw [hdequeue, hdescriptor]
    rw [Kernel.fileAt, Kernel.handOut, Kernel.receiveFiles_keeps hopen, Option.map_some, hsame]
  have hsent : (k.handOut l.sock.fd room message).2.sent = k.sent := by rw [htable]
  have htaken : inbox.received + 1 ≤ ((k.sent.drop inbox.since).filter (·.peer = path)).length := by omega
  have hlistens : ListensAt l path index { inbox with received := inbox.received + 1 }
      (k.handOut l.sock.fd room message).2 :=
    ⟨h.nonneg, hfile, Kernel.handOut_inboxes h.file h.found room message, h.address, hsent ▸ h.since,
      hsent ▸ htaken⟩
  refine ⟨hlistens, ?_⟩
  rw [hlistens.waitingAt, hsent, ← List.drop_drop, hwaiting]
  rfl

end FakeNotifyListener

namespace Draining

open FakeNotifyListener (ListensAt Delivered delivered_handOut)

variable {rt : Runtime} {m : Machine} {timeoutMs : Int} {l : FakeNotifyListener} {path : Bytes}
  {total : List Message} {count : Nat} {d : Draining}

/-- Of what waited and what has arrived the first are received, the rest waits. -/
structure Inv (m : Machine) (l : FakeNotifyListener) (path : Bytes) (total : List Message) (count : Nat)
    (d : Draining) : Prop where
  listener : d.listener = l
  listens : ∃ index inbox, ListensAt l path index inbox d.kernel
  few : ∀ message ∈ d.kernel.waitingAt l.sock.fd, message.files.length ≤ maxFdsPerMessage
  queue : ∃ taken, total = taken ++ d.kernel.waitingAt l.sock.fd ∧ List.Forall₂ (Delivered m l) taken d.received
  running : d.result = none → d.received.length = count
  ended : ∀ received k, d.result = some (.ok received, k) →
    received = d.received.map Prod.fst ∧ k.waitingAt l.sock.fd = []

theorem Inv.arrives (h : d.Inv m l path total count) {message : Message}
    (hfew : message.files.length ≤ maxFdsPerMessage) :
    (d.step rt m timeoutMs (.arrives message)).Inv m l path (total ++ [message].filter (·.peer = path)) count := by
  obtain ⟨index, inbox, hlistens⟩ := h.listens
  obtain ⟨hposted, hwaiting⟩ := hlistens.posted message
  obtain ⟨taken, htotal, hdelivered⟩ := h.queue
  refine ⟨h.listener, ⟨index, inbox, hposted⟩, ?_, ⟨taken, ?_, hdelivered⟩, h.running, h.ended⟩
  · intro other hother
    rw [step, hwaiting, List.mem_append] at hother
    rcases hother with hold | hnew
    · exact h.few other hold
    · rw [List.mem_singleton.mp (List.mem_of_mem_filter hnew)]
      exact hfew
  · rw [step, hwaiting, ← List.append_assoc, ← htotal]

theorem Inv.turns (h : d.Inv m l path total count) (hsize : l.bufsize ≠ 0 ∨ l.maxFds ≠ 0)
    (choices : Nat → Choice) :
    (d.step rt m timeoutMs (.turns choices)).Inv m l path total (count + 1) := by
  rw [step]
  split
  · next hended =>
    exact ⟨h.listener, h.listens, h.few, h.queue, fun hnone => by simp [hnone] at hended, h.ended⟩
  · next hrunning =>
    have hnone : d.result = none := by simpa using hrunning
    obtain ⟨taken, htotal, hdelivered⟩ := h.queue
    have hends : ∀ timeoutMs, Py.Ends (FakeNotifyListener.receive rt m timeoutMs)
        (fun result listener k => (d.afterReceipt listener k (.ok result)).Inv m l path total (count + 1))
        (fun e listener k => (d.afterReceipt listener k (.error e)).Inv m l path total (count + 1))
        d.listener d.kernel := by
      intro timeoutMs
      rw [h.listener]
      apply FakeNotifyListener.ends_receive hsize fun _ => h.few
      · intro hempty
        obtain ⟨index, inbox, hlistens⟩ := h.listens
        refine ⟨rfl, h.listens, h.few, h.queue, nofun, fun received k hresult => ?_⟩
        cases hresult
        exact ⟨rfl, hempty hlistens.nonneg⟩
      · intro h0 message rest hwaiting
        obtain ⟨index, inbox, hlistens⟩ := h.listens
        obtain ⟨hafter, hrest⟩ := hlistens.handOut hwaiting (capacity m l.maxFds)
        refine ⟨rfl, ⟨index, _, hafter⟩, ?_, ⟨taken ++ [message], ?_, ?_⟩, fun _ => ?_, nofun⟩
        · intro other hother
          rw [afterReceipt, hrest] at hother
          exact h.few other (hwaiting ▸ List.mem_cons_of_mem _ hother)
        · rw [afterReceipt, hrest, htotal, hwaiting, List.append_assoc]
          rfl
        · exact List.rel_append hdelivered (.cons (delivered_handOut m l d.kernel message) .nil)
        · rw [afterReceipt, List.length_append, h.running hnone]
          rfl
      · intro e
        exact ⟨rfl, h.listens, h.few, h.queue, nofun, nofun⟩
    have hrun := (hends (if d.received.isEmpty then timeoutMs else 0)).run (w := ⟨d.kernel, choices⟩)
    exact (Method.outcome_iff fun result listener k =>
      (d.afterReceipt listener k result).Inv m l path total (count + 1)).mp hrun

/-- What arrives at the address. -/
def arrivals (path : Bytes) (events : List DrainEvent) : List Message :=
  (events.filterMap DrainEvent.arrival).filter (·.peer = path)

theorem inv_run (rt : Runtime) (timeoutMs : Int) {k : Kernel} (hl : l.Listening path k)
    (hsize : l.bufsize ≠ 0 ∨ l.maxFds ≠ 0)
    (hqueued : ∀ message ∈ k.waitingAt l.sock.fd, message.files.length ≤ maxFdsPerMessage)
    (events : List DrainEvent)
    (harrivals : ∀ message, .arrives message ∈ events → message.files.length ≤ maxFdsPerMessage) :
    (events.foldl (step rt m timeoutMs) (start k l)).Inv m l path
      (k.waitingAt l.sock.fd ++ arrivals path events) (events.countP DrainEvent.isTurn) := by
  induction events using List.reverseRecOn with
  | nil =>
    refine ⟨rfl, hl, hqueued, ⟨[], ?_, .nil⟩, fun _ => rfl, nofun⟩
    simp [arrivals, start]
  | append_singleton past event ih =>
    have hpast := ih fun message hmessage => harrivals message (List.mem_append_left _ hmessage)
    rw [Runs.after_concat]
    cases event with
    | arrives message =>
      have hfew := harrivals message (List.mem_append_right _ List.mem_cons_self)
      have hstep := @Inv.arrives rt m timeoutMs _ _ _ _ _ hpast message hfew
      simpa [arrivals, DrainEvent.arrival, DrainEvent.isTurn, List.filterMap_cons] using hstep
    | turns choices =>
      have hstep := @Inv.turns rt m timeoutMs _ _ _ _ _ hpast hsize choices
      simpa [arrivals, DrainEvent.arrival, DrainEvent.isTurn, List.filterMap_cons] using hstep

end Draining

/-- Whatever arrives between its turns, and whatever fails: what a `receive_all` with
room for bytes or descriptors has received are the first of the datagrams, in order
and each once, and the others wait. It returns them all, after a look that found no
datagram waiting, and it has ended when it has had more turns than there are
datagrams. -/
theorem drained_in_order (rt : Runtime) (m : Machine) (timeoutMs : Int) {l : FakeNotifyListener} {path : Bytes}
    {k : Kernel} (hl : l.Listening path k) (hsize : l.bufsize ≠ 0 ∨ l.maxFds ≠ 0)
    (hqueued : ∀ message ∈ k.waitingAt l.sock.fd, message.files.length ≤ maxFdsPerMessage)
    (events : List DrainEvent)
    (harrivals : ∀ message, .arrives message ∈ events → message.files.length ≤ maxFdsPerMessage) :
    let d := events.foldl (Draining.step rt m timeoutMs) (.start k l)
    let total := k.waitingAt l.sock.fd ++ Draining.arrivals path events
    (∃ taken, total = taken ++ d.kernel.waitingAt l.sock.fd ∧
      List.Forall₂ (FakeNotifyListener.Delivered m l) taken d.received) ∧
    (∀ received met, d.result = some (.ok received, met) →
      received = d.received.map Prod.fst ∧ met.waitingAt l.sock.fd = []) ∧
    (total.length < events.countP DrainEvent.isTurn → d.result ≠ none) := by
  intro d total
  have hinv := @Draining.inv_run m l path rt timeoutMs k hl hsize hqueued events harrivals
  refine ⟨hinv.queue, hinv.ended, fun hturns hrunning => ?_⟩
  obtain ⟨taken, htotal, hdelivered⟩ := hinv.queue
  have hreceived := hinv.running hrunning
  have hlength : total.length = taken.length + (d.kernel.waitingAt l.sock.fd).length := by
    rw [← List.length_append]
    exact congrArg List.length htotal
  have htaken := hdelivered.length_eq
  omega

namespace FakeNotifyListener

/-- The second datagram arrives when the first has been taken. -/
theorem drained_in_order_two :
    let events := [DrainEvent.turns fun _ => ⟨none, 0, 0, 0, 0⟩, .arrives (stored []),
      .turns fun _ => ⟨none, 0, 0, 0, 0⟩, .turns fun _ => ⟨none, 0, 0, 0, 0⟩]
    let d := events.foldl (Draining.step cpython wide 200) (.start (storing [3, 4]).2.kernel defaultListener)
    (∃ taken, List.Forall₂ (Delivered wide defaultListener) taken d.received ∧
      taken ++ d.kernel.waitingAt 20 = [stored [3, 4], stored []]) ∧
      d.result.map Prod.fst = some (.ok [⟨bytes "FDSTORE=1\n", [0, 1]⟩, ⟨bytes "FDSTORE=1\n", []⟩]) := by
  intro events d
  have hlistens : Listening defaultListener (0 :: bytes "notify") (storing [3, 4]).2.kernel :=
    ⟨0, ⟨0 :: bytes "notify", 0, 0⟩, by decide, rfl, rfl, rfl, by decide, by decide⟩
  have hwaiting : (storing [3, 4]).2.kernel.waitingAt defaultListener.sock.fd = [stored [3, 4]] := rfl
  have hqueued : ∀ message ∈ (storing [3, 4]).2.kernel.waitingAt defaultListener.sock.fd,
      message.files.length ≤ maxFdsPerMessage := by
    rw [hwaiting]
    decide
  have harrivals : ∀ message, .arrives message ∈ events → message.files.length ≤ maxFdsPerMessage := by
    intro message hmessage
    simp only [events, List.mem_cons, reduceCtorEq, DrainEvent.arrives.injEq, List.not_mem_nil, or_false,
      false_or] at hmessage
    rw [hmessage]
    decide
  obtain ⟨⟨taken, htotal, hdelivered⟩, -, -⟩ :=
    drained_in_order cpython wide 200 hlistens (.inl (by decide)) hqueued events harrivals
  exact ⟨⟨taken, hdelivered, htotal.symm⟩, rfl⟩

end FakeNotifyListener

end Mpsystemd
