import Mpsystemd.Names
import Mpsystemd.Testbed
import Mpsystemd.UnixPortText

/-! The two backends under the notifiers, the module level functions and the
listener, each with the codec of its interpreter: over whole runs they do the same. -/

namespace Mpsystemd

open Struct (Machine)

variable {σ : Type} {rt rt' : Runtime} {m : Machine} {k : Kernel}

/-! Closing. -/

namespace UnixDatagram

theorem close_eq (rt : Runtime) (sock : UnixDatagram) : close rt sock =
    if 0 ≤ sock.fd then
      .call (.close sock.fd) fun reply =>
        .ret (if rt.micropython then .ok () else check reply, { sock with fd := -1 })
    else .ret (.ok (), sock) := by
  show (if 0 ≤ sock.fd then _ else _ : Py UnixDatagram Unit) sock = _
  by_cases h0 : 0 ≤ sock.fd
  · rw [if_pos h0, if_pos h0]
    split
    · rfl
    · rfl
  · rw [if_neg h0, if_neg h0]
    rfl

theorem agree_close {sock : UnixDatagram} (hopen : 0 ≤ sock.fd → ∃ file, k.fileAt sock.fd = some file) :
    Method.Agree Kernel.contract (close rt) (close rt') sock k := by
  show Prog.Agree _ (close rt sock) (close rt' sock) k
  rw [close_eq, close_eq]
  by_cases h0 : 0 ≤ sock.fd
  · obtain ⟨file, hfile⟩ := hopen h0
    rw [if_pos h0, if_pos h0]
    refine .call trivial ?_
    rintro reply k' ⟨c, hc⟩
    rw [Kernel.perform_close hfile] at hc
    cases hc
    have hcheck : ∀ micropython : Bool,
        (if micropython then .ok () else check (.ok ()) : Except PyErr Unit) = .ok () := by decide
    rw [hcheck, hcheck]
    exact .ret _ _
  · rw [if_neg h0, if_neg h0]
    exact .ret _ _

/-- Sizes that both backends take, of which one is not 0. -/
structure Sizes (m : Machine) (bufsize maxFds : Int) : Prop where
  nonneg : 0 ≤ bufsize ∧ 0 ≤ maxFds
  nonzero : bufsize ≠ 0 ∨ maxFds ≠ 0
  fits : bufsize < 2 ^ (8 * m.word - 1)
  room : maxFds * fdSize ≤ 0x7FFFFFFF - (MicroPython.cmsgHdrSize m + MicroPython.cmsgAlign m 1)

theorem agree_recv {sock : UnixDatagram} {bufsize maxFds : Int} {s : σ} (hsizes : Sizes m bufsize maxFds)
    (hcount : ∀ message ∈ k.waitingAt sock.fd, message.files.length ≤ maxFdsPerMessage) :
    Method.Agree Kernel.contract (CPython.recv m sock bufsize maxFds) (MicroPython.recv m sock bufsize maxFds)
      s k := by
  obtain ⟨hbufsize, hmaxFds⟩ := hsizes.nonneg
  have hbytearray : ∀ size : Int, 0 ≤ size → MicroPython.bytearray size = .ok (List.replicate size.toNat 0) :=
    fun size hsize => if_pos hsize
  rw [CPython.recv, MicroPython.recv]
  by_cases hmax : maxFds = 0
  · have hnonzero : bufsize.toNat ≠ 0 := by
      have := hsizes.nonzero
      omega
    rw [if_pos hmax, if_pos hmax, bufferSize_ok ⟨hbufsize, hsizes.fits⟩, hbytearray bufsize hbufsize,
      Method.lift_ok_bind, Method.lift_ok_bind, if_neg hnonzero, List.length_replicate]
    exact Py.agree_self _ s k
  · have hspace : 0 ≤ (fdSize : Int) * maxFds := Int.mul_nonneg (Int.natCast_nonneg _) hmaxFds
    have halign := (MicroPython.cmsgAlign_ge m (fdSize * maxFds)).1
    rw [if_neg hmax, if_neg hmax, mul_comm, cmsgSpace_ok ⟨hspace, by rw [mul_comm]; exact hsizes.room⟩,
      bufferSize_ok ⟨hbufsize, hsizes.fits⟩, hbytearray bufsize hbufsize, hbytearray _ (by omega)]
    simp only [Method.lift_ok_bind]
    rw [List.length_replicate, List.length_replicate, controlRoom_eq, ← Method.bind_assoc, ← Method.bind_assoc]
    apply (Py.agree_self _ s k).bind
    apply ends_attempt (.recvmsg sock.fd bufsize.toNat (capacity m maxFds)) id
      (fun _ => k.receive sock.fd bufsize.toNat (capacity m maxFds)) (fun c => ⟨rfl, rfl⟩) _ fun e => trivial
    intro c received k' hreceive
    obtain ⟨message, rest, hwaiting, -, hfds, rfl⟩ := Kernel.receive_eq_ok hreceive
    obtain ⟨hparse, hextracted⟩ := rights_read_back (hcount message (hwaiting ▸ List.mem_cons_self)) hfds
    rw [hextracted, hparse, Method.lift_ok_bind]
    exact Py.agree_self _ s _

theorem sendWithFds_of_ints {fds : List Fd} (hints : ∀ fd ∈ fds, Machine.IsInt fd) (sock : UnixDatagram)
    (data : Bytes) : (sock.sendWithFds rt data fds : Py σ Nat) = sock.sendWithFds rt' data fds := by
  have hpack : ∀ (rt : Runtime), ∀ fd ∈ fds, packFd rt fd = .ok fd := fun rt fd hfd => if_pos (hints fd hfd)
  have hrights : fds.mapM (packFd rt) = fds.mapM (packFd rt') :=
    Fallible.mapM_congr fun fd hfd => (hpack rt fd hfd).trans (hpack rt' fd hfd).symm
  rw [sendWithFds, sendWithFds, hrights]

end UnixDatagram

/-! What is sent. -/

theorem checkName_of_ascii (rt rt' : Runtime) {name : Str} (h : Ascii name) :
    checkName rt name = checkName rt' name := by
  rw [checkName, checkName, upper_of_ascii rt (.inl h), upper_of_ascii rt' (.inl h)]

theorem buildPayload_of_ascii (rt rt' : Runtime) {fields : Dict Str Value}
    (h : ∀ name ∈ fields.entries.map Prod.fst, Ascii name) (states : List StrOrBytes) :
    buildPayload rt states fields = buildPayload rt' states fields := by
  have hassignments : fields.sorted.mapM (assignment rt) = fields.sorted.mapM (assignment rt') := by
    refine Fallible.mapM_congr fun entry hentry => ?_
    have hname := h entry.1 (List.mem_map_of_mem (Dict.mem_sorted.mp hentry))
    rw [assignment, assignment, checkName_of_ascii rt rt' hname]
  rw [buildPayload, buildPayload, payloadLines, payloadLines, hassignments]

theorem ascii_keywords {fields : List (String × Value)} (h : ∀ field ∈ fields, Ascii (str field.1)) :
    ∀ name ∈ (keywords fields).entries.map Prod.fst, Ascii name := by
  intro name hname
  rcases Dict.mem_keys_setAll.mp hname with hkey | hempty
  · rw [List.map_map] at hkey
    obtain ⟨field, hfield, rfl⟩ := List.mem_map.mp hkey
    exact h field hfield
  · cases hempty

namespace Notifier

theorem sendRaw_of_ints (rt rt' : Runtime) {fds : List Fd} (hints : ∀ fd ∈ fds, Machine.IsInt fd)
    (payload : StrOrBytes) : sendRaw rt payload fds = sendRaw rt' payload fds := by
  have hsend : ∀ (sock : UnixDatagram) (data : Bytes),
      (sock.sendWithFds rt data fds : Py Notifier Nat) = sock.sendWithFds rt' data fds :=
    UnixDatagram.sendWithFds_of_ints hints
  simp only [sendRaw, hsend]

theorem notify_of_ascii (rt rt' : Runtime) {fields : Dict Str Value}
    (h : ∀ name ∈ fields.entries.map Prod.fst, Ascii name) (states : List StrOrBytes) :
    notify rt states fields = notify rt' states fields := by
  have hsend : ∀ payload, sendRaw rt payload [] = sendRaw rt' payload [] :=
    sendRaw_of_ints rt rt' (List.forall_mem_nil _)
  simp only [notify, buildPayload_of_ascii rt rt' h, hsend]

end Notifier

namespace Notification

/-- The names of its fields are ASCII and its descriptors C ints, or it has neither. -/
def Plain : Notification → Prop
  | notify _ fields => ∀ name ∈ fields.entries.map Prod.fst, Ascii name
  | fdstore fds _ _ => ∀ fd ∈ fds.toList, Machine.IsInt fd
  | _ => True

theorem ascii_status {name : String} (hname : Ascii (str name)) {value : Value} (text : Option Value) :
    ∀ field ∈ (name, value) :: keyword? "STATUS" text, Ascii (str field.1) := by
  have hstatus : Ascii (str "STATUS") := by decide
  cases text with
  | none => exact List.forall_mem_singleton.mpr hname
  | some text => exact List.forall_mem_cons.mpr ⟨hname, List.forall_mem_singleton.mpr hstatus⟩

theorem ascii_storeFields (name : Option Str) (poll : Option Bool) :
    ∀ field ∈ storeFields name poll, Ascii (str field.1) := by
  have hnames : ∀ name ∈ storeNames, Ascii name := by decide
  exact fun field hfield => hnames _ ((storeFields_names name poll).subset (List.mem_map_of_mem hfield))

theorem method_plain {c : Notification} (h : c.Plain) : c.method rt = c.method rt' := by
  have hnotify : ∀ fields : List (String × Value), (∀ field ∈ fields, Ascii (str field.1)) →
      Notifier.notify rt [] (keywords fields) = Notifier.notify rt' [] (keywords fields) :=
    fun fields hfields => Notifier.notify_of_ascii rt rt' (ascii_keywords hfields) []
  have hone : ∀ (name : String) (value : Value), Ascii (str name) →
      Notifier.notify rt [] (keywords [(name, value)]) = Notifier.notify rt' [] (keywords [(name, value)]) :=
    fun name value hname => hnotify _ (List.forall_mem_singleton.mpr hname)
  cases c with
  | notify states fields => exact Notifier.notify_of_ascii rt rt' h states
  | ready text => exact hnotify _ (ascii_status (by decide) text)
  | stopping text => exact hnotify _ (ascii_status (by decide) text)
  | reloading text =>
    have hreload := fun now : Nat => hnotify
      (("RELOADING", .int 1) :: ("MONOTONIC_USEC", .int now) :: keyword? "STATUS" text)
      (List.forall_mem_cons.mpr ⟨by decide, ascii_status (by decide) text⟩)
    simp only [method, Notifier.reloading, hreload]
  | status text => exact hone "STATUS" text (by decide)
  | errno value =>
    simp only [method, Notifier.errno, hone "ERRNO" _ (by decide)]
  | mainPid pid =>
    cases pid with
    | none => simp only [method, Notifier.mainPid, hone "MAINPID" _ (by decide)]
    | some pid => simp only [method, Notifier.mainPid, hone "MAINPID" _ (by decide)]
  | extendTimeout usec => simp only [method, Notifier.extendTimeout, hone "EXTEND_TIMEOUT_USEC" _ (by decide)]
  | watchdogPing => exact hone "WATCHDOG" _ (by decide)
  | watchdogTrigger => exact hone "WATCHDOG" _ (by decide)
  | fdstore fds name poll =>
    have hbuild := fun name : Option Str =>
      buildPayload_of_ascii rt rt' (ascii_keywords (ascii_storeFields name poll)) []
    have hsend := Notifier.sendRaw_of_ints rt rt' h
    simp only [storeFields] at hbuild
    simp only [method, Notifier.fdstore, hbuild, hsend]
  | fdstoreRemove name =>
    have hfdname : Ascii (str "FDNAME") := by decide
    have hremove := fun name : Str => hnotify [("FDSTOREREMOVE", .int 1), ("FDNAME", .text name)]
      (List.forall_mem_cons.mpr ⟨by decide, List.forall_mem_singleton.mpr hfdname⟩)
    simp only [method, Notifier.fdstoreRemove, hremove]

/-- Plain, and its texts are such that both codecs take them. -/
def Neutral (c : Notification) : Prop := c.Plain ∧ c.WellFormed

theorem method_neutral {c : Notification} (h : c.Neutral) : c.method rt = MicroPython.method rt' c := by
  rw [@method_plain rt rt' c h.1, MicroPython.method_of_wellFormed rt' h.2]

end Notification

/-! The methods on either backend. -/

namespace Notifier

theorem agree_close {n : Notifier}
    (hopen : ∀ sock, n.sock = some sock → 0 ≤ sock.fd → ∃ file, k.fileAt sock.fd = some file) :
    Method.Agree Kernel.contract (close rt) (close rt') n k := by
  rw [close, close]
  apply (Py.agree_self Method.attributes n k).bind
  refine Method.obeys_attributes.mpr ?_
  cases hsock : n.sock with
  | none => exact Py.agree_self _ n k
  | some sock =>
    apply Method.Agree.bind (Method.Agree.zoom (UnixDatagram.agree_close (hopen sock hsock)))
    exact Py.ends_of_forall (fun _ n k => Py.agree_self _ n k) (fun _ _ _ => trivial) _ n k

theorem agree_close_connects {path : Bytes} {n n' : Notifier} {k' k'' : Kernel} (hsock : n.sock = none)
    (hconnects : Connects path n n' k k') (htable : k''.table = k'.table) :
    Method.Agree Kernel.contract (close rt) (close rt') n' k'' := by
  apply agree_close
  intro sock hsome h0
  rcases hconnects with ⟨rfl, -⟩ | ⟨-, fd, hfree, rfl, rfl⟩
  · cases hsock.symm.trans hsome
  · cases hsome
    refine ⟨.socket, ?_⟩
    rw [Kernel.fileAt, htable, Kernel.install_table, Function.update_self]
    rfl

end Notifier

theorem agree_newNotifier (haddress : ∀ address, k.env notifySocketEnv = some address → Encodable address) (s : σ) :
    Method.Agree Kernel.contract (Notifier.new none) MicroPython.newNotifier s k := by
  have hof : Notifier.ofAddress ((k.env notifySocketEnv).map .text) =
      MicroPython.ofAddress ((k.env notifySocketEnv).map .text) := by
    refine (MicroPython.ofAddress_of_encodable fun text htext => ?_).symm
    obtain ⟨address, henv, heq⟩ := Option.map_eq_some_iff.mp htext
    cases heq
    exact haddress _ henv
  apply (Py.agree_self _ s k).bind
  refine (Py.does_getenv.bind Py.does_pure).mono ?_ fun _ _ _ _ => trivial
  rintro address s₁ k₁ ⟨hvalue, -, -⟩
  rw [← Except.ok.inj hvalue, hof]
  exact Py.agree_self _ _ _

theorem Notification.agree_function {c : Notification} (h : c.Neutral)
    (haddress : ∀ address, k.env notifySocketEnv = some address → Encodable address) (s : σ) :
    Method.Agree Kernel.contract (c.function rt) (MicroPython.function rt' c) s k := by
  rw [function_eq, withNotifier, MicroPython.function, ← @method_neutral rt rt' c h]
  apply (agree_newNotifier haddress s).bind
  refine (does_newNotifier rfl).mono ?_ fun _ _ _ _ => trivial
  rintro n s₁ k₁ ⟨hn, hs, hk⟩
  rw [hs, hk]
  have hsock := Notifier.sock_ofAddress hn
  apply Method.Agree.zoom
  apply (Py.agree_self _ n k).ensuring
  cases hpath : n.sunPath with
  | none =>
    have hrefl : Notifier.Connects [] n n k k := .refl
    apply Notification.ends_method_unset hpath
    · exact Notifier.agree_close_connects hsock hrefl rfl
    · exact fun e => Notifier.agree_close_connects hsock hrefl rfl
  | some path =>
    apply Notification.ends_method (Notifier.reaches_ofAddress hn hpath)
    · exact fun n' k' message hconnects _ => Notifier.agree_close_connects hsock hconnects rfl
    · exact fun e n' k' hconnects => Notifier.agree_close_connects hsock hconnects rfl

namespace FakeNotifyListener

theorem agree_receive (hcpython : rt.micropython = false) (hmicropython : rt'.micropython = true)
    {l : FakeNotifyListener} (h0 : 0 ≤ l.sock.fd) (hsizes : UnixDatagram.Sizes m l.bufsize l.maxFds)
    (hcount : ∀ message ∈ k.waitingAt l.sock.fd, message.files.length ≤ maxFdsPerMessage) (timeoutMs : Int) :
    Method.Agree Kernel.contract (receive rt m timeoutMs) (receive rt' m timeoutMs) l k := by
  have hpoll : ∀ rt : Runtime, (pollFd rt l.sock.fd pollin timeoutMs : Py FakeNotifyListener Nat) =
      (do Method.lift (check (← sys (.poll l.sock.fd pollin timeoutMs)))) :=
    fun rt => if_neg fun hneg => absurd hneg.1 (not_lt.mpr h0)
  rw [receive, receive]
  apply (Py.agree_self Method.attributes l k).bind
  refine Method.obeys_attributes.mpr ?_
  rw [hpoll, hpoll]
  apply (Py.agree_self _ l k).bind
  apply ends_attempt (.poll l.sock.fd pollin timeoutMs) id
    (fun c => .ok (k.events pollin c.events l.sock.fd, k)) (fun c => ⟨rfl, rfl⟩) _ fun e => trivial
  intro c events k' hevents
  cases hevents
  split
  · exact Py.agree_self _ l k
  · rw [UnixDatagram.recv, UnixDatagram.recv, if_neg (by simp [hcpython]), if_pos hmicropython]
    apply (UnixDatagram.agree_recv hsizes hcount).bind
    exact Py.ends_of_forall (fun _ l k => Py.agree_self _ l k) (fun _ _ _ => trivial) _ l k

end FakeNotifyListener

/-! Whole runs. -/

/-- The step on the unix port, with the codec that it has. -/
def MicroPython.step (rt : Runtime) (m : Machine) (t : Testbed) : TestEvent × (Nat → Choice) → Testbed
  | (.notifies i c, choices) => t.withNotice i c ((method rt c).run (t.notifiers i) ⟨t.kernel, choices⟩)
  | (.calls c, choices) => t.withCall c ((function rt c).run () ⟨t.kernel, choices⟩)
  | event => t.step rt m event

/-- What both codecs take: a notification that is neutral, and for a module level
function also an address of the environment that has no surrogates. -/
def TestEvent.Neutral (t : Testbed) : TestEvent → Prop
  | notifies _ c => c.Neutral
  | calls c => c.Neutral ∧ ∀ address, t.kernel.env notifySocketEnv = some address → Encodable address
  | _ => True

namespace Testbed

/-- The next event has the same result on either backend, an error included. Only
with a listener that was closed the backends differ: CPython does not poll it. -/
structure Alike (rt rt' : Runtime) (m : Machine) (t : Testbed) : Prop where
  notifies : ∀ (i : Nat) (c : Notification) (choices : Nat → Choice), c.Neutral →
    (c.method rt).run (t.notifiers i) ⟨t.kernel, choices⟩ =
      (MicroPython.method rt' c).run (t.notifiers i) ⟨t.kernel, choices⟩
  calls : ∀ (c : Notification) (choices : Nat → Choice), (TestEvent.calls c).Neutral t →
    (c.function rt).run () ⟨t.kernel, choices⟩ = (MicroPython.function rt' c).run () ⟨t.kernel, choices⟩
  closesNotifier : ∀ (i : Nat) (choices : Nat → Choice),
    (Notifier.close rt).run (t.notifiers i) ⟨t.kernel, choices⟩ =
      (Notifier.close rt').run (t.notifiers i) ⟨t.kernel, choices⟩
  receives : 0 ≤ t.listener.sock.fd → ∀ (timeoutMs : Int) (choices : Nat → Choice),
    (FakeNotifyListener.receive rt m timeoutMs).run t.listener ⟨t.kernel, choices⟩ =
      (FakeNotifyListener.receive rt' m timeoutMs).run t.listener ⟨t.kernel, choices⟩
  closesListener : ∀ choices : Nat → Choice,
    (FakeNotifyListener.close rt).run t.listener ⟨t.kernel, choices⟩ =
      (FakeNotifyListener.close rt').run t.listener ⟨t.kernel, choices⟩

variable {base : Kernel} {index : Nat} {t : Testbed} {l : FakeNotifyListener} {path : Bytes}
  {earlier : List Message}

theorem run_eq_of_agree {α : Type} {method method' : Py σ α} {s : σ}
    (h : Method.Agree Kernel.contract method method' s k) (choices : Nat → Choice) :
    method.run s ⟨k, choices⟩ = method'.run s ⟨k, choices⟩ := (h.run Kernel.honouredBy_world rfl).1

theorem Inv.alike (h : t.Inv rt m l path base index earlier) (hcpython : rt.micropython = false)
    (hmicropython : rt'.micropython = true) (hsizes : UnixDatagram.Sizes m l.bufsize l.maxFds) :
    t.Alike rt rt' m where
  notifies i c choices hneutral := by rw [@Notification.method_neutral rt rt' c hneutral]
  calls c choices hneutral := run_eq_of_agree (Notification.agree_function hneutral.1 hneutral.2 ()) choices
  closesNotifier i choices := by
    refine run_eq_of_agree (Notifier.agree_close fun sock hsock _ => ?_) choices
    obtain ⟨-, -, file, hfile, -⟩ := h.accounted.held sock.fd (.notifier i) ⟨sock, hsock, rfl⟩
    exact ⟨file, hfile⟩
  receives h0 timeoutMs choices := by
    obtain ⟨messages, hr⟩ := h.relayed
    rw [← hr.bufsize, ← hr.maxFds] at hsizes
    exact run_eq_of_agree (FakeNotifyListener.agree_receive hcpython hmicropython h0 hsizes
      (few_waiting h.accounted hr h0) timeoutMs) choices
  closesListener choices := by
    refine run_eq_of_agree (Method.Agree.zoom (UnixDatagram.agree_close fun h0 => ?_)) choices
    obtain ⟨-, -, file, hfile, -⟩ := h.accounted.held t.listener.sock.fd .listener ⟨h0, rfl⟩
    exact ⟨file, hfile⟩

theorem step_closed (hsize : t.listener.bufsize ≠ 0 ∨ t.listener.maxFds ≠ 0) (hclosed : ¬ 0 ≤ t.listener.sock.fd)
    (timeoutMs : Int) (choices : Nat → Choice) : t.step rt m (.receives timeoutMs, choices) = t := by
  have hends : Py.Ends (FakeNotifyListener.receive rt m timeoutMs)
      (fun result listener k => t.withReceipt (.ok result) listener k = t)
      (fun e listener k => t.withReceipt (.error e) listener k = t) t.listener t.kernel := by
    apply FakeNotifyListener.ends_receive hsize
    · exact fun h0 => absurd h0 hclosed
    · exact fun _ => withReceipt_none
    · exact fun h0 => absurd h0 hclosed
    · exact withReceipt_error
  exact @outcome_of_ends _ _ _ (fun result listener k => t.withReceipt result listener k = t) _
    ⟨t.kernel, choices⟩ hends

theorem Alike.step_eq (halike : t.Alike rt rt' m) (hsize : t.listener.bufsize ≠ 0 ∨ t.listener.maxFds ≠ 0)
    {event : TestEvent} (hneutral : event.Neutral t) (choices : Nat → Choice) :
    t.step rt m (event, choices) = MicroPython.step rt' m t (event, choices) := by
  cases event with
  | notifies i c => rw [step, MicroPython.step, halike.notifies i c choices hneutral]
  | calls c => rw [step, MicroPython.step, halike.calls c choices hneutral]
  | setsEnvironment env => rfl
  | closesNotifier i =>
    show t.step rt m (.closesNotifier i, choices) = t.step rt' m (.closesNotifier i, choices)
    rw [step, step, halike.closesNotifier i choices]
  | receives timeoutMs =>
    show t.step rt m (.receives timeoutMs, choices) = t.step rt' m (.receives timeoutMs, choices)
    by_cases h0 : 0 ≤ t.listener.sock.fd
    · rw [step, step, halike.receives h0 timeoutMs choices]
    · rw [step_closed hsize h0, step_closed hsize h0]
  | closesFds j => rfl
  | closesListener =>
    show t.step rt m (.closesListener, choices) = t.step rt' m (.closesListener, choices)
    rw [step, step, halike.closesListener choices]

/-- A run of neutral events on CPython. -/
abbrev RunsNeutral (rt : Runtime) (m : Machine) (t : Testbed) (events : List (TestEvent × (Nat → Choice))) : Prop :=
  Runs.Each (step rt m) (fun t event => event.1.Neutral t) t events

theorem Inv.step_eq (h : t.Inv rt m l path base index earlier) (hcpython : rt.micropython = false)
    (hmicropython : rt'.micropython = true) (hsizes : UnixDatagram.Sizes m l.bufsize l.maxFds)
    {event : TestEvent × (Nat → Choice)} (hneutral : event.1.Neutral t) :
    t.step rt m event = MicroPython.step rt' m t event := by
  obtain ⟨messages, hr⟩ := h.relayed
  have hsize : t.listener.bufsize ≠ 0 ∨ t.listener.maxFds ≠ 0 := by
    rw [hr.bufsize, hr.maxFds]
    exact hsizes.nonzero
  exact (h.alike hcpython hmicropython hsizes).step_eq hsize hneutral event.2

end Testbed

/-- The two backends do the same over whole runs of notifiers, module level
functions and a listener, as long as their texts are such that both codecs take
them: every event leaves the same, and the next one has the same result. -/
theorem backends_agree (m : Machine) {rt rt' : Runtime} (hcpython : rt.micropython = false)
    (hmicropython : rt'.micropython = true) {urandom : Bytes} {address : Option StrOrBytes} {maxFds bufsize : Int}
    {w w' : World} {l : FakeNotifyListener}
    (hnew : (FakeNotifyListener.new urandom address maxFds bufsize).run () w = ((.ok l, ()), w'))
    (hsizes : UnixDatagram.Sizes m bufsize maxFds) {notifiers : Nat → Notifier}
    (hnotifiers : ∀ i, ∃ address, Notifier.ofAddress address = .ok (notifiers i))
    {events : List (TestEvent × (Nat → Choice))}
    (hneutral : Testbed.RunsNeutral rt m (.start w'.kernel l notifiers) events) :
    let t := events.foldl (Testbed.step rt m) (.start w'.kernel l notifiers)
    t = events.foldl (MicroPython.step rt' m) (.start w'.kernel l notifiers) ∧ t.Alike rt rt' m := by
  obtain ⟨hmaxFds, hbufsize, path, -, hstart⟩ := @Testbed.inv_new rt m l _ _ _ _ _ _ hnew _ hnotifiers
  rw [← hbufsize, ← hmaxFds] at hsizes
  let Inv (t : Testbed) : Prop := t.Inv rt m l path w.kernel w.kernel.inboxes.length w.kernel.sent
  have hstep : ∀ (t : Testbed) (event : TestEvent × (Nat → Choice)), Inv t → Inv (t.step rt m event) :=
    fun _ event h => h.step hsizes.nonzero event
  have hsame := Runs.foldl_eq_of_each Inv hstart hstep
    (fun _ _ h hevent => h.step_eq hcpython hmicropython hsizes hevent) hneutral
  exact ⟨hsame, (Runs.invariant Inv hstart hstep events).alike hcpython hmicropython hsizes⟩

namespace Testbed

open FakeNotifyListener (defaultListener listening nineOpen notifyAddress cpython wide)

theorem backends_agree_stored :
    afterStoring =
      storingTwo.foldl (MicroPython.step .unixPort wide)
        (start listening.2.kernel defaultListener fun _ => atAddress) := by
  have hnew : (FakeNotifyListener.new [] (some notifyAddress) 8 65536).run () nineOpen =
      ((.ok defaultListener, ()), listening.2) := rfl
  have hsizes : UnixDatagram.Sizes wide 65536 8 := ⟨by decide, .inl (by decide), by decide, by decide⟩
  have hints : ∀ fd ∈ [(3 : Fd), 4], Machine.IsInt fd := by simp [Machine.IsInt]
  have hready : (Notification.ready none).Neutral := ⟨trivial, fun _ htext => by cases htext⟩
  have hstore : (Notification.fdstore (.many [3, 4]) (some (str "conn")) none).Neutral := by
    refine ⟨hints, fun text htext => ?_⟩
    cases htext
    exact encodable_str "conn"
  have hneutral : RunsNeutral cpython wide
      (start listening.2.kernel defaultListener fun _ => atAddress) storingTwo :=
    ⟨hready, hstore, trivial, trivial, trivial, trivial, trivial⟩
  exact (backends_agree wide rfl rfl hnew hsizes (fun _ => ⟨_, atAddress_eq⟩) hneutral).1

end Testbed

end Mpsystemd
