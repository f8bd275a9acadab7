import Mpsystemd.JournalWriter
import Mpsystemd.SealedMemfd

/-! A writer submits each entry once and whole, or not at all. -/

namespace Mpsystemd

/-- What journald reads of a message: its data, or the whole contents of the one
memfd attached to it when it has no data. -/
def Kernel.entryOf (k : Kernel) (message : Message) : Option Bytes :=
  if message.data ≠ [] then some message.data
  else
    match message.files with
    | [.memfd i] => k.memfds[i]?.map Memfd.contents
    | _ => none

namespace JournalWriter

/-- What a program may call on a writer. -/
inductive Call where
  | send (message : Option Value) (priority : Option (Except PyErr Int)) (fields : Dict Str Value)
  | sendFields (fields : Journal.Fields)
  | sendRaw (body : Bytes)
  | close

def Call.method (rt : Runtime) : Call → Py JournalWriter Unit
  | send message priority fields => do let _ ← sendConverting rt message priority fields
  | sendFields fields => do let _ ← JournalWriter.sendFields rt fields
  | sendRaw body => do let _ ← JournalWriter.sendRaw rt body
  | close => JournalWriter.close rt

def step (rt : Runtime) (s : JournalWriter × World) (call : Call) : JournalWriter × World :=
  let ((_, self), w) := (call.method rt).run s.1 s.2
  (self, w)

def after (rt : Runtime) (calls : List Call) (s : JournalWriter × World) : JournalWriter × World :=
  calls.foldl (step rt) s

/-- What a `sendRaw` of `body` that ends with `result` does between `k` and `k'`. -/
structure Submission (body : Bytes) (result : Except PyErr Bool) (k k' : Kernel) : Prop where
  returned : ∀ b, result = .ok b → b = true ∧
    ∃ message, k'.sent = k.sent ++ [message] ∧ (body ≠ [] → k'.entryOf message = some body)
  raised : ∀ e, result = .error e → k'.sent = k.sent
  memfd : (k'.memfds = k.memfds ∧ k'.closes = k.closes) ∨
    ∃ m, k'.memfds = k.memfds ++ [m] ∧ k'.closes = k.closes ++ [some (.memfd k.memfds.length)]

/-- Of the descriptors that were not there from the start, the process has the
writer's socket open, and no other. -/
inductive OwnSocketOnly (table : Fd → Option Descriptor) : JournalWriter → Kernel → Prop where
  | closed {self : JournalWriter} {k : Kernel} (hsock : self.sock = none) (htable : k.table = table) :
      OwnSocketOnly table self k
  | opened {self : JournalWriter} {k : Kernel} (fd : Nat) (peer : Bytes)
      (hsock : self.sock = some ⟨fd, some peer⟩) (hmax : fd < 2 ^ 31) (hfree : table fd = none)
      (htable : k.table = Function.update table fd (some ⟨.socket, true⟩)) : OwnSocketOnly table self k

variable {table : Fd → Option Descriptor} {self : JournalWriter} {k : Kernel} {rt : Runtime}

theorem OwnSocketOnly.congr {k' : Kernel} (h : OwnSocketOnly table self k) (htable : k'.table = k.table) :
    OwnSocketOnly table self k' := by
  cases h with
  | closed hsock ht => exact .closed hsock (htable.trans ht)
  | opened fd peer hsock hmax hfree ht => exact .opened fd peer hsock hmax hfree (htable.trans ht)

theorem ends_openSock (h : OwnSocketOnly table self k) {ok : UnixDatagram → JournalWriter → Kernel → Prop}
    {err : PyErr → JournalWriter → Kernel → Prop}
    (hok : ∀ (sock : UnixDatagram) (peer : Bytes) (self' : JournalWriter) (k' : Kernel),
      sock.peer = some peer → OwnSocketOnly table self' k' → k'.sent = k.sent →
      k'.memfds = k.memfds → k'.closes = k.closes → ok sock self' k')
    (herr : ∀ e, err (.osError e) self k) : Py.Ends openSock ok err self k := by
  refine Method.obeys_bind.mpr (Method.obeys_attributes.mpr ?_)
  cases h with
  | opened fd peer hsock hmax hfree htable =>
    rw [hsock]
    exact hok ⟨fd, some peer⟩ peer self k rfl (.opened fd peer hsock hmax hfree htable) rfl rfl rfl
  | closed hsock htable =>
    rw [hsock]
    refine Method.obeys_bind.mpr ?_
    apply ends_newDatagram
    · intro fd hfree
      have hfree' : table fd = none := htable ▸ hfree.2
      have htable' : (k.install fd ⟨.socket, true⟩).table =
          Function.update table fd (some ⟨.socket, true⟩) := by rw [Kernel.install_table, htable]
      exact hok ⟨fd, some self.sunPath⟩ self.sunPath _ _ rfl
        (.opened fd self.sunPath rfl hfree.1 hfree' htable') rfl rfl rfl
    · exact herr

theorem ends_sendMemfd {sock : UnixDatagram} {peer body : Bytes} (hpeer : sock.peer = some peer)
    {ok : Bool → JournalWriter → Kernel → Prop} {err : PyErr → JournalWriter → Kernel → Prop}
    (hok : ok true self ((k.post ⟨peer, [], [.memfd k.memfds.length]⟩).dropped ⟨body, 0, true⟩))
    (herr : ∀ e, err e self k) (hdropped : ∀ e m, err e self (k.dropped m)) :
    Py.Ends (sendMemfd rt sock body) ok err self k := by
  refine Method.obeys_bind.mpr ?_
  apply ends_memfdSealed _ herr hdropped
  intro fd hfree
  have hfd := k.hasMemfd_made fd ⟨body, 0, true⟩
  have hmax : (fd : Int) < 2 ^ 31 := by
    have := hfree.1
    omega
  refine Method.obeys_bind.mpr (Method.obeys_ensuring.mpr (Method.obeys_bind.mpr ?_))
  apply ends_sendWithFd hpeer (Int.natCast_nonneg fd) hmax hfd.file
  · intro n
    let posted := k.post ⟨peer, [], [.memfd k.memfds.length]⟩
    have hposted : posted.Free fd := hfree
    have hclose : (posted.made fd ⟨body, 0, true⟩).shut fd (.memfd k.memfds.length) =
        posted.dropped ⟨body, 0, true⟩ := Kernel.close_made hposted _
    have hfile := (posted.hasMemfd_made fd ⟨body, 0, true⟩).file
    refine Method.obeys_pure.mpr (ends_closeFd hfile ?_)
    exact hclose ▸ hok
  · intro e
    apply ends_closeFd hfd.file
    rw [Kernel.close_made hfree]
    exact hdropped _ _

theorem entryOf_sent {peer data : Bytes} (hdata : data ≠ []) (k : Kernel) :
    k.entryOf ⟨peer, data, []⟩ = some data := by
  rw [Kernel.entryOf, if_pos hdata]

theorem entryOf_dropped (k : Kernel) (peer body : Bytes) :
    (k.dropped ⟨body, 0, true⟩).entryOf ⟨peer, [], [.memfd k.memfds.length]⟩ = some body := by
  simp [Kernel.entryOf, Kernel.dropped]

theorem Submission.of_error {body : Bytes} {e : PyErr} : Submission body (.error e) k k where
  returned b h := by cases h
  raised _ _ := rfl
  memfd := .inl ⟨rfl, rfl⟩

theorem Submission.of_dropped {body : Bytes} {e : PyErr} (m : Memfd) :
    Submission body (.error e) k (k.dropped m) where
  returned b h := by cases h
  raised _ _ := rfl
  memfd := .inr ⟨m, rfl, rfl⟩

theorem Submission.of_sent {body : Bytes} (peer : Bytes) :
    Submission body (.ok true) k (k.post ⟨peer, body, []⟩) where
  returned b h := by
    cases h
    exact ⟨rfl, ⟨peer, body, []⟩, rfl, fun hbody => entryOf_sent hbody _⟩
  raised e h := by cases h
  memfd := .inl ⟨rfl, rfl⟩

theorem Submission.of_memfd {body : Bytes} (peer : Bytes) :
    Submission body (.ok true) k
      ((k.post ⟨peer, [], [.memfd k.memfds.length]⟩).dropped ⟨body, 0, true⟩) where
  returned b h := by
    cases h
    refine ⟨rfl, ⟨peer, [], [.memfd k.memfds.length]⟩, rfl, fun _ => ?_⟩
    exact entryOf_dropped (k.post _) peer body
  raised e h := by cases h
  memfd := .inr ⟨⟨body, 0, true⟩, rfl, rfl⟩

theorem Submission.congr {body : Bytes} {result : Except PyErr Bool} {k₁ k' : Kernel}
    (h : Submission body result k₁ k') (hsent : k₁.sent = k.sent) (hmemfds : k₁.memfds = k.memfds)
    (hcloses : k₁.closes = k.closes) : Submission body result k k' where
  returned := hsent ▸ h.returned
  raised := hsent ▸ h.raised
  memfd := hcloses ▸ hmemfds ▸ h.memfd

theorem ends_sendRaw (h : OwnSocketOnly table self k) (body : Bytes) :
    Py.Ends (sendRaw rt body)
      (fun b self' k' => Submission body (.ok b) k k' ∧ OwnSocketOnly table self' k')
      (fun e self' k' => Submission body (.error e) k k' ∧ OwnSocketOnly table self' k') self k := by
  refine Method.obeys_bind.mpr ?_
  apply ends_openSock h
  · intro sock peer self' k₁ hpeer h₁ hsent hmemfds hcloses
    refine Method.obeys_handling.mpr (Method.obeys_bind.mpr ?_)
    apply ends_send hpeer
    · intro n
      exact ⟨(Submission.of_sent peer).congr hsent hmemfds hcloses, h₁.congr rfl⟩
    · intro e
      split
      · apply ends_sendMemfd hpeer
        · exact ⟨(Submission.of_memfd peer).congr hsent hmemfds hcloses, h₁.congr rfl⟩
        · exact fun e => ⟨Submission.of_error.congr hsent hmemfds hcloses, h₁⟩
        · exact fun e m => ⟨(Submission.of_dropped m).congr hsent hmemfds hcloses, h₁.congr rfl⟩
      · exact ⟨Submission.of_error.congr hsent hmemfds hcloses, h₁⟩
  · exact fun e => ⟨Submission.of_error, h⟩

theorem OwnSocketOnly.ends_sendFields (h : OwnSocketOnly table self k) (fields : Journal.Fields) :
    Py.Ends (sendFields rt fields) (fun _ => OwnSocketOnly table) (fun _ => OwnSocketOnly table) self k := by
  refine Method.obeys_bind.mpr ?_
  cases Journal.encodeFields rt fields with
  | error e => exact h
  | ok body =>
    refine Method.obeys_lift_ok.mpr ?_
    exact (ends_sendRaw h body).mono (fun _ _ _ hpost => hpost.2) fun _ _ _ hpost => hpost.2

theorem OwnSocketOnly.ends_sendConverting (h : OwnSocketOnly table self k) (message : Option Value)
    (priority : Option (Except PyErr Int)) (fields : Dict Str Value) :
    Py.Ends (sendConverting rt message priority fields) (fun _ => OwnSocketOnly table)
      (fun _ => OwnSocketOnly table) self k := by
  refine Method.obeys_bind.mpr ?_
  cases priority.mapM id with
  | error e => exact h
  | ok priority => exact Method.obeys_lift_ok.mpr (h.ends_sendFields _)

theorem ends_close (h : OwnSocketOnly table self k) :
    Py.Ends (close rt) (fun _ self' k' => self'.sock = none ∧ k'.table = table) (fun _ _ _ => False) self k := by
  refine Method.obeys_bind.mpr (Method.obeys_attributes.mpr ?_)
  cases h with
  | closed hsock htable =>
    rw [hsock]
    exact ⟨hsock, htable⟩
  | opened fd peer hsock hmax hfree htable =>
    rw [hsock]
    have hfile : k.fileAt fd = some .socket := by simp [Kernel.fileAt, htable]
    refine Method.obeys_bind.mpr (Method.obeys_zoom.mpr ?_)
    apply ends_closeDatagram (Int.natCast_nonneg fd) hfile
    refine ⟨rfl, ?_⟩
    have hgone : Function.update table fd none = table := by rw [Function.update_eq_self_iff, hfree]
    simp [Kernel.shut, htable, hgone]

theorem ownSocketOnly_step {s : JournalWriter × World} (h : OwnSocketOnly table s.1 s.2.kernel)
    (call : Call) : OwnSocketOnly table (step rt s call).1 (step rt s call).2.kernel := by
  have hends : Py.Ends (call.method rt) (fun _ => OwnSocketOnly table) (fun _ => OwnSocketOnly table)
      s.1 s.2.kernel := by
    cases call with
    | send message priority fields => exact Method.obeys_bind.mpr (h.ends_sendConverting message priority fields)
    | sendFields fields => exact Method.obeys_bind.mpr (h.ends_sendFields fields)
    | sendRaw body =>
      refine Method.obeys_bind.mpr ?_
      exact (ends_sendRaw h body).mono (fun _ _ _ hpost => hpost.2) fun _ _ _ hpost => hpost.2
    | close => exact (ends_close h).mono (fun _ _ _ hpost => .closed hpost.1 hpost.2) fun _ _ _ => False.elim
  exact (Method.outcome_iff fun _ => OwnSocketOnly table).mp hends.run

theorem ownSocketOnly_after {s : JournalWriter × World} (h : OwnSocketOnly table s.1 s.2.kernel)
    (calls : List Call) : OwnSocketOnly table (after rt calls s).1 (after rt calls s).2.kernel :=
  Runs.invariant (fun s : JournalWriter × World => OwnSocketOnly table s.1 s.2.kernel) h
    (fun _ call hbefore => ownSocketOnly_step hbefore call) calls

theorem ownSocketOnly_new {address : StrOrBytes} {writer : JournalWriter} (k : Kernel)
    (hnew : new address = .ok writer) : OwnSocketOnly k.table writer k := by
  obtain ⟨sunPath, _, hwriter⟩ := Fallible.bind_eq_ok.mp hnew
  cases hwriter
  exact .closed rfl rfl

/-- Whatever was submitted and closed before, and however the calls into the
kernel end: an entry is handed over once and whole when `sendRaw` returns, and
not at all when it raises; a memfd made for it is closed once, and the writer
leaves no descriptor open but its socket. -/
theorem submitted_exactly_once (rt : Runtime) (address : StrOrBytes) (writer : JournalWriter) (w : World)
    (hnew : new address = .ok writer) (calls : List Call) (body : Bytes) :
    let before := after rt calls (writer, w)
    let ended := (sendRaw rt body).run before.1 before.2
    Submission body ended.1.1 before.2.kernel ended.2.kernel ∧
      OwnSocketOnly w.kernel.table before.1 before.2.kernel ∧
      OwnSocketOnly w.kernel.table ended.1.2 ended.2.kernel := by
  intro before ended
  have hbefore : OwnSocketOnly w.kernel.table before.1 before.2.kernel :=
    ownSocketOnly_after (ownSocketOnly_new w.kernel hnew) calls
  have hends : Method.outcome _ _ ended.1 ended.2.kernel := (ends_sendRaw hbefore body).run
  have hpost := (Method.outcome_iff fun result self' k' =>
    Submission body result before.2.kernel k' ∧ OwnSocketOnly w.kernel.table self' k').mp hends
  exact ⟨hpost.1, hbefore, hpost.2⟩

/-- The second entry is too large for a datagram, and stored in short pieces. -/
theorem submitted_exactly_once_large :
    let w : World := ⟨.bare, fun n => ⟨if n = 2 then some Errno.msgsize else none, n + 3, 0, 1, 0⟩⟩
    let writer : JournalWriter := ⟨.text (str "/j"), [47, 106], none⟩
    let before := after .unixPort [.sendRaw [65]] (writer, w)
    let ended := (sendRaw .unixPort [66, 67]).run before.1 before.2
    Submission [66, 67] ended.1.1 before.2.kernel ended.2.kernel ∧
      OwnSocketOnly w.kernel.table before.1 before.2.kernel ∧
      OwnSocketOnly w.kernel.table ended.1.2 ended.2.kernel :=
  submitted_exactly_once .unixPort (.text (str "/j")) _ _ (by decide) _ _

end JournalWriter

end Mpsystemd
