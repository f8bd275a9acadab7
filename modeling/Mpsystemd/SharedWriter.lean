import Mpsystemd.JournalHandler
import Mpsystemd.Submission

/-! The writer that the journal module shares between its functions and the
handlers made without a writer of their own. -/

namespace Mpsystemd

variable {ε α : Type}

namespace Journal

def journalSocket : Str := str "/run/systemd/journal/socket"

/-- Where the shared writers send. -/
def path : Bytes := bytes "/run/systemd/journal/socket"

/-- What is submitted to a writer: the fields of an entry, or its body. -/
inductive Entry where
  | assembled (fields : Fields)
  | serialised (body : Bytes)

/-- An entry, with the path that its writer sends to. -/
structure Submitted where
  path : Bytes
  entry : Entry

end Journal

/-- What a call on a writer submits when it returns. -/
def JournalWriter.Call.entry : JournalWriter.Call → Option Journal.Entry
  | send message priority fields =>
    (priority.mapM id).toOption.map fun priority =>
      .assembled (.mapping (JournalWriter.entry message priority fields))
  | sendFields fields => some (.assembled fields)
  | sendRaw body => some (.serialised body)
  | close => none

namespace Journal

/-- A handler, with the place of its writer in memory. -/
structure Handler where
  writer : Nat
  identifier : Option Value
  staticFields : Dict Str Value

/-- The writers that were made are the first `made` in memory. -/
structure Module where
  writers : Nat → JournalWriter
  made : Nat
  defaultWriter : Option Nat
  handlers : List Handler

namespace Module

def imported : Module := ⟨fun _ => ⟨.text [], [], none⟩, 0, none, []⟩

def setWriter (self : Module) (i : Nat) (writer : JournalWriter) : Module :=
  { self with writers := Function.update self.writers i writer }

def addWriter (self : Module) (writer : JournalWriter) : Module :=
  { self.setWriter self.made writer with made := self.made + 1 }

/-- `JournalWriter(address)`, with the place that it gets. -/
def make (address : StrOrBytes) : Py Module Nat := do
  let writer ← Method.lift (JournalWriter.new address)
  let self ← Method.attributes
  Method.update (addWriter · writer)
  return self.made

/-- A method of the writer at a place in memory. -/
def onWriter (i : Nat) (m : Py JournalWriter α) : Py Module α :=
  Method.zoom (fun self => self.writers i) (fun self writer => self.setWriter i writer) m

/-- A method of a handler, whose writer is in memory. -/
def onHandler (handler : Handler) (formatter : Option (Formatter ε)) (m : Py (JournalHandler ε) α) : Py Module α :=
  Method.zoom (fun self => ⟨formatter, self.writers handler.writer, handler.identifier, handler.staticFields⟩)
    (fun self attributes => self.setWriter handler.writer attributes.writer) m

def writer : Py Module Nat := do
  let self ← Method.attributes
  match self.defaultWriter with
  | some i => return i
  | none =>
    let i ← make (.text journalSocket)
    Method.update ({ · with defaultWriter := some i })
    return i

/-- The priority is what `int` makes of the argument, which may be an exception. -/
def send (rt : Runtime) (message : Option Value) (priority : Option (Except PyErr Int)) (fields : Dict Str Value) :
    Py Module Bool := do
  let i ← writer
  onWriter i (JournalWriter.sendConverting rt message priority fields)

def sendFields (rt : Runtime) (fields : Fields) : Py Module Bool := do
  let i ← writer
  onWriter i (JournalWriter.sendFields rt fields)

def close (rt : Runtime) : Py Module Unit := do
  let self ← Method.attributes
  match self.defaultWriter with
  | none => return ()
  | some i =>
    onWriter i (JournalWriter.close rt)
    Method.update ({ · with defaultWriter := none })

/-- `journal_handler`, where the runtime may lack `logging`. -/
def journalHandler (logging : Bool) (given : Option Nat) (identifier : Option Value) (fields : Dict Str Value) :
    Py Module Unit := do
  if logging then
    let i ← given.elim writer pure
    Method.update fun self => { self with handlers := self.handlers ++ [⟨i, identifier, fields⟩] }
  else
    Method.raise (.unsupportedError
      "the logging module is not built into this runtime, install it with `mip install logging`")

end Module

/-- What a program does with the module. A record comes with the formatter that
its handler has by then. -/
inductive Event (ε : Type) where
  | send (message : Option Value) (priority : Option (Except PyErr Int)) (fields : Dict Str Value)
  | sendFields (fields : Fields)
  | close
  | journalHandler (identifier : Option Value) (fields : Dict Str Value)
  | emit (handler : Nat) (formatter : Option (Formatter ε)) (record : LogRecord ε)

/-- What the program runs on. -/
structure Setting (ε : Type) where
  runtime : Runtime
  logging : Bool
  traceback : Option (Traceback ε)

namespace Event

/-- The call that is made, with what it submits when it returns. -/
def method (setting : Setting ε) : Event ε → Py Module (Option Submitted)
  | send message priority fields => do
    let _ ← Module.send setting.runtime message priority fields
    return (JournalWriter.Call.send message priority fields).entry.map (Submitted.mk path)
  | sendFields fields => do
    let _ ← Module.sendFields setting.runtime fields
    return some ⟨path, .assembled fields⟩
  | close => do
    Module.close setting.runtime
    return none
  | journalHandler identifier fields => do
    Module.journalHandler setting.logging none identifier fields
    return none
  | emit i formatter record => do
    let self ← Method.attributes
    match self.handlers[i]? with
    | none => return none
    | some handler =>
      let entry ← Module.onHandler handler formatter
        (JournalHandler.submit setting.runtime setting.traceback record)
      return entry.map fun entry => ⟨(self.writers handler.writer).sunPath, .assembled (.mapping entry)⟩

end Event

def step (setting : Setting ε) (s : Module × World) (event : Event ε) : Module × World :=
  let ended := (event.method setting).run s.1 s.2
  (ended.1.2, ended.2)

/-- The program after some events, from the import of the module on. -/
def after (setting : Setting ε) (w : World) (events : List (Event ε)) : Module × World :=
  events.foldl (step setting) (Module.imported, w)

/-! What the functions of the module do, one rule for each. -/

section Rules

variable {rt : Runtime} {self self' : Module} {k : Kernel} {i : Nat} {err : PyErr → Module → Kernel → Prop}

theorem ends_handlerSubmit {tb : Option (Traceback ε)} {record : LogRecord ε} {handler : JournalHandler ε}
    {ok : Option (Dict Str Value) → JournalHandler ε → Kernel → Prop}
    {err : PyErr → JournalHandler ε → Kernel → Prop} (hnone : ok none handler k)
    (hentry : ∀ entry, Py.Ends (JournalWriter.sendFields rt (.mapping entry))
      (fun _ writer k' => ok (some entry) (handler.setWriter writer) k')
      (fun _ writer k' => ok none (handler.setWriter writer) k') handler.writer k) :
    Py.Ends (JournalHandler.submit rt tb record) ok err handler k := by
  refine Method.obeys_bind.mpr (Method.obeys_attributes.mpr (Method.obeys_handling.mpr (Method.obeys_bind.mpr ?_)))
  cases handler.message tb record with
  | error e => exact hnone
  | ok formatted =>
    exact Method.obeys_lift_ok.mpr (Method.obeys_bind.mpr (Method.obeys_zoom.mpr (hentry _)))

namespace Module

def sharedWriter : JournalWriter := ⟨.text journalSocket, path, none⟩

theorem new_journalSocket : JournalWriter.new (.text journalSocket) = .ok sharedWriter := by decide

/-- The shared writer is at `i` in `self'`; it is made when there is none in `self`. -/
inductive Shares (self : Module) : Nat → Module → Prop where
  | kept {i : Nat} (hdefault : self.defaultWriter = some i) : Shares self i self
  | made (hdefault : self.defaultWriter = none) :
      Shares self self.made { self.addWriter sharedWriter with defaultWriter := some self.made }

theorem Shares.default (h : self.Shares i self') : self'.defaultWriter = some i := by
  cases h with
  | kept hdefault => exact hdefault
  | made hdefault => rfl

theorem ends_make {address : StrOrBytes} {ok : Nat → Module → Kernel → Prop}
    (hok : ∀ writer, JournalWriter.new address = .ok writer → ok self.made (self.addWriter writer) k)
    (herr : ∀ e, err e self k) : Py.Ends (make address) ok err self k := by
  refine Method.obeys_bind.mpr ?_
  cases hnew : JournalWriter.new address with
  | error e => exact herr e
  | ok writer => exact hok writer hnew

theorem ends_writer {ok : Nat → Module → Kernel → Prop} (hok : ∀ i self', self.Shares i self' → ok i self' k) :
    Py.Ends writer ok err self k := by
  refine Method.obeys_bind.mpr (Method.obeys_attributes.mpr ?_)
  cases hdefault : self.defaultWriter with
  | some i => exact hok i self (.kept hdefault)
  | none =>
    refine Method.obeys_bind.mpr ?_
    rw [make, new_journalSocket]
    exact hok self.made _ (.made hdefault)

theorem ends_onShared {m : Py JournalWriter α} {ok : α → Module → Kernel → Prop}
    (hm : ∀ i self', self.Shares i self' → Py.Ends m (fun a writer k' => ok a (self'.setWriter i writer) k')
      (fun e writer k' => err e (self'.setWriter i writer) k') (self'.writers i) k) :
    Py.Ends (do onWriter (← writer) m) ok err self k :=
  Method.obeys_bind.mpr (ends_writer fun i self' hshares => Method.obeys_zoom.mpr (hm i self' hshares))

theorem ends_close {ok : Unit → Module → Kernel → Prop} (hnone : self.defaultWriter = none → ok () self k)
    (hsome : ∀ i, self.defaultWriter = some i → Py.Ends (JournalWriter.close rt)
      (fun _ writer k' => ok () { self.setWriter i writer with defaultWriter := none } k')
      (fun e writer k' => err e (self.setWriter i writer) k') (self.writers i) k) :
    Py.Ends (close rt) ok err self k := by
  refine Method.obeys_bind.mpr (Method.obeys_attributes.mpr ?_)
  cases hdefault : self.defaultWriter with
  | none => exact hnone hdefault
  | some i => exact Method.obeys_bind.mpr (Method.obeys_zoom.mpr (hsome i hdefault))

theorem ends_journalHandler {logging : Bool} {given : Option Nat} {identifier : Option Value}
    {fields : Dict Str Value} {ok : Unit → Module → Kernel → Prop}
    (hok : ∀ i self', given = some i ∧ self' = self ∨ self.Shares i self' →
      ok () { self' with handlers := self'.handlers ++ [⟨i, identifier, fields⟩] } k) (herr : ∀ e, err e self k) :
    Py.Ends (journalHandler logging given identifier fields) ok err self k := by
  rw [journalHandler]
  split
  · refine Method.obeys_bind.mpr ?_
    cases given with
    | none => exact ends_writer fun i self' hshares => hok i self' (.inr hshares)
    | some i => exact hok i self (.inl ⟨rfl, rfl⟩)
  · exact herr _

end Module

end Rules

/-! One socket, and none after a close. -/

variable {setting : Setting ε} {rt : Runtime} {table : Fd → Option Descriptor} {self : Module} {k : Kernel}

/-- A descriptor that the process did not have before is open. -/
def Opened (table : Fd → Option Descriptor) (k : Kernel) (fd : Fd) : Prop := table fd = none ∧ k.table fd ≠ none

def AtMostOne (table : Fd → Option Descriptor) (k : Kernel) : Prop :=
  ∀ fd fd', Opened table k fd → Opened table k fd' → fd = fd'

/-- The only descriptor that the process did not have before is the socket of the
shared writer. -/
def OnlyShared (table : Fd → Option Descriptor) (self : Module) (k : Kernel) : Prop :=
  match self.defaultWriter with
  | none => k.table = table
  | some i => JournalWriter.OwnSocketOnly table (self.writers i) k

theorem atMostOne_of_own {writer : JournalWriter} (h : JournalWriter.OwnSocketOnly table writer k) :
    AtMostOne table k := by
  cases h with
  | closed hsock htable =>
    intro fd fd' hfd
    rw [Opened, htable] at hfd
    exact absurd hfd.1 hfd.2
  | opened own peer hsock hmax hfree htable =>
    have hown : ∀ fd, Opened table k fd → fd = own := by
      intro fd hfd
      by_contra hne
      rw [Opened, htable, Function.update_of_ne hne] at hfd
      exact hfd.2 hfd.1
    intro fd fd' hfd hfd'
    rw [hown fd hfd, hown fd' hfd']

theorem not_opened (htable : k.table = table) (fd : Fd) : ¬ Opened table k fd := by
  rw [Opened, htable]
  exact fun h => h.2 h.1

theorem atMostOne_of_onlyShared (h : OnlyShared table self k) : AtMostOne table k := by
  rw [OnlyShared] at h
  split at h
  · exact fun fd _ hfd _ => absurd hfd (not_opened h fd)
  · exact atMostOne_of_own h

namespace OnlyShared

variable {i : Nat} {writer : JournalWriter}

theorem own (h : OnlyShared table self k) (hdefault : self.defaultWriter = some i) :
    JournalWriter.OwnSocketOnly table (self.writers i) k := by
  simpa only [OnlyShared, hdefault] using h

theorem of_own (hdefault : self.defaultWriter = some i) (hown : JournalWriter.OwnSocketOnly table writer k) :
    OnlyShared table (self.setWriter i writer) k := by
  simpa only [OnlyShared, Module.setWriter, hdefault, Function.update_self] using hown

theorem shares {self' : Module} (h : OnlyShared table self k) (hshares : self.Shares i self') :
    OnlyShared table self' k := by
  cases hshares with
  | kept hdefault => exact h
  | made hdefault =>
    have htable : k.table = table := by simpa only [OnlyShared, hdefault] using h
    simp only [OnlyShared, Module.addWriter, Module.setWriter, Function.update_self]
    exact .closed rfl htable

end OnlyShared

theorem ends_onShared {m : Py JournalWriter α} (h : OnlyShared table self k)
    (hm : ∀ {writer : JournalWriter}, JournalWriter.OwnSocketOnly table writer k →
      Py.Ends m (fun _ => JournalWriter.OwnSocketOnly table)
        (fun _ => JournalWriter.OwnSocketOnly table) writer k) :
    Py.Ends (do Module.onWriter (← Module.writer) m) (fun _ => OnlyShared table) (fun _ => OnlyShared table)
      self k := by
  apply Module.ends_onShared
  intro i self' hshares
  refine (hm ((h.shares hshares).own hshares.default)).mono ?_ ?_
  · exact fun _ writer k' hown => .of_own hshares.default hown
  · exact fun _ writer k' hown => .of_own hshares.default hown

theorem ends_close (h : OnlyShared table self k) :
    Py.Ends (Module.close rt) (fun _ self' k' => OnlyShared table self' k' ∧ k'.table = table) (fun _ _ _ => False)
      self k := by
  apply Module.ends_close
  · intro hdefault
    have htable : k.table = table := by simpa only [OnlyShared, hdefault] using h
    exact ⟨h, htable⟩
  · intro i hdefault
    refine (JournalWriter.ends_close (h.own hdefault)).mono ?_ fun _ _ _ => id
    exact fun _ writer k' hpost => ⟨hpost.2, hpost.2⟩

/-- A record goes through a handler only while its writer is the shared one. -/
def Event.Current (s : Module × World) : Event ε → Prop
  | emit i _ _ => ∀ handler, s.1.handlers[i]? = some handler → s.1.defaultWriter = some handler.writer
  | _ => True

theorem ends_method {event : Event ε} {w : World} (hcurrent : event.Current (self, w))
    (h : OnlyShared table self k) :
    Py.Ends (event.method setting) (fun _ => OnlyShared table) (fun _ => OnlyShared table) self k := by
  cases event with
  | send message priority fields =>
    exact Method.obeys_bind.mpr (ends_onShared h fun hown => hown.ends_sendConverting message priority fields)
  | sendFields fields => exact Method.obeys_bind.mpr (ends_onShared h fun hown => hown.ends_sendFields fields)
  | close =>
    exact Method.obeys_bind.mpr ((ends_close h).mono (fun _ _ _ hpost => hpost.1) fun _ _ _ => False.elim)
  | journalHandler identifier fields =>
    refine Method.obeys_bind.mpr (Module.ends_journalHandler ?_ fun _ => h)
    rintro i self' (⟨hgiven, -⟩ | hshares)
    · cases hgiven
    · have hshared := h.shares hshares
      exact hshared
  | emit i formatter record =>
    refine Method.obeys_bind.mpr (Method.obeys_attributes.mpr ?_)
    cases hhandler : self.handlers[i]? with
    | none => exact h
    | some handler =>
      have hdefault : self.defaultWriter = some handler.writer := hcurrent handler hhandler
      refine Method.obeys_bind.mpr (Method.obeys_zoom.mpr (ends_handlerSubmit ?_ fun entry => ?_))
      · exact .of_own hdefault (h.own hdefault)
      · refine ((h.own hdefault).ends_sendFields (.mapping entry)).mono ?_ ?_
        · exact fun _ writer k' hown => .of_own hdefault hown
        · exact fun _ writer k' hown => .of_own hdefault hown

theorem onlyShared_step {s : Module × World} {event : Event ε} (hcurrent : event.Current s)
    (h : OnlyShared table s.1 s.2.kernel) :
    OnlyShared table (step setting s event).1 (step setting s event).2.kernel :=
  (Method.outcome_iff fun _ => OnlyShared table).mp (ends_method hcurrent h).run

theorem onlyShared_after {w : World} {events : List (Event ε)}
    (hcurrent : Runs.Each (step setting) Event.Current (Module.imported, w) events) {past : List (Event ε)}
    (hpast : past <+: events) :
    OnlyShared w.kernel.table (after setting w past).1 (after setting w past).2.kernel := by
  have hstart : OnlyShared w.kernel.table Module.imported w.kernel := rfl
  exact Runs.throughout_of_each (fun s : Module × World => OnlyShared w.kernel.table s.1 s.2.kernel) hstart
    (fun _ _ => onlyShared_step) hcurrent past hpast

/-- Throughout a run at most one socket is open, and right after a close none. -/
def Tidy (setting : Setting ε) (w : World) (events : List (Event ε)) : Prop :=
  ∀ past, past <+: events → AtMostOne w.kernel.table (after setting w past).2.kernel ∧
    ∀ earlier, past = earlier ++ [.close] → ∀ fd, ¬ Opened w.kernel.table (after setting w past).2.kernel fd

/-- A run is tidy when every record in it goes through a handler whose writer is
still the shared one. -/
theorem close_leaves_none (setting : Setting ε) (w : World) (events : List (Event ε))
    (hcurrent : Runs.Each (step setting) Event.Current (Module.imported, w) events) : Tidy setting w events := by
  intro past hpast
  refine ⟨atMostOne_of_onlyShared (onlyShared_after hcurrent hpast), ?_⟩
  rintro earlier rfl
  have hbefore := onlyShared_after hcurrent ((List.prefix_append earlier [.close]).trans hpast)
  have hends : Py.Ends ((.close : Event ε).method setting) (fun _ _ k' => k'.table = w.kernel.table)
      (fun _ _ k' => k'.table = w.kernel.table) (after setting w earlier).1 (after setting w earlier).2.kernel :=
    Method.obeys_bind.mpr ((ends_close hbefore).mono (fun _ _ _ hpost => hpost.2) fun _ _ _ => False.elim)
  have hclosed : (after setting w (earlier ++ [.close])).2.kernel.table = w.kernel.table := by
    rw [after, Runs.after_concat]
    exact (Method.outcome_iff fun _ (_ : Module) (k' : Kernel) => k'.table = w.kernel.table).mp hends.run
  exact not_opened hclosed

def unixPort : Setting Unit := ⟨.unixPort, true, none⟩

def serving : World := ⟨.bare, fun n => ⟨none, n + 3, 0, 1, 0⟩⟩

def logged : Event Unit := .emit 0 none JournalHandler.failed

theorem close_leaves_none_logged : Tidy unixPort serving [.journalHandler none Dict.empty, logged, .close] := by
  refine close_leaves_none unixPort serving _ ⟨trivial, ?_, trivial, trivial⟩
  rintro handler ⟨rfl⟩
  rfl

/-- The second close knows nothing of the socket that the record opened. -/
def stale : List (Event Unit) := [.journalHandler none Dict.empty, .close, logged, .close]

theorem stale_left_open :
    (after unixPort serving stale).2.kernel.table 3 = some ⟨.socket, true⟩ ∧ ¬ Tidy unixPort serving stale := by
  have hopen : (after unixPort serving stale).2.kernel.table 3 = some ⟨.socket, true⟩ := rfl
  refine ⟨hopen, fun h => (h stale List.prefix_rfl).2 [.journalHandler none Dict.empty, .close, logged] rfl 3 ?_⟩
  rw [Opened, hopen]
  exact ⟨rfl, nofun⟩

end Journal

end Mpsystemd
