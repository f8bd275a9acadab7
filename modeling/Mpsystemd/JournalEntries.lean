import Mpsystemd.SharedWriter

/-! What the journal module hands over, and what journald reads in it. -/

namespace Mpsystemd

open Journal (emitted encodeFields readFields Fields)

variable {ε α : Type} {rt : Runtime}

/-! What one entry comes to. -/

namespace Journal

theorem encodeFields_ne_nil {fields : Fields} {body : Bytes} (h : encodeFields rt fields = .ok body) :
    body ≠ [] := by
  obtain ⟨entries, hentries, hread⟩ := readFields_encodeFields rt h
  rintro rfl
  have hnone : readFields [] = .ok [] := by rw [readFields, if_pos rfl]
  rw [hnone] at hread
  cases hread
  have hlength := (Fallible.mapM_eq_ok.mp hentries).length_eq
  rw [encodeFields, if_pos (List.length_eq_zero_iff.mp hlength)] at h
  cases h

/-- What journald reads of an entry in the message: its fields, or its body when that
is not empty. -/
def Entry.ReadFrom (rt : Runtime) (k : Kernel) (message : Message) : Entry → Prop
  | .assembled fields => ∃ body entries, k.entryOf message = some body ∧
      fields.items.mapM (emitted rt) = .ok entries ∧
      readFields body = .ok entries
  | .serialised body => body ≠ [] → k.entryOf message = some body

/-- The entry is in the message, which goes where its writer sends. -/
structure Relays (rt : Runtime) (submitted : Submitted) (handed : Message × Kernel) : Prop where
  peer : handed.1.peer = submitted.path
  reads : submitted.entry.ReadFrom rt handed.2 handed.1

/-- One message for an entry, and none when there is no entry. -/
def HandsOver (rt : Runtime) (k : Kernel) (k' : Kernel) : Option Submitted → Prop
  | none => k'.sent = k.sent
  | some submitted => ∃ message, k'.sent = k.sent ++ [message] ∧ Relays rt submitted (message, k')

end Journal

namespace JournalWriter

/-- The writer sends to the path. -/
structure Reaches (writer : JournalWriter) (path : Bytes) : Prop where
  sunPath : writer.sunPath = path
  sock : ∀ sock, writer.sock = some sock → sock.peer = some path

variable {self : JournalWriter} {k : Kernel} {path body : Bytes}

theorem Reaches.ends_openSock (h : self.Reaches path) {ok : UnixDatagram → JournalWriter → Kernel → Prop}
    {err : PyErr → JournalWriter → Kernel → Prop}
    (hok : ∀ (sock : UnixDatagram) (self' : JournalWriter) (k' : Kernel), sock.peer = some path →
      self'.Reaches path → k'.sent = k.sent → ok sock self' k')
    (herr : ∀ e, err e self k) : Py.Ends openSock ok err self k := by
  refine Method.obeys_bind.mpr (Method.obeys_attributes.mpr ?_)
  cases hsock : self.sock with
  | some sock => exact hok sock self k (h.sock sock hsock) h rfl
  | none =>
    refine Method.obeys_bind.mpr ?_
    apply ends_newDatagram
    · intro fd hfree
      have hpeer : some self.sunPath = some path := congrArg some h.sunPath
      exact hok ⟨fd, some self.sunPath⟩ _ _ hpeer ⟨h.sunPath, fun sock hsome => by cases hsome; exact hpeer⟩ rfl
    · exact fun e => herr _

/-- What a `sendRaw` hands over, whatever else the process has open. -/
theorem Reaches.ends_sendRaw (h : self.Reaches path) (body : Bytes) :
    Py.Ends (sendRaw rt body)
      (fun _ self' k' => self'.Reaches path ∧ ∃ message, k'.sent = k.sent ++ [message] ∧ message.peer = path ∧
        (body ≠ [] → k'.entryOf message = some body))
      (fun _ self' k' => self'.Reaches path ∧ k'.sent = k.sent) self k := by
  refine Method.obeys_bind.mpr ?_
  apply h.ends_openSock
  · intro sock self' k₁ hpeer h' hsent
    refine Method.obeys_handling.mpr (Method.obeys_bind.mpr ?_)
    apply ends_send hpeer
    · intro n
      exact ⟨h', ⟨path, body, []⟩, by rw [← hsent]; rfl, rfl, fun hbody => entryOf_sent hbody _⟩
    · intro e
      split
      · apply ends_sendMemfd hpeer
        · exact ⟨h', ⟨path, [], [.memfd k₁.memfds.length]⟩, by rw [← hsent]; rfl, rfl,
            fun _ => entryOf_dropped (k₁.post _) path body⟩
        · exact fun _ => ⟨h', hsent⟩
        · exact fun _ _ => ⟨h', hsent⟩
      · exact ⟨h', hsent⟩
  · exact fun _ => ⟨h, rfl⟩

theorem Reaches.ends_sendFields (h : self.Reaches path) (fields : Fields) :
    Py.Ends (sendFields rt fields)
      (fun _ self' k' => self'.Reaches path ∧ Journal.HandsOver rt k k' (some ⟨path, .assembled fields⟩))
      (fun _ self' k' => self'.Reaches path ∧ Journal.HandsOver rt k k' none) self k := by
  refine Method.obeys_bind.mpr ?_
  cases hencode : encodeFields rt fields with
  | error e => exact ⟨h, rfl⟩
  | ok body =>
    obtain ⟨entries, hentries, hread⟩ := Journal.readFields_encodeFields rt hencode
    have hbody := Journal.encodeFields_ne_nil hencode
    refine Method.obeys_lift_ok.mpr ((h.ends_sendRaw body).mono ?_ fun _ _ _ => id)
    rintro _ self' k' ⟨h', message, hsent, hpeer, hentry⟩
    exact ⟨h', message, hsent, hpeer, body, entries, hentry hbody, hentries, hread⟩

theorem Reaches.ends_sendConverting (h : self.Reaches path) (message : Option Value)
    (priority : Option (Except PyErr Int)) (fields : Dict Str Value) :
    Py.Ends (sendConverting rt message priority fields)
      (fun _ self' k' => self'.Reaches path ∧
        Journal.HandsOver rt k k' ((Call.send message priority fields).entry.map (Journal.Submitted.mk path)))
      (fun _ self' k' => self'.Reaches path ∧ Journal.HandsOver rt k k' none) self k := by
  refine Method.obeys_bind.mpr ?_
  rw [Call.entry]
  cases priority.mapM id with
  | error e => exact ⟨h, rfl⟩
  | ok priority => exact Method.obeys_lift_ok.mpr (h.ends_sendFields _)

theorem Reaches.withSock (h : self.Reaches path) {sock : Option UnixDatagram}
    (hsock : ∀ s, sock = some s → s.peer = some path) :
    Reaches { self with sock := sock } path := ⟨h.sunPath, hsock⟩

theorem ends_closeSock (sock : UnixDatagram) (k : Kernel) :
    Py.Ends (UnixDatagram.close rt) (fun _ sock' k' => sock'.peer = sock.peer ∧ k'.sent = k.sent)
      (fun _ sock' k' => sock'.peer = sock.peer ∧ k'.sent = k.sent) sock k := by
  by_cases h0 : 0 ≤ sock.fd
  · cases hfile : k.fileAt sock.fd with
    | some file => exact ends_closeDatagram h0 hfile ⟨rfl, rfl⟩
    | none =>
      have hclose : ∀ reply k', (∃ c : Choice, k.perform c (.close sock.fd) = (reply, k')) → k'.sent = k.sent ∧
          reply = .error Errno.badf := by
        rintro reply k' ⟨c, hc⟩
        simp only [Kernel.perform, hfile] at hc
        cases hc
        exact ⟨rfl, rfl⟩
      simp only [UnixDatagram.close, Method.obeys_bind, Method.obeys_attributes, ge_iff_le, if_pos h0]
      split
      · refine Method.obeys_bind.mpr (Method.obeys_call.mpr ⟨trivial, fun reply k' hreply => ?_⟩)
        exact ⟨rfl, (hclose reply k' hreply).1⟩
      · refine Method.obeys_bind.mpr
          (Method.obeys_bind.mpr (Method.obeys_call.mpr ⟨trivial, fun reply k' hreply => ?_⟩))
        obtain ⟨hsent, rfl⟩ := hclose reply k' hreply
        exact ⟨rfl, hsent⟩
  · simp only [UnixDatagram.close, Method.obeys_bind, Method.obeys_attributes, ge_iff_le, if_neg h0]
    exact ⟨rfl, rfl⟩

theorem Reaches.ends_close (h : self.Reaches path) :
    Py.Ends (close rt) (fun _ self' k' => self'.Reaches path ∧ k'.sent = k.sent)
      (fun _ self' k' => self'.Reaches path ∧ k'.sent = k.sent) self k := by
  refine Method.obeys_bind.mpr (Method.obeys_attributes.mpr ?_)
  cases hsock : self.sock with
  | none => exact ⟨h, rfl⟩
  | some sock =>
    refine Method.obeys_bind.mpr (Method.obeys_zoom.mpr ((ends_closeSock sock k).mono ?_ ?_))
    · exact fun _ sock' k' hpost => Method.obeys_update.mpr ⟨h.withSock nofun, hpost.2⟩
    · refine fun _ sock' k' hpost => ⟨h.withSock fun s hs => ?_, hpost.2⟩
      cases hs
      exact hpost.1.trans (h.sock sock hsock)

theorem Reaches.ends_call (h : self.Reaches path) (call : Call) :
    Py.Ends (call.method rt)
      (fun _ self' k' => self'.Reaches path ∧
        Journal.HandsOver rt k k' (call.entry.map (Journal.Submitted.mk path)))
      (fun _ self' k' => self'.Reaches path ∧ Journal.HandsOver rt k k' none) self k := by
  cases call with
  | send message priority fields => exact Method.obeys_bind.mpr (h.ends_sendConverting message priority fields)
  | sendFields fields => exact Method.obeys_bind.mpr (h.ends_sendFields fields)
  | sendRaw body =>
    refine Method.obeys_bind.mpr ((h.ends_sendRaw body).mono ?_ fun _ _ _ => id)
    rintro _ self' k' ⟨h', message, hsent, hpeer, hentry⟩
    exact ⟨h', message, hsent, hpeer, hentry⟩
  | close => exact h.ends_close

end JournalWriter

namespace Journal

/-- A writer that was made sends where its address names, the shared one to the
journal; the handlers have writers that were made. -/
structure Module.Wired (m : Module) : Prop where
  made : ∀ i < m.made, (m.writers i).Reaches (m.writers i).sunPath
  shared : ∀ i, m.defaultWriter = some i → i < m.made ∧ (m.writers i).sunPath = path
  handlers : ∀ handler ∈ m.handlers, handler.writer < m.made

namespace Module

variable {self self' : Module} {k : Kernel} {i : Nat} {writer' : JournalWriter}

theorem Wired.set (h : self.Wired) (hwriter : writer'.Reaches (self.writers i).sunPath) :
    (self.setWriter i writer').Wired := by
  have hpath : ∀ j, ((self.setWriter i writer').writers j).sunPath = (self.writers j).sunPath := by
    intro j
    by_cases hj : j = i
    · subst hj
      simpa [setWriter] using hwriter.sunPath
    · simp [setWriter, hj]
  refine ⟨fun j hj => ?_, fun j hj => ?_, h.handlers⟩
  · rw [hpath]
    by_cases hji : j = i
    · subst hji
      simpa [setWriter] using hwriter
    · simpa [setWriter, hji] using h.made j hj
  · rw [hpath]
    exact h.shared j hj

theorem Wired.add (h : self.Wired) (hsock : writer'.sock = none) : (self.addWriter writer').Wired := by
  have hbefore : ∀ j < self.made, (self.addWriter writer').writers j = self.writers j :=
    fun j hj => Function.update_of_ne (Nat.ne_of_lt hj) ..
  refine ⟨fun j hj => ?_, fun j hj => ?_, fun handler hhandler => Nat.lt_succ_of_lt (h.handlers handler hhandler)⟩
  · rcases Nat.lt_succ_iff_lt_or_eq.mp hj with hj | rfl
    · rw [hbefore j hj]
      exact h.made j hj
    · refine ⟨rfl, fun sock hsome => ?_⟩
      simp [addWriter, setWriter, hsock] at hsome
  · obtain ⟨hmade, hpath⟩ := h.shared j hj
    exact ⟨Nat.lt_succ_of_lt hmade, by rw [hbefore j hmade, hpath]⟩

theorem Wired.shares (h : self.Wired) (hshares : self.Shares i self') : self'.Wired := by
  cases hshares with
  | kept hdefault => exact h
  | made hdefault =>
    have hadd := @Wired.add self sharedWriter h rfl
    refine ⟨hadd.made, ?_, hadd.handlers⟩
    rintro i ⟨⟩
    exact ⟨Nat.lt_succ_self _, by simp [addWriter, setWriter, sharedWriter]⟩

theorem Wired.reaches (h : self.Wired) (hdefault : self.defaultWriter = some i) :
    (self.writers i).Reaches path := by
  obtain ⟨hmade, hpath⟩ := h.shared i hdefault
  exact hpath ▸ h.made i hmade

theorem Wired.ends_onShared (h : self.Wired) {m : Py JournalWriter α} {submitted : Option Submitted}
    (hm : ∀ {writer : JournalWriter}, writer.Reaches path →
      Py.Ends m (fun _ writer' k' => writer'.Reaches path ∧ HandsOver rt k k' submitted)
        (fun _ writer' k' => writer'.Reaches path ∧ HandsOver rt k k' none) writer k) :
    Py.Ends (do onWriter (← writer) m) (fun _ self' k' => self'.Wired ∧ HandsOver rt k k' submitted)
      (fun _ self' k' => self'.Wired ∧ HandsOver rt k k' none) self k := by
  apply Module.ends_onShared
  intro i self' hshares
  have h' := h.shares hshares
  have hreaches := h'.reaches hshares.default
  refine (hm hreaches).mono ?_ ?_
  · exact fun _ writer k' hpost => ⟨h'.set (hreaches.sunPath.symm ▸ hpost.1), hpost.2⟩
  · exact fun _ writer k' hpost => ⟨h'.set (hreaches.sunPath.symm ▸ hpost.1), hpost.2⟩

theorem Wired.ends_close (h : self.Wired) :
    Py.Ends (close rt) (fun _ self' k' => self'.Wired ∧ HandsOver rt k k' none)
      (fun _ self' k' => self'.Wired ∧ HandsOver rt k k' none) self k := by
  refine Module.ends_close (fun _ => ⟨h, rfl⟩) fun i hdefault => ?_
  obtain ⟨hmade, -⟩ := h.shared i hdefault
  refine (h.made i hmade).ends_close.mono ?_ ?_
  · rintro _ writer k' ⟨hwriter, hsent⟩
    have hset := h.set hwriter
    exact ⟨⟨hset.made, nofun, hset.handlers⟩, hsent⟩
  · exact fun _ writer k' hpost => ⟨h.set hpost.1, hpost.2⟩

theorem Wired.ends_journalHandler (h : self.Wired) {logging : Bool} {given : Option Nat}
    (hgiven : ∀ i, given = some i → i < self.made) (identifier : Option Value) (fields : Dict Str Value) :
    Py.Ends (journalHandler logging given identifier fields)
      (fun _ self' k' => self'.Wired ∧ HandsOver rt k k' none)
      (fun _ self' k' => self'.Wired ∧ HandsOver rt k k' none) self k := by
  refine Module.ends_journalHandler (fun i self' hwriter => ?_) fun _ => ⟨h, rfl⟩
  obtain ⟨h', hmade⟩ : self'.Wired ∧ i < self'.made := by
    rcases hwriter with ⟨hsome, rfl⟩ | hshares
    · exact ⟨h, hgiven i hsome⟩
    · exact ⟨h.shares hshares, ((h.shares hshares).shared i hshares.default).1⟩
  refine ⟨⟨h'.made, h'.shared, ?_⟩, rfl⟩
  simp only [List.forall_mem_append, List.forall_mem_singleton]
  exact ⟨h'.handlers, hmade⟩

theorem Wired.ends_submit (h : self.Wired) {handler : Handler} (hhandler : handler ∈ self.handlers)
    (formatter : Option (Formatter ε)) (tb : Option (Traceback ε)) (record : LogRecord ε) :
    Py.Ends (onHandler handler formatter (JournalHandler.submit rt tb record))
      (fun entry self' k' => self'.Wired ∧ HandsOver rt k k'
        (entry.map fun entry => ⟨(self.writers handler.writer).sunPath, .assembled (.mapping entry)⟩))
      (fun _ _ _ => False) self k := by
  have hreaches := h.made _ (h.handlers handler hhandler)
  refine Method.obeys_zoom.mpr (ends_handlerSubmit ⟨h.set hreaches, rfl⟩ fun entry => ?_)
  refine (hreaches.ends_sendFields (.mapping entry)).mono ?_ ?_
  · exact fun _ writer k' hpost => ⟨h.set hpost.1, hpost.2⟩
  · exact fun _ writer k' hpost => ⟨h.set hpost.1, hpost.2⟩

end Module

theorem Event.ends_method {setting : Setting ε} {self : Module} {k : Kernel} (h : self.Wired) (event : Event ε) :
    Py.Ends (event.method setting)
      (fun submitted self' k' => self'.Wired ∧ HandsOver setting.runtime k k' submitted)
      (fun _ self' k' => self'.Wired ∧ HandsOver setting.runtime k k' none) self k := by
  cases event with
  | send message priority fields =>
    exact Method.obeys_bind.mpr (h.ends_onShared fun hwriter => hwriter.ends_sendConverting message priority fields)
  | sendFields fields => exact Method.obeys_bind.mpr (h.ends_onShared fun hwriter => hwriter.ends_sendFields fields)
  | close => exact Method.obeys_bind.mpr h.ends_close
  | journalHandler identifier fields =>
    exact Method.obeys_bind.mpr (h.ends_journalHandler (fun _ hsome => by cases hsome) identifier fields)
  | emit i formatter record =>
    refine Method.obeys_bind.mpr (Method.obeys_attributes.mpr ?_)
    cases hhandler : self.handlers[i]? with
    | none => exact ⟨h, rfl⟩
    | some handler =>
      refine Method.obeys_bind.mpr ?_
      exact (h.ends_submit (List.mem_of_getElem? hhandler) formatter _ record).mono (fun _ _ _ => id)
        fun _ _ _ => False.elim

/-! Runs of a program, with writers of its own and anything else in between. -/

/-- What a program does: it uses the module, makes a writer, calls one that was made, or
makes a handler for it. -/
inductive Use (ε : Type) where
  | journal (event : Event ε)
  | make (address : StrOrBytes)
  | calls (i : Nat) (call : JournalWriter.Call)
  | journalHandler (i : Nat) (identifier : Option Value) (fields : Dict Str Value)

/-- The call that is made, with what it submits when it returns. -/
def Use.method (setting : Setting ε) : Use ε → Py Module (Option Submitted)
  | journal event => event.method setting
  | make address => do
    let _ ← Module.make address
    return none
  | calls i call => do
    let self ← Method.attributes
    if i < self.made then
      Module.onWriter i (call.method setting.runtime)
      return call.entry.map (Submitted.mk (self.writers i).sunPath)
    else return none
  | journalHandler i identifier fields => do
    let self ← Method.attributes
    if i < self.made then Module.journalHandler setting.logging (some i) identifier fields
    return none

theorem Use.ends_method {setting : Setting ε} {self : Module} {k : Kernel} (h : self.Wired) (use : Use ε) :
    Py.Ends (use.method setting) (fun submitted self' k' => self'.Wired ∧ HandsOver setting.runtime k k' submitted)
      (fun _ self' k' => self'.Wired ∧ HandsOver setting.runtime k k' none) self k := by
  cases use with
  | journal event => exact Event.ends_method h event
  | make address =>
    refine Method.obeys_bind.mpr (Module.ends_make (fun writer hnew => ?_) fun _ => ⟨h, rfl⟩)
    obtain ⟨sunPath, -, hwriter⟩ := Fallible.bind_eq_ok.mp hnew
    cases hwriter
    exact ⟨h.add rfl, rfl⟩
  | calls i call =>
    refine Method.obeys_bind.mpr (Method.obeys_attributes.mpr ?_)
    split
    · next hmade =>
      refine Method.obeys_bind.mpr (Method.obeys_zoom.mpr (((h.made i hmade).ends_call call).mono ?_ ?_))
      · exact fun _ writer k' hpost => ⟨h.set hpost.1, hpost.2⟩
      · exact fun _ writer k' hpost => ⟨h.set hpost.1, hpost.2⟩
    · exact ⟨h, rfl⟩
  | journalHandler i identifier fields =>
    refine Method.obeys_bind.mpr (Method.obeys_attributes.mpr ?_)
    split
    · next hmade =>
      exact Method.obeys_bind.mpr (h.ends_journalHandler (fun j hj => by cases hj; exact hmade) identifier fields)
    · exact ⟨h, rfl⟩

inductive ProgramEvent (ε : Type) where
  | uses (use : Use ε)
  | others (kernel : Kernel)

/-- `submitted` are the entries of the calls that returned and of the records that
no error was handled for, with the paths of their writers; `handed` the messages that
were handed over meanwhile, each with the kernel that its event left. -/
structure Program where
  journal : Module
  world : World
  submitted : List Submitted
  handed : List (Message × Kernel)

namespace Program

def start (world : World) : Program := ⟨Module.imported, world, [], []⟩

def step (setting : Setting ε) (t : Program) : ProgramEvent ε → Program
  | .uses use =>
    let ended := (use.method setting).run t.journal t.world
    let sent := ended.2.kernel.sent.drop t.world.kernel.sent.length
    ⟨ended.1.2, ended.2, t.submitted ++ (ended.1.1.toOption.bind id).toList,
      t.handed ++ sent.map fun message => (message, ended.2.kernel)⟩
  | .others kernel => { t with world.kernel := kernel }

structure Inv (rt : Runtime) (t : Program) : Prop where
  wired : t.journal.Wired
  relays : List.Forall₂ (Relays rt) t.submitted t.handed

theorem Inv.step {setting : Setting ε} {t : Program} (h : t.Inv setting.runtime) (event : ProgramEvent ε) :
    (t.step setting event).Inv setting.runtime := by
  cases event with
  | others kernel => exact ⟨h.wired, h.relays⟩
  | uses use =>
    let handed (submitted : Option Submitted) (k : Kernel) : Prop :=
      HandsOver setting.runtime t.world.kernel k submitted
    have hpost := (Method.outcome_iff fun result (self' : Module) (k' : Kernel) =>
      self'.Wired ∧ handed (result.toOption.bind id) k').mp
      ((Use.ends_method h.wired use).run (w := t.world))
    obtain ⟨hwired, hhanded⟩ := hpost
    refine ⟨hwired, ?_⟩
    rw [Program.step]
    dsimp only
    generalize ((use.method setting).run t.journal t.world).1.1.toOption.bind id = submitted at hhanded
    generalize ((use.method setting).run t.journal t.world).2.kernel = k at hhanded
    cases submitted with
    | none =>
      have hsent : k.sent = t.world.kernel.sent := hhanded
      simpa [hsent] using h.relays
    | some submitted =>
      obtain ⟨message, hsent, hrelays⟩ := hhanded
      rw [hsent, List.drop_left]
      exact List.rel_append h.relays (.cons hrelays .nil)

end Program

/-- Whatever a program does with the module, with writers of its own and with handlers
for either, what fails and what runs in between: the messages handed over are those
of the entries that were submitted, in order, one for each and to the path of its
writer, and journald reads the fields of the entry in it. -/
theorem entries_relayed (setting : Setting ε) (w : World) (events : List (ProgramEvent ε)) :
    let t := events.foldl (Program.step setting) (.start w)
    List.Forall₂ (Relays setting.runtime) t.submitted t.handed := by
  have hstart : (Program.start w).Inv setting.runtime := ⟨⟨nofun, nofun, nofun⟩, .nil⟩
  exact (Runs.invariant (fun t : Program => t.Inv setting.runtime) hstart
    (fun _ event h => h.step event) events).relays

/-- One entry of the shared writer, one of a writer of the program's own. -/
example : ([.uses (.journal (.send (some (.text (str "up"))) (some (.ok 6)) Dict.empty)), .uses (.journal .close),
    .uses (.make (.text (str "/j"))), .uses (.calls 1 (.sendRaw (bytes "A=1\n")))].foldl
      (Program.step unixPort) (.start serving)).handed.map (fun h => (h.1.peer, h.1.data)) =
    [(path, bytes "MESSAGE=up\nPRIORITY=6\n"), (bytes "/j", bytes "A=1\n")] := by rfl

end Journal

end Mpsystemd
