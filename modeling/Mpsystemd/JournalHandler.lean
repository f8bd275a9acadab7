import Mathlib.Data.List.DropRight
import Mpsystemd.JournalWriter
import Mpsystemd.Lib.Occurrences
import Mpsystemd.Payload

/-! The logging handler that submits records to the journal, over the classes of
the logging module, and how often it reports an exception. -/

namespace Mpsystemd

open Occurrences (Apart EndsOnce)

variable {ε : Type}

/-- The traceback module: the pieces that `format_exception` makes of the
`exc_info` of an exception, at least its type. -/
structure Traceback (ε : Type) where
  formatException : ε → List Str
  described : ∀ exc, (formatException exc).flatten.rdropWhile (· = newline) ≠ []

def Traceback.text (tb : Traceback ε) (exc : ε) : Str :=
  (tb.formatException exc).flatten.rdropWhile (· = newline)

/-- What a handler reads of a record. `getMessage` is none on a runtime whose
records have no such method; `excInfo` is none, and the cached `excText` and the
`stackInfo` are empty, where they are false. -/
structure LogRecord (ε : Type) where
  name : Value
  levelno : Int
  pathname : Option Value
  lineno : Option Value
  funcName : Option Value
  getMessage : Option (Except PyErr Str)
  message : Str
  excInfo : Option ε
  excText : Str
  stackInfo : Str

namespace LogRecord

def text (record : LogRecord ε) : Except PyErr Str := record.getMessage.getD (.ok record.message)

end LogRecord

/-- The standard formatter: `formatMessage` is what its format string and its
time format make of a record. -/
structure Formatter (ε : Type) where
  formatMessage : LogRecord ε → Except PyErr Str

namespace Formatter

/-- `formatException`, which drops one newline at the end. -/
def formatException (tb : Traceback ε) (exc : ε) : Str :=
  let s := (tb.formatException exc).flatten
  if s.getLast? = some newline then s.dropLast else s

def cache (tb : Option (Traceback ε)) (record : LogRecord ε) : LogRecord ε :=
  match record.excInfo, tb with
  | some exc, some tb =>
    if record.excText = [] then { record with excText := formatException tb exc } else record
  | _, _ => record

def endLine (s : Str) : Str := if s.getLast? = some newline then s else s ++ [newline]

def appendTexts (record : LogRecord ε) (s : Str) : Str :=
  let s := if record.excText ≠ [] then endLine s ++ record.excText else s
  if record.stackInfo ≠ [] then endLine s ++ record.stackInfo else s

/-- The text, and the record with what `format` stores in it. -/
def format (tb : Option (Traceback ε)) (self : Formatter ε) (record : LogRecord ε) :
    Except PyErr (Str × LogRecord ε) := do
  let message ← record.text
  let s ← self.formatMessage { record with message := message }
  let record := cache tb { record with message := message }
  return (appendTexts record s, record)

end Formatter

namespace Journal

def crit : Int := 2

def err : Int := 3

def warning : Int := 4

def info : Int := 6

def debug : Int := 7

def logCritical : Int := 50

def logError : Int := 40

def logWarning : Int := 30

def logInfo : Int := 20

def priorityForLevel (levelno : Int) : Int :=
  if levelno ≥ logCritical then crit
  else if levelno ≥ logError then err
  else if levelno ≥ logWarning then warning
  else if levelno ≥ logInfo then info
  else debug

def exceptionText (tb : Option (Traceback ε)) (exc : ε) : Option Str := tb.map fun tb => tb.text exc

end Journal

structure JournalHandler (ε : Type) where
  formatter : Option (Formatter ε)
  writer : JournalWriter
  identifier : Option Value
  staticFields : Dict Str Value

namespace JournalHandler

def setWriter (self : JournalHandler ε) (writer : JournalWriter) : JournalHandler ε :=
  { self with writer := writer }

def message (tb : Option (Traceback ε)) (self : JournalHandler ε) (record : LogRecord ε) :
    Except PyErr (Str × LogRecord ε) :=
  match self.formatter with
  | some formatter => formatter.format tb record
  | none => do return (← record.text, record)

def appendException (tb : Option (Traceback ε)) (record : LogRecord ε) (message : Str) : Str :=
  match record.excInfo.bind (Journal.exceptionText tb) with
  | some text => if text ≠ [] then message ++ [newline] ++ text else message
  | none => message

def codeFields (record : LogRecord ε) : List (Str × Value) :=
  [(str "CODE_FILE", record.pathname), (str "CODE_LINE", record.lineno),
    (str "CODE_FUNC", record.funcName)].filterMap
    fun (field, value) => value.map fun value => (field, value)

def entry (self : JournalHandler ε) (record : LogRecord ε) (message : Str) : Dict Str Value :=
  let entry := Dict.empty.setAll self.staticFields.entries
  let entry := entry.set (str "MESSAGE") (.text message)
  let entry := entry.set (str "PRIORITY") (.int (Journal.priorityForLevel record.levelno))
  let entry := entry.set (str "LOGGER") record.name
  let entry := self.identifier.elim entry fun identifier => entry.set (str "SYSLOG_IDENTIFIER") identifier
  entry.setAll (codeFields record)

/-- The body of `emit`, with the entry that it submits: none when something was raised,
which `handleError` reports before it goes on. -/
def submit (rt : Runtime) (tb : Option (Traceback ε)) (record : LogRecord ε) :
    Py (JournalHandler ε) (Option (Dict Str Value)) := do
  let self ← Method.attributes
  Method.handling
    (do
      let formatted ← Method.lift (self.message tb record)
      let entry := self.entry formatted.2 (appendException tb formatted.2 formatted.1)
      let _ ← Method.zoom JournalHandler.writer setWriter (JournalWriter.sendFields rt (.mapping entry))
      return some entry)
    fun _ => return none

def emit (rt : Runtime) (tb : Option (Traceback ε)) (record : LogRecord ε) : Py (JournalHandler ε) Unit := do
  let _ ← submit rt tb record

end JournalHandler

/-! The message of a record. -/

theorem Traceback.text_prefix (tb : Traceback ε) (exc : ε) : tb.text exc <+: Formatter.formatException tb exc := by
  rw [Traceback.text, Formatter.formatException]
  generalize (tb.formatException exc).flatten = s
  split
  · next hlast =>
    obtain ⟨init, rfl⟩ := List.getLast?_eq_some_iff.mp hlast
    rw [List.rdropWhile_concat_pos _ _ _ (by simp), List.dropLast_concat]
    exact List.rdropWhile_prefix _ _
  · exact List.rdropWhile_prefix _ _

theorem Traceback.text_ne_nil (tb : Traceback ε) (exc : ε) : tb.text exc ≠ [] := tb.described exc

namespace Formatter

variable {tb : Traceback ε} {self : Formatter ε} {record record' : LogRecord ε} {base : Str} {exc : ε}

theorem infix_endLine (s rest : Str) : s <:+: endLine s ++ rest := by
  rw [endLine]
  split
  · exact (List.prefix_append s rest).isInfix
  · exact ((List.prefix_append s [newline]).trans (List.prefix_append _ rest)).isInfix

theorem excText_infix (record : LogRecord ε) (s : Str) : record.excText <:+: appendTexts record s := by
  have hexc : record.excText <:+: if record.excText ≠ [] then endLine s ++ record.excText else s := by
    split
    · exact (List.suffix_append _ _).isInfix
    · next hnil =>
      rw [not_not.mp hnil]
      exact List.nil_infix
  rw [appendTexts]
  split
  · exact hexc.trans (infix_endLine _ _)
  · exact hexc

theorem cache_excInfo (tb : Option (Traceback ε)) (record : LogRecord ε) :
    (cache tb record).excInfo = record.excInfo := by
  unfold cache
  split
  · split
    · rfl
    · rfl
  · rfl

theorem cache_excText (hexc : record.excInfo = some exc) (huncached : record.excText = []) :
    (cache (some tb) record).excText = formatException tb exc := by
  simp only [cache, hexc, huncached, if_true]

theorem format_eq_ok {tb : Option (Traceback ε)} (h : self.format tb record = .ok (base, record')) :
    ∃ message s, record' = cache tb { record with message := message } ∧ base = appendTexts record' s := by
  simp only [format, Fallible.bind_eq_ok, Fallible.pure_eq_ok, Except.ok.injEq, Prod.mk.injEq] at h
  obtain ⟨message, -, s, -, hbase, hrecord⟩ := h
  exact ⟨message, s, hrecord.symm, by rw [← hbase, hrecord]⟩

theorem text_infix_format (hexc : record.excInfo = some exc) (huncached : record.excText = [])
    (h : self.format (some tb) record = .ok (base, record')) : tb.text exc <:+: base := by
  obtain ⟨message, s, hrecord, hbase⟩ := format_eq_ok h
  have hcached : record'.excText = formatException tb exc := by
    rw [hrecord]
    exact cache_excText hexc huncached
  rw [hbase]
  exact (tb.text_prefix exc).isInfix.trans (hcached ▸ excText_infix record' s)

end Formatter

namespace JournalHandler

variable {tb : Traceback ε} {self : JournalHandler ε} {record record' : LogRecord ε} {base : Str} {exc : ε}

theorem message_excInfo (h : self.message (some tb) record = .ok (base, record')) :
    record'.excInfo = record.excInfo := by
  rw [message] at h
  cases hformatter : self.formatter with
  | some formatter =>
    simp only [hformatter] at h
    obtain ⟨text, s, hrecord, -⟩ := Formatter.format_eq_ok h
    rw [hrecord, Formatter.cache_excInfo]
  | none =>
    simp only [hformatter, Fallible.bind_eq_ok, Fallible.pure_eq_ok, Except.ok.injEq, Prod.mk.injEq] at h
    obtain ⟨text, -, -, hrecord⟩ := h
    rw [hrecord]

theorem text_infix_message (hset : self.formatter ≠ none) (hexc : record.excInfo = some exc)
    (huncached : record.excText = []) (h : self.message (some tb) record = .ok (base, record')) :
    tb.text exc <:+: base := by
  obtain ⟨formatter, hformatter⟩ := Option.ne_none_iff_exists'.mp hset
  simp only [message, hformatter] at h
  exact Formatter.text_infix_format hexc huncached h

theorem appendException_none (hexc : record.excInfo = none) (s : Str) :
    appendException (some tb) record s = s := by
  simp only [appendException, hexc, Option.bind_none]

theorem appendException_some (hexc : record.excInfo = some exc) (s : Str) :
    appendException (some tb) record s = s ++ [newline] ++ tb.text exc := by
  simp only [appendException, hexc, Option.bind_some, Journal.exceptionText, Option.map_some]
  rw [if_pos (tb.text_ne_nil exc)]

theorem lastOf_codeFields (record : LogRecord ε) : Dict.lastOf (codeFields record) (str "MESSAGE") = none := by
  refine Dict.lastOf_eq_none fun pair hpair => ?_
  rw [codeFields, List.mem_filterMap] at hpair
  obtain ⟨⟨field, value⟩, hfield, hvalue⟩ := hpair
  obtain ⟨value', -, rfl⟩ := Option.map_eq_some_iff.mp hvalue
  show field ≠ str "MESSAGE"
  simp only [List.mem_cons, Prod.mk.injEq, List.not_mem_nil, or_false] at hfield
  rcases hfield with ⟨rfl, -⟩ | ⟨rfl, -⟩ | ⟨rfl, -⟩
  · decide
  · decide
  · decide

theorem get?_entry_message (self : JournalHandler ε) (record : LogRecord ε) (s : Str) :
    (self.entry record s).get? (str "MESSAGE") = some (.text s) := by
  have hlogger : str "MESSAGE" ≠ str "LOGGER" := by decide
  have hpriority : str "MESSAGE" ≠ str "PRIORITY" := by decide
  have hidentifier : str "MESSAGE" ≠ str "SYSLOG_IDENTIFIER" := by decide
  rw [entry, Dict.get?_setAll, lastOf_codeFields, Option.none_or]
  cases self.identifier with
  | none => simp only [Option.elim, Dict.get?_set, if_neg hlogger, if_neg hpriority, if_true]
  | some identifier =>
    simp only [Option.elim, Dict.get?_set, if_neg hidentifier, if_neg hlogger, if_neg hpriority, if_true]

/-- What `emit` hands to its writer, whatever that makes of it. -/
def Submits (rt : Runtime) (tb : Option (Traceback ε)) (self : JournalHandler ε) (record : LogRecord ε)
    (entry : Dict Str Value) : Prop :=
  ∀ w, (emit rt tb record).run self w =
    ((.ok (), self.setWriter ((JournalWriter.sendFields rt (.mapping entry)).run self.writer w).1.2),
      ((JournalWriter.sendFields rt (.mapping entry)).run self.writer w).2)

theorem submits_entry {tb : Option (Traceback ε)} (rt : Runtime)
    (h : self.message tb record = .ok (base, record')) :
    Submits rt tb self record (self.entry record' (appendException tb record' base)) := by
  intro w
  rw [emit, submit, Py.run, Method.run_bind, Method.run_bind_ok Method.run_attributes, Method.run_handling, h,
    Method.run_bind_ok Method.run_lift, Method.run_bind, Method.run_zoom, Py.run]
  -- The handler of the `try` is the same whether or not the writer raised.
  generalize Method.run World.perform (JournalWriter.sendFields rt
    (.mapping (self.entry record' (appendException tb record' base)))) self.writer w = sent
  obtain ⟨⟨result, writer⟩, w'⟩ := sent
  cases result with
  | ok _ => rfl
  | error _ => rfl

/-- Of an exception the message ends with its text and holds it once; without
one it is what the formatter or the record returned. -/
def ReportsOnce (tb : Traceback ε) (record : LogRecord ε) (base message : Str) : Prop :=
  record.excInfo.elim (message = base) fun exc => EndsOnce (tb.text exc) message

instance (tb : Traceback ε) (record : LogRecord ε) (base message : Str) :
    Decidable (ReportsOnce tb record base message) := by
  unfold ReportsOnce
  cases record.excInfo with
  | none => exact inferInstanceAs (Decidable (message = base))
  | some exc => exact inferInstanceAs (Decidable (EndsOnce (tb.text exc) message))

/-- A record is reported as it should be exactly when it has no exception, or no
formatter has formatted that and its text is not in the message already. -/
theorem exception_reported_once_iff (rt : Runtime) (tb : Traceback ε) (self : JournalHandler ε)
    (record : LogRecord ε) {base : Str} {record' : LogRecord ε}
    (hbase : self.message (some tb) record = .ok (base, record')) :
    ∃ entry message, Submits rt (some tb) self record entry ∧
      entry.get? (str "MESSAGE") = some (.text message) ∧
      (ReportsOnce tb record base message ↔ ∀ exc, record.excInfo = some exc →
        (self.formatter = none ∨ record.excText ≠ []) ∧ Apart (tb.text exc) (base ++ [newline])) := by
  refine ⟨_, _, submits_entry rt hbase, get?_entry_message self record' _, ?_⟩
  have hinfo := message_excInfo hbase
  cases hexc : record.excInfo with
  | none =>
    rw [ReportsOnce, hexc, appendException_none (hinfo.trans hexc)]
    simp
  | some exc =>
    rw [ReportsOnce, hexc, appendException_some (hinfo.trans hexc)]
    have honce : EndsOnce (tb.text exc) (base ++ [newline] ++ tb.text exc) ↔
        Apart (tb.text exc) (base ++ [newline]) := Occurrences.endsOnce_append_iff (tb.text_ne_nil exc)
    refine honce.trans ⟨?_, fun h => (h exc rfl).2⟩
    rintro hapart _ ⟨⟩
    refine ⟨?_, hapart⟩
    -- A formatter without a cached text has put the text into the message already.
    by_contra hformats
    obtain ⟨hset, huncached⟩ := not_or.mp hformats
    exact Occurrences.not_apart_of_infix (tb.text_ne_nil exc)
      (text_infix_message hset hexc (not_not.mp huncached) hbase) [newline] hapart

/-! A `ValueError` logged with the message of an error. -/

def raised : Traceback Unit where
  formatException _ := [str "ValueError: x\n"]
  described _ := by decide

def failed : LogRecord Unit :=
  ⟨.text (str "app"), Journal.logError, none, none, none, some (.ok (str "failed")), [], some (), [], []⟩

def plain : JournalHandler Unit :=
  ⟨none, ⟨.text (str "/run/systemd/journal/socket"), bytes "/run/systemd/journal/socket", none⟩, none, Dict.empty⟩

def formatting : JournalHandler Unit := { plain with formatter := some ⟨fun record => .ok record.message⟩ }

theorem exception_reported_once_iff_plain :
    ∃ entry message, Submits Runtime.unixPort (some raised) plain failed entry ∧
      entry.get? (str "MESSAGE") = some (.text message) ∧ ReportsOnce raised failed (str "failed") message := by
  obtain ⟨entry, message, hsubmits, hmessage, hreports⟩ :=
    @exception_reported_once_iff Unit Runtime.unixPort raised plain failed (str "failed") failed rfl
  have hapart : Apart (raised.text ()) (str "failed" ++ [newline]) := by decide
  exact ⟨entry, message, hsubmits, hmessage, hreports.mpr fun _ _ => ⟨.inl rfl, hapart⟩⟩

/-- The formatter reports the exception, and the handler once more. -/
theorem exception_reported_twice :
    ∃ base record entry, formatting.message (some raised) failed = .ok (base, record) ∧
      Submits Runtime.unixPort (some raised) formatting failed entry ∧
      entry.get? (str "MESSAGE") = some (.text (str "failed\nValueError: x\nValueError: x")) ∧
      Occurrences.count (str "ValueError: x") (str "failed\nValueError: x\nValueError: x") = 2 ∧
      ¬ ReportsOnce raised failed base (str "failed\nValueError: x\nValueError: x") := by
  have hmessage : formatting.message (some raised) failed = .ok (str "failed\nValueError: x",
      { failed with message := str "failed", excText := str "ValueError: x" }) := rfl
  refine ⟨_, _, _, hmessage, submits_entry _ hmessage, get?_entry_message _ _ _, by decide, by decide⟩

end JournalHandler

end Mpsystemd
