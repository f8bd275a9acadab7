import Mpsystemd.JournalHandler
import Mpsystemd.Names

/-! The fields that the writer and the handler set themselves, against those of
their callers. -/

namespace Mpsystemd

open Journal (asBytes emitted encodeFields readFields)

variable {rt : Runtime} {ε : Type}

/-- One field of the entry has the name, and it holds the value. -/
def HoldsOnly (name : Str) (value : Value) (entries : List (Str × Bytes)) : Prop :=
  ∃ raw, asBytes value = .ok raw ∧ entries.filter (fun entry => entry.1 = name) = [(name, raw)]

/-- Of each of the fields that were set the body holds that one only. -/
def Precede (set : List (Str × Value)) (body : Bytes) : Prop :=
  ∃ entries, readFields body = .ok entries ∧ ∀ field ∈ set, HoldsOnly field.1 field.2 entries

/-- No caller's name is one of the names that are set in other letters. -/
def Unreserved (rt : Runtime) (set : List (Str × Value)) (fields : Dict Str Value) : Prop :=
  ∀ name ∈ fields.entries.map Prod.fst, ∀ field ∈ set, rt.upper name = field.1 → name = field.1

instance (set : List (Str × Value)) (fields : Dict Str Value) : Decidable (Unreserved rt set fields) :=
  inferInstanceAs (Decidable (∀ name ∈ _, ∀ field ∈ set, _ → _))

/-! One name. -/

theorem upper_emitted {item : Str × Value} {entry : Str × Bytes} (h : emitted rt item = .ok entry) :
    entry.1 = rt.upper item.1 := by
  obtain ⟨raw, -, hentry⟩ := Fallible.bind_eq_ok.mp h
  simp only [Fallible.pure_eq_ok, Except.ok.injEq] at hentry
  rw [← hentry]

theorem holdsOnly_iff {d : Dict Str Value} {body : Bytes} {entries : List (Str × Bytes)}
    (h : encodeFields rt (.mapping d) = .ok body) (hread : readFields body = .ok entries) {name : Str}
    {value : Value}
    (hupper : rt.upper name = name) (hset : (name, value) ∈ d.entries) :
    HoldsOnly name value entries ↔ ∀ key ∈ d.entries.map Prod.fst, rt.upper key = name → key = name := by
  obtain ⟨entries', hentries, hread'⟩ := Journal.readFields_encodeFields rt h
  rw [hread, Except.ok.injEq] at hread'
  subst hread'
  have hfiltered : (d.sorted.filter fun item => rt.upper item.1 = name).mapM (emitted rt) =
      .ok (entries.filter fun entry => entry.1 = name) :=
    Fallible.filter_of_mapM hentries fun item entry hitem => by rw [upper_emitted hitem]
  have honly := @Dict.filter_sorted_eq_singleton_iff _ _ _ d name value (fun key => rt.upper key = name)
    (by simpa using hupper) hset
  simp only [decide_eq_true_eq] at honly
  rw [← honly]
  constructor
  · rintro ⟨raw, -, hsingle⟩
    have hone := (Fallible.mapM_eq_ok.mp hfiltered).length_eq
    rw [hsingle, List.length_singleton] at hone
    obtain ⟨item, hitem⟩ := List.length_eq_one_iff.mp hone
    have hmem : (name, value) ∈ d.sorted.filter fun item => rt.upper item.1 = name := by
      simpa [hupper] using hset
    rw [hitem, List.mem_singleton] at hmem
    rw [hitem, hmem]
  · intro hsorted
    rw [hsorted] at hfiltered
    obtain ⟨entry, hentry, hsingle⟩ := Fallible.bind_eq_ok.mp hfiltered
    obtain ⟨raw, hraw, hpair⟩ := Fallible.bind_eq_ok.mp hentry
    simp only [Fallible.pure_eq_ok, Except.ok.injEq, hupper] at hpair
    refine ⟨raw, hraw, ?_⟩
    rw [← Except.ok.inj hsingle, ← hpair]
    rfl

theorem precede_iff {fields : Dict Str Value} {set : List (Str × Value)} {body : Bytes}
    (hnodup : (set.map Prod.fst).Nodup) (hupper : ∀ field ∈ set, rt.upper field.1 = field.1)
    (h : encodeFields rt (.mapping ((Dict.empty.setAll fields.entries).setAll set)) = .ok body) :
    Precede set body ↔ Unreserved rt set fields := by
  obtain ⟨entries, -, hread⟩ := Journal.readFields_encodeFields rt h
  have hkeys : ∀ key, key ∈ ((Dict.empty.setAll fields.entries).setAll set).entries.map Prod.fst ↔
      key ∈ set.map Prod.fst ∨ key ∈ fields.entries.map Prod.fst := by
    intro key
    rw [Dict.mem_keys_setAll, Dict.mem_keys_setAll]
    simp [Dict.empty]
  have hone : ∀ field ∈ set, (HoldsOnly field.1 field.2 entries ↔
      ∀ key ∈ fields.entries.map Prod.fst, rt.upper key = field.1 → key = field.1) := by
    intro field hfield
    have hset : field ∈ ((Dict.empty.setAll fields.entries).setAll set).entries := by
      rw [← Dict.get?_eq_some_iff_mem, Dict.get?_setAll, (Dict.lastOf_eq_some_iff_mem hnodup).mpr hfield,
        Option.some_or]
    rw [holdsOnly_iff h hread (hupper field hfield) hset]
    constructor
    · exact fun hall key hkey => hall key ((hkeys key).mpr (.inr hkey))
    · intro hall key hkey hname
      rcases (hkeys key).mp hkey with hkey | hkey
      · -- A name that is set is in capitals, so that upper casing leaves it as it is.
        obtain ⟨other, hother, rfl⟩ := List.mem_map.mp hkey
        rwa [hupper other hother] at hname
      · exact hall key hkey hname
  constructor
  · rintro ⟨entries', hread', hholds⟩ key hkey field hfield
    rw [hread, Except.ok.injEq] at hread'
    exact (hone field hfield).mp (hread' ▸ hholds field hfield) key hkey
  · exact fun hfree => ⟨entries, hread, fun field hfield =>
      (hone field hfield).mpr fun key hkey => hfree key hkey field hfield⟩

/-! The names that are set. -/

def reservedNames : List Str :=
  [str "MESSAGE", str "PRIORITY", str "LOGGER", str "SYSLOG_IDENTIFIER", str "CODE_FILE", str "CODE_LINE",
    str "CODE_FUNC"]

theorem named_reserved : ∀ name ∈ reservedNames, Named Char.isUpper name := by decide

theorem precede_reserved_iff {fields : Dict Str Value} {set : List (Str × Value)} {body : Bytes}
    (hnames : (set.map Prod.fst).Sublist reservedNames)
    (h : encodeFields rt (.mapping ((Dict.empty.setAll fields.entries).setAll set)) = .ok body) :
    Precede set body ↔ Unreserved rt set fields := by
  have hnodup : reservedNames.Nodup := by decide
  refine precede_iff (hnodup.sublist hnames) (fun field hfield => ?_) h
  exact upper_of_named rt (named_reserved field.1 (hnames.subset (List.mem_map_of_mem hfield)))

namespace JournalWriter

def reserved (message : Value) (priority : Int) : List (Str × Value) :=
  [(str "MESSAGE", message), (str "PRIORITY", .int priority)]

theorem reserved_names (message : Value) (priority : Int) :
    ((reserved message priority).map Prod.fst).Sublist reservedNames := by
  simp only [reserved, List.map_cons, List.map_nil]
  decide

theorem send_eq_sendRaw {message : Option Value} {priority : Option Int} {fields : Dict Str Value} {body : Bytes}
    (h : encodeFields rt (.mapping (entry message priority fields)) = .ok body) :
    send rt message priority fields = sendRaw rt body := by
  rw [send, sendFields, h]
  rfl

end JournalWriter

namespace JournalHandler

variable {tb : Option (Traceback ε)} {self : JournalHandler ε} {record record' : LogRecord ε} {base : Str}

/-- What the handler sets: the identifier and the place in the code where there
are any. -/
def reserved (self : JournalHandler ε) (record : LogRecord ε) (message : Str) : List (Str × Value) :=
  [(str "MESSAGE", .text message), (str "PRIORITY", .int (Journal.priorityForLevel record.levelno)),
    (str "LOGGER", record.name)] ++
    (self.identifier.map fun identifier => (str "SYSLOG_IDENTIFIER", identifier)).toList ++ codeFields record

theorem entry_eq (self : JournalHandler ε) (record : LogRecord ε) (message : Str) :
    self.entry record message =
      (Dict.empty.setAll self.staticFields.entries).setAll (self.reserved record message) := by
  cases hidentifier : self.identifier with
  | none => simp only [entry, reserved, hidentifier, Option.elim, Dict.setAll, Option.map_none, Option.toList_none,
      List.append_nil, List.foldl_append, List.foldl_cons, List.foldl_nil]
  | some identifier => simp only [entry, reserved, hidentifier, Option.elim, Dict.setAll, Option.map_some,
      Option.toList_some, List.foldl_append, List.foldl_cons, List.foldl_nil]

theorem codeFields_names (record : LogRecord ε) :
    ((codeFields record).map Prod.fst).Sublist [str "CODE_FILE", str "CODE_LINE", str "CODE_FUNC"] := by
  rw [codeFields]
  cases record.pathname
  all_goals cases record.lineno
  all_goals cases record.funcName
  all_goals simp only [List.filterMap_cons, List.filterMap_nil, Option.map_none, Option.map_some, List.map_cons,
    List.map_nil]
  all_goals decide

theorem reserved_names (self : JournalHandler ε) (record : LogRecord ε) (message : Str) :
    ((self.reserved record message).map Prod.fst).Sublist reservedNames := by
  have hidentifier : ((self.identifier.map fun identifier => (str "SYSLOG_IDENTIFIER", identifier)).toList.map
      Prod.fst).Sublist [str "SYSLOG_IDENTIFIER"] := by
    cases self.identifier with
    | none => exact List.nil_sublist _
    | some identifier => exact List.Sublist.refl _
  rw [reserved, List.map_append, List.map_append]
  exact ((List.Sublist.refl _).append hidentifier).append (codeFields_names record)

/-- Formatting a record leaves what the fields are taken from. -/
theorem reserved_formatted (h : self.message tb record = .ok (base, record')) (message : Str) :
    self.reserved record' message = self.reserved record message := by
  rw [JournalHandler.message] at h
  cases hformatter : self.formatter with
  | none =>
    simp only [hformatter, Fallible.bind_eq_ok, Fallible.pure_eq_ok, Except.ok.injEq, Prod.mk.injEq] at h
    obtain ⟨text, -, -, hrecord⟩ := h
    rw [hrecord]
  | some formatter =>
    simp only [hformatter] at h
    obtain ⟨text, s, rfl, -⟩ := Formatter.format_eq_ok h
    unfold Formatter.cache
    split
    · split
      · rfl
      · rfl
    · rfl

end JournalHandler

/-- What `send` and `emit` submit holds their own fields once, with their own
values, exactly when no field of the caller has one of those names in other
letters. -/
theorem explicit_fields_precede_iff (rt : Runtime) :
    (∀ message priority fields body,
      encodeFields rt (.mapping (JournalWriter.entry (some message) (some priority) fields)) = .ok body →
        JournalWriter.send rt (some message) (some priority) fields = JournalWriter.sendRaw rt body ∧
        (Precede (JournalWriter.reserved message priority) body ↔
          Unreserved rt (JournalWriter.reserved message priority) fields)) ∧
    ∀ (tb : Option (Traceback ε)) (self : JournalHandler ε) record base record',
      self.message tb record = .ok (base, record') →
        ∃ entry, JournalHandler.Submits rt tb self record entry ∧
          ∀ body, encodeFields rt (.mapping entry) = .ok body →
            (Precede (self.reserved record (JournalHandler.appendException tb record' base)) body ↔
              Unreserved rt (self.reserved record (JournalHandler.appendException tb record' base))
                self.staticFields) := by
  refine ⟨fun message priority fields body h => ⟨JournalWriter.send_eq_sendRaw h, ?_⟩,
    fun tb self record base record' h => ⟨_, JournalHandler.submits_entry rt h, fun body hbody => ?_⟩⟩
  · exact precede_reserved_iff (JournalWriter.reserved_names message priority) h
  · rw [JournalHandler.entry_eq, JournalHandler.reserved_formatted h] at hbody
    exact precede_reserved_iff (self.reserved_names record _) hbody

theorem explicit_fields_precede_iff_lower :
    Precede (JournalWriter.reserved (.text (str "hello")) 6) (bytes "MESSAGE=hello\nPRIORITY=6\nDEVICE=a\n") :=
  ((@explicit_fields_precede_iff Unit .unixPort).1 (.text (str "hello")) 6
    (Dict.empty.set (str "device") (.text (str "a"))) _ (by decide)).2.mpr (by decide)

def logged : LogRecord Unit := { JournalHandler.failed with excInfo := none }

def labelled : JournalHandler Unit :=
  { JournalHandler.plain with staticFields := Dict.empty.set (str "message") (.text (str "x")) }

/-- `writer.send("hello", Message="spoof")`, and a handler with a static field
`message`. -/
theorem fields_doubled :
    encodeFields .unixPort (.mapping (JournalWriter.entry (some (.text (str "hello"))) (some 6)
        (Dict.empty.set (str "Message") (.text (str "spoof"))))) =
      .ok (bytes "MESSAGE=hello\nMESSAGE=spoof\nPRIORITY=6\n") ∧
    ¬ Precede (JournalWriter.reserved (.text (str "hello")) 6)
        (bytes "MESSAGE=hello\nMESSAGE=spoof\nPRIORITY=6\n") ∧
    encodeFields .unixPort (.mapping (labelled.entry logged (str "failed"))) =
      .ok (bytes "LOGGER=app\nMESSAGE=failed\nPRIORITY=3\nMESSAGE=x\n") ∧
    ¬ Precede (labelled.reserved logged (str "failed"))
        (bytes "LOGGER=app\nMESSAGE=failed\nPRIORITY=3\nMESSAGE=x\n") := by
  have hsend : encodeFields .unixPort (.mapping (JournalWriter.entry (some (.text (str "hello"))) (some 6)
      (Dict.empty.set (str "Message") (.text (str "spoof"))))) =
      .ok (bytes "MESSAGE=hello\nMESSAGE=spoof\nPRIORITY=6\n") := by decide
  have hemit : encodeFields .unixPort (.mapping (labelled.entry logged (str "failed"))) =
      .ok (bytes "LOGGER=app\nMESSAGE=failed\nPRIORITY=3\nMESSAGE=x\n") := by decide
  refine ⟨hsend, fun h => ?_, hemit, fun h => ?_⟩
  · have hfree := (precede_reserved_iff (JournalWriter.reserved_names _ _) hsend).mp h
    exact absurd hfree (by decide)
  · rw [JournalHandler.entry_eq] at hemit
    have hfree := (precede_reserved_iff (labelled.reserved_names _ _) hemit).mp h
    exact absurd hfree (by decide)

end Mpsystemd
