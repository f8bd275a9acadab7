import Mpsystemd.Datagram
import Mpsystemd.Names
import Mpsystemd.Sending

/-! Storing descriptors with systemd: the names that it takes, and the message
that a store hands over. -/

namespace Mpsystemd

variable {rt : Runtime} {name : Str}

/-- systemd's rule for a descriptor's name: printable ASCII without a colon, and
at most 255 bytes of it. -/
def FdnameValid (data : Bytes) : Prop :=
  data.length ≤ fdnameMax ∧ ∀ b ∈ data, 0x20 ≤ b.toNat ∧ b.toNat ≤ 0x7E ∧ b.toNat ≠ 0x3A

instance : DecidablePred FdnameValid := fun _ => inferInstanceAs (Decidable (_ ∧ _))

/-- What goes out as `FDNAME=` is a name systemd takes. -/
def FdnameTaken (name : Str) : Prop := ∃ data, encodeUtf8 name = .ok data ∧ FdnameValid data

def Accepted (name : Str) : Prop := ∃ accepted, checkFdname name = .ok accepted

theorem accepted_iff : Accepted name ↔ name ≠ [] ∧ name.length ≤ fdnameMax ∧
    ∀ char ∈ name, char ≠ .scalar ':' ∧ 0x20 ≤ char.ord ∧ char.ord ≠ 0x7F := by
  have hchars : (∀ char ∈ name, char ≠ .scalar ':' ∧ 0x20 ≤ char.ord ∧ char.ord ≠ 0x7F) ↔
      ¬ ∃ char ∈ name, char = .scalar ':' ∨ char.ord < 0x20 ∨ char.ord = 0x7F := by
    push Not
    exact Iff.rfl
  rw [Accepted, checkFdname, hchars]
  by_cases hne : name = []
  · simp [hne]
  · by_cases hlong : name.length > fdnameMax
    · simp [hne, hlong]
    · by_cases hbad : ∃ char ∈ name, char = .scalar ':' ∨ char.ord < 0x20 ∨ char.ord = 0x7F
      · simp only [hne, hlong, hbad, if_false, if_true]
        simp
      · simp only [hne, hlong, hbad, if_false]
        simpa [hne] using hlong

theorem fdnameTaken_iff : FdnameTaken name ↔ Ascii name ∧ name.length ≤ fdnameMax ∧
    ∀ char ∈ name, char ≠ .scalar ':' ∧ 0x20 ≤ char.ord ∧ char.ord ≠ 0x7F := by
  have hcolon : ∀ char : CodePoint, char ≠ .scalar ':' ↔ char.ord ≠ 0x3A := fun char =>
    not_congr (CodePoint.ord_injective.eq_iff (a := char) (b := .scalar ':')).symm
  constructor
  · rintro ⟨data, hdata, hlength, hbytes⟩
    have hascii : Ascii name := by
      refine ascii_of_encodeUtf8 hdata fun b hb => ?_
      have := hbytes b hb
      omega
    rw [encodeUtf8_ascii hascii, Except.ok.injEq] at hdata
    subst hdata
    rw [List.length_map] at hlength
    refine ⟨hascii, hlength, fun char hchar => ?_⟩
    have hord := hascii char hchar
    have hvalid := hbytes _ (List.mem_map_of_mem hchar)
    rw [UInt8.toNat_ofNat_of_lt' (by simp [UInt8.size]; omega)] at hvalid
    rw [hcolon]
    omega
  · rintro ⟨hascii, hlength, hchars⟩
    refine ⟨_, encodeUtf8_ascii hascii, by rwa [List.length_map], ?_⟩
    refine List.forall_mem_map.mpr fun char hchar => ?_
    have hord := hascii char hchar
    have hvalid := hchars char hchar
    rw [hcolon] at hvalid
    rw [UInt8.toNat_ofNat_of_lt' (by simp [UInt8.size]; omega)]
    omega

/-! Names of other letters. -/

/-- In ASCII, or refused for its length or one of its characters. -/
def PlainOrRefused (name : Str) : Prop :=
  Ascii name ∨ name.length > fdnameMax ∨ ∃ char ∈ name, char = .scalar ':' ∨ char.ord < 0x20 ∨ char.ord = 0x7F

instance : DecidablePred PlainOrRefused := fun _ => inferInstanceAs (Decidable (_ ∨ _ ∨ _))

theorem fdname_exact_iff (hne : name ≠ []) : (Accepted name ↔ FdnameTaken name) ↔ PlainOrRefused name := by
  have hrefused :
      (name.length > fdnameMax ∨ ∃ char ∈ name, char = .scalar ':' ∨ char.ord < 0x20 ∨ char.ord = 0x7F) ↔
      ¬ Accepted name := by
    rw [accepted_iff, not_and, not_and]
    constructor
    · rintro (hlong | ⟨char, hchar, hbad⟩) _ hlength
      · exact absurd hlength (not_le.mpr hlong)
      · intro hchars
        have hvalid := hchars char hchar
        rcases hbad with hbad | hbad | hbad
        · exact hvalid.1 hbad
        · exact not_le.mpr hbad hvalid.2.1
        · exact hvalid.2.2 hbad
    · intro h
      by_cases hlength : name.length ≤ fdnameMax
      · have hchars := h hne hlength
        push Not at hchars
        obtain ⟨char, hchar, hbad⟩ := hchars
        refine .inr ⟨char, hchar, ?_⟩
        by_cases hcolon : char = .scalar ':'
        · exact .inl hcolon
        · by_cases hcontrol : char.ord < 0x20
          · exact .inr (.inl hcontrol)
          · exact .inr (.inr (hbad hcolon (not_lt.mp hcontrol)))
      · exact .inl (not_le.mp hlength)
  rw [PlainOrRefused, hrefused, fdnameTaken_iff, accepted_iff]
  tauto

/-! What the calls report. -/

theorem ends_fdstore_accepted {fds : FdsArg} {poll : Option Bool} {n : Notifier} {k : Kernel} :
    Py.Ends (Notifier.fdstore rt fds (some name) poll) (fun _ _ _ => Accepted name) (fun _ _ _ => True) n k := by
  rw [Notifier.fdstore]
  split
  · exact trivial
  · refine Method.obeys_bind.mpr ?_
    cases hname : checkFdname name with
    | error e =>
      have hmap : (some name).mapM checkFdname = .error e := by simp [hname]
      rw [hmap]
      exact trivial
    | ok accepted =>
      have hmap : (some name).mapM checkFdname = .ok (some accepted) := by simp [hname]
      rw [hmap]
      refine Method.obeys_lift_ok.mpr ?_
      exact Py.ends_of_forall (fun _ _ _ => ⟨accepted, hname⟩) (fun _ _ _ => trivial) _ _ _

theorem ends_fdstoreRemove_accepted {n : Notifier} {k : Kernel} :
    Py.Ends (Notifier.fdstoreRemove rt name) (fun _ _ _ => Accepted name) (fun _ _ _ => True) n k := by
  rw [Notifier.fdstoreRemove]
  refine Method.obeys_bind.mpr ?_
  cases hname : checkFdname name with
  | error e => exact trivial
  | ok accepted =>
    refine Method.obeys_lift_ok.mpr ?_
    exact Py.ends_of_forall (fun _ _ _ => ⟨accepted, hname⟩) (fun _ _ _ => trivial) _ _ _

/-- No `fdstore` and no `fdstore_remove` returns `True` for a name that systemd
does not take. -/
def ReportsTaken (rt : Runtime) (name : Str) : Prop :=
  ∀ (n : Notifier) (w : World),
    (∀ fds poll, ((Notifier.fdstore rt fds (some name) poll).run n w).1.1 = .ok true → FdnameTaken name) ∧
    (((Notifier.fdstoreRemove rt name).run n w).1.1 = .ok true → FdnameTaken name)

theorem Py.Ends.of_ok {σ α : Type} {m : Py σ α} {P : Prop} {s : σ} {w : World}
    (h : Py.Ends m (fun _ _ _ => P) (fun _ _ _ => True) s w.kernel) {a : α} (hrun : (m.run s w).1.1 = .ok a) :
    P := by
  have hpost := h.run
  obtain ⟨s', hs⟩ : ∃ s', (m.run s w).1 = (.ok a, s') := ⟨_, Prod.ext hrun rfl⟩
  rwa [hs] at hpost

theorem reportsTaken_of_exact (rt : Runtime) (h : Accepted name → FdnameTaken name) : ReportsTaken rt name :=
  fun _ _ =>
    ⟨fun _ _ hok => h (ends_fdstore_accepted.of_ok hok), fun hok => h (ends_fdstoreRemove_accepted.of_ok hok)⟩

/-- The check takes the names that systemd takes, and the calls report no other
as stored or removed, exactly when the name is in ASCII or refused anyway. -/
theorem fdname_checked_iff (rt : Runtime) (name : Str) (hne : name ≠ []) :
    (Accepted name ↔ FdnameTaken name) ∧ ReportsTaken rt name ↔ PlainOrRefused name := by
  rw [← fdname_exact_iff hne]
  exact ⟨fun h => h.1, fun h => ⟨h, reportsTaken_of_exact rt h.mp⟩⟩

theorem fdname_checked_iff_ascii : (Accepted (str "conn 1") ↔ FdnameTaken (str "conn 1")) ∧
    ReportsTaken .unixPort (str "conn 1") :=
  (fdname_checked_iff .unixPort (str "conn 1") (by decide)).mpr (.inl (by decide))

/-- A notifier on an open socket, in a process where descriptor 3 is open too. -/
def connected : Notifier := ⟨some (.text (str "/n")), some (bytes "/n"), some ⟨4, some (bytes "/n")⟩⟩

def storing : World where
  kernel := { Kernel.bare with
    table := fun fd => if fd = 3 then some ⟨.other 0, false⟩ else if fd = 4 then some ⟨.socket, true⟩ else none }
  choices _ := ⟨none, 5, 6, 0, 0⟩

/-- The store reports success for a name with an accent, which systemd discards. -/
theorem accented_name_reported :
    ((Notifier.fdstore .unixPort (.one 3) (some (str "é")) none).run connected storing).1.1 = .ok true ∧
      encodeUtf8 (str "é") = .ok [0xC3, 0xA9] ∧ ¬ FdnameValid [0xC3, 0xA9] ∧
      ¬ ((Accepted (str "é") ↔ FdnameTaken (str "é")) ∧ ReportsTaken .unixPort (str "é")) := by
  refine ⟨rfl, by decide, fun h => ?_, fun h => ?_⟩
  · exact absurd (h.2 0xC3 List.mem_cons_self).2.1 (by decide)
  · exact absurd ((fdname_exact_iff (by decide)).mp h.1) (by decide)

/-! The payload of a store. -/

def storeFields (name : Option Str) (poll : Option Bool) : List (String × Value) :=
  ("FDSTORE", .int 1) :: keyword? "FDNAME" (name.map .text) ++ keyword? "FDPOLL" (poll.map .bool)

/-- What the manager should read. -/
def storeAssignments (name : Option Str) (poll : Option Bool) : List (Str × Str) :=
  (str "FDSTORE", str "1") :: (name.map fun name => (str "FDNAME", name)).toList ++
    (poll.map fun poll => (str "FDPOLL", if poll then str "1" else str "0")).toList

def storeNames : List Str := [str "FDSTORE", str "FDNAME", str "FDPOLL"]

theorem mem_keywords {fields : List (String × Value)} (hnodup : (fields.map fun field => str field.1).Nodup)
    {entry : Str × Value} :
    entry ∈ (keywords fields).entries ↔ ∃ field ∈ fields, str field.1 = entry.1 ∧ field.2 = entry.2 := by
  have hkeys : ((fields.map fun field => (str field.1, field.2)).map Prod.fst).Nodup := by
    rw [List.map_map]
    exact hnodup
  have hget : (keywords fields).get? entry.1 =
      Dict.lastOf (fields.map fun field => (str field.1, field.2)) entry.1 := by
    rw [keywords, Dict.get?_setAll, Dict.get?_empty, Option.or_none]
  rw [← Dict.get?_eq_some_iff_mem, hget, Dict.lastOf_eq_some_iff_mem hkeys, List.mem_map]
  exact exists_congr fun field => and_congr_right fun _ => Prod.ext_iff

theorem storeFields_names (name : Option Str) (poll : Option Bool) :
    ((storeFields name poll).map fun field => str field.1).Sublist storeNames := by
  cases name
  all_goals cases poll
  all_goals simp only [storeFields, keyword?, Option.map_none, Option.map_some, Option.toList_none,
    Option.toList_some, List.append_nil, List.cons_append, List.nil_append, List.map_cons, List.map_nil]
  all_goals decide

theorem named_storeNames : ∀ name ∈ storeNames, Named Char.isUpper name := by decide

theorem mem_storeAssignments {name : Option Str} {poll : Option Bool} {key value : Str} :
    (key, value) ∈ storeAssignments name poll ↔
      ∃ field ∈ storeFields name poll, str field.1 = key ∧ formatValue field.2 = .ok value := by
  have hone : formatValue (.int 1) = .ok (str "1") := rfl
  have hname : ∀ name, formatValue (.text name) = .ok name := fun _ => rfl
  have hfalse : formatValue (.bool false) = .ok (str "0") := rfl
  have htrue : formatValue (.bool true) = .ok (str "1") := rfl
  cases name
  all_goals rcases poll with _ | _ | _
  all_goals simp [storeAssignments, storeFields, keyword?, hone, hname, hfalse, htrue, eq_comm]

/-- A value is the name, or one of the two digits. -/
theorem storeAssignments_value {name : Option Str} {poll : Option Bool} {key value : Str}
    (h : (key, value) ∈ storeAssignments name poll) : name = some value ∨ value = str "1" ∨ value = str "0" := by
  simp only [storeAssignments, List.mem_append, List.mem_cons, Prod.mk.injEq, Option.mem_toList,
    Option.map_eq_some_iff] at h
  rcases h with (⟨-, hvalue⟩ | ⟨name, hname, -, hvalue⟩) | ⟨poll, -, -, hvalue⟩
  · exact .inr (.inl hvalue)
  · exact .inl (hvalue ▸ hname)
  · cases poll with
    | false => exact .inr (.inr hvalue.symm)
    | true => exact .inr (.inl hvalue.symm)

theorem storeFields_format {name : Option Str} {poll : Option Bool} {field : String × Value}
    (h : field ∈ storeFields name poll) :
    ∃ value, formatValue field.2 = .ok value ∧ (str field.1, value) ∈ storeAssignments name poll := by
  have hformat : ∃ value, formatValue field.2 = .ok value := by
    simp only [storeFields, keyword?, List.mem_append, List.mem_cons, Option.mem_toList, Option.map_eq_some_iff]
      at h
    rcases h with (rfl | ⟨_, ⟨name, -, rfl⟩, rfl⟩) | ⟨_, ⟨poll, -, rfl⟩, rfl⟩
    · exact ⟨_, rfl⟩
    · exact ⟨_, rfl⟩
    · cases poll with
      | false => exact ⟨_, rfl⟩
      | true => exact ⟨_, rfl⟩
  obtain ⟨value, hvalue⟩ := hformat
  exact ⟨value, hvalue, mem_storeAssignments.mpr ⟨field, h, rfl, hvalue⟩⟩

theorem storeFields_nodup (name : Option Str) (poll : Option Bool) :
    ((storeFields name poll).map fun field => str field.1).Nodup :=
  (show storeNames.Nodup by decide).sublist (storeFields_names name poll)

theorem storePayload_isOk_iff (rt : Runtime) {name : Option Str} {poll : Option Bool}
    (hname : ∀ text, name = some text → Accepted text) :
    (∃ data, buildPayload rt [] (keywords (storeFields name poll)) = .ok data) ↔
      ∀ text, name = some text → Encodable text := by
  have hnodup := storeFields_nodup name poll
  have hentries : ∀ entry ∈ (keywords (storeFields name poll)).entries,
      (∃ upper, checkName rt entry.1 = .ok upper) ∧
      ∃ value, formatValue entry.2 = .ok value ∧ (entry.1, value) ∈ storeAssignments name poll := by
    intro entry hentry
    obtain ⟨field, hfield, hkey, hvalue⟩ := (mem_keywords hnodup).mp hentry
    rw [← hkey, ← hvalue]
    have hmem := (storeFields_names name poll).subset (List.mem_map_of_mem hfield)
    exact ⟨⟨_, checkName_of_named rt (named_storeNames _ hmem)⟩, storeFields_format hfield⟩
  have hset : ∀ field ∈ storeFields name poll,
      (str field.1, field.2) ∈ (keywords (storeFields name poll)).entries :=
    fun field hfield => (mem_keywords hnodup).mpr ⟨field, hfield, rfl, rfl⟩
  rw [buildPayload_isOk_iff]
  constructor
  · rintro hacceptable text rfl
    have hfield : ("FDNAME", Value.text text) ∈ storeFields (some text) poll := by simp [storeFields, keyword?]
    obtain ⟨value, hvalue, hencodable⟩ := hacceptable.values _ (hset _ hfield)
    cases hvalue
    exact hencodable
  · intro hencodable
    refine ⟨nofun, fun entry hentry => (hentries entry hentry).1, fun entry hentry => ?_,
      fun entry hentry value hvalue => ?_, .inl (List.ne_nil_of_mem (hset ("FDSTORE", .int 1) List.mem_cons_self))⟩
    · obtain ⟨value, hvalue, hassigned⟩ := (hentries entry hentry).2
      refine ⟨value, hvalue, ?_⟩
      rcases storeAssignments_value hassigned with htext | rfl | rfl
      · exact hencodable value htext
      · exact ⟨_, rfl⟩
      · exact ⟨_, rfl⟩
    · obtain ⟨value', hvalue', hassigned⟩ := (hentries entry hentry).2
      rw [hvalue, Except.ok.injEq] at hvalue'
      subst hvalue'
      rcases storeAssignments_value hassigned with htext | rfl | rfl
      · -- A newline is a control character, which no accepted name holds.
        intro hnewline
        have hchar := (accepted_iff.mp (hname value htext)).2.2 newline hnewline
        exact absurd hchar.2.1 (by decide)
      · decide
      · decide

/-- The message assigns what was asked for and nothing else. -/
def Assigns (data : Bytes) (assignments : List (Str × Str)) : Prop :=
  ∃ parsed, (Datagram.mk data []).fields = .ok parsed ∧
    ∀ key value, parsed.get? key = some value ↔ (key, value) ∈ assignments

theorem storePayload_assigns {name : Option Str} {poll : Option Bool} {data : Bytes}
    (h : buildPayload rt [] (keywords (storeFields name poll)) = .ok data) :
    Assigns data (storeAssignments name poll) := by
  have hnodup := storeFields_nodup name poll
  have hupper : ∀ entry ∈ (keywords (storeFields name poll)).entries, rt.upper entry.1 = entry.1 := by
    intro entry hentry
    obtain ⟨field, hfield, hkey, -⟩ := (mem_keywords hnodup).mp hentry
    have hmem := (storeFields_names name poll).subset (List.mem_map_of_mem hfield)
    rw [← hkey]
    exact upper_of_named rt (named_storeNames _ hmem)
  have hdistinct : ((keywords (storeFields name poll)).entries.map fun entry => rt.upper entry.1).Nodup := by
    rw [List.map_congr_left hupper]
    exact (keywords (storeFields name poll)).nodup
  obtain ⟨parsed, hparsed, hget⟩ := get?_fields_buildPayload h [] hdistinct
  refine ⟨parsed, hparsed, fun key value => ?_⟩
  rw [hget, mem_storeAssignments]
  constructor
  · rintro ⟨entry, hentry, hkey, hvalue⟩
    rw [hupper entry hentry] at hkey
    obtain ⟨field, hfield, hname, hsame⟩ := (mem_keywords hnodup).mp hentry
    exact ⟨field, hfield, hname.trans hkey, hsame ▸ hvalue⟩
  · rintro ⟨field, hfield, hkey, hvalue⟩
    have hentry := (@mem_keywords _ hnodup (str field.1, field.2)).mpr ⟨field, hfield, rfl, rfl⟩
    exact ⟨_, hentry, (hupper _ hentry).trans hkey, hvalue⟩

/-! One message or none. -/

/-- A C int. -/
def CInt (fd : Fd) : Prop := -2 ^ 31 ≤ fd ∧ fd < 2 ^ 31

def StoreRejected (fds : List Fd) (name : Option Str) : Prop :=
  fds = [] ∨ fds.length > maxFdsPerMessage ∨ ∃ text, name = some text ∧ ¬ (Accepted text ∧ Encodable text)

theorem rights_of_cInts {fds : List Fd} (h : ∀ fd ∈ fds, CInt fd) :
    UnixDatagram.rights rt fds = if fds.length > maxFdsPerMessage then
      .error (.valueError "at most %d descriptors fit in one message" [.int maxFdsPerMessage]) else .ok fds := by
  have hpack : fds.mapM (UnixDatagram.packFd rt) = .ok fds := by
    induction fds with
    | nil => rfl
    | cons fd fds ih =>
      obtain ⟨hfd, hfds⟩ := List.forall_mem_cons.mp h
      have hone : UnixDatagram.packFd rt fd = .ok fd := if_pos hfd
      rw [List.mapM_cons, hone, ih hfds]
      rfl
  rw [UnixDatagram.rights, hpack]

theorem checkFdname_error {e : PyErr} (h : checkFdname name = .error e) : e.IsValueError := by
  rw [checkFdname] at h
  split at h
  · cases h
    trivial
  · split at h
    · cases h
      trivial
    · split at h
      · cases h
        trivial
      · cases h

/-- What a store comes to: it is rejected, or one message that assigns what was
asked for is handed over. -/
def StoreMade (rt : Runtime) (path : Bytes) (fds : List Fd) (name : Option Str) (poll : Option Bool) (k : Kernel)
    (b : Bool) (r : Kernel × List SysCall) : Prop :=
  ¬ StoreRejected fds name ∧ b = true ∧ ∃ data message,
    Notifier.HandsOver rt path data fds k r.1 message ∧ Assigns data (storeAssignments name poll)

def StoreNotMade (fds : List Fd) (name : Option Str) (k : Kernel) (e : PyErr) (r : Kernel × List SysCall) : Prop :=
  r.1.sent = k.sent ∧ (StoreRejected fds name ∧ e.IsValueError ∨ SomeFails r.2)

section Store

variable {n : Notifier} {path : Bytes} {k : Kernel} {calls : List SysCall} {fds : FdsArg} {poll : Option Bool}

theorem records_storePayload (hn : n.Reaches path) (hints : ∀ fd ∈ fds.toList, CInt fd) (hfds : fds.toList ≠ [])
    {name : Option Str} (haccepted : ∀ text, name = some text → Accepted text) :
    Py.Records
      (do
        let payload ← Method.lift (buildPayload rt [] (keywords (storeFields name poll)))
        Notifier.sendRaw rt (.bytes payload) fds.toList)
      (fun b _ r => StoreMade rt path fds.toList name poll k b r) (fun e _ r => StoreNotMade fds.toList name k e r)
      n k calls := by
  refine Method.obeys_bind.mpr ?_
  cases hpayload : buildPayload rt [] (keywords (storeFields name poll)) with
  | error e =>
    have hencodable : ¬ ∀ text, name = some text → Encodable text := by
      rw [← storePayload_isOk_iff rt haccepted, hpayload]
      rintro ⟨data, hdata⟩
      cases hdata
    push Not at hencodable
    obtain ⟨text, htext, hnot⟩ := hencodable
    exact ⟨rfl, .inl ⟨.inr (.inr ⟨text, htext, fun h => hnot h.2⟩), buildPayload_error hpayload⟩⟩
  | ok data =>
    have hencodable := (storePayload_isOk_iff rt haccepted).mp ⟨data, hpayload⟩
    refine Method.obeys_lift_ok.mpr ((Notifier.records_sendRaw hn).mono ?_ ?_)
    · rintro b n' r ⟨rfl, -, message, hmessage⟩
      obtain ⟨rights, hrights, -⟩ := hmessage.files
      refine ⟨?_, rfl, data, message, hmessage, storePayload_assigns hpayload⟩
      rintro (hnil | hmany | ⟨text, htext, hnot⟩)
      · exact hfds hnil
      · rw [UnixDatagram.rights, if_pos hmany] at hrights
        cases hrights
      · exact hnot ⟨haccepted text htext, hencodable text htext⟩
    · rintro e n' r ⟨-, hnothing⟩
      refine ⟨hnothing.sent, ?_⟩
      rcases hnothing.cause with hrights | hfails
      · rw [rights_of_cInts hints] at hrights
        split at hrights
        · next hmany =>
          cases hrights
          exact .inl ⟨.inr (.inl hmany), trivial⟩
        · cases hrights
      · exact .inr hfails

theorem records_fdstore (hn : n.Reaches path) (hints : ∀ fd ∈ fds.toList, CInt fd) (name : Option Str) :
    Py.Records (Notifier.fdstore rt fds name poll) (fun b _ r => StoreMade rt path fds.toList name poll k b r)
      (fun e _ r => StoreNotMade fds.toList name k e r) n k calls := by
  rw [Notifier.fdstore]
  split
  · next hnil => exact ⟨rfl, .inl ⟨.inl hnil, trivial⟩⟩
  · next hfds =>
    refine Method.obeys_bind.mpr ?_
    cases name with
    | none =>
      refine Method.obeys_lift_ok.mpr (records_storePayload hn hints hfds ?_)
      rintro _ ⟨⟩
    | some text =>
      cases hname : checkFdname text with
      | error e =>
        have hmap : (some text).mapM checkFdname = .error e := by simp [hname]
        rw [hmap]
        have hrefused : ¬ Accepted text := by
          rintro ⟨accepted, haccepted⟩
          rw [hname] at haccepted
          cases haccepted
        exact ⟨rfl, .inl ⟨.inr (.inr ⟨text, rfl, fun h => hrefused h.1⟩), checkFdname_error hname⟩⟩
      | ok accepted =>
        have hmap : (some text).mapM checkFdname = .ok (some text) := by
          rw [(checkFdname_ok hname).1] at hname
          simp [hname]
        rw [hmap]
        refine Method.obeys_lift_ok.mpr (records_storePayload hn hints hfds ?_)
        rintro _ ⟨rfl⟩
        exact ⟨accepted, hname⟩

end Store

/-! Stores on a socket that accepts messages. -/

theorem packFd_of_cInt {fd : Fd} (h : CInt fd) : UnixDatagram.packFd rt fd = .ok fd := if_pos h

theorem attachable_of_cInts {n : Notifier} {w : World} {fds : List Fd} (h : ∀ fd ∈ fds, CInt fd) :
    Attachable rt n w fds ↔ fds.length ≤ maxFdsPerMessage ∧ ∀ fd ∈ fds, OpenFor n w fd := by
  refine and_congr_right fun _ => forall₂_congr fun fd hfd => ?_
  simp [packFd_of_cInt (h fd hfd)]

/-- A store is rejected for its arguments, or it is made, or one of the descriptors
is not open. -/
def StoreEnds (n : Notifier) (w : World) (fds : List Fd) (name : Option Str) (result : Except PyErr Bool) : Prop :=
  StoreRejected fds name ∧ (∃ e, result = .error e ∧ e.IsValueError) ∨
    ¬ StoreRejected fds name ∧ ((∀ fd ∈ fds, OpenFor n w fd) ∧ result = .ok true ∨
      (¬ ∀ fd ∈ fds, OpenFor n w fd) ∧ result = .error (.osError Errno.badf))

section Accepted

variable {n : Notifier} {w : World} {path : Bytes} {fds : FdsArg} {poll : Option Bool}

theorem run_storePayload (h : Accepts n w path) (hints : ∀ fd ∈ fds.toList, CInt fd) (hfds : fds.toList ≠ [])
    {name : Option Str} (haccepted : ∀ text, name = some text → Accepted text) :
    StoreEnds n w fds.toList name (Py.run
      (do
        let payload ← Method.lift (buildPayload rt [] (keywords (storeFields name poll)))
        Notifier.sendRaw rt (.bytes payload) fds.toList) n w).1.1 := by
  rcases Fallible.isOk_or_isError (buildPayload rt [] (keywords (storeFields name poll))) with
    ⟨data, hpayload⟩ | ⟨e, hpayload⟩
  · have hencodable := (storePayload_isOk_iff rt haccepted).mp ⟨data, hpayload⟩
    have hlift : Py.run (Method.lift (buildPayload rt [] (keywords (storeFields name poll)))) n w =
        ((.ok data, n), w) := by
      rw [hpayload]
      rfl
    rw [Py.run, Method.run_bind_ok hlift]
    have hrejected : StoreRejected fds.toList name ↔ fds.toList.length > maxFdsPerMessage := by
      constructor
      · rintro (hnil | hmany | ⟨text, htext, hnot⟩)
        · exact absurd hnil hfds
        · exact hmany
        · exact absurd ⟨haccepted text htext, hencodable text htext⟩ hnot
      · exact fun hmany => .inr (.inl hmany)
    have hattachable := @attachable_of_cInts rt n w fds.toList hints
    rw [StoreEnds, hrejected]
    rcases @run_sendRaw rt n w path h data fds.toList with ⟨hattach, hsent, -⟩ | ⟨hnot, e, hcause, hraised⟩
    · obtain ⟨hfew, hopen⟩ := hattachable.mp hattach
      exact .inr ⟨not_lt.mpr hfew, .inl ⟨hopen, hsent⟩⟩
    · rw [NotSent, rights_of_cInts hints] at hcause
      by_cases hmany : fds.toList.length > maxFdsPerMessage
      · rw [if_pos hmany] at hcause
        rcases hcause with hrights | ⟨⟨rights, hrights⟩, -⟩
        · cases hrights
          exact .inl ⟨hmany, _, hraised, trivial⟩
        · cases hrights
      · rw [if_neg hmany] at hcause
        rcases hcause with hrights | ⟨-, rfl⟩
        · cases hrights
        · have hclosed : ¬ ∀ fd ∈ fds.toList, OpenFor n w fd := fun hopen =>
            hnot (hattachable.mpr ⟨not_lt.mp hmany, hopen⟩)
          exact .inr ⟨hmany, .inr ⟨hclosed, hraised⟩⟩
  · have hencodable : ¬ ∀ text, name = some text → Encodable text := by
      rw [← storePayload_isOk_iff rt haccepted, hpayload]
      rintro ⟨data, hdata⟩
      cases hdata
    push Not at hencodable
    obtain ⟨text, htext, hnot⟩ := hencodable
    have hlift : Py.run (Method.lift (buildPayload rt [] (keywords (storeFields name poll)))) n w =
        ((.error e, n), w) := by
      rw [hpayload]
      rfl
    rw [Py.run, Method.run_bind_error hlift]
    exact .inl ⟨.inr (.inr ⟨text, htext, fun hboth => hnot hboth.2⟩), e, rfl, buildPayload_error hpayload⟩

theorem run_fdstore (h : Accepts n w path) (hints : ∀ fd ∈ fds.toList, CInt fd) (name : Option Str) :
    StoreEnds n w fds.toList name ((Notifier.fdstore rt fds name poll).run n w).1.1 := by
  rw [Notifier.fdstore]
  by_cases hnil : fds.toList = []
  · rw [if_pos hnil]
    exact .inl ⟨.inl hnil, _, rfl, trivial⟩
  · rw [if_neg hnil]
    cases name with
    | none =>
      have hnone : ∀ text, (none : Option Str) = some text → Accepted text := fun _ hsome => by cases hsome
      exact run_storePayload h hints hnil hnone
    | some text =>
      rcases Fallible.isOk_or_isError (checkFdname text) with ⟨accepted, hname⟩ | ⟨e, hname⟩
      · have hmap : (some text).mapM checkFdname = .ok (some text) := by
          rw [(checkFdname_ok hname).1] at hname
          simp [hname]
        rw [hmap]
        refine run_storePayload h hints hnil fun _ hsome => ?_
        cases hsome
        exact ⟨accepted, hname⟩
      · have hmap : (some text).mapM checkFdname = .error e := by simp [hname]
        have hrefused : ¬ Accepted text := by
          rintro ⟨accepted, haccepted⟩
          rw [hname] at haccepted
          cases haccepted
        rw [hmap]
        exact .inl ⟨.inr (.inr ⟨text, rfl, fun hboth => hrefused hboth.1⟩), e, rfl, checkFdname_error hname⟩

end Accepted

/-- On a socket that accepts messages, a store that is rejected raises a value error
and hands over nothing. Any other hands over one message that assigns what was
asked for, with the files of the descriptors in order, when these are open; with
one that is not, it raises the kernel's error and hands over nothing. -/
theorem fdstore_one_or_nothing (rt : Runtime) {n : Notifier} {path : Bytes} {w : World} (h : Accepts n w path)
    (fds : FdsArg) (hints : ∀ fd ∈ fds.toList, CInt fd) (name : Option Str) (poll : Option Bool) :
    let ended := (Notifier.fdstore rt fds name poll).run n w
    (StoreRejected fds.toList name →
      (∃ e, ended.1.1 = .error e ∧ e.IsValueError) ∧ ended.2.kernel.sent = w.kernel.sent) ∧
    (¬ StoreRejected fds.toList name → (∀ fd ∈ fds.toList, OpenFor n w fd) → ended.1.1 = .ok true ∧
      ∃ message, message.peer = path ∧ ended.2.kernel.sent = w.kernel.sent ++ [message] ∧
        Assigns message.data (storeAssignments name poll) ∧
        fds.toList.mapM ended.2.kernel.fileAt = some message.files) ∧
    (¬ StoreRejected fds.toList name → (¬ ∀ fd ∈ fds.toList, OpenFor n w fd) →
      ended.1.1 = .error (.osError Errno.badf) ∧ ended.2.kernel.sent = w.kernel.sent) := by
  intro ended
  have hpost := (@records_fdstore rt n path w.kernel [] fds poll h.reaches hints name).run
  rw [List.nil_append] at hpost
  have hends : StoreEnds n w fds.toList name ended.1.1 := run_fdstore h hints name
  obtain ⟨result, n', hended⟩ : ∃ result n', ended.1 = (result, n') := ⟨_, _, rfl⟩
  rw [show ((Notifier.fdstore rt fds name poll).run n w).1 = _ from hended] at hpost
  rw [hended] at hends ⊢
  cases result with
  | ok b =>
    obtain ⟨hrejected, rfl, data, message, hmessage, hassigns⟩ := hpost
    obtain ⟨rights, hrights, hfiles⟩ := hmessage.files
    rw [rights_of_cInts hints] at hrights
    split at hrights
    · cases hrights
    · cases hrights
      rcases hends with ⟨hreject, -⟩ | ⟨-, ⟨hopen, -⟩ | ⟨-, hraised⟩⟩
      · exact absurd hreject hrejected
      · exact ⟨fun hreject => absurd hreject hrejected,
          fun _ _ => ⟨rfl, message, hmessage.peer, hmessage.sent, hmessage.data ▸ hassigns, hfiles⟩,
          fun _ hclosed => absurd hopen hclosed⟩
      · cases hraised
  | error e =>
    obtain ⟨hsent, -⟩ := hpost
    rcases hends with ⟨hreject, hraised⟩ | ⟨hrejected, ⟨-, hok⟩ | ⟨hclosed, hraised⟩⟩
    · exact ⟨fun _ => ⟨hraised, hsent⟩, fun hrejected => absurd hreject hrejected,
        fun hrejected => absurd hreject hrejected⟩
    · cases hok
    · exact ⟨fun hreject => absurd hreject hrejected, fun _ hopen => absurd hopen hclosed,
        fun _ _ => ⟨hraised, hsent⟩⟩

theorem connected_reaches : connected.Reaches (bytes "/n") := by
  refine ⟨rfl, fun sock hsock => ?_⟩
  cases hsock
  rfl

theorem accepts_storing : Accepts connected storing (bytes "/n") := by
  have hfree : storing.kernel.Free 5 := by decide
  refine ⟨connected_reaches, fun _ => rfl, fun sock hsock => ?_, fun _ => hfree⟩
  cases hsock
  rfl

theorem not_storeRejected_none {fd : Fd} : ¬ StoreRejected (FdsArg.one fd).toList none := by
  rintro (hnil | hmany | ⟨text, htext, -⟩)
  · cases hnil
  · exact absurd hmany (by simp [FdsArg.toList, maxFdsPerMessage])
  · cases htext

theorem fdstore_one_or_nothing_named :
    let ended := (Notifier.fdstore .unixPort (.one 3) (some (str "conn")) (some false)).run connected storing
    ended.1.1 = .ok true ∧ ∃ message, ended.2.kernel.sent = [message] ∧
      Assigns message.data [(str "FDSTORE", str "1"), (str "FDNAME", str "conn"), (str "FDPOLL", str "0")] ∧
      message.files = [.other 0] := by
  have hints : ∀ fd ∈ (FdsArg.one 3).toList, CInt fd :=
    List.forall_mem_singleton.mpr ⟨by decide, by decide⟩
  have hrejected : ¬ StoreRejected (FdsArg.one 3).toList (some (str "conn")) := by
    rintro (hnil | hmany | ⟨text, htext, hnot⟩)
    · cases hnil
    · exact absurd hmany (by decide)
    · cases htext
      exact hnot ⟨⟨str "conn", by decide⟩, ⟨bytes "conn", by decide⟩⟩
  have hopen : ∀ fd ∈ (FdsArg.one 3).toList, OpenFor connected storing fd :=
    List.forall_mem_singleton.mpr (.inl rfl)
  obtain ⟨-, hmade, -⟩ :=
    fdstore_one_or_nothing .unixPort accepts_storing (.one 3) hints (some (str "conn")) (some false)
  obtain ⟨hok, message, -, hsent, hassigns, hfiles⟩ := hmade hrejected hopen
  exact ⟨hok, message, hsent, hassigns, (Option.some.inj hfiles).symm⟩

/-- A descriptor that is not open is nothing that `fdstore` refuses, but `sendmsg`
does: no value error, and no message. -/
theorem closed_descriptor_not_stored :
    Accepts connected storing (bytes "/n") ∧ CInt 999 ∧ ¬ StoreRejected (FdsArg.one 999).toList none ∧
      let ended := (Notifier.fdstore .unixPort (.one 999) none none).run connected storing
      ended.1.1 = .error (.osError Errno.badf) ∧ ¬ (PyErr.osError Errno.badf).IsValueError ∧
        ended.2.kernel.sent = storing.kernel.sent :=
  ⟨accepts_storing, ⟨by decide, by decide⟩, not_storeRejected_none, rfl, fun h => h, rfl⟩

end Mpsystemd
