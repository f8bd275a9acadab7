import Mpsystemd.Notices

/-! Text on the unix port, where a `str` is kept as bytes and the codec checks only
how they are put together: what becomes of a payload and of an address there. -/

namespace Mpsystemd

open Separator (Encodes)

namespace MicroPython

/-- The bytes of a code point in a `str`; a surrogate has some like the others. -/
def charBytes : CodePoint → Bytes
  | .scalar c => String.utf8EncodeChar c
  | .surrogate k => [0xED, UInt8.ofNat (k / 64 + 0xA0), UInt8.ofNat (k % 64 + 0x80)]

/-- The bytes of a `str`, which `encode` hands out as they are. -/
def textBytes (s : Str) : Bytes := s.flatMap charBytes

/-- How many bytes have to follow the first one of a sequence. -/
def following (b : UInt8) : Option Nat :=
  if b < 0x80 then some 0
  else if b < 0xC0 then none
  else if b < 0xE0 then some 1
  else if b < 0xF0 then some 2
  else if b < 0xF8 then some 3
  else none

/-- `utf8_check`, where so many bytes are to follow. A sequence may be longer than it
has to be, or of no code point at all. -/
def utf8Check : Nat → Bytes → Bool
  | 0, [] => true
  | _ + 1, [] => false
  | 0, b :: rest =>
    match following b with
    | some need => utf8Check need rest
    | none => false
  | need + 1, b :: rest => if 0x80 ≤ b ∧ b < 0xC0 then utf8Check need rest else false

/-- The `str` that `decode` returns, by its bytes. -/
def decode (b : Bytes) : Except PyErr Bytes := if utf8Check 0 b then .ok b else .error .unicodeError

/-! `build_payload` on such texts. -/

def stateText : StrOrBytes → Except PyErr Bytes
  | .text s => .ok (textBytes s)
  | .bytes b => decode b

def formatValue : Value → Except PyErr Bytes
  | .bytes b => decode b
  | .bool true => .ok (textBytes (str "1"))
  | .bool false => .ok (textBytes (str "0"))
  | .int i => .ok (textBytes (str (toString i)))
  | .text s => .ok (textBytes s)
  | .other s => .ok (textBytes s)

def assignment (rt : Runtime) : Str × Value → Except PyErr Bytes
  | (name, value) => do
    let upper ← checkName rt name
    let value ← formatValue value
    if 0x0A ∈ value then
      throw (.valueError "state field %s holds a newline, which would start a new assignment"
        [.text upper])
    return textBytes upper ++ 0x3D :: value

def payloadLines (rt : Runtime) (states : List StrOrBytes) (fields : Dict Str Value) :
    Except PyErr (List Bytes) := do
  let states ← states.mapM stateText
  let assignments ← fields.sorted.mapM (assignment rt)
  return (states.map (Separator.strip 0x0A)).filter (· ≠ []) ++ assignments

def buildPayload (rt : Runtime) (states : List StrOrBytes) (fields : Dict Str Value) :
    Except PyErr Bytes := do
  let lines ← payloadLines rt states fields
  if lines = [] then throw (.valueError "nothing to notify" [])
  return [0x0A].intercalate lines ++ [0x0A]

/-! The codec on what is UTF-8. -/

theorem textBytes_of_encodeUtf8 {s : Str} {data : Bytes} (h : encodeUtf8 s = .ok data) : textBytes s = data := by
  obtain ⟨chars, rfl⟩ := scalars_of_encodeUtf8 h
  rw [encodeUtf8_scalars, Except.ok.injEq] at h
  rw [← h, textBytes, List.flatMap_map]
  rfl

theorem encodeUtf8_of_encodable {s : Str} (h : Encodable s) : encodeUtf8 s = .ok (textBytes s) := by
  obtain ⟨data, hdata⟩ := h
  rw [hdata, textBytes_of_encodeUtf8 hdata]

theorem following_ofNat {n : Nat} (h : n < 256) : following (UInt8.ofNat n) =
    if n < 0x80 then some 0 else if n < 0xC0 then none else if n < 0xE0 then some 1
    else if n < 0xF0 then some 2 else if n < 0xF8 then some 3 else none := by
  have hlt : ∀ m < 256, UInt8.ofNat n < UInt8.ofNat m ↔ n < m := by
    intro m hm
    rw [UInt8.lt_iff_toNat_lt, UInt8.toNat_ofNat_of_lt' h, UInt8.toNat_ofNat_of_lt' hm]
  rw [following]
  simp only [show (0x80 : UInt8) = UInt8.ofNat 0x80 from rfl, show (0xC0 : UInt8) = UInt8.ofNat 0xC0 from rfl,
    show (0xE0 : UInt8) = UInt8.ofNat 0xE0 from rfl, show (0xF0 : UInt8) = UInt8.ofNat 0xF0 from rfl,
    show (0xF8 : UInt8) = UInt8.ofNat 0xF8 from rfl, hlt _ (by decide : 0x80 < 256), hlt _ (by decide : 0xC0 < 256),
    hlt _ (by decide : 0xE0 < 256), hlt _ (by decide : 0xF0 < 256), hlt _ (by decide : 0xF8 < 256)]

theorem utf8Check_following {need n : Nat} (h : n < 0x40) (rest : Bytes) :
    utf8Check (need + 1) (UInt8.ofNat (n + 0x80) :: rest) = utf8Check need rest := by
  have hbyte : 0x80 ≤ UInt8.ofNat (n + 0x80) ∧ UInt8.ofNat (n + 0x80) < 0xC0 := by
    rw [UInt8.le_iff_toNat_le, UInt8.lt_iff_toNat_lt, UInt8.toNat_ofNat_of_lt' (by simp [UInt8.size]; omega)]
    exact ⟨Nat.le_add_left _ _, Nat.add_lt_add_right h _⟩
  rw [utf8Check, if_pos hbyte]

theorem utf8Check_first (need : Nat) {n : Nat} (hbyte : n < 256)
    (hneed : (if n < 0x80 then some 0 else if n < 0xC0 then none else if n < 0xE0 then some 1
      else if n < 0xF0 then some 2 else if n < 0xF8 then some 3 else none) = some need) (rest : Bytes) :
    utf8Check 0 (UInt8.ofNat n :: rest) = utf8Check need rest := by
  rw [utf8Check, following_ofNat hbyte, hneed]

theorem utf8Check_char (c : Char) (rest : Bytes) :
    utf8Check 0 (String.utf8EncodeChar c ++ rest) = utf8Check 0 rest := by
  have hnext : ∀ {n need : Nat} {rest : Bytes},
      utf8Check (need + 1) (UInt8.ofNat (n % 0x40 + 0x80) :: rest) = utf8Check need rest :=
    utf8Check_following (Nat.mod_lt _ (by decide)) _
  simp only [String.utf8EncodeChar]
  split
  · exact utf8Check_first 0 (by omega) (if_pos (by omega)) rest
  · split
    · simp only [List.cons_append, List.nil_append]
      rw [utf8Check_first 1 (by omega) (by grind), hnext]
    · split
      · simp only [List.cons_append, List.nil_append]
        rw [utf8Check_first 2 (by omega) (by grind), hnext, hnext]
      · simp only [List.cons_append, List.nil_append]
        rw [utf8Check_first 3 (by omega) (by grind), hnext, hnext, hnext]

theorem utf8Check_scalars (chars : List Char) : utf8Check 0 (chars.flatMap String.utf8EncodeChar) = true := by
  induction chars with
  | nil => rfl
  | cons c chars ih => rw [List.flatMap_cons, utf8Check_char, ih]

theorem decode_of_decodeUtf8 {b : Bytes} {s : Str} (h : decodeUtf8 b = .ok s) : decode b = .ok (textBytes s) := by
  have hencode := encodeUtf8_of_decodeUtf8 h
  obtain ⟨chars, rfl⟩ := scalars_of_encodeUtf8 hencode
  rw [textBytes_of_encodeUtf8 hencode]
  rw [encodeUtf8_scalars, Except.ok.injEq] at hencode
  rw [decode, ← hencode, if_pos (utf8Check_scalars chars)]

/-- More is decoded there: an overlong NUL. -/
example : decode [0xC0, 0x80] = .ok [0xC0, 0x80] ∧ decodeUtf8 [0xC0, 0x80] = .error .unicodeError := by decide

/-! What is UTF-8 comes to the same payload. -/

theorem notMem_charBytes {char : CodePoint} (hchar : char ≠ newline) :
    charBytes char ≠ [] ∧ 0x0A ∉ charBytes char := by
  have hne : ∀ {n : Nat}, n < 256 → n ≠ 0x0A → (0x0A : UInt8) ≠ UInt8.ofNat n := by
    intro n hbyte hn heq
    have htoNat := congrArg UInt8.toNat heq
    rw [UInt8.toNat_ofNat_of_lt' hbyte] at htoNat
    exact hn htoNat.symm
  cases char with
  | scalar c =>
    refine ⟨String.utf8EncodeChar_ne_nil, ?_⟩
    have hc : c.val.toNat ≠ 0x0A := fun heq => hchar (congrArg CodePoint.scalar (Char.toNat_inj.mp heq))
    simp only [charBytes, String.utf8EncodeChar]
    split
    · exact fun h => hne (by omega) hc (List.mem_singleton.mp h)
    · split
      · simp only [List.mem_cons, List.not_mem_nil, or_false, not_or]
        exact ⟨hne (by omega) (by omega), hne (by omega) (by omega)⟩
      · split
        · simp only [List.mem_cons, List.not_mem_nil, or_false, not_or]
          exact ⟨hne (by omega) (by omega), hne (by omega) (by omega), hne (by omega) (by omega)⟩
        · simp only [List.mem_cons, List.not_mem_nil, or_false, not_or]
          exact ⟨hne (by omega) (by omega), hne (by omega) (by omega), hne (by omega) (by omega),
            hne (by omega) (by omega)⟩
  | surrogate k =>
    have hk := k.isLt
    refine ⟨List.cons_ne_nil _ _, ?_⟩
    simp only [charBytes, List.mem_cons, List.not_mem_nil, or_false, not_or]
    exact ⟨by decide, hne (by omega) (by omega), hne (by omega) (by omega)⟩

theorem encodes_textBytes : Encodes charBytes newline 0x0A := ⟨by decide, fun _ => notMem_charBytes⟩

end MicroPython

/-! The arguments that are UTF-8. -/

/-- A text without surrogates, or bytes that are UTF-8. -/
def StrOrBytes.WellFormed (state : StrOrBytes) : Prop := ∃ text, state.decode = .ok text ∧ Encodable text

def Value.WellFormed (value : Value) : Prop := ∃ text, formatValue value = .ok text ∧ Encodable text

theorem encodable_str (s : String) : Encodable (str s) := ⟨_, encodeUtf8_scalars s.toList⟩

namespace MicroPython

theorem stateText_of_wellFormed {state : StrOrBytes} (h : state.WellFormed) :
    stateText state = state.decode.map textBytes := by
  obtain ⟨text, htext, -⟩ := h
  cases state with
  | text s => rfl
  | bytes b =>
    have hdecode : decodeUtf8 b = .ok text := htext
    rw [stateText, decode_of_decodeUtf8 hdecode, htext]
    rfl

theorem formatValue_of_wellFormed {value : Value} (h : value.WellFormed) :
    formatValue value = (Mpsystemd.formatValue value).map textBytes := by
  obtain ⟨text, htext, -⟩ := h
  cases value with
  | bytes b =>
    have hdecode : decodeUtf8 b = .ok text := htext
    rw [formatValue, decode_of_decodeUtf8 hdecode, htext]
    rfl
  | bool b =>
    cases b with
    | true => rfl
    | false => rfl
  | int i | text s | other s => rfl

theorem assignment_of_wellFormed (rt : Runtime) {entry : Str × Value} (h : entry.2.WellFormed) :
    assignment rt entry = (Mpsystemd.assignment rt entry).map textBytes := by
  obtain ⟨name, value⟩ := entry
  have hformat : formatValue value = (Mpsystemd.formatValue value).map textBytes := formatValue_of_wellFormed h
  obtain ⟨text, htext, -⟩ := h
  have htext : Mpsystemd.formatValue value = .ok text := htext
  rw [assignment, Mpsystemd.assignment, hformat, htext]
  cases checkName rt name with
  | error e => rfl
  | ok upper =>
    simp only [Fallible.ok_bind, Except.map, encodes_textBytes.mark_mem_iff, textBytes]
    split
    · rfl
    · have hline : textBytes (upper ++ equals :: text) = textBytes upper ++ 0x3D :: textBytes text := by
        rw [textBytes, List.flatMap_append, List.flatMap_cons]
        rfl
      exact congrArg Except.ok hline.symm

theorem payloadLines_of_wellFormed (rt : Runtime) {states : List StrOrBytes} {fields : Dict Str Value}
    (hstates : ∀ state ∈ states, state.WellFormed) (hfields : ∀ entry ∈ fields.entries, entry.2.WellFormed) :
    payloadLines rt states fields = (Mpsystemd.payloadLines rt states fields).map (List.map textBytes) := by
  have hassignments : fields.sorted.mapM (assignment rt) =
      (fields.sorted.mapM (Mpsystemd.assignment rt)).map (List.map textBytes) :=
    Fallible.mapM_eq_map fun entry hentry => assignment_of_wellFormed rt (hfields entry (Dict.mem_sorted.mp hentry))
  rw [payloadLines, Mpsystemd.payloadLines, hassignments,
    Fallible.mapM_eq_map fun state hstate => stateText_of_wellFormed (hstates state hstate)]
  cases states.mapM StrOrBytes.decode with
  | error e => rfl
  | ok texts =>
    cases fields.sorted.mapM (Mpsystemd.assignment rt) with
    | error e => rfl
    | ok assigned =>
      have hstrip : (texts.map textBytes).map (Separator.strip 0x0A) =
          (texts.map (Separator.strip newline)).map textBytes := by
        rw [List.map_map, List.map_map]
        exact List.map_congr_left fun text _ => encodes_textBytes.strip_flatMap text
      have hfilter : ∀ texts : List Str,
          (texts.map textBytes).filter (· ≠ []) = (texts.filter (· ≠ [])).map textBytes := by
        intro texts
        rw [List.filter_map]
        refine congrArg (List.map textBytes) (List.filter_congr fun text _ => ?_)
        exact decide_eq_decide.mpr (not_congr encodes_textBytes.flatMap_eq_nil_iff)
      simp only [Fallible.ok_bind, Except.map, hstrip, hfilter]
      exact congrArg Except.ok (List.map_append ..).symm

/-- Of arguments that are UTF-8 the unix port makes the same payload as CPython, or
raises the same. -/
theorem buildPayload_of_wellFormed (rt : Runtime) {states : List StrOrBytes} {fields : Dict Str Value}
    (hstates : ∀ state ∈ states, state.WellFormed) (hfields : ∀ entry ∈ fields.entries, entry.2.WellFormed) :
    buildPayload rt states fields = Mpsystemd.buildPayload rt states fields := by
  rw [buildPayload, Mpsystemd.buildPayload, payloadLines_of_wellFormed rt hstates hfields]
  cases hlines : Mpsystemd.payloadLines rt states fields with
  | error e => rfl
  | ok lines =>
    have hencodable := encodable_joined.mpr ((payloadLines_encodable_iff hlines).mpr ⟨hstates, hfields⟩)
    have htext : textBytes ([newline].intercalate lines ++ [newline]) =
        [0x0A].intercalate (lines.map textBytes) ++ [0x0A] := by
      rw [textBytes, List.flatMap_append, encodes_textBytes.intercalate_flatMap]
      rfl
    simp only [Fallible.ok_bind, Except.map, List.map_eq_nil_iff, encodeUtf8_of_encodable hencodable, htext]
    rfl

end MicroPython

/-! The notifications. -/

namespace Notification

/-- Its texts have no surrogates, and its bytes are UTF-8. -/
def WellFormed : Notification → Prop
  | notify states fields => (∀ state ∈ states, state.WellFormed) ∧ ∀ entry ∈ fields.entries, entry.2.WellFormed
  | ready text | stopping text | reloading text => ∀ value ∈ text, value.WellFormed
  | status text => text.WellFormed
  | fdstore _ name _ => ∀ text ∈ name, Encodable text
  | fdstoreRemove name => Encodable name
  | _ => True

theorem wellFormed_str (s : String) : Value.WellFormed (.text (str s)) := ⟨str s, rfl, encodable_str s⟩

theorem wellFormed_int (i : Int) : Value.WellFormed (.int i) := ⟨_, rfl, encodable_str (toString i)⟩

theorem wellFormed_keywords {fields : List (String × Value)} (h : ∀ field ∈ fields, field.2.WellFormed) :
    ∀ entry ∈ (keywords fields).entries, entry.2.WellFormed := by
  intro entry hentry
  rcases Dict.mem_setAll hentry with hpairs | hempty
  · obtain ⟨field, hfield, rfl⟩ := List.mem_map.mp hpairs
    exact h field hfield
  · cases hempty

theorem wellFormed_cons {name : String} {value : Value} {fields : List (String × Value)} (hvalue : value.WellFormed)
    (h : ∀ field ∈ fields, field.2.WellFormed) : ∀ field ∈ (name, value) :: fields, field.2.WellFormed :=
  List.forall_mem_cons.mpr ⟨hvalue, h⟩

theorem wellFormed_keyword? (name : String) {value : Option Value} (h : ∀ v ∈ value, v.WellFormed) :
    ∀ field ∈ keyword? name value, field.2.WellFormed := by
  intro field hfield
  obtain ⟨v, hv, rfl⟩ := Option.map_eq_some_iff.mp (Option.mem_toList.mp hfield)
  exact h v hv

theorem wellFormed_storeFields {name : Option Str} (h : ∀ text ∈ name, Encodable text) (poll : Option Bool) :
    ∀ field ∈ storeFields name poll, field.2.WellFormed := by
  have hname : ∀ field ∈ keyword? "FDNAME" (name.map .text), field.2.WellFormed := by
    refine wellFormed_keyword? _ fun v hv => ?_
    obtain ⟨text, htext, rfl⟩ := Option.map_eq_some_iff.mp hv
    exact ⟨text, rfl, h text htext⟩
  have hpoll : ∀ field ∈ keyword? "FDPOLL" (poll.map .bool), field.2.WellFormed := by
    refine wellFormed_keyword? _ fun v hv => ?_
    obtain ⟨b, -, rfl⟩ := Option.map_eq_some_iff.mp hv
    cases b with
    | true => exact ⟨_, rfl, encodable_str "1"⟩
    | false => exact ⟨_, rfl, encodable_str "0"⟩
  exact wellFormed_cons (wellFormed_int 1) (List.forall_mem_append.mpr ⟨hname, hpoll⟩)

variable {c : Notification} {pid : Int} {now : Nat}

/-- So is all that `build_payload` is given. -/
theorem WellFormed.arguments (h : c.WellFormed) {states : List StrOrBytes} {fields : Dict Str Value}
    (hargs : c.arguments pid now = .ok (states, fields)) :
    (∀ state ∈ states, state.WellFormed) ∧ ∀ entry ∈ fields.entries, entry.2.WellFormed := by
  have hint : ∀ (name : String) (i : Int), ∀ entry ∈ (keywords [(name, .int i)]).entries, entry.2.WellFormed :=
    fun name i => wellFormed_keywords (List.forall_mem_singleton.mpr (wellFormed_int i))
  cases c with
  | notify states' fields' =>
    cases hargs
    exact h
  | ready text | stopping text =>
    cases hargs
    have hstatus := wellFormed_keyword? "STATUS" h
    exact ⟨List.forall_mem_nil _, wellFormed_keywords (wellFormed_cons (wellFormed_int 1) hstatus)⟩
  | reloading text =>
    cases hargs
    have hstatus := wellFormed_keyword? "STATUS" h
    exact ⟨List.forall_mem_nil _,
      wellFormed_keywords (wellFormed_cons (wellFormed_int 1) (wellFormed_cons (wellFormed_int now) hstatus))⟩
  | status text =>
    cases hargs
    exact ⟨List.forall_mem_nil _, wellFormed_keywords (List.forall_mem_singleton.mpr h)⟩
  | errno value | mainPid value | extendTimeout value =>
    obtain ⟨i, -, hargs⟩ := Fallible.bind_eq_ok.mp hargs
    cases hargs
    exact ⟨List.forall_mem_nil _, hint _ i⟩
  | watchdogPing =>
    cases hargs
    exact ⟨List.forall_mem_nil _, hint _ 1⟩
  | watchdogTrigger =>
    cases hargs
    exact ⟨List.forall_mem_nil _, wellFormed_keywords (List.forall_mem_singleton.mpr (wellFormed_str "trigger"))⟩
  | fdstore fds name poll =>
    rw [Notification.arguments] at hargs
    split at hargs
    · cases hargs
    · obtain ⟨accepted, haccepted, hargs⟩ := Fallible.bind_eq_ok.mp hargs
      cases hargs
      rw [mapM_checkFdname haccepted]
      exact ⟨List.forall_mem_nil _, wellFormed_keywords (wellFormed_storeFields h poll)⟩
  | fdstoreRemove name =>
    obtain ⟨accepted, haccepted, hargs⟩ := Fallible.bind_eq_ok.mp hargs
    cases hargs
    obtain ⟨rfl, -⟩ := checkFdname_ok haccepted
    have hname : Value.WellFormed (.text accepted) := ⟨accepted, rfl, h⟩
    exact ⟨List.forall_mem_nil _,
      wellFormed_keywords (wellFormed_cons (wellFormed_int 1) (List.forall_mem_singleton.mpr hname))⟩

end Notification

namespace MicroPython

variable {σ : Type}

def method (rt : Runtime) (c : Notification) : Py Notifier Bool := c.methodWith rt (buildPayload rt)

theorem method_of_wellFormed (rt : Runtime) {c : Notification} (h : c.WellFormed) : method rt c = c.method rt := by
  rw [Notification.method_eq, method]
  refine Notification.methodWith_congr rt fun pid now states fields hargs => ?_
  obtain ⟨hstates, hfields⟩ := h.arguments hargs
  exact buildPayload_of_wellFormed rt hstates hfields

/-- `encode` as it is there; bytes need none. -/
def encode : StrOrBytes → Bytes
  | .text s => textBytes s
  | .bytes b => b

def ofAddress (address : Option StrOrBytes) : Except PyErr Notifier :=
  match address.filter fun a => a ≠ .text [] ∧ a ≠ .bytes [] with
  | none => return ⟨none, none, none⟩
  | some address => do
    let sunPath ← encodeUnixAddress (.bytes (encode address))
    return ⟨some address, some sunPath, none⟩

theorem ofAddress_of_encodable {address : Option StrOrBytes}
    (h : ∀ text, address = some (.text text) → Encodable text) :
    ofAddress address = Notifier.ofAddress address := by
  cases hfilter : address.filter fun a => a ≠ .text [] ∧ a ≠ .bytes [] with
  | none => rw [ofAddress, Notifier.ofAddress, hfilter]
  | some given =>
    have hgiven : encodeUnixAddress (.bytes (encode given)) = encodeUnixAddress given := by
      cases given with
      | bytes b => rfl
      | text text =>
        have hencode := encodeUtf8_of_encodable (h text (Option.filter_eq_some_iff.mp hfilter).1)
        exact (encodeUnixAddress_text hencode).symm
    simp only [ofAddress, Notifier.ofAddress, hfilter, hgiven]

/-- `Notifier()`. -/
def newNotifier : Py σ Notifier := do
  let address ← (·.map .text) <$> getenv notifySocketEnv
  Method.lift (ofAddress address)

/-- The module level function of the notification. -/
def function (rt : Runtime) (c : Notification) : Py σ Bool := do
  let notifier ← newNotifier
  Method.zoom (fun _ => notifier) (fun self _ => self) (Method.ensuring (method rt c) (Notifier.close rt))

end MicroPython

end Mpsystemd
