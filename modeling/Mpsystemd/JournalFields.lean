import Mpsystemd.Python
import Mpsystemd.Lib.Dict
import Mpsystemd.Lib.Fallible
import Mpsystemd.Lib.Separator
import Mpsystemd.Lib.LittleEndian

/-! The journal's native field format: the encoder of a journal entry, and a
reader of the format as the journal module describes it. -/

namespace Mpsystemd.Journal

def fieldNameMax : Nat := 64

def nameChars : Str := str "ABCDEFGHIJKLMNOPQRSTUVWXYZ0123456789_"

def digits : Str := str "0123456789"

def newline : UInt8 := 0x0A

def equals : UInt8 := 0x3D

def checkFieldName (rt : Runtime) (name : Str) : Except PyErr Str :=
  match rt.upper name with
  | [] => .error (.journalError "journal field name is empty" [])
  | first :: rest =>
    if (first :: rest).length > fieldNameMax then
      .error (.journalError "journal field name is longer than %d characters: %r"
        [.int fieldNameMax, .text name])
    else if first = .scalar '_' then
      .error (.journalError "journal field names starting with an underscore are reserved: %r"
        [.text name])
    else if first ∈ digits then
      .error (.journalError "journal field name starts with a digit: %r" [.text name])
    else if ∃ char ∈ first :: rest, char ∉ nameChars then
      .error (.journalError "journal field name has an invalid character: %r" [.text name])
    else .ok (first :: rest)

def asBytes : Value → Except PyErr Bytes
  | .bytes b => .ok b
  | .bool true => .ok (bytes "1")
  | .bool false => .ok (bytes "0")
  | .int i => encodeUtf8 (str (toString i))
  | .text s => encodeUtf8 s
  | .other s => encodeUtf8 s

/-- `struct.pack("<Q", n)`. -/
def packLength (n : Nat) : Except PyErr Bytes :=
  if n < 2 ^ 64 then .ok (LittleEndian.pack 8 n) else .error .structError

def encodeField (rt : Runtime) (name : Str) (value : Value) : Except PyErr Bytes := do
  let upper ← checkFieldName rt name
  let raw ← asBytes value
  if newline ∈ raw then
    let label ← encodeAscii upper
    let length ← packLength raw.length
    return label ++ [newline] ++ length ++ raw ++ [newline]
  else
    let label ← encodeAscii upper
    return label ++ [equals] ++ raw ++ [newline]

/-- The argument of `encode_fields`: a mapping, or a sequence of pairs. -/
inductive Fields where
  | mapping (fields : Dict Str Value)
  | pairs (items : List (Str × Value))

/-- A mapping is emitted by sorted name, a sequence in its own order. -/
def Fields.items : Fields → List (Str × Value)
  | mapping fields => fields.sorted
  | pairs items => items

def encodeFields (rt : Runtime) (fields : Fields) : Except PyErr Bytes :=
  if fields.items = [] then
    .error (.journalError "journal entry has no fields" [])
  else do
    let parts ← fields.items.mapM fun (name, value) => encodeField rt name value
    return parts.flatten

/-! The reader. -/

inductive ReadError where
  | unterminatedLine
  | emptyLine
  | shortLength
  | shortValue
  | unterminatedValue
  deriving DecidableEq, Repr

def asciiText (b : Bytes) : Str := b.map fun x => .scalar (Char.ofNat x.toNat)

def readSized (body : Bytes) : Except ReadError (Bytes × Bytes) :=
  if body.length < 8 then .error .shortLength
  else
    let length := LittleEndian.unpack (body.take 8)
    let rest := body.drop 8
    if rest.length < length then .error .shortValue
    else
      match rest.drop length with
      | [] => .error .unterminatedValue
      | byte :: after =>
        if byte = newline then .ok (rest.take length, after) else .error .unterminatedValue

def readField (body : Bytes) : Except ReadError ((Str × Bytes) × Bytes) :=
  match Separator.cut newline body with
  | none => .error .unterminatedLine
  | some (line, rest) =>
    if line = [] then .error .emptyLine
    else
      match Separator.cut equals line with
      | some (name, value) => .ok ((asciiText name, value), rest)
      | none => do
        let (value, after) ← readSized rest
        return ((asciiText line, value), after)

theorem readSized_shorter {body value after : Bytes} (h : readSized body = .ok (value, after)) :
    after.length < body.length := by
  rw [readSized] at h
  split at h
  · cases h
  · dsimp only at h
    split at h
    · cases h
    · split at h
      · cases h
      · next byte rest hd =>
        have hlen := congrArg List.length hd
        simp only [List.length_drop, List.length_cons] at hlen
        split at h
        · simp only [Except.ok.injEq, Prod.mk.injEq] at h
          rw [← h.2]
          omega
        · cases h

theorem readField_shorter {body rest : Bytes} {field : Str × Bytes}
    (h : readField body = .ok (field, rest)) : rest.length < body.length := by
  rw [readField] at h
  cases hc : Separator.cut newline body with
  | none => simp [hc] at h
  | some split =>
    obtain ⟨line, tail⟩ := split
    have htail := Separator.cut_rest_length hc
    simp only [hc] at h
    split at h
    · cases h
    · cases he : Separator.cut equals line with
      | some split =>
        simp only [he, Except.ok.injEq, Prod.mk.injEq] at h
        rw [← h.2]
        exact htail
      | none =>
        simp only [he] at h
        obtain ⟨⟨value, after⟩, hs, hr⟩ := Fallible.bind_eq_ok.mp h
        have hshort := readSized_shorter hs
        simp only [Fallible.pure_eq_ok, Except.ok.injEq, Prod.mk.injEq] at hr
        rw [← hr.2]
        omega

def readFields (body : Bytes) : Except ReadError (List (Str × Bytes)) :=
  if body = [] then .ok []
  else
    match _h : readField body with
    | .error e => .error e
    | .ok (field, rest) =>
      match readFields rest with
      | .error e => .error e
      | .ok fields => .ok (field :: fields)
termination_by body.length
decreasing_by exact readField_shorter ‹_›

theorem readFields_cons {body rest : Bytes} {field : Str × Bytes} {fields : List (Str × Bytes)}
    (hf : readField body = .ok (field, rest)) (hr : readFields rest = .ok fields) :
    readFields body = .ok (field :: fields) := by
  have hne : body ≠ [] := by
    rintro rfl
    simp [readField, Separator.cut] at hf
  rw [readFields, if_neg hne]
  split
  · next e he => simp [hf] at he
  · next f r he =>
    rw [hf, Except.ok.injEq, Prod.mk.injEq] at he
    obtain ⟨rfl, rfl⟩ := he
    simp only [hr]

/-! Reading back what was encoded. -/

theorem nameChars_ascii : ∀ c ∈ nameChars, c.ord < 128 ∧ UInt8.ofNat c.ord ≠ newline ∧
    UInt8.ofNat c.ord ≠ equals ∧
    CodePoint.scalar (Char.ofNat (UInt8.ofNat c.ord).toNat) = c := by
  decide

theorem checkFieldName_ok {rt : Runtime} {name upper : Str}
    (h : checkFieldName rt name = .ok upper) :
    upper = rt.upper name ∧ upper ≠ [] ∧ ∀ c ∈ upper, c ∈ nameChars := by
  rw [checkFieldName] at h
  cases hu : rt.upper name with
  | nil => simp [hu] at h
  | cons first rest =>
    simp only [hu] at h
    split at h
    · cases h
    · split at h
      · cases h
      · split at h
        · cases h
        · split at h
          · cases h
          · next hchars =>
            simp only [Except.ok.injEq] at h
            subst h
            push Not at hchars
            exact ⟨rfl, by simp, hchars⟩

theorem encodeAscii_of_nameChars {upper : Str} (h : ∀ c ∈ upper, c ∈ nameChars) :
    ∃ label, encodeAscii upper = .ok label ∧ newline ∉ label ∧ equals ∉ label ∧
      asciiText label = upper := by
  refine ⟨upper.map fun c => UInt8.ofNat c.ord, ?_, ?_, ?_, ?_⟩
  · have hall : upper.all (·.ord < 128) = true := by
      simpa using fun c hc => (nameChars_ascii c (h c hc)).1
    simp only [encodeAscii, hall, if_true]
  · intro hm
    obtain ⟨c, hc, he⟩ := List.mem_map.mp hm
    exact (nameChars_ascii c (h c hc)).2.1 he
  · intro hm
    obtain ⟨c, hc, he⟩ := List.mem_map.mp hm
    exact (nameChars_ascii c (h c hc)).2.2.1 he
  · simp only [asciiText, List.map_map]
    calc upper.map _ = upper.map id :=
          List.map_congr_left fun c hc => (nameChars_ascii c (h c hc)).2.2.2
      _ = upper := List.map_id _

theorem readSized_pack {raw : Bytes} (h : raw.length < 2 ^ 64) (rest : Bytes) :
    readSized (LittleEndian.pack 8 raw.length ++ raw ++ newline :: rest) = .ok (raw, rest) := by
  have hlen := LittleEndian.pack_length 8 raw.length
  have hunpack := LittleEndian.unpack_pack 8 raw.length (by simpa using h)
  have hsize : ¬ (LittleEndian.pack 8 raw.length ++ (raw ++ newline :: rest)).length < 8 := by
    simp [hlen]
  simp only [readSized, List.append_assoc, hsize, if_false, List.take_left' hlen,
    List.drop_left' hlen, hunpack]
  simp

theorem readField_text {label raw : Bytes} (hne : label ≠ []) (hnl : newline ∉ label)
    (heq : equals ∉ label) (hraw : newline ∉ raw) (rest : Bytes) :
    readField (label ++ [equals] ++ raw ++ [newline] ++ rest) =
      .ok ((asciiText label, raw), rest) := by
  have hline : newline ∉ label ++ equals :: raw := by
    simp only [List.mem_append, List.mem_cons, hnl, hraw, or_false, false_or]
    decide
  have hshape : label ++ [equals] ++ raw ++ [newline] ++ rest =
      (label ++ equals :: raw) ++ newline :: rest := by simp
  rw [hshape, readField, Separator.cut_append hline]
  simp [hne, Separator.cut_append heq]

theorem readField_sized {label raw : Bytes} (hne : label ≠ []) (hnl : newline ∉ label)
    (heq : equals ∉ label) (hraw : raw.length < 2 ^ 64) (rest : Bytes) :
    readField (label ++ [newline] ++ LittleEndian.pack 8 raw.length ++ raw ++ [newline] ++ rest) =
      .ok ((asciiText label, raw), rest) := by
  have hshape : label ++ [newline] ++ LittleEndian.pack 8 raw.length ++ raw ++ [newline] ++ rest =
      label ++ newline :: (LittleEndian.pack 8 raw.length ++ raw ++ newline :: rest) := by simp
  rw [hshape, readField, Separator.cut_append hnl]
  simp only [hne, if_false, Separator.cut_eq_none.mpr heq, readSized_pack hraw]
  rfl

theorem readField_encodeField {rt : Runtime} {name : Str} {value : Value} {part : Bytes}
    (h : encodeField rt name value = .ok part) :
    ∃ raw, asBytes value = .ok raw ∧
      ∀ rest, readField (part ++ rest) = .ok ((rt.upper name, raw), rest) := by
  obtain ⟨upper, hn, h⟩ := Fallible.bind_eq_ok.mp h
  obtain ⟨raw, hv, h⟩ := Fallible.bind_eq_ok.mp h
  obtain ⟨hupper, hne, hchars⟩ := checkFieldName_ok hn
  obtain ⟨label, hlabel, hnl, heq, htext⟩ := encodeAscii_of_nameChars hchars
  have hlne : label ≠ [] := by
    rintro rfl
    exact hne (by simpa [asciiText] using htext.symm)
  refine ⟨raw, hv, fun rest => ?_⟩
  rw [← hupper, ← htext]
  by_cases hm : newline ∈ raw
  · simp only [hm, if_true, hlabel, packLength] at h
    split at h
    · next hlen =>
      simp only [Fallible.ok_bind, Fallible.pure_eq_ok, Except.ok.injEq] at h
      rw [← h]
      exact readField_sized hlne hnl heq hlen rest
    · simp at h
  · simp only [hm, if_false, hlabel, Fallible.ok_bind, Fallible.pure_eq_ok, Except.ok.injEq] at h
    rw [← h]
    exact readField_text hlne hnl heq hm rest

/-- What a reader should see of one pair that was encoded. -/
def emitted (rt : Runtime) : Str × Value → Except PyErr (Str × Bytes)
  | (name, value) => do return (rt.upper name, ← asBytes value)

theorem readFields_flatten {rt : Runtime} {items : List (Str × Value)} {parts : List Bytes}
    (h : List.Forall₂ (fun (item : Str × Value) part => encodeField rt item.1 item.2 = .ok part)
      items parts) :
    ∃ entries, items.mapM (emitted rt) = .ok entries ∧ readFields parts.flatten = .ok entries := by
  induction h with
  | nil => exact ⟨[], rfl, by simp [readFields]⟩
  | @cons item part items parts hpart _ ih =>
    obtain ⟨raw, hraw, hread⟩ := readField_encodeField hpart
    obtain ⟨entries, hentries, hrest⟩ := ih
    refine ⟨(rt.upper item.1, raw) :: entries, ?_, ?_⟩
    · simp [List.mapM_cons, emitted, hraw, hentries]
    · rw [List.flatten_cons]
      exact readFields_cons (hread parts.flatten) hrest

/-- Reading an encoded entry gives its fields back, in the order emitted,
whatever bytes the values hold. -/
theorem readFields_encodeFields (rt : Runtime) {fields : Fields} {body : Bytes}
    (h : encodeFields rt fields = .ok body) :
    ∃ entries, fields.items.mapM (emitted rt) = .ok entries ∧ readFields body = .ok entries := by
  rw [encodeFields] at h
  split at h
  · cases h
  · obtain ⟨parts, hparts, hbody⟩ := Fallible.bind_eq_ok.mp h
    simp only [Fallible.pure_eq_ok, Except.ok.injEq] at hbody
    rw [← hbody]
    exact readFields_flatten (Fallible.mapM_eq_ok.mp hparts)

theorem readFields_encodeFields_unixPort :
    ∃ entries, (Fields.pairs [(str "message", .text (str "a\nB=c")), (str "Flag", .bool true)]).items.mapM
        (emitted .unixPort) = .ok entries ∧
      readFields (bytes "MESSAGE\n" ++ [5, 0, 0, 0, 0, 0, 0, 0] ++ bytes "a\nB=c\nFLAG=1\n") =
        .ok entries :=
  readFields_encodeFields .unixPort (by decide)

end Mpsystemd.Journal
