import Mpsystemd.Python
import Mpsystemd.Lib.Dict
import Mpsystemd.Lib.Fallible
import Mpsystemd.Lib.Separator

/-! The body of a notification datagram: raw state strings and keyword fields
serialised into newline separated assignments. -/

namespace Mpsystemd

def nameFirst : Str := str "ABCDEFGHIJKLMNOPQRSTUVWXYZ"

def nameRest : Str := nameFirst ++ str "0123456789_"

def newline : CodePoint := .scalar '\n'

def equals : CodePoint := .scalar '='

def formatValue : Value → Except PyErr Str
  | .bool true => .ok (str "1")
  | .bool false => .ok (str "0")
  | .bytes b => decodeUtf8 b
  | .int i => .ok (str (toString i))
  | .text s => .ok s
  | .other s => .ok s

def checkName (rt : Runtime) (name : Str) : Except PyErr Str :=
  match rt.upper name with
  | [] => .error (.valueError "state field name is empty" [])
  | first :: rest =>
    if first ∉ nameFirst then
      .error (.valueError "state field name must start with a letter: %r" [.text name])
    else if ∃ char ∈ first :: rest, char ∉ nameRest then
      .error (.valueError "state field name has an invalid character: %r" [.text name])
    else .ok (first :: rest)

def assignment (rt : Runtime) : Str × Value → Except PyErr Str
  | (name, value) => do
    let upper ← checkName rt name
    let value ← formatValue value
    if newline ∈ value then
      throw (.valueError "state field %s holds a newline, which would start a new assignment"
        [.text upper])
    return upper ++ equals :: value

/-- The lines of the stripped states that are not empty, then one for each
field by sorted name. -/
def payloadLines (rt : Runtime) (states : List StrOrBytes) (fields : Dict Str Value) :
    Except PyErr (List Str) := do
  let states ← states.mapM StrOrBytes.decode
  let assignments ← fields.sorted.mapM (assignment rt)
  return (states.map (Separator.strip newline)).filter (· ≠ []) ++ assignments

def buildPayload (rt : Runtime) (states : List StrOrBytes) (fields : Dict Str Value) :
    Except PyErr Bytes := do
  let lines ← payloadLines rt states fields
  if lines = [] then throw (.valueError "nothing to notify" [])
  encodeUtf8 ([newline].intercalate lines ++ [newline])

def fdnameMax : Nat := 255

def checkFdname (name : Str) : Except PyErr Str :=
  if name = [] then .error (.valueError "descriptor store name is empty" [])
  else if name.length > fdnameMax then
    .error (.valueError "descriptor store name is longer than %d characters" [.int fdnameMax])
  else if ∃ char ∈ name, char = .scalar ':' ∨ char.ord < 0x20 ∨ char.ord = 0x7F then
    .error (.valueError "descriptor store name has an invalid character" [])
  else .ok name

/-! Which arguments are accepted. -/

theorem checkName_ok {rt : Runtime} {name upper : Str} (h : checkName rt name = .ok upper) :
    upper = rt.upper name ∧ upper ≠ [] ∧ ∀ c ∈ upper, c ∈ nameRest := by
  rw [checkName] at h
  cases hu : rt.upper name with
  | nil => simp [hu] at h
  | cons first rest =>
    simp only [hu] at h
    split at h
    · cases h
    · split at h
      · cases h
      · next hchars =>
        simp only [Except.ok.injEq] at h
        subst h
        push Not at hchars
        exact ⟨rfl, by simp, hchars⟩

theorem checkName_error {rt : Runtime} {name : Str} {e : PyErr} (h : checkName rt name = .error e) :
    e.IsValueError := by
  rw [checkName] at h
  cases hu : rt.upper name with
  | nil =>
    simp only [hu, Except.error.injEq] at h
    simp [← h, PyErr.IsValueError]
  | cons first rest =>
    simp only [hu] at h
    split at h
    · simp only [Except.error.injEq] at h
      simp [← h, PyErr.IsValueError]
    · split at h
      · simp only [Except.error.injEq] at h
        simp [← h, PyErr.IsValueError]
      · cases h

theorem checkFdname_ok {name accepted : Str} (h : checkFdname name = .ok accepted) :
    accepted = name ∧ name ≠ [] ∧ ∀ char ∈ name, char ≠ .scalar ':' ∧ 0x20 ≤ char.ord ∧ char.ord ≠ 0x7F := by
  rw [checkFdname] at h
  split at h
  · cases h
  · next hne =>
    split at h
    · cases h
    · split at h
      · cases h
      · next hchars =>
        refine ⟨(Except.ok.inj h).symm, hne, fun char hchar => ?_⟩
        have hvalid : ¬ (char = .scalar ':' ∨ char.ord < 0x20 ∨ char.ord = 0x7F) :=
          fun hbad => hchars ⟨char, hchar, hbad⟩
        simpa only [not_or, not_lt] using hvalid

theorem decodeUtf8_error {b : Bytes} {e : PyErr} (h : decodeUtf8 b = .error e) : e = .unicodeError := by
  rw [decodeUtf8] at h
  split at h
  · cases h
  · simpa using h.symm

theorem encodeUtf8_error {s : Str} {e : PyErr} (h : encodeUtf8 s = .error e) : e = .unicodeError := by
  rw [encodeUtf8] at h
  split at h
  · cases h
  · simpa using h.symm

theorem encodeUtf8_error_iff {s : Str} {e : PyErr} :
    encodeUtf8 s = .error e ↔ ¬ Encodable s ∧ e = .unicodeError := by
  constructor
  · intro h
    refine ⟨?_, encodeUtf8_error h⟩
    rintro ⟨data, hdata⟩
    rw [hdata] at h
    cases h
  · rintro ⟨hnot, rfl⟩
    rcases Fallible.isOk_or_isError (encodeUtf8 s) with hok | ⟨e, he⟩
    · exact absurd hok hnot
    · rw [he, encodeUtf8_error he]

end Mpsystemd
