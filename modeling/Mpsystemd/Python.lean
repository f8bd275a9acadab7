import Mathlib.Order.Basic
import Mathlib.Data.List.Lex
import Mathlib.Order.Lattice
import Mathlib.Data.Nat.Basic

/-! The Python strings, values and exceptions the package works with, and the
UTF-8 codec between text and bytes. -/

namespace Mpsystemd

/-- One code point of a `str`: a Unicode scalar value, or one of the
surrogates, which a `str` may hold and UTF-8 cannot encode. -/
inductive CodePoint where
  | scalar (c : Char)
  | surrogate (k : Fin 2048)
  deriving DecidableEq, Repr

abbrev Str := List CodePoint

abbrev Bytes := List UInt8

namespace CodePoint

def ord : CodePoint → Nat
  | scalar c => c.toNat
  | surrogate k => 0xD800 + k

theorem ord_ne (c : Char) (k : Fin 2048) : ord (scalar c) ≠ ord (surrogate k) := by
  have hk := k.isLt
  have hc : c.toNat < 0xD800 ∨ 0xDFFF < c.toNat ∧ c.toNat < 0x110000 := c.valid
  simp only [ord]
  omega

theorem ord_injective : Function.Injective ord := by
  intro a b h
  cases a with
  | scalar c =>
    cases b with
    | scalar d => exact congrArg scalar (Char.toNat_inj.mp h)
    | surrogate k => exact absurd h (ord_ne c k)
  | surrogate k =>
    cases b with
    | scalar d => exact absurd h.symm (ord_ne d k)
    | surrogate j => exact congrArg surrogate (Fin.ext (Nat.add_left_cancel h))

instance : LinearOrder CodePoint := LinearOrder.lift' ord ord_injective

def char? : CodePoint → Option Char
  | scalar c => some c
  | surrogate _ => none

def utf8 : CodePoint → Option Bytes
  | scalar c => some (String.utf8EncodeChar c)
  | surrogate _ => none

end CodePoint

/-- A string literal of the source. -/
def str (s : String) : Str := s.toList.map .scalar

/-- A bytes literal of the source, ASCII. -/
def bytes (s : String) : Bytes := s.toList.map fun c => UInt8.ofNat c.toNat

/-- The values the package formats. An integer is one `str()` renders in
full, and `other` is any other object by what `str()` makes of it. -/
inductive Value where
  | bytes (b : Bytes)
  | bool (b : Bool)
  | int (i : Int)
  | text (s : Str)
  | other (s : Str)
  deriving DecidableEq, Repr

/-- Exceptions with the format string and arguments of their message. -/
inductive PyErr where
  | osError (errno : Nat)
  | valueError (text : String) (args : List Value)
  | unicodeError
  | structError
  | runtimeError
  | memoryError
  | overflowError (text : String)
  | systemdError (text : String) (args : List Value)
  | addressError (text : String) (args : List Value)
  | journalError (text : String) (args : List Value)
  | unsupportedError (text : String)
  deriving DecidableEq, Repr

/-- How a coroutine ends. -/
inductive Ending (α : Type) where
  | returned (result : α)
  | raised (e : PyErr)
  | cancelled

def PyErr.IsOSError : PyErr → Prop
  | osError _ => True
  | _ => False

instance : DecidablePred PyErr.IsOSError := fun e => by
  cases e <;> simp only [PyErr.IsOSError] <;> infer_instance

/-- What `except ValueError` catches: the codec errors are value errors. -/
def PyErr.IsValueError : PyErr → Prop
  | valueError _ _ => True
  | unicodeError => True
  | _ => False

instance : DecidablePred PyErr.IsValueError := fun e => by
  cases e <;> simp only [PyErr.IsValueError] <;> infer_instance

/-- `encode` of CPython. On the unix port it does not fail, and `decode` checks only
how the bytes are put together; what both take comes to the same. -/
def encodeUtf8 (s : Str) : Except PyErr Bytes :=
  match s.mapM CodePoint.utf8 with
  | some parts => .ok parts.flatten
  | none => .error .unicodeError

def decodeUtf8 (b : Bytes) : Except PyErr Str :=
  match b.toByteArray.utf8Decode? with
  | some chars => .ok (chars.toList.map .scalar)
  | none => .error .unicodeError

def encodeAscii (s : Str) : Except PyErr Bytes :=
  if s.all (·.ord < 128) then .ok (s.map fun c => UInt8.ofNat c.ord) else .error .unicodeError

inductive StrOrBytes where
  | text (s : Str)
  | bytes (b : Bytes)
  deriving DecidableEq, Repr

def StrOrBytes.decode : StrOrBytes → Except PyErr Str
  | text s => .ok s
  | bytes b => decodeUtf8 b

def StrOrBytes.encode : StrOrBytes → Except PyErr Bytes
  | text s => encodeUtf8 s
  | bytes b => .ok b

/-- The runtime underneath the package: CPython or the MicroPython unix port,
and whether its libc has `memfd_create`. `str.upper` maps code points one by
one, and both runtimes agree on ASCII. `parseInt` is `int` of a text, none
where it raises `ValueError`. -/
structure Runtime where
  micropython : Bool
  hasMemfd : Bool
  parseInt : Str → Option Int
  upperChar : CodePoint → Str
  upperChar_ascii : ∀ c : Char, c.toNat < 128 → upperChar (.scalar c) = [.scalar c.toUpper]

def Runtime.upper (rt : Runtime) (s : Str) : Str := s.flatMap rt.upperChar

/-- MicroPython maps the ASCII letters only. -/
def Runtime.unixPort : Runtime where
  micropython := true
  hasMemfd := true
  parseInt s := (String.ofList (s.filterMap CodePoint.char?)).toInt?
  upperChar
    | .scalar c => [.scalar c.toUpper]
    | .surrogate k => [.surrogate k]
  upperChar_ascii _ _ := rfl

/-! The codec round trip. -/

theorem encodeUtf8_scalars (chars : List Char) :
    encodeUtf8 (chars.map .scalar) = .ok (chars.flatMap String.utf8EncodeChar) := by
  have h : (chars.map CodePoint.scalar).mapM CodePoint.utf8 =
      some (chars.map String.utf8EncodeChar) := by
    induction chars with
    | nil => rfl
    | cons c chars ih => simp [CodePoint.utf8, ih]
  simp [encodeUtf8, h, List.flatMap]

theorem scalars_of_encodeUtf8 {s : Str} {b : Bytes} (h : encodeUtf8 s = .ok b) :
    ∃ chars, s = List.map CodePoint.scalar chars := by
  rw [encodeUtf8] at h
  cases hm : s.mapM CodePoint.utf8 with
  | none => simp [hm] at h
  | some parts =>
    clear h
    induction s generalizing parts with
    | nil => exact ⟨[], rfl⟩
    | cons c s ih =>
      simp only [List.mapM_cons, Option.bind_eq_bind, Option.bind_eq_some_iff] at hm
      obtain ⟨part, hc, rest, hr, _⟩ := hm
      obtain ⟨chars, rfl⟩ := ih rest hr
      cases c with
      | scalar c => exact ⟨c :: chars, rfl⟩
      | surrogate k => simp [CodePoint.utf8] at hc

def Encodable (s : Str) : Prop := ∃ b, encodeUtf8 s = .ok b

theorem encodable_iff {s : Str} : Encodable s ↔ ∀ c ∈ s, c.utf8.isSome := by
  constructor
  · rintro ⟨b, h⟩ c hc
    obtain ⟨chars, rfl⟩ := scalars_of_encodeUtf8 h
    obtain ⟨x, _, rfl⟩ := List.mem_map.mp hc
    rfl
  · intro h
    have hs : ∃ chars, s = List.map CodePoint.scalar chars := by
      induction s with
      | nil => exact ⟨[], rfl⟩
      | cons c s ih =>
        have hc := List.forall_mem_cons.mp h
        obtain ⟨chars, rfl⟩ := ih hc.2
        cases c with
        | scalar c => exact ⟨c :: chars, rfl⟩
        | surrogate k => exact absurd hc.1 (by simp [CodePoint.utf8])
    obtain ⟨chars, rfl⟩ := hs
    exact ⟨_, encodeUtf8_scalars chars⟩

theorem decodeUtf8_encode (chars : List Char) :
    decodeUtf8 (chars.flatMap String.utf8EncodeChar) = .ok (chars.map .scalar) := by
  have h : (chars.flatMap String.utf8EncodeChar).toByteArray.utf8Decode? = some chars.toArray :=
    List.utf8Decode?_utf8Encode
  simp [decodeUtf8, h]

theorem decodeUtf8_of_encodeUtf8 {s : Str} {b : Bytes} (h : encodeUtf8 s = .ok b) :
    decodeUtf8 b = .ok s := by
  obtain ⟨chars, rfl⟩ := scalars_of_encodeUtf8 h
  rw [encodeUtf8_scalars, Except.ok.injEq] at h
  rw [← h, decodeUtf8_encode]

theorem encodeUtf8_of_decodeUtf8 {s : Str} {b : Bytes} (h : decodeUtf8 b = .ok s) :
    encodeUtf8 s = .ok b := by
  rw [decodeUtf8] at h
  cases hd : b.toByteArray.utf8Decode? with
  | none => simp [hd] at h
  | some chars =>
    simp only [hd, Except.ok.injEq] at h
    have hsome : b.toByteArray.utf8Decode?.isSome := by simp [hd]
    have hback := @ByteArray.utf8Encode_get_utf8Decode? b.toByteArray hsome
    simp only [hd, Option.get_some, List.utf8Encode] at hback
    have hlist := congrArg (fun a => a.data.toList) hback
    simp only [List.toList_data_toByteArray] at hlist
    rw [← h, encodeUtf8_scalars, hlist]

/-! ASCII texts. -/

def Ascii (s : Str) : Prop := ∀ char ∈ s, char.ord < 128

instance : DecidablePred Ascii := fun s => inferInstanceAs (Decidable (∀ char ∈ s, char.ord < 128))

theorem utf8EncodeChar_ascii {c : Char} (h : c.toNat < 128) :
    String.utf8EncodeChar c = [UInt8.ofNat c.toNat] := by
  have hval : c.val.toNat ≤ 0x7F := Nat.le_of_lt_succ h
  simp only [String.utf8EncodeChar, if_pos hval]
  rfl

/-- The last byte of a longer sequence. -/
theorem exists_high_byte {c : Char} (h : 128 ≤ c.toNat) : ∃ b ∈ String.utf8EncodeChar c, 128 ≤ b.toNat := by
  have hval : ¬ c.val.toNat ≤ 0x7F := not_le.mpr h
  have hhigh : 128 ≤ (UInt8.ofNat (c.val.toNat % 0x40 + 0x80)).toNat := by
    rw [UInt8.toNat_ofNat']
    omega
  refine ⟨_, ?_, hhigh⟩
  simp only [String.utf8EncodeChar, if_neg hval]
  split
  · simp
  · split
    · simp
    · simp

theorem encodeUtf8_ascii {s : Str} (h : Ascii s) : encodeUtf8 s = .ok (s.map fun c => UInt8.ofNat c.ord) := by
  have hscalars : ∃ chars, s = List.map CodePoint.scalar chars ∧ ∀ c ∈ chars, c.toNat < 128 := by
    induction s with
    | nil => exact ⟨[], rfl, nofun⟩
    | cons char s ih =>
      obtain ⟨hchar, hs⟩ := List.forall_mem_cons.mp h
      obtain ⟨chars, rfl, hchars⟩ := ih hs
      cases char with
      | scalar c => exact ⟨c :: chars, rfl, List.forall_mem_cons.mpr ⟨hchar, hchars⟩⟩
      | surrogate k =>
        simp only [CodePoint.ord] at hchar
        omega
  obtain ⟨chars, rfl, hchars⟩ := hscalars
  rw [encodeUtf8_scalars, List.map_map, List.map_eq_flatMap]
  exact congrArg Except.ok (List.flatMap_congr fun c hc => utf8EncodeChar_ascii (hchars c hc))

theorem ascii_of_encodeUtf8 {s : Str} {data : Bytes} (h : encodeUtf8 s = .ok data)
    (hbytes : ∀ b ∈ data, b.toNat < 128) : Ascii s := by
  obtain ⟨chars, rfl⟩ := scalars_of_encodeUtf8 h
  rw [encodeUtf8_scalars, Except.ok.injEq] at h
  refine List.forall_mem_map.mpr fun c hc => ?_
  by_contra hhigh
  obtain ⟨b, hb, hge⟩ := exists_high_byte (not_lt.mp hhigh)
  have hlt := hbytes b (h ▸ List.mem_flatMap.mpr ⟨c, hc, hb⟩)
  omega

end Mpsystemd
