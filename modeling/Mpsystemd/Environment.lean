import Mathlib.Data.List.TakeWhile
import Mpsystemd.Lib.Fallible
import Mpsystemd.Platform

/-! The text that the process environment gives back for one that was put in. -/

namespace Mpsystemd

variable {σ : Type}

def nul : CodePoint := .scalar '\x00'

/-- CPython encodes with `surrogateescape`: the surrogates from U+DC80 to U+DCFF
stand for the bytes that UTF-8 could not decode. -/
def CodePoint.fsencode : CodePoint → Option Bytes
  | scalar c => some (String.utf8EncodeChar c)
  | surrogate k => if 0x480 ≤ k.val ∧ k.val < 0x500 then some [UInt8.ofNat (k - 0x400)] else none

def fsencode (s : Str) : Except PyErr Bytes :=
  match s.mapM CodePoint.fsencode with
  | some parts => .ok parts.flatten
  | none => .error .unicodeError

def escaped (b : UInt8) : CodePoint := .surrogate ⟨0x400 + b.toNat, by have := b.toNat_lt; omega⟩

/-- The fuel is the number of bytes, each step takes at least one. -/
def fsdecodeFrom : Nat → Bytes → Str
  | 0, _ => []
  | _ + 1, [] => []
  | fuel + 1, b :: rest =>
    match (b :: rest).toByteArray.utf8DecodeChar? 0 with
    | some c => .scalar c :: fsdecodeFrom fuel ((b :: rest).drop c.utf8Size)
    | none => escaped b :: fsdecodeFrom fuel rest

def fsdecode (b : Bytes) : Str := fsdecodeFrom b.length b

/-- What `getenv` gives back of a text: CPython stores its bytes and refuses one
with a NUL, MicroPython stores a C string. -/
def environText (rt : Runtime) (value : Str) : Except PyErr Str :=
  if rt.micropython then .ok (value.takeWhile (· ≠ nul))
  else do
    let encoded ← fsencode value
    if nul ∈ value then throw (.valueError "embedded null byte" [])
    return fsdecode encoded

def setenv (rt : Runtime) (name value : Str) : Py σ Unit := do
  let text ← Method.lift (environText rt value)
  Method.lift (check (← sys (.setenv name text)))

/-! Texts without lone surrogates and NULs come back as they are. -/

theorem fsdecodeFrom_utf8 {fuel : Nat} (chars : List Char)
    (hfuel : (chars.flatMap String.utf8EncodeChar).length ≤ fuel) :
    fsdecodeFrom fuel (chars.flatMap String.utf8EncodeChar) = chars.map .scalar := by
  induction chars generalizing fuel with
  | nil =>
    cases fuel with
    | zero => rfl
    | succ fuel => rfl
  | cons c chars ih =>
    have hc : 0 < (String.utf8EncodeChar c).length := by
      rw [String.length_utf8EncodeChar]
      exact c.utf8Size_pos
    rw [List.flatMap_cons, List.length_append] at hfuel
    obtain ⟨fuel, rfl⟩ : ∃ n, fuel = n + 1 := ⟨fuel - 1, by omega⟩
    obtain ⟨b, rest, hb⟩ : ∃ b rest,
      String.utf8EncodeChar c ++ chars.flatMap String.utf8EncodeChar = b :: rest := by
      cases h : String.utf8EncodeChar c with
      | nil => simp [h] at hc
      | cons b bs => exact ⟨b, _, rfl⟩
    have hdecode : (b :: rest).toByteArray.utf8DecodeChar? 0 = some c := by
      rw [← hb, List.toByteArray_append]
      exact ByteArray.utf8DecodeChar?_utf8EncodeChar_append
    have hdrop : (b :: rest).drop c.utf8Size = chars.flatMap String.utf8EncodeChar := by
      rw [← hb, ← String.length_utf8EncodeChar, List.drop_left]
    rw [List.flatMap_cons, hb, fsdecodeFrom]
    simp only [hdecode, hdrop, List.map_cons]
    rw [ih (by omega)]

theorem takeWhile_nul {value : Str} (hnul : nul ∉ value) : value.takeWhile (· ≠ nul) = value := by
  apply List.takeWhile_eq_self_iff.mpr
  intro c hc
  have hne : c ≠ nul := fun heq => hnul (heq ▸ hc)
  exact decide_eq_true hne

theorem environText_of_scalars (rt : Runtime) {chars : List Char} (hnul : '\x00' ∉ chars) :
    environText rt (chars.map .scalar) = .ok (chars.map .scalar) := by
  have hmem : nul ∉ chars.map CodePoint.scalar := by simpa [nul] using hnul
  have hencode : fsencode (chars.map .scalar) = .ok (chars.flatMap String.utf8EncodeChar) := by
    have h : (chars.map CodePoint.scalar).mapM CodePoint.fsencode = some (chars.map String.utf8EncodeChar) := by
      clear hnul hmem
      induction chars with
      | nil => rfl
      | cons c chars ih => simp [CodePoint.fsencode, ih]
    simp [fsencode, h, List.flatMap]
  by_cases hmp : rt.micropython = true
  · rw [environText, if_pos hmp, takeWhile_nul hmem]
  · rw [environText, if_neg hmp, hencode, Fallible.ok_bind, if_neg hmem, fsdecode,
      fsdecodeFrom_utf8 chars le_rfl]
    rfl

theorem environText_micropython {rt : Runtime} (hmp : rt.micropython = true) {value : Str}
    (hnul : nul ∉ value) : environText rt value = .ok value := by
  rw [environText, if_pos hmp, takeWhile_nul hnul]

theorem isDigit_or_eq_of_mem_toString {i : Int} {c : Char} (h : c ∈ (toString i).toList) :
    c.isDigit ∨ c = '-' := by
  have hdigits : ∀ n : Nat, c ∈ (toString n).toList → c.isDigit := by
    intro n hmem
    apply Nat.isDigit_of_mem_toDigits (b := 10) (n := n) (by decide) (by decide)
    simpa using hmem
  cases i with
  | ofNat n => exact .inl (hdigits n h)
  | negSucc n =>
    have hneg : (toString (Int.negSucc n)).toList = '-' :: (toString (n + 1)).toList := by
      show ("-" ++ Nat.repr (n + 1)).toList = _
      simp
    rw [hneg, List.mem_cons] at h
    exact h.symm.imp_left (hdigits (n + 1))

theorem nul_notMem_toString (i : Int) : '\x00' ∉ (toString i).toList := by
  intro hmem
  have hnul : ¬ (('\x00' : Char).isDigit ∨ ('\x00' : Char) = '-') := by decide
  exact hnul (isDigit_or_eq_of_mem_toString hmem)

theorem environText_decimal (rt : Runtime) (i : Int) :
    environText rt (str (toString i)) = .ok (str (toString i)) :=
  environText_of_scalars rt (nul_notMem_toString i)

/-! Which values UTF-8 can encode again. -/

theorem fsdecode_of_decodeUtf8 {v : Bytes} {text : Str} (h : decodeUtf8 v = .ok text) : fsdecode v = text := by
  have hencode := encodeUtf8_of_decodeUtf8 h
  obtain ⟨chars, rfl⟩ := scalars_of_encodeUtf8 hencode
  rw [encodeUtf8_scalars, Except.ok.injEq] at hencode
  rw [← hencode, fsdecode, fsdecodeFrom_utf8 chars le_rfl]

theorem utf8_of_fsdecodeFrom {fuel : Nat} {v : Bytes} {chars : List Char} (hfuel : v.length ≤ fuel)
    (h : fsdecodeFrom fuel v = chars.map .scalar) : v = chars.flatMap String.utf8EncodeChar := by
  induction fuel generalizing v chars with
  | zero =>
    rw [List.length_eq_zero_iff.mp (Nat.le_zero.mp hfuel)] at h ⊢
    rw [List.map_eq_nil_iff.mp h.symm]
    rfl
  | succ fuel ih =>
    cases v with
    | nil =>
      rw [List.map_eq_nil_iff.mp h.symm]
      rfl
    | cons b rest =>
      rw [fsdecodeFrom] at h
      cases hdecode : (b :: rest).toByteArray.utf8DecodeChar? 0 with
      | none =>
        simp only [hdecode] at h
        obtain ⟨c, chars, -, hc, -⟩ := List.map_eq_cons_iff.mp h.symm
        cases hc
      | some c =>
        simp only [hdecode] at h
        obtain ⟨c', chars, rfl, hc, hrest⟩ := List.map_eq_cons_iff.mp h.symm
        cases hc
        obtain ⟨tail, htail⟩ := ByteArray.exists_of_utf8DecodeChar?_eq_some hdecode
        have hsplit : b :: rest = String.utf8EncodeChar c ++ tail.data.toList := by
          have hlist := congrArg (fun a => a.data.toList) htail
          simpa using hlist
        have hpos := c.utf8Size_pos
        rw [hsplit, ← String.length_utf8EncodeChar, List.drop_left] at hrest
        rw [hsplit, List.flatMap_cons]
        rw [hsplit, List.length_append, String.length_utf8EncodeChar] at hfuel
        rw [ih (by omega) hrest.symm]

theorem encodable_fsdecode_iff {v : Bytes} : Encodable (fsdecode v) ↔ ∃ text, decodeUtf8 v = .ok text := by
  constructor
  · rintro ⟨data, hdata⟩
    obtain ⟨chars, hchars⟩ := scalars_of_encodeUtf8 hdata
    rw [utf8_of_fsdecodeFrom le_rfl hchars]
    exact ⟨_, decodeUtf8_encode chars⟩
  · rintro ⟨text, htext⟩
    rw [fsdecode_of_decodeUtf8 htext]
    exact ⟨v, encodeUtf8_of_decodeUtf8 htext⟩

end Mpsystemd
