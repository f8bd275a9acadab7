import Mpsystemd.Address
import Mpsystemd.Lib.Fallible
import Mpsystemd.Lib.Struct

/-! The socket an address names: the `sockaddr_un` that the MicroPython backend
builds of it, as the kernel reads it. -/

namespace Mpsystemd

open Struct (Machine)

namespace MicroPython

def afUnix : Nat := 1

def saFamilySize : Nat := 2

/-- The buffer, and the address length to report with it. -/
def sockaddrUn (m : Machine) (sunPath : Bytes) : Bytes × Nat :=
  (m.packUnsigned saFamilySize afUnix ++ sunPath ++ [0], saFamilySize + sunPath.length)

end MicroPython

open MicroPython

inductive SocketName where
  | abstract (name : Bytes)
  | path (name : Bytes)
  deriving DecidableEq, Repr

/-- How the kernel reads a `sockaddr_un` of `len` bytes. -/
def SocketName.read (buffer : Bytes) (len : Nat) : SocketName :=
  if buffer[saFamilySize]? = some 0 then .abstract ((buffer.drop (saFamilySize + 1)).take (len - 3))
  else .path ((buffer.drop saFamilySize).takeWhile (· ≠ 0))

def socketOf (m : Machine) (sunPath : Bytes) : SocketName :=
  .read (sockaddrUn m sunPath).1 (sockaddrUn m sunPath).2

def Abstract (raw : Bytes) : Prop := raw.head? = some 0 ∨ raw.head? = some 0x40

def Absolute (raw : Bytes) : Prop := raw.head? = some 0x2F

instance : DecidablePred Abstract := fun _ => inferInstanceAs (Decidable (_ ∨ _))

instance : DecidablePred Absolute := fun _ => inferInstanceAs (Decidable (_ = _))

/-- The socket that the bytes of an address spell. -/
def spelled (raw : Bytes) : SocketName := if Abstract raw then .abstract (raw.drop 1) else .path raw

/-- Within `sun_path`, with the terminator of a path. -/
def AddressFits (raw : Bytes) : Prop :=
  Abstract raw ∧ raw.length ≤ sunPathSize ∨ Absolute raw ∧ raw.length + 1 ≤ sunPathSize

instance : DecidablePred AddressFits := fun _ => inferInstanceAs (Decidable (_ ∨ _))

/-- The bytes with the prefix that the kernel wants. -/
def prefixed (raw : Bytes) : Bytes := if raw.take 1 = bytes "@" then 0 :: raw.drop 1 else raw

variable {m : Machine} {raw : Bytes} {address : StrOrBytes}

theorem unless_longer_iff {length limit : Nat} {e : PyErr} {sunPath sunPath' : Bytes} :
    (if limit < length then Except.error e else .ok sunPath) = .ok sunPath' ↔
      length ≤ limit ∧ sunPath = sunPath' := by
  by_cases h : limit < length
  · simp [h]
  · simp [h, not_lt.mp h]

section FirstByte

variable {b : UInt8} {rest : Bytes}

theorem bytes_at : bytes "@" = [0x40] := by decide

theorem bytes_slash : bytes "/" = [0x2F] := by decide

theorem encodeUnixAddress_abstract (hb : b = 0 ∨ b = 0x40) : encodeUnixAddress (.bytes (b :: rest)) =
    if sunPathSize < rest.length + 1 then
      .error (.addressError "abstract socket name is longer than %d bytes" [.int (sunPathSize - 1)])
    else .ok (0 :: rest) := by
  rcases hb with rfl | rfl
  · simp [encodeUnixAddress, StrOrBytes.encode, bytes_at]
  · simp [encodeUnixAddress, StrOrBytes.encode, bytes_at]

theorem encodeUnixAddress_absolute : encodeUnixAddress (.bytes (0x2F :: rest)) =
    if sunPathSize - 1 < rest.length + 1 then
      .error (.addressError "socket path is longer than %d bytes" [.int (sunPathSize - 1)])
    else .ok (0x2F :: rest) := by
  simp [encodeUnixAddress, StrOrBytes.encode, bytes_at, bytes_slash]

theorem encodeUnixAddress_other (hb : ¬ (b = 0 ∨ b = 0x40)) (hpath : b ≠ 0x2F) :
    ∃ text args, encodeUnixAddress (.bytes (b :: rest)) = .error (.addressError text args) := by
  obtain ⟨hnul, hat⟩ := not_or.mp hb
  simp [encodeUnixAddress, StrOrBytes.encode, bytes_at, bytes_slash, hnul, hat, hpath]
  split
  · exact ⟨_, _, rfl⟩
  · exact ⟨_, _, rfl⟩

end FirstByte

theorem not_abstract (h : Absolute raw) : ¬ Abstract raw := by
  rw [Abstract, h]
  decide

theorem prefixed_abstract (h : Abstract raw) : prefixed raw = 0 :: raw.drop 1 := by
  cases raw with
  | nil => simp [Abstract] at h
  | cons b rest =>
    rw [prefixed, bytes_at]
    rcases h with h | h
    · cases h
      rfl
    · cases h
      rfl

theorem prefixed_absolute (h : Absolute raw) : prefixed raw = raw := by
  cases raw with
  | nil => rfl
  | cons b rest =>
    cases h
    rfl

theorem encodeUnixAddress_bytes_iff {sunPath : Bytes} :
    encodeUnixAddress (.bytes raw) = .ok sunPath ↔ AddressFits raw ∧ prefixed raw = sunPath := by
  cases raw with
  | nil => simp [encodeUnixAddress, StrOrBytes.encode, AddressFits, Abstract, Absolute]
  | cons b rest =>
    by_cases hb : b = 0 ∨ b = 0x40
    · rw [encodeUnixAddress_abstract hb, unless_longer_iff]
      rcases hb with rfl | rfl
      · simp [AddressFits, Abstract, Absolute, prefixed, bytes_at]
      · simp [AddressFits, Abstract, Absolute, prefixed, bytes_at]
    · by_cases hpath : b = 0x2F
      · subst hpath
        have hfits : AddressFits (0x2F :: rest) ↔ rest.length + 1 + 1 ≤ sunPathSize := by
          simp [AddressFits, Abstract, Absolute]
        have habsolute : Absolute (0x2F :: rest) := rfl
        rw [encodeUnixAddress_absolute, unless_longer_iff, hfits, prefixed_absolute habsolute, sunPathSize]
        exact and_congr_left fun _ => by omega
      · obtain ⟨text, args, hother⟩ := @encodeUnixAddress_other b rest hb hpath
        rw [hother]
        simp [AddressFits, Abstract, Absolute, hb, hpath]

theorem encodeUnixAddress_eq (address : StrOrBytes) :
    encodeUnixAddress address = (do encodeUnixAddress (.bytes (← address.encode))) := rfl

theorem encodeUnixAddress_text {text : Str} (h : encodeUtf8 text = .ok raw) :
    encodeUnixAddress (.text text) = encodeUnixAddress (.bytes raw) := by
  rw [encodeUnixAddress_eq, StrOrBytes.encode, h]
  rfl

theorem encodeUnixAddress_eq_ok_iff {sunPath : Bytes} : encodeUnixAddress address = .ok sunPath ↔
    ∃ raw, address.encode = .ok raw ∧ AddressFits raw ∧ prefixed raw = sunPath := by
  rw [encodeUnixAddress_eq, Fallible.bind_eq_ok]
  exact exists_congr fun raw => and_congr_right fun _ => encodeUnixAddress_bytes_iff

/-! What the kernel reads. -/

theorem upToNul_eq_iff {path : Bytes} : (path ++ [0]).takeWhile (· ≠ 0) = path ↔ 0 ∉ path := by
  induction path with
  | nil => simp
  | cons b path ih =>
    by_cases hb : b = 0
    · simp [hb]
    · have hrest : 0 ∉ b :: path ↔ 0 ∉ path := by simp [Ne.symm hb]
      rw [List.cons_append, List.takeWhile_cons_of_pos (by simpa using hb), List.cons_inj_right, ih, hrest]

theorem sockaddrUn_drop (sunPath : Bytes) (n : Nat) :
    (sockaddrUn m sunPath).1.drop (saFamilySize + n) = (sunPath ++ [0]).drop n := by
  have hfamily := m.packUnsigned_length saFamilySize afUnix
  rw [sockaddrUn, List.append_assoc, ← List.drop_drop, List.drop_left' hfamily]

theorem socketOf_abstract (name : Bytes) : socketOf m (0 :: name) = .abstract name := by
  have hfirst : (sockaddrUn m (0 :: name)).1[saFamilySize]? = some 0 := by
    rw [← List.head?_drop]
    exact congrArg List.head? (sockaddrUn_drop (0 :: name) 0)
  have hlength : (sockaddrUn m (0 :: name)).2 - 3 = name.length := by
    simp only [sockaddrUn, saFamilySize, List.length_cons]
    omega
  rw [socketOf, SocketName.read, if_pos hfirst, sockaddrUn_drop, hlength]
  simp

theorem socketOf_path {sunPath : Bytes} (h : Absolute sunPath) :
    socketOf m sunPath = .path ((sunPath ++ [0]).takeWhile (· ≠ 0)) := by
  have hfirst : (sockaddrUn m sunPath).1[saFamilySize]? ≠ some 0 := by
    rw [← List.head?_drop]
    have hdrop := congrArg List.head? (sockaddrUn_drop (m := m) sunPath 0)
    rw [Nat.add_zero, List.drop_zero, List.head?_append, h] at hdrop
    rw [hdrop]
    decide
  have hdrop := sockaddrUn_drop (m := m) sunPath 0
  rw [socketOf, SocketName.read, if_neg hfirst]
  exact congrArg (fun path => SocketName.path (path.takeWhile (· ≠ 0))) hdrop

/-- The kernel reads what an address spells unless a NUL ends its path early. -/
theorem socketOf_eq_spelled_iff (h : AddressFits raw) :
    socketOf m (prefixed raw) = spelled raw ↔ Abstract raw ∨ 0 ∉ raw := by
  rcases h with ⟨habstract, -⟩ | ⟨habsolute, -⟩
  · rw [prefixed_abstract habstract, socketOf_abstract, spelled, if_pos habstract]
    exact iff_of_true rfl (.inl habstract)
  · have hpath := not_abstract habsolute
    rw [prefixed_absolute habsolute, socketOf_path habsolute, spelled, if_neg hpath, SocketName.path.injEq,
      upToNul_eq_iff, or_iff_right hpath]

/-- The bytes differ in nothing but the spelling of the abstract prefix. -/
def SameAddress (raw raw' : Bytes) : Prop :=
  raw = raw' ∨ Abstract raw ∧ Abstract raw' ∧ raw.drop 1 = raw'.drop 1

theorem spelled_injective {raw' : Bytes} (h : spelled raw = spelled raw') : SameAddress raw raw' := by
  rw [spelled, spelled] at h
  split at h
  · next habstract =>
    split at h
    · next habstract' => exact .inr ⟨habstract, habstract', SocketName.abstract.inj h⟩
    · cases h
  · split at h
    · cases h
    · exact .inl (SocketName.path.inj h)

/-- An address that fits is taken, and the `sockaddr_un` of it fits too, with the
terminator of a path, and names the socket that the address spells. -/
structure NamesSocket (m : Machine) (address : StrOrBytes) : Prop where
  taken : ∀ raw, address.encode = .ok raw → AddressFits raw → ∃ sunPath, encodeUnixAddress address = .ok sunPath
  fits : ∀ sunPath, encodeUnixAddress address = .ok sunPath → (sockaddrUn m sunPath).2 ≤ 2 + 108
  terminated : ∀ sunPath, encodeUnixAddress address = .ok sunPath → Absolute sunPath →
    (sockaddrUn m sunPath).2 < 2 + 108 ∧ (sockaddrUn m sunPath).1[(sockaddrUn m sunPath).2]? = some 0
  named : ∀ raw sunPath, address.encode = .ok raw → encodeUnixAddress address = .ok sunPath →
    socketOf m sunPath = spelled raw

/-- Refused, abstract, or a path without a NUL. -/
def PlainAddress (address : StrOrBytes) : Prop :=
  ∀ raw, address.encode = .ok raw → AddressFits raw → Abstract raw ∨ 0 ∉ raw

theorem addressFits_prefixed (h : AddressFits raw) : AddressFits (prefixed raw) := by
  rcases h with ⟨habstract, hlength⟩ | ⟨habsolute, hlength⟩
  · rw [prefixed_abstract habstract]
    refine .inl ⟨.inl rfl, ?_⟩
    cases raw with
    | nil => simp [Abstract] at habstract
    | cons b rest => exact hlength
  · rw [prefixed_absolute habsolute]
    exact .inr ⟨habsolute, hlength⟩

theorem addressFits_of_encode {sunPath : Bytes} (h : encodeUnixAddress address = .ok sunPath) :
    AddressFits sunPath := by
  obtain ⟨raw, -, hfits, rfl⟩ := encodeUnixAddress_eq_ok_iff.mp h
  exact addressFits_prefixed hfits

theorem sockaddrUn_terminator (sunPath : Bytes) :
    (sockaddrUn m sunPath).1[(sockaddrUn m sunPath).2]? = some 0 := by
  have hdrop := congrArg List.head? (sockaddrUn_drop (m := m) sunPath sunPath.length)
  rwa [List.head?_drop, List.drop_left] at hdrop

theorem namesSocket_iff : NamesSocket m address ↔ PlainAddress address := by
  constructor
  · intro h raw hraw hfits
    obtain ⟨sunPath, hsunPath⟩ := h.taken raw hraw hfits
    have hnamed := h.named raw sunPath hraw hsunPath
    obtain ⟨raw', hraw', -, rfl⟩ := encodeUnixAddress_eq_ok_iff.mp hsunPath
    rw [hraw, Except.ok.injEq] at hraw'
    subst hraw'
    exact (socketOf_eq_spelled_iff hfits).mp hnamed
  · intro h
    refine ⟨fun raw hraw hfits => ?_, fun sunPath hsunPath => ?_, fun sunPath hsunPath hpath => ?_,
      fun raw sunPath hraw hsunPath => ?_⟩
    · exact ⟨_, encodeUnixAddress_eq_ok_iff.mpr ⟨raw, hraw, hfits, rfl⟩⟩
    · have hlength := addressFits_of_encode hsunPath
      simp only [AddressFits, sunPathSize] at hlength
      simp only [sockaddrUn, saFamilySize]
      omega
    · rcases addressFits_of_encode hsunPath with ⟨habstract, -⟩ | ⟨-, hlength⟩
      · exact absurd habstract (not_abstract hpath)
      · refine ⟨?_, sockaddrUn_terminator sunPath⟩
        simp only [sockaddrUn, saFamilySize, sunPathSize] at hlength ⊢
        omega
    · obtain ⟨raw', hraw', hfits, rfl⟩ := encodeUnixAddress_eq_ok_iff.mp hsunPath
      rw [hraw, Except.ok.injEq] at hraw'
      subst hraw'
      exact (socketOf_eq_spelled_iff hfits).mpr (h raw hraw hfits)

/-- Two accepted addresses name one socket only if they are the same address. -/
def NameApart (m : Machine) (a b : StrOrBytes) : Prop :=
  ∀ raw raw' sunPath sunPath', a.encode = .ok raw → b.encode = .ok raw' →
    encodeUnixAddress a = .ok sunPath → encodeUnixAddress b = .ok sunPath' →
    socketOf m sunPath = socketOf m sunPath' → SameAddress raw raw'

/-- Each of two addresses names the socket that it spells, and they name one
socket only if they are the same, exactly when neither is a path with a NUL. -/
theorem addresses_name_iff (m : Machine) (a b : StrOrBytes) :
    NamesSocket m a ∧ NamesSocket m b ∧ NameApart m a b ↔ PlainAddress a ∧ PlainAddress b := by
  constructor
  · rintro ⟨ha, hb, -⟩
    exact ⟨namesSocket_iff.mp ha, namesSocket_iff.mp hb⟩
  · rintro ⟨ha, hb⟩
    have hnamed : NamesSocket m a := namesSocket_iff.mpr ha
    have hnamed' : NamesSocket m b := namesSocket_iff.mpr hb
    refine ⟨hnamed, hnamed', fun raw raw' sunPath sunPath' hraw hraw' hencode hencode' hsame => ?_⟩
    rw [hnamed.named raw sunPath hraw hencode, hnamed'.named raw' sunPath' hraw' hencode'] at hsame
    exact spelled_injective hsame

def nulPath : Bytes := bytes "/a" ++ 0 :: bytes "b"

/-- The kernel reads no more of a path with a NUL than it reads of another path. -/
theorem nulPath_cut : encodeUnixAddress (.bytes nulPath) = .ok nulPath ∧
    encodeUnixAddress (.bytes (bytes "/a")) = .ok (bytes "/a") ∧
    socketOf ⟨8, .inr rfl, false⟩ nulPath = .path (bytes "/a") ∧
    socketOf ⟨8, .inr rfl, false⟩ (bytes "/a") = .path (bytes "/a") ∧
    ¬ (NamesSocket ⟨8, .inr rfl, false⟩ (.bytes nulPath) ∧ NamesSocket ⟨8, .inr rfl, false⟩ (.bytes (bytes "/a")) ∧
      NameApart ⟨8, .inr rfl, false⟩ (.bytes nulPath) (.bytes (bytes "/a"))) := by
  refine ⟨rfl, rfl, rfl, rfl, fun h => ?_⟩
  cases h.1.named nulPath nulPath rfl rfl

end Mpsystemd
