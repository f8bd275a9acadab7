import Mpsystemd.Platform
import Mpsystemd.Lib.Fallible
import Mpsystemd.Lib.Struct

/-! Descriptors in a control message: the buffer the MicroPython backend builds
and parses, and what the CPython backend takes from `recvmsg`. -/

namespace Mpsystemd

open Struct (Machine)

def solSocket : Int := 1

def scmRightsType : Int := 1

def fdSize : Nat := 4

namespace MicroPython

def bytearray (size : Int) : Except PyErr Bytes :=
  if 0 ≤ size then .ok (List.replicate size.toNat 0) else .error .memoryError

def packInto (buffer : Bytes) (offset : Nat) (data : Bytes) : Except PyErr Bytes :=
  match Struct.splice buffer offset data with
  | some buffer => .ok buffer
  | none => .error (.valueError "buffer too small" [])

def unpackFrom (buffer : Bytes) (offset size : Nat) : Except PyErr Bytes :=
  match Struct.slice buffer offset size with
  | some data => .ok data
  | none => .error (.valueError "buffer too small" [])

/-- `(size + WORD - 1) & ~(WORD - 1)`, where the word is a power of two. -/
def cmsgAlign (m : Machine) (size : Int) : Int := (size + m.word - 1) / m.word * m.word

def cmsgHdrSize (m : Machine) : Nat := (cmsgAlign m (m.word + 2 * 4)).toNat

def scmRights (m : Machine) (fds : List Fd) : Except PyErr Bytes := do
  let control ← bytearray (cmsgHdrSize m + cmsgAlign m (fdSize * fds.length))
  let control ← packInto control 0 (m.packUnsigned m.word (cmsgHdrSize m + fdSize * fds.length))
  let control ← packInto control m.word (m.packInts [solSocket, scmRightsType])
  packInto control (cmsgHdrSize m) (m.packInts fds)

def parseScmRights (m : Machine) (control : Bytes) (controllen : Nat) : Except PyErr (List Fd) :=
  if controllen < cmsgHdrSize m then .ok []
  else do
    let cmsgLen := m.unpackUnsigned (← unpackFrom control 0 m.word)
    let kind := m.unpackInts 2 (← unpackFrom control m.word (2 * 4))
    if kind ≠ [solSocket, scmRightsType] then return []
    else
      let count := ((min cmsgLen controllen : Nat) - cmsgHdrSize m : Int) / fdSize
      if count ≤ 0 then return []
      else return m.unpackInts count.toNat (← unpackFrom control (cmsgHdrSize m) (fdSize * count.toNat))

end MicroPython

namespace CPython

/-- The descriptors in the control messages of a `recvmsg`, each with its level,
its type and its data. -/
def extractFds (m : Machine) (ancdata : List (Int × Int × Bytes)) : List Fd :=
  ancdata.flatMap fun (level, kind, payload) =>
    if level = solSocket ∧ kind = scmRightsType then
      let count := payload.length / fdSize
      m.unpackInts count (payload.take (count * fdSize))
    else []

end CPython

namespace MicroPython

variable {m : Machine}

theorem bytearray_eq_ok {size : Int} {buf : Bytes} (h : bytearray size = .ok buf) :
    buf = List.replicate size.toNat 0 := by
  rw [bytearray] at h
  split at h
  · cases h
    rfl
  · cases h

theorem packInto_append {before old after data : Bytes} {offset : Nat} (h : before.length = offset)
    (hold : old.length = data.length) :
    packInto (before ++ (old ++ after)) offset data = .ok (before ++ (data ++ after)) := by
  rw [packInto, Struct.splice_append h hold]

theorem cmsgHdrSize_eq (m : Machine) : cmsgHdrSize m = m.word + 8 := by
  rw [cmsgHdrSize, cmsgAlign]
  rcases m.word_eq with h | h
  · rw [h]
    rfl
  · rw [h]
    rfl

theorem cmsgAlign_ge (m : Machine) (size : Int) : size ≤ cmsgAlign m size ∧ cmsgAlign m size < size + m.word := by
  rw [cmsgAlign]
  rcases m.word_eq with h | h
  · rw [h]
    omega
  · rw [h]
    omega

theorem scmRights_eq (m : Machine) (fds : List Fd) :
    scmRights m fds = .ok (m.packUnsigned m.word (cmsgHdrSize m + 4 * fds.length) ++
      (m.packInts [solSocket, scmRightsType] ++
        (m.packInts fds ++ List.replicate (cmsgAlign m (4 * fds.length) - 4 * fds.length).toNat 0))) := by
  have hge := (cmsgAlign_ge m (4 * fds.length)).1
  have hhdr := cmsgHdrSize_eq m
  generalize hpadding : (cmsgAlign m (4 * fds.length) - 4 * fds.length).toNat = padding
  have hsize : ((cmsgHdrSize m : Int) + cmsgAlign m (4 * fds.length)).toNat =
      m.word + (8 + (4 * fds.length + padding)) := by omega
  -- The buffer in the parts that the three `pack_into` write over, and the padding.
  have hzero : bytearray (cmsgHdrSize m + cmsgAlign m (4 * fds.length)) =
      .ok (List.replicate m.word 0 ++ (List.replicate 8 0 ++
        (List.replicate (4 * fds.length) 0 ++ List.replicate padding 0))) := by
    rw [bytearray, if_pos (by omega), hsize]
    simp only [List.replicate_add]
  have hlength : ∀ size rest, packInto (List.replicate m.word 0 ++ rest) 0 (m.packUnsigned m.word size) =
      .ok (m.packUnsigned m.word size ++ rest) :=
    fun size rest => @packInto_append [] _ rest _ 0 rfl (by simp)
  have hkind : ∀ size rest, packInto (m.packUnsigned m.word size ++ (List.replicate 8 0 ++ rest)) m.word
      (m.packInts [solSocket, scmRightsType]) =
      .ok (m.packUnsigned m.word size ++ (m.packInts [solSocket, scmRightsType] ++ rest)) :=
    fun size rest => packInto_append (by simp) (by simp)
  have hfds : ∀ size rest, packInto (m.packUnsigned m.word size ++ (m.packInts [solSocket, scmRightsType] ++
      (List.replicate (4 * fds.length) 0 ++ rest))) (cmsgHdrSize m) (m.packInts fds) =
      .ok (m.packUnsigned m.word size ++ (m.packInts [solSocket, scmRightsType] ++
        (m.packInts fds ++ rest))) := by
    intro size rest
    rw [← List.append_assoc, packInto_append (by simp [hhdr]) (by simp), List.append_assoc]
  rw [scmRights]
  simp only [fdSize, Nat.cast_ofNat, hzero, Fallible.ok_bind, hlength, hkind, hfds]

variable {control : Bytes} {k : Nat}

theorem unpackFrom_eq {offset size : Nat} (h : offset + size ≤ control.length) :
    unpackFrom control offset size = .ok ((control.drop offset).take size) := by
  rw [unpackFrom, Struct.slice, if_pos h]

theorem parseScmRights_eq (hk : k ≤ control.length) :
    parseScmRights m control k =
      .ok (if cmsgHdrSize m ≤ k ∧ m.unpackInts 2 ((control.drop m.word).take 8) = [solSocket, scmRightsType] then
        m.unpackInts ((min (m.unpackUnsigned (control.take m.word)) k - cmsgHdrSize m) / 4)
          (control.drop (cmsgHdrSize m))
      else []) := by
  have hhdr := cmsgHdrSize_eq m
  rw [parseScmRights]
  by_cases hshort : k < cmsgHdrSize m
  · rw [if_pos hshort, if_neg (by omega)]
  rw [if_neg hshort, unpackFrom_eq (by omega), unpackFrom_eq (by omega), List.drop_zero]
  simp only [Fallible.ok_bind]
  by_cases hkind : m.unpackInts 2 ((control.drop m.word).take 8) = [solSocket, scmRightsType]
  · have hheader : cmsgHdrSize m ≤ k ∧
        m.unpackInts 2 ((control.drop m.word).take 8) = [solSocket, scmRightsType] := ⟨by omega, hkind⟩
    rw [if_neg (not_not.mpr hkind), if_pos hheader]
    generalize m.unpackUnsigned (control.take m.word) = cmsgLen
    have hcount : (((min cmsgLen k : Nat) - cmsgHdrSize m : Int) / fdSize).toNat =
        (min cmsgLen k - cmsgHdrSize m) / 4 := by
      simp only [fdSize]
      omega
    split
    · next hnone =>
      rw [← hcount, Int.toNat_of_nonpos hnone]
      rfl
    · rw [hcount, unpackFrom_eq (by simp only [fdSize]; omega), Fallible.ok_bind, fdSize,
        m.unpackInts_take (le_refl _)]
      rfl
  · rw [if_pos hkind, if_neg fun h => hkind h.2]
    rfl

theorem parseScmRights_take (hk : k ≤ control.length) :
    parseScmRights m (control.take k) k = parseScmRights m control k := by
  have hhdr := cmsgHdrSize_eq m
  rw [parseScmRights_eq hk, parseScmRights_eq (by rw [List.length_take]; omega)]
  by_cases hshort : k < cmsgHdrSize m
  · rw [if_neg (by omega), if_neg (by omega)]
  -- The header, and the descriptors that are counted, end within the prefix.
  have hlength : (control.take k).take m.word = control.take m.word := by
    rw [List.take_take, min_eq_left (by omega)]
  have hkind : ((control.take k).drop m.word).take 8 = (control.drop m.word).take 8 := by
    rw [List.drop_take, List.take_take, min_eq_left (by omega)]
  rw [hlength, hkind]
  generalize m.unpackUnsigned (control.take m.word) = cmsgLen
  have hcount : 4 * ((min cmsgLen k - cmsgHdrSize m) / 4) ≤ k - cmsgHdrSize m := by omega
  rw [List.drop_take, m.unpackInts_take hcount]

theorem cmsgLen_lt {fds : List Fd} (hcount : fds.length ≤ maxFdsPerMessage) :
    cmsgHdrSize m + 4 * fds.length < 256 ^ m.word := by
  have hhdr := cmsgHdrSize_eq m
  rw [maxFdsPerMessage] at hcount
  rcases m.word_eq with h | h
  · rw [h] at hhdr ⊢
    norm_num
    omega
  · rw [h] at hhdr ⊢
    norm_num
    omega

theorem isInt_kind : ∀ i ∈ [solSocket, scmRightsType], Machine.IsInt i := by
  simp [solSocket, scmRightsType, Machine.IsInt]

/-- A control buffer that holds a message with the descriptors: the parser takes
those that are there in whole within the reported length. -/
theorem parseScmRights_message {fds : List Fd} {padding : Bytes} (hcount : fds.length ≤ maxFdsPerMessage)
    (hfds : ∀ fd ∈ fds, Machine.IsInt fd)
    (hcontrol : control = m.packUnsigned m.word (cmsgHdrSize m + 4 * fds.length) ++
      (m.packInts [solSocket, scmRightsType] ++ (m.packInts fds ++ padding)))
    (hk : k ≤ control.length) :
    parseScmRights m control k = .ok (fds.take (min fds.length ((k - cmsgHdrSize m) / 4))) := by
  have hhdr := cmsgHdrSize_eq m
  have hlen : m.unpackUnsigned (control.take m.word) = cmsgHdrSize m + 4 * fds.length := by
    rw [hcontrol, List.take_left' (m.packUnsigned_length ..), m.unpackUnsigned_pack _ _ (cmsgLen_lt hcount)]
  have hrest : control.drop m.word = m.packInts [solSocket, scmRightsType] ++ (m.packInts fds ++ padding) := by
    rw [hcontrol, List.drop_left' (m.packUnsigned_length ..)]
  have hkind : m.unpackInts 2 ((control.drop m.word).take 8) = [solSocket, scmRightsType] := by
    rw [hrest, List.take_left' (by simp), ← List.append_nil (m.packInts _),
      m.unpackInts_append isInt_kind (by simp)]
    rfl
  have hdata : control.drop (cmsgHdrSize m) = m.packInts fds ++ padding := by
    rw [hhdr, ← List.drop_drop, hrest, List.drop_left' (by simp)]
  rw [parseScmRights_eq hk, hlen, hdata]
  by_cases hshort : k < cmsgHdrSize m
  · rw [if_neg (by omega), Nat.sub_eq_zero_of_le (by omega)]
    simp
  · have htaken : (min (cmsgHdrSize m + 4 * fds.length) k - cmsgHdrSize m) / 4 =
        min fds.length ((k - cmsgHdrSize m) / 4) := by omega
    rw [if_pos ⟨by omega, hkind⟩, htaken, m.unpackInts_append hfds (by omega)]

theorem parseScmRights_scmRights {fds : List Fd} (hcount : fds.length ≤ maxFdsPerMessage)
    (hfds : ∀ fd ∈ fds, Machine.IsInt fd) (hcontrol : scmRights m fds = .ok control)
    (hk : k ≤ control.length) :
    parseScmRights m control k = .ok (fds.take (min fds.length ((k - cmsgHdrSize m) / 4))) := by
  rw [scmRights_eq, Except.ok.injEq] at hcontrol
  exact parseScmRights_message hcount hfds hcontrol.symm hk

theorem extractFds_take {fds : List Fd} (hfds : ∀ fd ∈ fds, Machine.IsInt fd) (size : Nat) :
    CPython.extractFds m [(solSocket, scmRightsType, (m.packInts fds).take size)] =
      fds.take (min fds.length (size / 4)) := by
  have hcount : ((m.packInts fds).take size).length / fdSize = min fds.length (size / 4) := by
    rw [List.length_take, m.packInts_length, fdSize]
    omega
  have hrest := @Machine.unpackInts_append m fds hfds (min fds.length (size / 4)) (by omega) []
  rw [CPython.extractFds, List.flatMap_singleton]
  simp only [and_self, if_true, hcount]
  rw [m.unpackInts_take (by rw [fdSize]; omega), m.unpackInts_take (by omega)]
  rwa [List.append_nil] at hrest

/-- The buffer for up to `maxFdsPerMessage` descriptors gives them back, whole
and cut off, as the other backend has them; and the parser stays within the
reported length of any buffer. -/
theorem scm_rights_round_trip (m : Machine) :
    (∀ fds : List Fd, fds.length ≤ maxFdsPerMessage → (∀ fd ∈ fds, Machine.IsInt fd) →
      ∃ control, scmRights m fds = .ok control ∧
        parseScmRights m control control.length = .ok fds ∧
        ∀ k ≤ control.length,
          parseScmRights m control k = .ok (fds.take (min fds.length ((k - cmsgHdrSize m) / 4))) ∧
          parseScmRights m control k = .ok (CPython.extractFds m
            [(solSocket, scmRightsType, (m.packInts fds).take (k - cmsgHdrSize m))])) ∧
    ∀ (control : Bytes) (k : Nat), cmsgHdrSize m ≤ control.length → k ≤ control.length →
      ∃ fds, parseScmRights m control k = .ok fds ∧ parseScmRights m (control.take k) k = .ok fds := by
  constructor
  · intro fds hcount hfds
    obtain ⟨control, hcontrol⟩ : ∃ control, scmRights m fds = .ok control := ⟨_, scmRights_eq m fds⟩
    have hparse : ∀ k ≤ control.length, _ := fun k hk => parseScmRights_scmRights hcount hfds hcontrol hk
    refine ⟨control, hcontrol, ?_, fun k hk => ⟨hparse k hk, ?_⟩⟩
    · have hlong : cmsgHdrSize m + 4 * fds.length ≤ control.length := by
        have hhdr := cmsgHdrSize_eq m
        rw [scmRights_eq, Except.ok.injEq] at hcontrol
        rw [← hcontrol]
        simp only [List.length_append, m.packUnsigned_length, m.packInts_length, List.length_cons, List.length_nil]
        omega
      rw [hparse _ le_rfl, min_eq_left (by omega), List.take_length]
    · rw [hparse k hk, extractFds_take hfds]
  · intro control k _ hk
    exact ⟨_, parseScmRights_eq hk, (parseScmRights_take hk).trans (parseScmRights_eq hk)⟩

end MicroPython

end Mpsystemd
