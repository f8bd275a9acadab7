import Mathlib.Data.Int.DivMod
import Mpsystemd.Lib.LittleEndian

/-! The integers of a C struct in a byte buffer, in the sizes and the byte order
of a machine, and the buffer as chunks that do not overlap. -/

namespace Struct

structure Machine where
  word : Nat
  word_eq : word = 4 ∨ word = 8
  bigEndian : Bool
  deriving Repr

namespace Machine

variable (m : Machine)

def packUnsigned (width n : Nat) : List UInt8 :=
  if m.bigEndian then (LittleEndian.pack width n).reverse else LittleEndian.pack width n

def unpackUnsigned (bytes : List UInt8) : Nat :=
  if m.bigEndian then LittleEndian.unpack bytes.reverse else LittleEndian.unpack bytes

@[simp] theorem packUnsigned_length (width n : Nat) : (m.packUnsigned width n).length = width := by
  rw [packUnsigned]
  split
  · rw [List.length_reverse, LittleEndian.pack_length]
  · rw [LittleEndian.pack_length]

theorem unpackUnsigned_pack (width n : Nat) (h : n < 256 ^ width) :
    m.unpackUnsigned (m.packUnsigned width n) = n := by
  rw [unpackUnsigned, packUnsigned]
  split
  · rw [List.reverse_reverse, LittleEndian.unpack_pack width n h]
  · rw [LittleEndian.unpack_pack width n h]

theorem packUnsigned_zero (width : Nat) : m.packUnsigned width 0 = List.replicate width 0 := by
  rw [packUnsigned, LittleEndian.pack_zero, List.reverse_replicate, ite_self]

/-- A C `int`, in two's complement; of an integer that is none, its low bits. -/
def packInt (i : Int) : List UInt8 := m.packUnsigned 4 (i % 0x100000000).toNat

def unpackInt (bytes : List UInt8) : Int :=
  if m.unpackUnsigned bytes < 0x80000000 then m.unpackUnsigned bytes
  else (m.unpackUnsigned bytes : Int) - 0x100000000

def IsInt (i : Int) : Prop := -2 ^ 31 ≤ i ∧ i < 2 ^ 31

@[simp] theorem packInt_length (i : Int) : (m.packInt i).length = 4 := m.packUnsigned_length 4 _

theorem unpackInt_pack {i : Int} (h : IsInt i) : m.unpackInt (m.packInt i) = i := by
  obtain ⟨hlow, hhigh⟩ := h
  have hlt : i % 0x100000000 < 0x100000000 := Int.emod_lt_of_pos i (by decide)
  have hbytes : (256 : Nat) ^ 4 = 0x100000000 := by decide
  have hfits : (i % 0x100000000).toNat < 256 ^ 4 := by omega
  rw [unpackInt, packInt, m.unpackUnsigned_pack 4 _ hfits]
  omega

def packInts (is : List Int) : List UInt8 := is.flatMap m.packInt

def unpackInts : Nat → List UInt8 → List Int
  | 0, _ => []
  | count + 1, bytes => m.unpackInt (bytes.take 4) :: unpackInts count (bytes.drop 4)

@[simp] theorem packInts_length (is : List Int) : (m.packInts is).length = 4 * is.length := by
  induction is with
  | nil => rfl
  | cons i is ih =>
    rw [packInts, List.flatMap_cons, List.length_append, ← packInts, ih, packInt_length, List.length_cons]
    omega

@[simp] theorem unpackInts_length (count : Nat) (bytes : List UInt8) :
    (m.unpackInts count bytes).length = count := by
  induction count generalizing bytes with
  | zero => rfl
  | succ count ih => rw [unpackInts, List.length_cons, ih]

theorem unpackInts_append {is : List Int} (h : ∀ i ∈ is, IsInt i) {count : Nat} (hcount : count ≤ is.length)
    (rest : List UInt8) : m.unpackInts count (m.packInts is ++ rest) = is.take count := by
  induction count generalizing is with
  | zero => rfl
  | succ count ih =>
    cases is with
    | nil => simp at hcount
    | cons i is =>
      obtain ⟨hi, his⟩ := List.forall_mem_cons.mp h
      rw [unpackInts, packInts, List.flatMap_cons, List.append_assoc, List.take_left' (m.packInt_length i),
        List.drop_left' (m.packInt_length i), m.unpackInt_pack hi]
      exact congrArg (i :: ·) (ih his (Nat.le_of_succ_le_succ hcount))

theorem unpackInts_take {count : Nat} {bytes : List UInt8} {k : Nat} (hk : 4 * count ≤ k) :
    m.unpackInts count (bytes.take k) = m.unpackInts count bytes := by
  induction count generalizing bytes k with
  | zero => rfl
  | succ count ih =>
    have htake : (bytes.take k).take 4 = bytes.take 4 := by rw [List.take_take, min_eq_left (by omega)]
    rw [unpackInts, unpackInts, htake, List.drop_take, ih (by omega)]

end Machine

def slice (buffer : List UInt8) (offset size : Nat) : Option (List UInt8) :=
  if offset + size ≤ buffer.length then some ((buffer.drop offset).take size) else none

def splice (buffer : List UInt8) (offset : Nat) (bytes : List UInt8) : Option (List UInt8) :=
  if offset + bytes.length ≤ buffer.length then
    some (buffer.take offset ++ bytes ++ buffer.drop (offset + bytes.length))
  else none

theorem slice_eq_some {buffer bytes : List UInt8} {offset size : Nat} (h : slice buffer offset size = some bytes) :
    offset + size ≤ buffer.length := by
  rw [slice] at h
  split at h
  · assumption
  · cases h

theorem slice_replicate {n offset size : Nat} (h : offset + size ≤ n) (byte : UInt8) :
    slice (List.replicate n byte) offset size = some (List.replicate size byte) := by
  rw [slice, List.length_replicate, if_pos h, List.drop_replicate, List.take_replicate, min_eq_left (by omega)]

theorem splice_append {before old after bytes : List UInt8} {offset : Nat} (h : before.length = offset)
    (hold : old.length = bytes.length) :
    splice (before ++ (old ++ after)) offset bytes = some (before ++ (bytes ++ after)) := by
  have hfits : offset + bytes.length ≤ (before ++ (old ++ after)).length := by
    simp only [List.length_append]
    omega
  have hrest : (before ++ (old ++ after)).drop (offset + bytes.length) = after := by
    rw [← List.append_assoc]
    apply List.drop_left'
    rw [List.length_append]
    omega
  rw [splice, if_pos hfits, List.take_left' h, hrest, List.append_assoc]

/-- Bytes and where they start: a field of a buffer, or a buffer in memory. -/
structure Chunk where
  start : Nat
  bytes : List UInt8

def Chunk.stop (c : Chunk) : Nat := c.start + c.bytes.length

def Chunk.Apart (c c' : Chunk) : Prop := c.stop ≤ c'.start ∨ c'.stop ≤ c.start

theorem Chunk.Apart.symm {c c' : Chunk} (h : c.Apart c') : c'.Apart c := Or.symm h

theorem splice_eq_some {buffer b bytes : List UInt8} {offset : Nat} (h : splice buffer offset bytes = some b) :
    offset + bytes.length ≤ buffer.length ∧
      b = buffer.take offset ++ (bytes ++ buffer.drop (offset + bytes.length)) := by
  rw [splice] at h
  split at h
  · next hfits =>
    cases h
    exact ⟨hfits, List.append_assoc ..⟩
  · cases h

theorem splice_length {buffer b bytes : List UInt8} {offset : Nat} (h : splice buffer offset bytes = some b) :
    b.length = buffer.length := by
  obtain ⟨hfits, rfl⟩ := splice_eq_some h
  simp only [List.length_append, List.length_take, List.length_drop]
  omega

theorem slice_splice_self {buffer b bytes : List UInt8} {offset : Nat} (h : splice buffer offset bytes = some b) :
    slice b offset bytes.length = some bytes := by
  have hlength := splice_length h
  obtain ⟨hfits, rfl⟩ := splice_eq_some h
  have hstart : (buffer.take offset).length = offset := by rw [List.length_take, min_eq_left (by omega)]
  rw [slice, if_pos (by omega), List.drop_left' hstart, List.take_left]

theorem slice_splice_apart {buffer b bytes : List UInt8} {offset offset' size : Nat}
    (h : splice buffer offset bytes = some b)
    (hapart : offset' + size ≤ offset ∨ offset + bytes.length ≤ offset') :
    slice b offset' size = slice buffer offset' size := by
  have hlength := splice_length h
  obtain ⟨hfits, rfl⟩ := splice_eq_some h
  rw [slice, slice, hlength]
  split
  · next hslice =>
    congr 1
    apply List.ext_getElem?
    intro i
    by_cases hi : i < size
    · rw [List.getElem?_take_of_lt hi, List.getElem?_take_of_lt hi, List.getElem?_drop, List.getElem?_drop]
      rcases hapart with hbefore | hafter
      · rw [List.getElem?_append_left (by simp only [List.length_take]; omega), List.getElem?_take_of_lt (by omega)]
      · have hstart : (buffer.take offset).length = offset := by rw [List.length_take, min_eq_left (by omega)]
        rw [List.getElem?_append_right (by omega), List.getElem?_append_right (by omega), List.getElem?_drop,
          hstart]
        congr 1
        omega
    · rw [List.getElem?_eq_none (by simp only [List.length_take]; omega),
        List.getElem?_eq_none (by simp only [List.length_take]; omega)]
  · rfl

theorem splice_whole {buffer bytes : List UInt8} (h : bytes.length = buffer.length) :
    splice buffer 0 bytes = some bytes := by
  rw [splice, if_pos (by omega), List.take_zero, List.nil_append, List.drop_of_length_le (by omega),
    List.append_nil]

theorem take_splice {buffer b bytes : List UInt8} (h : splice buffer 0 bytes = some b) :
    b.take bytes.length = bytes := by
  have hslice := slice_splice_self h
  rw [slice, if_pos (slice_eq_some hslice), List.drop_zero] at hslice
  exact Option.some.inj hslice

/-- Chunks written one after the other. -/
def splices (buffer : List UInt8) (chunks : List Chunk) : Option (List UInt8) :=
  chunks.foldlM (fun buffer chunk => splice buffer chunk.start chunk.bytes) buffer

theorem splices_nil (buffer : List UInt8) : splices buffer [] = some buffer := rfl

theorem splices_cons {buffer : List UInt8} {chunk : Chunk} {chunks : List Chunk} :
    splices buffer (chunk :: chunks) = (splice buffer chunk.start chunk.bytes).bind (splices · chunks) := by
  rw [splices, List.foldlM_cons]
  rfl

theorem splices_length {buffer b : List UInt8} {chunks : List Chunk} (h : splices buffer chunks = some b) :
    b.length = buffer.length := by
  induction chunks generalizing buffer with
  | nil =>
    cases h
    rfl
  | cons c chunks ih =>
    rw [splices_cons, Option.bind_eq_some_iff] at h
    obtain ⟨b', hb', hrest⟩ := h
    rw [ih hrest, splice_length hb']

theorem splices_of_fits {buffer : List UInt8} {chunks : List Chunk} (h : ∀ c ∈ chunks, c.stop ≤ buffer.length) :
    ∃ b, splices buffer chunks = some b := by
  induction chunks generalizing buffer with
  | nil => exact ⟨buffer, splices_nil buffer⟩
  | cons c chunks ih =>
    obtain ⟨hc, hchunks⟩ := List.forall_mem_cons.mp h
    obtain ⟨b, hb⟩ : ∃ b, splice buffer c.start c.bytes = some b := ⟨_, if_pos hc⟩
    obtain ⟨b', hb'⟩ := @ih b (by rwa [splice_length hb])
    refine ⟨b', ?_⟩
    rw [splices_cons, hb]
    exact hb'

theorem slice_splices_apart {buffer b : List UInt8} {chunks : List Chunk} (h : splices buffer chunks = some b)
    {offset size : Nat} (hapart : ∀ c ∈ chunks, offset + size ≤ c.start ∨ c.stop ≤ offset) :
    slice b offset size = slice buffer offset size := by
  induction chunks generalizing buffer with
  | nil =>
    cases h
    rfl
  | cons c chunks ih =>
    obtain ⟨hc, hchunks⟩ := List.forall_mem_cons.mp hapart
    rw [splices_cons, Option.bind_eq_some_iff] at h
    obtain ⟨b', hb', hrest⟩ := h
    rw [ih hrest hchunks, slice_splice_apart hb' hc]

/-- Chunks that do not overlap can all be read back. -/
theorem slice_splices_self {buffer b : List UInt8} {chunks : List Chunk} (h : splices buffer chunks = some b)
    (hapart : chunks.Pairwise Chunk.Apart) {c : Chunk} (hc : c ∈ chunks) :
    slice b c.start c.bytes.length = some c.bytes := by
  induction chunks generalizing buffer with
  | nil => cases hc
  | cons first chunks ih =>
    obtain ⟨hfirst, hchunks⟩ := List.pairwise_cons.mp hapart
    rw [splices_cons, Option.bind_eq_some_iff] at h
    obtain ⟨b', hb', hrest⟩ := h
    rcases List.mem_cons.mp hc with rfl | hc
    · rw [slice_splices_apart hrest hfirst, slice_splice_self hb']
    · exact ih hrest hchunks hc

end Struct
