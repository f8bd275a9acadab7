import Mathlib.Data.List.Pairwise
import Mpsystemd.Lib.Struct

/-! The buffers of a process at their addresses. Reading and writing outside of
them fails. -/

namespace Struct

namespace Chunk

variable {c c' : Chunk} {address size : Nat} {data : List UInt8}

instance : Std.Symm Apart := ⟨fun _ _ => Apart.symm⟩

instance : DecidableRel Apart := fun _ _ => inferInstanceAs (Decidable (_ ∨ _))

theorem Apart.resize (h : c.Apart c') {b : List UInt8} (hlength : b.length = c.bytes.length) :
    Apart ⟨c.start, b⟩ c' := by
  rw [Apart, stop, hlength]
  exact h

def Contains (c : Chunk) (address size : Nat) : Prop := c.start ≤ address ∧ address + size ≤ c.stop

instance (c : Chunk) (address size : Nat) : Decidable (c.Contains address size) :=
  inferInstanceAs (Decidable (_ ∧ _))

/-- The chunk with the data at an address, if it has room for them there. -/
def patch (c : Chunk) (address : Nat) (data : List UInt8) : Chunk :=
  if c.Contains address data.length then ⟨c.start, (splice c.bytes (address - c.start) data).getD c.bytes⟩ else c

theorem patch_of_contains (h : c.Contains address data.length) :
    ∃ b, splice c.bytes (address - c.start) data = some b ∧ c.patch address data = ⟨c.start, b⟩ := by
  obtain ⟨hstart, hstop⟩ := h
  have hfits : address - c.start + data.length ≤ c.bytes.length := by
    rw [stop] at hstop
    omega
  obtain ⟨b, hb⟩ : ∃ b, splice c.bytes (address - c.start) data = some b := ⟨_, if_pos hfits⟩
  exact ⟨b, hb, by rw [patch, if_pos ⟨hstart, hstop⟩, hb, Option.getD_some]⟩

theorem patch_of_not_contains (h : ¬ c.Contains address data.length) : c.patch address data = c := if_neg h

theorem patch_start_stop (c : Chunk) (address : Nat) (data : List UInt8) :
    (c.patch address data).start = c.start ∧ (c.patch address data).stop = c.stop := by
  by_cases h : c.Contains address data.length
  · obtain ⟨b, hb, hpatch⟩ := patch_of_contains h
    rw [hpatch, stop, stop, splice_length hb]
    exact ⟨rfl, rfl⟩
  · rw [patch_of_not_contains h]
    exact ⟨rfl, rfl⟩

theorem Apart.patch (h : c.Apart c') : (c.patch address data).Apart (c'.patch address data) := by
  rw [Apart, (patch_start_stop c address data).1, (patch_start_stop c address data).2,
    (patch_start_stop c' address data).1, (patch_start_stop c' address data).2]
  exact h

end Chunk

structure Memory where
  buffers : List Chunk
  apart : buffers.Pairwise Chunk.Apart

namespace Memory

variable {memory : Memory} {c : Chunk} {address size : Nat} {data : List UInt8}

def read (memory : Memory) (address size : Nat) : Option (List UInt8) :=
  if size = 0 then some []
  else (memory.buffers.find? (·.Contains address size)).bind fun c => slice c.bytes (address - c.start) size

def write (memory : Memory) (address : Nat) (data : List UInt8) : Option Memory :=
  if data = [] then some memory
  else if ∃ c ∈ memory.buffers, c.Contains address data.length then
    some ⟨memory.buffers.map (·.patch address data), List.pairwise_map.mpr (memory.apart.imp Chunk.Apart.patch)⟩
  else none

theorem not_apart_of_contains {c' : Chunk} (hsize : 0 < size) (h : c.Contains address size)
    (h' : c'.Contains address size) : ¬ c'.Apart c := by
  obtain ⟨hstart, hstop⟩ := h
  obtain ⟨hstart', hstop'⟩ := h'
  rintro (hbefore | hafter)
  · omega
  · omega

theorem read_of_mem (hc : c ∈ memory.buffers) {offset : Nat} (hfits : offset + size ≤ c.bytes.length) :
    memory.read (c.start + offset) size = slice c.bytes offset size := by
  have hcontains : c.Contains (c.start + offset) size := ⟨by omega, by rw [Chunk.stop]; omega⟩
  by_cases hsize : size = 0
  · rw [read, if_pos hsize, slice, if_pos hfits, hsize, List.take_zero]
  · obtain ⟨found, hfound⟩ : ∃ found, memory.buffers.find? (·.Contains (c.start + offset) size) = some found := by
      rw [← Option.isSome_iff_exists, List.find?_isSome]
      exact ⟨c, hc, by simpa using hcontains⟩
    have hfoundContains : found.Contains (c.start + offset) size := by simpa using List.find?_some hfound
    have hsame : found = c := by
      by_contra hne
      exact not_apart_of_contains (Nat.pos_of_ne_zero hsize) hcontains hfoundContains
        (memory.apart.forall (List.mem_of_find?_eq_some hfound) hc hne)
    rw [read, if_neg hsize, hfound, hsame, Option.bind_some, Nat.add_sub_cancel_left]

theorem read_start (hc : c ∈ memory.buffers) (hsize : size ≤ c.bytes.length) :
    memory.read c.start size = some (c.bytes.take size) := by
  have hfits : 0 + size ≤ c.bytes.length := by omega
  have hread := read_of_mem hc hfits
  rwa [slice, if_pos hfits, Nat.add_zero, List.drop_zero] at hread

/-- A write within a buffer changes that buffer alone. -/
theorem write_of_mem (hc : c ∈ memory.buffers) {offset : Nat} (hfits : offset + data.length ≤ c.bytes.length) :
    ∃ memory' b, memory.write (c.start + offset) data = some memory' ∧ splice c.bytes offset data = some b ∧
      ⟨c.start, b⟩ ∈ memory'.buffers ∧ ∀ c' ∈ memory.buffers, c'.Apart c → c' ∈ memory'.buffers := by
  have hcontains : c.Contains (c.start + offset) data.length := ⟨by omega, by rw [Chunk.stop]; omega⟩
  obtain ⟨b, hb, hpatch⟩ := Chunk.patch_of_contains hcontains
  rw [Nat.add_sub_cancel_left] at hb
  by_cases hdata : data = []
  · obtain ⟨-, hsame⟩ := splice_eq_some hb
    rw [hdata, List.nil_append, List.length_nil, Nat.add_zero, List.take_append_drop] at hsame
    exact ⟨memory, b, if_pos hdata, hb, hsame ▸ hc, fun c' hc' _ => hc'⟩
  · rw [write, if_neg hdata, if_pos ⟨c, hc, hcontains⟩]
    refine ⟨_, b, rfl, hb, hpatch ▸ List.mem_map_of_mem hc, fun c' hc' hapart => ?_⟩
    have hnot : ¬ c'.Contains (c.start + offset) data.length :=
      fun h => not_apart_of_contains (List.length_pos_iff.mpr hdata) hcontains h hapart
    exact List.mem_map.mpr ⟨c', hc', Chunk.patch_of_not_contains hnot⟩

end Memory

end Struct
