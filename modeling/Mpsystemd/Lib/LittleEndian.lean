import Mathlib.Data.Nat.Digits.Defs
import Mathlib.Tactic.Ring

/-! Fixed width little endian integers as bytes. -/

namespace LittleEndian

def pack : Nat → Nat → List UInt8
  | 0, _ => []
  | width + 1, n => UInt8.ofNat (n % 256) :: pack width (n / 256)

def unpack (bytes : List UInt8) : Nat := Nat.ofDigits 256 (bytes.map UInt8.toNat)

@[simp] theorem pack_length (width n : Nat) : (pack width n).length = width := by
  induction width generalizing n with
  | zero => rfl
  | succ width ih => simp [pack, ih]

theorem unpack_pack (width n : Nat) (h : n < 256 ^ width) : unpack (pack width n) = n := by
  induction width generalizing n with
  | zero =>
    have : n = 0 := by simpa using h
    simp [pack, unpack, this]
  | succ width ih =>
    have hdiv : n / 256 < 256 ^ width := by
      rw [Nat.div_lt_iff_lt_mul (by decide), ← pow_succ]
      exact h
    have hbyte : (UInt8.ofNat (n % 256)).toNat = n % 256 := by simp
    have hrest : Nat.ofDigits 256 ((pack width (n / 256)).map UInt8.toNat) = n / 256 :=
      ih _ hdiv
    simp only [pack, unpack, List.map_cons, Nat.ofDigits_cons, hbyte, hrest]
    exact Nat.mod_add_div n 256

theorem pack_zero (width : Nat) : pack width 0 = List.replicate width 0 := by
  induction width with
  | zero => rfl
  | succ width ih =>
    rw [pack, List.replicate_succ, Nat.zero_div, ih]
    rfl

end LittleEndian
